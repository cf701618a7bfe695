import FingerTracking.CommandLine
import FingerTracking.ConfigFile
import FingerTracking.Files
import FingerTracking.Profile
import FingerTracking.Scaling
import FingerTracking.Settings

/-!
Configuration: what the program runs with.

Three layers lie on top of one another: the command line, one configuration file, and what the
device profile and the program itself bring along. The file is the first of a few candidates that
can be read and understood (`Config.search`); the others are not looked at.
-/

namespace FingerTracking

structure Config where
  device : String
  profile : Profile
  screenWidth : Int32
  screenHeight : Int32
  xMax : Int32
  yMax : Int32
  trailLength : Nat
  threshold : Int32
  filtered : Bool
  maxFingers : Nat
  recordsPerCall : Nat
  format : Format
  layout : Layout
deriving DecidableEq, Inhabited

namespace Config

/-! ## Layers -/

/-- Raw records read in one call, if nothing else is asked for: 4096 bytes of short ones. -/
def standardRecordsPerCall : Nat := 256

/-- The profile with this name, or the usual one if there is no name. -/
def profileOf (name : Option String) : Except Fault Profile :=
  match name with
  | none => .ok Profile.standard
  | some n =>
    match Profile.ofName? n with
    | some p => .ok p
    | none => .error (.config (.unknownProfile n Profile.names))

/-- The configuration of a layer on top of a profile. -/
def onProfile (l : Layer) (p : Profile) : Config :=
  let usual : Settings := {}
  { device := l.device.getD p.device
    profile := p
    screenWidth := l.screenWidth.getD p.screenWidth
    screenHeight := l.screenHeight.getD p.screenHeight
    xMax := l.xMax.getD p.xMax
    yMax := l.yMax.getD p.yMax
    trailLength := l.trailLength.getD usual.trailLength
    threshold := l.threshold.getD usual.threshold
    filtered := l.filtered.getD usual.filtered
    maxFingers := l.maxFingers.getD usual.maxFingers
    recordsPerCall := l.recordsPerCall.getD standardRecordsPerCall
    format := l.format.getD .events
    layout := l.layout.getD p.layout }

def ofLayer (l : Layer) : Except Fault Config :=
  (profileOf l.profile).map (onProfile l)

/-! ## Finding the file -/

def fileName : String := "touch-synth.toml"

/-- A path inside a directory. -/
def join (directory path : String) : String :=
  if directory = "" ∨ directory.toList.getLast? = some '/' then directory ++ path
  else directory ++ "/" ++ path

/-- Where a configuration may be, in the order of the search: where the command line says, in the
working directory, and in the home directory. -/
def candidates (a : CommandLine.Arguments) (env : Environment) : List String :=
  a.config.toList ++ [fileName] ++ (env.home.map fun h => join (join h ".config") fileName).toList

/-- What a search for a configuration file found. -/
structure Found where
  layer : Layer
  notes : List Note

/-- The first file that can be read and understood; no settings if there is none. -/
def search (fs : Files) : List String → Found
  | [] => { layer := Layer.empty, notes := [] }
  | path :: rest =>
    match fs.text? path with
    | none => search fs rest
    | some text =>
      match ConfigFile.read? text with
      | some layer => { layer, notes := [.configLoaded path] }
      | none =>
        let found := search fs rest
        { found with notes := .configRejected path :: found.notes }

/-- The configuration of a command line, with the notes of the search for its file. -/
structure Loaded where
  config : Except Fault Config
  notes : List Note

def load (a : CommandLine.Arguments) (env : Environment) (fs : Files) : Loaded :=
  let found := search fs (candidates a env)
  { config := ofLayer (a.layer.above found.layer), notes := found.notes }

/-! ## Using it -/

def settings (c : Config) : Settings :=
  { trailLength := c.trailLength, threshold := c.threshold, filtered := c.filtered
    maxFingers := c.maxFingers }

def scaling (c : Config) : Except Fault Scaling :=
  Scaling.new c.screenWidth c.screenHeight c.xMax c.yMax

/-- The first thing wrong with a configuration, if there is any. -/
def fault? (c : Config) : Option ConfigFault :=
  if c.device = "" then some .noDevice
  else if c.recordsPerCall = 0 then some .noEventsPerCall
  else
    match c.settings.fault? with
    | some f => some (.settings f)
    | none =>
      (Scaling.fault? c.screenWidth c.screenHeight c.xMax c.yMax).map ConfigFault.settings

end Config

end FingerTracking
