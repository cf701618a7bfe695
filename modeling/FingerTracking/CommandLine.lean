import FingerTracking.Layer
import FingerTracking.Numeral

/-!
The command line: options, flags and the `dump` command.

Words are read from left to right (`walk`). An option takes its value after an equals sign or as
the next word, and such a value is only looked at when the next option, flag or the end is
reached; so a later word of a wrong kind is complained about first. What is not on the command
line may be in the environment (`Arguments.fromEnvironment`).
-/

namespace FingerTracking

/-- The variables of the environment that count. -/
structure Environment where
  device : Option String := none
  config : Option String := none
  home : Option String := none
deriving DecidableEq, Inhabited

namespace CommandLine

/-- What an option or flag belongs to: the program or its one command. -/
inductive Scope where
  | program
  | dump
deriving DecidableEq, Inhabited

/-! ## Options and flags -/

/-- Options, which take a value. -/
inductive Opt where
  | device
  | profile
  | screenWidth
  | screenHeight
  | xMax
  | yMax
  | trailLength
  | threshold
  | maxFingers
  | recordsPerCall
  | format
  | layout
  | config
  | count
deriving DecidableEq, Inhabited

namespace Opt

def all : List Opt :=
  [device, profile, screenWidth, screenHeight, xMax, yMax, trailLength, threshold, maxFingers,
    recordsPerCall, format, layout, config, count]

def name : Opt → String
  | device => "device"
  | profile => "profile"
  | screenWidth => "screen-width"
  | screenHeight => "screen-height"
  | xMax => "x-max"
  | yMax => "y-max"
  | trailLength => "coord-buffer-size"
  | threshold => "finger-down-threshold"
  | maxFingers => "max-fingers"
  | recordsPerCall => "max-events-per-call"
  | format => "format"
  | layout => "layout"
  | config => "config"
  | count => "count"

def scope : Opt → Scope
  | count => .dump
  | _ => .program

def find? (s : Scope) (name : String) : Option Opt :=
  all.find? fun o => o.scope == s && o.name == name

end Opt

/-- Flags, which take no value. -/
inductive Flag where
  | filter
  | noFilter
  | help
  | version
deriving DecidableEq, Inhabited

namespace Flag

def all : List Flag := [filter, noFilter, help, version]

def name : Flag → String
  | filter => "position-filter"
  | noFilter => "no-position-filter"
  | help => "help"
  | version => "version"

/-- The letter that stands for the flag. -/
def letter? : Flag → Option Char
  | help => some 'h'
  | version => some 'V'
  | filter | noFilter => none

/-- Help is there everywhere, the other flags belong to the program. -/
def isIn : Flag → Scope → Bool
  | help, _ => true
  | _, .program => true
  | _, .dump => false

def find? (s : Scope) (name : String) : Option Flag :=
  all.find? fun f => f.isIn s && f.name == name

def ofLetter? (s : Scope) (c : Char) : Option Flag :=
  all.find? fun f => f.isIn s && f.letter? == some c

end Flag

/-! ## Results -/

/-- What help is asked about. -/
inductive Topic where
  | scope (s : Scope)
  | help
deriving DecidableEq, Inhabited

/-- Why the program goes no further than its command line. -/
inductive Stop where
  | help (topic : Topic)
  | version
  | unknownArgument (word : String)
  | missingValue (o : Opt)
  | badValue (o : Opt) (value : String)
  | repeatedOption (o : Opt)
  | repeatedFlag (f : Flag)
  | unexpectedValue (f : Flag) (value : String)
  | unknownCommand (word : String)
deriving DecidableEq

/-- What a command line asks for. -/
structure Arguments where
  /-- Settings, except for the filter. -/
  given : Layer := {}
  filterOn : Bool := false
  filterOff : Bool := false
  config : Option String := none
  /-- How many records to dump; zero for all. -/
  count : Option Nat := none
  /-- The number of records of the `dump` command, if it is given. -/
  dump : Option Nat := none
deriving DecidableEq, Inhabited

namespace Arguments

/-- The settings that the command line makes. Switching the filter off wins over switching it
on. -/
def layer (a : Arguments) : Layer :=
  { a.given with
    filtered := if a.filterOff then some false else if a.filterOn then some true else none }

/-- A coordinate or a weight. -/
def readInt32? (s : String) : Option Int32 :=
  (Numeral.readInt? s.toList).bind Numeral.toInt32?

/-- A number of things, of up to 64 bits. -/
def readCount? (s : String) : Option Nat :=
  match Numeral.readNat? s.toList with
  | some n => if n < UInt64.size then some n else none
  | none => none

def has (a : Arguments) : Opt → Bool
  | .device => a.given.device.isSome
  | .profile => a.given.profile.isSome
  | .screenWidth => a.given.screenWidth.isSome
  | .screenHeight => a.given.screenHeight.isSome
  | .xMax => a.given.xMax.isSome
  | .yMax => a.given.yMax.isSome
  | .trailLength => a.given.trailLength.isSome
  | .threshold => a.given.threshold.isSome
  | .maxFingers => a.given.maxFingers.isSome
  | .recordsPerCall => a.given.recordsPerCall.isSome
  | .format => a.given.format.isSome
  | .layout => a.given.layout.isSome
  | .config => a.config.isSome
  | .count => a.count.isSome

/-- The arguments with one more setting. -/
def give (a : Arguments) (given : Layer) : Arguments :=
  { a with given }

/-- Sets an option, if its value can be read. -/
def store? (a : Arguments) (v : String) : Opt → Option Arguments
  | .device => some (a.give { a.given with device := some v })
  | .profile => some (a.give { a.given with profile := some v })
  | .screenWidth => (readInt32? v).map fun n => a.give { a.given with screenWidth := some n }
  | .screenHeight => (readInt32? v).map fun n => a.give { a.given with screenHeight := some n }
  | .xMax => (readInt32? v).map fun n => a.give { a.given with xMax := some n }
  | .yMax => (readInt32? v).map fun n => a.give { a.given with yMax := some n }
  | .trailLength => (readCount? v).map fun n => a.give { a.given with trailLength := some n }
  | .threshold => (readInt32? v).map fun n => a.give { a.given with threshold := some n }
  | .maxFingers => (readCount? v).map fun n => a.give { a.given with maxFingers := some n }
  | .recordsPerCall =>
    (readCount? v).map fun n => a.give { a.given with recordsPerCall := some n }
  | .format => (Format.ofName? v).map fun f => a.give { a.given with format := some f }
  | .layout => (Layout.ofName? v).map fun l => a.give { a.given with layout := some l }
  | .config => some { a with config := some v }
  | .count => (readCount? v).map fun n => { a with count := some n }

/-- Sets an option that must not be set yet. An empty path counts as no value. -/
def assign (a : Arguments) (o : Opt) (v : String) : Except Stop Arguments :=
  if a.has o then .error (.repeatedOption o)
  else if o = .config ∧ v = "" then .error (.missingValue o)
  else
    match a.store? v o with
    | some b => .ok b
    | none => .error (.badValue o v)

/-- Raises a flag that must not be raised yet. -/
def raise (a : Arguments) (s : Scope) : Flag → Except Stop Arguments
  | .filter => if a.filterOn then .error (.repeatedFlag .filter) else .ok { a with filterOn := true }
  | .noFilter =>
    if a.filterOff then .error (.repeatedFlag .noFilter) else .ok { a with filterOff := true }
  | .help => .error (.help (.scope s))
  | .version => .error .version

/-- Adds what the environment gives and the command line does not. -/
def fromEnvironment (a : Arguments) (env : Environment) : Except Stop Arguments :=
  let b :=
    match a.given.device, env.device with
    | none, some v => a.give { a.given with device := some v }
    | _, _ => a
  match b.config, env.config with
  | none, some v => b.assign .config v
  | _, _ => .ok b

end Arguments

/-! ## Words -/

/-- What a word of the command line looks like. -/
inductive Word where
  /-- A value or a command. A single dash is one, too. -/
  | plain (text : String)
  /-- Two dashes: no options follow. -/
  | endOfOptions
  | long (name : String) (value : Option String)
  /-- Letters after a single dash. The first decides. -/
  | letters (first : Char)
deriving DecidableEq

namespace Word

/-- A name and, behind an equals sign, its value. -/
def splitValue (cs : List Char) : Word :=
  let name := cs.takeWhile (· != '=')
  match cs.dropWhile (· != '=') with
  | [] => .long (String.ofList name) none
  | _ :: v => .long (String.ofList name) (some (String.ofList v))

def ofString (s : String) : Word :=
  match s.toList with
  | ['-', '-'] => .endOfOptions
  | '-' :: '-' :: cs => splitValue cs
  | '-' :: c :: _ => .letters c
  | _ => .plain s

end Word

/-! ## Reading -/

/-- The option whose value is still to be looked at. -/
inductive Pending where
  | nothing
  | awaiting (o : Opt)
  | held (o : Opt) (value : String)
deriving DecidableEq, Inhabited

/-- Looks at the value that was put off. -/
def settle (a : Arguments) : Pending → Except Stop Arguments
  | .nothing => .ok a
  | .awaiting o => .error (.missingValue o)
  | .held o v => a.assign o v

/-- What is wrong with a word that is neither a value nor a command: the program takes it for a
command that it does not know, and `dump`, which has no commands, for an argument too many. -/
def stray : Scope → String → Stop
  | .program, w => .unknownCommand w
  | .dump, w => .unknownArgument w

/-- What is wrong with a word behind the end of the options. Nothing can stand there, and the name
of a command is no command there. -/
def trailing (s : Scope) (w : String) : Stop :=
  if s = .program ∧ (w = "dump" ∨ w = "help") then .unknownArgument w else stray s w

/-- What follows the word `help`. -/
def helpFor : List String → Stop
  | [] => .help (.scope .program)
  | ["dump"] => .help (.scope .dump)
  | ["help"] => .help .help
  | "dump" :: w :: _ | "help" :: w :: _ | w :: _ => .unknownCommand w

def walk (s : Scope) : List String → Arguments → Pending → Except Stop Arguments
  | [], a, p => settle a p
  | w :: rest, a, p =>
    match Word.ofString w with
    | .plain v =>
      match p with
      | .awaiting o => walk s rest a (.held o v)
      | _ =>
        if s = .program ∧ v = "dump" then do
          let d ← walk .dump rest {} .nothing
          let b ← settle a p
          return { b with dump := some (d.count.getD 0) }
        else if s = .program ∧ v = "help" then .error (helpFor rest)
        else .error (stray s v)
    | .endOfOptions =>
      match rest with
      | [] => settle a p
      | v :: _ => .error (trailing s v)
    | .long name value =>
      match Opt.find? s name, value with
      | some o, some v => do
        let b ← settle a p
        let c ← b.assign o v
        walk s rest c .nothing
      | some o, none => do
        let b ← settle a p
        walk s rest b (.awaiting o)
      | none, _ =>
        match Flag.find? s name, value with
        | some f, none => do
          let b ← settle a p
          let c ← b.raise s f
          walk s rest c .nothing
        | some f, some v => .error (.unexpectedValue f v)
        | none, _ => .error (.unknownArgument w)
    | .letters c =>
      match Flag.ofLetter? s c with
      | some f => do
        let b ← settle a p
        let c ← b.raise s f
        walk s rest c .nothing
      | none => .error (.unknownArgument w)

/-- Reads the words of the command line and then the environment. -/
def read (words : List String) (env : Environment) : Except Stop Arguments := do
  let a ← walk .program words {} .nothing
  a.fromEnvironment env

end CommandLine

end FingerTracking
