/-!
What can go wrong, as causes. Each type of fault has one function that words it (`text`);
`detail` is the longer form in which the program reports a fault that ended it.
-/

namespace FingerTracking

/-! ## Input and output -/

inductive IoFault where
  | notFound
  | notDirectory
  | isDirectory
  | nameTooLong
  /-- A path with a character that no name can hold. -/
  | nulInPath
  /-- The input ended inside a record, or before it. -/
  | endOfInput
  | other (message : String)
deriving DecidableEq

namespace IoFault

/-- The number that the operating system gives the fault, if it comes from there. -/
def osCode? : IoFault → Option Nat
  | notFound => some 2
  | notDirectory => some 20
  | isDirectory => some 21
  | nameTooLong => some 36
  | nulInPath | endOfInput | other _ => none

def kind : IoFault → String
  | notFound => "NotFound"
  | notDirectory => "NotADirectory"
  | isDirectory => "IsADirectory"
  | nameTooLong => "InvalidFilename"
  | nulInPath => "InvalidInput"
  | endOfInput => "UnexpectedEof"
  | other _ => "Other"

/-- The fault in words, without its number. -/
def message : IoFault → String
  | notFound => "No such file or directory"
  | notDirectory => "Not a directory"
  | isDirectory => "Is a directory"
  | nameTooLong => "File name too long"
  | nulInPath => "file name contained an unexpected NUL byte"
  | endOfInput => "failed to fill whole buffer"
  | other message => message

def text (f : IoFault) : String :=
  match f.osCode? with
  | some code => s!"{f.message} (os error {code})"
  | none => f.message

def detail (f : IoFault) : String :=
  match f.osCode?, f with
  | some code, _ => s!"Os \x7b code: {code}, kind: {f.kind}, message: \"{f.message}\" \x7d"
  | none, other message => s!"Custom \x7b kind: {f.kind}, error: \"{message}\" \x7d"
  | none, _ => s!"Error \x7b kind: {f.kind}, message: \"{f.message}\" \x7d"

end IoFault

/-! ## Settings -/

inductive SettingsFault where
  | noCoordinates
  | noFingers
  | tooManyFingers (count : Nat)
  | screenNotPositive (width height : Int32)
  | axesNotPositive (x y : Int32)
deriving DecidableEq

def SettingsFault.text : SettingsFault → String
  | noCoordinates => "coordinate buffer size must be at least 1"
  | noFingers => "max fingers must be at least 1"
  | tooManyFingers count => s!"max fingers {count} is too large"
  | screenNotPositive width height => s!"screen resolution {width}x{height} must be positive"
  | axesNotPositive x y => s!"axis maxima {x}x{y} must be positive"

/-! ## Configuration -/

inductive ConfigFault where
  | unknownProfile (name : String) (known : List String)
  | noDevice
  | noEventsPerCall
  | settings (fault : SettingsFault)
deriving DecidableEq

/-- The start of every report on a bad setting. -/
def SettingsFault.report (f : SettingsFault) : String :=
  "Invalid settings: " ++ f.text

def ConfigFault.text : ConfigFault → String
  | unknownProfile name known =>
    s!"Unknown device profile '{name}'. Valid values: " ++ String.intercalate ", " known
  | noDevice => "No touch device configured"
  | noEventsPerCall => "max_events_per_call must be at least 1"
  | settings fault => fault.report

/-! ## All together -/

inductive Fault where
  /-- A coordinate history of this many samples does not fit into memory. -/
  | outOfMemory (capacity : Nat)
  | settings (fault : SettingsFault)
  | config (fault : ConfigFault)
  | io (fault : IoFault)
deriving DecidableEq

namespace Fault

def text : Fault → String
  | outOfMemory capacity => s!"Out of memory allocating coordinate history ({capacity} samples)"
  | settings fault => fault.report
  | config fault => "Configuration error: " ++ fault.text
  | io fault => fault.text

def detail : Fault → String
  | outOfMemory capacity => s!"OutOfMemory \x7b capacity: {capacity} \x7d"
  | settings fault => s!"InvalidSettings(\"{fault.text}\")"
  | config fault => s!"Config(\"{fault.text}\")"
  | io fault => s!"Io({fault.detail})"

end Fault

end FingerTracking
