import FingerTracking.Record
import FingerTracking.Timestamp

/-!
Synthesized events: what is told about tracked fingers, one axis or button at a time.

Every kind of event has a record it is sent as (`Kind.type`, `Kind.code`), and `Kind.ofRaw?`
reads the kind back (`ofRaw?_type_code`). The events of one frame form a `Batch`, closed by one
`sync` if there is any.
-/

namespace FingerTracking

namespace Event

inductive Kind where
  | fingerId
  | axisX
  | axisY
  | buttonTouch
  | sync
deriving DecidableEq, Inhabited

namespace Kind

def type : Kind → UInt16
  | fingerId => Record.typeFinger
  | axisX | axisY => Record.typeAbsolute
  | buttonTouch => Record.typeKey
  | sync => Record.typeSync

def code : Kind → UInt16
  | fingerId => 0
  | axisX => Record.codeX
  | axisY => Record.codeY
  | buttonTouch => Record.codeTouch
  | sync => Record.codeReport

/-- The kind sent with this type and code. A finger id may come with any code. -/
def ofRaw? (type code : UInt16) : Option Kind :=
  if type = Record.typeFinger then some fingerId
  else if type = Record.typeAbsolute ∧ code = Record.codeX then some axisX
  else if type = Record.typeAbsolute ∧ code = Record.codeY then some axisY
  else if type = Record.typeKey ∧ code = Record.codeTouch then some buttonTouch
  else if type = Record.typeSync ∧ code = Record.codeReport then some sync
  else none

def name : Kind → String
  | fingerId => "FingerId"
  | axisX => "AxisX"
  | axisY => "AxisY"
  | buttonTouch => "ButtonTouch"
  | sync => "Sync"

/-- Every kind is read back from the record it is sent as. -/
theorem ofRaw?_type_code (k : Kind) : ofRaw? k.type k.code = some k := by
  cases k <;> decide

end Kind

end Event

structure Event where
  time : Timestamp
  kind : Event.Kind
  code : UInt16
  value : Int32
deriving DecidableEq, Inhabited

/-- The events of one frame. -/
abbrev Batch := List Event

namespace Event

/-- An event with the code of its kind. -/
def ofKind (time : Timestamp) (kind : Kind) (value : Int32) : Event :=
  { time, kind, code := kind.code, value }

/-- Ids above the largest value run on from the smallest, as tracking ids do. -/
def finger (time : Timestamp) (id : UInt32) : Event :=
  ofKind time .fingerId id.toInt32

def x (time : Timestamp) (value : Int32) : Event :=
  ofKind time .axisX value

def y (time : Timestamp) (value : Int32) : Event :=
  ofKind time .axisY value

def touch (time : Timestamp) (pressed : Bool) : Event :=
  ofKind time .buttonTouch (if pressed then 1 else 0)

def sync (time : Timestamp) : Event :=
  ofKind time .sync 0

/-- The raw record that carries an event; the time goes beside it. -/
def record (e : Event) : Record :=
  { type := e.kind.type, code := e.code, value := e.value }

/-- The event on a line of its own, without the line's end. -/
def text (e : Event) : String :=
  match e.kind with
  | .sync => s!"{e.time.text} Sync"
  | kind => s!"{e.time.text} {kind.name}({e.value})"

end Event

end FingerTracking
