import FingerTracking.Event
import FingerTracking.Note

/-!
Reports: the events of a frame put back together, as a consumer of the stream sees them.

A `Report` has one item for each finger of the frame. An `Assembler` reads events in order: a
finger id begins an item, axes and buttons fill in the item begun last, and a sync closes the
report. A report that is full is closed early, by the id that has no room in it.
-/

namespace FingerTracking

namespace Report

/-- What became of a finger in the frame; `undefined` if nothing but its place changed. -/
inductive State where
  | undefined
  | down
  | up
deriving DecidableEq, Inhabited

def State.name : State → String
  | undefined => "Undefined"
  | down => "Down"
  | up => "Up"

structure Item where
  /-- A thousand times the id, and the code it came with. -/
  finger : Int
  state : State
  x : Int32
  y : Int32
  time : Timestamp
deriving DecidableEq, Inhabited

namespace Item

/-- The item that a finger id begins. -/
def ofEvent (e : Event) : Item :=
  { finger := e.value.toInt * 1000 + e.code.toNat, state := .undefined, x := 0, y := 0
    time := e.time }

def text (i : Item) : String :=
  s!"finger={i.finger} {i.state.name} ({i.x},{i.y})"

end Item

/-- The most items of one report. -/
def mostItems : Nat := 10

/-- A report that is not closed yet. It has at least one item, the one being filled in. -/
structure Pending where
  earlier : List Item
  current : Item
deriving DecidableEq, Inhabited

def Pending.items (p : Pending) : List Item :=
  p.earlier ++ [p.current]

end Report

abbrev Report := List Report.Item

/-- The report on a line of its own, without the line's end. -/
def Report.text (r : Report) : String :=
  "report [" ++ String.intercalate ", " (r.map Report.Item.text) ++ "]"

structure Assembler where
  pending : Option Report.Pending
deriving DecidableEq, Inhabited

namespace Assembler

def empty : Assembler := ⟨none⟩

/-- An assembler after an event, with the report that the event closed. -/
structure Pushed where
  assembler : Assembler
  report : Option Report
  notes : List Note

/-- Begins an item. A full report is closed first. -/
def start (a : Assembler) (item : Report.Item) : Pushed :=
  match a.pending with
  | none => { assembler := ⟨some ⟨[], item⟩⟩, report := none, notes := [] }
  | some p =>
    if Report.mostItems ≤ p.items.length then
      { assembler := ⟨some ⟨[], item⟩⟩, report := some p.items, notes := [] }
    else { assembler := ⟨some ⟨p.items, item⟩⟩, report := none, notes := [] }

/-- Fills in the item begun last. Without one the event is lost. -/
def fill (a : Assembler) (f : Report.Item → Report.Item) : Pushed :=
  match a.pending with
  | none => { assembler := a, report := none, notes := [.noItem] }
  | some p => { assembler := ⟨some { p with current := f p.current }⟩, report := none, notes := [] }

/-- Closes the report, if one has been begun. -/
def close (a : Assembler) : Pushed :=
  { assembler := empty, report := a.pending.map Report.Pending.items, notes := [] }

def push (a : Assembler) (e : Event) : Pushed :=
  match e.kind with
  | .fingerId => a.start (Report.Item.ofEvent e)
  | .axisX => a.fill fun i => { i with x := e.value }
  | .axisY => a.fill fun i => { i with y := e.value }
  | .buttonTouch => a.fill fun i => { i with state := if e.value = 1 then .down else .up }
  | .sync => a.close

/-- An assembler that an event left as it was. -/
def unchanged (a : Assembler) (notes : List Note) : Pushed :=
  { assembler := a, report := none, notes }

/-- Reads a raw record, as it comes out of a written stream. Of the syncs only the one that
closes a report counts, and of the keys only the touch. -/
def pushRecord (a : Assembler) (time : Timestamp) (r : Record) : Pushed :=
  if r.type = Record.typeFinger ∨ r.type = Record.typeSync ∨ r.type = Record.typeKey then
    match Event.Kind.ofRaw? r.type r.code with
    | some kind => a.push { time, kind, code := r.code, value := r.value }
    | none => a.unchanged []
  else if r.type = Record.typeAbsolute then
    if r.code = Record.codeX then a.push (Event.x time r.value)
    else if r.code = Record.codeY then a.push (Event.y time r.value)
    else a.unchanged [.unexpectedCode r.code]
  else a.unchanged [.invalidType r.type]

/-- An assembler after several events, with the reports they closed. -/
structure PushedAll where
  assembler : Assembler
  reports : List Report
  notes : List Note

def pushAll (a : Assembler) : List Event → PushedAll
  | [] => { assembler := a, reports := [], notes := [] }
  | e :: es =>
    let p := a.push e
    let rest := pushAll p.assembler es
    { rest with reports := p.report.toList ++ rest.reports, notes := p.notes ++ rest.notes }

end Assembler

end FingerTracking
