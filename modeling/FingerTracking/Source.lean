import FingerTracking.Fault
import FingerTracking.Note

/-!
Sources: where raw records come from.

A source tells whether a record can be read now (`ready`) and gives the next one (`read`). Two
sources are here: a `Queue` of arrivals that are known beforehand, pauses and faults among them,
and a `Device`, which cuts bytes into records.
-/

namespace FingerTracking

/-- What reading gives: a record, no record if the next one was malformed, or a fault. -/
structure Reading (σ : Type) where
  result : Except IoFault (Option Record)
  source : σ
  notes : List Note

class Source (σ : Type) where
  /-- Whether a record can be read without waiting. -/
  ready : σ → Except IoFault Bool × σ
  /-- The next record of a source that is ready. -/
  read : σ → Reading σ

/-! ## Queues -/

inductive Arrival where
  | record (r : Record)
  | malformed
  /-- Nothing comes this time; asking again goes on behind it. -/
  | pause
  | readyFault (fault : IoFault)
  | readFault (fault : IoFault)
deriving DecidableEq

structure Queue where
  items : List Arrival
deriving DecidableEq, Inhabited

namespace Queue

def ready (q : Queue) : Except IoFault Bool × Queue :=
  match q.items with
  | [] => (.ok false, q)
  | .pause :: rest => (.ok false, ⟨rest⟩)
  | .readyFault f :: rest => (.error f, ⟨rest⟩)
  | _ :: _ => (.ok true, q)

def read (q : Queue) : Reading Queue :=
  match q.items with
  | [] => { result := .ok none, source := q, notes := [] }
  | .record r :: rest => { result := .ok (some r), source := ⟨rest⟩, notes := [] }
  | .readFault f :: rest | .readyFault f :: rest =>
    { result := .error f, source := ⟨rest⟩, notes := [] }
  | .malformed :: rest | .pause :: rest =>
    { result := .ok none, source := ⟨rest⟩, notes := [] }

/-- Adds arrivals behind those that wait. -/
def feed (q : Queue) (more : List Arrival) : Queue :=
  ⟨q.items ++ more⟩

instance : Source Queue where
  ready := ready
  read := read

end Queue

/-! ## Devices -/

/-- What an opened path stands for. -/
inductive Medium where
  | file (unread : List UInt8)
  /-- Bytes may follow until the writing end is closed. -/
  | pipe (unread : List UInt8) (closed : Bool)
  | directory
deriving DecidableEq

structure Device where
  path : String
  layout : Layout
  medium : Medium
  /-- Malformed records so far. -/
  malformed : Nat
deriving DecidableEq

namespace Device

/-- A device on an opened path. -/
def start (path : String) (layout : Layout) (medium : Medium) : Device :=
  { path, layout, medium, malformed := 0 }

def openedNote (d : Device) : Note :=
  .deviceOpened d.path d.layout

/-- A file can always be read, be it only to learn that it has ended. -/
def isReady (d : Device) : Bool :=
  match d.medium with
  | .file _ | .directory => true
  | .pipe unread closed => closed || !unread.isEmpty

/-- The bytes of the next record with those behind them, or nothing if a whole record is not
there. -/
def cut? (layout : Layout) (unread : List UInt8) : Option (List UInt8 × List UInt8) :=
  let parts := unread.splitAt layout.size
  if parts.1.length < layout.size then none else some parts

/-- The device after its bytes were replaced. -/
def withUnread (d : Device) (rest : List UInt8) : Device :=
  match d.medium with
  | .file _ => { d with medium := .file rest }
  | .pipe _ closed => { d with medium := .pipe rest closed }
  | .directory => d

/-- Reads a record from the bytes of the device. An unfinished one at the end is used up. -/
def readBytes (d : Device) (unread : List UInt8) : Reading Device :=
  match cut? d.layout unread with
  | none => { result := .error .endOfInput, source := d.withUnread [], notes := [] }
  | some (bytes, rest) =>
    match Record.decode? bytes with
    | some (_, r) => { result := .ok (some r), source := d.withUnread rest, notes := [] }
    | none =>
      let e := { d.withUnread rest with malformed := d.malformed + 1 }
      { result := .ok none, source := e, notes := [.malformedRecord d.path e.malformed] }

def read (d : Device) : Reading Device :=
  match d.medium with
  | .file unread | .pipe unread _ => d.readBytes unread
  | .directory => { result := .error .isDirectory, source := d, notes := [] }

/-- Bytes written into the other end of a pipe. -/
def supply (d : Device) (bytes : List UInt8) : Device :=
  match d.medium with
  | .pipe unread closed => { d with medium := .pipe (unread ++ bytes) closed }
  | _ => d

/-- The other end of a pipe closed. -/
def close (d : Device) : Device :=
  match d.medium with
  | .pipe unread _ => { d with medium := .pipe unread true }
  | _ => d

instance : Source Device where
  ready d := (.ok d.isReady, d)
  read := read

end Device

end FingerTracking
