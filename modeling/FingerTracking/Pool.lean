import FingerTracking.Finger
import FingerTracking.Settings

/-!
The finger pool: a fixed set of slots, some of them in use.

The slots in use stand in `active`, in the order in which they were taken; the others wait in
`available`, first come first served. A slot is taken from the head of the queue (`take?`) and
returns to its tail (`free?`), and its generation goes up by one each time, so that a handle is
good from the taking of its slot to the freeing and no longer (`get?`).
-/

namespace FingerTracking

structure Slot where
  finger : Finger
  generation : UInt32
  active : Bool
deriving DecidableEq, Inhabited

namespace Slot

/-- A slot on its way into use: nothing is left of the finger before, except its id. -/
def opened (s : Slot) : Slot :=
  { finger := { s.finger with trail := s.finger.trail.cleared, phase := .start, weight := 0 }
    generation := s.generation + 1
    active := true }

/-- A slot out of use. -/
def closed (s : Slot) : Slot :=
  { finger := { s.finger with trail := s.finger.trail.cleared, phase := .unused }
    generation := s.generation + 1
    active := false }

end Slot

structure Pool where
  slots : Array Slot
  /-- Free slots in the order in which they will be taken. -/
  available : List Nat
  /-- Slots in use, the one taken first in front. -/
  active : List Nat
deriving DecidableEq, Inhabited

namespace Pool

/-! ## Making one -/

/-- A pool of free slots, each with an empty trail like `trail`. -/
def ofTrail (capacity : Nat) (trail : Trail) : Pool :=
  { slots := Array.replicate capacity ⟨Finger.fresh trail, 0, false⟩
    available := List.range capacity
    active := [] }

/-- The pool for these settings. A pool without slots needs no trails, so nothing can be wrong
with them. -/
def new (s : Settings) : Except Fault Pool :=
  if s.poolCapacity = 0 then .ok ⟨#[], [], []⟩
  else (Trail.new s.trailLength s.filtered).map (ofTrail s.poolCapacity)

/-! ## Reading -/

def capacity (p : Pool) : Nat :=
  p.slots.size

/-- The slot that a handle is good for. -/
def slot? (p : Pool) (h : Handle) : Option Slot :=
  match p.slots[h.index]? with
  | some s => if s.active ∧ s.generation = h.generation then some s else none
  | none => none

def isLive (p : Pool) (h : Handle) : Bool :=
  (p.slot? h).isSome

/-- The finger in the slot of a live handle. -/
def get? (p : Pool) (h : Handle) : Option Finger :=
  (p.slot? h).map (·.finger)

/-- The handle that is good for slot `i` now. -/
def handleAt? (p : Pool) (i : Nat) : Option Handle :=
  p.slots[i]?.map fun s => ⟨i, s.generation⟩

/-- Handles of the active fingers, oldest first. -/
def handles (p : Pool) : List Handle :=
  p.active.filterMap p.handleAt?

/-- The active fingers, oldest first. -/
def fingers (p : Pool) : List Finger :=
  p.handles.filterMap p.get?

/-! ## Writing -/

/-- Replaces the finger of a live handle. -/
def set (p : Pool) (h : Handle) (f : Finger) : Pool :=
  match p.slot? h with
  | some s => { p with slots := p.slots.setIfInBounds h.index { s with finger := f } }
  | none => p

/-- Takes the slot that has been free the longest. -/
def take? (p : Pool) : Option (Handle × Pool) :=
  match p.available with
  | [] => none
  | i :: rest =>
    match p.slots[i]? with
    | none => none
    | some s =>
      some (⟨i, s.generation + 1⟩,
        { slots := p.slots.setIfInBounds i s.opened
          available := rest
          active := p.active ++ [i] })

/-- Gives a slot back. A stale handle frees nothing. -/
def free? (p : Pool) (h : Handle) : Option Pool :=
  match p.slot? h with
  | none => none
  | some s =>
    some
      { slots := p.slots.setIfInBounds h.index s.closed
        available := p.available ++ [h.index]
        active := p.active.filter (· != h.index) }

/-- Gives a slot back, with a note if the handle is stale and nothing changes. -/
def free (p : Pool) (h : Handle) : Pool × List Note :=
  match p.free? h with
  | some q => (q, [])
  | none => (p, [.staleHandle h])

/-- Gives back the slots of all these handles in order. -/
def freeEach (p : Pool) : List Handle → Pool × List Note
  | [] => (p, [])
  | h :: hs =>
    let r := p.free h
    let q := r.1.freeEach hs
    (q.1, r.2 ++ q.2)

/-- Gives back every slot in use. -/
def freeAll (p : Pool) : Pool × List Note :=
  p.freeEach p.handles

end Pool

end FingerTracking
