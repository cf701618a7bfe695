import FingerTracking.Pool

/-!
Matching: which contact of a frame belongs to which finger.

A frame is matched in three passes. `assign` lets every contact in turn claim the nearest finger
that no earlier contact has claimed from as near, so that a later contact can take a finger away
from an earlier one; the result is greedy and need not be the best overall. `applyTo` moves the
claimed fingers to their contacts, unless a contact is so light that it is about to lift. `spawn`
starts a finger for every contact that is left. `correlate` is all three.

The claims stand in a `MatchTable`, one entry for each slot, good only for the handle it was
written with.
-/

namespace FingerTracking

/-- How a finger came by its place in this frame. -/
inductive Match where
  /-- It claimed the contact at this index, at this squared distance from its last sample. -/
  | contact (index : Nat) (distance : Int)
  /-- It was started in this frame. -/
  | spawned
deriving DecidableEq, Inhabited

/-! ## Match tables -/

structure MatchTable where
  entries : Array (Option (Handle × Match))
deriving DecidableEq, Inhabited

namespace MatchTable

def empty (capacity : Nat) : MatchTable :=
  ⟨Array.replicate capacity none⟩

def get? (t : MatchTable) (h : Handle) : Option Match :=
  match t.entries[h.index]? with
  | some (some (k, m)) => if k = h then some m else none
  | _ => none

def isMatched (t : MatchTable) (h : Handle) : Bool :=
  (t.get? h).isSome

/-- The squared distance from which the finger is claimed. -/
def distance? (t : MatchTable) (h : Handle) : Option Int :=
  match t.get? h with
  | some (.contact _ d) => some d
  | _ => none

/-- Writes the entry of the handle's slot. A slot outside of the table is passed over. -/
def set (t : MatchTable) (h : Handle) (m : Match) : MatchTable :=
  ⟨t.entries.setIfInBounds h.index (some (h, m))⟩

end MatchTable

namespace Matching

/-! ## Assigning contacts to fingers -/

def squaredDistance (c : Contact) (s : Sample) : Int :=
  let dx := c.x.toInt - s.x.toInt
  let dy := c.y.toInt - s.y.toInt
  dx * dx + dy * dy

/-- How far a contact is from a finger. A finger without samples is nowhere. -/
def distanceTo? (p : Pool) (c : Contact) (h : Handle) : Option Int :=
  ((p.get? h).bind fun f => f.trail.last?).map (squaredDistance c)

/-- A distance at which the finger can be claimed: nearer than the claim it has, if it has one. -/
def claimable (t : MatchTable) (h : Handle) (d : Int) : Bool :=
  match t.distance? h with
  | some recorded => decide (d < recorded)
  | none => true

/-- The better one of the best finger so far and the finger `h`; of two equally near the first
stays. -/
def better (p : Pool) (t : MatchTable) (c : Contact) (best : Option (Handle × Int)) (h : Handle) :
    Option (Handle × Int) :=
  match distanceTo? p c h with
  | none => best
  | some d =>
    if claimable t h d then
      match best with
      | none => some (h, d)
      | some (_, least) => if d < least then some (h, d) else best
    else best

/-- The nearest finger that the contact can claim. -/
def nearest? (p : Pool) (t : MatchTable) (c : Contact) : Option (Handle × Int) :=
  p.handles.foldl (better p t c) none

/-- Lets the contact at index `j` claim a finger. -/
def claim (p : Pool) (t : MatchTable) (j : Nat) (c : Contact) : MatchTable :=
  match nearest? p t c with
  | some (h, d) => t.set h (.contact j d)
  | none => t

def assignFrom (p : Pool) : Nat → List Contact → MatchTable → MatchTable
  | _, [], t => t
  | j, c :: cs, t => assignFrom p (j + 1) cs (claim p t j c)

/-- The claims of all contacts of a frame. -/
def assign (p : Pool) (frame : List Contact) : MatchTable :=
  assignFrom p 0 frame (MatchTable.empty p.capacity)

/-! ## Moving the fingers -/

/-- Pool and frame with the claims carried out. -/
structure Applied where
  pool : Pool
  frame : List Contact
  notes : List Note

/-- Half of a weight, toward zero. -/
def half (weight : Int32) : Int :=
  weight.toInt.tdiv 2

/-- A finger follows a contact that weighs at least half of the last one. -/
def follows (f : Finger) (c : Contact) : Bool :=
  decide (half f.weight ≤ c.weight.toInt)

/-- The finger at a contact it follows. -/
def moved (f : Finger) (c : Contact) (now : Timestamp) : Finger :=
  { f with trail := f.trail.push c.x c.y now, weight := c.weight }

/-- Carries out the claim of one finger, if it has one, and takes its contact off the panel. -/
def applyOne (t : MatchTable) (now : Timestamp) (p : Pool) (frame : List Contact) (h : Handle) :
    Applied :=
  match t.get? h with
  | some (.contact j d) =>
    match p.get? h, frame[j]? with
    | some f, some c =>
      let frame := frame.set j c.consumed
      if follows f c then
        { pool := p.set h (moved f c now), frame, notes := [.matched j c d] }
      else
        { pool := p, frame, notes := [.matched j c d, .notFollowed f.id c.weight f.weight] }
    | _, _ => { pool := p, frame, notes := [] }
  | _ => { pool := p, frame, notes := [] }

/-- Carries out the claims of these fingers in order. -/
def applyTo (t : MatchTable) (now : Timestamp) (p : Pool) (frame : List Contact) :
    List Handle → Applied
  | [] => { pool := p, frame, notes := [] }
  | h :: hs =>
    let a := applyOne t now p frame h
    let b := applyTo t now a.pool a.frame hs
    { b with notes := a.notes ++ b.notes }

def apply (t : MatchTable) (p : Pool) (frame : List Contact) (now : Timestamp) : Applied :=
  applyTo t now p frame p.handles

/-! ## Starting new fingers -/

/-- What spawning works on. `tries` counts the contacts that were heavy enough, with or without
a slot for them. -/
structure Spawning where
  pool : Pool
  table : MatchTable
  nextId : UInt32
  tries : Nat
  /-- Fingers started. -/
  count : Nat
  notes : List Note

/-- A contact heavy enough to start a finger. -/
def qualifies (threshold : Int32) (c : Contact) : Bool :=
  !c.isAbsent && decide (threshold ≤ c.weight)

/-- The finger that starts at a contact in a slot just taken. -/
def started (f : Finger) (id : UInt32) (c : Contact) (time : Timestamp) : Finger :=
  { f with id, phase := .start, weight := c.weight, trail := f.trail.push c.x c.y time }

/-- The first samples of fingers that start in one frame are a millisecond apart. -/
def staggered (now : Timestamp) (tries : Nat) : Timestamp :=
  now.later (tries * Timestamp.nanosPerMilli)

/-- Starts a finger for the contact at index `j`, if it qualifies and there is a slot. -/
def spawnOne (threshold : Int32) (now : Timestamp) (s : Spawning) (j : Nat) (c : Contact) :
    Spawning :=
  if c.isAbsent then s
  else if c.weight < threshold then { s with notes := s.notes ++ [.tooLight c.weight] }
  else
    match s.pool.take? with
    | none => { s with tries := s.tries + 1, notes := s.notes ++ [.noSlot j c] }
    | some (h, p) =>
      match p.get? h with
      | none => { s with pool := p, tries := s.tries + 1 }
      | some f =>
        { pool := p.set h (started f s.nextId c (staggered now s.tries))
          table := s.table.set h .spawned
          nextId := s.nextId + 1
          tries := s.tries + 1
          count := s.count + 1
          notes := s.notes ++ [.fingerDown s.nextId c] }

def spawnFrom (threshold : Int32) (now : Timestamp) : Nat → List Contact → Spawning → Spawning
  | _, [], s => s
  | j, c :: cs, s => spawnFrom threshold now (j + 1) cs (spawnOne threshold now s j c)

/-- Starts a finger for every contact of the frame that qualifies, while there are slots. -/
def spawn (threshold : Int32) (p : Pool) (t : MatchTable) (frame : List Contact) (now : Timestamp)
    (nextId : UInt32) : Spawning :=
  spawnFrom threshold now 0 frame
    { pool := p, table := t, nextId, tries := 0, count := 0, notes := [] }

/-! ## All three -/

/-- A matched frame. -/
structure Correlated where
  pool : Pool
  table : MatchTable
  frame : List Contact
  nextId : UInt32
  notes : List Note

def correlate (threshold : Int32) (p : Pool) (frame : List Contact) (now : Timestamp)
    (nextId : UInt32) : Correlated :=
  let table := assign p frame
  let a := apply table p frame now
  let s := spawn threshold a.pool table a.frame now nextId
  { pool := s.pool, table := s.table, frame := a.frame, nextId := s.nextId
    notes := a.notes ++ s.notes }

end Matching

end FingerTracking
