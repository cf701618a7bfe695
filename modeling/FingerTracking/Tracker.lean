import FingerTracking.Matching

/-!
Trackers: from frames of contacts to events about fingers.

`Tracker.frame` matches a frame, carries every active finger over it and gives back the slots of
those that left. The events of one frame are the groups of its fingers, oldest finger first,
closed by a `sync`; a frame without fingers has no events at all.
-/

namespace FingerTracking

structure Tracker where
  pool : Pool
  threshold : Int32
  nextId : UInt32
deriving DecidableEq, Inhabited

namespace Tracker

def new (s : Settings) : Except Fault Tracker :=
  match s.fault? with
  | some f => .error (.settings f)
  | none => (Pool.new s).map fun pool => { pool, threshold := s.threshold, nextId := 0 }

/-- The note made when a tracker is ready. -/
def readyNote (t : Tracker) (s : Settings) : Note :=
  .trackerReady t.pool.capacity s.trailLength s.filtered

/-- A pool after some fingers were carried over a frame. -/
structure Carried where
  pool : Pool
  events : Batch
  notes : List Note

/-- Carries one finger over the frame; a finger that leaves gives its slot back at once. -/
def carryOne (table : MatchTable) (p : Pool) (h : Handle) : Carried :=
  match p.get? h with
  | none => { pool := p, events := [], notes := [] }
  | some f =>
    let s := f.step (table.isMatched h)
    let q := p.set h s.finger
    match s.outcome with
    | .keep => { pool := q, events := s.events, notes := s.notes }
    | .release =>
      let r := q.free h
      { pool := r.1, events := s.events, notes := s.notes ++ r.2 }

def carry (table : MatchTable) (p : Pool) : List Handle → Carried
  | [] => { pool := p, events := [], notes := [] }
  | h :: hs =>
    let a := carryOne table p h
    let b := carry table a.pool hs
    { pool := b.pool, events := a.events ++ b.events, notes := a.notes ++ b.notes }

/-- Events of a frame, closed by a `sync` if there are any. -/
def closed (events : Batch) (now : Timestamp) : Batch :=
  if events.isEmpty then [] else events ++ [Event.sync now]

/-- A tracked frame: the tracker after it, its events, and the contacts with the claimed ones
taken off. -/
structure Framed where
  tracker : Tracker
  events : Batch
  frame : List Contact
  notes : List Note

def frame (t : Tracker) (contacts : List Contact) (now : Timestamp) : Framed :=
  let m := Matching.correlate t.threshold t.pool contacts now t.nextId
  let c := carry m.table m.pool m.pool.handles
  { tracker := { t with pool := c.pool, nextId := m.nextId }
    events := closed c.events now
    frame := m.frame
    notes := m.notes ++ c.notes }

/-- Lets go of every finger; ids begin anew. -/
def teardown (t : Tracker) : Tracker × List Note :=
  let r := t.pool.freeAll
  ({ t with pool := r.1, nextId := 0 }, r.2)

def activeCount (t : Tracker) : Nat :=
  t.pool.active.length

end Tracker

end FingerTracking
