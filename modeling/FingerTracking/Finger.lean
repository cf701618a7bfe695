import FingerTracking.Event
import FingerTracking.Note
import FingerTracking.Trail

/-!
Fingers and their life: `start` in the frame in which the contact appears, `down` while it stays,
`unused` once it is gone.

`Finger.step` carries a finger over one frame. The events it makes are one group,
[FingerId, ButtonTouch(1)?, AxisX, AxisY, ButtonTouch(0)?]: the first button says that the finger
has just arrived, the last one that it was not seen in this frame and leaves.
-/

namespace FingerTracking

inductive Phase where
  | start
  | down
  | unused
deriving DecidableEq, Inhabited

def Phase.name : Phase → String
  | start => "Start"
  | down => "Down"
  | unused => "Unused"

structure Finger where
  id : UInt32
  trail : Trail
  phase : Phase
  /-- The weight of the last contact that the finger followed. -/
  weight : Int32
deriving DecidableEq, Inhabited

/-- Whether a finger goes on into the next frame. -/
inductive Outcome where
  | keep
  | release
deriving DecidableEq, Inhabited

def Outcome.name : Outcome → String
  | keep => "Keep"
  | release => "Release"

namespace Finger

/-- A finger that has never been used. -/
def fresh (trail : Trail) : Finger :=
  { id := 0, trail, phase := .unused, weight := 0 }

/-- What a finger's step gives. -/
structure Stepped where
  outcome : Outcome
  finger : Finger
  events : Batch
  notes : List Note

/-- The events of a finger whose last sample is `last`. -/
def group (id : UInt32) (last : Sample) (arrives leaves : Bool) : Batch :=
  [Event.finger last.time id] ++ (if arrives then [Event.touch last.time true] else []) ++
    [Event.x last.time last.x, Event.y last.time last.y] ++
    (if leaves then [Event.touch last.time false] else [])

/-- Carries a finger over a frame in which it was seen or not. -/
def step (f : Finger) (seen : Bool) : Stepped :=
  if f.phase = .unused then
    { outcome := .release, finger := f, events := [], notes := [.steppedAfterRelease f.id] }
  else
    match f.trail.last? with
    | none =>
      { outcome := .release, finger := { f with phase := .unused }, events := []
        notes := [.noCoordinates f.id] }
    | some last =>
      let arrives := f.phase == .start
      if seen then
        { outcome := .keep, finger := { f with phase := .down }
          events := group f.id last arrives false, notes := [] }
      else
        { outcome := .release, finger := { f with phase := .unused }
          events := group f.id last arrives true, notes := [.fingerUp last.x last.y] }

end Finger

end FingerTracking
