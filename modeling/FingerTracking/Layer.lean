import FingerTracking.Output

/-!
Layers: settings as one of their sources gives them, some of them or none.

`above` lays one source on top of another: a setting comes from the upper layer if it stands
there, else from the lower one.
-/

namespace FingerTracking

structure Layer where
  device : Option String := none
  profile : Option String := none
  screenWidth : Option Int32 := none
  screenHeight : Option Int32 := none
  xMax : Option Int32 := none
  yMax : Option Int32 := none
  trailLength : Option Nat := none
  threshold : Option Int32 := none
  filtered : Option Bool := none
  maxFingers : Option Nat := none
  recordsPerCall : Option Nat := none
  format : Option Format := none
  layout : Option Layout := none
deriving DecidableEq, Inhabited

namespace Layer

/-- The layer in which nothing is set. -/
def empty : Layer := {}

def above (a b : Layer) : Layer where
  device := a.device.or b.device
  profile := a.profile.or b.profile
  screenWidth := a.screenWidth.or b.screenWidth
  screenHeight := a.screenHeight.or b.screenHeight
  xMax := a.xMax.or b.xMax
  yMax := a.yMax.or b.yMax
  trailLength := a.trailLength.or b.trailLength
  threshold := a.threshold.or b.threshold
  filtered := a.filtered.or b.filtered
  maxFingers := a.maxFingers.or b.maxFingers
  recordsPerCall := a.recordsPerCall.or b.recordsPerCall
  format := a.format.or b.format
  layout := a.layout.or b.layout

@[simp] theorem above_empty (a : Layer) : a.above empty = a := by
  simp [above, empty]

@[simp] theorem empty_above (a : Layer) : empty.above a = a := by
  simp [above, empty]

/-- Layers can be put on top of each other in any grouping; what counts is their order. -/
theorem above_assoc (a b c : Layer) : (a.above b).above c = a.above (b.above c) := by
  simp [above, Option.or_assoc]

end Layer

end FingerTracking
