import FingerTracking.Fault

/-!
Tracking parameters, fixed for the life of a tracker.
-/

namespace FingerTracking

structure Settings where
  /-- Samples remembered for each finger. -/
  trailLength : Nat := 6
  /-- The least weight with which a contact that belongs to no finger starts one. -/
  threshold : Int32 := 0
  /-- Let a finger move by at most one unit on each axis with each sample. -/
  filtered : Bool := false
  /-- Fingers expected at a time. -/
  maxFingers : Nat := 1
deriving DecidableEq, Inhabited

namespace Settings

/-- The most fingers that may be asked for. -/
def mostFingers : Nat := 65535

/-- Slots in the pool: a finger that leaves keeps its slot for the frame in which a new one
arrives, so there are two for each finger. -/
def poolCapacity (s : Settings) : Nat :=
  2 * s.maxFingers

/-- The first thing wrong with the settings, if there is any. -/
def fault? (s : Settings) : Option SettingsFault :=
  if s.trailLength = 0 then some .noCoordinates
  else if s.maxFingers = 0 then some .noFingers
  else if mostFingers < s.maxFingers then some (.tooManyFingers s.maxFingers)
  else none

/-- Settings that a tracker accepts. -/
structure Valid (s : Settings) : Prop where
  trailLength_pos : 0 < s.trailLength
  maxFingers_pos : 0 < s.maxFingers
  maxFingers_le : s.maxFingers ≤ mostFingers

/-- Settings without a fault are the valid ones. -/
theorem fault?_eq_none_iff {s : Settings} : s.fault? = none ↔ s.Valid := by
  constructor
  · intro h
    simp only [fault?] at h
    split at h
    · contradiction
    · split at h
      · contradiction
      · split at h
        · contradiction
        · exact ⟨by omega, by omega, by omega⟩
  · intro ⟨h₁, h₂, h₃⟩
    rw [fault?, if_neg (by omega), if_neg (by omega), if_neg (by omega)]

end Settings

end FingerTracking
