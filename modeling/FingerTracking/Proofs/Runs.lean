import FingerTracking.Proofs.Frame

/-!
# Runs of a tracker

A run is a list of `Call`s, frames and teardowns in any order, and `after` is the tracker it leads
to. `Sound s` is what holds of every tracker made with the settings `s`, however it was used:

> `sound_after`: `Tracker.new s = .ok t → Sound s (t.after calls)`.
-/

namespace FingerTracking

/-- What can be asked of a tracker. -/
inductive Call where
  | frame (contacts : List Contact) (now : Timestamp)
  | teardown

namespace Tracker

/-- The tracker after a call. -/
def call (t : Tracker) : Call → Tracker
  | .frame contacts now => (t.frame contacts now).tracker
  | .teardown => t.teardown.1

/-- The tracker after a run. -/
def after (t : Tracker) (calls : List Call) : Tracker :=
  calls.foldl call t

/-- A run can be stopped and taken up again anywhere. -/
theorem after_append (t : Tracker) (calls later : List Call) :
    t.after (calls ++ later) = (t.after calls).after later :=
  List.foldl_append

theorem after_frame (t : Tracker) (contacts : List Contact) (now : Timestamp) :
    t.after [.frame contacts now] = (t.frame contacts now).tracker := rfl

/-- A tracker made with the settings `s`, between two calls. -/
structure Sound (s : Settings) (t : Tracker) : Prop where
  settled : t.pool.Settled s.trailLength s.filtered
  capacity_eq : t.pool.capacity = s.poolCapacity
  threshold_eq : t.threshold = s.threshold

variable {s : Settings} {t t₀ : Tracker}

/-- A new tracker is made of valid settings, has no fingers and gives out 0 as its first id. -/
theorem new_eq_ok (h : Tracker.new s = .ok t₀) :
    s.Valid ∧
      t₀ = { pool := Pool.ofTrail s.poolCapacity (Trail.empty s.trailLength s.filtered)
             threshold := s.threshold, nextId := 0 } := by
  unfold Tracker.new at h
  cases hf : s.fault? with
  | some f =>
    rw [hf] at h
    exact nomatch h
  | none =>
    have hv := Settings.fault?_eq_none_iff.mp hf
    have hcap : s.poolCapacity ≠ 0 := by
      have := hv.maxFingers_pos
      unfold Settings.poolCapacity
      omega
    rw [hf] at h
    simp only [Pool.new, if_neg hcap, Trail.new, if_neg (Nat.ne_of_gt hv.trailLength_pos)] at h
    split at h
    · exact nomatch h
    · exact ⟨hv, (Except.ok.inj h).symm⟩

/-- A new tracker has slots with empty trails of the length and the kind that its settings ask
for. -/
theorem sound_new (h : Tracker.new s = .ok t₀) : Sound s t₀ := by
  obtain ⟨hv, rfl⟩ := new_eq_ok h
  exact ⟨Pool.settled_ofTrail hv.trailLength_pos .., Pool.capacity_ofTrail .., rfl⟩

/-- No finger is active before the first frame. -/
theorem entries_new (h : Tracker.new s = .ok t₀) : t₀.pool.entries = [] := by
  obtain ⟨-, rfl⟩ := new_eq_ok h
  exact Pool.entries_ofTrail ..

theorem nextId_new (h : Tracker.new s = .ok t₀) : t₀.nextId = 0 := by
  obtain ⟨-, rfl⟩ := new_eq_ok h
  rfl

/-- A frame keeps a tracker sound. This is the step that all run lemmas rest on, and `carry_matched`
has done the work. -/
theorem sound_frame (ht : Sound s t) (contacts : List Contact) (now : Timestamp) :
    Sound s (t.frame contacts now).tracker := by
  obtain ⟨-, hcap, -⟩ := carry_matched contacts now ht.settled
  exact ⟨settled_frame contacts now ht.settled, hcap.trans ht.capacity_eq, ht.threshold_eq⟩

/-- A teardown gives back every slot, and a slot that is given back is at rest. -/
theorem sound_teardown (ht : Sound s t) : Sound s t.teardown.1 := by
  obtain ⟨q, hq, -, hcap, -⟩ := Pool.freeAll_spec ht.settled.shaped
  refine ⟨Pool.settled_freeAll ht.settled, ?_, ht.threshold_eq⟩
  show t.pool.freeAll.1.capacity = s.poolCapacity
  rw [hq, hcap, ht.capacity_eq]

/-- **Every call keeps a tracker sound,** whatever is asked and in which order. -/
theorem sound_call (ht : Sound s t) (c : Call) : Sound s (t.call c) := by
  cases c with
  | frame contacts now => exact sound_frame ht contacts now
  | teardown => exact sound_teardown ht

/-- Whatever is asked of a sound tracker, it stays sound. -/
theorem sound_calls (calls : List Call) : ∀ {t : Tracker}, Sound s t → Sound s (t.after calls) := by
  induction calls with
  | nil => exact fun ht => ht
  | cons c calls ih => exact fun ht => ih (sound_call ht c)

/-- What is proved of sound trackers holds after any run of a new one. Most main results are put
together this way. -/
theorem sound_after (h : Tracker.new s = .ok t₀) (calls : List Call) : Sound s (t₀.after calls) :=
  sound_calls calls (sound_new h)

end Tracker

end FingerTracking
