import FingerTracking.Proofs.Pointer

/-!
# A contact that gets no lighter

A finger does not follow a contact that weighs less than half of the last one it followed: such a
contact is about to lift. So one that gets no lighter should be followed all the time. It is as long
as it has a weight; but half of a negative weight, which a negative threshold admits, is more than
the weight itself, and the finger stays where it is (`stays_at_negative_weight`).

> `rejected_iff`: among contacts that get no lighter, only one after a negative weight is not
> followed.
>
> `batches_frames`: the batches of any run with one finger and one contact in every frame.
>
> `batches_steady`: the finger is pressed at the first contact and follows all the others, but for
> those that weigh less than half of a negative weight.
-/

namespace FingerTracking

open Matching Event

/-- The contacts of a run that has one in each frame, with the times of the frames. -/
abbrev Trace := List (Contact × Timestamp)

namespace Trace

def frames (run : Trace) : Frames :=
  run.map fun f => ([f.1], f.2)

/-- The place of a finger that is at a contact. -/
def place (f : Contact × Timestamp) : Sample :=
  ⟨f.1.x, f.1.y, f.2⟩

def weights (run : Trace) : List Int32 :=
  run.map (·.1.weight)

/-- The last contact that was followed has a negative weight, and this one weighs less than half of
it. -/
def Rejected (last f : Contact × Timestamp) : Prop :=
  last.1.weight < 0 ∧ f.1.weight.toInt < half last.1.weight

instance (last f : Contact × Timestamp) : Decidable (Rejected last f) :=
  inferInstanceAs (Decidable (_ ∧ _))

/-- The batches of a finger that was at the contact `last` and follows those of a run. -/
def followed (last : Contact × Timestamp) : Trace → List Batch
  | [] => []
  | f :: run =>
    if Rejected last f then (move 0 (place last) ++ [sync f.2]) :: followed last run
    else (move 0 (place f) ++ [sync f.2]) :: followed f run

/-- A contact in every frame, none of them lighter than the one before, and the first one heavy
enough to start a finger. -/
structure Steady (s : Settings) (run : Trace) : Prop where
  present : ∀ f ∈ run, f.1.isAbsent = false
  heavy : ∀ f ∈ run.head?, s.threshold ≤ f.1.weight
  rising : run.weights.IsChain (· ≤ ·)

/-! ## Weights -/

theorem half_le_of_nonneg {w v : Int32} (hw : 0 ≤ w) (hv : w ≤ v) : half w ≤ v.toInt := by
  rw [Int32.le_iff_toInt_le] at hw hv
  have hpos : 0 ≤ w.toInt := hw
  rw [half, Int.tdiv_eq_ediv_of_nonneg hpos]
  omega

/-- A contact that is not lighter than the last one is followed, unless this has a negative
weight. -/
theorem rejected_iff {last f : Contact × Timestamp} (hle : last.1.weight ≤ f.1.weight) :
    Rejected last f ↔ ¬ half last.1.weight ≤ f.1.weight.toInt := by
  constructor
  · exact fun hrej => Int.not_le.mpr hrej.2
  · intro hlight
    refine ⟨Int32.not_le.mp fun hpos => hlight (half_le_of_nonneg hpos hle), Int.not_le.mp hlight⟩

/-- Without negative weights every contact is followed. -/
theorem followed_of_nonneg (run : Trace) :
    ∀ {last : Contact × Timestamp}, 0 ≤ last.1.weight → (∀ f ∈ run, 0 ≤ f.1.weight) →
      followed last run = run.map fun f => move 0 (place f) ++ [sync f.2] := by
  induction run with
  | nil => exact fun _ _ => rfl
  | cons f run ih =>
    intro last hlast hrun
    have hf := hrun f (List.mem_cons_self ..)
    rw [followed, if_neg fun hrej => Int32.not_le.mpr hrej.1 hlast, List.map_cons,
      ih hf fun g hg => hrun g (List.mem_cons_of_mem _ hg)]

theorem pairwise_weights {run : Trace} (h : run.weights.IsChain (· ≤ ·)) :
    run.Pairwise fun e f => e.1.weight ≤ f.1.weight :=
  List.pairwise_map.mp h.pairwise

end Trace

namespace Tracker

open Trace

variable {s : Settings} {t t₀ : Tracker} {last f : Contact × Timestamp}

/-! ## A frame -/

/-- The finger is at the place of the last contact that it followed, with its weight. -/
def IsAt (t : Tracker) (last : Contact × Timestamp) : Prop :=
  t.HasOnly 0 (place last) last.1.weight

theorem heeded_place (hoff : s.filtered = false) (hle : last.1.weight ≤ f.1.weight) :
    heeded s (place last) last.1.weight f.1 f.2 =
      if Rejected last f then (place last, last.1.weight) else (place f, f.1.weight) := by
  have hnext : Pointer.next s (place last) f.1 f.2 = place f := by
    rw [Pointer.next, hoff]
    rfl
  rw [heeded, hnext]
  by_cases hrej : Rejected last f
  · rw [if_pos hrej, if_neg ((rejected_iff hle).mp hrej)]
  · rw [if_neg hrej, if_pos (Classical.not_not.mp fun h => hrej ((rejected_iff hle).mpr h))]

/-! ## A run -/

theorem batches_frames (hoff : s.filtered = false) (run : Trace) :
    ∀ {t : Tracker} {last : Contact × Timestamp}, Sound s t → t.IsAt last →
      (last :: run).Pairwise (fun e f => e.1.weight ≤ f.1.weight) →
      t.batches run.frames = followed last run := by
  induction run with
  | nil => exact fun _ _ _ => rfl
  | cons f run ih =>
    intro t last ht hat hrising
    obtain ⟨hlast, hrun⟩ := List.pairwise_cons.mp hrising
    obtain ⟨hevents, -, hthen⟩ := frame_alone ht hat f.1 f.2
    rw [heeded_place hoff (hlast f (List.mem_cons_self ..))] at hevents hthen
    have hsound := sound_frame ht [f.1] f.2
    show (t.frame [f.1] f.2).events :: (t.frame [f.1] f.2).tracker.batches (Trace.frames run) = _
    rw [followed]
    by_cases hrej : Rejected last f
    · -- what comes later is not lighter than the last contact followed either
      rw [if_pos hrej] at hevents hthen ⊢
      rw [hevents, ih hsound hthen (List.Pairwise.sublist (by simp) hrising)]
      rfl
    · rw [if_neg hrej] at hevents hthen ⊢
      rw [hevents, ih hsound hthen hrun]
      rfl

/-- **A contact that gets no lighter is followed.** Without the filter, in any run of a new tracker
with one such contact in every frame, finger 0 is pressed at the first contact and told about in
every later frame. There it is at the contact of the frame, unless this weighs less than half of the
negative weight of the last one it followed. -/
theorem batches_steady (h : Tracker.new s = .ok t₀) (hoff : s.filtered = false)
    {first : Contact × Timestamp} {later : Trace} (hrun : Steady s (first :: later)) :
    t₀.batches (Trace.frames (first :: later)) =
        (press 0 (place first) ++ [sync first.2]) :: followed first later ∧
      (0 ≤ first.1.weight →
        followed first later = later.map fun f => move 0 (place f) ++ [sync f.2]) := by
  have hrising := pairwise_weights hrun.rising
  have hqualifies : qualifies s.threshold first.1 = true := by
    rw [qualifies_iff, Int32.not_lt]
    exact ⟨hrun.present first (List.mem_cons_self ..), hrun.heavy first rfl⟩
  obtain ⟨hv, -⟩ := new_eq_ok h
  have ht := sound_new h
  obtain ⟨hevents, -, hthen⟩ := frame_first hv ht (entries_new h) hqualifies first.2
  rw [nextId_new h] at hevents hthen
  constructor
  · show (t₀.frame [first.1] first.2).events ::
      (t₀.frame [first.1] first.2).tracker.batches (Trace.frames later) = _
    rw [hevents, batches_frames hoff later (sound_frame ht [first.1] first.2) hthen hrising]
    rfl
  · intro hpos
    refine followed_of_nonneg later hpos fun f hf => ?_
    exact Int32.le_trans hpos ((List.pairwise_cons.mp hrising).1 f hf)

/-- A contact as heavy as before, one that is heavier, and one far away. -/
theorem batches_steady_of_three :
    ∃ t₀, Tracker.new { threshold := -100 } = .ok t₀ ∧
      let first : Contact × Timestamp := (⟨10, 10, -10⟩, Timestamp.epoch)
      let later : Trace :=
        [(⟨20, 20, -10⟩, .ofMillis 10), (⟨30, 30, -5⟩, .ofMillis 20), (⟨-9, 500, 0⟩, .ofMillis 30)]
      Steady { threshold := -100 } (first :: later) ∧
        t₀.batches (Trace.frames (first :: later)) =
          (press 0 (place first) ++ [sync first.2]) :: followed first later ∧
        followed first later =
          [move 0 ⟨10, 10, .epoch⟩ ++ [sync (.ofMillis 10)],
            move 0 ⟨30, 30, .ofMillis 20⟩ ++ [sync (.ofMillis 20)],
            move 0 ⟨-9, 500, .ofMillis 30⟩ ++ [sync (.ofMillis 30)]] := by
  obtain ⟨t₀, h⟩ : ∃ t₀, Tracker.new { threshold := -100 } = .ok t₀ := ⟨_, rfl⟩
  have hrun : Steady { threshold := -100 }
      [(⟨10, 10, -10⟩, Timestamp.epoch), (⟨20, 20, -10⟩, .ofMillis 10),
        (⟨30, 30, -5⟩, .ofMillis 20), (⟨-9, 500, 0⟩, .ofMillis 30)] := by
    refine ⟨by decide, by decide, ?_⟩
    simp [Trace.weights]
  exact ⟨t₀, h, hrun, (batches_steady h rfl hrun).1, by decide +kernel⟩

/-- Two contacts of the same weight, below zero: the finger does not follow the second one. -/
theorem stays_at_negative_weight :
    ∃ t₀, Tracker.new { threshold := -100 } = .ok t₀ ∧
      let first : Contact × Timestamp := (⟨10, 10, -10⟩, Timestamp.epoch)
      let second : Contact × Timestamp := (⟨20, 20, -10⟩, .ofMillis 10)
      Steady { threshold := -100 } [first, second] ∧
        t₀.batches (Trace.frames [first, second]) =
          [press 0 (place first) ++ [sync first.2], move 0 (place first) ++ [sync second.2]] ∧
        t₀.batches (Trace.frames [first, second]) ≠
          [press 0 (place first) ++ [sync first.2], move 0 (place second) ++ [sync second.2]] := by
  obtain ⟨t₀, h⟩ : ∃ t₀, Tracker.new { threshold := -100 } = .ok t₀ := ⟨_, rfl⟩
  obtain ⟨-, ht₀⟩ := new_eq_ok h
  refine ⟨t₀, h, ⟨by decide, by decide, ?_⟩, ?_⟩
  · simp [Trace.weights]
  · rw [ht₀]
    decide +kernel

end Tracker

end FingerTracking
