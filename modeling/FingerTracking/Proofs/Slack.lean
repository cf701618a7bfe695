import FingerTracking.Proofs.SideBySide

/-!
# Room beyond need does not show

How many samples are kept of each finger, and how many fingers there are slots for, cannot be told
from what a tracker gives back, as long as every contact that should start a finger finds a slot
(`Ample`). A frame looks at the newest sample of a finger only, and where there are slots enough it
does not matter how many more there are.

> `countP_le_spares`: in an ample frame there is a slot for each contact that qualifies.
>
> `outputs_eq_of_ample`: trackers with the same threshold and the same filter give back the same.
-/

namespace FingerTracking

open Matching

namespace Matching

/-- Being in the same place is the strongest likeness. -/
theorem placeLikeness_eq : PlaceLikeness Eq Eq where
  distance_eq hp hc := by rw [hp, hc]
  weight_eq hc := by rw [hc]
  isAbsent_eq hc := by rw [hc]
  put hc time := by rw [hc]
  step hp hc time := by rw [hp, hc]

theorem eventLikeness_eq : EventLikeness Eq Eq where
  finger hp id := by rw [hp]
  touch hp pressed := by rw [hp]
  x hp := by rw [hp]
  y hp := by rw [hp]
  sync _ := rfl

end Matching

namespace Tracker

variable {s s' : Settings} {t u : Tracker} {contacts : List Contact} {now : Timestamp}

/-- Every contact that should start a finger in the frame finds a slot when its turn comes. -/
def Ample (t : Tracker) (contacts : List Contact) (now : Timestamp) : Prop :=
  ∀ j < contacts.length, ∀ c ∈ (t.moved contacts now).frame[j]?, qualifies t.threshold c = true →
    (t.turn contacts now j).pool.take?.isSome = true

instance (t : Tracker) (contacts : List Contact) (now : Timestamp) :
    Decidable (t.Ample contacts now) :=
  inferInstanceAs (Decidable (∀ j < contacts.length, ∀ c ∈ (t.moved contacts now).frame[j]?,
    qualifies t.threshold c = true → (t.turn contacts now j).pool.take?.isSome = true))

/-- In no frame of the run is a contact turned away for want of a slot. -/
def AmpleIn (t : Tracker) : List Call → Prop
  | [] => True
  | .frame contacts now :: calls =>
    t.Ample contacts now ∧ (t.frame contacts now).tracker.AmpleIn calls
  | .teardown :: calls => t.teardown.1.AmpleIn calls

/-! ## A frame -/

/-- At every turn all contacts so far have had their slots. -/
theorem countP_take_le (hp : t.pool.Shaped) (hroom : t.Ample contacts now) (k : Nat) :
    ((t.moved contacts now).frame.take k).countP (qualifies t.threshold) ≤
      t.pool.spares.length := by
  induction k with
  | zero => exact Nat.zero_le _
  | succ k ih =>
    rw [List.take_add_one]
    cases hc : (t.moved contacts now).frame[k]? with
    | none => rwa [Option.toList_none, List.append_nil]
    | some c =>
      rw [Option.toList_some, List.countP_append, List.countP_singleton]
      by_cases hq : qualifies t.threshold c = true
      · -- the contact has found a slot, so those before it have not used them up
        obtain ⟨hlt, -⟩ := List.getElem?_eq_some_iff.mp hc
        have hslot := hroom k (length_moved contacts now hp ▸ hlt) c hc hq
        rw [Option.isSome_iff_ne_none, ne_eq,
          Pool.take?_eq_none_iff (shaped_turn contacts now hp k), spares_turn hp,
          List.drop_eq_nil_iff, arrivedBy, length_arrivals] at hslot
        rw [if_pos hq]
        omega
      · rwa [if_neg hq, Nat.add_zero]

/-- In an ample frame there is a slot for each contact that qualifies. -/
theorem countP_le_spares (hp : t.pool.Shaped) (hroom : t.Ample contacts now) :
    (t.moved contacts now).frame.countP (qualifies t.threshold) ≤ t.pool.spares.length := by
  have h := countP_take_le hp hroom (t.moved contacts now).frame.length
  rwa [List.take_length] at h

/-- Where fingers stand alike the same contacts are left for new fingers. -/
theorem frame_moved_eq (hthreshold : s.threshold = s'.threshold)
    (hfiltered : s.filtered = s'.filtered) (ht : Sound s t) (hu : Sound s' u)
    (h : StandAlike Eq s s' t u) (contacts : List Contact) (now : Timestamp) :
    (t.moved contacts now).frame = (u.moved contacts now).frame := by
  have hL := Finger.likeness_of_places placeLikeness_eq hthreshold hfiltered now
  have hp := ht.settled.shaped
  have hq := hu.settled.shaped
  obtain ⟨es, hm⟩ := exists_mated hp hq h.fingers
  have htally := tally_claims hL hp hq hm (List.forall₂_same.mpr fun c (_ : c ∈ contacts) => rfl)
  obtain ⟨js, hjs, hjs'⟩ := takenOff_mates hp hq hm htally now now
  rw [hjs, hjs']

/-- Where both trackers have slots for all contacts that want one, they start as many fingers. -/
theorem roomAlike_of_ample (hthreshold : s.threshold = s'.threshold)
    (hfiltered : s.filtered = s'.filtered) (ht : Sound s t) (hu : Sound s' u)
    (h : StandAlike Eq s s' t u) (hroom : t.Ample contacts now) (hroom' : u.Ample contacts now) :
    RoomAlike s t u contacts now := by
  have hle := countP_le_spares ht.settled.shaped hroom
  have hle' := countP_le_spares hu.settled.shaped hroom'
  rw [ht.threshold_eq] at hle
  rw [hu.threshold_eq, ← hthreshold, ← frame_moved_eq hthreshold hfiltered ht hu h] at hle'
  rw [RoomAlike, Nat.min_eq_left hle, Nat.min_eq_left hle']

/-! ## A run -/

/-- Equal events and equal contacts: the caller sees no difference. -/
theorem output_eq {r r' : Framed} (h : LikeAnswers Eq Eq r r') : r.output = r'.output := by
  have hevents := h.events
  have hframe : List.Forall₂ Eq r.frame r'.frame := by
    refine h.frame.imp fun c d hcd => ?_
    rcases hcd with rfl | ⟨c₀, _, rfl, rfl, rfl⟩
    · rfl
    · rfl
  rw [List.forall₂_eq_eq_eq] at hevents hframe
  rw [Framed.output, Framed.output, hevents, hframe]

theorem AmpleIn.call {c : Call} {calls : List Call} (h : t.AmpleIn (c :: calls)) :
    (t.call c).AmpleIn calls := by
  cases c with
  | frame contacts now => exact h.2
  | teardown => exact h

theorem AmpleIn.ample {c : Call} {calls : List Call} (h : t.AmpleIn (c :: calls)) :
    ∀ contacts now, c = .frame contacts now → t.Ample contacts now := by
  rintro contacts now rfl
  exact h.1

/-- The two runs go on side by side. What keeps them together is that their fingers stand in the
same places. -/
theorem outputs_eq (hthreshold : s.threshold = s'.threshold) (hfiltered : s.filtered = s'.filtered)
    (calls : List Call) : ∀ {t u : Tracker}, Sound s t → Sound s' u → StandAlike Eq s s' t u →
      t.AmpleIn calls → u.AmpleIn calls →
      (t.answers calls).map Framed.output = (u.answers calls).map Framed.output := by
  induction calls with
  | nil => exact fun _ _ _ _ _ => rfl
  | cons c calls ih =>
    intro t u ht hu h hroom hroom'
    have hlike : Call.Like Eq c c := by
      cases c with
      | frame contacts now => exact .frame (List.forall₂_same.mpr fun _ _ => rfl) now
      | teardown => exact .teardown
    obtain ⟨hanswer, hafter⟩ := likeAnswers_call placeLikeness_eq eventLikeness_eq hthreshold
      hfiltered ht hu h hlike fun contacts now hc =>
        roomAlike_of_ample hthreshold hfiltered ht hu h (hroom.ample contacts now hc)
          (hroom'.ample contacts now hc)
    rw [answers, answers, List.map_cons, List.map_cons, output_eq hanswer,
      ih (sound_call ht c) (sound_call hu c) hafter hroom.call hroom'.call]

/-- **Room beyond need does not show.** Two new trackers with the same threshold and the same filter
give back the same events and the same contacts in every run in which both have slots enough,
however long their trails are and however many slots they have. -/
theorem outputs_eq_of_ample {t₀ u₀ : Tracker} (h : Tracker.new s = .ok t₀)
    (h' : Tracker.new s' = .ok u₀) (hthreshold : s.threshold = s'.threshold)
    (hfiltered : s.filtered = s'.filtered) (calls : List Call) (hroom : t₀.AmpleIn calls)
    (hroom' : u₀.AmpleIn calls) :
    (t₀.answers calls).map Framed.output = (u₀.answers calls).map Framed.output :=
  outputs_eq hthreshold hfiltered calls (sound_new h) (sound_new h') (standAlike_new Eq h h') hroom
    hroom'

/-- Two slots that are both in use, with trails of one sample, and six slots with trails of three.
A finger leaves and another one starts, and all leave in between. -/
theorem outputs_eq_of_ample_full :
    ∃ t₀ u₀, Tracker.new { trailLength := 1, filtered := true } = .ok t₀ ∧
      Tracker.new { trailLength := 3, filtered := true, maxFingers := 3 } = .ok u₀ ∧
      let calls : List Call := [.frame [⟨10, 10, 1⟩, ⟨500, 500, 1⟩] .epoch,
        .frame [⟨502, 500, 1⟩, ⟨11, 10, 1⟩] (.ofMillis 10), .frame [⟨90, 90, 1⟩] (.ofMillis 20),
        .frame [⟨90, 90, 1⟩, ⟨7, 7, 1⟩] (.ofMillis 30), .teardown,
        .frame [⟨5, 5, 1⟩] (.ofMillis 40)]
      t₀.AmpleIn calls ∧ u₀.AmpleIn calls ∧
        (t₀.answers calls).map Framed.output = (u₀.answers calls).map Framed.output := by
  obtain ⟨t₀, h⟩ : ∃ t₀, Tracker.new { trailLength := 1, filtered := true } = .ok t₀ := ⟨_, rfl⟩
  obtain ⟨u₀, h'⟩ : ∃ u₀, Tracker.new { trailLength := 3, filtered := true, maxFingers := 3 } =
    .ok u₀ := ⟨_, rfl⟩
  obtain ⟨-, ht₀⟩ := new_eq_ok h
  obtain ⟨-, hu₀⟩ := new_eq_ok h'
  refine ⟨t₀, u₀, h, h', ?_⟩
  intro calls
  have hroom : t₀.AmpleIn calls := by
    rw [ht₀]
    refine ⟨?_, ?_, ?_, ?_, ?_, trivial⟩ <;> decide +kernel
  have hroom' : u₀.AmpleIn calls := by
    rw [hu₀]
    refine ⟨?_, ?_, ?_, ?_, ?_, trivial⟩ <;> decide +kernel
  exact ⟨hroom, hroom', outputs_eq_of_ample h h' rfl rfl calls hroom hroom'⟩

end Tracker

end FingerTracking
