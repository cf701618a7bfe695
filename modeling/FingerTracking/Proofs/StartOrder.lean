import FingerTracking.Proofs.Fates
import FingerTracking.Proofs.Lifeline
import FingerTracking.Proofs.Register

/-!
# The order in which fingers start

The register of a run numbers the fingers as they start. Here is what the numbers say: in a frame
they are given out in the order of the contacts, to those that start a finger and to no others
(`InTurn`), and a finger keeps its number, and with it its id, for as long as it is active
(`HeldSince`).

> `inTurn_of_registered`: the fingers that start in a frame, by the contacts they start from; and
> the groups of the batch, by their numbers.
>
> `heldSince_of_mem`: the row of a finger has been in the register since the finger started.
>
> `numbered_in_turn`: both, with the register itself, after every run.
-/

namespace FingerTracking

open MatchTable Matching Event

namespace Tracker

variable {s : Settings} {t t₀ : Tracker} {r : Register} {n : Nat} {b : Bool}
variable {contacts : List Contact} {now : Timestamp} {e : Handle × Nat}

/-- The fingers that start in a frame, each with the index of its contact, take the numbers that
come next. -/
structure InTurn (t : Tracker) (r : Register) (contacts : List Contact) (now : Timestamp)
    (new : List (Nat × Handle)) : Prop where
  increasing : new.Pairwise (·.1 < ·.1)
  mem_iff : ∀ j h, (j, h) ∈ new ↔ t.Starts contacts now j h
  /-- A contact that is absent or too light, or that finds no slot, takes no number. -/
  rejected : ∀ j c, contacts[j]? = some c →
    c.isAbsent = true ∨ c.weight < t.threshold ∨ (t.turn contacts now j).pool.take? = none →
    ∀ h, (j, h) ∉ new
  register_eq : t.register r (.frame contacts now) =
    { rows := (r.rows.filter fun e => (t.frame contacts now).tracker.pool.isLive e.1) ++
        (new.map (·.2)).zipIdx r.count
      count := r.count + new.length }
  /-- The groups of the batch are those of the fingers that were active and then the new ones, so
  they are in the order of the numbers. -/
  ids_eq : ids (t.frame contacts now).events =
    (r.rows.map (·.2) ++ List.range' r.count new.length).map fun k => (UInt32.ofNat k).toInt32
  ordered : (r.rows.map (·.2) ++ List.range' r.count new.length).Pairwise (· < ·)

/-- The finger of the row started in a frame of the run, where it was given its number, and since
then it has been active under this number, and under the id that goes with it. -/
def HeldSince (t₀ : Tracker) (calls : List Call) (e : Handle × Nat) : Prop :=
  ∃ before contacts now later, calls = before ++ .frame contacts now :: later ∧
    e ∈ ((t₀.after before).newcomers contacts now).zipIdx (t₀.registered before).count ∧
    ∀ mid, mid <+: later →
      e ∈ (t₀.registered (before ++ .frame contacts now :: mid)).rows ∧
      ∃ f, (t₀.after (before ++ .frame contacts now :: mid)).pool.get? e.1 = some f ∧
        f.id = UInt32.ofNat e.2

/-! ## A frame -/

/-- A contact starts a finger only if it is there, is heavy enough and finds a slot. -/
theorem not_starts_of_rejected (hp : t.pool.Shaped) {j : Nat} {c : Contact}
    (hc : contacts[j]? = some c)
    (hr : c.isAbsent = true ∨ c.weight < t.threshold ∨
      (t.turn contacts now j).pool.take? = none) (h : Handle) :
    ¬ t.Starts contacts now j h := by
  intro hs
  by_cases hclaimed : ∃ k, t.ClaimedBy contacts now j k
  · obtain ⟨k, hk⟩ := hclaimed
    exact not_starts_of_claimedBy hp hk h hs
  · have hfree : ∀ k, ¬ t.ClaimedBy contacts now j k := fun k hk => hclaimed ⟨k, hk⟩
    obtain ⟨hq, f, rest, hspare⟩ := (starts_iff_of_unclaimed hp hc hfree).mp hs
    obtain ⟨hpresent, hheavy⟩ := qualifies_iff.mp hq
    rcases hr with habsent | hlight | hnone
    · exact absurd (hpresent.symm.trans habsent) Bool.false_ne_true
    · exact hheavy hlight
    · rw [Pool.take?_eq_none_iff (shaped_turn contacts now hp j), hspare] at hnone
      exact nomatch hnone

/-- The fingers of a frame have the numbers of their rows, and those that start in it the numbers
after them. -/
theorem map_id_present (hp : t.pool.Shaped) (hr : t.Registered r) (contacts : List Contact)
    (now : Timestamp) :
    (t.present contacts now).map (·.2.id) =
      (r.rows.map (·.2) ++ List.range' r.count (t.newcomers contacts now).length).map
        UInt32.ofNat := by
  have hold : (t.pool.entries.map fun e => e.2.id) = r.rows.map fun e => UInt32.ofNat e.2 := by
    rw [← map_id_fingers hp hr, Pool.fingers_eq hp, List.map_map]
    rfl
  have harr : ((t.arrivals contacts now).map fun a => a.finger.id) =
      (List.range' r.count (t.newcomers contacts now).length).map UInt32.ofNat := by
    have hids : (t.arrivals contacts now).map (fun a => (a.handle, a.finger.id)) = _ :=
      ids_arrivals hp hr.nextId_eq
    have h := congrArg (List.map Prod.snd) hids
    rw [List.map_map, List.map_map] at h
    rw [← List.zipIdx_map_snd, List.map_map]
    exact h
  rw [present, List.map_append, List.map_append, ← harr, List.map_map, List.map_map, List.map_map]
  refine congrArg₂ (· ++ ·) ?_ rfl
  refine Eq.trans (List.map_congr_left fun e _ => ?_) hold
  exact id_follow ..

/-- In a frame the numbers go to the fingers that start, in the order of their contacts. -/
theorem inTurn_of_registered (hp : t.pool.Settled n b) (hr : t.Registered r)
    (contacts : List Contact) (now : Timestamp) : ∃ new, t.InTurn r contacts now new := by
  let new := (t.arrivals contacts now).map fun a => (a.index, a.handle)
  have hnew : new.map (·.2) = t.newcomers contacts now := by
    rw [newcomers_eq _ _ hp.shaped, List.map_map]
    rfl
  have hlength : new.length = (t.newcomers contacts now).length := by
    rw [← hnew]
    exact (List.length_map ..).symm
  have hmem : ∀ j h, (j, h) ∈ new ↔ t.Starts contacts now j h := by
    intro j h
    rw [← exists_arrival_iff hp.shaped, List.mem_map]
    simp only [Prod.mk.injEq]
  refine ⟨new, List.pairwise_map.mpr (arrivals_index_pairwise ..), hmem, ?_, ?_, ?_, ?_⟩
  · intro j c hc hrejected h hin
    exact not_starts_of_rejected hp.shaped hc hrejected h ((hmem j h).mp hin)
  · rw [register, hnew, hlength]
  · have htold := congrArg (List.map UInt32.toInt32) (map_id_present hp.shaped hr contacts now)
    rw [List.map_map, List.map_map] at htold
    rw [ids_frame contacts now hp, hlength]
    exact htold
  · refine List.pairwise_append.mpr ⟨List.pairwise_map.mpr hr.increasing,
      List.pairwise_lt_range', ?_⟩
    intro k hk m hm
    obtain ⟨e, he, rfl⟩ := List.mem_map.mp hk
    exact Nat.lt_of_lt_of_le (hr.below e he) (List.mem_range'_1.mp hm).1

/-! ## A run -/

/-- A row of the register is an active finger. -/
theorem exists_get?_of_mem_rows (hp : t.pool.Shaped) (hr : t.Registered r) (he : e ∈ r.rows) :
    ∃ f, t.pool.get? e.1 = some f ∧ f.id = UInt32.ofNat e.2 := by
  have hmem := List.mem_map_of_mem (f := fun e => (e.1, UInt32.ofNat e.2)) he
  rw [← hr.entries_eq] at hmem
  obtain ⟨d, hd, heq⟩ := List.mem_map.mp hmem
  obtain ⟨hhandle, hid⟩ := Prod.mk.inj heq
  exact ⟨d.2, hhandle ▸ (Pool.get?_eq_some_iff hp).mpr hd, hid⟩

theorem registerAll_append (calls : List Call) (c : Call) : ∀ (t : Tracker) (r : Register),
    t.registerAll r (calls ++ [c]) = (t.after calls).register (t.registerAll r calls) c := by
  induction calls with
  | nil => exact fun _ _ => rfl
  | cons d calls ih => exact fun t r => ih (t.call d) (t.register r d)

/-- The row of a finger has been in the register since the finger started. -/
theorem heldSince_of_mem (h : Tracker.new s = .ok t₀) (calls : List Call) :
    ∀ {e : Handle × Nat}, e ∈ (t₀.registered calls).rows → HeldSince t₀ calls e := by
  induction calls using List.reverseRecOn with
  | nil => exact fun he => nomatch he
  | append_singleton calls c ih =>
    intro e he
    have hnow := exists_get?_of_mem_rows (sound_after h (calls ++ [c])).settled.shaped
      (registered_after h (calls ++ [c])) he
    have happend : t₀.registered (calls ++ [c]) = _ := registerAll_append calls c t₀ _
    cases c with
    | teardown =>
      rw [happend] at he
      exact nomatch he
    | frame contacts now =>
      have hcases := he
      rw [happend] at hcases
      rcases List.mem_append.mp hcases with hold | hnew
      · -- the finger was there before the last frame
        obtain ⟨before, contacts', now', later, rfl, hstart, hheld⟩ :=
          ih (List.mem_filter.mp hold).1
        refine ⟨before, contacts', now', later ++ [.frame contacts now], by simp, hstart, ?_⟩
        intro mid hmid
        rcases List.prefix_concat_iff.mp hmid with rfl | hmid
        · rw [← List.cons_append, ← List.append_assoc]
          exact ⟨he, hnow⟩
        · exact hheld mid hmid
      · -- it has started in the last frame
        refine ⟨calls, contacts, now, [], rfl, hnew, ?_⟩
        intro mid hmid
        obtain rfl := List.prefix_nil.mp hmid
        exact ⟨he, hnow⟩

/-- **Ids are given out in turn.** After every run the register has the active fingers in their
order, with numbers that increase, and their ids and the next one are the numbers modulo 2³²; each
finger has had its number since it started; and in the frame that comes next the numbers go to the
fingers that start, contact by contact. -/
theorem numbered_in_turn (h : Tracker.new s = .ok t₀) (calls : List Call) :
    let t := t₀.after calls
    let r := t₀.registered calls
    t.Registered r ∧ (∀ e ∈ r.rows, HeldSince t₀ calls e) ∧
      ∀ contacts now, ∃ new, t.InTurn r contacts now new := by
  intro t r
  have hr := registered_after h calls
  exact ⟨hr, fun e he => heldSince_of_mem h calls he,
    inTurn_of_registered (sound_after h calls).settled hr⟩

/-- Of two fingers the first one leaves, and a third one starts beside a contact that is too
light. -/
theorem numbered_in_turn_of_three :
    ∃ t₀, Tracker.new { threshold := 2 } = .ok t₀ ∧
      let calls : List Call := [.frame [⟨10, 10, 5⟩, ⟨500, 500, 5⟩] Timestamp.epoch,
        .frame [⟨500, 500, 5⟩] Timestamp.epoch,
        .frame [⟨500, 500, 5⟩, ⟨30, 30, 1⟩, ⟨10, 10, 5⟩] Timestamp.epoch]
      let t := t₀.after calls
      let r := t₀.registered calls
      r.rows.map (·.2) = [1, 2] ∧ t.nextId = 3 ∧
        t.Registered r ∧ (∀ e ∈ r.rows, HeldSince t₀ calls e) ∧
        ∀ contacts now, ∃ new, t.InTurn r contacts now new := by
  obtain ⟨t₀, h⟩ : ∃ t₀, Tracker.new { threshold := 2 } = .ok t₀ := ⟨_, rfl⟩
  obtain ⟨-, ht₀⟩ := new_eq_ok h
  refine ⟨t₀, h, ?_⟩
  intro calls t r
  refine ⟨?_, ?_, numbered_in_turn h calls⟩
  · subst ht₀
    decide +kernel
  · subst ht₀
    decide +kernel

end Tracker

end FingerTracking
