import FingerTracking.Proofs.Fates
import FingerTracking.Proofs.Runs

/-!
# No contact is lost or counted twice

Every contact of a frame is claimed by one finger, or starts one, or is dropped for a reason that
can be named; no finger has two contacts; and after the frame the fingers are those that had one.
`Conserved` says all of this of one frame.

> `conserved_after`: every frame is conserved, after every run of a new tracker.
-/

namespace FingerTracking

open MatchTable Matching

namespace Tracker

variable {s : Settings} {t t₀ : Tracker} {n : Nat} {b : Bool}
variable {contacts : List Contact} {now : Timestamp} {j : Nat} {h : Handle} {c : Contact}

/-- The fate of the contact `c` at index `j`: one finger has claimed it, or it starts one finger, or
it is dropped because it is no contact, or too light, or there was no slot when its turn came. -/
def Fate (t : Tracker) (contacts : List Contact) (now : Timestamp) (j : Nat) (c : Contact) : Prop :=
  (∃! h, t.ClaimedBy contacts now j h) ∧ (∀ h, ¬ t.Starts contacts now j h) ∨
  (∀ h, ¬ t.ClaimedBy contacts now j h) ∧ (∃! h, t.Starts contacts now j h) ∨
  (∀ h, ¬ t.ClaimedBy contacts now j h) ∧ (∀ h, ¬ t.Starts contacts now j h) ∧
    (c.isAbsent = true ∨ c.weight < t.threshold ∨ (t.turn contacts now j).pool.take? = none)

/-- What a frame does with its contacts and its fingers. -/
structure Conserved (t : Tracker) (contacts : List Contact) (now : Timestamp) : Prop where
  fate : ∀ j c, contacts[j]? = some c → t.Fate contacts now j c
  /-- A finger is there for one contact of the frame. -/
  one_contact : ∀ h j k, t.ClaimedBy contacts now j h ∨ t.Starts contacts now j h →
    t.ClaimedBy contacts now k h ∨ t.Starts contacts now k h → j = k ∧ j < contacts.length
  /-- A finger that starts was not active before, and stands where its contact is. -/
  started : ∀ j h c, t.Starts contacts now j h → contacts[j]? = some c →
    h ∉ t.pool.handles ∧ ∃ f time, (t.frame contacts now).tracker.pool.get? h = some f ∧
      f.trail.toList = [⟨c.x, c.y, time⟩] ∧ f.weight = c.weight
  /-- A finger that claimed a contact stays, with its id. -/
  kept : ∀ j h, t.ClaimedBy contacts now j h → ∃ f g, t.pool.get? h = some f ∧
    (t.frame contacts now).tracker.pool.get? h = some g ∧ g.id = f.id
  /-- A finger that claimed none is released: its handle is stale and its slot is free. -/
  released : ∀ h ∈ t.pool.handles, (∀ j, ¬ t.ClaimedBy contacts now j h) →
    (t.frame contacts now).tracker.pool.isLive h = false ∧
      h.index ∈ (t.frame contacts now).tracker.pool.available
  /-- The fingers that stay keep their order; after them come those that started, in the order of
  their contacts. -/
  handles_after : ∃ (old : List Handle) (new : List (Nat × Handle)),
    (t.frame contacts now).tracker.pool.handles = old ++ new.map (·.2) ∧
    old.Sublist t.pool.handles ∧ (∀ h, h ∈ old ↔ ∃ j, t.ClaimedBy contacts now j h) ∧
    new.Pairwise (·.1 < ·.1) ∧ ∀ j h, (j, h) ∈ new ↔ t.Starts contacts now j h
  /-- The claimed contacts are moved to (0, 0), the others are as they were. -/
  frame_after : (t.frame contacts now).frame.length = contacts.length ∧
    ∀ j c, contacts[j]? = some c →
      ((∃ h, t.ClaimedBy contacts now j h) →
        (t.frame contacts now).frame[j]? = some { c with x := 0, y := 0 }) ∧
      ((∀ h, ¬ t.ClaimedBy contacts now j h) → (t.frame contacts now).frame[j]? = some c)

/-- One contact, and what becomes of it: claimed, the start of a finger, or passed over. -/
theorem fate_of_shaped (hp : t.pool.Shaped) (hc : contacts[j]? = some c) :
    t.Fate contacts now j c := by
  by_cases hclaimed : ∃ h, t.ClaimedBy contacts now j h
  · obtain ⟨h, hh⟩ := hclaimed
    exact Or.inl ⟨⟨h, hh, fun k hk => claimedBy_inj hp hk hh⟩, not_starts_of_claimedBy hp hh⟩
  -- an unclaimed contact has its turn as it came, and whether it starts a finger depends on
  -- itself and on the slots that are left
  have hfree : ∀ h, ¬ t.ClaimedBy contacts now j h := not_exists.mp hclaimed
  right
  by_cases hq : qualifies t.threshold c = true
  · cases hspare : (t.turn contacts now j).pool.spares with
    | nil =>
      right
      refine ⟨hfree, ?_, Or.inr (Or.inr ?_)⟩
      · intro h hs
        obtain ⟨-, f, rest, hcons⟩ := (starts_iff_of_unclaimed hp hc hfree).mp hs
        rw [hspare] at hcons
        exact nomatch hcons
      · exact (Pool.take?_eq_none_iff (shaped_turn contacts now hp j)).mpr hspare
    | cons e rest =>
      left
      have hs : t.Starts contacts now j e.1 :=
        (starts_iff_of_unclaimed hp hc hfree).mpr ⟨hq, e.2, rest, hspare⟩
      exact ⟨hfree, e.1, hs, fun k hk => starts_unique hp hk hs⟩
  · right
    refine ⟨hfree, ?_, ?_⟩
    · intro h hs
      exact hq ((starts_iff_of_unclaimed hp hc hfree).mp hs).1
    · by_cases habsent : c.isAbsent = true
      · exact Or.inl habsent
      · refine Or.inr (Or.inl ?_)
        by_cases hlight : c.weight < t.threshold
        · exact hlight
        · exact absurd (qualifies_iff.mpr ⟨by simpa using habsent, hlight⟩) hq

/-- A finger claims one contact or starts at one, not both and no two. -/
theorem one_contact_of_shaped {k : Nat} (hp : t.pool.Shaped)
    (hj : t.ClaimedBy contacts now j h ∨ t.Starts contacts now j h)
    (hk : t.ClaimedBy contacts now k h ∨ t.Starts contacts now k h) :
    j = k ∧ j < contacts.length := by
  rcases hj with hj | hj
  · refine ⟨?_, lt_of_claimedBy hp hj⟩
    rcases hk with hk | hk
    · have hclaim := (claimedBy_iff hp).mp hj
      rw [(claimedBy_iff hp).mp hk, Option.some_inj] at hclaim
      exact hclaim.symm
    · exact absurd hj.1 (notMem_handles_of_starts hp hk)
  · have hlt : j < contacts.length := by
      obtain ⟨c, hc⟩ := exists_of_starts hj
      obtain ⟨hlt, -⟩ := List.getElem?_eq_some_iff.mp hc
      rw [length_moved contacts now hp] at hlt
      exact hlt
    refine ⟨?_, hlt⟩
    rcases hk with hk | hk
    · exact absurd hk.1 (notMem_handles_of_starts hp hj)
    · exact starts_inj hp hj hk

/-- A finger that starts is put where its contact is. -/
theorem started_of_settled (hp : t.pool.Settled n b) (hs : t.Starts contacts now j h)
    (hc : contacts[j]? = some c) :
    ∃ f time, (t.frame contacts now).tracker.pool.get? h = some f ∧
      f.trail.toList = [⟨c.x, c.y, time⟩] ∧ f.weight = c.weight := by
  obtain ⟨a, ha, rfl, rfl⟩ := (exists_arrival_iff hp.shaped).mpr hs
  obtain ⟨d, e, time, id, hd, hq, he, -, hf⟩ := arrivals_started _ _ _ _ _ a ha
  rw [Nat.sub_zero] at hd
  -- nobody has claimed the contact, so it stands in the frame as it came
  have hsame := getElem?_frame_of_unclaimed hp.shaped (unclaimed_of_qualifies hp.shaped hd hq)
  obtain rfl : d = c := Option.some_inj.mp (hd.symm.trans (hsame.trans hc))
  have hmem : goOn a.entry ∈ (t.frame contacts now).tracker.pool.entries := by
    rw [entries_frame contacts now hp]
    exact List.mem_append_right _ (List.mem_map_of_mem ha)
  refine ⟨(goOn a.entry).2, time,
    (Pool.get?_eq_some_iff (settled_frame contacts now hp).shaped).mpr hmem, ?_, ?_⟩
  · show a.finger.trail.toList = _
    rw [hf]
    exact Trail.toList_push_cleared (hp.spare_resting e he).fits.stays d.x d.y time
  · show a.finger.weight = _
    rw [hf]
    rfl

/-- Who claims a contact is active after the frame, with the id from before. -/
theorem kept_of_settled (hp : t.pool.Settled n b) (hj : t.ClaimedBy contacts now j h) :
    ∃ f g, t.pool.get? h = some f ∧
      (t.frame contacts now).tracker.pool.get? h = some g ∧ g.id = f.id := by
  obtain ⟨f, hf⟩ := Pool.mem_handles_iff.mp hj.1
  have hm := (isMatched_iff_claimedBy hp.shaped).mpr ⟨j, hj⟩
  have hmem : goOn (followEntry (t.claims contacts) contacts now (h, f)) ∈
      (t.frame contacts now).tracker.pool.entries := by
    rw [entries_frame contacts now hp]
    exact List.mem_append_left _ (List.mem_map.mpr ⟨(h, f), List.mem_filter.mpr ⟨hf, hm⟩, rfl⟩)
  exact ⟨f, _, (Pool.get?_eq_some_iff hp.shaped).mpr hf,
    (Pool.get?_eq_some_iff (settled_frame contacts now hp).shaped).mpr hmem, id_follow ..⟩

/-- Who claims none has left after it, and the slot waits in the queue. -/
theorem released_of_settled (hp : t.pool.Settled n b) (hh : h ∈ t.pool.handles)
    (hfree : ∀ j, ¬ t.ClaimedBy contacts now j h) :
    (t.frame contacts now).tracker.pool.isLive h = false ∧
      h.index ∈ (t.frame contacts now).tracker.pool.available := by
  have hq := (settled_frame contacts now hp).shaped
  have hm : ¬ (t.claims contacts).isMatched h = true := by
    intro hm
    obtain ⟨j, hj⟩ := (isMatched_iff_claimedBy hp.shaped).mp hm
    exact hfree j hj
  constructor
  · have hnot : h ∉ (t.frame contacts now).tracker.pool.handles := by
      intro hmem
      rw [handles_frame _ _ hp] at hmem
      rcases List.mem_append.mp hmem with hmem | hmem
      · exact hm (List.mem_filter.mp hmem).2
      · exact List.disjoint_of_nodup_append (nodup_old_new contacts now hp.shaped) hh hmem
    rw [Pool.isLive, Bool.eq_false_iff]
    exact fun hlive => hnot ((Pool.slot?_isSome_iff hq).mp hlive)
  · obtain ⟨f, hf⟩ := Pool.mem_handles_iff.mp hh
    rw [← Pool.map_index_spares hq, spares_frame contacts now hp]
    refine List.mem_map.mpr ⟨leave (followEntry (t.claims contacts) contacts now (h, f)), ?_, rfl⟩
    apply List.mem_append_right
    exact List.mem_map.mpr ⟨(h, f), List.mem_filter.mpr ⟨hf, by simpa using hm⟩, rfl⟩

theorem conserved_of_settled (hp : t.pool.Settled n b) (contacts : List Contact) (now : Timestamp) :
    t.Conserved contacts now where
  fate _ _ hc := fate_of_shaped hp.shaped hc
  one_contact _ _ _ hj hk := one_contact_of_shaped hp.shaped hj hk
  started _ _ _ hs hc := ⟨notMem_handles_of_starts hp.shaped hs, started_of_settled hp hs hc⟩
  kept _ _ hj := kept_of_settled hp hj
  released _ hh hfree := released_of_settled hp hh hfree
  handles_after := by
    refine ⟨t.pool.handles.filter fun h => (t.claims contacts).isMatched h,
      (t.arrivals contacts now).map fun a => (a.index, a.handle), ?_, List.filter_sublist, ?_, ?_,
      ?_⟩
    · rw [handles_frame _ _ hp, List.map_map]
      rfl
    · intro h
      rw [List.mem_filter, isMatched_iff_claimedBy hp.shaped]
      exact ⟨And.right, fun ⟨j, hj⟩ => ⟨hj.1, j, hj⟩⟩
    · exact List.pairwise_map.mpr (arrivals_index_pairwise ..)
    · intro j h
      rw [← exists_arrival_iff hp.shaped, List.mem_map]
      simp only [Prod.mk.injEq]
  frame_after := by
    refine ⟨length_moved contacts now hp.shaped, ?_⟩
    intro j c hc
    refine ⟨fun ⟨h, hj⟩ => getElem?_frame_of_claimedBy hp.shaped hj hc, ?_⟩
    intro hfree
    exact (getElem?_frame_of_unclaimed hp.shaped hfree).trans hc

/-- **Conservation.** After any run of a new tracker, whatever the next frame is: each of its
contacts is claimed once, starts one finger or is dropped for a reason, the fingers after it are
those that had a contact, and the claimed contacts are taken off. -/
theorem conserved_after (h : Tracker.new s = .ok t₀) (calls : List Call) (contacts : List Contact)
    (now : Timestamp) : (t₀.after calls).Conserved contacts now :=
  conserved_of_settled (sound_after h calls).settled contacts now

/-- Two fingers, of which one keeps its contact and the other one has it taken away by the third
contact; the second contact starts a finger and the last one is too light. -/
theorem conserved_after_two_fingers :
    ∃ t₀, Tracker.new { maxFingers := 4 } = .ok t₀ ∧
      (t₀.after [.frame [⟨100, 100, 50⟩, ⟨300, 300, 50⟩] Timestamp.epoch]).Conserved
        [⟨101, 100, 50⟩, ⟨290, 300, 50⟩, ⟨301, 300, 50⟩, ⟨0, 0, 50⟩, ⟨9, 9, 1⟩]
        Timestamp.epoch := by
  obtain ⟨t₀, h⟩ : ∃ t₀, Tracker.new { maxFingers := 4 } = .ok t₀ := ⟨_, rfl⟩
  exact ⟨t₀, h, conserved_after h _ _ _⟩

end Tracker

end FingerTracking
