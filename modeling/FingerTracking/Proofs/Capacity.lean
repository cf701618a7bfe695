import FingerTracking.Proofs.Conservation

/-!
# Twice the fingers expected is enough

A finger that leaves keeps its slot until the end of the frame, so for a while there are more
fingers in the pool than on the panel. But after a frame every finger has a contact of its own, so
there are no more fingers than contacts; and in the next frame no more can start than there are
contacts again. If no frame has more contacts than fingers are expected, a pool with two slots for
each is never used up:

> `roomFor_frames`: in every frame of such a run there is a slot at every turn, whoever should start
> a finger starts one, and after it no more fingers are active than are expected.
-/

namespace FingerTracking

open Matching

namespace Matching

/-- No more fingers start than there are contacts. -/
theorem length_arrivals_le (threshold : Int32) (now : Timestamp) (cs : List Contact) (j : Nat)
    (spares : List (Handle × Finger)) (id : UInt32) (tries : Nat) :
    (arrivals threshold now j cs spares id tries).length ≤ cs.length := by
  rw [length_arrivals]
  exact Nat.le_trans (Nat.min_le_left ..) List.countP_le_length

end Matching

namespace Pool

variable {p : Pool}

/-- Every slot is in use or free. -/
theorem length_active_add_available (hp : p.Shaped) :
    p.active.length + p.available.length = p.capacity := by
  have hnodup : (p.active ++ p.available).Nodup :=
    List.Nodup.append hp.active_nodup hp.available_nodup hp.not_both
  have hperm : (p.active ++ p.available).Perm (List.range p.capacity) := by
    apply (List.perm_ext_iff_of_nodup hnodup List.nodup_range).mpr
    intro i
    rw [List.mem_append, List.mem_range]
    exact hp.all_slots i
  rw [← List.length_append, hperm.length_eq, List.length_range]

/-- As long as not all slots are in use, one can be taken. -/
theorem exists_spare (hp : p.Shaped) (hlt : p.entries.length < p.capacity) :
    ∃ e rest, p.spares = e :: rest := by
  have hslots := length_active_add_available hp
  rw [← length_entries hp, ← length_spares hp] at hslots
  exact List.exists_cons_of_length_pos (by omega)

end Pool

namespace Tracker

variable {s : Settings} {t t₀ : Tracker} {n : Nat} {b : Bool}
variable {contacts : List Contact} {now : Timestamp} {j : Nat} {h : Handle} {c : Contact}

/-- The finger has this contact: it has claimed it or started at it. -/
def Has (t : Tracker) (contacts : List Contact) (now : Timestamp) (h : Handle) (j : Nat) : Prop :=
  t.ClaimedBy contacts now j h ∨ t.Starts contacts now j h

/-- A contact is had by one finger at most. -/
theorem has_inj {k : Handle} (hp : t.pool.Shaped) (hh : t.Has contacts now h j)
    (hk : t.Has contacts now k j) : h = k := by
  rcases hh with hh | hh
  · rcases hk with hk | hk
    · exact claimedBy_inj hp hh hk
    · exact absurd hk (not_starts_of_claimedBy hp hh k)
  · rcases hk with hk | hk
    · exact absurd hh (not_starts_of_claimedBy hp hk h)
    · exact starts_unique hp hh hk

/-- After a frame every finger has a contact of it. -/
theorem exists_has (hp : t.pool.Settled n b)
    (hh : h ∈ (t.frame contacts now).tracker.pool.handles) :
    ∃ j < contacts.length, t.Has contacts now h j := by
  have hconserved := conserved_of_settled hp contacts now
  obtain ⟨old, new, hafter, -, hold, -, hnew⟩ := hconserved.handles_after
  rw [hafter] at hh
  obtain ⟨j, hj⟩ : ∃ j, t.Has contacts now h j := by
    rcases List.mem_append.mp hh with hh | hh
    · obtain ⟨j, hj⟩ := (hold h).mp hh
      exact ⟨j, Or.inl hj⟩
    · obtain ⟨⟨j, k⟩, hmem, rfl⟩ := List.mem_map.mp hh
      exact ⟨j, Or.inr ((hnew j k).mp hmem)⟩
  exact ⟨j, (hconserved.one_contact h j j hj hj).2, hj⟩

/-- After a frame there are no more fingers than it had contacts. -/
theorem activeCount_frame_le (hp : t.pool.Settled n b) (contacts : List Contact) (now : Timestamp) :
    (t.frame contacts now).tracker.activeCount ≤ contacts.length := by
  have hq := (settled_frame contacts now hp).shaped
  rw [activeCount, ← Pool.length_entries hq, ← List.length_map (·.1), ← Pool.handles_eq]
  exact length_le_of_sole_index (Pool.nodup_handles hq) (fun h hh => exists_has hp hh)
    fun h k j => has_inj hp.shaped

theorem activeCount_teardown (hp : t.pool.Shaped) : t.teardown.1.activeCount = 0 := by
  obtain ⟨q, hq, hs, -, hent, -⟩ := Pool.freeAll_spec hp
  show t.pool.freeAll.1.active.length = 0
  rw [hq, ← Pool.length_entries hs, hent]
  rfl

/-- The calls of a run, none of them a frame with more than `k` contacts. -/
def Within (k : Nat) (calls : List Call) : Prop :=
  ∀ contacts now, Call.frame contacts now ∈ calls → contacts.length ≤ k

/-- A call of no more than `k` contacts leaves no more than `k` fingers, since every finger that
stays has a contact. -/
theorem activeCount_call_le {k : Nat} {x : Call} (ht : Sound s t) (hk : Within k [x]) :
    (t.call x).activeCount ≤ k := by
  cases x with
  | frame contacts now =>
    exact Nat.le_trans (activeCount_frame_le ht.settled contacts now)
      (hk contacts now (List.mem_singleton_self _))
  | teardown =>
    show t.teardown.1.activeCount ≤ k
    rw [activeCount_teardown ht.settled.shaped]
    exact Nat.zero_le k

theorem activeCount_after_le {k : Nat} (calls : List Call) :
    ∀ {t : Tracker}, Sound s t → t.activeCount ≤ k → Within k calls →
      (t.after calls).activeCount ≤ k := by
  induction calls with
  | nil => exact fun _ hle _ => hle
  | cons x calls ih =>
    -- how many were active before does not matter: the last frame alone bounds them
    intro t ht _ hk
    have hx : Within k [x] := fun contacts now hmem =>
      hk contacts now (List.mem_singleton.mp hmem ▸ List.mem_cons_self ..)
    exact ih (sound_call ht x) (activeCount_call_le ht hx)
      fun contacts now hmem => hk contacts now (List.mem_cons_of_mem _ hmem)

/-! ## Slots at every turn -/

theorem length_arrivedBy_le (t : Tracker) (contacts : List Contact) (now : Timestamp) (k : Nat) :
    (t.arrivedBy contacts now k).length ≤ k :=
  Nat.le_trans (length_arrivals_le ..) (List.length_take_le ..)

/-- At the `j`-th turn no more than `j` slots have been taken. -/
theorem take?_turn_isSome (contacts : List Contact) (now : Timestamp) (ht : Sound s t)
    (hactive : t.activeCount ≤ s.maxFingers) (hj : j < s.maxFingers) :
    (t.turn contacts now j).pool.take?.isSome = true := by
  -- at most half of the slots are in use, and each of the turns before took one at most
  have hp := ht.settled.shaped
  have hslots := Pool.length_active_add_available hp
  rw [← Pool.length_spares hp, ht.capacity_eq, Settings.poolCapacity] at hslots
  have hstarted := t.length_arrivedBy_le contacts now j
  rw [Option.isSome_iff_ne_none, ne_eq, Pool.take?_eq_none_iff (shaped_turn contacts now hp j),
    spares_turn hp, List.drop_eq_nil_iff]
  unfold activeCount at hactive
  omega

/-- There is a slot for every contact of a frame that should have one. -/
structure RoomFor (s : Settings) (t : Tracker) (contacts : List Contact) (now : Timestamp) :
    Prop where
  /-- At every turn a slot could be taken. -/
  slot : ∀ j < contacts.length, (t.turn contacts now j).pool.take?.isSome = true
  /-- A contact that nobody has claimed and that is heavy enough gets a finger. -/
  starts : ∀ j c, contacts[j]? = some c → (∀ h, ¬ t.ClaimedBy contacts now j h) →
    c.isAbsent = false → s.threshold ≤ c.weight →
    ∃ h, t.Starts contacts now j h ∧ h ∈ (t.frame contacts now).tracker.pool.handles
  active_le : (t.frame contacts now).tracker.activeCount ≤ s.maxFingers

/-- Fingers that leave and fingers that start are in a frame together, and there are slots for
both. -/
theorem roomFor_of_sound (ht : Sound s t) (hactive : t.activeCount ≤ s.maxFingers)
    (hlen : contacts.length ≤ s.maxFingers) : RoomFor s t contacts now := by
  have hp := ht.settled
  refine ⟨?_, ?_, Nat.le_trans (activeCount_frame_le hp contacts now) hlen⟩
  · intro j hj
    exact take?_turn_isSome contacts now ht hactive (Nat.lt_of_lt_of_le hj hlen)
  · intro j c hc hfree habsent hheavy
    obtain ⟨hlt, -⟩ := List.getElem?_eq_some_iff.mp hc
    have hslot := take?_turn_isSome contacts now ht hactive
      (Nat.lt_of_lt_of_le hlt hlen)
    rcases (conserved_of_settled hp contacts now).fate j c hc with
      ⟨⟨h, hh, -⟩, -⟩ | ⟨-, h, hs, -⟩ | ⟨-, -, hwhy⟩
    · exact absurd hh (hfree h)
    · refine ⟨h, hs, ?_⟩
      obtain ⟨a, ha, -, rfl⟩ := (exists_arrival_iff hp.shaped).mpr hs
      rw [handles_frame _ _ hp]
      exact List.mem_append_right _ (List.mem_map_of_mem ha)
    · rcases hwhy with habs | hlight | hnone
      · exact absurd habs (by simp [habsent])
      · rw [ht.threshold_eq] at hlight
        exact absurd hlight (Int32.not_lt.mpr hheavy)
      · exact absurd hnone (Option.isSome_iff_ne_none.mp hslot)

/-- **Twice is enough.** In a run of which no frame has more contacts than fingers are expected,
there is room in every frame. -/
theorem roomFor_frames (h : Tracker.new s = .ok t₀) (calls : List Call)
    (hk : Within s.maxFingers calls) (before later : List Call) (contacts : List Contact)
    (now : Timestamp) (hcalls : calls = before ++ .frame contacts now :: later) :
    RoomFor s (t₀.after before) contacts now := by
  subst hcalls
  have hbefore : Within s.maxFingers before := fun contacts now hmem =>
    hk contacts now (List.mem_append_left _ hmem)
  have hstart : t₀.activeCount ≤ s.maxFingers := by
    rw [activeCount, ← Pool.length_entries (sound_new h).settled.shaped, entries_new h]
    exact Nat.zero_le _
  have hactive := activeCount_after_le before (sound_new h) hstart hbefore
  have hlen := hk contacts now (List.mem_append_right _ (List.mem_cons_self ..))
  exact roomFor_of_sound (sound_after h before) hactive hlen

/-- In the last frame the second contact takes the finger that the first one has claimed, and the
first one starts another while the finger that leaves still has its slot. -/
theorem roomFor_frames_takeover :
    ∃ t₀, Tracker.new { maxFingers := 2 } = .ok t₀ ∧
      let first := Call.frame [⟨100, 100, 50⟩, ⟨300, 300, 50⟩] Timestamp.epoch
      let second := Call.frame [⟨101, 100, 50⟩, ⟨100, 100, 50⟩] Timestamp.epoch
      Within 2 [first, .teardown, first, second] ∧
        RoomFor { maxFingers := 2 } (t₀.after [first, .teardown, first])
          [⟨101, 100, 50⟩, ⟨100, 100, 50⟩] Timestamp.epoch := by
  obtain ⟨t₀, h⟩ : ∃ t₀, Tracker.new { maxFingers := 2 } = .ok t₀ := ⟨_, rfl⟩
  have hk : Within 2 [.frame [⟨100, 100, 50⟩, ⟨300, 300, 50⟩] Timestamp.epoch, .teardown,
      .frame [⟨100, 100, 50⟩, ⟨300, 300, 50⟩] Timestamp.epoch,
      .frame [⟨101, 100, 50⟩, ⟨100, 100, 50⟩] Timestamp.epoch] := by
    intro contacts now hmem
    simp only [List.mem_cons, List.not_mem_nil, or_false, reduceCtorEq, false_or,
      Call.frame.injEq] at hmem
    rcases hmem with ⟨rfl, -⟩ | ⟨rfl, -⟩ | ⟨rfl, -⟩ <;> decide
  exact ⟨t₀, h, hk, roomFor_frames h _ hk _ [] _ _ rfl⟩

end Tracker

end FingerTracking
