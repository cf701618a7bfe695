import FingerTracking.Proofs.Runs

/-!
# Every reachable tracker is in order

What `Sound` says of the two lists of a pool, said slot by slot (`Pool.InOrder`), and what it
means for the frame to come (`Unhindered`): inside of a frame, when some fingers have only started
and the slots of others are free again, no handle that is visited has gone stale, and no finger
that is stepped has left already or has no coordinates.

> `inOrder_unhindered_after`: both hold after every run of a new tracker.
-/

namespace FingerTracking

open MatchTable Matching

/-- A pool between two calls, slot by slot. -/
structure Pool.InOrder (p : Pool) (capacity trailLength : Nat) : Prop where
  size_eq : p.slots.size = capacity
  active_nodup : p.active.Nodup
  available_nodup : p.available.Nodup
  not_both : ∀ i ∈ p.active, i ∉ p.available
  all_slots : ∀ i, i ∈ p.active ∨ i ∈ p.available ↔ i < capacity
  flagged : ∀ (i : Nat) (s : Slot), p.slots[i]? = some s → (s.active = true ↔ i ∈ p.active)
  active_down : ∀ i ∈ p.active, ∃ s, p.slots[i]? = some s ∧ s.finger.phase = .down ∧
    s.finger.trail.toList ≠ [] ∧ s.finger.trail.toList.length ≤ trailLength
  available_unused : ∀ i ∈ p.available, ∃ s, p.slots[i]? = some s ∧ s.finger.phase = .unused ∧
    s.finger.trail.toList = []

namespace Tracker

variable {s : Settings} {t t₀ : Tracker} {n : Nat} {b : Bool}

theorem inOrder_of_sound (ht : Sound s t) : t.pool.InOrder s.poolCapacity s.trailLength := by
  have hp := ht.settled.shaped
  refine ⟨ht.capacity_eq, hp.active_nodup, hp.available_nodup, hp.not_both, ?_, hp.flagged, ?_, ?_⟩
  · rw [← ht.capacity_eq]
    exact hp.all_slots
  · intro i hi
    obtain ⟨u, hu⟩ := Pool.exists_slot hp (Or.inl hi)
    have hd := ht.settled.active_down _ (Pool.mem_entries_of_slot hi hu)
    exact ⟨u, hu, hd.phase_eq, hd.toList_ne, hd.fits.length_toList_le⟩
  · intro i hi
    obtain ⟨u, hu⟩ := Pool.exists_slot hp (Or.inr hi)
    have hr := ht.settled.spare_resting _ (Pool.mem_spares_of_slot hi hu)
    exact ⟨u, hu, hr.phase_eq, hr.toList_eq⟩

/-- The pool when the fingers behind the handles `done` have moved. -/
def moving (t : Tracker) (contacts : List Contact) (now : Timestamp) (done : List Handle) : Pool :=
  (applyTo (t.claims contacts) now t.pool contacts done).pool

/-- The pool when the fingers behind the handles `done` have been carried over the frame. -/
def carrying (t : Tracker) (contacts : List Contact) (now : Timestamp) (done : List Handle) :
    Pool :=
  (carry (t.matched contacts now).table (t.matched contacts now).pool done).pool

/-- Nothing stands in the way of a frame. -/
structure Unhindered (t : Tracker) (contacts : List Contact) (now : Timestamp) : Prop where
  /-- A finger that is to move is found. -/
  moves : ∀ (done rest : List Handle) (h : Handle), t.pool.handles = done ++ h :: rest →
    ((t.moving contacts now done).get? h).isSome
  /-- A finger that starts is found in the slot just taken for it. -/
  starts : ∀ (k : Nat) (h : Handle) (q : Pool),
    (t.turn contacts now k).pool.take? = some (h, q) → (q.get? h).isSome
  /-- A finger that is stepped is found, has not left and has coordinates; and if it leaves, its
  handle is live until it is freed. -/
  steps : ∀ (done rest : List Handle) (h : Handle),
    (t.matched contacts now).pool.handles = done ++ h :: rest →
    ∃ f last, (t.carrying contacts now done).get? h = some f ∧
      f.phase ≠ .unused ∧ f.trail.last? = some last ∧
      ((t.carrying contacts now done).set h
        (f.step ((t.matched contacts now).table.isMatched h)).finger).isLive h = true

/-- A split of the handles is a split of the entries. -/
theorem exists_entries_split {es : List (Handle × Finger)} {done rest : List Handle} {h : Handle}
    (hs : es.map (·.1) = done ++ h :: rest) :
    ∃ before f after, es = before ++ (h, f) :: after ∧ before.map (·.1) = done := by
  obtain ⟨before, tail, rfl, hdone, htail⟩ := List.map_eq_append_iff.mp hs
  obtain ⟨e, after, rfl, rfl, -⟩ := List.map_eq_cons_iff.mp htail
  exact ⟨before, e.2, after, rfl, hdone⟩

theorem isLive_of_entries {p : Pool} {h : Handle} {f : Finger} (hp : p.Shaped)
    (he : (h, f) ∈ p.entries) : p.isLive h = true :=
  (Pool.slot?_isSome_iff hp).mpr (Pool.mem_handles_iff.mpr ⟨f, he⟩)

/-- Claims are carried out by writing, so a finger that is to move is still there. -/
theorem moving_isSome (hp : t.pool.Shaped) (contacts : List Contact) (now : Timestamp)
    {done rest : List Handle} {h : Handle} (hsplit : t.pool.handles = done ++ h :: rest) :
    ((t.moving contacts now done).get? h).isSome := by
  have hnodup := (List.nodup_append.mp (hsplit ▸ Pool.nodup_handles hp)).1
  have hmem : ∀ k ∈ done ++ h :: rest, k ∈ t.pool.handles := fun k hk => hsplit ▸ hk
  have hdone : ∀ k ∈ done, k ∈ t.pool.handles := fun k hk => hmem k (List.mem_append_left _ hk)
  obtain ⟨hs, -, -, -, -⟩ := applyTo_spec (t.sole_claims contacts) now done contacts hp hnodup hdone
  rw [moving, Pool.get?, Option.isSome_map, Pool.slot?_isSome_iff hs,
    handles_applyTo hp (t.sole_claims contacts) hnodup hdone]
  exact hmem h (List.mem_append_right _ (List.mem_cons_self ..))

/-- A slot just taken stands at the end of the entries, under the handle it was taken with. -/
theorem take?_isSome {p q : Pool} {h : Handle} (hp : p.Shaped) (htake : p.take? = some (h, q)) :
    (q.get? h).isSome := by
  cases hspare : p.spares with
  | nil =>
    rw [(Pool.take?_eq_none_iff hp).mpr hspare] at htake
    exact nomatch htake
  | cons e rest =>
    obtain ⟨r, hr, hshaped, -, hent, -⟩ := Pool.take?_spec (h := e.1) (f := e.2) hp hspare
    obtain ⟨rfl, rfl⟩ := Prod.mk.inj (Option.some_inj.mp (hr.symm.trans htake))
    refine Option.isSome_iff_exists.mpr ⟨e.2.opened, (Pool.get?_eq_some_iff hshaped).mpr ?_⟩
    rw [hent]
    exact List.mem_append_right _ (List.mem_cons_self ..)

/-- A finger that is to be carried over is there, in use and with coordinates: fingers that left
are gone from the entries, but nobody visits a handle twice. -/
theorem carrying_spec (hp : t.pool.Settled n b) (contacts : List Contact) (now : Timestamp)
    {done rest : List Handle} {h : Handle}
    (hsplit : (t.matched contacts now).pool.handles = done ++ h :: rest) :
    ∃ f last, (t.carrying contacts now done).get? h = some f ∧
      f.phase ≠ .unused ∧ f.trail.last? = some last ∧
      ((t.carrying contacts now done).set h
        (f.step ((t.matched contacts now).table.isMatched h)).finger).isLive h = true := by
  rw [Pool.handles_eq, entries_matched contacts now hp.shaped] at hsplit
  obtain ⟨before, f, after, he, rfl⟩ := exists_entries_split hsplit
  have ht := touching_present contacts now hp
  rw [he] at ht
  obtain ⟨hs, -, hent, -, -, -⟩ :=
    carry_spec (t.matched contacts now).table ((h, f) :: after) before []
      (shaped_matched contacts now hp.shaped) ((entries_matched contacts now hp.shaped).trans he)
      fun e hmem => ht e (List.mem_append_left _ hmem)
  rw [List.nil_append] at hent
  have hf := ht (h, f) (List.mem_append_right _ (List.mem_cons_self ..))
  obtain ⟨last, hl⟩ := hf.last?_eq
  refine ⟨f, last, (Pool.get?_eq_some_iff hs).mpr ?_, hf.phase_ne, hl, ?_⟩
  · rw [hent]
    exact List.mem_append_right _ (List.mem_cons_self ..)
  · apply isLive_of_entries (Pool.shaped_set hs ..)
    rw [Pool.entries_set_at hs hent]
    exact List.mem_append_right _ (List.mem_cons_self ..)

theorem unhindered_of_settled (hp : t.pool.Settled n b) (contacts : List Contact)
    (now : Timestamp) : t.Unhindered contacts now where
  moves _ _ _ hsplit := moving_isSome hp.shaped contacts now hsplit
  starts k _ _ htake := take?_isSome (shaped_turn contacts now hp.shaped k) htake
  steps _ _ _ hsplit := carrying_spec hp contacts now hsplit

/-- **Reachable trackers are in order.** After any run of a new tracker every slot is accounted
for, the active fingers are down with at most as many samples as there is room for, the free slots
are empty, and no frame that follows is hindered. -/
theorem inOrder_unhindered_after (h : Tracker.new s = .ok t₀) (calls : List Call) :
    (t₀.after calls).pool.InOrder s.poolCapacity s.trailLength ∧
      ∀ (contacts : List Contact) (now : Timestamp), (t₀.after calls).Unhindered contacts now := by
  have ht := sound_after h calls
  exact ⟨inOrder_of_sound ht, unhindered_of_settled ht.settled⟩

/-- A run with a teardown in it, and a frame in which a later contact takes the finger that an
earlier one has claimed, so that the earlier one starts another. -/
theorem inOrder_unhindered_takeover :
    ∃ t₀, Tracker.new { maxFingers := 2 } = .ok t₀ ∧
      let t := t₀.after [.frame [⟨7, 7, 1⟩, ⟨50, 9, 1⟩] Timestamp.epoch, .teardown,
        .frame [⟨100, 100, 50⟩] Timestamp.epoch,
        .frame [⟨120, 100, 50⟩, ⟨101, 100, 50⟩] Timestamp.epoch]
      t.pool.InOrder 4 6 ∧ ∀ contacts now, t.Unhindered contacts now := by
  obtain ⟨t₀, h⟩ : ∃ t₀, Tracker.new { maxFingers := 2 } = .ok t₀ := ⟨_, rfl⟩
  exact ⟨t₀, h, inOrder_unhindered_after h _⟩

end Tracker

end FingerTracking
