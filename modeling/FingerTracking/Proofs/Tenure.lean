import FingerTracking.Proofs.Turnover

/-!
# How long a handle is good

A handle is good from the taking of its slot until the slot is given back. In between it reads and
writes the finger in the slot, and nothing else writes there. Afterwards it is stale. But a
generation has 32 bits and goes up by two with every turn of the slot: when the slot has been taken
2³¹ times more, the generation is what it was, and the handle is good once more.

> `slot_afterUses_of_held`: until it is given back, a slot holds what the edits through its handle
> have made of the finger.
>
> `isLive_afterUses_iff`: later on the handle is good exactly while the slot is in use and has been
> taken a multiple of 2³¹ times since.
>
> `exists_taken_count`: a slot can be taken as often as that.
>
> `tenure_afterUses`: all of it, for every handle of a new pool that has been used in any way.
-/

namespace FingerTracking

namespace Pool

/-! ## Good and stale -/

/-- Finger `f` stands in the slot of the handle, is read and written by the handle, and can be given
back. -/
structure Good (p : Pool) (h : Handle) (f : Finger) : Prop where
  slot_eq : p.slots[h.index]? = some { finger := f, generation := h.generation, active := true }
  get?_eq : p.get? h = some f
  set_eq : ∀ g, p.set h g = { p with
    slots := p.slots.setIfInBounds h.index
      { finger := g, generation := h.generation, active := true } }
  free?_isSome : (p.free? h).isSome = true

/-- Through the handle nothing is read, written or given back. -/
structure Stale (p : Pool) (h : Handle) : Prop where
  get?_eq : p.get? h = none
  set_eq : ∀ f, p.set h f = p
  free?_eq : p.free? h = none
  free_eq : (p.free h).1 = p

/-- A use that gives back the slot of a good handle. -/
def Use.Ends (h : Handle) (u : Use) : Prop :=
  u = .free h ∨ u = .clear

/-- What a use makes of the finger behind a good handle, if it does not give it back. -/
def Use.through (h : Handle) : Use → Finger → Finger
  | .edit k change, f => if k = h then change f else f
  | _, f => f

variable {p q : Pool} {h k : Handle} {f : Finger} {i : Nat} {r : Slot} {u : Use}

/-- Whether a handle is live is read off its slot. -/
theorem isLive_eq_true_of_slot (hr : p.slots[h.index]? = some r) :
    p.isLive h = true ↔ r.active = true ∧ r.generation = h.generation := by
  rw [isLive_eq_true_iff]
  constructor
  · intro ⟨s, hs⟩
    obtain ⟨hsi, hlive⟩ := slot?_eq_some_iff.mp hs
    obtain rfl : r = s := Option.some_inj.mp (hr.symm.trans hsi)
    exact hlive
  · intro hlive
    exact ⟨r, slot?_eq_some_iff.mpr ⟨hr, hlive⟩⟩

/-- A slot in use in the right generation makes everything about the handle work. -/
theorem good_of_slot
    (hs : p.slots[h.index]? = some { finger := f, generation := h.generation, active := true }) :
    p.Good h f := by
  have hslot := slot?_eq_some_iff.mpr ⟨hs, rfl, rfl⟩
  exact ⟨hs, by rw [get?, hslot]; rfl, fun g => by rw [set_of_slot? hslot],
    by rw [free?, hslot]; rfl⟩

/-- A handle that is not live does nothing at all, but for the note when it is freed. -/
theorem stale_of_isLive (hh : p.isLive h = false) : p.Stale h := by
  have hnone := slot?_of_stale hh
  obtain ⟨hfree?, hfree⟩ := free_of_stale hnone
  exact ⟨by rw [get?, hnone]; rfl, set_of_stale hnone, hfree?, congrArg Prod.fst hfree⟩

/-- A good handle is the only one of its slot. -/
theorem isLive_iff_eq (hk : k.index = h.index)
    (hs : p.slots[h.index]? = some { finger := f, generation := h.generation, active := true }) :
    p.isLive k = true ↔ k = h := by
  rw [isLive_eq_true_of_slot (hk ▸ hs)]
  constructor
  · intro ⟨_, hg⟩
    show (⟨k.index, k.generation⟩ : Handle) = ⟨h.index, h.generation⟩
    rw [hk, ← show h.generation = k.generation from hg]
  · intro heq
    subst heq
    exact ⟨rfl, rfl⟩

/-! ## Until the slot is given back -/

/-- Only what ends it takes a slot from its handle, and only what is written through the handle is
written there. -/
theorem slot_use_of_held (hp : p.Shaped) (hu : ¬ u.Ends h)
    (hs : p.slots[h.index]? = some { finger := f, generation := h.generation, active := true }) :
    (p.use u).slots[h.index]? =
      some { finger := u.through h f, generation := h.generation, active := true } := by
  have hact : h.index ∈ p.active := (hp.flagged _ _ hs).mp rfl
  have htakes : h.index ∉ p.takes u := fun hmem => hp.not_both _ hact (mem_takes hp hmem).1
  have hgives : h.index ∉ p.gives u := by
    cases u with
    | free k =>
      intro hmem
      rw [gives] at hmem
      split at hmem
      next hk =>
        have hkh := List.mem_singleton.mp hmem
        exact hu (Or.inl (congrArg Use.free ((isLive_iff_eq hkh.symm hs).mp hk)))
      next => exact absurd hmem List.not_mem_nil
    | clear => exact absurd (Or.inr rfl) hu
    | take => exact List.not_mem_nil
    | edit k change => exact List.not_mem_nil
  have hedited : p.edited h.index u f = u.through h f := by
    cases u with
    | edit k change =>
      have hiff : (p.isLive k = true ∧ k.index = h.index) ↔ k = h := by
        constructor
        · exact fun hboth => (isLive_iff_eq hboth.2 hs).mp hboth.1
        · exact fun heq => ⟨(isLive_iff_eq (congrArg Handle.index heq) hs).mpr heq,
            congrArg Handle.index heq⟩
      simp only [edited, Use.through, hiff]
    | _ => rfl
  rw [(used_use hp u).slots _ _ hs, slotAfter, if_neg htakes, if_neg hgives, hedited]

/-- As long as nothing ends it, the slot holds the finger as the edits through the handle have left
it. -/
theorem slot_afterUses_of_held (us : List Use) :
    ∀ {p : Pool} {f : Finger}, p.Shaped → (∀ u ∈ us, ¬ u.Ends h) →
      p.slots[h.index]? = some { finger := f, generation := h.generation, active := true } →
      (p.afterUses us).slots[h.index]? =
        some { finger := us.foldl (fun f u => u.through h f) f, generation := h.generation
               active := true } := by
  induction us with
  | nil => exact fun _ _ hs => hs
  | cons u us ih =>
    intro p f hp hus hs
    exact ih (used_use hp u).shaped (fun v hv => hus v (List.mem_cons_of_mem _ hv))
      (slot_use_of_held hp (hus u (List.mem_cons_self ..)) hs)

/-- The use that ends it leaves the next generation in the slot. -/
theorem slot_use_of_ends (hp : p.Shaped) (hu : u.Ends h)
    (hs : p.slots[h.index]? = some { finger := f, generation := h.generation, active := true }) :
    (p.use u).slots[h.index]? =
      some { finger := f.closed, generation := h.generation + 1, active := false } := by
  have hgives : h.index ∈ p.gives u := by
    rcases hu with rfl | rfl
    · rw [gives, if_pos ((isLive_iff_eq rfl hs).mpr rfl)]
      exact List.mem_singleton_self _
    · exact (hp.flagged _ _ hs).mp rfl
  have htakes : h.index ∉ p.takes u := fun hmem =>
    hp.not_both _ (mem_gives hp hgives) (mem_takes hp hmem).1
  rw [(used_use hp u).slots _ _ hs, slotAfter, if_neg htakes, if_pos hgives]
  rfl

/-! ## Afterwards -/

/-- A slot in use was so before, or has been taken. -/
theorem mem_active_afterUses (us : List Use) :
    ∀ {p : Pool}, p.Shaped → i ∈ (p.afterUses us).active → i ∈ p.active ∨ i ∈ p.taken us := by
  induction us with
  | nil => exact fun _ hi => Or.inl hi
  | cons u us ih =>
    intro p hp hi
    have hone := used_use hp u
    rcases ih hone.shaped hi with hact | htaken
    · rw [hone.active_eq] at hact
      exact (List.mem_append.mp (List.mem_filter.mp hact).1).imp_right
        (List.mem_append_left _)
    · exact Or.inr (List.mem_append_right _ htaken)

/-- With two steps a turn a generation comes back after this number of turns: 2³¹. -/
def cycle : Nat :=
  UInt32.size / 2

/-- A generation comes back after a whole cycle of retakes and not before. -/
theorem add_double_eq_iff {g : UInt32} {n : Nat} :
    g + UInt32.ofNat (2 * n) = g ↔ cycle ∣ n := by
  rw [← UInt32.toNat_inj, UInt32.toNat_add, UInt32.toNat_ofNat',
    show cycle = 2147483648 from rfl]
  have := g.toNat_lt
  omega

/-- The handle of a slot that was given back is good again exactly while the slot is in use and has
been taken a multiple of 2³¹ times since. -/
theorem isLive_afterUses_iff (hp : p.Shaped)
    (hs : p.slots[h.index]? = some { finger := f, generation := h.generation + 1, active := false })
    (us : List Use) :
    (p.afterUses us).isLive h = true ↔
      h.index ∈ (p.afterUses us).active ∧ cycle ∣ (p.taken us).count h.index := by
  obtain ⟨r, hr, hturns⟩ := turns_afterUses us hp hs
  rw [isLive_eq_true_of_slot hr, (shaped_afterUses us hp).flagged _ _ hr]
  refine and_congr_right fun hact => ?_
  -- in use the slot has one turn before it, as it had before it was given back
  have hgen : r.generation = h.generation + UInt32.ofNat (2 * (p.taken us).count h.index) := by
    rw [← UInt32.add_left_inj 1, UInt32.add_assoc, UInt32.add_comm (UInt32.ofNat _),
      ← UInt32.add_assoc]
    simpa only [Slot.turns, ((shaped_afterUses us hp).flagged _ _ hr).mpr hact, if_true,
      Bool.false_eq_true, if_false, UInt32.add_zero] using hturns
  rw [hgen, add_double_eq_iff]

/-- A handle whose slot was given back is stale until the slot has been taken 2³¹ times. -/
theorem stale_afterUses (hp : p.Shaped)
    (hs : p.slots[h.index]? = some { finger := f, generation := h.generation + 1, active := false })
    {us : List Use} (hfew : (p.taken us).count h.index < cycle) : (p.afterUses us).Stale h := by
  apply stale_of_isLive
  rw [← Bool.not_eq_true, isLive_afterUses_iff hp hs]
  intro ⟨hact, hdvd⟩
  have hidle : h.index ∉ p.active := fun hmem => nomatch (hp.flagged _ _ hs).mpr hmem
  have htaken := (mem_active_afterUses us hp hact).resolve_left hidle
  exact absurd (Nat.le_of_dvd (List.count_pos_iff.mpr htaken) hdvd) (Nat.not_le.mpr hfew)

theorem exists_good_of_isLive (hh : p.isLive h = true) : ∃ f, p.Good h f := by
  obtain ⟨s, hs⟩ := isLive_eq_true_iff.mp hh
  obtain ⟨hsi, hact, hgen⟩ := slot?_eq_some_iff.mp hs
  refine ⟨s.finger, good_of_slot ?_⟩
  rw [hsi, ← hact, ← hgen]

/-! ## Coming back

No handle is stale for ever: all slots can be taken and given back again and again. -/

theorem afterUses_append (p : Pool) (us vs : List Use) :
    p.afterUses (us ++ vs) = (p.afterUses us).afterUses vs :=
  List.foldl_append

theorem taken_append (us vs : List Use) :
    ∀ {p : Pool}, p.taken (us ++ vs) = p.taken us ++ (p.afterUses us).taken vs := by
  induction us with
  | nil => exact rfl
  | cons u us ih =>
    intro p
    rw [List.cons_append, taken, ih, ← List.append_assoc]
    rfl

/-- Taking as often as slots are free takes them all. -/
theorem afterUses_takes (n : Nat) :
    ∀ {p : Pool}, p.Shaped → n = p.available.length →
      p.taken (List.replicate n .take) = p.available ∧
        (p.afterUses (List.replicate n .take)).available = [] ∧
        (p.afterUses (List.replicate n .take)).active = p.active ++ p.available := by
  induction n with
  | zero =>
    intro p _ hn
    have hav := List.eq_nil_of_length_eq_zero hn.symm
    rw [hav, List.append_nil]
    exact ⟨rfl, hav, rfl⟩
  | succ n ih =>
    intro p hp hn
    cases hav : p.available with
    | nil => exact absurd (hn.trans (congrArg List.length hav)) (Nat.succ_ne_zero n)
    | cons i rest =>
      obtain ⟨htakes, hrest, hactive⟩ := lists_take hp hav
      rw [hav] at hn
      obtain ⟨htaken, hnone, hall⟩ := ih (used_take hp).shaped (hrest ▸ Nat.succ.inj hn)
      refine ⟨?_, hnone, ?_⟩
      · rw [List.replicate_succ, taken, htaken, htakes, hrest]
        rfl
      · show ((p.use .take).afterUses (List.replicate n .take)).active = _
        rw [hall, hactive, hrest, List.append_assoc]
        rfl

/-- Every one of `n` slots is taken, and all are given back. -/
def round (n : Nat) : List Use :=
  List.replicate n .take ++ [.clear]

/-- All slots are free, and this is the order in which they wait. -/
structure Resting (p : Pool) (waiting : List Nat) : Prop where
  shaped : p.Shaped
  active_eq : p.active = []
  available_eq : p.available = waiting

theorem resting_clear (hp : p.Shaped) : (p.use .clear).Resting (p.available ++ p.active) := by
  obtain ⟨hactive, havailable⟩ := lists_freeAll hp
  exact ⟨(used_clear hp).shaped, hactive, havailable⟩

/-- A round takes every slot once and leaves the queue as it was. -/
theorem resting_round {waiting : List Nat} (hp : p.Resting waiting) :
    p.taken (round waiting.length) = waiting ∧
      (p.afterUses (round waiting.length)).Resting waiting := by
  obtain ⟨htaken, hnone, hall⟩ := afterUses_takes _ hp.shaped rfl
  have hclear :=
    resting_clear (shaped_afterUses (List.replicate p.available.length .take) hp.shaped)
  rw [hnone, hall, hp.active_eq, List.nil_append, List.nil_append, hp.available_eq] at hclear
  rw [hp.available_eq] at htaken
  rw [round, taken_append, htaken, afterUses_append]
  exact ⟨List.append_nil _, hclear⟩

/-- Rounds of taking everything and giving it back turn all slots over alike. -/
theorem resting_rounds {waiting : List Nat} (n : Nat) :
    ∀ {p : Pool}, p.Resting waiting → ∀ i,
      (p.taken (List.replicate n (round waiting.length)).flatten).count i = n * waiting.count i ∧
        (p.afterUses (List.replicate n (round waiting.length)).flatten).Resting waiting := by
  induction n with
  | zero =>
    intro p hp i
    exact ⟨(Nat.zero_mul _).symm, hp⟩
  | succ n ih =>
    intro p hp i
    obtain ⟨htaken, hrest⟩ := resting_round hp
    obtain ⟨hcount, hrests⟩ := ih hrest i
    rw [List.replicate_succ, List.flatten_cons, taken_append, afterUses_append, List.count_append,
      htaken, hcount, Nat.succ_mul, Nat.add_comm]
    exact ⟨rfl, hrests⟩

/-- Any slot can be taken any number of times, and be in use then. -/
theorem exists_taken_count (hp : p.Shaped) (hi : i < p.capacity) (n : Nat) :
    ∃ us, ((p.use .clear).taken us).count i = n + 1 ∧ i ∈ ((p.use .clear).afterUses us).active := by
  have hclear := resting_clear hp
  have hmem : i ∈ p.available ++ p.active := List.mem_append.mpr ((hp.all_slots i).mpr hi).symm
  have honce : (p.available ++ p.active).count i = 1 :=
    List.count_eq_one_of_mem (hclear.available_eq ▸ hclear.shaped.available_nodup) hmem
  obtain ⟨hcount, hrest⟩ := resting_rounds n hclear i
  obtain ⟨htaken, -, hall⟩ := afterUses_takes _ hrest.shaped rfl
  rw [hrest.available_eq] at htaken hall
  refine ⟨(List.replicate n (round (p.available ++ p.active).length)).flatten ++
    List.replicate (p.available ++ p.active).length .take, ?_, ?_⟩
  · rw [taken_append, List.count_append, hcount, htaken, honce, Nat.mul_one]
  · rw [afterUses_append, hall]
    exact List.mem_append_right _ hmem

/-! ## All of it -/

/-- What a handle is good for that was taken from pool `p`, which became pool `q` by it. -/
structure Tenure (p q : Pool) (h : Handle) : Prop where
  /-- The handle is for the slot that has waited the longest. -/
  slot : p.available = h.index :: q.available
  /-- Until it is given back the handle is good for its slot. -/
  held : ∃ f, q.get? h = some f ∧ ∀ us : List Use, (∀ u ∈ us, ¬ u.Ends h) →
    (q.afterUses us).Good h (us.foldl (fun f u => u.through h f) f)
  /-- Then it is stale until the slot has been taken 2³¹ times more. -/
  ended : ∀ us u later, (∀ v ∈ us, ¬ Use.Ends h v) → Use.Ends h u →
    ((q.afterUses (us ++ [u])).taken later).count h.index < cycle →
    ((q.afterUses (us ++ [u])).afterUses later).Stale h
  /-- Taken as often as that, the slot is behind the handle again. -/
  returned : ∀ us u later, (∀ v ∈ us, ¬ Use.Ends h v) → Use.Ends h u →
    ((q.afterUses (us ++ [u])).taken later).count h.index = cycle →
    h.index ∈ ((q.afterUses (us ++ [u])).afterUses later).active →
    ∃ f, ((q.afterUses (us ++ [u])).afterUses later).Good h f

/-- What a slot is like once its handle is freed or cleared, after any uses behind that. -/
theorem slot_afterUses_of_ends (hp : p.Shaped)
    (hs : p.slots[h.index]? = some { finger := f, generation := h.generation, active := true })
    {us : List Use} (hus : ∀ v ∈ us, ¬ v.Ends h) (hu : u.Ends h) :
    ∃ g, (p.afterUses (us ++ [u])).slots[h.index]? =
      some { finger := g, generation := h.generation + 1, active := false } := by
  rw [afterUses_append]
  exact ⟨_, slot_use_of_ends (shaped_afterUses us hp) hu (slot_afterUses_of_held us hp hus hs)⟩

/-- A handle that is taken has its tenure, whatever is done from then on. -/
theorem tenure_of_take? (hp : p.Shaped) (htake : p.take? = some (h, q)) : p.Tenure q h := by
  obtain ⟨s, -, hgen, hav, -, hs, -⟩ := (orderly_of_shaped hp).take?_some h q htake
  rw [← hgen] at hs
  have hq : q.Shaped := use_take_of_take? htake ▸ (used_take hp).shaped
  exact
    { slot := hav
      held := by
        refine ⟨_, (good_of_slot hs).get?_eq, ?_⟩
        intro us hus
        exact good_of_slot (slot_afterUses_of_held us hq hus hs)
      ended := by
        intro us u later hus hu hfew
        obtain ⟨g, hg⟩ := slot_afterUses_of_ends hq hs hus hu
        exact stale_afterUses (shaped_afterUses _ hq) hg hfew
      returned := by
        intro us u later hus hu hall hact
        obtain ⟨g, hg⟩ := slot_afterUses_of_ends hq hs hus hu
        apply exists_good_of_isLive
        rw [isLive_afterUses_iff (shaped_afterUses _ hq) hg, hall]
        exact ⟨hact, Nat.dvd_refl _⟩ }

/-- **How long a handle is good.** However a new pool has been used, the good handles are those of
the fingers in use, each of them once; and the handle that is taken next has its slot until it gives
it back, and is stale from then on, until the slot has been taken 2³¹ times more. -/
theorem tenure_afterUses {s : Settings} (hnew : Pool.new s = .ok p) (us : List Use) :
    (∀ k, ((p.afterUses us).get? k).isSome = true ↔ k ∈ (p.afterUses us).handles) ∧
      (p.afterUses us).handles.Nodup ∧
      ∀ h q, (p.afterUses us).take? = some (h, q) → (p.afterUses us).Tenure q h := by
  have hp := (kept_afterUses hnew us).shaped
  refine ⟨?_, nodup_handles hp, fun h q htake => tenure_of_take? hp htake⟩
  intro k
  rw [get?, Option.isSome_map, slot?_isSome_iff hp]

/-- The first handle of a pool of two slots is good while another slot is taken, a handle that was
never issued is given back and the finger gets the number 5. Given back it is stale, also when the
slot has been taken once more, and it is good again in the end. -/
theorem tenure_afterUses_of_two :
    ∃ p q, Pool.new {} = .ok p ∧ p.take? = some (⟨0, 1⟩, q) ∧ p.Tenure q ⟨0, 1⟩ ∧
      (∃ f, f.id = 5 ∧ (q.afterUses
        [.take, .free ⟨1, 7⟩, .edit ⟨0, 1⟩ fun f => { f with id := 5 }]).Good ⟨0, 1⟩ f) ∧
      ((q.afterUses [.clear]).taken [.take, .take]).count 0 = 1 ∧
      ((q.afterUses [.clear]).afterUses [.take, .take]).Stale ⟨0, 1⟩ ∧
      ∃ later f, ((q.afterUses [.clear]).afterUses later).Good ⟨0, 1⟩ f := by
  have hnew : Pool.new {} = .ok (ofTrail 2 (Trail.empty 6 false)) := rfl
  obtain ⟨q, htake⟩ : ∃ q, (ofTrail 2 (Trail.empty 6 false)).take? = some (⟨0, 1⟩, q) := ⟨_, rfl⟩
  have htenure := (tenure_afterUses hnew []).2.2 _ q htake
  have huse := use_take_of_take? htake
  have hone := used_take (shaped_ofTrail 2 (Trail.empty 6 false))
  rw [huse] at hone
  have honce : ((q.afterUses [.clear]).taken [.take, .take]).count 0 = 1 := by
    rw [← huse]
    decide +kernel
  refine ⟨_, q, hnew, htake, htenure, ?_, honce, ?_, ?_⟩
  · obtain ⟨f, -, hheld⟩ := htenure.held
    refine ⟨_, rfl, hheld _ ?_⟩
    simp [Use.Ends]
  · refine htenure.ended [] .clear _ (by simp) (Or.inr rfl) ?_
    rw [List.nil_append, honce]
    decide
  · obtain ⟨later, hcount, hact⟩ := exists_taken_count hone.shaped (i := 0)
      (hone.capacity_eq ▸ (by decide)) (cycle - 1)
    exact ⟨later, htenure.returned [] .clear later (by simp) (Or.inr rfl) hcount hact⟩

end Pool

end FingerTracking
