import FingerTracking.Proofs.PoolView
import Mathlib.Data.List.Infix

/-!
# Slots in turn

A pool is used by taking slots, by giving them back, one or all of them, and by changing the fingers
behind handles, be they good or stale (`Pool.Use`). However it has been used, it is two lists: the
slots that wait, first come first served, and those in use, in the order in which they were taken.

> `used_use`: what one use does to the two lists and to each slot, all of it.
>
> `available_append_given`: slots are taken in the order in which they wait and are given back.
>
> `turns_afterUses`: the generation of a slot counts how often it was taken and given back.
>
> `orderly_afterUses`: after any uses of a new pool the bookkeeping is in order, and so is whatever
> is done next.
-/

namespace FingerTracking

/-- The generation that a slot has once it is given back: taking it makes this number larger by two,
and nothing else changes it. -/
def Slot.turns (s : Slot) : UInt32 :=
  s.generation + if s.active then 1 else 0

namespace Pool

/-! ## Uses -/

/-- What can be done with a pool, with handles from anywhere. -/
inductive Use where
  | take
  | free (h : Handle)
  | clear
  /-- Changes the finger behind a handle in any way. -/
  | edit (h : Handle) (change : Finger → Finger)

/-- The pool after one use. What fails changes nothing. -/
def use (p : Pool) : Use → Pool
  | .take =>
    match p.take? with
    | some (_, q) => q
    | none => p
  | .free h => (p.free h).1
  | .clear => p.freeAll.1
  | .edit h change =>
    match p.get? h with
    | some f => p.set h (change f)
    | none => p

/-- The pool after some uses. -/
def afterUses (p : Pool) (us : List Use) : Pool :=
  us.foldl use p

/-- The slot that a use takes, if it takes one. -/
def takes (p : Pool) : Use → List Nat
  | .take => (p.take?.map fun r => r.1.index).toList
  | _ => []

/-- The slots that a use gives back, in order. -/
def gives (p : Pool) : Use → List Nat
  | .free h => if p.isLive h then [h.index] else []
  | .clear => p.active
  | _ => []

/-- The slots taken by some uses, in order. -/
def taken (p : Pool) : List Use → List Nat
  | [] => []
  | u :: us => p.takes u ++ (p.use u).taken us

/-- The slots given back by some uses, in order. -/
def given (p : Pool) : List Use → List Nat
  | [] => []
  | u :: us => p.gives u ++ (p.use u).given us

/-- The finger of slot `i` after a use that neither takes the slot nor gives it back. -/
def edited (p : Pool) (i : Nat) : Use → Finger → Finger
  | .edit h change, f => if p.isLive h ∧ h.index = i then change f else f
  | _, f => f

/-- Slot `i` after a use. -/
def slotAfter (p : Pool) (u : Use) (i : Nat) (s : Slot) : Slot :=
  if i ∈ p.takes u then s.opened
  else if i ∈ p.gives u then s.closed
  else { s with finger := p.edited i u s.finger }

/-- All that a use does. -/
structure Used (p : Pool) (u : Use) (q : Pool) : Prop where
  shaped : q.Shaped
  capacity_eq : q.capacity = p.capacity
  queue : p.available ++ p.gives u = p.takes u ++ q.available
  active_eq : q.active = (p.active ++ p.takes u).filter (· ∉ p.gives u)
  slots : ∀ i s, p.slots[i]? = some s → q.slots[i]? = some (p.slotAfter u i s)

variable {p q : Pool} {h : Handle} {f : Finger} {i : Nat} {s : Slot} {u : Use}

/-! ## One use -/

/-- Taking looks at the head of the queue and nowhere else. -/
theorem take?_of_available {rest : List Nat} (hav : p.available = i :: rest)
    (hs : p.slots[i]? = some s) :
    p.take? = some (⟨i, s.generation + 1⟩,
      { slots := p.slots.setIfInBounds i s.opened, available := rest
        active := p.active ++ [i] }) := by
  rw [take?, hav]
  simp only [hs]

theorem use_take_of_take? (htake : p.take? = some (h, q)) : p.use .take = q := by
  rw [use, htake]

/-- The slot in front of the queue goes to the end of those in use. -/
theorem lists_take (hp : p.Shaped) {rest : List Nat} (hav : p.available = i :: rest) :
    p.takes .take = [i] ∧ (p.use .take).available = rest ∧
      (p.use .take).active = p.active ++ [i] := by
  obtain ⟨s, hs⟩ := exists_slot hp (Or.inr (hav ▸ List.mem_cons_self ..))
  have htake := take?_of_available hav hs
  rw [takes, use_take_of_take? htake, htake]
  exact ⟨rfl, rfl, rfl⟩

theorem isLive_eq_true_iff : p.isLive h = true ↔ ∃ s, p.slot? h = some s :=
  Option.isSome_iff_exists

theorem slot?_of_stale (hh : p.isLive h = false) : p.slot? h = none :=
  Option.isNone_iff_eq_none.mp (Option.isSome_eq_false_iff.mp hh)

/-- The slot of a live handle is in use. -/
theorem mem_active_of_isLive (hp : p.Shaped) (hh : p.isLive h = true) : h.index ∈ p.active := by
  obtain ⟨s, hs⟩ := isLive_eq_true_iff.mp hh
  obtain ⟨hsi, hact, -⟩ := slot?_eq_some_iff.mp hs
  exact (hp.flagged _ _ hsi).mp hact

/-- What is taken has waited the longest. -/
theorem takes_take (hp : p.Shaped) : p.takes .take = p.available.head?.toList := by
  cases hav : p.available with
  | nil =>
    rw [takes, take?, hav]
    rfl
  | cons i rest => exact (lists_take hp hav).1

/-- Only slots in use are given back. -/
theorem mem_gives (hp : p.Shaped) (hi : i ∈ p.gives u) : i ∈ p.active := by
  cases u with
  | free h =>
    rw [gives] at hi
    split at hi
    next hh => exact List.mem_singleton.mp hi ▸ mem_active_of_isLive hp hh
    next => exact nomatch hi
  | clear => exact hi
  | take => exact nomatch hi
  | edit h change => exact nomatch hi

/-- A use takes one slot at most, and that is the head of the queue. -/
theorem takes_cases (hp : p.Shaped) (u : Use) :
    p.takes u = [] ∨ ∃ i rest, p.available = i :: rest ∧ p.takes u = [i] := by
  cases u with
  | take =>
    rw [takes_take hp]
    cases hav : p.available with
    | nil => exact Or.inl rfl
    | cons i rest => exact Or.inr ⟨i, rest, rfl, rfl⟩
  | _ => exact Or.inl rfl

/-- Taking a slot, or finding that none is free. -/
theorem used_take (hp : p.Shaped) : p.Used .take (p.use .take) := by
  have htakes := takes_take hp
  cases hav : p.available with
  | nil =>
    have huse : p.use .take = p := by rw [use, take?, hav]
    rw [hav] at htakes
    rw [huse]
    refine ⟨hp, rfl, ?_, ?_, ?_⟩
    · rw [htakes]
      exact List.append_nil _
    · rw [htakes]
      simp [gives]
    · intro i s hs
      rw [slotAfter, htakes]
      exact hs
  | cons i rest =>
    obtain ⟨s, hs⟩ := exists_slot hp (Or.inr (hav ▸ List.mem_cons_self ..))
    replace htakes : p.takes .take = [i] := (lists_take hp hav).1
    rw [use_take_of_take? (take?_of_available hav hs)]
    refine ⟨shaped_opened hp hav hs, Array.size_setIfInBounds, ?_, ?_, ?_⟩
    · rw [htakes, hav]
      exact List.append_nil _
    · rw [htakes]
      simp [gives]
    · intro k u hu
      rw [slotAfter, htakes]
      by_cases hk : k = i
      · subst hk
        obtain rfl : s = u := Option.some_inj.mp (hs.symm.trans hu)
        rw [if_pos (List.mem_singleton_self _)]
        exact getElem?_set_eq _ hs
      · rw [if_neg (by simpa using hk)]
        exact (getElem?_set_ne _ hk).trans hu

/-- Giving one slot back, or nothing if the handle is stale. -/
theorem used_free (hp : p.Shaped) (h : Handle) : p.Used (.free h) (p.use (.free h)) := by
  cases hh : p.isLive h with
  | false =>
    have hgives : p.gives (.free h) = [] := by rw [gives, hh]; rfl
    have huse : p.use (.free h) = p :=
      congrArg Prod.fst (free_of_stale (slot?_of_stale hh)).2
    rw [huse]
    refine ⟨hp, rfl, ?_, ?_, ?_⟩
    · rw [hgives]
      exact List.append_nil _
    · rw [hgives]
      simp [takes]
    · intro i s hs
      rw [slotAfter, hgives]
      exact hs
  | true =>
    have hgives : p.gives (.free h) = [h.index] := by rw [gives, hh]; rfl
    obtain ⟨s, hs⟩ := isLive_eq_true_iff.mp hh
    obtain ⟨hsi, -, -⟩ := slot?_eq_some_iff.mp hs
    have huse : p.use (.free h) =
        { slots := p.slots.setIfInBounds h.index s.closed
          available := p.available ++ [h.index]
          active := p.active.filter (· != h.index) } := by
      rw [use, free, free?, hs]
    rw [huse]
    refine ⟨shaped_closed hp hs, Array.size_setIfInBounds, ?_, ?_, ?_⟩
    · rw [hgives]
      rfl
    · rw [hgives]
      simp [takes, bne, beq_eq_decide]
    · intro k u hu
      rw [slotAfter, hgives, if_neg (show k ∉ p.takes (.free h) from List.not_mem_nil)]
      by_cases hk : k = h.index
      · subst hk
        obtain rfl : s = u := Option.some_inj.mp (hsi.symm.trans hu)
        rw [if_pos (List.mem_singleton_self _)]
        exact getElem?_set_eq _ hsi
      · rw [if_neg (by simpa using hk)]
        exact (getElem?_set_ne _ hk).trans hu

/-- Clearing puts the active slots behind those that wait, in the order in which they were taken. -/
theorem lists_freeAll (hp : p.Shaped) :
    p.freeAll.1.active = [] ∧ p.freeAll.1.available = p.available ++ p.active := by
  obtain ⟨q, hfree, hq, -, hent, hspare⟩ := freeAll_spec hp
  rw [hfree]
  refine ⟨by rw [← map_index_entries hq, hent]; rfl, ?_⟩
  rw [← map_index_spares hq, hspare, List.map_append, map_index_spares hp, List.map_map,
    ← map_index_entries hp]
  rfl

/-- Clearing is giving back every slot in use. -/
theorem used_clear (hp : p.Shaped) : p.Used .clear (p.use .clear) := by
  obtain ⟨hactive, havailable⟩ := lists_freeAll hp
  obtain ⟨q, hfree, hq, hcap, -, hspare⟩ := freeAll_spec hp
  have huse : p.use .clear = q := by rw [use, hfree]
  rw [hfree] at hactive havailable
  rw [huse]
  refine ⟨hq, hcap, havailable.symm, ?_, ?_⟩
  · rw [hactive]
    refine (List.filter_eq_nil_iff.mpr ?_).symm
    intro i hi hnot
    rw [show p.takes .clear = [] from rfl, List.append_nil] at hi
    exact of_decide_eq_true hnot hi
  · -- a slot is found again in the queue, with the finger and the generation it has there
    intro i s hs
    obtain ⟨hi, -⟩ := Array.getElem?_eq_some_iff.mp hs
    rw [slotAfter, if_neg (show i ∉ p.takes .clear from List.not_mem_nil)]
    rcases (hp.all_slots i).mpr hi with hact | hfree
    · have he := mem_entries_of_slot hact hs
      have hmem : (⟨i, s.generation + 1 + 1⟩, s.finger.closed) ∈ q.spares :=
        hspare ▸ List.mem_append_right _ (List.mem_map.mpr ⟨_, he, rfl⟩)
      rw [if_pos (show i ∈ p.gives .clear from hact)]
      exact slot_of_mem_spares hq hmem
    · have hmem := mem_spares_of_slot hfree hs
      rw [if_neg (show i ∉ p.gives .clear from fun hact => hp.not_both i hact hfree)]
      exact (slot_of_mem_spares hq (hspare ▸ List.mem_append_left _ hmem)).trans
        ((slot_of_mem_spares hp hmem).symm.trans hs)

/-- An edit writes the finger of a live handle and nothing else. -/
theorem used_edit (hp : p.Shaped) (h : Handle) (change : Finger → Finger) :
    p.Used (.edit h change) (p.use (.edit h change)) := by
  cases hh : p.isLive h with
  | false =>
    have huse : p.use (.edit h change) = p := by rw [use, get?, slot?_of_stale hh]; rfl
    rw [huse]
    refine ⟨hp, rfl, List.append_nil _, by simp [takes, gives], ?_⟩
    intro i s hs
    simp [slotAfter, takes, gives, edited, hh, hs]
  | true =>
    obtain ⟨s, hs⟩ := isLive_eq_true_iff.mp hh
    obtain ⟨hsi, -, -⟩ := slot?_eq_some_iff.mp hs
    have huse : p.use (.edit h change) = p.set h (change s.finger) := by
      rw [use, get?, hs]
      rfl
    rw [huse]
    refine ⟨shaped_set hp .., capacity_set .., ?_, ?_, ?_⟩
    · rw [available_set]
      exact List.append_nil _
    · rw [active_set]
      simp [takes, gives]
    · intro k u hu
      rw [set_of_slot? hs]
      by_cases hk : k = h.index
      · subst hk
        obtain rfl : s = u := Option.some_inj.mp (hsi.symm.trans hu)
        simp only [slotAfter, takes, gives, edited, hh, List.not_mem_nil, if_false, and_self,
          if_true]
        exact getElem?_set_eq _ hsi
      · have hkh : ¬ (p.isLive h = true ∧ h.index = k) := fun hboth => hk hboth.2.symm
        simp only [slotAfter, takes, gives, edited, List.not_mem_nil, if_false, if_neg hkh]
        exact (getElem?_set_ne _ hk).trans hu

/-- All that any use does. -/
theorem used_use (hp : p.Shaped) (u : Use) : p.Used u (p.use u) := by
  cases u with
  | take => exact used_take hp
  | free h => exact used_free hp h
  | clear => exact used_clear hp
  | edit h change => exact used_edit hp h change

/-- A slot that is taken was free, and it is the only one. -/
theorem mem_takes (hp : p.Shaped) (hi : i ∈ p.takes u) : i ∈ p.available ∧ p.takes u = [i] := by
  rcases takes_cases hp u with hnil | ⟨k, rest, hav, htakes⟩
  · rw [hnil] at hi
    exact nomatch hi
  · rw [htakes] at hi
    obtain rfl := List.mem_singleton.mp hi
    exact ⟨hav ▸ List.mem_cons_self .., htakes⟩

/-- A slot turns over by two when it is taken, and does not when it is given back. -/
theorem turns_slotAfter (hp : p.Shaped) (hs : p.slots[i]? = some s) (u : Use) :
    (p.slotAfter u i s).turns = s.turns + UInt32.ofNat (2 * (p.takes u).count i) := by
  unfold slotAfter
  by_cases hi : i ∈ p.takes u
  · obtain ⟨hfree, htakes⟩ := mem_takes hp hi
    have hidle : s.active = false := by
      rw [← Bool.not_eq_true, hp.flagged i s hs]
      exact fun hact => hp.not_both i hact hfree
    rw [if_pos hi, htakes, List.count_singleton_self]
    simp only [Slot.turns, Slot.opened, hidle, if_true, Bool.false_eq_true, if_false,
      UInt32.add_zero, UInt32.add_assoc]
    rfl
  · rw [if_neg hi, List.count_eq_zero_of_not_mem hi]
    split
    next hg =>
      have hact : s.active = true := (hp.flagged i s hs).mpr (mem_gives hp hg)
      simp [Slot.turns, Slot.closed, hact]
    next => exact (UInt32.add_zero _).symm

/-! ## Any uses -/

/-- No use puts a pool out of shape. -/
theorem shaped_afterUses (us : List Use) : ∀ {p : Pool}, p.Shaped → (p.afterUses us).Shaped := by
  induction us with
  | nil => exact fun hp => hp
  | cons u us ih => exact fun hp => ih (used_use hp u).shaped

theorem capacity_afterUses (us : List Use) :
    ∀ {p : Pool}, p.Shaped → (p.afterUses us).capacity = p.capacity := by
  induction us with
  | nil => exact fun _ => rfl
  | cons u us ih =>
    intro p hp
    have hone := used_use hp u
    exact (ih hone.shaped).trans hone.capacity_eq

/-- First come, first served: what waits is taken in its order, and then what is given back, in the
order in which it is. -/
theorem available_append_given (us : List Use) :
    ∀ {p : Pool}, p.Shaped →
      p.available ++ p.given us = p.taken us ++ (p.afterUses us).available := by
  induction us with
  | nil => exact fun _ => List.append_nil _
  | cons u us ih =>
    intro p hp
    have hone := used_use hp u
    calc p.available ++ (p.gives u ++ (p.use u).given us)
      _ = p.takes u ++ ((p.use u).available ++ (p.use u).given us) := by
          rw [← List.append_assoc, hone.queue, List.append_assoc]
      _ = p.takes u ++ (p.use u).taken us ++ ((p.use u).afterUses us).available := by
          rw [ih hone.shaped, List.append_assoc]

/-- The turns of a slot count how often it was taken. -/
theorem turns_afterUses (us : List Use) :
    ∀ {p : Pool} {s : Slot}, p.Shaped → p.slots[i]? = some s →
      ∃ r, (p.afterUses us).slots[i]? = some r ∧
        r.turns = s.turns + UInt32.ofNat (2 * (p.taken us).count i) := by
  induction us with
  | nil => exact fun _ hs => ⟨_, hs, (UInt32.add_zero _).symm⟩
  | cons u us ih =>
    intro p s hp hs
    have hone := used_use hp u
    obtain ⟨r, hr, hturns⟩ := ih hone.shaped (hone.slots i s hs)
    refine ⟨r, hr, ?_⟩
    rw [hturns, turns_slotAfter hp hs, UInt32.add_assoc, ← UInt32.ofNat_add, ← Nat.mul_add,
      ← List.count_append]
    rfl

/-- A slot that was given back is taken again after those that waited before it. -/
theorem prefix_taken_of_mem (hp : p.Shaped) {waiting : List Nat} (us : List Use)
    (hav : p.available = waiting ++ [i]) (hi : i ∈ p.taken us) : waiting ++ [i] <+: p.taken us := by
  have hfifo := available_append_given us hp
  rw [hav] at hfifo
  rcases List.prefix_or_prefix_of_prefix (List.prefix_append (waiting ++ [i]) (p.given us))
    (hfifo ▸ List.prefix_append (p.taken us) _) with hle | hle
  · exact hle
  · rcases List.prefix_concat_iff.mp hle with heq | hless
    · exact heq ▸ List.prefix_refl _
    · -- it would have been waiting twice
      have hnodup := hav ▸ hp.available_nodup
      have hnot := (List.nodup_append.mp hnodup).2.2 i (hless.subset hi) i
        (List.mem_singleton_self i)
      exact absurd rfl hnot

/-! ## New pools -/

/-- A pool is made of free slots, all alike, be there any or none. -/
theorem exists_ofTrail {s : Settings} (h : Pool.new s = .ok p) :
    ∃ trail, p = ofTrail s.poolCapacity trail := by
  unfold Pool.new at h
  split at h
  next hzero =>
    refine ⟨default, ?_⟩
    rw [hzero]
    exact (Except.ok.inj h).symm
  next =>
    cases hnew : Trail.new s.trailLength s.filtered with
    | error e =>
      rw [hnew] at h
      exact nomatch h
    | ok trail =>
      rw [hnew] at h
      exact ⟨trail, (Except.ok.inj h).symm⟩

theorem turns_ofTrail {n : Nat} {trail : Trail} (hs : (ofTrail n trail).slots[i]? = some s) :
    s.turns = 0 := by
  obtain ⟨hi, rfl⟩ := Array.getElem?_eq_some_iff.mp hs
  simp [ofTrail, Slot.turns]

/-- A number of turns is even, so the generation is odd as long as one is to be added. -/
theorem odd_generation_iff {k : Nat} (hs : s.turns = UInt32.ofNat (2 * k)) :
    s.generation.toNat % 2 = 1 ↔ s.active = true := by
  have hturns := congrArg UInt32.toNat hs
  rw [Slot.turns, UInt32.toNat_add, UInt32.toNat_ofNat'] at hturns
  cases hact : s.active with
  | true =>
    rw [hact] at hturns
    simp only [if_true, UInt32.toNat_one] at hturns
    simp only [iff_true]
    omega
  | false =>
    rw [hact] at hturns
    simp only [Bool.false_eq_true, if_false, UInt32.toNat_zero] at hturns
    simp only [Bool.false_eq_true, iff_false]
    omega

/-- A pool of this many slots with its bookkeeping in order. -/
structure Kept (capacity : Nat) (p : Pool) : Prop where
  shaped : p.Shaped
  capacity_eq : p.capacity = capacity
  odd_iff : ∀ (i : Nat) (s : Slot), p.slots[i]? = some s →
    (s.generation.toNat % 2 = 1 ↔ s.active = true)

/-- The bookkeeping is in order after any uses of a new pool. -/
theorem kept_afterUses {s : Settings} (h : Pool.new s = .ok p) (us : List Use) :
    (p.afterUses us).Kept s.poolCapacity := by
  obtain ⟨trail, rfl⟩ := exists_ofTrail h
  have hp := shaped_ofTrail s.poolCapacity trail
  refine ⟨shaped_afterUses us hp, (capacity_afterUses us hp).trans (capacity_ofTrail ..), ?_⟩
  intro i r hr
  obtain ⟨hi, -⟩ := Array.getElem?_eq_some_iff.mp hr
  have hlt : i < (ofTrail s.poolCapacity trail).slots.size := by
    rw [← Pool.capacity, ← capacity_afterUses us hp]
    exact hi
  have hs := Array.getElem?_eq_getElem hlt
  obtain ⟨u, hu, hturns⟩ := turns_afterUses us hp hs
  obtain rfl : r = u := Option.some_inj.mp (hr.symm.trans hu)
  rw [turns_ofTrail hs, UInt32.zero_add] at hturns
  exact odd_generation_iff hturns

/-! ## What is done next -/

/-- Whatever is done next with the pool, this is what comes of it. -/
structure Orderly (p : Pool) : Prop where
  take?_none : (p.take? = none ↔ p.available = []) ∧ (p.take? = none → p.use .take = p)
  /-- The slot in front of the queue goes to the end of those in use. Of its finger only trail,
  phase and weight are made new. -/
  take?_some : ∀ h q, p.take? = some (h, q) → ∃ s, p.slots[h.index]? = some s ∧
    h.generation = s.generation + 1 ∧
    p.available = h.index :: q.available ∧ q.active = p.active ++ [h.index] ∧
    q.slots[h.index]? = some
      { finger := { s.finger with trail := s.finger.trail.cleared, phase := .start, weight := 0 }
        generation := s.generation + 1, active := true } ∧
    ∀ i ≠ h.index, q.slots[i]? = p.slots[i]?
  free_stale : ∀ h, p.isLive h = false → p.free? h = none ∧ (p.free h).1 = p
  /-- The slot goes from its place among those in use to the end of the queue. -/
  free_live : ∀ h, p.isLive h = true → ∃ q before behind, p.free? h = some q ∧ (p.free h).1 = q ∧
    p.active = before ++ h.index :: behind ∧ q.active = before ++ behind ∧
    q.available = p.available ++ [h.index] ∧
    (∃ s, p.slots[h.index]? = some s ∧ q.slots[h.index]? = some s.closed) ∧
    ∀ i ≠ h.index, q.slots[i]? = p.slots[i]?
  /-- All slots in use go to the end of the queue, in their order. -/
  clear : p.freeAll.1.active = [] ∧ p.freeAll.1.available = p.available ++ p.active ∧
    ∀ (i : Nat) (s : Slot), p.slots[i]? = some s →
      p.freeAll.1.slots[i]? = some (if s.active then s.closed else s)
  /-- A finger is edited in its slot, and behind a stale handle there is none. -/
  edit : ∀ h f, (p.set h f).active = p.active ∧ (p.set h f).available = p.available ∧
    ∀ (i : Nat) (s : Slot), p.slots[i]? = some s → (p.set h f).slots[i]? =
      some { s with finger := if p.isLive h ∧ h.index = i then f else s.finger }
  /-- What waits is taken in its order, and then what is given back. -/
  fifo : ∀ later, p.available ++ p.given later = p.taken later ++ (p.afterUses later).available
  /-- A slot that is given back is taken again only after all that waited then. -/
  reuse : ∀ h, p.isLive h = true → ∀ later, h.index ∈ (p.use (.free h)).taken later →
    p.available ++ [h.index] <+: (p.use (.free h)).taken later

theorem take?_eq_none_iff_available (hp : p.Shaped) : p.take? = none ↔ p.available = [] := by
  rw [take?_eq_none_iff hp, ← List.length_eq_zero_iff, length_spares hp, List.length_eq_zero_iff]

theorem use_edit_const (p : Pool) (h : Handle) (f : Finger) :
    p.use (.edit h fun _ => f) = p.set h f := by
  simp only [use, get?]
  cases hs : p.slot? h with
  | none => exact (set_of_stale hs f).symm
  | some s => rfl

/-- What freeing a live handle does, list by list: its slot leaves its place among the active ones
and joins the queue at the end. -/
theorem use_free_of_isLive (hp : p.Shaped) (hh : p.isLive h = true) :
    ∃ q before behind, p.free? h = some q ∧ (p.free h).1 = q ∧
      p.active = before ++ h.index :: behind ∧ q.active = before ++ behind ∧
      q.available = p.available ++ [h.index] ∧
      (∃ s, p.slots[h.index]? = some s ∧ q.slots[h.index]? = some s.closed) ∧
      ∀ i ≠ h.index, q.slots[i]? = p.slots[i]? := by
  obtain ⟨s, hs⟩ := isLive_eq_true_iff.mp hh
  obtain ⟨hsi, -, -⟩ := slot?_eq_some_iff.mp hs
  obtain ⟨before, behind, hactive⟩ := List.append_of_mem (mem_active_of_isLive hp hh)
  have hnodup := hp.active_nodup
  rw [hactive, List.nodup_middle, List.nodup_cons] at hnodup
  refine ⟨_, before, behind, by rw [free?, hs], by rw [free, free?, hs], hactive, ?_, rfl,
    ⟨s, hsi, getElem?_set_eq _ hsi⟩, fun i hi => getElem?_set_ne _ hi⟩
  -- the index stands only once among those in use
  show p.active.filter (· != h.index) = before ++ behind
  rw [hactive, List.filter_append, List.filter_cons_of_neg (by simp), ← List.filter_append]
  apply List.filter_eq_self.mpr
  intro i hi
  exact bne_iff_ne.mpr fun heq => hnodup.1 (heq ▸ hi)

/-- Shape is all that the next use needs. -/
theorem orderly_of_shaped (hp : p.Shaped) : p.Orderly where
  take?_none := ⟨take?_eq_none_iff_available hp, fun hnone => by rw [use, hnone]⟩
  take?_some := by
    intro h q htake
    cases hav : p.available with
    | nil =>
      rw [(take?_eq_none_iff_available hp).mpr hav] at htake
      exact nomatch htake
    | cons i rest =>
      obtain ⟨s, hs⟩ := exists_slot hp (Or.inr (hav ▸ List.mem_cons_self ..))
      rw [take?_of_available hav hs] at htake
      obtain ⟨rfl, rfl⟩ := Prod.mk.inj (Option.some_inj.mp htake)
      exact ⟨s, hs, rfl, rfl, rfl, getElem?_set_eq _ hs, fun k hk => getElem?_set_ne _ hk⟩
  free_stale h hh := (free_of_stale (slot?_of_stale hh)).imp_right (congrArg Prod.fst)
  free_live _ hh := use_free_of_isLive hp hh
  clear := by
    obtain ⟨hactive, havailable⟩ := lists_freeAll hp
    refine ⟨hactive, havailable, ?_⟩
    intro i s hs
    have hslot := (used_clear hp).slots i s hs
    simp only [slotAfter, takes, gives, edited, List.not_mem_nil, if_false,
      ← hp.flagged i s hs] at hslot
    exact hslot
  edit := by
    intro h f
    refine ⟨active_set .., available_set .., ?_⟩
    intro i s hs
    have hslot := (used_edit hp h fun _ => f).slots i s hs
    simp only [slotAfter, takes, gives, edited, List.not_mem_nil, if_false] at hslot
    rw [use_edit_const] at hslot
    exact hslot
  fifo later := available_append_given later hp
  reuse h hh later hi := by
    obtain ⟨q, -, -, -, hq, -, -, hav, -⟩ := use_free_of_isLive hp hh
    have huse : p.use (.free h) = q := hq
    exact prefix_taken_of_mem (used_free hp h).shaped later (huse ▸ hav) hi

/-- **Slots take turns.** However a new pool has been used, its bookkeeping is in order, and so is
whatever is done next. -/
theorem orderly_afterUses {s : Settings} (h : Pool.new s = .ok p) (us : List Use) :
    (p.afterUses us).Kept s.poolCapacity ∧ (p.afterUses us).Orderly := by
  have hkept := kept_afterUses h us
  exact ⟨hkept, orderly_of_shaped hkept.shaped⟩

/-- Two slots are taken, the first one is given back, and then again and again with handles that are
good no longer or never were; the next one to be taken is the first. -/
theorem orderly_afterUses_of_two :
    ∃ p, Pool.new {} = .ok p ∧
      let us : List Use := [.take, .take, .free ⟨0, 1⟩, .free ⟨0, 1⟩, .free ⟨7, 1⟩, .take]
      p.taken us = [0, 1, 0] ∧ (p.afterUses us).active = [1, 0] ∧
        (p.afterUses us).Kept 2 ∧ (p.afterUses us).Orderly := by
  have h : Pool.new {} = .ok (ofTrail 2 (Trail.empty 6 false)) := rfl
  exact ⟨_, h, by decide +kernel, by decide +kernel, orderly_afterUses h _⟩

end Pool

end FingerTracking
