import FingerTracking.Pool
import Mathlib.Data.List.Nodup

/-!
# The pool as two lists

`Shaped p` says that the bookkeeping of a pool is in order: the slots in use and the free ones
are apart, together they are all the slots there are, and a slot is flagged exactly while it is
in use. Of a shaped pool two lists are all that can be seen:

> `entries p`: the active fingers behind their handles, oldest first.
>
> `spares p`: the fingers of the free slots, each behind the handle it will be taken with.

Every operation is an equation on them: `set` writes into an entry (`entries_set`), `take?` moves
the first spare to the end of the entries (`take?_spec`), `free` moves an entry to the end of the
spares (`free_spec`). Nothing after this file looks at a slot again.
-/

namespace FingerTracking

/-- The finger of a slot just taken. -/
def Finger.opened (f : Finger) : Finger :=
  { f with trail := f.trail.cleared, phase := .start, weight := 0 }

/-- The finger of a slot just freed. -/
def Finger.closed (f : Finger) : Finger :=
  { f with trail := f.trail.cleared, phase := .unused }

/-- The next handle issued for the slot of a live handle: freeing and taking both count. -/
def Handle.next (h : Handle) : Handle :=
  ⟨h.index, h.generation + 1 + 1⟩

namespace Pool

structure Shaped (p : Pool) : Prop where
  active_nodup : p.active.Nodup
  available_nodup : p.available.Nodup
  not_both : ∀ i ∈ p.active, i ∉ p.available
  all_slots : ∀ i, i ∈ p.active ∨ i ∈ p.available ↔ i < p.capacity
  flagged : ∀ (i : Nat) (s : Slot), p.slots[i]? = some s → (s.active = true ↔ i ∈ p.active)

def entryAt? (p : Pool) (i : Nat) : Option (Handle × Finger) :=
  p.slots[i]?.map fun s => (⟨i, s.generation⟩, s.finger)

def spareAt? (p : Pool) (i : Nat) : Option (Handle × Finger) :=
  p.slots[i]?.map fun s => (⟨i, s.generation + 1⟩, s.finger)

/-- The active fingers and their handles, oldest first. -/
def entries (p : Pool) : List (Handle × Finger) :=
  p.active.filterMap p.entryAt?

/-- The fingers of the free slots, in the order in which they will be taken. -/
def spares (p : Pool) : List (Handle × Finger) :=
  p.available.filterMap p.spareAt?

variable {p q : Pool} {h k : Handle} {f : Finger}

/-! ## Reading the two lists -/

/-- The two lists name slots that are there. -/
theorem exists_slot (hp : p.Shaped) {i : Nat} (hi : i ∈ p.active ∨ i ∈ p.available) :
    ∃ s, p.slots[i]? = some s :=
  ⟨_, Array.getElem?_eq_getElem ((hp.all_slots i).mp hi)⟩

/-- The handles are those of the entries. -/
theorem handles_eq (p : Pool) : p.handles = p.entries.map (·.1) := by
  unfold handles entries
  rw [List.map_filterMap]
  congr 1
  funext i
  unfold handleAt? entryAt?
  cases p.slots[i]? <;> rfl

/-- A list read through an array has one element for each index in bounds. -/
private theorem map_filterMap_index {α : Type} {g : Nat → Option α} {ix : α → Nat} :
    ∀ {l : List Nat}, (∀ i ∈ l, ∃ a, g i = some a ∧ ix a = i) → (l.filterMap g).map ix = l
  | [], _ => rfl
  | i :: l, hl => by
    obtain ⟨a, ha, hi⟩ := hl i (List.mem_cons_self ..)
    rw [List.filterMap_cons_some ha, List.map_cons, hi,
      map_filterMap_index fun j hj => hl j (List.mem_cons_of_mem _ hj)]

/-- Nothing of `active` is lost on the way to the entries. -/
theorem map_index_entries (hp : p.Shaped) : p.entries.map (·.1.index) = p.active := by
  apply map_filterMap_index
  intro i hi
  obtain ⟨s, hs⟩ := exists_slot hp (Or.inl hi)
  exact ⟨(⟨i, s.generation⟩, s.finger), by rw [entryAt?, hs]; rfl, rfl⟩

/-- Nothing of the queue is lost on the way to the spares. -/
theorem map_index_spares (hp : p.Shaped) : p.spares.map (·.1.index) = p.available := by
  apply map_filterMap_index
  intro i hi
  obtain ⟨s, hs⟩ := exists_slot hp (Or.inr hi)
  exact ⟨(⟨i, s.generation + 1⟩, s.finger), by rw [spareAt?, hs]; rfl, rfl⟩

/-- Counting active fingers is counting entries. -/
theorem length_entries (hp : p.Shaped) : p.entries.length = p.active.length := by
  rw [← map_index_entries hp, List.length_map]

theorem length_spares (hp : p.Shaped) : p.spares.length = p.available.length := by
  rw [← map_index_spares hp, List.length_map]

/-- Different active fingers have handles of different slots. -/
theorem nodup_index (hp : p.Shaped) : (p.entries.map (·.1.index)).Nodup := by
  rw [map_index_entries hp]
  exact hp.active_nodup

/-- Active fingers have slots of their own. -/
theorem nodup_index_handles (hp : p.Shaped) : (p.handles.map (·.index)).Nodup := by
  rw [handles_eq, List.map_map]
  exact nodup_index hp

/-- So they have handles of their own, and a handle stands for one of them. -/
theorem nodup_handles (hp : p.Shaped) : p.handles.Nodup :=
  (nodup_index_handles hp).of_map

theorem index_lt_capacity (hp : p.Shaped) (hh : h ∈ p.handles) : h.index < p.capacity := by
  rw [handles_eq] at hh
  obtain ⟨e, he, rfl⟩ := List.mem_map.mp hh
  exact (hp.all_slots _).mp (Or.inl (map_index_entries hp ▸ List.mem_map_of_mem he))

/-- No other entry has the index of a given one. -/
theorem index_ne_of_entries (hp : p.Shaped) {done rest : List (Handle × Finger)}
    (he : p.entries = done ++ (h, f) :: rest) : ∀ e ∈ done ++ rest, e.1.index ≠ h.index := by
  have hn := nodup_index hp
  rw [he, List.map_append, List.map_cons, List.nodup_middle, List.nodup_cons,
    ← List.map_append] at hn
  intro e hmem heq
  exact hn.1 (List.mem_map.mpr ⟨e, hmem, heq⟩)

/-- Where one entry is singled out, its handle is none of the others'. -/
theorem handle_ne_of_entries (hp : p.Shaped) {done rest : List (Handle × Finger)}
    (he : p.entries = done ++ (h, f) :: rest) : ∀ e ∈ done ++ rest, e.1 ≠ h :=
  fun e hmem heq => index_ne_of_entries hp he e hmem (congrArg Handle.index heq)

/-- A handle is active exactly if it has an entry. -/
theorem mem_handles_iff : h ∈ p.handles ↔ ∃ f, (h, f) ∈ p.entries := by
  rw [handles_eq, List.mem_map]
  constructor
  · intro hmem
    obtain ⟨⟨k, f⟩, he, rfl⟩ := hmem
    exact ⟨f, he⟩
  · intro ⟨f, he⟩
    exact ⟨(h, f), he, rfl⟩

/-- What makes a handle good: its slot is in use, and in the generation that the handle was given
for. -/
theorem slot?_eq_some_iff {s : Slot} :
    p.slot? h = some s ↔
      p.slots[h.index]? = some s ∧ s.active = true ∧ s.generation = h.generation := by
  unfold slot?
  cases hs : p.slots[h.index]? with
  | none => simp
  | some u =>
    dsimp only
    split
    next hu =>
      constructor
      · intro heq
        cases heq
        exact ⟨rfl, hu⟩
      · intro hboth
        exact hboth.1
    next hu =>
      constructor
      · intro heq
        cases heq
      · intro ⟨heq, hlive⟩
        cases heq
        exact absurd hlive hu

/-- The live handles are the handles of the active fingers. -/
theorem slot?_isSome_iff (hp : p.Shaped) : (p.slot? h).isSome ↔ h ∈ p.handles := by
  rw [handles, List.mem_filterMap, Option.isSome_iff_exists]
  constructor
  · intro ⟨s, hs⟩
    obtain ⟨hs, ha, hg⟩ := slot?_eq_some_iff.mp hs
    refine ⟨h.index, (hp.flagged _ _ hs).mp ha, ?_⟩
    rw [handleAt?, hs, Option.map_some, hg]
  · intro ⟨i, hi, hh⟩
    obtain ⟨s, hs⟩ := exists_slot hp (Or.inl hi)
    rw [handleAt?, hs, Option.map_some, Option.some_inj] at hh
    subst hh
    exact ⟨s, slot?_eq_some_iff.mpr ⟨hs, (hp.flagged _ _ hs).mpr hi, rfl⟩⟩

/-- A finger is read by its handle exactly if the two stand together in the entries. -/
theorem get?_eq_some_iff (hp : p.Shaped) : p.get? h = some f ↔ (h, f) ∈ p.entries := by
  rw [get?, Option.map_eq_some_iff, entries, List.mem_filterMap]
  constructor
  · intro hslot
    obtain ⟨s, hs, rfl⟩ := hslot
    obtain ⟨hs, ha, hg⟩ := slot?_eq_some_iff.mp hs
    refine ⟨h.index, (hp.flagged _ _ hs).mp ha, ?_⟩
    rw [entryAt?, hs, Option.map_some, hg]
  · intro ⟨i, hi, he⟩
    obtain ⟨s, hs⟩ := exists_slot hp (Or.inl hi)
    rw [entryAt?, hs, Option.map_some, Option.some_inj, Prod.mk.injEq] at he
    obtain ⟨rfl, rfl⟩ := he
    exact ⟨s, slot?_eq_some_iff.mpr ⟨hs, (hp.flagged _ _ hs).mpr hi, rfl⟩, rfl⟩

/-- The fingers are found behind the handles, in their order. -/
theorem fingers_eq (hp : p.Shaped) : p.fingers = p.entries.map (·.2) := by
  rw [fingers, handles_eq, List.filterMap_map, ← List.filterMap_eq_map]
  apply List.filterMap_congr
  intro e he
  exact (get?_eq_some_iff hp).mpr he

theorem length_fingers (hp : p.Shaped) : p.fingers.length = p.active.length := by
  rw [fingers_eq hp, List.length_map, length_entries hp]

/-- An entry is read off its slot. -/
theorem exists_slot_of_mem_entries (he : (h, f) ∈ p.entries) :
    ∃ s, p.slots[h.index]? = some s ∧ s.generation = h.generation ∧ s.finger = f := by
  obtain ⟨i, -, hi⟩ := List.mem_filterMap.mp he
  obtain ⟨s, hs, heq⟩ := Option.map_eq_some_iff.mp hi
  obtain ⟨rfl, rfl⟩ := Prod.mk.inj heq
  exact ⟨s, hs, rfl, rfl⟩

/-- A spare is read off its slot, with the generation that it will have when the slot is taken. -/
theorem exists_slot_of_mem_spares (he : (h, f) ∈ p.spares) :
    ∃ s, p.slots[h.index]? = some s ∧ s.generation + 1 = h.generation ∧ s.finger = f := by
  obtain ⟨i, -, hi⟩ := List.mem_filterMap.mp he
  obtain ⟨s, hs, heq⟩ := Option.map_eq_some_iff.mp hi
  obtain ⟨rfl, rfl⟩ := Prod.mk.inj heq
  exact ⟨s, hs, rfl, rfl⟩

theorem mem_entries_of_slot {i : Nat} {s : Slot} (hi : i ∈ p.active) (hs : p.slots[i]? = some s) :
    (⟨i, s.generation⟩, s.finger) ∈ p.entries :=
  List.mem_filterMap.mpr ⟨i, hi, by rw [entryAt?, hs]; rfl⟩

theorem mem_spares_of_slot {i : Nat} {s : Slot} (hi : i ∈ p.available)
    (hs : p.slots[i]? = some s) : (⟨i, s.generation + 1⟩, s.finger) ∈ p.spares :=
  List.mem_filterMap.mpr ⟨i, hi, by rw [spareAt?, hs]; rfl⟩

/-- In a shaped pool a slot is known completely from its entry. -/
theorem slot_of_mem_entries (hp : p.Shaped) (he : (h, f) ∈ p.entries) :
    p.slots[h.index]? = some ⟨f, h.generation, true⟩ := by
  obtain ⟨⟨finger, generation, active⟩, hs, rfl, rfl⟩ := exists_slot_of_mem_entries he
  have hmem : h.index ∈ p.active := map_index_entries hp ▸ List.mem_map_of_mem he
  obtain rfl : active = true := (hp.flagged _ _ hs).mpr hmem
  exact hs

/-- A free slot is known as completely from its spare. -/
theorem slot_of_mem_spares (hp : p.Shaped) {i : Nat} {g : UInt32}
    (he : (⟨i, g + 1⟩, f) ∈ p.spares) : p.slots[i]? = some ⟨f, g, false⟩ := by
  obtain ⟨⟨finger, generation, active⟩, hs, hg, rfl⟩ := exists_slot_of_mem_spares he
  obtain rfl : generation = g := UInt32.add_left_inj 1 |>.mp hg
  have hmem : i ∈ p.available := map_index_spares hp ▸ List.mem_map_of_mem he
  obtain rfl : active = false := by
    rw [← Bool.not_eq_true, hp.flagged i _ hs]
    exact fun hact => hp.not_both i hact hmem
  exact hs

/-- A slot can be read off the two lists. -/
theorem getElem?_slots_of_mem (hp : p.Shaped) (hq : q.Shaped) {i : Nat} {s : Slot}
    (he : ∀ e ∈ p.entries, e.1.index = i → e ∈ q.entries)
    (hs : ∀ e ∈ p.spares, e.1.index = i → e ∈ q.spares) (hi : p.slots[i]? = some s) :
    q.slots[i]? = some s := by
  obtain ⟨hlt, -⟩ := Array.getElem?_eq_some_iff.mp hi
  rcases (hp.all_slots i).mpr hlt with hmem | hmem
  · have hentry := mem_entries_of_slot hmem hi
    exact (slot_of_mem_entries hq (he _ hentry rfl)).trans
      ((slot_of_mem_entries hp hentry).symm.trans hi)
  · have hspare := mem_spares_of_slot hmem hi
    exact (slot_of_mem_spares hq (hs _ hspare rfl)).trans
      ((slot_of_mem_spares hp hspare).symm.trans hi)

/-- What is listed for a slot is all there is to it. -/
theorem getElem?_slots_eq (hp : p.Shaped) (hq : q.Shaped) (hcap : p.capacity = q.capacity) {i : Nat}
    (he : ∀ e ∈ p.entries, e.1.index = i → e ∈ q.entries)
    (hs : ∀ e ∈ p.spares, e.1.index = i → e ∈ q.spares) : p.slots[i]? = q.slots[i]? := by
  cases h : p.slots[i]? with
  | some s => exact (getElem?_slots_of_mem hp hq he hs h).symm
  | none =>
    have hge : q.capacity ≤ i := hcap ▸ Array.getElem?_eq_none_iff.mp h
    exact (Array.getElem?_eq_none hge).symm

/-- The two lists are all there is to a pool. -/
theorem eq_of_entries_spares (hp : p.Shaped) (hq : q.Shaped) (he : p.entries = q.entries)
    (hs : p.spares = q.spares) : p = q := by
  have hactive : p.active = q.active := by
    rw [← map_index_entries hp, he, map_index_entries hq]
  have havailable : p.available = q.available := by
    rw [← map_index_spares hp, hs, map_index_spares hq]
  have hslots : p.slots = q.slots := by
    apply Array.ext_getElem?
    intro i
    apply Option.ext
    intro s
    exact ⟨getElem?_slots_of_mem hp hq (fun e h _ => he ▸ h) fun e h _ => hs ▸ h,
      getElem?_slots_of_mem hq hp (fun e h _ => he ▸ h) fun e h _ => hs ▸ h⟩
  obtain ⟨slots, available, active⟩ := p
  subst hslots havailable hactive
  rfl

/-! ## Writing a finger -/

private theorem filterMap_entryAt?_congr {l : List Nat}
    (hl : ∀ i ∈ l, p.slots[i]? = q.slots[i]?) :
    l.filterMap p.entryAt? = l.filterMap q.entryAt? := by
  apply List.filterMap_congr
  intro i hi
  rw [entryAt?, entryAt?, hl i hi]

private theorem filterMap_spareAt?_congr {l : List Nat}
    (hl : ∀ i ∈ l, p.slots[i]? = q.slots[i]?) :
    l.filterMap p.spareAt? = l.filterMap q.spareAt? := by
  apply List.filterMap_congr
  intro i hi
  rw [spareAt?, spareAt?, hl i hi]

theorem getElem?_set_ne {slots : Array Slot} {i j : Nat} (s : Slot) (hij : j ≠ i) :
    (slots.setIfInBounds i s)[j]? = slots[j]? := by
  rw [Array.getElem?_setIfInBounds, if_neg fun he => hij he.symm]

theorem getElem?_set_eq {slots : Array Slot} {i : Nat} {s : Slot} (u : Slot)
    (hs : slots[i]? = some s) : (slots.setIfInBounds i u)[i]? = some u := by
  obtain ⟨hi, -⟩ := Array.getElem?_eq_some_iff.mp hs
  rw [Array.getElem?_setIfInBounds, if_pos rfl, if_pos hi]

theorem set_of_slot? {s : Slot} (hs : p.slot? h = some s) (f : Finger) :
    p.set h f = { p with slots := p.slots.setIfInBounds h.index { s with finger := f } } := by
  rw [set, hs]

/-- Writing to a stale handle is passed over. -/
theorem set_of_stale (hh : p.slot? h = none) (f : Finger) : p.set h f = p := by
  rw [set, hh]

@[simp] theorem active_set (p : Pool) (h : Handle) (f : Finger) :
    (p.set h f).active = p.active := by
  unfold set
  split <;> rfl

@[simp] theorem available_set (p : Pool) (h : Handle) (f : Finger) :
    (p.set h f).available = p.available := by
  unfold set
  split <;> rfl

@[simp] theorem capacity_set (p : Pool) (h : Handle) (f : Finger) :
    (p.set h f).capacity = p.capacity := by
  unfold set
  split
  next => rw [capacity, capacity, Array.size_setIfInBounds]
  next => rfl

/-- Replacing a finger touches neither list, nor a flag or a generation. -/
theorem shaped_set (hp : p.Shaped) (h : Handle) (f : Finger) : (p.set h f).Shaped := by
  refine ⟨by simpa using hp.active_nodup, by simpa using hp.available_nodup,
    by simpa using hp.not_both, by simpa using hp.all_slots, ?_⟩
  intro i u hu
  rw [active_set]
  cases hs : p.slot? h with
  | none =>
    rw [set_of_stale hs] at hu
    exact hp.flagged i u hu
  | some s =>
    obtain ⟨hi, -, -⟩ := slot?_eq_some_iff.mp hs
    rw [set_of_slot? hs] at hu
    by_cases hih : i = h.index
    · subst hih
      rw [getElem?_set_eq _ hi, Option.some_inj] at hu
      subst hu
      exact hp.flagged _ s hi
    · rw [getElem?_set_ne _ hih] at hu
      exact hp.flagged i u hu

/-- Writing a finger changes the entry of its handle and nothing else. -/
theorem entries_set (hp : p.Shaped) (h : Handle) (f : Finger) :
    (p.set h f).entries = p.entries.map fun e => (e.1, if e.1 = h then f else e.2) := by
  rw [entries, entries, active_set, List.map_filterMap]
  apply List.filterMap_congr
  intro i hi
  obtain ⟨u, hu⟩ := exists_slot hp (Or.inl hi)
  have hact := (hp.flagged i u hu).mpr hi
  unfold entryAt?
  cases hs : p.slot? h with
  | none =>
    -- nothing is written, and no entry stands behind a stale handle
    have hne : (⟨i, u.generation⟩ : Handle) ≠ h := by
      intro heq
      subst heq
      rw [slot?_eq_some_iff.mpr ⟨hu, hact, rfl⟩] at hs
      exact absurd hs (by simp)
    rw [set_of_stale hs, hu]
    simp only [Option.map_some, if_neg hne]
  | some s =>
    obtain ⟨hi', -, hg⟩ := slot?_eq_some_iff.mp hs
    rw [set_of_slot? hs]
    by_cases hih : i = h.index
    · subst hih
      obtain rfl : s = u := Option.some_inj.mp (hi'.symm.trans hu)
      rw [getElem?_set_eq _ hu, hu]
      simp only [Option.map_some, hg, if_pos]
    · have hne : (⟨i, u.generation⟩ : Handle) ≠ h := fun he => hih (congrArg Handle.index he)
      rw [getElem?_set_ne _ hih, hu]
      simp only [Option.map_some, if_neg hne]

/-- The entry written stays in its place. -/
theorem entries_set_at (hp : p.Shaped) {done rest : List (Handle × Finger)}
    (he : p.entries = done ++ (h, f) :: rest) (g : Finger) :
    (p.set h g).entries = done ++ (h, g) :: rest := by
  have hne := handle_ne_of_entries hp he
  have hkeep : ∀ l : List (Handle × Finger), (∀ e ∈ l, e.1 ≠ h) →
      l.map (fun e => (e.1, if e.1 = h then g else e.2)) = l := by
    intro l hl
    conv => rhs; rw [← List.map_id l]
    apply List.map_congr_left
    intro e hmem
    rw [if_neg (hl e hmem)]
    rfl
  rw [entries_set hp, he, List.map_append, List.map_cons, if_pos rfl,
    hkeep done fun e hmem => hne e (List.mem_append_left _ hmem),
    hkeep rest fun e hmem => hne e (List.mem_append_right _ hmem)]

/-- Writing back what was read changes nothing. -/
theorem set_eq_self (hg : p.get? h = some f) : p.set h f = p := by
  obtain ⟨s, hs, rfl⟩ := Option.map_eq_some_iff.mp hg
  obtain ⟨hsi, -, -⟩ := slot?_eq_some_iff.mp hs
  have hslots : p.slots.setIfInBounds h.index { s with finger := s.finger } = p.slots := by
    apply Array.ext_getElem?
    intro i
    by_cases hi : i = h.index
    · subst hi
      rw [getElem?_set_eq _ hsi, hsi]
    · exact getElem?_set_ne _ hi
  rw [set_of_slot? hs, hslots]

/-- The free slots are out of reach: no handle is good for them. -/
theorem spares_set (hp : p.Shaped) (h : Handle) (f : Finger) : (p.set h f).spares = p.spares := by
  rw [spares, spares, available_set]
  apply filterMap_spareAt?_congr
  intro i hi
  cases hs : p.slot? h with
  | none => rw [set_of_stale hs]
  | some s =>
    obtain ⟨hsi, hact, -⟩ := slot?_eq_some_iff.mp hs
    have hne : i ≠ h.index := by
      intro heq
      subst heq
      exact hp.not_both _ ((hp.flagged _ _ hsi).mp hact) hi
    rw [set_of_slot? hs]
    exact getElem?_set_ne _ hne

/-! ## Taking a slot -/

/-- A slot can be taken as long as one is free. -/
theorem take?_eq_none_iff (hp : p.Shaped) : p.take? = none ↔ p.spares = [] := by
  rw [← List.length_eq_zero_iff, length_spares hp, List.length_eq_zero_iff]
  unfold take?
  split
  next hav => simp [hav]
  next i rest hav =>
    obtain ⟨s, hs⟩ := exists_slot hp (i := i) (Or.inr (hav ▸ List.mem_cons_self ..))
    rw [hs, hav]
    simp

/-- Taking the first free slot leaves the bookkeeping in order. -/
theorem shaped_opened (hp : p.Shaped) {i : Nat} {av : List Nat} {s : Slot}
    (hav : p.available = i :: av) (hsi : p.slots[i]? = some s) :
    Shaped
      { slots := p.slots.setIfInBounds i s.opened, available := av, active := p.active ++ [i] } := by
  have hia : i ∉ p.active := fun ha => hp.not_both i ha (hav ▸ List.mem_cons_self ..)
  obtain ⟨hiav, hnd⟩ := List.nodup_cons.mp (hav ▸ hp.available_nodup)
  refine ⟨?_, hnd, ?_, ?_, ?_⟩
  · refine List.nodup_append.mpr ⟨hp.active_nodup, by simp, ?_⟩
    intro a ha b hb heq
    subst heq
    exact hia (List.mem_singleton.mp hb ▸ ha)
  · intro j hj hjav
    rcases List.mem_append.mp hj with hj | hj
    · exact hp.not_both j hj (hav ▸ List.mem_cons_of_mem _ hjav)
    · exact hiav (List.mem_singleton.mp hj ▸ hjav)
  · intro j
    show j ∈ p.active ++ [i] ∨ j ∈ av ↔ j < (p.slots.setIfInBounds i s.opened).size
    rw [Array.size_setIfInBounds, show p.slots.size = p.capacity from rfl, ← hp.all_slots, hav]
    simp only [List.mem_append, List.mem_cons, List.not_mem_nil, or_false, or_assoc]
  · intro j u hu
    show u.active = true ↔ j ∈ p.active ++ [i]
    by_cases hji : j = i
    · subst hji
      rw [getElem?_set_eq _ hsi, Option.some_inj] at hu
      subst hu
      simp [Slot.opened]
    · rw [getElem?_set_ne _ hji] at hu
      rw [hp.flagged j u hu]
      simp [hji]

/-- Taking a slot moves the first spare finger to the end of the active ones. -/
theorem take?_spec (hp : p.Shaped) {rest : List (Handle × Finger)}
    (hs : p.spares = (h, f) :: rest) :
    ∃ q, p.take? = some (h, q) ∧ q.Shaped ∧ q.capacity = p.capacity ∧
      q.entries = p.entries ++ [(h, f.opened)] ∧ q.spares = rest := by
  have hix := map_index_spares hp
  rw [hs, List.map_cons] at hix
  obtain ⟨i, av, hav⟩ : ∃ i av, p.available = i :: av := ⟨_, _, hix.symm⟩
  have hi : i ∈ p.available := hav ▸ List.mem_cons_self ..
  have hia : i ∉ p.active := fun ha => hp.not_both i ha hi
  have hiav : i ∉ av := (List.nodup_cons.mp (hav ▸ hp.available_nodup)).1
  obtain ⟨s, hsi⟩ := exists_slot hp (Or.inr hi)
  -- the first spare is what stands in the slot that has been free the longest
  have hspare : p.spareAt? i = some (⟨i, s.generation + 1⟩, s.finger) := by
    rw [spareAt?, hsi]
    rfl
  rw [spares, hav, List.filterMap_cons_some hspare, List.cons.injEq, Prod.mk.injEq] at hs
  obtain ⟨⟨rfl, rfl⟩, rfl⟩ := hs
  refine ⟨{ slots := p.slots.setIfInBounds i s.opened, available := av, active := p.active ++ [i] },
    by rw [take?, hav]; simp only [hsi], shaped_opened hp hav hsi, Array.size_setIfInBounds, ?_, ?_⟩
  · rw [entries, List.filterMap_append, entries]
    congr 1
    · apply filterMap_entryAt?_congr
      intro j hj
      exact getElem?_set_ne _ fun he => hia (he ▸ hj)
    · apply List.filterMap_cons_some
      rw [entryAt?, getElem?_set_eq _ hsi]
      rfl
  · apply filterMap_spareAt?_congr
    intro j hj
    exact getElem?_set_ne _ fun he => hiav (he ▸ hj)

/-! ## Freeing a slot -/

/-- A handle that is good for no slot frees nothing, and this is noted. -/
theorem free_of_stale (hh : p.slot? h = none) :
    p.free? h = none ∧ p.free h = (p, [.staleHandle h]) := by
  have hfree : p.free? h = none := by rw [free?, hh]
  exact ⟨hfree, by rw [free, hfree]⟩

/-- Freeing the slot of a live handle leaves the bookkeeping in order. -/
theorem shaped_closed (hp : p.Shaped) {s : Slot} (hs : p.slot? h = some s) :
    Shaped
      { slots := p.slots.setIfInBounds h.index s.closed
        available := p.available ++ [h.index]
        active := p.active.filter (· != h.index) } := by
  obtain ⟨hsi, hact, -⟩ := slot?_eq_some_iff.mp hs
  have hia : h.index ∈ p.active := (hp.flagged _ _ hsi).mp hact
  have hiav : h.index ∉ p.available := hp.not_both _ hia
  refine ⟨hp.active_nodup.filter _, ?_, ?_, ?_, ?_⟩
  · refine List.nodup_append.mpr ⟨hp.available_nodup, by simp, ?_⟩
    intro a ha b hb heq
    subst heq
    exact hiav (List.mem_singleton.mp hb ▸ ha)
  · intro j hj hjav
    obtain ⟨hj, hjh⟩ := List.mem_filter.mp hj
    rcases List.mem_append.mp hjav with hjav | hjav
    · exact hp.not_both j hj hjav
    · rw [List.mem_singleton.mp hjav] at hjh
      simp at hjh
  · intro j
    show j ∈ p.active.filter (· != h.index) ∨ j ∈ p.available ++ [h.index] ↔
      j < (p.slots.setIfInBounds h.index s.closed).size
    rw [Array.size_setIfInBounds, show p.slots.size = p.capacity from rfl, ← hp.all_slots]
    by_cases hj : j = h.index
    · simp [hj, hia]
    · simp [hj]
  · intro j u hu
    show u.active = true ↔ j ∈ p.active.filter (· != h.index)
    by_cases hj : j = h.index
    · subst hj
      rw [getElem?_set_eq _ hsi, Option.some_inj] at hu
      subst hu
      simp [Slot.closed]
    · rw [getElem?_set_ne _ hj] at hu
      rw [hp.flagged j u hu]
      simp [hj]

/-- Freeing a slot moves its finger from the active ones to the end of the spare ones. -/
theorem free_spec (hp : p.Shaped) (he : (h, f) ∈ p.entries) :
    ∃ q, p.free h = (q, []) ∧ q.Shaped ∧ q.capacity = p.capacity ∧
      q.entries = p.entries.filter (·.1 ≠ h) ∧ q.spares = p.spares ++ [(h.next, f.closed)] := by
  obtain ⟨s, hs, hf⟩ := Option.map_eq_some_iff.mp ((get?_eq_some_iff hp).mpr he)
  obtain ⟨hsi, hact, hg⟩ := slot?_eq_some_iff.mp hs
  have hiav : h.index ∉ p.available := hp.not_both _ ((hp.flagged _ _ hsi).mp hact)
  refine ⟨_, by rw [free, free?, hs], shaped_closed hp hs, Array.size_setIfInBounds, ?_, ?_⟩
  · -- slots are filtered by their index, entries by their handle: only one entry has the index
    rw [entries, entries, List.filterMap_filter, List.filter_filterMap]
    apply List.filterMap_congr
    intro j hj
    obtain ⟨u, hu⟩ := exists_slot hp (Or.inl hj)
    have hentry : p.entryAt? j = some (⟨j, u.generation⟩, u.finger) := by
      rw [entryAt?, hu]
      rfl
    rw [hentry, Option.filter_some]
    by_cases hjh : j = h.index
    · subst hjh
      obtain rfl : s = u := Option.some_inj.mp (hsi.symm.trans hu)
      simp [hg]
    · have hne : (⟨j, u.generation⟩ : Handle) ≠ h := fun he => hjh (congrArg Handle.index he)
      rw [entryAt?, getElem?_set_ne _ hjh, hu]
      simp [hjh, hne]
  · rw [spares, List.filterMap_append, spares]
    congr 1
    · apply filterMap_spareAt?_congr
      intro j hj
      exact getElem?_set_ne _ fun he => hiav (he ▸ hj)
    · apply List.filterMap_cons_some
      rw [spareAt?, getElem?_set_eq _ hsi, ← hf]
      simp [Slot.closed, Finger.closed, Handle.next, hg]

/-- The same, with the place of the finger among the entries. -/
theorem free_at (hp : p.Shaped) {done rest : List (Handle × Finger)}
    (he : p.entries = done ++ (h, f) :: rest) :
    ∃ q, p.free h = (q, []) ∧ q.Shaped ∧ q.capacity = p.capacity ∧
      q.entries = done ++ rest ∧ q.spares = p.spares ++ [(h.next, f.closed)] := by
  have hmem : (h, f) ∈ p.entries := he ▸ List.mem_append_right _ (List.mem_cons_self ..)
  obtain ⟨q, hfree, hq, hcap, hent, hspare⟩ := free_spec hp hmem
  refine ⟨q, hfree, hq, hcap, ?_, hspare⟩
  have hne := handle_ne_of_entries hp he
  rw [hent, he, List.filter_append, List.filter_cons_of_neg (by simp), ← List.filter_append,
    List.filter_eq_self.mpr fun e hmem => decide_eq_true (hne e hmem)]

/-- Freeing the last active fingers one after the other leaves the others, without a complaint. -/
theorem freeEach_spec :
    ∀ {p : Pool} {kept gone : List (Handle × Finger)}, p.Shaped → p.entries = kept ++ gone →
      ∃ q, p.freeEach (gone.map (·.1)) = (q, []) ∧ q.Shaped ∧ q.capacity = p.capacity ∧
        q.entries = kept ∧ q.spares = p.spares ++ gone.map fun e => (e.1.next, e.2.closed)
  | p, kept, [], hp, he => ⟨p, rfl, hp, rfl, by simpa using he, by simp⟩
  | p, kept, (h, f) :: gone, hp, he => by
    obtain ⟨q, hfree, hq, hcap, hent, hspare⟩ := free_at hp he
    obtain ⟨r, hfrees, hr, hcap', hent', hspare'⟩ := freeEach_spec hq hent
    refine ⟨r, ?_, hr, hcap'.trans hcap, hent', ?_⟩
    · rw [List.map_cons, freeEach, hfree, hfrees]
      rfl
    · rw [hspare', hspare, List.append_assoc, List.map_cons]
      rfl

/-- Giving everything back empties the entries, without a complaint. -/
theorem freeAll_spec (hp : p.Shaped) :
    ∃ q, p.freeAll = (q, []) ∧ q.Shaped ∧ q.capacity = p.capacity ∧
      q.entries = [] ∧ q.spares = p.spares ++ p.entries.map fun e => (e.1.next, e.2.closed) := by
  rw [freeAll, handles_eq]
  exact freeEach_spec hp (List.nil_append _).symm

/-! ## A new pool -/

/-- A new pool has all its slots in the queue, in their order. -/
theorem shaped_ofTrail (n : Nat) (t : Trail) : (ofTrail n t).Shaped := by
  refine ⟨List.nodup_nil, List.nodup_range, by simp [ofTrail], ?_, ?_⟩
  · intro i
    simp [ofTrail, capacity]
  · intro i s hs
    obtain ⟨hi, rfl⟩ := Array.getElem?_eq_some_iff.mp hs
    simp [ofTrail]

@[simp] theorem capacity_ofTrail (n : Nat) (t : Trail) : (ofTrail n t).capacity = n := by
  simp [ofTrail, capacity]

@[simp] theorem entries_ofTrail (n : Nat) (t : Trail) : (ofTrail n t).entries = [] := rfl

/-- The generation of a slot is 1 when it is taken for the first time. -/
theorem spares_ofTrail (n : Nat) (t : Trail) :
    (ofTrail n t).spares = (List.range n).map fun i => (⟨i, 1⟩, Finger.fresh t) := by
  show (List.range n).filterMap (ofTrail n t).spareAt? = _
  rw [← List.filterMap_eq_map]
  apply List.filterMap_congr
  intro i hi
  have hin : i < n := List.mem_range.mp hi
  simp [spareAt?, ofTrail, hin]

end Pool

end FingerTracking
