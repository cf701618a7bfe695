import FingerTracking.Proofs.Claims
import FingerTracking.Proofs.FingerLife

/-!
# The fingers that start in a frame

Spawning goes over the contacts that are left and starts a finger for each one that qualifies,
while there are spare ones. `arrivals` says which: a list computed from the contacts, the spare
fingers and the next id, without a pool or a table.

> `spawnFrom_spec`: spawning adds the `arrivals` to the entries, takes as many spares from the
> front, counts up the next id and marks the new fingers in the table.
>
> `entries_arrivals`: the list without the recursion, each contact that qualifies with its spare.

What is true of the list is then true of every frame: the contacts come in order and qualify, the
ids count up from the next id, and there are no more than there are spares.
-/

namespace FingerTracking

open MatchTable

namespace Matching

variable {now : Timestamp} {threshold : Int32}

/-! ## Starting new fingers -/

/-- A finger that starts in a frame, at the contact with this index. -/
structure Arrived where
  index : Nat
  handle : Handle
  finger : Finger

def Arrived.entry (a : Arrived) : Handle × Finger :=
  (a.handle, a.finger)

theorem qualifies_iff {threshold : Int32} {c : Contact} :
    qualifies threshold c = true ↔ c.isAbsent = false ∧ ¬ c.weight < threshold := by
  rw [qualifies, Bool.and_eq_true, Bool.not_eq_true', decide_eq_true_eq, Int32.not_lt]

/-- A contact that was claimed starts no finger, however light the threshold is. -/
theorem not_qualifies_of_isAbsent {threshold : Int32} {c : Contact} (hc : c.isAbsent = true) :
    ¬ qualifies threshold c = true := by
  intro hq
  exact absurd (qualifies_iff.mp hq).1 (by simp [hc])

/-- The finger that a contact starts, if it qualifies and there is a spare one. -/
def arrival? (threshold : Int32) (now : Timestamp) (j : Nat) (c : Contact)
    (spares : List (Handle × Finger)) (id : UInt32) (tries : Nat) : Option Arrived :=
  if qualifies threshold c then
    spares.head?.map fun e => ⟨j, e.1, started e.2.opened id c (staggered now tries)⟩
  else none

/-- The fingers that start in a frame, in the order of their contacts. -/
def arrivals (threshold : Int32) (now : Timestamp) :
    Nat → List Contact → List (Handle × Finger) → UInt32 → Nat → List Arrived
  | _, [], _, _, _ => []
  | j, c :: cs, spares, id, tries =>
    match arrival? threshold now j c spares id tries with
    | some a => a :: arrivals threshold now (j + 1) cs spares.tail (id + 1) (tries + 1)
    | none =>
      arrivals threshold now (j + 1) cs spares id
        (if qualifies threshold c then tries + 1 else tries)

section Arrivals

variable {j tries : Nat} {c : Contact} {cs : List Contact} {spares : List (Handle × Finger)}
variable {id : UInt32} {a : Arrived}

/-- An arrival takes the slot that comes next, with a stamp for its place among those that tried. -/
theorem arrival?_eq_some_iff :
    arrival? threshold now j c spares id tries = some a ↔
      qualifies threshold c = true ∧ ∃ e rest, spares = e :: rest ∧
        a = ⟨j, e.1, started e.2.opened id c (staggered now tries)⟩ := by
  unfold arrival?
  by_cases hq : qualifies threshold c = true
  · cases spares with
    | nil => simp
    | cons e rest => simp [hq, eq_comm]
  · simp [hq]

/-- Without an arrival the contact did not qualify, or there was no slot. -/
theorem arrival?_eq_none_iff :
    arrival? threshold now j c spares id tries = none ↔
      ¬ qualifies threshold c = true ∨ spares = [] := by
  unfold arrival?
  by_cases hq : qualifies threshold c = true
  · cases spares <;> simp [hq]
  · simp [hq]

/-- What one contact leaves to the next: a slot less and an id more if it arrives, and one try more
if it qualifies. -/
theorem arrivals_cons (threshold : Int32) (now : Timestamp) (j : Nat) (c : Contact)
    (cs : List Contact) (spares : List (Handle × Finger)) (id : UInt32) (tries : Nat) :
    arrivals threshold now j (c :: cs) spares id tries =
      (arrival? threshold now j c spares id tries).toList ++
        arrivals threshold now (j + 1) cs
          (spares.drop (arrival? threshold now j c spares id tries).toList.length)
          (id + UInt32.ofNat (arrival? threshold now j c spares id tries).toList.length)
          (if qualifies threshold c then tries + 1 else tries) := by
  rw [arrivals]
  cases ha : arrival? threshold now j c spares id tries with
  | none => simp
  | some a =>
    obtain ⟨hq, -⟩ := arrival?_eq_some_iff.mp ha
    simp [hq]

/-- The contacts of the new fingers come in order, from the `j`-th on. -/
theorem arrivals_index_lt :
    ∀ (cs : List Contact) (j : Nat) (spares : List (Handle × Finger)) (id : UInt32) (tries : Nat),
      ∀ a ∈ arrivals threshold now j cs spares id tries, j ≤ a.index ∧ a.index < j + cs.length
  | [], _, _, _, _, a, ha => nomatch ha
  | c :: cs, j, spares, id, tries, a, ha => by
    rw [arrivals_cons] at ha
    rcases List.mem_append.mp ha with ha | ha
    · obtain ⟨-, e, rest, -, rfl⟩ := arrival?_eq_some_iff.mp (Option.mem_toList.mp ha)
      simp
    · have h := arrivals_index_lt cs _ _ _ _ a ha
      rw [List.length_cons]
      omega

theorem arrivals_index_pairwise :
    ∀ (cs : List Contact) (j : Nat) (spares : List (Handle × Finger)) (id : UInt32) (tries : Nat),
      (arrivals threshold now j cs spares id tries).Pairwise (·.index < ·.index)
  | [], _, _, _, _ => List.Pairwise.nil
  | c :: cs, j, spares, id, tries => by
    rw [arrivals_cons]
    refine List.pairwise_append.mpr ⟨?_, arrivals_index_pairwise cs _ _ _ _, ?_⟩
    · cases arrival? threshold now j c spares id tries <;> simp
    · intro a ha b hb
      obtain ⟨-, e, rest, -, rfl⟩ := arrival?_eq_some_iff.mp (Option.mem_toList.mp ha)
      exact (arrivals_index_lt cs _ _ _ _ b hb).1

/-- A new finger stands at a contact that qualifies, in a slot that was spare. -/
theorem arrivals_started :
    ∀ (cs : List Contact) (j : Nat) (spares : List (Handle × Finger)) (id : UInt32) (tries : Nat),
      ∀ a ∈ arrivals threshold now j cs spares id tries,
        ∃ c e time id', cs[a.index - j]? = some c ∧ qualifies threshold c = true ∧ e ∈ spares ∧
          a.handle = e.1 ∧ a.finger = started e.2.opened id' c time
  | [], _, _, _, _, a, ha => nomatch ha
  | c :: cs, j, spares, id, tries, a, ha => by
    rw [arrivals_cons] at ha
    rcases List.mem_append.mp ha with ha | ha
    · obtain ⟨hq, e, rest, rfl, rfl⟩ := arrival?_eq_some_iff.mp (Option.mem_toList.mp ha)
      exact ⟨c, e, _, _, by simp, hq, List.mem_cons_self .., rfl, rfl⟩
    · obtain ⟨d, e, time, id', hd, hq, he, hh, hf⟩ := arrivals_started cs _ _ _ _ a ha
      have hlt := (arrivals_index_lt cs _ _ _ _ a ha).1
      refine ⟨d, e, time, id', ?_, hq, List.mem_of_mem_drop he, hh, hf⟩
      rw [show a.index - j = (a.index - (j + 1)) + 1 by omega, List.getElem?_cons_succ]
      exact hd

/-- The `i`-th finger to start stands at the `i`-th contact that qualifies, in the `i`-th spare
slot. Once there is no spare finger for a try, there are no more new fingers, so the tries count
them. -/
theorem entries_arrivals :
    ∀ (cs : List Contact) (j : Nat) (spares : List (Handle × Finger)) (id : UInt32) (tries : Nat),
      (arrivals threshold now j cs spares id tries).map (·.entry) =
        ((cs.filter (qualifies threshold)).zip spares).mapIdx fun i x =>
          (x.2.1, started x.2.2.opened (id + UInt32.ofNat i) x.1 (staggered now (tries + i)))
  | [], _, _, _, _ => rfl
  | c :: cs, j, spares, id, tries => by
    rw [arrivals_cons, List.map_append, entries_arrivals cs]
    by_cases hq : qualifies threshold c = true
    · rw [List.filter_cons_of_pos hq, if_pos hq]
      cases spares with
      | nil => simp [arrival?_eq_none_iff.mpr (Or.inr rfl)]
      | cons e rest =>
        -- the fingers behind the first one count from the next id and the next try
        have hrest : (fun (i : Nat) (x : Contact × (Handle × Finger)) =>
            (x.2.1, started x.2.2.opened (id + UInt32.ofNat 1 + UInt32.ofNat i) x.1
              (staggered now (tries + 1 + i)))) =
            fun i x => (x.2.1, started x.2.2.opened (id + UInt32.ofNat (i + 1)) x.1
              (staggered now (tries + (i + 1)))) := by
          funext i x
          rw [UInt32.add_assoc, ← UInt32.ofNat_add, Nat.add_assoc, Nat.add_comm 1 i]
        rw [arrival?_eq_some_iff.mpr ⟨hq, e, rest, rfl, rfl⟩, Option.toList_some,
          List.length_singleton, List.drop_one, List.tail_cons, List.zip_cons_cons,
          List.mapIdx_cons, hrest, show UInt32.ofNat 0 = 0 from rfl, UInt32.add_zero]
        rfl
    · rw [List.filter_cons_of_neg hq, if_neg hq, arrival?_eq_none_iff.mpr (Or.inl hq)]
      simp

/-- As many fingers start as there are contacts that qualify, or as many as there are slots. -/
theorem length_arrivals (threshold : Int32) (now : Timestamp) (cs : List Contact) (j : Nat)
    (spares : List (Handle × Finger)) (id : UInt32) (tries : Nat) :
    (arrivals threshold now j cs spares id tries).length =
      min (cs.countP (qualifies threshold)) spares.length := by
  rw [← List.length_map Arrived.entry, entries_arrivals, List.length_mapIdx, List.length_zip,
    List.countP_eq_length_filter]

/-- The first sample of a new finger is as many milliseconds late as there are tries before it. Once
there is no spare finger for a try, there are no more new fingers, so the tries count them. -/
theorem arrivals_stamped :
    ∀ (cs : List Contact) (j : Nat) (spares : List (Handle × Finger)) (id : UInt32) (tries : Nat)
      {i : Nat} {a : Arrived}, (arrivals threshold now j cs spares id tries)[i]? = some a →
        ∃ c ∈ cs, ∃ e ∈ spares, ∃ id', a.handle = e.1 ∧
          a.finger = started e.2.opened id' c (staggered now (tries + i))
  | [], _, _, _, _, _, _, ha => nomatch ha
  | c :: cs, j, spares, id, tries, i, a, ha => by
    rw [arrivals_cons] at ha
    cases hc : arrival? threshold now j c spares id tries with
    | some d =>
      obtain ⟨hq, e, rest, rfl, rfl⟩ := arrival?_eq_some_iff.mp hc
      rw [hc, Option.toList_some, List.length_singleton, if_pos hq, List.drop_one, List.tail_cons,
        List.singleton_append] at ha
      cases i with
      | zero =>
        obtain rfl := Option.some_inj.mp ha
        exact ⟨c, List.mem_cons_self .., e, List.mem_cons_self .., id, rfl, rfl⟩
      | succ i =>
        obtain ⟨d, hd, g, hg, id', hh, hf⟩ := arrivals_stamped cs _ _ _ _ ha
        rw [Nat.add_right_comm, Nat.add_assoc] at hf
        exact ⟨d, List.mem_cons_of_mem _ hd, g, List.mem_cons_of_mem _ hg, id', hh, hf⟩
    | none =>
      rw [hc, Option.toList_none, List.nil_append, List.length_nil, List.drop_zero] at ha
      obtain ⟨d, hd, g, hg, id', hh, hf⟩ := arrivals_stamped cs _ _ _ _ ha
      have hq : ¬ qualifies threshold c = true := by
        rcases arrival?_eq_none_iff.mp hc with hq | hnil
        · exact hq
        · rw [hnil] at hg
          exact nomatch hg
      rw [if_neg hq] at hf
      exact ⟨d, List.mem_cons_of_mem _ hd, g, hg, id', hh, hf⟩

/-- The ids count up from the next one. -/
theorem arrivals_ids :
    ∀ (cs : List Contact) (j : Nat) (spares : List (Handle × Finger)) (id : UInt32) (tries : Nat),
      (arrivals threshold now j cs spares id tries).map (·.finger.id) =
        (List.range (arrivals threshold now j cs spares id tries).length).map
          fun i => id + UInt32.ofNat i
  | [], _, _, _, _ => rfl
  | c :: cs, j, spares, id, tries => by
    have ih := arrivals_ids cs (j + 1)
    rw [arrivals_cons]
    cases ha : arrival? threshold now j c spares id tries with
    | none => simpa using ih spares id (if qualifies threshold c then tries + 1 else tries)
    | some a =>
      obtain ⟨hq, e, rest, rfl, rfl⟩ := arrival?_eq_some_iff.mp ha
      rw [Option.toList_some, List.length_singleton, List.singleton_append, List.map_cons, ih,
        List.length_cons, List.range_succ_eq_map, List.map_cons, List.map_map]
      congr 1
      · exact (UInt32.add_zero id).symm
      · apply List.map_congr_left
        intro i _
        show id + UInt32.ofNat 1 + UInt32.ofNat i = id + UInt32.ofNat (i + 1)
        rw [Nat.add_comm i 1, UInt32.ofNat_add, UInt32.add_assoc]

/-- The slots are the first of the spare ones. -/
theorem arrivals_handles :
    ∀ (cs : List Contact) (j : Nat) (spares : List (Handle × Finger)) (id : UInt32) (tries : Nat),
      (arrivals threshold now j cs spares id tries).map (·.handle) =
        (spares.map (·.1)).take (arrivals threshold now j cs spares id tries).length
  | [], _, _, _, _ => rfl
  | c :: cs, j, spares, id, tries => by
    have ih := arrivals_handles cs (j + 1)
    rw [arrivals_cons]
    cases ha : arrival? threshold now j c spares id tries with
    | none => simpa using ih spares id (if qualifies threshold c then tries + 1 else tries)
    | some a =>
      obtain ⟨hq, e, rest, rfl, rfl⟩ := arrival?_eq_some_iff.mp ha
      rw [Option.toList_some, List.length_singleton, List.singleton_append, List.map_cons, ih,
        List.length_cons, List.map_cons, List.take_succ_cons]
      rfl

/-- What the first contacts leave to the others. -/
theorem arrivals_append (threshold : Int32) (now : Timestamp) :
    ∀ (xs ys : List Contact) (j : Nat) (spares : List (Handle × Finger)) (id : UInt32)
      (tries : Nat),
      arrivals threshold now j (xs ++ ys) spares id tries =
        arrivals threshold now j xs spares id tries ++
          arrivals threshold now (j + xs.length) ys
            (spares.drop (arrivals threshold now j xs spares id tries).length)
            (id + UInt32.ofNat (arrivals threshold now j xs spares id tries).length)
            (tries + xs.countP (qualifies threshold))
  | [], ys, j, spares, id, tries => by
    simp only [arrivals, List.nil_append, List.length_nil, List.drop_zero, Nat.add_zero,
      List.countP_nil]
    rw [show id + UInt32.ofNat 0 = id from UInt32.add_zero id]
  | c :: xs, ys, j, spares, id, tries => by
    rw [List.cons_append, arrivals_cons, arrivals_append threshold now xs ys, arrivals_cons,
      List.append_assoc, List.length_append, List.drop_drop, UInt32.add_assoc,
      ← UInt32.ofNat_add, List.length_cons, Nat.add_right_comm j 1, Nat.add_assoc j,
      List.countP_cons]
    congr 3
    split <;> omega

end Arrivals

/-! ## Spawning starts the arrivals -/

/-- `r` is `s` with the fingers `new` started. -/
structure Grown (s : Spawning) (new : List Arrived) (r : Spawning) : Prop where
  shaped : r.pool.Shaped
  capacity_eq : r.pool.capacity = s.pool.capacity
  entries_eq : r.pool.entries = s.pool.entries ++ new.map (·.entry)
  spares_eq : r.pool.spares = s.pool.spares.drop new.length
  nextId_eq : r.nextId = s.nextId + UInt32.ofNat new.length
  count_eq : r.count = s.count + new.length
  size_eq : r.table.entries.size = s.table.entries.size
  untouched : ∀ i, (∀ a ∈ new, a.handle.index ≠ i) → r.table.entries[i]? = s.table.entries[i]?
  fresh : ∀ a ∈ new, r.table.get? a.handle = some .spawned

namespace Grown

variable {s r u : Spawning} {new more : List Arrived}

theorem same (hs : s.pool.Shaped) (hp : r.pool = s.pool) (ht : r.table = s.table)
    (hi : r.nextId = s.nextId) (hc : r.count = s.count) : Grown s [] r := by
  refine ⟨hp ▸ hs, by rw [hp], by simp [hp], by rw [hp]; rfl, ?_, by rw [hc]; rfl, by rw [ht],
    fun i _ => by rw [ht], fun a ha => nomatch ha⟩
  rw [hi]
  exact (UInt32.add_zero _).symm

/-- The entries of the fingers that were active before are as they were. -/
theorem old (h : Grown s new r) : ∀ e ∈ s.pool.entries, r.table.get? e.1 = s.table.get? e.1 := by
  have hn := Pool.nodup_index h.shaped
  rw [h.entries_eq, List.map_append, List.map_map, List.nodup_append] at hn
  intro e he
  have hsame := h.untouched e.1.index fun a ha heq =>
    hn.2.2 _ (List.mem_map_of_mem he) _ (List.mem_map_of_mem ha) heq.symm
  rw [get?, get?, hsame]

/-- The slots of the new fingers are the only ones that change. -/
theorem slots_eq (h : Grown s new r) (hs : s.pool.Shaped) {i : Nat}
    (hi : ∀ a ∈ new, a.handle.index ≠ i) : r.pool.slots[i]? = s.pool.slots[i]? := by
  apply Pool.getElem?_slots_eq h.shaped hs h.capacity_eq
  · intro e he hei
    rcases List.mem_append.mp (h.entries_eq ▸ he) with hold | hnew
    · exact hold
    · obtain ⟨a, ha, rfl⟩ := List.mem_map.mp hnew
      exact absurd hei (hi a ha)
  · exact fun e he _ => List.mem_of_mem_drop (h.spares_eq ▸ he)

theorem trans (h₁ : Grown s new r) (h₂ : Grown r more u) : Grown s (new ++ more) u := by
  refine ⟨h₂.shaped, h₂.capacity_eq.trans h₁.capacity_eq, ?_, ?_, ?_, ?_,
    h₂.size_eq.trans h₁.size_eq, ?_, ?_⟩
  · rw [h₂.entries_eq, h₁.entries_eq, List.append_assoc, List.map_append]
  · rw [h₂.spares_eq, h₁.spares_eq, List.drop_drop, List.length_append]
  · rw [h₂.nextId_eq, h₁.nextId_eq, UInt32.add_assoc, List.length_append, UInt32.ofNat_add]
  · rw [h₂.count_eq, h₁.count_eq, List.length_append, Nat.add_assoc]
  · intro i hi
    rw [h₂.untouched i fun a ha => hi a (List.mem_append_right _ ha),
      h₁.untouched i fun a ha => hi a (List.mem_append_left _ ha)]
  · intro a ha
    rcases List.mem_append.mp ha with ha | ha
    · have hmem : a.entry ∈ r.pool.entries :=
        h₁.entries_eq ▸ List.mem_append_right _ (List.mem_map_of_mem ha)
      exact (h₂.old a.entry hmem).trans (h₁.fresh a ha)
    · exact h₂.fresh a ha

end Grown

/-- One turn of spawning starts the finger that the contact stands for, if any. -/
theorem spawnOne_spec (threshold : Int32) (now : Timestamp) {s : Spawning} (hs : s.pool.Shaped)
    (hsize : s.pool.capacity ≤ s.table.entries.size) (j : Nat) (c : Contact) :
    Grown s (arrival? threshold now j c s.pool.spares s.nextId s.tries).toList
        (spawnOne threshold now s j c) ∧
      (spawnOne threshold now s j c).tries =
        if qualifies threshold c then s.tries + 1 else s.tries := by
  unfold spawnOne arrival?
  -- the cases of the program: no contact, too light, no slot, and the one that starts a finger
  by_cases ha : c.isAbsent = true
  · have hq : ¬ qualifies threshold c = true := fun hq =>
      absurd (qualifies_iff.mp hq).1 (by simp [ha])
    rw [if_pos ha, if_neg hq, if_neg hq]
    exact ⟨Grown.same hs rfl rfl rfl rfl, rfl⟩
  rw [if_neg ha]
  by_cases hw : c.weight < threshold
  · have hq : ¬ qualifies threshold c = true := fun hq => (qualifies_iff.mp hq).2 hw
    rw [if_pos hw, if_neg hq, if_neg hq]
    exact ⟨Grown.same hs rfl rfl rfl rfl, rfl⟩
  have hq : qualifies threshold c = true := qualifies_iff.mpr ⟨by simpa using ha, hw⟩
  rw [if_neg hw, if_pos hq, if_pos hq]
  cases hspare : s.pool.spares with
  | nil =>
    simp only [(Pool.take?_eq_none_iff hs).mpr hspare]
    exact ⟨Grown.same hs rfl rfl rfl rfl, trivial⟩
  | cons e rest =>
    obtain ⟨h, f⟩ := e
    obtain ⟨q, htake, hq, hcap, hent, hrest⟩ := Pool.take?_spec hs hspare
    have hget : q.get? h = some f.opened :=
      (Pool.get?_eq_some_iff hq).mpr (hent ▸ List.mem_append_right _ (List.mem_cons_self ..))
    -- the table has room for the slot, or the mark would be passed over
    have hlt : h.index < s.table.entries.size := by
      refine Nat.lt_of_lt_of_le ?_ hsize
      rw [← hcap]
      exact Pool.index_lt_capacity hq (Pool.mem_handles_iff.mpr
        ⟨_, (Pool.get?_eq_some_iff hq).mp hget⟩)
    simp only [htake, hget]
    refine ⟨⟨Pool.shaped_set hq _ _, ?_, ?_, ?_, rfl, rfl, size_set .., ?_, ?_⟩, trivial⟩
    · rw [Pool.capacity_set, hcap]
    · exact Pool.entries_set_at hq hent _
    · rw [Pool.spares_set hq, hrest, hspare]
      rfl
    · intro i hi
      have hne : h.index ≠ i := hi _ (List.mem_singleton_self _)
      exact (Array.getElem?_setIfInBounds ..).trans (if_neg hne)
    · intro a ha
      obtain rfl := List.mem_singleton.mp ha
      exact get?_set_self hlt _

/-- Starting fingers adds the `arrivals` to the entries. -/
theorem spawnFrom_spec (threshold : Int32) (now : Timestamp) :
    ∀ (cs : List Contact) (j : Nat) {s : Spawning}, s.pool.Shaped →
      s.pool.capacity ≤ s.table.entries.size →
      Grown s (arrivals threshold now j cs s.pool.spares s.nextId s.tries)
        (spawnFrom threshold now j cs s)
  | [], _, _, hs, _ => Grown.same hs rfl rfl rfl rfl
  | c :: cs, j, s, hs, hsize => by
    obtain ⟨hone, htries⟩ := spawnOne_spec threshold now hs hsize j c
    have hrest := spawnFrom_spec threshold now cs (j + 1) hone.shaped
      (hone.capacity_eq ▸ hone.size_eq ▸ hsize)
    have h := hone.trans hrest
    rw [hone.spares_eq, hone.nextId_eq, htries] at h
    rw [arrivals_cons]
    exact h

end Matching

end FingerTracking
