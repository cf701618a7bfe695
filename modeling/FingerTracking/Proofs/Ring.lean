import FingerTracking.Proofs.FingerLife

/-!
# A ring is a list that forgets its first element

Where the samples of a trail lie in its cells does not show in `toList`, and nothing that is done
to a trail depends on more than this list: a sample is written after the last one, and once there
is no room the first one is gone.

> `toList_append`: the list of a trail with one more sample.
>
> `toList_push`: the same for a position, which a filtered trail stores one step from the last.
>
> `shows_afterEdits`: whatever was pushed onto a new trail, and however often it was cleared, it shows
> the list in which as much is remembered (`remembered`), and every cell it looks at is there.
-/

namespace FingerTracking

namespace Trail

variable {t u : Trail} {n : Nat} {b : Bool}

/-- Going round the ring once at most. -/
theorem cell_eq {head i size : Nat} (hhead : head < size) (hi : i ≤ size) :
    (head + i) % size = if head + i < size then head + i else head + i - size := by
  split
  next hlt => exact Nat.mod_eq_of_lt hlt
  next hge => rw [Nat.mod_eq_sub_mod (Nat.le_of_not_lt hge), Nat.mod_eq_of_lt (by omega)]

/-- A sample is found in its cell unless another one has been written there. -/
theorem nth_set_of_ne {cells : Array Sample} {j head head' length i k : Nat} (s : Sample)
    (hne : j ≠ (head + i) % cells.size)
    (hsame : (head' + k) % cells.size = (head + i) % cells.size) :
    nth ⟨cells.setIfInBounds j s, head', length, b⟩ k = cells.getD ((head + i) % cells.size)
      Sample.blank := by
  have hget : (cells.setIfInBounds j s)[(head + i) % cells.size]? =
      cells[(head + i) % cells.size]? := by
    rw [Array.getElem?_setIfInBounds, if_neg hne]
  simp only [nth, capacity, Array.size_setIfInBounds, Array.getD_eq_getD_getElem?, hsame, hget]

/-- With room for it, a new sample leaves those before it where they are. -/
theorem nth_append_of_room (ht : t.Stays) (hroom : t.length < t.capacity) (s : Sample) {i : Nat}
    (hi : i < t.length) : (t.append s).nth i = t.nth i := by
  have hhead := ht.head_lt
  rw [append, if_pos hroom]
  refine nth_set_of_ne s ?_ rfl
  rw [show t.cells.size = t.capacity from rfl, cell_eq hhead (by omega), cell_eq hhead (by omega)]
  split <;> split <;> omega

/-- In a full ring a new sample takes the place of the first, and the others move up. -/
theorem nth_append_of_full (ht : t.Stays) (hfull : t.length = t.capacity) (s : Sample) {i : Nat}
    (hi : i + 1 < t.length) : (t.append s).nth i = t.nth (i + 1) := by
  have hhead := ht.head_lt
  rw [append, if_neg (by omega)]
  refine nth_set_of_ne s ?_ ?_
  · rw [show t.cells.size = t.capacity from rfl, cell_eq hhead (by omega), cell_eq hhead (by omega)]
    split <;> split <;> omega
  · rw [show t.cells.size = t.capacity from rfl, Nat.mod_add_mod, Nat.add_assoc, Nat.add_comm 1]

/-- The list reads the ring by its index. -/
theorem getElem_toList (t : Trail) {i : Nat} (hi : i < t.toList.length) :
    t.toList[i] = t.nth i := by
  simp [toList]

/-- A new sample comes after the others; if there was no room for it, the first one is gone. -/
theorem toList_append (ht : t.Stays) (s : Sample) :
    (t.append s).toList =
      (if t.toList.length < t.capacity then t.toList else t.toList.tail) ++ [s] := by
  have hlast := last?_append ht s
  rw [last?_eq_getLast?, List.getLast?_eq_some_iff] at hlast
  obtain ⟨before, hbefore⟩ := hlast
  have hlen := congrArg List.length hbefore
  rw [length_toList, length_append, List.length_append, List.length_singleton] at hlen
  rw [hbefore, length_toList]
  congr 1
  -- the last sample is known, those before it are read one by one
  have hread : ∀ {i : Nat} (hi : i < before.length), before[i] = (t.append s).nth i := by
    intro i hi
    have hin : i < (t.append s).toList.length := by
      rw [hbefore, List.length_append]
      omega
    rw [← getElem_toList _ hin]
    simp only [hbefore, List.getElem_append_left hi]
  have hle := ht.length_le
  split
  next hroom =>
    rw [if_pos hroom] at hlen
    refine List.ext_getElem (by rw [length_toList]; omega) ?_
    intro i hi hi'
    rw [hread hi, getElem_toList, nth_append_of_room ht hroom s (by omega)]
  next hno =>
    rw [if_neg hno] at hlen
    refine List.ext_getElem (by rw [List.length_tail, length_toList]; omega) ?_
    intro i hi hi'
    rw [hread hi, List.getElem_tail, getElem_toList, nth_append_of_full ht (by omega) s (by omega)]

/-- The list of a trail with room for `n` samples after a position has been pushed. -/
theorem toList_push (ht : Fits n b t) (x y : Int32) (time : Timestamp) :
    (t.push x y time).toList =
      (if t.toList.length < n then t.toList else t.toList.tail) ++
        [⟨(stored b t.toList.getLast? x y).1, (stored b t.toList.getLast? x y).2, time⟩] := by
  rw [push, toList_append ht.stays, ht.capacity_eq, ht.filtered_eq, last?_eq_getLast?]

/-! ## Any pushes and clearings -/

/-- What is done to a trail. -/
inductive Edit where
  | push (x y : Int32) (time : Timestamp)
  | clear

def edit (t : Trail) : Edit → Trail
  | .push x y time => t.push x y time
  | .clear => t.cleared

def afterEdits (t : Trail) (es : List Edit) : Trail :=
  es.foldl edit t

/-- A list of at most `n` samples after an edit: a new sample goes to its end, and the oldest one is
dropped if that is one too many. -/
def remember (n : Nat) (b : Bool) (l : List Sample) : Edit → List Sample
  | .push x y time =>
    let p := stored b l.getLast? x y
    let longer := l ++ [⟨p.1, p.2, time⟩]
    if n < longer.length then longer.tail else longer
  | .clear => []

/-- The last `n` samples, at most, since the last clearing. -/
def remembered (n : Nat) (b : Bool) (es : List Edit) : List Sample :=
  es.foldl (remember n b) []

/-- A ring of `n` cells that shows the list `l`. -/
structure Shows (n : Nat) (t : Trail) (l : List Sample) : Prop where
  toList_eq : t.toList = l
  last?_eq : t.last? = l.getLast?
  length_eq : t.length = l.length
  isEmpty_eq : t.isEmpty = l.isEmpty
  capacity_eq : t.capacity = n
  head_lt : t.head < n
  length_le : t.length ≤ n
  /-- Each sample is read from a cell of the ring, the `i`-th from the oldest in the `i`-th
  place. -/
  read : ∀ i < t.length, (t.head + i) % n < t.cells.size ∧ t.cells[(t.head + i) % n]? = l[i]?
  /-- The next sample is written into a cell of the ring. -/
  write_lt : (t.head + t.length) % n < t.cells.size

/-- A ring in shape shows its list and nothing else. -/
theorem shows_toList (ht : Fits n b t) : Shows n t t.toList := by
  have hcap : t.cells.size = n := ht.capacity_eq
  have hhead : t.head < n := ht.capacity_eq ▸ ht.stays.head_lt
  have hcell : ∀ i, (t.head + i) % n < t.cells.size := by
    intro i
    rw [hcap]
    exact Nat.mod_lt _ (Nat.zero_lt_of_lt hhead)
  refine ⟨rfl, last?_eq_getLast? t, (length_toList t).symm, ?_, ht.capacity_eq, hhead,
    ht.capacity_eq ▸ ht.stays.length_le, ?_, hcell _⟩
  · rw [isEmpty, ← length_toList, Bool.eq_iff_iff, beq_iff_eq, List.length_eq_zero_iff,
      List.isEmpty_iff]
  · intro i hi
    have hin : i < t.toList.length := by rwa [length_toList]
    refine ⟨hcell i, ?_⟩
    rw [List.getElem?_eq_getElem hin, getElem_toList, nth, ht.capacity_eq,
      Array.getD_eq_getD_getElem?, Array.getElem?_eq_getElem (hcell i), Option.getD_some]

theorem fits_edit (ht : Fits n b t) (e : Edit) : Fits n b (t.edit e) := by
  cases e with
  | push x y time => exact ht.push x y time
  | clear => exact ht.cleared

/-- One edit does to the list of a trail what it does to a list. -/
theorem toList_edit (ht : Fits n b t) (e : Edit) : (t.edit e).toList = remember n b t.toList e := by
  cases e with
  | clear => rfl
  | push x y time =>
    rw [edit, toList_push ht, remember]
    have hle := ht.length_toList_le
    have hpos : 0 < n := ht.capacity_eq ▸ Nat.zero_lt_of_lt ht.stays.head_lt
    by_cases hroom : t.toList.length < n
    · rw [if_pos hroom, if_neg (by rw [List.length_append, List.length_singleton]; omega)]
    · -- a full ring is not empty, so the sample it loses is not the new one
      have hne : t.toList ≠ [] := by
        intro hnil
        rw [hnil, List.length_nil] at hroom
        exact hroom hpos
      rw [if_neg hroom, if_pos (by rw [List.length_append, List.length_singleton]; omega),
        List.tail_append_of_ne_nil hne]

/-- The ring and the list go through the edits together. -/
theorem fits_toList_afterEdits (es : List Edit) :
    ∀ {t : Trail}, Fits n b t →
      Fits n b (t.afterEdits es) ∧ (t.afterEdits es).toList = es.foldl (remember n b) t.toList := by
  induction es with
  | nil => exact fun ht => ⟨ht, rfl⟩
  | cons e es ih =>
    intro t ht
    obtain ⟨hfits, hlist⟩ := ih (fits_edit ht e)
    rw [toList_edit ht e] at hlist
    exact ⟨hfits, hlist⟩

/-- **A ring is a list that forgets.** A trail of any length that can be stored can be made, and
after any pushes and clearings it shows the samples since the last clearing, the last ones if there
is no room for all. -/
theorem shows_afterEdits (hn : 0 < n) (hbytes : n * sampleBytes ≤ mostBytes) (b : Bool) :
    ∃ t, Trail.new n b = .ok t ∧ ∀ es, Shows n (t.afterEdits es) (remembered n b es) := by
  refine ⟨Trail.empty n b, ?_, ?_⟩
  · rw [new, if_neg (Nat.ne_of_gt hn), if_neg (Nat.not_lt.mpr hbytes)]
  · intro es
    obtain ⟨hfits, hlist⟩ := fits_toList_afterEdits es (fits_empty hn b)
    have hshows := shows_toList hfits
    rwa [hlist] at hshows

/-- A filtered ring of one cell, which loses its sample at every push and still takes the next step
from it, and whose first sample after a clearing is stored as it comes. -/
theorem shows_afterEdits_one_cell :
    0 < 1 ∧ 1 * sampleBytes ≤ mostBytes ∧
      remembered 1 true [.push 5 5 Timestamp.epoch, .push 9 1 Timestamp.epoch] =
        [⟨6, 4, Timestamp.epoch⟩] ∧
      ∃ t, Trail.new 1 true = .ok t ∧ ∀ es, Shows 1 (t.afterEdits es) (remembered 1 true es) := by
  have hbytes : 1 * sampleBytes ≤ mostBytes := by decide
  exact ⟨Nat.one_pos, hbytes, by decide, shows_afterEdits Nat.one_pos hbytes true⟩

end Trail

end FingerTracking
