import FingerTracking.Fault
import FingerTracking.Timestamp

/-!
Trails: the last positions of one finger, in a ring of fixed capacity.

`Trail.toList` is the trail as a list, oldest sample first, and all that can be seen of the ring:
`push` adds at the end of the list and, once the ring is full, drops its first element; `cleared`
empties it. `Stays` says that the ring is in shape (the first cell lies inside, no more samples
than cells), and every operation keeps it (`stays_push`, `stays_cleared`).

A filtered trail stores a new position only one unit away from the last one on each axis.
-/

namespace FingerTracking

/-- A remembered position of a finger. -/
structure Sample where
  x : Int32
  y : Int32
  time : Timestamp
deriving DecidableEq, Inhabited

/-- What an unused cell holds. -/
def Sample.blank : Sample := ⟨0, 0, Timestamp.epoch⟩

/-! ## One step at a time -/

namespace Step

/-- The next larger coordinate; the largest stays. -/
def up (v : Int32) : Int32 :=
  if v = Int32.maxValue then v else v + 1

/-- The next smaller coordinate; the smallest stays. -/
def down (v : Int32) : Int32 :=
  if v = Int32.minValue then v else v - 1

/-- One unit from `last` in the direction of `goal`; nothing if it is reached. -/
def toward (last goal : Int32) : Int32 :=
  if last < goal then up last
  else if goal < last then down last
  else last

/-- A step up stops at the largest coordinate instead of going round. -/
theorem toInt_up (v : Int32) : (up v).toInt = min (v.toInt + 1) Int32.maxValue.toInt := by
  have hi := v.toInt_le
  have most : Int32.maxValue.toInt = 2147483647 := by decide
  have lo := v.le_toInt
  rw [up]
  split
  next h => rw [h]; omega
  next h =>
    have ne : v.toInt ≠ Int32.maxValue.toInt := fun e => h (Int32.toInt_inj.1 e)
    rw [Int32.toInt_add, Int.bmod_eq_of_le] <;> simp <;> omega

/-- A step down stops at the smallest one. -/
theorem toInt_down (v : Int32) : (down v).toInt = max (v.toInt - 1) Int32.minValue.toInt := by
  have hi := v.toInt_lt
  have least : Int32.minValue.toInt = -2147483648 := by decide
  have lo := v.le_toInt
  rw [down]
  split
  next h => rw [h]; omega
  next h =>
    have ne : v.toInt ≠ Int32.minValue.toInt := fun e => h (Int32.toInt_inj.1 e)
    rw [Int32.toInt_sub, Int.bmod_eq_of_le] <;> simp <;> omega

/-- Where there is a goal farther on, the last coordinate is not the largest or the smallest. -/
theorem toInt_toward (last goal : Int32) :
    (toward last goal).toInt =
      if last < goal then last.toInt + 1
      else if goal < last then last.toInt - 1
      else last.toInt := by
  have hi := goal.toInt_le
  have lo : Int32.minValue.toInt ≤ goal.toInt := goal.le_toInt
  unfold toward
  split
  next h =>
    rw [Int32.lt_iff_toInt_lt] at h
    rw [toInt_up]
    omega
  next =>
    split
    next h =>
      rw [Int32.lt_iff_toInt_lt] at h
      rw [toInt_down]
      omega
    next => rfl

end Step

structure Trail where
  cells : Array Sample
  /-- The cell of the oldest sample. -/
  head : Nat
  length : Nat
  filtered : Bool
deriving DecidableEq, Inhabited

namespace Trail

/-! ## Making one -/

/-- Bytes that one sample takes. -/
def sampleBytes : Nat := 24

/-- The most bytes that one piece of memory can have. -/
def mostBytes : Nat := 0x7fffffffffffffff

/-- An empty trail with room for `capacity` samples. -/
def empty (capacity : Nat) (filtered : Bool) : Trail :=
  { cells := Array.replicate capacity Sample.blank, head := 0, length := 0, filtered }

/-- An empty trail, if `capacity` is at least one and can be stored. -/
def new (capacity : Nat) (filtered : Bool) : Except Fault Trail :=
  if capacity = 0 then .error (.settings .noCoordinates)
  else if mostBytes < capacity * sampleBytes then .error (.outOfMemory capacity)
  else .ok (empty capacity filtered)

/-! ## Reading -/

def capacity (t : Trail) : Nat :=
  t.cells.size

/-- The `i`-th sample from the oldest. -/
def nth (t : Trail) (i : Nat) : Sample :=
  t.cells.getD ((t.head + i) % t.capacity) Sample.blank

/-- All samples, oldest first. -/
def toList (t : Trail) : List Sample :=
  (List.range t.length).map t.nth

/-- The newest sample. -/
def last? (t : Trail) : Option Sample :=
  if t.length = 0 then none else some (t.nth (t.length - 1))

def isEmpty (t : Trail) : Bool :=
  t.length == 0

/-! ## Writing -/

/-- The position stored for (x, y): the position itself, or one step toward it from the last
sample of a filtered trail. -/
def stored (filtered : Bool) (last : Option Sample) (x y : Int32) : Int32 × Int32 :=
  match filtered, last with
  | true, some s => (Step.toward s.x x, Step.toward s.y y)
  | _, _ => (x, y)

/-- Writes `s` after the newest sample. A full ring loses its oldest one. -/
def append (t : Trail) (s : Sample) : Trail :=
  let cells := t.cells.setIfInBounds ((t.head + t.length) % t.capacity) s
  if t.length < t.capacity then { t with cells, length := t.length + 1 }
  else { t with cells, head := (t.head + 1) % t.capacity }

def push (t : Trail) (x y : Int32) (time : Timestamp) : Trail :=
  let p := stored t.filtered t.last? x y
  t.append ⟨p.1, p.2, time⟩

/-- The trail without its samples. The cells keep what they held. -/
def cleared (t : Trail) : Trail :=
  { t with head := 0, length := 0 }

/-! ## The ring in shape -/

structure Stays (t : Trail) : Prop where
  head_lt : t.head < t.capacity
  length_le : t.length ≤ t.capacity

@[simp] theorem capacity_empty (n : Nat) (f : Bool) : (empty n f).capacity = n := by
  simp [empty, capacity]

@[simp] theorem capacity_append (t : Trail) (s : Sample) :
    (t.append s).capacity = t.capacity := by
  unfold append
  dsimp only
  split <;> simp [capacity]

@[simp] theorem capacity_push (t : Trail) (x y : Int32) (time : Timestamp) :
    (t.push x y time).capacity = t.capacity := by
  simp [push]

@[simp] theorem capacity_cleared (t : Trail) : t.cleared.capacity = t.capacity := rfl

theorem stays_empty {n : Nat} (h : 0 < n) (f : Bool) : (empty n f).Stays :=
  ⟨by simpa [empty, capacity] using h, by simp [empty, capacity]⟩

/-- A sample that is added leaves the ring in shape, so the newest one is always found inside. -/
theorem stays_append {t : Trail} (h : t.Stays) (s : Sample) : (t.append s).Stays := by
  have pos : 0 < t.capacity := Nat.lt_of_le_of_lt (Nat.zero_le _) h.head_lt
  have cap := capacity_append t s
  have hd := h.head_lt
  have len := h.length_le
  refine ⟨?_, ?_⟩ <;> rw [cap] <;> unfold append <;> dsimp only <;> split
  · exact hd
  · exact Nat.mod_lt _ pos
  · assumption
  · exact len

theorem stays_push {t : Trail} (h : t.Stays) (x y : Int32) (time : Timestamp) :
    (t.push x y time).Stays :=
  stays_append h _

/-- Clearing resets the counters and leaves the cells. -/
theorem stays_cleared {t : Trail} (h : t.Stays) : t.cleared.Stays :=
  ⟨Nat.lt_of_le_of_lt (Nat.zero_le _) h.head_lt, Nat.zero_le _⟩

/-- The list has the samples that are kept and none of the stale cells. -/
@[simp] theorem length_toList (t : Trail) : t.toList.length = t.length := by
  simp [toList]

@[simp] theorem toList_cleared (t : Trail) : t.cleared.toList = [] := rfl

/-- The newest sample is the last of the list. -/
theorem last?_eq_getLast? (t : Trail) : t.last? = t.toList.getLast? := by
  unfold last? toList
  split
  next h => simp [h]
  next h =>
    rw [List.getLast?_map, List.getLast?_range, if_neg h]
    rfl

end Trail

end FingerTracking
