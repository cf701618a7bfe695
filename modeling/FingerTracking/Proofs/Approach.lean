import FingerTracking.Proofs.Ring

/-!
# A filtered trail comes to its goal and not past it

What a filtered trail stores is one step from the sample before toward the position that was
pushed. So on each axis it stays among the values that were pushed, and while one and the same
position is pushed the way that is left grows shorter by one unit with every push, until there is
none left.

> `within_toward`: a step from between some values toward another one ends between them all.
>
> `last?_pushEach`: the way left on each axis after any number of pushes of one position.
>
> `approaches_afterEdits`: both, for any filtered trail after any pushes and clearings.

The two axes need not arrive at the same time, and how many samples the trail keeps does not matter:
a step looks at the newest one only.
-/

namespace FingerTracking

namespace Step

variable {vs : List Int32} {v goal : Int32}

/-- No smaller than the smallest of the values, and no larger than the largest. -/
def Within (vs : List Int32) (v : Int32) : Prop :=
  ∃ lo hi, (vs.map Int32.toInt).min? = some lo ∧ (vs.map Int32.toInt).max? = some hi ∧
    lo ≤ v.toInt ∧ v.toInt ≤ hi

/-- It is enough to stand between two of the values. -/
theorem within_iff :
    Within vs v ↔ ∃ a ∈ vs, ∃ b ∈ vs, a.toInt ≤ v.toInt ∧ v.toInt ≤ b.toInt := by
  constructor
  · intro ⟨lo, hi, hmin, hmax, hlo, hhi⟩
    obtain ⟨a, ha, rfl⟩ := List.mem_map.mp (List.min?_eq_some_iff.mp hmin).1
    obtain ⟨b, hb, rfl⟩ := List.mem_map.mp (List.max?_eq_some_iff.mp hmax).1
    exact ⟨a, ha, b, hb, hlo, hhi⟩
  · intro ⟨a, ha, b, hb, hav, hvb⟩
    replace ha := List.mem_map_of_mem (f := Int32.toInt) ha
    replace hb := List.mem_map_of_mem (f := Int32.toInt) hb
    obtain ⟨lo, hmin⟩ := Option.isSome_iff_exists.mp (List.isSome_min?_of_mem ha)
    obtain ⟨hi, hmax⟩ := Option.isSome_iff_exists.mp (List.isSome_max?_of_mem hb)
    have hlo := (List.min?_eq_some_iff.mp hmin).2 _ ha
    have hhi := (List.max?_eq_some_iff.mp hmax).2 _ hb
    exact ⟨lo, hi, hmin, hmax, Int.le_trans hlo hav, Int.le_trans hvb hhi⟩

theorem within_of_mem (hv : v ∈ vs) : Within vs v :=
  within_iff.mpr ⟨v, hv, v, hv, Int.le_refl _, Int.le_refl _⟩

theorem Within.append (hv : Within vs v) (ws : List Int32) : Within (vs ++ ws) v := by
  obtain ⟨a, ha, b, hb, hav, hvb⟩ := within_iff.mp hv
  exact within_iff.mpr ⟨a, List.mem_append_left _ ha, b, List.mem_append_left _ hb, hav, hvb⟩

/-- In whole numbers a step is what it should be: it is never cut short by the largest or the
smallest coordinate, since the goal lies farther on. -/
theorem toInt_toward_eq_add_sign (v goal : Int32) :
    (toward v goal).toInt = v.toInt + (goal.toInt - v.toInt).sign := by
  rw [toInt_toward]
  simp only [Int32.lt_iff_toInt_lt]
  rcases Int.lt_trichotomy v.toInt goal.toInt with hlt | heq | hgt
  · rw [if_pos hlt, Int.sign_eq_one_of_pos (Int.sub_pos_of_lt hlt)]
  · rw [if_neg (by omega), if_neg (by omega), heq, Int.sub_self, Int.sign_zero, Int.add_zero]
  · rw [if_neg (by omega), if_pos hgt, Int.sign_eq_neg_one_of_neg (Int.sub_neg_of_lt hgt)]
    rfl

/-- A step from between some values toward another one ends between them all. -/
theorem within_toward (hv : Within vs v) (goal : Int32) :
    Within (vs ++ [goal]) (toward v goal) := by
  obtain ⟨a, ha, b, hb, hav, hvb⟩ := within_iff.mp hv
  have hstep := toInt_toward v goal
  have hgoal : goal ∈ vs ++ [goal] := List.mem_append_right _ (List.mem_singleton_self goal)
  simp only [within_iff, Int32.lt_iff_toInt_lt] at hstep ⊢
  by_cases hup : v.toInt < goal.toInt
  · rw [if_pos hup] at hstep
    exact ⟨a, List.mem_append_left _ ha, goal, hgoal, by omega, by omega⟩
  by_cases hdown : goal.toInt < v.toInt
  · rw [if_neg hup, if_pos hdown] at hstep
    exact ⟨goal, hgoal, b, List.mem_append_left _ hb, by omega, by omega⟩
  · rw [if_neg hup, if_neg hdown] at hstep
    exact ⟨a, List.mem_append_left _ ha, b, List.mem_append_left _ hb, by omega, by omega⟩

/-- The way to the goal. -/
def way (v goal : Int32) : Nat :=
  (goal.toInt - v.toInt).natAbs

/-- The way is zero where the goal is reached, and only there. -/
theorem way_eq_zero_iff : way v goal = 0 ↔ v = goal := by
  rw [way, Int.natAbs_eq_zero, Int.sub_eq_zero, Int32.toInt_inj, eq_comm]

/-- With each step the way grows shorter by one unit, while there is any. -/
theorem way_toward (v goal : Int32) : way (toward v goal) goal = way v goal - 1 := by
  rw [way, way, toInt_toward]
  simp only [Int32.lt_iff_toInt_lt]
  split
  · omega
  split <;> omega

end Step

namespace Trail

open Step

variable {t : Trail} {n : Nat} {p : Sample} {ps : List (Int32 × Int32)}

/-! ## Never past the goal -/

/-- The positions pushed since the last clearing, when one more edit is made. -/
def alsoPushed (ps : List (Int32 × Int32)) : Edit → List (Int32 × Int32)
  | .push x y _ => ps ++ [(x, y)]
  | .clear => []

/-- The positions pushed since the last clearing, as they came. -/
def pushed (es : List Edit) : List (Int32 × Int32) :=
  es.foldl alsoPushed []

/-- Every sample lies among the positions on each axis. -/
def Among (ps : List (Int32 × Int32)) (l : List Sample) : Prop :=
  ∀ s ∈ l, Within (ps.map (·.1)) s.x ∧ Within (ps.map (·.2)) s.y

/-- What is stored for a position is the position, or one step from a sample toward it. -/
theorem within_stored {l : List Sample} (hl : Among ps l) (x y : Int32) :
    Within (ps.map (·.1) ++ [x]) (stored true l.getLast? x y).1 ∧
      Within (ps.map (·.2) ++ [y]) (stored true l.getLast? x y).2 := by
  cases hlast : l.getLast? with
  | none =>
    have hnew : ∀ (vs : List Int32) (v : Int32), Within (vs ++ [v]) v := fun vs v =>
      within_of_mem (List.mem_append_right vs (List.mem_singleton_self v))
    exact ⟨hnew _ x, hnew _ y⟩
  | some s =>
    obtain ⟨hx, hy⟩ := hl s (List.mem_of_getLast? hlast)
    exact ⟨within_toward hx x, within_toward hy y⟩

/-- An edit stores nothing outside of the range of what was pushed. -/
theorem among_edit (ht : Fits n true t) (hps : Among ps t.toList) (e : Edit) :
    Among (alsoPushed ps e) (t.edit e).toList := by
  cases e with
  | clear =>
    intro s hs
    exact nomatch hs
  | push x y time =>
    intro s hs
    rw [edit, toList_push ht] at hs
    rw [alsoPushed, List.map_append, List.map_append]
    rcases List.mem_append.mp hs with hold | hnew
    · -- the samples that are kept were there before, whether one was dropped or not
      have hmem : s ∈ t.toList := by
        split at hold
        · exact hold
        · exact List.mem_of_mem_tail hold
      obtain ⟨hx, hy⟩ := hps s hmem
      exact ⟨hx.append [x], hy.append [y]⟩
    · obtain rfl := List.mem_singleton.mp hnew
      exact within_stored hps x y

/-- Nor do any number of edits. What has been pushed so far grows with the trail. -/
theorem among_afterEdits (es : List Edit) :
    ∀ {t : Trail} {ps : List (Int32 × Int32)}, Fits n true t → Among ps t.toList →
      Among (es.foldl alsoPushed ps) (t.afterEdits es).toList := by
  induction es with
  | nil => exact fun _ hps => hps
  | cons e es ih => exact fun ht hps => ih (fits_edit ht e) (among_edit ht hps e)

/-! ## Nearer with every push -/

/-- A push to a filtered trail is one step on each axis. -/
theorem last?_push_filtered (ht : Fits n true t) (hp : t.last? = some p) (x y : Int32)
    (time : Timestamp) :
    (t.push x y time).last? = some ⟨toward p.x x, toward p.y y, time⟩ := by
  rw [last?_push ht.stays, ht.filtered_eq, hp]
  rfl

/-- One and the same position, pushed at these times. -/
def pushEach (t : Trail) (x y : Int32) (times : List Timestamp) : Trail :=
  t.afterEdits (times.map fun time => .push x y time)

/-- While one position is pushed, each axis comes nearer to it by one unit with every push. -/
theorem last?_pushEach (x y : Int32) (times : List Timestamp) :
    ∀ {t : Trail} {p : Sample}, Fits n true t → t.last? = some p →
      ∃ s, (t.pushEach x y times).last? = some s ∧ way s.x x = way p.x x - times.length ∧
        way s.y y = way p.y y - times.length := by
  induction times with
  | nil => exact fun _ hp => ⟨_, hp, rfl, rfl⟩
  | cons time times ih =>
    intro t p ht hp
    obtain ⟨s, hs, hx, hy⟩ := ih (ht.push x y time) (last?_push_filtered ht hp x y time)
    refine ⟨s, hs, ?_, ?_⟩
    · rw [hx, way_toward, Nat.sub_sub, Nat.add_comm, List.length_cons]
    · rw [hy, way_toward, Nat.sub_sub, Nat.add_comm, List.length_cons]

/-- The position is stored from the push on with which the longer of the two ways is done. -/
theorem reaches_iff (ht : Fits n true t) (hp : t.last? = some p) (x y : Int32)
    (times : List Timestamp) :
    ∃ s, (t.pushEach x y times).last? = some s ∧
      (s.x = x ∧ s.y = y ↔ max (way p.x x) (way p.y y) ≤ times.length) := by
  obtain ⟨s, hs, hx, hy⟩ := last?_pushEach x y times ht hp
  refine ⟨s, hs, ?_⟩
  rw [← way_eq_zero_iff, ← way_eq_zero_iff, hx, hy, Nat.max_le, Nat.sub_eq_zero_iff_le,
    Nat.sub_eq_zero_iff_le]

/-! ## Any filtered trail -/

/-- A filtered trail onto which the positions `ps` were pushed since its last clearing. -/
structure Approaches (t : Trail) (ps : List (Int32 × Int32)) : Prop where
  within : ∀ s ∈ t.toList, Within (ps.map (·.1)) s.x ∧ Within (ps.map (·.2)) s.y
  /-- The next sample is exactly one unit nearer on each axis, unless there is no way left. -/
  step : ∀ p, t.last? = some p → ∀ x y time, ∃ s, (t.push x y time).last? = some s ∧
    s.x.toInt = p.x.toInt + (x.toInt - p.x.toInt).sign ∧
    s.y.toInt = p.y.toInt + (y.toInt - p.y.toInt).sign
  /-- The position is stored by the last of some pushes exactly if these are as many as it is away
  on the axis on which it is farther away. -/
  reaches : ∀ p, t.last? = some p → ∀ x y times, ∃ s, (t.pushEach x y times).last? = some s ∧
    (s.x = x ∧ s.y = y ↔
      max (x.toInt - p.x.toInt).natAbs (y.toInt - p.y.toInt).natAbs ≤ times.length)

/-- **A filtered trail comes to its goal and not past it,** whatever was done to it before. -/
theorem approaches_afterEdits (h : Trail.new n true = .ok t) (es : List Edit) :
    (t.afterEdits es).Approaches (pushed es) := by
  obtain ⟨hn, rfl⟩ := eq_empty_of_new h
  have hempty := fits_empty hn true
  obtain ⟨ht, -⟩ := fits_toList_afterEdits es hempty
  refine ⟨?_, ?_, ?_⟩
  · refine among_afterEdits es hempty ?_
    intro s hs
    exact nomatch hs
  · intro p hp x y time
    exact ⟨_, last?_push_filtered ht hp x y time, toInt_toward_eq_add_sign ..,
      toInt_toward_eq_add_sign ..⟩
  · intro p hp x y times
    exact reaches_iff ht hp x y times

/-- A trail of one sample between the outermost positions, from which it has taken one step: it has
never held two samples, and what was pushed before the clearing does not count. -/
theorem approaches_afterEdits_outermost :
    ∃ t, Trail.new 1 true = .ok t ∧
      let es : List Edit := [.push 3 3 Timestamp.epoch, .clear,
        .push (-2147483648) 2147483647 Timestamp.epoch,
        .push 2147483647 (-2147483648) Timestamp.epoch]
      pushed es = [(-2147483648, 2147483647), (2147483647, -2147483648)] ∧
        (t.afterEdits es).toList = [⟨-2147483647, 2147483646, Timestamp.epoch⟩] ∧
        (t.afterEdits es).Approaches (pushed es) := by
  have h : Trail.new 1 true = .ok (Trail.empty 1 true) := rfl
  exact ⟨_, h, by decide, by decide, approaches_afterEdits h _⟩

end Trail

end FingerTracking
