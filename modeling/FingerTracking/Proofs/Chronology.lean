import FingerTracking.Proofs.Codec

/-!
# Times that come back from records in order

What comes back of a time out of the bytes of a record is known for every time, whether it fits or
not (`Record.decode?_encode_reread`): of the seconds their low bytes, or none at all if these read
as negative, and the microseconds as they were. So two times come back in order or not as their
seconds do:

> `reread_le_iff`: seconds first, then microseconds.
>
> `chronological_layouts`: times in order come back in order as long as they fit, in either form;
> beyond that it is told exactly when they do.

The wide form has room for every time that a clock will show. The narrow one has not: after 2³¹
seconds it starts over from the epoch, stays in its first second for as long again, and then counts
on from there (`narrow_time_goes_back`).
-/

namespace FingerTracking

namespace Timestamp

variable {t u : Timestamp} {s s' m m' : Nat}

theorem micros_le (t : Timestamp) : t.micros ≤ 999999 := by
  simp only [micros, nanosPerSecond, nanosPerMicro]
  omega

/-- Times are ordered by their seconds, and within a second by their microseconds. -/
theorem ofTimeval_le_iff (hs : s ≤ 18446744073709551615) (hm : m ≤ 999999)
    (hs' : s' ≤ 18446744073709551615) (hm' : m' ≤ 999999) :
    ofTimeval s m ≤ ofTimeval s' m' ↔ s < s' ∨ s = s' ∧ m ≤ m' := by
  rw [le_def, nanos_ofTimeval hs hm, nanos_ofTimeval hs' hm']
  simp only [nanosPerSecond, nanosPerMicro]
  omega

/-- Cutting off what is below the microsecond keeps the order. -/
theorem secs_micros_of_le (htu : t ≤ u) :
    t.secs < u.secs ∨ t.secs = u.secs ∧ t.micros ≤ u.micros := by
  rw [le_def] at htu
  simp only [secs, micros, nanosPerSecond, nanosPerMicro]
  omega

end Timestamp

namespace Layout

variable {l : Layout} {t u : Timestamp}

/-- Whatever was written, the seconds that come back are in the range of the layout. -/
theorem rereadSecs_lt (l : Layout) (secs : Nat) : l.rereadSecs secs < l.endSecs := by
  have hpos : 0 < l.endSecs := by cases l <;> decide
  rw [rereadSecs]
  split
  next hlow => exact hlow
  next => exact hpos

theorem rereadSecs_le (l : Layout) (secs : Nat) : l.rereadSecs secs ≤ 18446744073709551615 := by
  have hend : l.endSecs ≤ 9223372036854775808 := by cases l <;> decide
  have hlt := l.rereadSecs_lt secs
  omega

/-- Times come back in order if their seconds do, and if these are the same, their microseconds. -/
theorem reread_le_iff (l : Layout) (t u : Timestamp) :
    l.reread t ≤ l.reread u ↔
      l.rereadSecs t.secs < l.rereadSecs u.secs ∨
        l.rereadSecs t.secs = l.rereadSecs u.secs ∧ t.micros ≤ u.micros :=
  Timestamp.ofTimeval_le_iff (l.rereadSecs_le _) t.micros_le (l.rereadSecs_le _) u.micros_le

/-- As long as the later one fits, two times come back in order. -/
theorem reread_le_of_lt (htu : t ≤ u) (hu : u.secs < l.endSecs) : l.reread t ≤ l.reread u := by
  have hle := Timestamp.secs_micros_of_le htu
  have ht : t.secs < l.endSecs := by omega
  rw [reread_le_iff, rereadSecs_of_lt ht, rereadSecs_of_lt hu]
  exact hle

/-- What is read of the times of records, and when it is in order. -/
structure Chronological (l : Layout) : Prop where
  read : ∀ t r, Record.decode? (l.encode t r) = some (l.reread t, r)
  /-- Times that fit stay in order. -/
  le_of_fits : ∀ t u, t ≤ u → u.secs < l.endSecs → l.reread t ≤ l.reread u
  /-- Of any two times, whether they fit or not. -/
  le_iff : ∀ t u, l.reread t ≤ l.reread u ↔
    l.rereadSecs t.secs < l.rereadSecs u.secs ∨
      l.rereadSecs t.secs = l.rereadSecs u.secs ∧ t.micros ≤ u.micros

/-- **Records keep the order of their times.** In either form every time comes back, and two that
are in order come back in order if the seconds of the later one fit the field. Of seconds that do
not fit comes back what `rereadSecs` says, and the order of the times is the order of these seconds
and, where they are the same, of the microseconds. -/
theorem chronological_layouts (l : Layout) : l.Chronological where
  read := Record.decode?_encode_reread l
  le_of_fits _ _ htu hu := reread_le_of_lt htu hu
  le_iff := l.reread_le_iff

/-- Up to the last second of the narrow form, and two times behind it that come back in the first
second, the later one in front. -/
theorem chronological_layouts_around_the_end :
    let t := Timestamp.clamp 2147483646999999999
    let u := Timestamp.clamp 2147483647000000000
    let v := Timestamp.clamp 2147483648500000000
    let w := Timestamp.clamp 2147483649250000000
    t ≤ u ∧ u.secs < compat32.endSecs ∧ compat32.reread t ≤ compat32.reread u ∧
      v ≤ w ∧ compat32.reread w = .clamp 250000000 ∧ ¬ compat32.reread v ≤ compat32.reread w := by
  intro t u v w
  have h := chronological_layouts compat32
  have htu : t ≤ u := by decide +kernel
  have hu : u.secs < compat32.endSecs := by decide +kernel
  refine ⟨htu, hu, h.le_of_fits t u htu hu, by decide +kernel, by decide +kernel, ?_⟩
  rw [h.le_iff]
  decide +kernel

/-- Between two times a second apart a reader of the narrow form is sent back to the epoch. -/
theorem narrow_time_goes_back :
    let t := Timestamp.ofTimeval 2147483647 0
    let u := Timestamp.ofTimeval 2147483648 0
    let r : Record := ⟨Record.typeAbsolute, Record.codeX, 5⟩
    t ≤ u ∧ u.secs < native64.endSecs ∧ Record.decode? (compat32.encode t r) = some (t, r) ∧
      Record.decode? (compat32.encode u r) = some (.epoch, r) ∧ ¬ t ≤ .epoch := by
  decide +kernel

end Layout

end FingerTracking
