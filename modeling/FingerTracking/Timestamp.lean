import FingerTracking.Numeral

/-!
Wall-clock time since the epoch, to the nanosecond.

The clock has a last moment (`Timestamp.latestNanos`), and going past it stops there, so `later`
never goes back (`le_later`).
-/

namespace FingerTracking

namespace Timestamp

def nanosPerSecond : Nat := 1000000000

def nanosPerMilli : Nat := 1000000

def nanosPerMicro : Nat := 1000

/-- Nanoseconds of the last moment: 2⁶⁴ − 1 seconds and all but one of the nanoseconds of the
next. -/
def latestNanos : Nat := 18446744073709551615 * nanosPerSecond + 999999999

end Timestamp

/-- A moment, as nanoseconds since the epoch. -/
@[ext] structure Timestamp where
  nanos : Nat
  le_latest : nanos ≤ Timestamp.latestNanos
deriving DecidableEq

namespace Timestamp

/-- The moment `n` nanoseconds after the epoch, or the last one. -/
def clamp (n : Nat) : Timestamp :=
  ⟨min n latestNanos, Nat.min_le_right _ _⟩

def epoch : Timestamp := clamp 0

instance : Inhabited Timestamp := ⟨epoch⟩

instance : LE Timestamp := ⟨fun a b => a.nanos ≤ b.nanos⟩

instance (a b : Timestamp) : Decidable (a ≤ b) :=
  inferInstanceAs (Decidable (a.nanos ≤ b.nanos))

instance : Ord Timestamp := ⟨fun a b => compare a.nanos b.nanos⟩

def ofMillis (ms : Nat) : Timestamp :=
  clamp (ms * nanosPerMilli)

/-- The moment of a pair of seconds and microseconds. A negative part counts as zero, and the
microseconds stay below one second. -/
def ofTimeval (sec usec : Int) : Timestamp :=
  clamp (sec.toNat * nanosPerSecond + min usec.toNat 999999 * nanosPerMicro)

/-- Whole seconds. -/
def secs (t : Timestamp) : Nat :=
  t.nanos / nanosPerSecond

/-- Whole microseconds of the last, unfinished second. -/
def micros (t : Timestamp) : Nat :=
  t.nanos % nanosPerSecond / nanosPerMicro

/-- The moment `n` nanoseconds later. -/
def later (t : Timestamp) (n : Nat) : Timestamp :=
  clamp (t.nanos + n)

/-- The moment with all below the microsecond cut off. -/
def wholeMicros (t : Timestamp) : Timestamp :=
  clamp (t.nanos / nanosPerMicro * nanosPerMicro)

/-- Seconds, a point and six digits of microseconds. -/
def text (t : Timestamp) : String :=
  toString t.secs ++ "." ++ Numeral.zeroPadded 6 t.micros

theorem le_def {a b : Timestamp} : a ≤ b ↔ a.nanos ≤ b.nanos := Iff.rfl

theorem le_refl (t : Timestamp) : t ≤ t := Nat.le_refl _

theorem le_trans {a b c : Timestamp} (hab : a ≤ b) (hbc : b ≤ c) : a ≤ c := Nat.le_trans hab hbc

/-- Time stops at the last moment that can be held. -/
theorem nanos_clamp (n : Nat) : (clamp n).nanos = min n latestNanos := rfl

/-- Time does not go back by going on. -/
theorem le_later (t : Timestamp) (n : Nat) : t ≤ t.later n := by
  have h := t.le_latest
  simp only [le_def, later, nanos_clamp]
  omega

end Timestamp

end FingerTracking
