/-!
Numbers of IEEE 754 single precision, computed exactly.

A `Binary32` is its 32 bits. The operations decode it into a signed multiple of a power of two,
work on whole numbers without error and round once at the end, to the nearest number and in a
tie to the even one (`round`).
-/

namespace FingerTracking

structure Binary32 where
  bits : UInt32
deriving DecidableEq, Inhabited

namespace Binary32

/-! ## What the bits mean -/

/-- The number `(-1)^negative · mantissa · 2^exponent`, or one of the two kinds of non-number. -/
inductive Value where
  | nan
  | infinite (negative : Bool)
  | finite (negative : Bool) (mantissa : Nat) (exponent : Int)
deriving DecidableEq

/-- Exponent of the last place of the numbers nearest to zero. -/
def leastExponent : Int := -149

/-- Bits of the mantissa, without the leading one. -/
def mantissaBits : Nat := 23

/-- The leading one, which is left out of the bits. -/
def leadingOne : Nat := 0x800000

def infinityBits : Nat := 0x7f800000

def signBit : Nat := 0x80000000

def value (a : Binary32) : Value :=
  let n := a.bits.toNat
  let negative := decide (signBit ≤ n)
  let magnitude := n % signBit
  let biased := magnitude / leadingOne
  let low := magnitude % leadingOne
  if infinityBits < magnitude then .nan
  else if magnitude = infinityBits then .infinite negative
  else if biased = 0 then .finite negative low leastExponent
  else .finite negative (leadingOne + low) (leastExponent + (biased - 1 : Nat))

/-! ## Rounding -/

def signed (negative : Bool) (magnitude : Nat) : Binary32 :=
  ⟨UInt32.ofNat (if negative then signBit + magnitude else magnitude)⟩

def nan : Binary32 := ⟨0x7fc00000⟩

def infinity (negative : Bool) : Binary32 := signed negative infinityBits

def zero (negative : Bool) : Binary32 := signed negative 0

def one : Binary32 := ⟨0x3f800000⟩

/-- `num / den` rounded to a whole number, in a tie to the even one. -/
def nearest (num den : Nat) : Nat :=
  let q := num / den
  let r := num % den
  if den < 2 * r ∨ (2 * r = den ∧ q % 2 = 1) then q + 1 else q

/-- The exponent of the highest power of two not above `num / den`, for positive numbers. -/
def binade (num den : Nat) : Int :=
  let e : Int := (num.log2 : Int) - (den.log2 : Int)
  let reached :=
    if 0 ≤ e then den <<< e.toNat ≤ num else den ≤ num <<< (-e).toNat
  if reached then e else e - 1

/-- The number nearest to `num / den · 2^exponent`. -/
def round (negative : Bool) (num den : Nat) (exponent : Int) : Binary32 :=
  if num = 0 ∨ den = 0 then zero negative
  else
    let last := max leastExponent (binade num den + exponent - mantissaBits)
    let shift := exponent - last
    let q := nearest (num <<< shift.toNat) (den <<< (-shift).toNat)
    let magnitude :=
      if q < leadingOne then q
      else (last - leastExponent).toNat * leadingOne + q
    if infinityBits ≤ magnitude then infinity negative else signed negative magnitude

/-! ## Operations -/

def ofInt (n : Int) : Binary32 :=
  round (decide (n < 0)) n.natAbs 1 0

def mul (a b : Binary32) : Binary32 :=
  match a.value, b.value with
  | .nan, _ | _, .nan => nan
  | .infinite s, .infinite t => infinity (s != t)
  | .infinite s, .finite t m _ | .finite s m _, .infinite t =>
    if m = 0 then nan else infinity (s != t)
  | .finite s m e, .finite t n f => round (s != t) (m * n) 1 (e + f)

def div (a b : Binary32) : Binary32 :=
  match a.value, b.value with
  | .nan, _ | _, .nan => nan
  | .infinite _, .infinite _ => nan
  | .infinite s, .finite t _ _ => infinity (s != t)
  | .finite s _ _, .infinite t => zero (s != t)
  | .finite s m e, .finite t n f =>
    if n = 0 then (if m = 0 then nan else infinity (s != t))
    else round (s != t) m n (e - f)

/-- The whole part of `m · 2^e`. -/
def whole (m : Nat) (e : Int) : Nat :=
  m <<< e.toNat >>> (-e).toNat

/-- The coordinate nearest to a whole number. -/
def clampInt32 (n : Int) : Int32 :=
  Int32.ofInt (max (-2147483648) (min 2147483647 n))

/-- The number without its fraction, kept inside the range of coordinates; zero for no number. -/
def toInt32 (a : Binary32) : Int32 :=
  match a.value with
  | .nan => 0
  | .infinite negative => if negative then Int32.minValue else Int32.maxValue
  | .finite negative m e =>
    clampInt32 (if negative then -(whole m e : Int) else (whole m e : Int))

end Binary32

end FingerTracking
