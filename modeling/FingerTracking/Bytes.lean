/-!
Little-endian numbers: lists of bytes, the least significant first.

`ofNat` writes a number in a fixed width and drops what does not fit (`toNat_ofNat`); `toNat`
and `toInt` read one back, without a sign or in two's complement.
-/

namespace FingerTracking.Bytes

/-- The `width` bytes of `n`, least significant first; what does not fit is dropped. -/
def ofNat : Nat → Nat → List UInt8
  | 0, _ => []
  | width + 1, n => UInt8.ofNat n :: ofNat width (n / 256)

/-- The number with these bytes, least significant first. -/
def toNat : List UInt8 → Nat
  | [] => 0
  | b :: bs => b.toNat + 256 * toNat bs

/-- How many numbers `width` bytes can hold. -/
def range : Nat → Nat
  | 0 => 1
  | width + 1 => 256 * range width

/-- The number with these bytes in two's complement. -/
def toInt (bs : List UInt8) : Int :=
  (toNat bs : Int).bmod (range bs.length)

@[simp] theorem length_ofNat (width n : Nat) : (ofNat width n).length = width := by
  induction width generalizing n with
  | zero => rfl
  | succ width ih => simp [ofNat, ih]

/-- So many digits hold the number modulo their range. -/
theorem toNat_ofNat (width n : Nat) : toNat (ofNat width n) = n % range width := by
  induction width generalizing n with
  | zero => simp [ofNat, toNat, range, Nat.mod_one]
  | succ width ih =>
    have byte : (UInt8.ofNat n).toNat = n % 256 := UInt8.toNat_ofNat'
    rw [ofNat, toNat, ih, byte, range, Nat.mod_mul]

end FingerTracking.Bytes
