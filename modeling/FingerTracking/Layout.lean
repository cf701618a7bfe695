import FingerTracking.Bytes
import FingerTracking.Record
import FingerTracking.Timestamp

/-!
The two byte forms of a timed record. Both are little-endian: seconds, microseconds, type, code,
value. They differ in the width of the first two fields.

`Layout.encode` writes a record, `decode?` reads one. Reading looks at the length of the buffer
alone to choose the form, and fails only on less than the shorter form
(`decode?_eq_none_iff`).
-/

namespace FingerTracking

/-- How wide the time of a record is. -/
inductive Layout where
  /-- Two fields of 4 bytes: 16 bytes a record. -/
  | compat32
  /-- Two fields of 8 bytes: 24 bytes a record. -/
  | native64
deriving DecidableEq, Inhabited

namespace Layout

/-- Bytes of one field of the time. -/
def timeWidth : Layout → Nat
  | compat32 => 4
  | native64 => 8

/-- Bytes of one record. -/
def size (l : Layout) : Nat :=
  2 * l.timeWidth + 8

def name : Layout → String
  | compat32 => "compat32"
  | native64 => "native64"

def encode (l : Layout) (time : Timestamp) (r : Record) : List UInt8 :=
  Bytes.ofNat l.timeWidth time.secs ++ Bytes.ofNat l.timeWidth time.micros ++
    Bytes.ofNat 2 r.type.toNat ++ Bytes.ofNat 2 r.code.toNat ++
    Bytes.ofNat 4 r.value.toUInt32.toNat

/-- The record that the first `l.size` bytes hold. -/
def decode (l : Layout) (bytes : List UInt8) : Timestamp × Record :=
  let w := l.timeWidth
  let body := bytes.drop (2 * w)
  (Timestamp.ofTimeval (Bytes.toInt (bytes.take w)) (Bytes.toInt ((bytes.drop w).take w)),
   { type := UInt16.ofNat (Bytes.toNat (body.take 2))
     code := UInt16.ofNat (Bytes.toNat ((body.drop 2).take 2))
     value := Int32.ofInt (Bytes.toInt ((body.drop 4).take 4)) })

/-- A record is as long as its layout says, whatever it holds. -/
@[simp] theorem length_encode (l : Layout) (t : Timestamp) (r : Record) :
    (l.encode t r).length = l.size := by
  simp [encode, size]
  omega

end Layout

/-- Reads a timed record: of the wide form where the buffer has room for it, else of the narrow
one. -/
def Record.decode? (bytes : List UInt8) : Option (Timestamp × Record) :=
  if Layout.native64.size ≤ bytes.length then some (Layout.native64.decode bytes)
  else if Layout.compat32.size ≤ bytes.length then some (Layout.compat32.decode bytes)
  else none

/-- Only a buffer shorter than the narrow form cannot be read. -/
theorem Record.decode?_eq_none_iff {bytes : List UInt8} :
    Record.decode? bytes = none ↔ bytes.length < 16 := by
  have wide : Layout.native64.size = 24 := rfl
  have narrow : Layout.compat32.size = 16 := rfl
  rw [Record.decode?, wide, narrow]
  by_cases h : 24 ≤ bytes.length
  · rw [if_pos h]
    simp
    omega
  · by_cases k : 16 ≤ bytes.length
    · rw [if_neg h, if_pos k]
      simp
      omega
    · rw [if_neg h, if_neg k]
      simp
      omega

end FingerTracking
