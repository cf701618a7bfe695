import FingerTracking.Source

/-!
# What is written in bytes is read again

A record comes back out of its bytes as it was, and its time but for what is below the microsecond,
as long as the seconds fit the field they are written in. The other way round, the bytes that a
record was read from are written again, if its time was not clamped in reading.

> `Record.decode?_encode`: reading after writing.
>
> `Record.faithful_layouts`: both ways, and how much of a buffer is looked at.
>
> `Layout.cut_flatten`: records written one after the other are cut apart where they were put
> together.

Reading chooses the layout by the length of what it is given, and the two lengths differ, so it
always finds the layout that a record was written in.
-/

namespace FingerTracking

namespace Bytes

variable {width n : Nat}

/-- Digits give back a number that fits into them. -/
theorem toNat_ofNat_of_lt (hn : n < range width) : toNat (ofNat width n) = n := by
  rw [toNat_ofNat, Nat.mod_eq_of_lt hn]

/-- Read as signed, the digits give back the number modulo their range, nearest to zero. -/
theorem toInt_ofNat (width n : Nat) : toInt (ofNat width n) = (n : Int).bmod (range width) := by
  rw [toInt, toNat_ofNat, length_ofNat, Int.natCast_emod, Int.emod_bmod]

/-- A number is read without a sign if it takes up no more than the lower half of the range. -/
theorem toInt_ofNat_of_lt (hn : n < (range width + 1) / 2) : toInt (ofNat width n) = n := by
  rw [toInt_ofNat]
  apply Int.bmod_eq_of_le <;> omega

variable {bs : List UInt8}

theorem toNat_lt (bs : List UInt8) : toNat bs < range bs.length := by
  induction bs with
  | nil => exact Nat.one_pos
  | cons b bs ih =>
    have hb : b.toNat < 256 := b.toNat_lt
    simp only [toNat, List.length_cons, range]
    omega

/-- Of a number that does not fit the low bytes are read, and nothing if they are negative. -/
theorem toNat_toInt_ofNat (width n : Nat) :
    (toInt (ofNat width n)).toNat =
      if n % range width < (range width + 1) / 2 then n % range width else 0 := by
  have hlt := toNat_lt (ofNat width n)
  rw [toNat_ofNat, length_ofNat] at hlt
  rw [toInt_ofNat, Int.bmod_def, ← Int.natCast_emod]
  split <;> split <;> omega

/-- Every number is written in one way only. -/
theorem ofNat_toNat (hlen : bs.length = width) : ofNat width (toNat bs) = bs := by
  subst hlen
  induction bs with
  | nil => rfl
  | cons b bs ih =>
    have hb : b.toNat < 256 := b.toNat_lt
    have hlow : UInt8.ofNat (b.toNat + 256 * toNat bs) = b := by
      apply UInt8.toNat_inj.mp
      rw [UInt8.toNat_ofNat']
      omega
    have hhigh : (b.toNat + 256 * toNat bs) / 256 = toNat bs := by omega
    rw [List.length_cons, toNat, ofNat, hlow, hhigh, ih]

/-- A number that is not negative in two's complement is the same without a sign. -/
theorem toInt_of_nonneg (h : 0 ≤ toInt bs) : toInt bs = toNat bs := by
  have hlt := toNat_lt bs
  rw [toInt, Int.bmod_def, Int.emod_eq_of_lt (by omega) (by omega)] at h ⊢
  split at h
  next hlow => rw [if_pos hlow]
  next => omega

theorem toNat_uint16 (hlen : bs.length = 2) : (UInt16.ofNat (toNat bs)).toNat = toNat bs := by
  have hlt := toNat_lt bs
  rw [hlen, show range 2 = 65536 from rfl] at hlt
  exact UInt16.toNat_ofNat_of_lt' hlt

/-- Reading a number in two's complement and writing it loses no bit. -/
theorem toNat_int32 (hlen : bs.length = 4) :
    (Int32.ofInt (toInt bs)).toUInt32.toNat = toNat bs := by
  have hlt := toNat_lt bs
  rw [hlen, show range 4 = 4294967296 from rfl] at hlt
  have hpattern : (Int32.ofInt (toInt bs)).toUInt32.toNat = (toInt bs % (4294967296 : Nat)).toNat :=
    BitVec.toNat_ofInt _
  rw [hpattern, toInt, hlen, show range 4 = 4294967296 from rfl, Int.bmod_emod]
  omega

end Bytes

namespace Timestamp

variable {sec usec : Nat}

/-- Negative seconds count as none. -/
theorem ofTimeval_toNat (sec usec : Int) : ofTimeval sec.toNat usec = ofTimeval sec usec := by
  rw [ofTimeval, ofTimeval, Int.toNat_natCast]

/-- Seconds and microseconds hold a time up to the microsecond. -/
theorem ofTimeval_secs_micros (t : Timestamp) : ofTimeval t.secs t.micros = t.wholeMicros := by
  have hsum : t.secs * nanosPerSecond + min t.micros 999999 * nanosPerMicro =
      t.nanos / nanosPerMicro * nanosPerMicro := by
    simp only [secs, micros, nanosPerSecond, nanosPerMicro]
    omega
  rw [ofTimeval, Int.toNat_natCast, Int.toNat_natCast, hsum, wholeMicros]

/-- A time of which nothing is clamped. -/
theorem nanos_ofTimeval (hs : sec ≤ 18446744073709551615) (hu : usec ≤ 999999) :
    (ofTimeval sec usec).nanos = sec * nanosPerSecond + usec * nanosPerMicro := by
  have hmicros : usec * nanosPerMicro ≤ 999999999 := by
    simp only [nanosPerMicro]
    omega
  have hle : sec * nanosPerSecond + usec * nanosPerMicro ≤ latestNanos :=
    Nat.add_le_add (Nat.mul_le_mul_right nanosPerSecond hs) hmicros
  rw [ofTimeval, Int.toNat_natCast, Int.toNat_natCast, Nat.min_eq_left hu, nanos_clamp,
    Nat.min_eq_left hle]

/-- They are read back as they were put together, as long as neither is out of its range. -/
theorem secs_ofTimeval (hs : sec ≤ 18446744073709551615) (hu : usec ≤ 999999) :
    (ofTimeval sec usec).secs = sec := by
  simp only [secs, nanos_ofTimeval hs hu, nanosPerSecond, nanosPerMicro]
  omega

theorem micros_ofTimeval (hs : sec ≤ 18446744073709551615) (hu : usec ≤ 999999) :
    (ofTimeval sec usec).micros = usec := by
  simp only [micros, nanos_ofTimeval hs hu, nanosPerSecond, nanosPerMicro]
  omega

end Timestamp

namespace Layout

variable {l : Layout}

/-- The first second that does not fit the field for it. -/
def endSecs : Layout → Nat
  | compat32 => 2147483648
  | native64 => 9223372036854775808

/-- The seconds of a layout are signed, so half of the range is for times to come. -/
theorem endSecs_eq (l : Layout) : l.endSecs = (Bytes.range l.timeWidth + 1) / 2 := by
  cases l <;> rfl

/-- Microseconds fit into every layout. -/
theorem micros_lt (l : Layout) (t : Timestamp) : t.micros < (Bytes.range l.timeWidth + 1) / 2 := by
  have hlt : t.micros < 1000000 := by
    simp only [Timestamp.micros, Timestamp.nanosPerSecond, Timestamp.nanosPerMicro]
    omega
  rw [← endSecs_eq]
  cases l <;> simp only [endSecs] <;> omega

/-! ## The fields of a record -/

variable {bytes secs micros type code value : List UInt8}

/-- The five fields of a record, where reading looks for them. -/
theorem decode_append (hsecs : secs.length = l.timeWidth) (hmicros : micros.length = l.timeWidth)
    (htype : type.length = 2) (hcode : code.length = 2) (hvalue : value.length = 4) :
    l.decode (secs ++ micros ++ type ++ code ++ value) =
      (Timestamp.ofTimeval (Bytes.toInt secs) (Bytes.toInt micros),
       { type := UInt16.ofNat (Bytes.toNat type)
         code := UInt16.ofNat (Bytes.toNat code)
         value := Int32.ofInt (Bytes.toInt value) }) := by
  simp only [decode, List.append_assoc]
  rw [Nat.two_mul, ← List.drop_drop, List.take_left' hsecs, List.drop_left' hsecs,
    List.take_left' hmicros, List.drop_left' hmicros, List.take_left' htype,
    List.drop_left' htype, List.take_left' hcode]
  rw [show (4 : Nat) = 2 + 2 from rfl, ← List.drop_drop, List.drop_left' htype,
    List.drop_left' hcode, List.take_of_length_le (Nat.le_of_eq hvalue)]

/-- The five fields are all there is to a record. -/
theorem exists_fields (hlen : bytes.length = l.size) :
    ∃ secs micros type code value, bytes = secs ++ micros ++ type ++ code ++ value ∧
      secs.length = l.timeWidth ∧ micros.length = l.timeWidth ∧ type.length = 2 ∧
      code.length = 2 ∧ value.length = 4 := by
  refine ⟨bytes.take l.timeWidth, (bytes.drop l.timeWidth).take l.timeWidth,
    ((bytes.drop l.timeWidth).drop l.timeWidth).take 2,
    (((bytes.drop l.timeWidth).drop l.timeWidth).drop 2).take 2,
    (((bytes.drop l.timeWidth).drop l.timeWidth).drop 2).drop 2, ?_, ?_, ?_, ?_, ?_, ?_⟩
  · simp only [List.append_assoc, List.take_append_drop]
  all_goals
    simp only [List.length_take, List.length_drop, hlen, size]
    omega

/-- Nothing behind a record is looked at. -/
theorem decode_take (l : Layout) {n : Nat} (hn : l.size ≤ n) (bytes : List UInt8) :
    l.decode (bytes.take n) = l.decode bytes := by
  have hfield : ∀ i k, i + k ≤ l.size →
      ((bytes.take n).drop i).take k = (bytes.drop i).take k := by
    intro i k hik
    rw [List.drop_take, List.take_take, Nat.min_eq_left (by omega)]
  have hsize : l.size = 2 * l.timeWidth + 8 := rfl
  have hsecs := hfield 0 l.timeWidth (by omega)
  have hmicros := hfield l.timeWidth l.timeWidth (by omega)
  have htype := hfield (2 * l.timeWidth) 2 (by omega)
  have hcode := hfield (2 * l.timeWidth + 2) 2 (by omega)
  have hvalue := hfield (2 * l.timeWidth + 4) 4 (by omega)
  rw [List.drop_zero, List.drop_zero] at hsecs
  simp only [decode, List.drop_drop, hsecs, hmicros, htype, hcode, hvalue]

/-! ## Reading what was written -/

/-- The seconds that come back out of their field. What does not fit is lost, and what reads as
negative counts as none. -/
def rereadSecs (l : Layout) (secs : Nat) : Nat :=
  if secs % Bytes.range l.timeWidth < l.endSecs then secs % Bytes.range l.timeWidth else 0

/-- The time that comes back out of the bytes of a record. -/
def reread (l : Layout) (t : Timestamp) : Timestamp :=
  Timestamp.ofTimeval (l.rereadSecs t.secs) t.micros

/-- A record comes back as it was; its time comes back as the layout can hold it. -/
theorem decode_encode_reread (l : Layout) (t : Timestamp) (r : Record) :
    l.decode (l.encode t r) = (l.reread t, r) := by
  have hsecs : (Bytes.toInt (Bytes.ofNat l.timeWidth t.secs)).toNat = l.rereadSecs t.secs := by
    rw [Bytes.toNat_toInt_ofNat, ← endSecs_eq, rereadSecs]
  have htype : Bytes.toNat (Bytes.ofNat 2 r.type.toNat) = r.type.toNat :=
    Bytes.toNat_ofNat_of_lt r.type.toNat_lt
  have hcode : Bytes.toNat (Bytes.ofNat 2 r.code.toNat) = r.code.toNat :=
    Bytes.toNat_ofNat_of_lt r.code.toNat_lt
  have hvalue : Bytes.toInt (Bytes.ofNat 4 r.value.toUInt32.toNat) = r.value.toInt := by
    rw [Bytes.toInt_ofNat, show Bytes.range 4 = 4294967296 by decide]
    exact (BitVec.toInt_eq_toNat_bmod r.value.toBitVec).symm
  rw [encode, decode_append (Bytes.length_ofNat ..) (Bytes.length_ofNat ..) (Bytes.length_ofNat ..)
    (Bytes.length_ofNat ..) (Bytes.length_ofNat ..), ← Timestamp.ofTimeval_toNat, hsecs,
    Bytes.toInt_ofNat_of_lt (l.micros_lt t), htype, hcode, hvalue, UInt16.ofNat_toNat,
    UInt16.ofNat_toNat, Int32.ofInt_toInt]
  rfl

/-- Seconds that the layout can hold come back unchanged. -/
theorem rereadSecs_of_lt {secs : Nat} (hs : secs < l.endSecs) : l.rereadSecs secs = secs := by
  have hrange : secs < Bytes.range l.timeWidth := by
    have hend := l.endSecs_eq
    omega
  rw [rereadSecs, Nat.mod_eq_of_lt hrange, if_pos hs]

end Layout

/-- The reader tells the layout by the length of what was written. -/
theorem Record.decode?_encode_reread (l : Layout) (t : Timestamp) (r : Record) :
    Record.decode? (l.encode t r) = some (l.reread t, r) := by
  rw [decode?, Layout.length_encode]
  cases l with
  | compat32 => exact congrArg some (Layout.decode_encode_reread .compat32 t r)
  | native64 => exact congrArg some (Layout.decode_encode_reread .native64 t r)

/-- **Reading after writing.** -/
theorem Record.decode?_encode {l : Layout} {t : Timestamp} (ht : t.secs < l.endSecs) (r : Record) :
    Record.decode? (l.encode t r) = some (t.wholeMicros, r) := by
  rw [decode?_encode_reread, Layout.reread, Layout.rereadSecs_of_lt ht,
    Timestamp.ofTimeval_secs_micros]

/-! ## Writing what was read -/

namespace Layout

variable {l : Layout} {bytes : List UInt8}

/-- The seconds that stand in the bytes, before clamping. -/
def secsField (l : Layout) (bytes : List UInt8) : Int :=
  Bytes.toInt (bytes.take l.timeWidth)

/-- The microseconds that stand in the bytes, before clamping. -/
def microsField (l : Layout) (bytes : List UInt8) : Int :=
  Bytes.toInt ((bytes.drop l.timeWidth).take l.timeWidth)

theorem range_timeWidth_le (l : Layout) : Bytes.range l.timeWidth ≤ 18446744073709551616 := by
  cases l <;> decide

/-- **Writing after reading.** -/
theorem encode_decode (hlen : bytes.length = l.size) (hsecs : 0 ≤ l.secsField bytes)
    (hmicros : 0 ≤ l.microsField bytes) (hle : l.microsField bytes ≤ 999999) :
    l.encode (l.decode bytes).1 (l.decode bytes).2 = bytes := by
  obtain ⟨secs, micros, type, code, value, rfl, hs, hm, ht, hc, hv⟩ := exists_fields hlen
  have hfirst : l.secsField (secs ++ micros ++ type ++ code ++ value) = Bytes.toInt secs := by
    simp only [secsField, List.append_assoc, List.take_left' hs]
  have hsecond : l.microsField (secs ++ micros ++ type ++ code ++ value) = Bytes.toInt micros := by
    simp only [microsField, List.append_assoc, List.drop_left' hs, List.take_left' hm]
  rw [hfirst] at hsecs
  rw [hsecond] at hmicros hle
  -- no field of the time is clamped
  have hsec : Bytes.toNat secs ≤ 18446744073709551615 := by
    have hlt := Bytes.toNat_lt secs
    have hrange := l.range_timeWidth_le
    rw [hs] at hlt
    omega
  have husec : Bytes.toNat micros ≤ 999999 := by
    rw [Bytes.toInt_of_nonneg hmicros] at hle
    omega
  rw [decode_append hs hm ht hc hv, Bytes.toInt_of_nonneg hsecs, Bytes.toInt_of_nonneg hmicros,
    encode, Timestamp.secs_ofTimeval hsec husec, Timestamp.micros_ofTimeval hsec husec,
    Bytes.toNat_uint16 ht, Bytes.toNat_uint16 hc, Bytes.toNat_int32 hv, Bytes.ofNat_toNat hs,
    Bytes.ofNat_toNat hm, Bytes.ofNat_toNat ht, Bytes.ofNat_toNat hc, Bytes.ofNat_toNat hv]

/-- Nothing is lost in this form, neither in writing nor in reading. -/
structure Faithful (l : Layout) : Prop where
  written_read : ∀ (t : Timestamp) (r : Record), t.secs < l.endSecs →
    Record.decode? (l.encode t r) = some (t.wholeMicros, r)
  /-- Only a time that was clamped in reading is not written as it was. -/
  read_written : ∀ bytes : List UInt8, bytes.length = l.size → 0 ≤ l.secsField bytes →
    0 ≤ l.microsField bytes → l.microsField bytes ≤ 999999 →
      ∃ t r, Record.decode? bytes = some (t, r) ∧ l.encode t r = bytes

end Layout

namespace Record

variable {bytes : List UInt8}

/-- Bytes are read as a wide record if there are enough of them for one. -/
theorem decode?_of_wide (h : 24 ≤ bytes.length) :
    decode? bytes = some (Layout.native64.decode bytes) :=
  if_pos h

theorem decode?_of_narrow (h : 16 ≤ bytes.length) (h' : bytes.length < 24) :
    decode? bytes = some (Layout.compat32.decode bytes) :=
  (if_neg (Nat.not_le_of_lt h')).trans (if_pos h)

/-- **Nothing is lost between records and bytes.** Both forms are faithful, in either direction. A
buffer cannot be read only if it is shorter than the narrow form; of a longer one no more is looked
at than the bytes of one record, of the wide form where there is room for it. -/
theorem faithful_layouts :
    (∀ l : Layout, l.Faithful) ∧
      ∀ bytes : List UInt8,
        (decode? bytes = none ↔ bytes.length < 16) ∧
        (16 ≤ bytes.length → bytes.length < 24 → decode? bytes = decode? (bytes.take 16)) ∧
        (24 ≤ bytes.length → decode? bytes = decode? (bytes.take 24)) := by
  refine ⟨fun l => ⟨fun t r ht => decode?_encode ht r, ?_⟩,
    fun bytes => ⟨decode?_eq_none_iff, ?_, ?_⟩⟩
  · intro bytes hlen hsecs hmicros hle
    have hread : decode? bytes = some (l.decode bytes) := by
      cases l with
      | compat32 => exact decode?_of_narrow (Nat.le_of_eq hlen.symm) (by rw [hlen]; decide)
      | native64 => exact decode?_of_wide (Nat.le_of_eq hlen.symm)
    exact ⟨_, _, hread, Layout.encode_decode hlen hsecs hmicros hle⟩
  · intro h h'
    have hlen : (bytes.take 16).length = 16 := List.length_take_of_le h
    rw [decode?_of_narrow h h', decode?_of_narrow (by omega) (by omega),
      Layout.decode_take .compat32 (Nat.le_refl 16)]
  · intro h
    have hlen : (bytes.take 24).length = 24 := List.length_take_of_le h
    rw [decode?_of_wide h, decode?_of_wide (by omega),
      Layout.decode_take .native64 (Nat.le_refl 24)]

/-- A record with a negative value, a nanosecond past the whole microsecond. -/
theorem faithful_layouts_of_compat32 :
    let t := Timestamp.clamp 2000010001
    let r : Record := ⟨1, 330, -1⟩
    let bytes : List UInt8 := [2, 0, 0, 0, 10, 0, 0, 0, 1, 0, 74, 1, 255, 255, 255, 255]
    Layout.compat32.encode t r = bytes ∧ decode? bytes = some (.clamp 2000010000, r) ∧
      ∃ t' r', decode? bytes = some (t', r') ∧ Layout.compat32.encode t' r' = bytes := by
  intro t r bytes
  have hbytes : Layout.compat32.encode t r = bytes := by decide +kernel
  have htime : t.wholeMicros = .clamp 2000010000 := by decide +kernel
  obtain ⟨hread, hwrite⟩ := faithful_layouts.1 .compat32
  refine ⟨hbytes, ?_, ?_⟩
  · rw [← hbytes, ← htime]
    exact hread t r (by decide +kernel)
  · exact hwrite bytes (by decide +kernel) (by decide +kernel) (by decide +kernel)
      (by decide +kernel)

end Record

/-! ## Cutting -/

namespace Layout

variable {l : Layout}

theorem size_pos (l : Layout) : 0 < l.size :=
  Nat.succ_pos _

/-- A record is cut off by its length, whatever is behind it. -/
theorem cut?_append {piece : List UInt8} (hp : piece.length = l.size) (rest : List UInt8) :
    Device.cut? l (piece ++ rest) = some (piece, rest) := by
  simp only [Device.cut?, List.splitAt_eq, List.take_left' hp, List.drop_left' hp, hp,
    if_neg (Nat.lt_irrefl l.size)]

/-- What is cut off is the front of the bytes, and it is whole. -/
theorem eq_append_of_cut? {bytes piece rest : List UInt8}
    (h : Device.cut? l bytes = some (piece, rest)) :
    bytes = piece ++ rest ∧ piece.length = l.size := by
  simp only [Device.cut?, List.splitAt_eq] at h
  split at h
  next => exact nomatch h
  next hlong =>
    obtain ⟨rfl, rfl⟩ := Prod.mk.inj (Option.some_inj.mp h)
    rw [List.length_take] at hlong ⊢
    exact ⟨(List.take_append_drop ..).symm, by omega⟩

/-- The bytes in pieces of one record each; an unfinished record at the end is left out. -/
def cut (l : Layout) (bytes : List UInt8) : List (List UInt8) :=
  match _h : Device.cut? l bytes with
  | none => []
  | some (piece, rest) => piece :: l.cut rest
termination_by bytes.length
decreasing_by
  obtain ⟨rfl, hp⟩ := eq_append_of_cut? _h
  rw [List.length_append, hp]
  exact Nat.lt_add_of_pos_left l.size_pos

theorem cut_nil (l : Layout) : l.cut [] = [] := by
  have h : Device.cut? l [] = none := by
    rw [Device.cut?, List.splitAt_eq, List.take_nil, List.drop_nil, List.length_nil,
      if_pos l.size_pos]
  rw [cut]
  split
  next => rfl
  next hsome =>
    rw [h] at hsome
    exact nomatch hsome

theorem cut_append {piece : List UInt8} (hp : piece.length = l.size) (rest : List UInt8) :
    l.cut (piece ++ rest) = piece :: l.cut rest := by
  have h := cut?_append hp rest
  rw [cut]
  split
  next hnone =>
    rw [h] at hnone
    exact nomatch hnone
  next hsome =>
    rw [h] at hsome
    obtain ⟨rfl, rfl⟩ := Prod.mk.inj (Option.some_inj.mp hsome)
    rfl

/-- Pieces of one record each are cut apart where they were put together. -/
theorem cut_flatten (pieces : List (List UInt8)) (hp : ∀ piece ∈ pieces, piece.length = l.size) :
    l.cut pieces.flatten = pieces := by
  induction pieces with
  | nil => exact l.cut_nil
  | cons piece pieces ih =>
    rw [List.flatten_cons, cut_append (hp piece (List.mem_cons_self ..)),
      ih fun q hq => hp q (List.mem_cons_of_mem _ hq)]

/-- No whole record is there. -/
theorem cut_of_cut?_none {bytes : List UInt8} (h : Device.cut? l bytes = none) :
    bytes.length < l.size ∧ l.cut bytes = [] := by
  refine ⟨?_, ?_⟩
  · simp only [Device.cut?, List.splitAt_eq, List.length_take] at h
    split at h
    next hshort => omega
    next => exact nomatch h
  · rw [cut]
    split
    next => rfl
    next hsome =>
      rw [h] at hsome
      exact nomatch hsome

/-- As many records are cut off as are whole, and the bytes behind them are left out. -/
theorem cut_spec (l : Layout) (bytes : List UInt8) :
    (l.cut bytes).length = bytes.length / l.size ∧
      (∀ piece ∈ l.cut bytes, piece.length = l.size) ∧
      (l.cut bytes).flatten = bytes.take (l.size * (bytes.length / l.size)) := by
  have hpos := l.size_pos
  induction hn : bytes.length using Nat.strongRecOn generalizing bytes with
  | ind n ih =>
    subst hn
    cases hcut : Device.cut? l bytes with
    | none =>
      obtain ⟨hshort, hnil⟩ := cut_of_cut?_none hcut
      rw [hnil, Nat.div_eq_of_lt hshort]
      exact ⟨rfl, nofun, rfl⟩
    | some parts =>
      obtain ⟨rfl, hp⟩ := eq_append_of_cut? hcut
      have hlength : (parts.1 ++ parts.2).length = l.size + parts.2.length := by
        rw [List.length_append, hp]
      obtain ⟨hcount, hpieces, hflatten⟩ := ih _ (by omega) parts.2 rfl
      rw [cut_append hp, hlength, Nat.add_div_left _ hpos]
      refine ⟨congrArg Nat.succ hcount, List.forall_mem_cons.mpr ⟨hp, hpieces⟩, ?_⟩
      rw [List.flatten_cons, hflatten, Nat.mul_succ, Nat.add_comm (l.size * _), ← hp,
        List.take_length_add_append]

/-- The records that some bytes hold. -/
def records (l : Layout) (bytes : List UInt8) : List Record :=
  (l.cut bytes).filterMap fun piece => (Record.decode? piece).map (·.2)

/-- A whole record can always be read. -/
theorem exists_decode? {piece : List UInt8} (hp : piece.length = l.size) :
    ∃ time r, Record.decode? piece = some (time, r) := by
  have hsize : 16 ≤ l.size := by cases l <;> decide
  cases hd : Record.decode? piece with
  | some d => exact ⟨d.1, d.2, rfl⟩
  | none =>
    have hshort := Record.decode?_eq_none_iff.mp hd
    omega

/-- A part of a record at the end is no record. -/
theorem records_of_cut?_none {bytes : List UInt8} (h : Device.cut? l bytes = none) :
    l.records bytes = [] := by
  rw [records, (cut_of_cut?_none h).2]
  rfl

/-- A record in front is read first. -/
theorem records_append {piece rest : List UInt8} {time : Timestamp} {r : Record}
    (hp : piece.length = l.size) (hd : Record.decode? piece = some (time, r)) :
    l.records (piece ++ rest) = r :: l.records rest := by
  rw [records, cut_append hp, List.filterMap_cons, hd]
  rfl

/-- Records that were written are read again, in front of what comes after them. -/
theorem records_encode {time : Timestamp} (ht : time.secs < l.endSecs) (rs : List Record)
    (rest : List UInt8) :
    l.records (rs.flatMap (l.encode time) ++ rest) = rs ++ l.records rest := by
  induction rs with
  | nil => rfl
  | cons r rs ih =>
    rw [List.flatMap_cons, List.append_assoc,
      records_append (length_encode ..) (Record.decode?_encode ht r), ih]
    rfl

/-- The bytes hold these records, one after the other, and perhaps an unfinished one. -/
structure Holds (l : Layout) (bytes : List UInt8) (records : List Record) : Prop where
  count : (l.cut bytes).length = bytes.length / l.size
  whole : ∀ piece ∈ l.cut bytes, piece.length = l.size
  flatten_eq : (l.cut bytes).flatten = bytes.take (l.size * (bytes.length / l.size))
  decoded : (l.cut bytes).map (fun piece => (Record.decode? piece).map (·.2)) = records.map some

/-- None of the whole records is lost in reading them. -/
theorem holds_records (l : Layout) (bytes : List UInt8) : l.Holds bytes (l.records bytes) := by
  obtain ⟨hcount, hwhole, hflatten⟩ := l.cut_spec bytes
  have hread : ∀ pieces : List (List UInt8), (∀ piece ∈ pieces, piece.length = l.size) →
      pieces.map (fun piece => (Record.decode? piece).map (·.2)) =
        (pieces.filterMap fun piece => (Record.decode? piece).map (·.2)).map some := by
    intro pieces hp
    induction pieces with
    | nil => rfl
    | cons piece pieces ih =>
      obtain ⟨time, r, hd⟩ := exists_decode? (hp piece (List.mem_cons_self ..))
      rw [List.map_cons, List.filterMap_cons, hd, ih fun q hq => hp q (List.mem_cons_of_mem _ hq)]
      rfl
  exact ⟨hcount, hwhole, hflatten, hread _ hwhole⟩

/-- Every whole record is read, and none of them is malformed. -/
theorem length_records (l : Layout) (bytes : List UInt8) :
    (l.records bytes).length = bytes.length / l.size := by
  have h := l.holds_records bytes
  rw [← h.count, ← List.length_map some, ← h.decoded, List.length_map]

end Layout

end FingerTracking
