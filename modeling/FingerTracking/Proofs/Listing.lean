import FingerTracking.Proofs.Sessions

/-!
# A listing has the records that were asked for

A dump reads a device record by record and prints a line for each, until it has printed as many as
were asked for or the device ends. On a file the next record is there as long as its bytes are, and
it is never malformed (`Device.read_ne_malformed`), so no step is skipped. What is left to print
gets shorter with every step; the number of bytes bounds the steps, but never ends them:

> `lists_of_onFile`: from any point of a dump on, the records still to be printed are printed, and
> the fault at the end is that of the input unless the number asked for has been reached.
>
> `listed_of_file`: dumping a file prints its first records, as many as are asked for and there.
-/

namespace FingerTracking

/-- What a device reads is a record or a fault, and there is nothing to say about it: whatever is
cut off is whole. -/
theorem Device.read_whole (d : Device) : d.read.result ≠ .ok none ∧ d.read.notes = [] := by
  have hbytes : ∀ unread, (d.readBytes unread).result ≠ .ok none ∧
      (d.readBytes unread).notes = [] := by
    intro unread
    unfold readBytes
    split
    next => exact ⟨nofun, rfl⟩
    next bytes rest hcut =>
      obtain ⟨time, r, hr⟩ := Layout.exists_decode? (Layout.eq_append_of_cut? hcut).2
      rw [hr]
      exact ⟨nofun, rfl⟩
  unfold read
  split
  · exact hbytes _
  · exact hbytes _
  · exact ⟨nofun, rfl⟩

/-- No record that a device reads is malformed. -/
theorem Device.read_ne_malformed (d : Device) : d.read.result ≠ .ok none :=
  (read_whole d).1

namespace Dump

variable {d : Dump} {fault : Option IoFault} {lines : List String} {l : Layout}
variable {device : Device} {r : Record} {f : IoFault} {notes : List Note}

/-- Steps without a bound, none of them skipped, until the dump ends with this fault. -/
inductive Lists : Dump → List String → Option IoFault → Prop where
  | ended {d : Dump} {fault : Option IoFault} : d.step = .ended fault → Lists d [] fault
  | printed {d next : Dump} {text : String} {lines : List String} {fault : Option IoFault} :
    d.step = .printed text next → Lists next lines fault → Lists d (text :: lines) fault

/-- A bound above the number of lines makes no difference. -/
theorem run_of_lists (h : Lists d lines fault) {bound : Nat} (hbound : lines.length < bound) :
    run bound d = { lines, fault } := by
  induction h generalizing bound with
  | ended hstep =>
    obtain ⟨bound, rfl⟩ := Nat.exists_eq_add_one_of_ne_zero (Nat.ne_zero_of_lt hbound)
    rw [run, hstep]
  | printed hstep _ ih =>
    obtain ⟨bound, rfl⟩ := Nat.exists_eq_add_one_of_ne_zero (Nat.ne_zero_of_lt hbound)
    simp only [run, hstep, ih (Nat.lt_of_succ_lt_succ hbound)]

/-! ## One step -/

/-- Whether enough is printed is looked at before the device is read. -/
theorem step_of_complete (hd : d.isComplete = true) : d.step = .ended none := by
  rw [step, if_pos hd]

/-- A fault of the device ends the dump. -/
theorem step_of_read_error (hd : d.isComplete = false)
    (hread : d.device.read.result = .error f) : d.step = .ended (some f) := by
  rw [step, hd]
  simp only [Bool.false_eq_true, if_false, hread]

/-- A record is printed under its number, and the next step begins behind it. -/
theorem step_of_read (hd : d.isComplete = false)
    (hread : d.device.read = { result := .ok (some r), source := device, notes }) :
    d.step = .printed (line (d.printed + 1) r)
      { d with device, printed := d.printed + 1 } := by
  rw [step, hd]
  simp only [Bool.false_eq_true, if_false, hread]

/-! ## What is printed -/

/-- The lines of some records, behind those that have been printed. -/
def numbered : Nat → List Record → List String
  | _, [] => []
  | printed, r :: rs => line (printed + 1) r :: numbered (printed + 1) rs

theorem length_numbered (rs : List Record) :
    ∀ printed, (numbered printed rs).length = rs.length := by
  induction rs with
  | nil => exact fun _ => rfl
  | cons r rs ih => exact fun printed => congrArg (· + 1) (ih (printed + 1))

/-- Of the records that are there, those that the dump has still to print. -/
def left (d : Dump) (rs : List Record) : List Record :=
  if d.count = 0 then rs else rs.take (d.count - d.printed)

/-- The fault that the dump will end with if these records are there. -/
def faultAt (d : Dump) (rs : List Record) : Option IoFault :=
  if 0 < d.count ∧ d.count ≤ d.printed + rs.length then none else some .endOfInput

/-- A dump is complete once it has printed as many as were asked for. If no number was given, it
never is. -/
theorem isComplete_iff : d.isComplete = true ↔ 0 < d.count ∧ d.count ≤ d.printed := by
  rw [isComplete, Bool.and_eq_true, bne_iff_ne, decide_eq_true_iff, Nat.pos_iff_ne_zero]

theorem not_of_isComplete (hd : d.isComplete = false) :
    ¬ (0 < d.count ∧ d.count ≤ d.printed) := by
  rw [← isComplete_iff, hd]
  exact Bool.false_ne_true

/-- A complete dump has nothing left to print, and it ends well. -/
theorem left_of_complete (hd : d.isComplete = true) (rs : List Record) :
    d.left rs = [] ∧ d.faultAt rs = none := by
  obtain ⟨hcount, hle⟩ := isComplete_iff.mp hd
  refine ⟨?_, if_pos ⟨hcount, Nat.le_add_right_of_le hle⟩⟩
  rw [left, if_neg (Nat.ne_of_gt hcount), Nat.sub_eq_zero_of_le hle, List.take_zero]

/-- A dump that runs out of records before is at fault. -/
theorem left_nil (hd : d.isComplete = false) :
    d.left [] = [] ∧ d.faultAt [] = some .endOfInput := by
  refine ⟨?_, if_neg (not_of_isComplete hd)⟩
  rw [left, List.take_nil, ite_self]

/-- One record printed, and the rest is left to the dump behind it. -/
theorem left_cons (hd : d.isComplete = false) (device : Device) (r : Record) (rs : List Record) :
    let next := { d with device, printed := d.printed + 1 }
    d.left (r :: rs) = r :: next.left rs ∧ d.faultAt (r :: rs) = next.faultAt rs := by
  have hnot := not_of_isComplete hd
  have hlength : d.printed + (r :: rs).length = d.printed + 1 + rs.length := by
    rw [List.length_cons, Nat.add_assoc, Nat.add_comm 1]
  refine ⟨?_, ?_⟩
  · by_cases hcount : d.count = 0
    · simp only [left, hcount, if_true]
    · have hone : d.count - d.printed = d.count - (d.printed + 1) + 1 := by omega
      simp only [left, hcount, if_false, hone, List.take_succ_cons]
  · simp only [faultAt, hlength]

/-- **What is left is printed.** -/
theorem lists_of_onFile (bytes : List UInt8) :
    ∀ {d : Dump}, d.device.OnFile l bytes →
      Lists d (numbered d.printed (d.left (l.records bytes))) (d.faultAt (l.records bytes)) := by
  -- on the bytes that are not read yet, as long as the records of them are cut off
  induction hn : bytes.length using Nat.strongRecOn generalizing bytes with
  | ind n ih =>
    subst hn
    intro d hf
    cases hd : d.isComplete with
    | true =>
      obtain ⟨hleft, hfault⟩ := left_of_complete hd (l.records bytes)
      rw [hleft, hfault]
      exact .ended (step_of_complete hd)
    | false =>
      rcases hf.read_cases with ⟨hnil, hread⟩ | ⟨r, rest, hrecords, hshorter, hread⟩
      · obtain ⟨hleft, hfault⟩ := left_nil hd
        rw [hnil, hleft, hfault]
        exact .ended (step_of_read_error hd (congrArg Reading.result hread))
      · obtain ⟨hleft, hfault⟩ := left_cons hd (d.device.onRest rest) r (l.records rest)
        rw [hrecords, hleft, hfault]
        exact .printed (step_of_read hd hread) (ih rest.length hshorter rest rfl (hf.onRest rest))

end Dump

/-! ## Dumping a file -/

namespace Program

variable {c : Config} {fs : Files} {bytes : List UInt8}

/-- How many records are printed if `count` are asked for and `whole` are there. -/
def asked (count whole : Nat) : Nat :=
  if 0 < count ∧ count ≤ whole then count else whole

theorem asked_le (count whole : Nat) : asked count whole ≤ whole := by
  rw [asked]
  split
  next hreached => exact hreached.2
  next => exact Nat.le_refl whole

/-- The lines of a dump of these bytes. -/
def listing (l : Layout) (bytes : List UInt8) (count : Nat) : List String :=
  Dump.numbered 0 ((l.records bytes).take (asked count (bytes.length / l.size)))

/-- What is printed of a listing. -/
def printed (lines : List String) : List UInt8 :=
  bytesOf (String.join (lines.map fun text => text ++ "\n"))

/-- Dumping the file prints the listing. It does so step by step without skipping a record, and by
the same steps it ends: well if the number asked for is there, and with the end of the input if it
is not. -/
structure Listed (c : Config) (fs : Files) (bytes : List UInt8) (count : Nat) : Prop where
  holds : c.layout.Holds bytes (c.layout.records bytes)
  length_eq : (listing c.layout bytes count).length = asked count (bytes.length / c.layout.size)
  /-- No device reads a malformed record, whatever it is on. -/
  wellFormed : ∀ d : Device, d.read.result ≠ .ok none
  complete : 0 < count ∧ count ≤ bytes.length / c.layout.size →
    Dump.Lists (Dump.start (Device.start c.device c.layout (.file bytes)) count)
      (listing c.layout bytes count) none ∧
    runDump c count fs =
      { status := 0
        out := printed (listing c.layout bytes count)
        err := dumpTitle c.device }
  ended : ¬ (0 < count ∧ count ≤ bytes.length / c.layout.size) →
    Dump.Lists (Dump.start (Device.start c.device c.layout (.file bytes)) count)
      (listing c.layout bytes count) (some .endOfInput) ∧
    runDump c count fs =
      { status := 1
        out := printed (listing c.layout bytes count)
        err := dumpTitle c.device ++ errorLine IoFault.endOfInput.detail }

/-- There is a line for each record that is printed. -/
theorem length_listing (l : Layout) (bytes : List UInt8) (count : Nat) :
    (listing l bytes count).length = asked count (bytes.length / l.size) := by
  rw [listing, Dump.length_numbered, List.length_take, Layout.length_records, asked]
  split
  next hreached => exact Nat.min_eq_left hreached.2
  next => exact Nat.min_self _

/-- From the start of a dump all that is asked for is left to print. -/
theorem left_start (device : Device) (l : Layout) (bytes : List UInt8) (count : Nat) :
    (Dump.start device count).left (l.records bytes) =
        (l.records bytes).take (asked count (bytes.length / l.size)) ∧
      (Dump.start device count).faultAt (l.records bytes) =
        if 0 < count ∧ count ≤ bytes.length / l.size then none else some .endOfInput := by
  have hlength := l.length_records bytes
  refine ⟨?_, ?_⟩
  · rw [Dump.left, asked, ← hlength]
    show (if count = 0 then _ else List.take (count - 0) _) = _
    by_cases hreached : 0 < count ∧ count ≤ (l.records bytes).length
    · rw [if_neg (Nat.ne_of_gt hreached.1), if_pos hreached, Nat.sub_zero]
    · rw [if_neg hreached, List.take_length]
      split
      next => rfl
      next hcount => exact List.take_of_length_le (by omega)
  · rw [Dump.faultAt, ← hlength]
    show (if 0 < count ∧ count ≤ 0 + _ then _ else _) = _
    rw [Nat.zero_add]

/-- What a dump of a file prints, and how it ends. Its bound, the number of bytes, is not
reached. -/
theorem dump_eq (path : String) (l : Layout) (bytes : List UInt8) (count : Nat) :
    let device := Device.start path l (.file bytes)
    let fault := if 0 < count ∧ count ≤ bytes.length / l.size then none else some IoFault.endOfInput
    Dump.Lists (Dump.start device count) (listing l bytes count) fault ∧
      device.dump count = { lines := listing l bytes count, fault } := by
  intro device fault
  obtain ⟨hleft, hfault⟩ := left_start device l bytes count
  have hlists : Dump.Lists (Dump.start device count) _ _ :=
    Dump.lists_of_onFile (l := l) bytes ⟨rfl, rfl⟩
  rw [hleft, hfault] at hlists
  have hstart : Dump.numbered (Dump.start device count).printed
      ((l.records bytes).take (asked count (bytes.length / l.size))) = listing l bytes count := rfl
  rw [hstart] at hlists
  refine ⟨hlists, Dump.run_of_lists hlists ?_⟩
  -- there are no more lines than bytes
  rw [length_listing]
  exact Nat.lt_succ_of_le (Nat.le_trans (asked_le ..) (Nat.div_le_self ..))

/-- **A listing has the records that were asked for.** Of the whole records of a file the first ones
are printed, one a line and numbered from 1: as many as are asked for, or all if there are fewer or
if it is zero. Only in the first case does the dump end well. -/
theorem listed_of_file (hfile : fs.look c.device = .ok (.file bytes)) (count : Nat) :
    Listed c fs bytes count := by
  obtain ⟨hlists, hdump⟩ := dump_eq c.device c.layout bytes count
  refine ⟨Layout.holds_records .., length_listing .., Device.read_ne_malformed, ?_, ?_⟩
  · intro hreached
    rw [if_pos hreached] at hlists hdump
    refine ⟨hlists, ?_⟩
    simp only [runDump, hfile, hdump, printed]
  · intro hmissed
    rw [if_neg hmissed] at hlists hdump
    refine ⟨hlists, ?_⟩
    simp only [runDump, hfile, hdump, printed]

/-- A file with two records and a part of one more, of which both and then three are asked for. -/
theorem listed_of_file_cut_short :
    let c := Config.onProfile {} Profile.standard
    let records : List Record := [⟨Record.typeAbsolute, Record.codeX, 320⟩,
      ⟨Record.typeKey, Record.codeTouch, -1⟩]
    let bytes := records.flatMap (c.layout.encode Timestamp.epoch) ++ [1, 2, 3]
    let lines := ["     1  ABS_X(0)  value=320", "     2  BTN_TOUCH  value=-1"]
    let fs : Files := ⟨fun _ => .ok (.file bytes)⟩
    listing c.layout bytes 2 = lines ∧ listing c.layout bytes 3 = lines ∧
      runDump c 2 fs = { status := 0, out := printed lines, err := dumpTitle c.device } ∧
      runDump c 3 fs =
        { status := 1
          out := printed lines
          err := dumpTitle c.device ++ errorLine IoFault.endOfInput.detail } ∧
      ∀ count, Listed c fs bytes count := by
  intro c records bytes lines fs
  have hfile : fs.look c.device = .ok (.file bytes) := rfl
  have hlisted := listed_of_file hfile
  have htwo : listing c.layout bytes 2 = lines := by decide +kernel
  have hthree : listing c.layout bytes 3 = lines := by decide +kernel
  have hcomplete := ((hlisted 2).complete (by decide +kernel)).2
  have hended := ((hlisted 3).ended (by decide +kernel)).2
  rw [htwo] at hcomplete
  rw [hthree] at hended
  exact ⟨htwo, hthree, hcomplete, hended, hlisted⟩

end Program

end FingerTracking
