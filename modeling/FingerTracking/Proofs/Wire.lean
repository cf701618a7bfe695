import FingerTracking.Output
import FingerTracking.Proofs.Assembly
import FingerTracking.Proofs.Codec
import Mathlib.Data.List.Basic

/-!
# A stream read back tells the same reports

Events can reach an assembler by two ways: as they are, or as raw records that were written out,
cut apart, read and pushed one by one. On the second way every event passes through its record, its
bytes and two readers, and nothing of it is lost but the part of its time below the microsecond:

> `pushRecord_record`: an event is pushed by its record as it is pushed itself.
>
> `push_wholeMicros`: pushing does not look at times, so cutting them off can wait.
>
> `readBack_raw`: the reports of a stream read back are those of its events, with times cut off.
-/

namespace FingerTracking

/-! ## Times cut off below the microsecond -/

def Event.wholeMicros (e : Event) : Event :=
  { e with time := e.time.wholeMicros }

def Report.Item.wholeMicros (i : Report.Item) : Report.Item :=
  { i with time := i.time.wholeMicros }

def Report.wholeMicros (r : Report) : Report :=
  r.map Report.Item.wholeMicros

def Report.Pending.wholeMicros (p : Report.Pending) : Report.Pending :=
  { earlier := p.earlier.map Item.wholeMicros, current := p.current.wholeMicros }

def Assembler.wholeMicros (a : Assembler) : Assembler :=
  ⟨a.pending.map Report.Pending.wholeMicros⟩

namespace Assembler

variable {a : Assembler} {e : Event}

/-! ## Pushing -/

/-- Two assemblers after an event, one of them without the times below the microsecond. -/
structure Rounded (p q : Pushed) : Prop where
  assembler_eq : q.assembler = p.assembler.wholeMicros
  report_eq : q.report = p.report.map Report.wholeMicros

/-- Pushing does not look at times, so it does not look at what was cut off either. -/
theorem push_wholeMicros (a : Assembler) (e : Event) :
    Rounded (a.push e) (a.wholeMicros.push e.wholeMicros) :=
  have hpushed := push_retimed Timestamp.wholeMicros a e
  ⟨congrArg Pushed.assembler hpushed, congrArg Pushed.report hpushed⟩

/-- An event comes with the code of its kind; a finger id may come with any. -/
def Coded (e : Event) : Prop :=
  e.kind = .fingerId ∨ e.code = e.kind.code

instance (e : Event) : Decidable (Coded e) :=
  inferInstanceAs (Decidable (_ ∨ _))

/-- The record of an event is pushed as the event is. -/
theorem pushRecord_record (he : Coded e) (a : Assembler) (time : Timestamp) :
    a.pushRecord time e.record = a.push { e with time } := by
  obtain ⟨time', kind, code, value⟩ := e
  -- the kind is found again by type and code, and only a finger id may come with another code
  cases kind with
  | fingerId => rfl
  | axisX | axisY | buttonTouch | sync =>
    rcases he with hkind | hcode
    · exact nomatch hkind
    · dsimp only at hcode
      subst hcode
      rfl

/-- Timed records pushed one after the other. -/
def pushRecords (a : Assembler) : List (Timestamp × Record) → PushedAll
  | [] => { assembler := a, reports := [], notes := [] }
  | r :: rs =>
    let p := a.pushRecord r.1 r.2
    let rest := pushRecords p.assembler rs
    { rest with reports := p.report.toList ++ rest.reports, notes := p.notes ++ rest.notes }

/-- The records of events give the reports of the events. -/
theorem pushRecords_records (es : List Event) :
    ∀ {a : Assembler}, (∀ e ∈ es, Coded e) →
      (a.wholeMicros.pushRecords (es.map fun e => (e.time.wholeMicros, e.record))).reports =
          (a.pushAll es).reports.map Report.wholeMicros ∧
        (a.wholeMicros.pushRecords (es.map fun e => (e.time.wholeMicros, e.record))).assembler =
          (a.pushAll es).assembler.wholeMicros := by
  induction es with
  | nil => exact fun _ => ⟨rfl, rfl⟩
  | cons e es ih =>
    intro a hcoded
    have hone := pushRecord_record (hcoded e (List.mem_cons_self ..)) a.wholeMicros
      e.time.wholeMicros
    obtain ⟨hassembler, hreport⟩ := push_wholeMicros a e
    obtain ⟨hreports, hrest⟩ := ih (a := (a.push e).assembler)
      fun d hd => hcoded d (List.mem_cons_of_mem _ hd)
    rw [List.map_cons, pushRecords, hone, show Event.mk e.time.wholeMicros e.kind e.code e.value =
      e.wholeMicros from rfl, hassembler, hreport, hreports, hrest, pushAll, List.map_append]
    refine ⟨?_, rfl⟩
    cases (a.push e).report <;> rfl

end Assembler

/-! ## Writing -/

/-- Where the bytes are cut into pieces does not show: the pieces after one that fails would not
have fitted either. -/
theorem Sink.writeAll_eq_write (pieces : List (List UInt8)) :
    ∀ s : Sink, s.writeAll pieces = s.write pieces.flatten := by
  induction pieces with
  | nil =>
    intro ⟨room, bytes, flushes⟩
    cases room <;> simp [Sink.writeAll, Sink.write]
  | cons piece rest ih =>
    intro ⟨room, bytes, flushes⟩
    rw [List.flatten_cons]
    cases room with
    | none =>
      simp only [Sink.writeAll, Sink.write, ih, List.append_assoc]
    | some room =>
      by_cases hfits : piece.length ≤ room
      · have hrest : piece.length + rest.flatten.length ≤ room ↔
            rest.flatten.length ≤ room - piece.length := by omega
        simp only [Sink.writeAll, Sink.write, if_pos hfits, ih, List.length_append, hrest,
          Nat.sub_add_eq, List.take_append, List.append_assoc, List.take_of_length_le hfits]
      · have hpast : ¬ piece.length + rest.flatten.length ≤ room := by omega
        have hnone : room - piece.length = 0 := by omega
        simp only [Sink.writeAll, Sink.write, if_neg hfits, List.length_append, if_neg hpast,
          Nat.sub_add_eq, List.take_append, hnone, Nat.zero_sub, List.take_zero, List.append_nil]

namespace Writer

variable {l : Layout}

/-- The bytes of a batch. -/
def output (w : Writer) (batch : Batch) : List UInt8 :=
  (w.render batch).pieces.flatten

/-- A batch is written as its bytes are, and its end is flushed unless that fails. -/
theorem write_eq (w : Writer) (batch : Batch) :
    (w.write batch).result = (w.sink.write (w.output batch)).1 ∧
      (w.write batch).writer =
        { w with
          assembler := (w.render batch).assembler
          sink := if (w.write batch).result.isOk then (w.sink.write (w.output batch)).2.flush
            else (w.sink.write (w.output batch)).2 } := by
  have hall : w.sink.writeAll (w.render batch).pieces = w.sink.write (w.output batch) :=
    Sink.writeAll_eq_write ..
  simp only [write, hall]
  cases (w.sink.write (w.output batch)).1 with
  | ok => exact ⟨rfl, rfl⟩
  | error => exact ⟨rfl, rfl⟩

/-- A sink without a limit takes every batch. -/
theorem write_of_unlimited {w : Writer} (hw : w.sink.room = none) (batch : Batch) :
    (w.write batch).result = .ok () ∧
      (w.write batch).writer =
        { w with
          assembler := (w.render batch).assembler
          sink := { w.sink with bytes := w.sink.bytes ++ w.output batch }.flush } := by
  obtain ⟨hresult, hwriter⟩ := write_eq w batch
  have hwrite : w.sink.write (w.output batch) =
      (.ok (), { w.sink with bytes := w.sink.bytes ++ w.output batch }) := by
    simp only [Sink.write, hw]
  rw [hwrite] at hresult
  rw [hwriter, hresult, hwrite]
  exact ⟨rfl, rfl⟩

/-- The writer after some batches. -/
def writeEach (w : Writer) (batches : List Batch) : Writer :=
  batches.foldl (fun w b => (w.write b).writer) w

/-- Writes raw records of this layout into a sink without a limit, and has written these bytes. -/
structure Wrote (l : Layout) (bytes : List UInt8) (w : Writer) : Prop where
  format_eq : w.format = .raw
  layout_eq : w.layout = l
  room_eq : w.sink.room = none
  bytes_eq : w.sink.bytes = bytes

theorem wrote_new (l : Layout) : Wrote l [] (Writer.new .raw l (Sink.new none)) :=
  ⟨rfl, rfl, rfl, rfl⟩

/-- A batch is written as the records of its events. -/
theorem wrote_write {w : Writer} {bytes : List UInt8} (hw : Wrote l bytes w) (batch : Batch) :
    (w.write batch).result = .ok () ∧
      Wrote l (bytes ++ batch.flatMap fun e => l.encode e.time e.record)
        (w.write batch).writer := by
  obtain ⟨hformat, hlayout, hroom, rfl⟩ := hw
  have hout : w.output batch = batch.flatMap fun e => l.encode e.time e.record := by
    rw [output, render, hformat, hlayout, List.flatMap_def]
  obtain ⟨hresult, hwriter⟩ := write_of_unlimited hroom batch
  rw [hwriter, hout]
  exact ⟨hresult, hformat, hlayout, hroom, rfl⟩

theorem wrote_writeEach (batches : List Batch) :
    ∀ {w : Writer} {bytes : List UInt8}, Wrote l bytes w →
      Wrote l (bytes ++ batches.flatten.flatMap fun e => l.encode e.time e.record)
        (w.writeEach batches) := by
  induction batches with
  | nil =>
    intro w bytes hw
    rw [List.flatten_nil, List.flatMap_nil, List.append_nil]
    exact hw
  | cons batch batches ih =>
    intro w bytes hw
    have hrest := ih (wrote_write hw batch).2
    rw [List.append_assoc, ← List.flatMap_append, ← List.flatten_cons] at hrest
    exact hrest

/-! ## Reading back -/

theorem cut_writeEach (l : Layout) (batches : List Batch) :
    let bytes := ((Writer.new .raw l (Sink.new none)).writeEach batches).sink.bytes
    l.cut bytes = batches.flatten.map (fun e => l.encode e.time e.record) ∧
      (l.cut bytes).flatten = bytes := by
  intro bytes
  have hbytes : bytes = _ := (wrote_writeEach batches (wrote_new l)).bytes_eq
  rw [List.nil_append, List.flatMap_def] at hbytes
  have hcut : l.cut bytes = batches.flatten.map fun e => l.encode e.time e.record := by
    rw [hbytes]
    apply Layout.cut_flatten
    intro piece hp
    obtain ⟨e, -, rfl⟩ := List.mem_map.mp hp
    exact Layout.length_encode ..
  exact ⟨hcut, by rw [hcut, ← hbytes]⟩

/-- What comes back of some events whose records were written as these bytes. -/
structure ReadBack (l : Layout) (events : List Event) (bytes : List UInt8) : Prop where
  /-- The bytes are whole records, and every one of them can be read. -/
  whole : (l.cut bytes).flatten = bytes
  decoded : (l.cut bytes).map Record.decode? =
    events.map fun e => some (e.time.wholeMicros, e.record)
  reports_eq :
    (Assembler.empty.pushRecords ((l.cut bytes).filterMap Record.decode?)).reports =
      (Assembler.empty.pushAll events).reports.map Report.wholeMicros
  pending_eq :
    (Assembler.empty.pushRecords ((l.cut bytes).filterMap Record.decode?)).assembler.pending =
      (Assembler.empty.pushAll events).assembler.pending.map Report.Pending.wholeMicros

/-- **A stream read back tells the same reports.** No write fails; and raw records of events that
come with the codes of their kinds and with times that the layout can hold are cut apart and read
again, and pushed one by one they give the reports of the events, but for what is below the
microsecond. -/
theorem readBack_raw (l : Layout) (batches : List Batch)
    (hcoded : ∀ e ∈ batches.flatten, Assembler.Coded e)
    (hsecs : ∀ e ∈ batches.flatten, e.time.secs < l.endSecs) :
    let w := Writer.new .raw l (Sink.new none)
    (∀ before batch later, batches = before ++ batch :: later →
      ((w.writeEach before).write batch).result = .ok ()) ∧
    ReadBack l batches.flatten (w.writeEach batches).sink.bytes := by
  intro w
  obtain ⟨hcut, hwhole⟩ := cut_writeEach l batches
  have hdecode : ∀ e ∈ batches.flatten, Record.decode? (l.encode e.time e.record) =
      some (e.time.wholeMicros, e.record) := fun e he => Record.decode?_encode (hsecs e he) e.record
  have hread : (l.cut (w.writeEach batches).sink.bytes).filterMap Record.decode? =
      batches.flatten.map fun e => (e.time.wholeMicros, e.record) := by
    rw [hcut, List.filterMap_map, ← List.filterMap_eq_map]
    exact List.filterMap_congr hdecode
  obtain ⟨hreports, hassembler⟩ := Assembler.pushRecords_records batches.flatten
    (a := Assembler.empty) hcoded
  refine ⟨?_, hwhole, ?_, ?_, ?_⟩
  · intro before batch later _
    exact (wrote_write (wrote_writeEach before (wrote_new l)) batch).1
  · rw [hcut, List.map_map]
    exact List.map_congr_left hdecode
  · rw [hread]
    exact hreports
  · rw [hread]
    exact congrArg Assembler.pending hassembler

/-- A report that goes on over the end of a batch, a finger id with a code of its own, and a report
that is left pending. -/
theorem readBack_raw_of_two :
    let t := Timestamp.clamp 1234567891
    let batches : List Batch := [[⟨t, .fingerId, 3, 7⟩, Event.touch t true, Event.x t 5],
      [Event.y t 6, Event.sync t, Event.finger t 8, Event.x t 9]]
    let w := Writer.new .raw .compat32 (Sink.new none)
    (∀ e ∈ batches.flatten, Assembler.Coded e) ∧
      (∀ e ∈ batches.flatten, e.time.secs < Layout.compat32.endSecs) ∧
      (∀ before batch later, batches = before ++ batch :: later →
        ((w.writeEach before).write batch).result = .ok ()) ∧
      ReadBack .compat32 batches.flatten (w.writeEach batches).sink.bytes := by
  intro t batches w
  have hcoded : ∀ e ∈ batches.flatten, Assembler.Coded e := by decide
  have hsecs : ∀ e ∈ batches.flatten, e.time.secs < Layout.compat32.endSecs := by decide
  exact ⟨hcoded, hsecs, readBack_raw .compat32 batches hcoded hsecs⟩

end Writer

end FingerTracking
