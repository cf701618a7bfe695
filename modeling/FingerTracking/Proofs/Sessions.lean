import FingerTracking.Program
import FingerTracking.Proofs.Pointer
import FingerTracking.Proofs.Wire

/-!
# From the bytes of a file to lines of reports

A session of tracking polls its feed over and over. Where a call ends, what time it is by then and
how many records a call may take make no difference to what is printed. A file is always ready, and
it fails only at its end, so by then every whole record has gone to the panel and every frame that
is complete has been tracked and written:

> `went_step`: one step of a session, with the records that it takes.
>
> `reportLines_stamped`: the lines do not depend on the times of the records.
>
> `reported_of_file`: tracking a file prints the reports of its records and ends with the end of the
> input.

What a session does is put together from what its feed does (`Feed.Advanced`) and what its writer
does (`Writer.Printed`); both can be continued, and so can the session (`Went.trans`).
-/

namespace FingerTracking

open Event

/-! ## Lines of reports -/

def Report.lines (reports : List Report) : List UInt8 :=
  reports.flatMap fun r => Writer.line r.text

/-- What is printed of some batches, one after the other. -/
def reportLines (batches : List Batch) : List UInt8 :=
  Report.lines (Assembler.empty.pushAll batches.flatten).reports

/-- Times are not printed. -/
theorem Report.text_retimed (g : Timestamp → Timestamp) (r : Report) :
    Report.text (r.retimed g) = r.text := by
  rw [Report.text, Report.text, Report.retimed, List.map_map]
  rfl

theorem reportLines_retimed (g : Timestamp → Timestamp) (batches : List Batch) :
    reportLines (batches.map (·.map (Event.retimed g))) = reportLines batches := by
  have hpushed := congrArg Assembler.PushedAll.reports
    (Assembler.pushAll_retimed g batches.flatten Assembler.empty)
  rw [List.map_flatten] at hpushed
  rw [reportLines, reportLines, Report.lines, show Assembler.empty = Assembler.empty.retimed g from
    rfl, hpushed]
  show List.flatMap _ (List.map _ _) = _
  rw [List.flatMap_map]
  simp only [Report.text_retimed]
  rfl

/-! ## Times that do not show -/

namespace Pointer

/-- The pointer without the time of its last place. -/
def untimed (m : Pointer) : Pointer :=
  { m with finger := m.finger.map fun f => (f.1, { f.2 with time := Timestamp.epoch }) }

/-- The pointer steps in the same way at any time. -/
theorem step_untimed (s : Settings) (m : Pointer) (contact : Option Contact) (now : Timestamp) :
    m.untimed.step s contact Timestamp.epoch =
      ((m.step s contact now).1.untimed,
        (m.step s contact now).2.map (Event.retimed fun _ => Timestamp.epoch)) := by
  obtain ⟨_ | ⟨id, p⟩, nextId⟩ := m
  · cases contact with
    | none => rfl
    | some c =>
      simp only [step, untimed, Option.map_none]
      split <;> rfl
  · cases contact with
    | none => rfl
    | some c =>
      have hnext : next s { p with time := Timestamp.epoch } c Timestamp.epoch =
          { next s p c now with time := Timestamp.epoch } := by
        rw [next, next]
        split <;> rfl
      simp only [step, untimed, Option.map_some, hnext]
      rfl

/-- A run of the pointer can have its times erased before it or after it. -/
theorem batches_untimed (s : Settings) (frames : Frames) : ∀ m : Pointer,
    (m.batches s frames).map (·.map (Event.retimed fun _ => Timestamp.epoch)) =
      m.untimed.batches s (frames.map fun f => (f.1, Timestamp.epoch)) := by
  induction frames with
  | nil => exact fun _ => rfl
  | cons f frames ih =>
    intro m
    rw [batches, List.map_cons, ih, List.map_cons, batches, step_untimed s m f.1.head? f.2]

end Pointer

/-- The panel makes its frames of the records alone. -/
theorem Panel.frames_untimed (rs : Readings) : ∀ p : Panel,
    (p.frames rs).map (fun f => (f.1, Timestamp.epoch)) =
      p.frames (rs.map fun r => (r.1, Timestamp.epoch)) := by
  induction rs with
  | nil => exact fun _ => rfl
  | cons r rs ih =>
    intro p
    rw [List.map_cons, frames, frames, List.map_append, ih]
    cases (p.feed r.1).frame <;> rfl

/-- What is printed of the frames of a panel does not depend on when its records are read. -/
theorem reportLines_stamped {s : Settings} {t₀ : Tracker} (h : Tracker.new s = .ok t₀)
    (scaling : Scaling) {rs qs : Readings} (hrs : rs.map (·.1) = qs.map (·.1)) :
    reportLines (t₀.batches ((Panel.new scaling).frames rs)) =
      reportLines (t₀.batches ((Panel.new scaling).frames qs)) := by
  have huntimed : ∀ rs : Readings, reportLines (t₀.batches ((Panel.new scaling).frames rs)) =
      reportLines (Pointer.new.batches s ((Panel.new scaling).frames
        ((rs.map (·.1)).map fun r => (r, Timestamp.epoch)))) := by
    intro rs
    obtain ⟨hbatches, -⟩ := Tracker.follows_through _ (Tracker.follows_new h)
      (Panel.lone_frames rs (p := Panel.new scaling))
    rw [hbatches, ← reportLines_retimed fun _ => Timestamp.epoch, Pointer.batches_untimed,
      Panel.frames_untimed, List.map_map]
    rfl
  rw [huntimed, huntimed, hrs]

/-! ## Reading a file -/

namespace Device

variable {l : Layout} {d : Device} {bytes : List UInt8}

/-- The device is a file with these bytes still to be read. -/
structure OnFile (l : Layout) (bytes : List UInt8) (d : Device) : Prop where
  layout_eq : d.layout = l
  medium_eq : d.medium = .file bytes

/-- The device with these bytes left to be read. -/
def onRest (d : Device) (rest : List UInt8) : Device :=
  { d with medium := .file rest }

/-- A file that has been read from is a file with less in it. -/
theorem OnFile.onRest (hd : d.OnFile l bytes) (rest : List UInt8) : (d.onRest rest).OnFile l rest :=
  ⟨hd.layout_eq, rfl⟩

/-- A device on a file reads the next record, or it has come to the end of them. -/
theorem OnFile.read_cases (hd : d.OnFile l bytes) :
    l.records bytes = [] ∧
        Source.read d = { result := .error .endOfInput, source := d.onRest [], notes := [] } ∨
      ∃ r rest, l.records bytes = r :: l.records rest ∧ rest.length < bytes.length ∧
        Source.read d = { result := .ok (some r), source := d.onRest rest, notes := [] } := by
  have hread : Source.read d = d.readBytes bytes := by
    simp only [Source.read, read, hd.medium_eq]
  rw [hread, readBytes, hd.layout_eq]
  cases hcut : cut? l bytes with
  | none =>
    refine Or.inl ⟨Layout.records_of_cut?_none hcut, ?_⟩
    simp only [withUnread, hd.medium_eq, Device.onRest]
  | some parts =>
    obtain ⟨piece, rest⟩ := parts
    obtain ⟨rfl, hp⟩ := Layout.eq_append_of_cut? hcut
    obtain ⟨time, r, hr⟩ := Layout.exists_decode? hp
    refine Or.inr ⟨r, rest, Layout.records_append hp hr, ?_, ?_⟩
    · rw [List.length_append, hp]
      exact Nat.lt_add_of_pos_left l.size_pos
    · simp only [hr, withUnread, hd.medium_eq, Device.onRest]

theorem OnFile.ready (hd : d.OnFile l bytes) : Source.ready d = (.ok true, d) := by
  simp only [Source.ready, isReady, hd.medium_eq]

end Device

namespace Feed

variable {l : Layout} {f : Feed Device} {bytes rest : List UInt8} {now : Timestamp}

/-- A call of `most` turns has fed the records `taken` of a file to the panel. It fails only at the
end of the file, with nothing left. -/
structure Took (l : Layout) (bytes : List UInt8) (f : Feed Device) (now : Timestamp) (most : Nat)
    (taken : List Record) (rest : List UInt8) (p : Polled Device) : Prop where
  onFile : p.feed.source.OnFile l rest
  records_eq : l.records bytes = taken ++ l.records rest
  advanced : Advanced f (taken.map fun r => (r, now)) p.batch?.toList p.feed
  length_le : rest.length ≤ bytes.length
  moves : ∀ b, p.result = .ok b → 0 < most → rest.length < bytes.length
  ends : ∀ e, p.result = .error e → e = .endOfInput ∧ l.records rest = []

/-- A call has nothing to take from a file without a whole record. -/
theorem took_end {most : Nat} (hf : f.source.OnFile l bytes) (hnil : l.records bytes = [])
    (hread : Source.read f.source =
      { result := .error .endOfInput, source := f.source.onRest [], notes := [] })
    (now : Timestamp) : Took l bytes f now (most + 1) [] [] (pollUpTo now (most + 1) f) := by
  have hpoll : pollUpTo now (most + 1) f =
      { result := .error .endOfInput, feed := { f with source := f.source.onRest [] }
        notes := [] } := by
    simp only [pollUpTo, hf.ready, hread]
  have hempty : l.records [] = [] := by
    rw [Layout.records, Layout.cut_nil]
    rfl
  rw [hpoll]
  refine ⟨hf.onRest [], ?_, .rested rfl rfl rfl rfl, Nat.zero_le _, (fun _ h => by cases h), ?_⟩
  · rw [hnil, hempty]
    rfl
  · intro e he
    exact ⟨(Except.error.inj he).symm, hempty⟩

/-- A record that completes no frame is taken in front of what the rest of the call takes. -/
theorem Took.cons {most : Nat} {r : Record} {taken : List Record} {left : List UInt8}
    {p q : Polled Device} (hrecords : l.records bytes = r :: l.records rest)
    (hshorter : rest.length < bytes.length) (hr : (f.panel.feed r).frame = none)
    (ht : Took l rest (f.fed r (f.source.onRest rest)) now most taken left p)
    (hfeed : q.feed = p.feed) (hresult : q.result = p.result) :
    Took l bytes f now (most + 1) (r :: taken) left q where
  onFile := hfeed ▸ ht.onFile
  records_eq := by
    rw [hrecords, ht.records_eq]
    rfl
  advanced := by
    rw [hfeed, Polled.batch?_of_result hresult]
    exact (advanced_fed hr now _).trans ht.advanced
  length_le := Nat.le_trans ht.length_le (Nat.le_of_lt hshorter)
  moves _ _ _ := Nat.lt_of_le_of_lt ht.length_le hshorter
  ends e he := ht.ends e (hresult.symm.trans he)

/-- A call on a file takes the records up to the end of a frame, or as many as it may. The induction
is on the latter. -/
theorem took_pollUpTo (now : Timestamp) (most : Nat) :
    ∀ {f : Feed Device} {bytes : List UInt8}, f.source.OnFile l bytes →
      ∃ taken rest, Took l bytes f now most taken rest (pollUpTo now most f) := by
  induction most with
  | zero =>
    intro f bytes hf
    exact ⟨[], bytes, hf, rfl, .rested rfl rfl rfl rfl, Nat.le_refl _,
      fun _ _ h => absurd h (Nat.lt_irrefl 0), fun _ h => by cases h⟩
  | succ most ih =>
    intro f bytes hf
    rcases hf.read_cases with ⟨hnil, hread⟩ | ⟨r, rest, hrecords, hshorter, hread⟩
    · exact ⟨[], [], took_end hf hnil hread now⟩
    · have hturn := pollUpTo_record hf.ready hread now most
      cases hr : (f.panel.feed r).frame with
      | none =>
        rw [hr] at hturn
        obtain ⟨hfeed, hresult⟩ := hturn
        obtain ⟨taken, left, ht⟩ := ih (f := f.fed r (f.source.onRest rest)) (hf.onRest rest)
        exact ⟨r :: taken, left, ht.cons hrecords hshorter hr hfeed hresult⟩
      | some contacts =>
        rw [hr] at hturn
        obtain ⟨hfeed, hresult⟩ := hturn
        refine ⟨[r], rest, hfeed ▸ hf.onRest rest, hrecords, ?_, Nat.le_of_lt hshorter,
          fun _ _ _ => hshorter, ?_⟩
        · rw [hfeed, Polled.batch?_of_ok hresult]
          exact advanced_tracked hr now _
        · intro e he
          rw [hresult] at he
          cases he

end Feed

/-! ## Writing reports -/

namespace Writer

variable {w w' w'' : Writer} {batches later : List Batch}

/-- Writes reports into a sink without a limit. -/
structure Reporting (w : Writer) : Prop where
  format_eq : w.format = .reports
  room_eq : w.sink.room = none

/-- `w'` is `w` with these batches written. -/
structure Printed (w : Writer) (batches : List Batch) (w' : Writer) : Prop where
  reporting : w'.Reporting
  assembler_eq : w'.assembler = (w.assembler.pushAll batches.flatten).assembler
  bytes_eq : w'.sink.bytes =
    w.sink.bytes ++ Report.lines (w.assembler.pushAll batches.flatten).reports

theorem Printed.nothing (hw : w.Reporting) : Printed w [] w :=
  ⟨hw, rfl, (List.append_nil _).symm⟩

/-- What one batch leaves pending goes into the lines of the next. -/
theorem Printed.trans (h₁ : Printed w batches w') (h₂ : Printed w' later w'') :
    Printed w (batches ++ later) w'' := by
  obtain ⟨hassembler, hreports⟩ :=
    Assembler.pushAll_append batches.flatten later.flatten w.assembler
  refine ⟨h₂.reporting, ?_, ?_⟩
  · rw [h₂.assembler_eq, h₁.assembler_eq, List.flatten_append, hassembler]
  · rw [h₂.bytes_eq, h₁.bytes_eq, h₁.assembler_eq, List.flatten_append, hreports, Report.lines,
      Report.lines, Report.lines, List.flatMap_append, List.append_assoc]

/-- Writing a batch never fails in a session, since its sink has no limit. -/
theorem printed_write (hw : w.Reporting) (batch : Batch) :
    (w.write batch).result = .ok () ∧ Printed w [batch] (w.write batch).writer := by
  have hrender : w.render batch =
      { pieces := (w.assembler.pushAll batch).reports.map fun r => line r.text
        assembler := (w.assembler.pushAll batch).assembler
        notes := (w.assembler.pushAll batch).notes } := by
    rw [render, hw.format_eq]
  obtain ⟨hresult, hwriter⟩ := write_of_unlimited hw.room_eq batch
  rw [hwriter, output, hrender, ← List.flatMap_def]
  refine ⟨hresult, ⟨hw.format_eq, hw.room_eq⟩, ?_, ?_⟩ <;>
    rw [List.flatten_cons, List.flatten_nil, List.append_nil]
  rfl

end Writer

/-! ## A session -/

namespace Program

variable {l : Layout} {s t u : Session} {bytes : List UInt8}

/-- Steps without a bound until one of them fails. -/
inductive Session.Runs (clock : Nat → Timestamp) : Nat → Session → Failure → Session → Prop where
  | fail {i : Nat} {s t : Session} {f : Failure} :
      s.step (clock i) = (some f, t) → Runs clock i s f t
  | next {i : Nat} {s t u : Session} {f : Failure} :
      s.step (clock i) = (none, t) → Runs clock (i + 1) t f u → Runs clock i s f u

/-- `t` is `s` with these records fed to the panel and the batches that come of it written. -/
structure Session.Went (s : Session) (rs : Readings) (batches : List Batch) (t : Session) :
    Prop where
  feed : Feed.Advanced s.feed rs batches t.feed
  writer : Writer.Printed s.writer batches t.writer

/-- A session can be continued like its feed and its writer. -/
theorem Session.Went.trans {rs qs : Readings} {bs cs : List Batch} (h₁ : Session.Went s rs bs t)
    (h₂ : Session.Went t qs cs u) : Session.Went s (rs ++ qs) (bs ++ cs) u :=
  ⟨h₁.feed.trans h₂.feed, h₁.writer.trans h₂.writer⟩

/-- A session on a file that writes reports. -/
structure Session.Reads (l : Layout) (bytes : List UInt8) (s : Session) : Prop where
  onFile : s.feed.source.OnFile l bytes
  limit_pos : 0 < s.feed.limit
  reporting : s.writer.Reporting

/-- A step takes some records, and it does not fail before all of them are taken. -/
theorem went_step (hs : s.Reads l bytes) (now : Timestamp) :
    ∃ taken rest batches, (s.step now).2.Reads l rest ∧
      l.records bytes = taken ++ l.records rest ∧
      s.Went (taken.map fun r => (r, now)) batches (s.step now).2 ∧
      ((s.step now).1 = none ∧ rest.length < bytes.length ∨
        (s.step now).1 = some (.tracking (.io .endOfInput)) ∧ l.records rest = []) := by
  obtain ⟨taken, rest, ht⟩ := Feed.took_pollUpTo now s.feed.limit hs.onFile
  have hlimit : 0 < (s.feed.poll now).feed.limit := ht.advanced.limit_eq ▸ hs.limit_pos
  have hadvanced : Feed.Advanced s.feed (taken.map fun r => (r, now))
      (s.feed.poll now).batch?.toList (s.feed.poll now).feed := ht.advanced
  refine ⟨taken, rest, (s.feed.poll now).batch?.toList, ?_⟩
  cases hresult : (s.feed.poll now).result with
  | error e =>
    obtain ⟨rfl, hnil⟩ := ht.ends e hresult
    have hbatch : (s.feed.poll now).batch? = none := by rw [Feed.Polled.batch?, hresult]
    rw [hbatch] at hadvanced ⊢
    simp only [Session.step, hresult]
    exact ⟨⟨ht.onFile, hlimit, hs.reporting⟩, ht.records_eq,
      ⟨hadvanced, .nothing hs.reporting⟩, .inr ⟨trivial, hnil⟩⟩
  | ok b =>
    have hshorter := ht.moves b hresult hs.limit_pos
    have hbatch := Feed.Polled.batch?_of_ok hresult
    rw [hbatch] at hadvanced ⊢
    cases b with
    | none =>
      simp only [Session.step, hresult]
      exact ⟨⟨ht.onFile, hlimit, hs.reporting⟩, ht.records_eq,
        ⟨hadvanced, .nothing hs.reporting⟩, .inl ⟨trivial, hshorter⟩⟩
    | some batch =>
      obtain ⟨hok, hprinted⟩ := Writer.printed_write hs.reporting batch
      simp only [Session.step, hresult, hok]
      exact ⟨⟨ht.onFile, hlimit, hprinted.reporting⟩, ht.records_eq, ⟨hadvanced, hprinted⟩,
        .inl ⟨trivial, hshorter⟩⟩

/-- A session on a file ends by itself, at the end of the file, and has written what comes of its
records. Bytes are what bounds its steps. -/
theorem went_trackFrom (clock : Nat → Timestamp) (bound : Nat) :
    ∀ {i : Nat} {s : Session} {bytes : List UInt8}, s.Reads l bytes → bytes.length < bound →
      ∃ t rs batches, trackFrom clock bound i s = (.tracking (.io .endOfInput), t) ∧
        Session.Runs clock i s (.tracking (.io .endOfInput)) t ∧
        rs.map (·.1) = l.records bytes ∧ s.Went rs batches t := by
  induction bound with
  | zero => exact fun _ h => absurd h (Nat.not_lt_zero _)
  | succ bound ih =>
    intro i s bytes hs hbound
    obtain ⟨taken, rest, batches, hnext, hrecords, hwent, hcases⟩ := went_step hs (clock i)
    have htaken : (taken.map fun r => (r, clock i)).map (·.1) = taken := by
      rw [List.map_map]
      exact List.map_id _
    rcases hcases with ⟨hnone, hshorter⟩ | ⟨hsome, hnil⟩
    · have hstep : s.step (clock i) = (none, (s.step (clock i)).2) := Prod.ext hnone rfl
      obtain ⟨t, rs, later, htrack, hruns, hrs, hrest⟩ := ih (i := i + 1) hnext (by omega)
      refine ⟨t, _, _, ?_, .next hstep hruns, ?_, hwent.trans hrest⟩
      · rw [trackFrom, hstep]
        exact htrack
      · rw [List.map_append, htaken, hrs, hrecords]
    · have hstep : s.step (clock i) =
          (some (.tracking (.io .endOfInput)), (s.step (clock i)).2) := Prod.ext hsome rfl
      refine ⟨_, _, _, ?_, .fail hstep, ?_, hwent⟩
      · rw [trackFrom, hstep]
      · rw [htaken, hrecords, hnil, List.append_nil]

/-! ## Tracking a file -/

/-- A configuration without a fault has a scaling. -/
theorem exists_scaling {c : Config} (h : c.fault? = none) : ∃ scaling, c.scaling = .ok scaling := by
  rw [Config.scaling, Scaling.new]
  cases hf : Scaling.fault? c.screenWidth c.screenHeight c.xMax c.yMax with
  | none => exact ⟨_, rfl⟩
  | some f =>
    rw [Config.fault?, hf] at h
    split at h
    · exact nomatch h
    · split at h
      · exact nomatch h
      · split at h <;> exact nomatch h

/-- Tracking the file prints `out` and ends with the end of the input. It does so by a step that
fails, not because the bound on its steps has been reached. -/
structure Ends (c : Config) (clock : Nat → Timestamp) (fs : Files) (bytes out : List UInt8) :
    Prop where
  outcome : runTrack c clock fs =
    { status := 1, out, err := errorLine (Failure.tracking (.io .endOfInput)).detail }
  runs : ∃ session final, Session.new c (Device.start c.device c.layout (.file bytes)) = .ok session ∧
    Session.Runs clock 0 session (.tracking (.io .endOfInput)) final ∧
    final.writer.sink.bytes = out

/-- **From bytes to lines.** Whatever is in the file, tracking it prints the reports of its whole
records: all of them are fed to a panel, the frames to a new tracker and the batches to a new
assembler. Neither the clock nor the number of records of a call shows in the lines. -/
theorem reported_of_file {c : Config} {fs : Files} {t₀ : Tracker} (hvalid : c.fault? = none)
    (hformat : c.format = .reports) (hnew : Tracker.new c.settings = .ok t₀)
    (hfile : fs.look c.device = .ok (.file bytes)) :
    ∃ scaling, c.scaling = .ok scaling ∧ c.layout.Holds bytes (c.layout.records bytes) ∧
      ∀ stamped : Readings, stamped.map (·.1) = c.layout.records bytes →
        ∀ limit, 1 ≤ limit → ∀ clock,
          Ends { c with recordsPerCall := limit } clock fs bytes
            (reportLines (t₀.batches ((Panel.new scaling).frames stamped))) := by
  obtain ⟨scaling, hscaling⟩ := exists_scaling hvalid
  refine ⟨scaling, hscaling, Layout.holds_records .., ?_⟩
  intro stamped hstamped limit _ clock
  let session : Session :=
    { feed := Feed.new (Device.start c.device c.layout (.file bytes)) t₀ scaling limit
      writer := Writer.new .reports c.layout (Sink.new none) }
  have hsession : Session.new { c with recordsPerCall := limit }
      (Device.start c.device c.layout (.file bytes)) = .ok session := by
    show (Tracker.new c.settings).bind _ = _
    rw [hnew]
    show c.scaling.bind _ = _
    rw [hscaling, hformat]
    rfl
  have hreads : session.Reads c.layout bytes :=
    ⟨⟨rfl, rfl⟩, Nat.le_max_right limit 1, ⟨rfl, rfl⟩⟩
  obtain ⟨final, rs, batches, htrack, hruns, hrs, hwent⟩ :=
    went_trackFrom clock (bytes.length + 1) (i := 0) hreads (Nat.lt_succ_self _)
  have hout : final.writer.sink.bytes =
      reportLines (t₀.batches ((Panel.new scaling).frames stamped)) := by
    have hflatten : batches.flatten = (t₀.batches ((Panel.new scaling).frames rs)).flatten := by
      have hbatches : batches = _ := hwent.feed.batches_eq
      rw [hbatches]
      exact List.flatten_filter_not_isEmpty
    rw [← reportLines_stamped hnew scaling (hrs.trans hstamped.symm), reportLines, ← hflatten]
    exact hwent.writer.bytes_eq.trans (List.nil_append _)
  refine ⟨?_, session, final, hsession, hruns, hout⟩
  have hrun : session.track clock = (.tracking (.io .endOfInput), final) := htrack
  rw [runTrack, hfile]
  simp only [hsession, hrun, hout]

/-- A file with a press and a part of one more record, read in calls of a single record and in
larger ones. -/
theorem reported_of_file_cut_short :
    let c := Config.onProfile { format := some .reports } Profile.standard
    let records : List Record := [⟨Record.typeAbsolute, Record.codeX, 320⟩,
      ⟨Record.typeKey, Record.codeTouch, 1⟩, ⟨Record.typeSync, Record.codeReport, 0⟩]
    let bytes := records.flatMap (c.layout.encode Timestamp.epoch) ++ [1, 2, 3]
    let fs : Files := ⟨fun _ => .ok (.file bytes)⟩
    c.fault? = none ∧ c.format = .reports ∧ c.layout.records bytes = records ∧
      ∃ t₀ scaling, Tracker.new c.settings = .ok t₀ ∧ c.scaling = .ok scaling ∧
        ((Panel.new scaling).frames (records.map fun r => (r, Timestamp.epoch))).map (·.1) =
          [[⟨10, 0, 1⟩]] ∧
        ∀ limit, 1 ≤ limit → ∀ clock, Ends { c with recordsPerCall := limit } clock fs bytes
          (reportLines (t₀.batches ((Panel.new scaling).frames
            (records.map fun r => (r, Timestamp.epoch))))) := by
  intro c records bytes fs
  have hvalid : c.fault? = none := by decide
  have hrecords : c.layout.records bytes = records := by
    rw [Layout.records_encode (by decide), Layout.records_of_cut?_none rfl, List.append_nil]
  obtain ⟨t₀, hnew⟩ : ∃ t₀, Tracker.new c.settings = .ok t₀ := ⟨_, rfl⟩
  have hfile : fs.look c.device = .ok (.file bytes) := rfl
  obtain ⟨scaling, hscaling, -, hends⟩ := reported_of_file hvalid rfl hnew hfile
  refine ⟨hvalid, rfl, hrecords, t₀, scaling, hnew, hscaling, ?_, ?_⟩
  · obtain rfl := Except.ok.inj hscaling
    decide +kernel
  · exact hends _ (by rw [hrecords]; rfl)

end Program

end FingerTracking
