import FingerTracking.Proofs.Wire

/-!
# A full sink holds a clean prefix

Two writers are given the same batches; the sink of one has room for so many bytes, the other's has
no limit. A write can fail anywhere, in the middle of a line or of a record, and the batches after a
failed one are still rendered and tried. All the same the first sink holds the first bytes of the
second and nothing else, wherever the bytes were cut into pieces on their way
(`Sink.writeAll_eq_write`):

> `bytes_writeEach`: the sink without a limit holds the outputs of the batches one after the other,
> which are the output of all their events as one batch (`flatten_outputs`).
>
> `short_write`: `Short room w u`, where `w` has what `u` has as far as there is room for it, is
> kept by every batch, whether `w` fails to write it or not.
>
> `clean_prefix`: the bytes, the results and the flushes after any batches; `bytes_full` says what
> the first sink holds without a word about the second.

What keeps the two in step is that a batch is rendered before any of it is written, so the assembler
of a writer that has failed has seen what the other one has seen.
-/

namespace FingerTracking

namespace Writer

variable {room : Nat} {w u : Writer}

/-- The results of writing some batches, one for each. -/
def results (w : Writer) : List Batch → List (Except IoFault Unit)
  | [] => []
  | batch :: batches => (w.write batch).result :: (w.write batch).writer.results batches

/-- What comes of some batches, one after the other. A report that a batch leaves open goes on in
the next one. -/
def outputs (w : Writer) : List Batch → List (List UInt8)
  | [] => []
  | batch :: batches => w.output batch :: (w.write batch).writer.outputs batches

/-! ## The sink without a limit -/

/-- The output of more events is that of the first ones, followed by what comes of the others once
the first are written. -/
theorem output_append (w : Writer) (batch later : Batch) :
    w.output (batch ++ later) = w.output batch ++ (w.write batch).writer.output later := by
  obtain ⟨-, hwriter⟩ := write_eq w batch
  rw [hwriter]
  cases hformat : w.format with
  | events | raw => simp only [output, render, hformat, List.map_append, List.flatten_append]
  | reports =>
    obtain ⟨-, hreports⟩ := Assembler.pushAll_append batch later w.assembler
    simp only [output, render, hformat, hreports, List.map_append, List.flatten_append]

/-- Where the events are cut into batches does not show in what comes of them. -/
theorem flatten_outputs (batches : List Batch) :
    ∀ w : Writer, (w.outputs batches).flatten = w.output batches.flatten := by
  induction batches with
  | nil =>
    intro w
    cases hformat : w.format <;> simp [outputs, output, render, hformat, Assembler.pushAll]
  | cons batch batches ih =>
    intro w
    rw [outputs, List.flatten_cons, ih, List.flatten_cons, output_append]

/-- A batch adds its output to a sink without a limit, which stays one. -/
theorem bytes_write (hu : u.sink.room = none) (batch : Batch) :
    (u.write batch).writer.sink.room = none ∧
      (u.write batch).writer.sink.bytes = u.sink.bytes ++ u.output batch := by
  obtain ⟨-, hwriter⟩ := write_of_unlimited hu batch
  rw [hwriter]
  exact ⟨hu, rfl⟩

/-- **A sink without a limit holds all that comes of the batches,** behind what it held before. -/
theorem bytes_writeEach (batches : List Batch) :
    ∀ {u : Writer}, u.sink.room = none →
      (u.writeEach batches).sink.bytes = u.sink.bytes ++ (u.outputs batches).flatten := by
  induction batches with
  | nil => exact fun _ => (List.append_nil _).symm
  | cons batch batches ih =>
    intro u hu
    obtain ⟨hroom, hbytes⟩ := bytes_write hu batch
    calc (u.writeEach (batch :: batches)).sink.bytes
        = (u.write batch).writer.sink.bytes ++ ((u.write batch).writer.outputs batches).flatten :=
          ih hroom
      _ = u.sink.bytes ++ (u.outputs (batch :: batches)).flatten := by
          rw [hbytes, outputs, List.flatten_cons, List.append_assoc]

/-! ## One batch -/

/-- `w` is what `u` is, but its sink has taken no more than `room` bytes. -/
structure Short (room : Nat) (w u : Writer) : Prop where
  format_eq : w.format = u.format
  layout_eq : w.layout = u.layout
  assembler_eq : w.assembler = u.assembler
  unlimited : u.sink.room = none
  room_eq : w.sink.room = some (room - u.sink.bytes.length)
  bytes_eq : w.sink.bytes = u.sink.bytes.take room

theorem short_new (format : Format) (layout : Layout) (room : Nat) :
    Short room (Writer.new format layout (Sink.new (some room)))
      (Writer.new format layout (Sink.new none)) :=
  ⟨rfl, rfl, rfl, rfl, rfl, List.take_nil.symm⟩

/-- Rendering does not look at the sink. -/
theorem Short.render_eq (h : Short room w u) (batch : Batch) : w.render batch = u.render batch := by
  unfold render
  rw [h.format_eq, h.layout_eq, h.assembler_eq]

/-- The sink with less room takes of a batch what there is room for, and fails if that is not
all. -/
theorem Short.sink_write (h : Short room w u) (batch : Batch) :
    w.sink.write (w.output batch) =
      (if (u.output batch).length ≤ room - u.sink.bytes.length then .ok () else .error Sink.full,
        { w.sink with
          room := some (room - (u.sink.bytes ++ u.output batch).length)
          bytes := (u.sink.bytes ++ u.output batch).take room }) := by
  have hout : w.output batch = u.output batch := by
    rw [output, output, h.render_eq]
  rw [Sink.write, h.room_eq]
  simp only [hout, h.bytes_eq, List.length_append, List.take_append, Nat.sub_add_eq]

/-- **A batch keeps a writer short.** It fails to be written if it has bytes and there is no room
for the last of them. -/
theorem short_write (h : Short room w u) (batch : Batch) :
    Short room (w.write batch).writer (u.write batch).writer ∧
      (w.write batch).result =
        (if u.sink.bytes.length < (u.write batch).writer.sink.bytes.length ∧
            room < (u.write batch).writer.sink.bytes.length then .error Sink.full else .ok ()) ∧
      (w.write batch).writer.sink.flushes =
        w.sink.flushes + if (w.write batch).result.isOk then 1 else 0 := by
  obtain ⟨-, hu⟩ := write_of_unlimited h.unlimited batch
  obtain ⟨hresult, hw⟩ := write_eq w batch
  have hsink := h.sink_write batch
  obtain ⟨hroom, hbytes⟩ := bytes_write h.unlimited batch
  have hfits : (u.output batch).length ≤ room - u.sink.bytes.length ↔
      ¬ (u.sink.bytes.length < (u.sink.bytes ++ u.output batch).length ∧
        room < (u.sink.bytes ++ u.output batch).length) := by
    rw [List.length_append]
    omega
  refine ⟨⟨?_, ?_, ?_, hroom, ?_, ?_⟩, ?_, ?_⟩
  · rw [hw, hu]
    exact h.format_eq
  · rw [hw, hu]
    exact h.layout_eq
  · rw [hw, hu, h.render_eq]
  · rw [hw, hbytes, hsink]
    split <;> rfl
  · rw [hw, hbytes, hsink]
    split <;> rfl
  · rw [hresult, hsink, hbytes]
    simp only [hfits, ite_not]
  · rw [hw, hsink]
    split <;> rfl

/-! ## Any batches -/

theorem writeEach_append (w : Writer) (batches later : List Batch) :
    w.writeEach (batches ++ later) = (w.writeEach batches).writeEach later :=
  List.foldl_append

theorem short_writeEach (batches : List Batch) :
    ∀ {w u : Writer}, Short room w u →
      Short room (w.writeEach batches) (u.writeEach batches) ∧
      (∀ r ∈ u.results batches, r = .ok ()) ∧
      (w.writeEach batches).sink.flushes =
        w.sink.flushes + (w.results batches).countP (·.isOk) := by
  induction batches with
  | nil => exact fun h => ⟨h, fun r hr => absurd hr List.not_mem_nil, rfl⟩
  | cons batch batches ih =>
    intro w u h
    obtain ⟨hshort, -, hflushes⟩ := short_write h batch
    obtain ⟨hend, hok, hrest⟩ := ih hshort
    refine ⟨hend, ?_, ?_⟩
    · intro r hr
      rcases List.mem_cons.mp hr with rfl | hr
      · exact (write_of_unlimited h.unlimited batch).1
      · exact hok r hr
    · refine hrest.trans ?_
      rw [hflushes, results, List.countP_cons]
      omega

/-- **A full sink holds a clean prefix.** After any batches it has the first bytes of what a sink
without a limit has, as many as there was room for; the next batch fails exactly if it adds to what
that sink has and goes beyond the room; and there was one flush for each batch that did not fail.
The sink without a limit never fails. -/
theorem clean_prefix (format : Format) (layout : Layout) (room : Nat) (batches : List Batch) :
    let w := Writer.new format layout (Sink.new (some room))
    let u := Writer.new format layout (Sink.new none)
    let all := (u.writeEach batches).sink.bytes
    (w.writeEach batches).sink.bytes = all.take (min room all.length) ∧
      (∀ batch,
        let upTo := (u.writeEach (batches ++ [batch])).sink.bytes
        ((w.writeEach batches).write batch).result =
          if all.length < upTo.length ∧ room < upTo.length then .error Sink.full else .ok ()) ∧
      (w.writeEach batches).sink.flushes = (w.results batches).countP (·.isOk) ∧
      ∀ r ∈ u.results batches, r = .ok () := by
  intro w u all
  obtain ⟨hshort, hok, hflushes⟩ := short_writeEach batches (short_new format layout room)
  refine ⟨?_, ?_, hflushes.trans (Nat.zero_add _), hok⟩
  · rw [hshort.bytes_eq, ← List.take_take, List.take_of_length_le (Nat.le_refl _)]
  · intro batch upTo
    have hupTo : upTo = ((u.writeEach batches).write batch).writer.sink.bytes :=
      congrArg (·.sink.bytes) (writeEach_append u batches [batch])
    rw [hupTo]
    exact (short_write hshort batch).2.1

/-- A full sink by itself: the first bytes of what comes of all events as one batch. -/
theorem bytes_full (format : Format) (layout : Layout) (room : Nat) (batches : List Batch) :
    let w := Writer.new format layout (Sink.new (some room))
    (w.writeEach batches).sink.bytes = (w.output batches.flatten).take room := by
  intro w
  have hnew := short_new format layout room
  obtain ⟨hshort, -, -⟩ := short_writeEach batches hnew
  rw [hshort.bytes_eq, bytes_writeEach batches hnew.unlimited, flatten_outputs, output, output,
    hnew.render_eq]
  rfl

end Writer

end FingerTracking
