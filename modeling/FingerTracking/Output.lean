import FingerTracking.Fault
import FingerTracking.Report

/-!
Output: batches of events written out as lines of text or as raw records.

A `Sink` takes bytes until its room is used up and then fails every write that is not empty; a
write that fits in part is taken in part. A `Writer` turns each batch into pieces and writes them
one after the other, until one fails; after the last one it flushes.
-/

namespace FingerTracking

/-! ## Formats -/

inductive Format where
  /-- A line for each event. -/
  | events
  /-- A line for each report. -/
  | reports
  /-- A raw record for each event. -/
  | raw
deriving DecidableEq, Inhabited

/-- The name in lower case. No other letter than those of ASCII has a lower case in which one of
the names below could be spelled, so ASCII is enough to compare with them. -/
def lowered (name : String) : String :=
  String.ofList (name.toList.map Char.toLower)

namespace Format

def name : Format → String
  | events => "events"
  | reports => "reports"
  | raw => "raw"

/-- The format with this name, or with its other name, in any case of letters. -/
def ofName? (name : String) : Option Format :=
  match lowered name with
  | "events" | "text" => some events
  | "reports" | "report" => some reports
  | "raw" | "binary" => some raw
  | _ => none

/-- What is said about a name that is no format's. -/
def unknownText (name : String) : String :=
  s!"Invalid output format '{name}'. Valid values: events, reports, raw"

end Format

/-- The layout with this name, or with its width alone, in any case of letters. -/
def Layout.ofName? (name : String) : Option Layout :=
  match lowered name with
  | "compat32" | "32" => some compat32
  | "native64" | "64" => some native64
  | _ => none

/-- What is said about a name that is no layout's. -/
def Layout.unknownText (name : String) : String :=
  s!"Invalid event layout '{name}'. Valid values: compat32, native64"

/-! ## Sinks -/

structure Sink where
  /-- Bytes that still fit; no limit if absent. -/
  room : Option Nat
  bytes : List UInt8
  flushes : Nat
deriving DecidableEq, Inhabited

namespace Sink

def new (room : Option Nat) : Sink :=
  { room, bytes := [], flushes := 0 }

/-- What a sink without room answers. -/
def full : IoFault :=
  .other "sink is full"

/-- Takes the bytes, as far as they fit. -/
def write (s : Sink) (bytes : List UInt8) : Except IoFault Unit × Sink :=
  match s.room with
  | none => (.ok (), { s with bytes := s.bytes ++ bytes })
  | some room =>
    (if bytes.length ≤ room then .ok () else .error full,
      { s with room := some (room - bytes.length), bytes := s.bytes ++ bytes.take room })

/-- Writes the pieces in order, up to the first that fails. -/
def writeAll (s : Sink) : List (List UInt8) → Except IoFault Unit × Sink
  | [] => (.ok (), s)
  | piece :: rest =>
    match s.write piece with
    | (.ok (), t) => t.writeAll rest
    | (.error f, t) => (.error f, t)

def flush (s : Sink) : Sink :=
  { s with flushes := s.flushes + 1 }

end Sink

/-! ## Writers -/

structure Writer where
  format : Format
  /-- The form of raw records. -/
  layout : Layout
  /-- Keeps a report that goes on in the next batch. -/
  assembler : Assembler
  sink : Sink
deriving DecidableEq, Inhabited

namespace Writer

def new (format : Format) (layout : Layout) (sink : Sink) : Writer :=
  { format, layout, assembler := Assembler.empty, sink }

/-- The bytes of a line. -/
def line (text : String) : List UInt8 :=
  (text ++ "\n").toUTF8.toList

/-- The pieces that a batch is written in. -/
structure Rendered where
  pieces : List (List UInt8)
  assembler : Assembler
  notes : List Note

def render (w : Writer) (batch : Batch) : Rendered :=
  match w.format with
  | .events =>
    { pieces := batch.map fun e => line e.text, assembler := w.assembler, notes := [] }
  | .reports =>
    let p := w.assembler.pushAll batch
    { pieces := p.reports.map fun r => line r.text, assembler := p.assembler, notes := p.notes }
  | .raw =>
    { pieces := batch.map fun e => w.layout.encode e.time e.record
      assembler := w.assembler, notes := [] }

/-- A writer after a batch. -/
structure Written where
  result : Except IoFault Unit
  writer : Writer
  notes : List Note

/-- Writes a batch and flushes, unless writing failed. -/
def write (w : Writer) (batch : Batch) : Written :=
  let r := w.render batch
  let out := w.sink.writeAll r.pieces
  match out.1 with
  | .ok () =>
    { result := .ok (), writer := { w with assembler := r.assembler, sink := out.2.flush }
      notes := r.notes }
  | .error f =>
    { result := .error f, writer := { w with assembler := r.assembler, sink := out.2 }
      notes := r.notes }

end Writer

end FingerTracking
