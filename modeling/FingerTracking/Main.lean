import FingerTracking.Program
import Std.Time.DateTime.Timestamp

/-!
The program as it is run: it reads real files and a real device, and prints.

All that it decides is decided in `Program`; here the bytes of the device are handed over record
by record, as they come.
-/

namespace FingerTracking.Console

open Program

/-- The causes that the program tells apart. -/
def ioFault : IO.Error → IoFault
  | .noFileOrDirectory _ _ _ => .notFound
  | .inappropriateType _ _ _ => .isDirectory
  | other => .other (toString other)

def wallClock : IO Timestamp := do
  let now ← Std.Time.Timestamp.now
  return Timestamp.clamp now.toNanosecondsSinceUnixEpoch.val.toNat

/-- The files at these paths, as far as they can be read. -/
def readFiles (paths : List String) : IO Files := do
  let mut entries : List (String × Medium) := []
  for path in paths do
    try
      let bytes ← IO.FS.readBinFile path
      entries := entries ++ [(path, Medium.file bytes.toList)]
    catch _ => pure ()
  return ⟨fun path =>
    match entries.lookup path with
    | some medium => .ok medium
    | none => .error .notFound⟩

/-- Up to `size` bytes; fewer only at the end of the input. -/
partial def readUpTo (device : IO.FS.Handle) (size : Nat) (before : ByteArray) : IO ByteArray := do
  if size ≤ before.size then return before
  let more ← device.read (size - before.size).toUSize
  if more.isEmpty then return before
  readUpTo device size (before ++ more)

/-- The bytes of the next record, or the fault that reading met. -/
def readRecord (device : IO.FS.Handle) (layout : Layout) : IO (Except IoFault (List UInt8)) := do
  try
    let bytes ← readUpTo device layout.size ByteArray.empty
    return .ok bytes.toList
  catch e => return .error (ioFault e)

/-- The device with bytes that have come; too few of them mean that no more will come. -/
def handOver (d : Device) (bytes : List UInt8) : Device :=
  let e := d.supply bytes
  if bytes.length < d.layout.size then e.close else e

partial def trackLoop (device : IO.FS.Handle) (s : Session) : IO Failure := do
  match ← readRecord device s.feed.source.layout with
  | .error f => return .tracking (.io f)
  | .ok bytes =>
    let source := handOver s.feed.source bytes
    let (failure, t) := Session.step { s with feed := { s.feed with source } } (← wallClock)
    let stdout ← IO.getStdout
    stdout.write ⟨t.writer.sink.bytes.toArray⟩
    stdout.flush
    match failure with
    | some f => return f
    | none => trackLoop device { t with writer := { t.writer with sink := Sink.new none } }

partial def dumpLoop (device : IO.FS.Handle) (d : Dump) : IO (Option IoFault) := do
  if d.isComplete then return none
  match ← readRecord device d.device.layout with
  | .error f => return some f
  | .ok bytes =>
    match Dump.step { d with device := handOver d.device bytes } with
    | .ended fault => return fault
    | .skipped next => dumpLoop device next
    | .printed line next =>
      IO.println line
      dumpLoop device next

/-- Opens the device of a configuration and goes on with it. -/
def withDevice (c : Config) (go : IO.FS.Handle → Device → IO UInt32) : IO UInt32 := do
  let handle : Except IoFault IO.FS.Handle ←
    try
      let handle ← IO.FS.Handle.mk c.device .read
      pure (.ok handle)
    catch e => pure (.error (ioFault e))
  match handle with
  | .error f =>
    IO.eprint (errorLine f.detail)
    return 1
  | .ok handle => go handle (Device.start c.device c.layout (.pipe [] false))

def carryOut : Plan → IO UInt32
  | .stop outcome => do
    (← IO.getStdout).write ⟨outcome.out.toArray⟩
    IO.eprint outcome.err
    return outcome.status.toUInt32
  | .dump c count =>
    withDevice c fun handle d => do
      IO.eprint (dumpTitle c.device)
      match ← dumpLoop handle (Dump.start d count) with
      | none => return 0
      | some f =>
        IO.eprint (errorLine f.detail)
        return 1
  | .track c =>
    withDevice c fun handle d => do
      let failure ←
        match Session.new c d with
        | .error f => pure (.tracking f)
        | .ok s => trackLoop handle s
      IO.eprint (errorLine failure.detail)
      return 1

/-- The variables of the environment that the program looks at. -/
def environment : IO Environment := do
  return { device := ← IO.getEnv "TOUCH_SYNTH_DEVICE"
           config := ← IO.getEnv "TOUCH_SYNTH_CONFIG"
           home := ← IO.getEnv "HOME" }

/-- Runs the program for these words. -/
def run (words : List String) : IO UInt32 := do
  let env ← environment
  let paths :=
    match CommandLine.read words env with
    | .ok a => Config.candidates a env
    | .error _ => []
  carryOut (plan words env (← readFiles paths))

end FingerTracking.Console

def main (words : List String) : IO UInt32 :=
  FingerTracking.Console.run words
