import FingerTracking.Config
import FingerTracking.Dump
import FingerTracking.Feed
import FingerTracking.Usage

/-!
The program: from command line, environment and files to what is printed and the status at the
end.

`plan` decides what there is to do. Tracking (`trackFrom`) polls the feed over and over and writes
every batch, until the input or the output fails; the input of a file fails at its end at the
latest, so the program always ends with a fault there.
-/

namespace FingerTracking.Program

open CommandLine (Arguments Stop)

/-! ## Outcomes -/

structure Outcome where
  status : Nat
  out : List UInt8
  err : String
deriving DecidableEq

/-- Why tracking ended. -/
inductive Failure where
  /-- The tracker could not be made, or the input failed. -/
  | tracking (fault : Fault)
  /-- The device could not be opened, or the output failed. -/
  | io (fault : IoFault)
deriving DecidableEq

def Failure.detail : Failure → String
  | tracking fault => fault.detail
  | io fault => fault.detail

/-- The line that reports the end of the program. -/
def errorLine (text : String) : String :=
  s!"Error: {text}\n"

def bytesOf (text : String) : List UInt8 :=
  text.toUTF8.toList

/-! ## What to do -/

inductive Plan where
  /-- Nothing but to say this and stop. -/
  | stop (outcome : Outcome)
  | dump (config : Config) (count : Nat)
  | track (config : Config)

def stopped (stop : Stop) (env : Environment) : Outcome :=
  match stop with
  | .help topic => { status := 0, out := bytesOf (Usage.help env topic), err := "" }
  | .version => { status := 0, out := bytesOf Usage.versionLine, err := "" }
  | other =>
    { status := 2, out := [], err := Usage.complaint ((Usage.mistake? other).getD "") }

def plan (words : List String) (env : Environment) (fs : Files) : Plan :=
  match CommandLine.read words env with
  | .error s => .stop (stopped s env)
  | .ok a =>
    match (Config.load a env fs).config with
    | .error f => .stop { status := 1, out := [], err := errorLine f.text }
    | .ok c =>
      match c.fault? with
      | some f => .stop { status := 1, out := [], err := errorLine (Fault.config f).text }
      | none =>
        match a.dump with
        | some count => .dump c count
        | none => .track c

/-! ## Tracking -/

/-- A session of tracking: the feed and the writer behind it. -/
structure Session where
  feed : Feed Device
  writer : Writer

def Session.new (c : Config) (device : Device) : Except Fault Session := do
  let tracker ← Tracker.new c.settings
  let scaling ← c.scaling
  return { feed := Feed.new device tracker scaling c.recordsPerCall
           writer := Writer.new c.format c.layout (Sink.new none) }

/-- Polls the feed once and writes the batch, if one is complete. -/
def Session.step (s : Session) (now : Timestamp) : Option Failure × Session :=
  let p := s.feed.poll now
  match p.result with
  | .error f => (some (.tracking (.io f)), { s with feed := p.feed })
  | .ok none => (none, { s with feed := p.feed })
  | .ok (some batch) =>
    let w := s.writer.write batch
    match w.result with
    | .error f => (some (.io f), { feed := p.feed, writer := w.writer })
    | .ok () => (none, { feed := p.feed, writer := w.writer })

/-- Steps until something fails; `clock` tells the time of each step. The first number bounds the
steps to come, the second counts those that were made. -/
def trackFrom (clock : Nat → Timestamp) : Nat → Nat → Session → Failure × Session
  | 0, _, s => (.tracking (.io .endOfInput), s)
  | bound + 1, i, s =>
    match s.step (clock i) with
    | (some f, t) => (f, t)
    | (none, t) => trackFrom clock bound (i + 1) t

/-- Tracks until the input ends. Each step takes a byte at least, or it is the last. -/
def Session.track (s : Session) (clock : Nat → Timestamp) : Failure × Session :=
  trackFrom clock (s.feed.source.unread.length + 1) 0 s

/-! ## All together -/

def runTrack (c : Config) (clock : Nat → Timestamp) (fs : Files) : Outcome :=
  match fs.look c.device with
  | .error f => { status := 1, out := [], err := errorLine f.detail }
  | .ok medium =>
    match Session.new c (Device.start c.device c.layout medium) with
    | .error f => { status := 1, out := [], err := errorLine f.detail }
    | .ok s =>
      let r := s.track clock
      { status := 1, out := r.2.writer.sink.bytes, err := errorLine r.1.detail }

/-- The line above a dump. -/
def dumpTitle (device : String) : String :=
  s!"Dumping touch events from {device} (Ctrl+C to stop):\n\n"

def runDump (c : Config) (count : Nat) (fs : Files) : Outcome :=
  match fs.look c.device with
  | .error f => { status := 1, out := [], err := errorLine f.detail }
  | .ok medium =>
    let d := (Device.start c.device c.layout medium).dump count
    let out := bytesOf (String.join (d.lines.map fun l => l ++ "\n"))
    match d.fault with
    | none => { status := 0, out, err := dumpTitle c.device }
    | some f => { status := 1, out, err := dumpTitle c.device ++ errorLine f.detail }

def run (words : List String) (env : Environment) (clock : Nat → Timestamp) (fs : Files) :
    Outcome :=
  match plan words env fs with
  | .stop outcome => outcome
  | .dump c count => runDump c count fs
  | .track c => runTrack c clock fs

end FingerTracking.Program
