import FingerTracking.Numeral
import FingerTracking.Source

/-!
Dumps: the raw records of a device, one a line, numbered from 1.

`Dump.step` prints the next record or ends the dump: without a fault once the requested number is
reached, else with the fault that the device gives at the end of its input. `Device.dump` takes all
steps.
-/

namespace FingerTracking

structure Dump where
  device : Device
  /-- Records to print; zero for all. -/
  count : Nat
  /-- Records printed so far. -/
  printed : Nat

namespace Dump

def start (device : Device) (count : Nat) : Dump :=
  { device, count, printed := 0 }

/-- A record's line, without its end. -/
def line (n : Nat) (r : Record) : String :=
  s!"{Numeral.aligned 6 n}  {r.name}  value={r.value}"

/-- All that was asked for has been printed. -/
def isComplete (d : Dump) : Bool :=
  d.count != 0 && d.count ≤ d.printed

inductive Step where
  | ended (fault : Option IoFault)
  /-- The record was malformed. -/
  | skipped (dump : Dump)
  | printed (line : String) (dump : Dump)

def step (d : Dump) : Step :=
  if d.isComplete then .ended none
  else
    let r := d.device.read
    match r.result with
    | .error f => .ended (some f)
    | .ok none => .skipped { d with device := r.source }
    | .ok (some record) =>
      let n := d.printed + 1
      .printed (line n record) { d with device := r.source, printed := n }

/-- The lines of a dump, and the fault that ended it unless it was complete. -/
structure Dumped where
  lines : List String
  fault : Option IoFault
deriving DecidableEq

/-- Takes up to `bound` steps. -/
def run : Nat → Dump → Dumped
  | 0, _ => { lines := [], fault := some .endOfInput }
  | bound + 1, d =>
    match d.step with
    | .ended fault => { lines := [], fault }
    | .skipped next => run bound next
    | .printed line next =>
      let rest := run bound next
      { rest with lines := line :: rest.lines }

end Dump

/-- Bytes of the device that have not been read. -/
def Device.unread (d : Device) : List UInt8 :=
  match d.medium with
  | .file unread | .pipe unread _ => unread
  | .directory => []

/-- Dumps `count` records, or all until the input ends if `count` is zero. Every step takes a byte
or ends the dump, so there are no more steps than bytes and one. -/
def Device.dump (d : Device) (count : Nat) : Dump.Dumped :=
  Dump.run (d.unread.length + 1) (Dump.start d count)

end FingerTracking
