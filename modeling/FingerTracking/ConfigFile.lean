import FingerTracking.Layer
import FingerTracking.Toml.Document

/-!
Configuration files: TOML documents whose keys are settings.

A file is taken as a whole or not at all: one unknown key, one value of the wrong type or out of
its range, and nothing in it counts (`ConfigFile.read?`).
-/

namespace FingerTracking.ConfigFile

open Toml (Value Entries)

/-! ## Values -/

def text? : Value → Option String
  | .text s => some s
  | _ => none

def truth? : Value → Option Bool
  | .truth b => some b
  | _ => none

/-- A coordinate or a weight. -/
def int32? : Value → Option Int32
  | .integer n => Numeral.toInt32? n
  | _ => none

/-- A number of things. -/
def count? : Value → Option Nat
  | .integer n => if 0 ≤ n then some n.toNat else none
  | _ => none

def isEmpty : Value → Bool
  | .array items | .tables items => items.isEmpty
  | .table _ entries => entries.isEmpty
  | _ => false

/-- The name that is chosen: written as a text, or as the only key of a table, with something empty
as its value. -/
def choice? : Value → Option String
  | .text s => some s
  | .table _ [(name, v)] => if isEmpty v then some name else none
  | _ => none

/-- The format with this very name. -/
def format? (v : Value) : Option Format :=
  (choice? v).bind fun s => [Format.events, .reports, .raw].find? fun f => f.name == s

/-- The layout with this very name. -/
def layout? (v : Value) : Option Layout :=
  (choice? v).bind fun s => [Layout.compat32, .native64].find? fun l => l.name == s

/-! ## Entries -/

/-- A layer with one more setting. -/
def put? (l : Layer) (key : String) (v : Value) : Option Layer :=
  match key with
  | "device" => (text? v).map fun s => { l with device := some s }
  | "profile" => (text? v).map fun s => { l with profile := some s }
  | "screen_width" => (int32? v).map fun n => { l with screenWidth := some n }
  | "screen_height" => (int32? v).map fun n => { l with screenHeight := some n }
  | "x_max" => (int32? v).map fun n => { l with xMax := some n }
  | "y_max" => (int32? v).map fun n => { l with yMax := some n }
  | "coord_buffer_size" => (count? v).map fun n => { l with trailLength := some n }
  | "finger_down_threshold" => (int32? v).map fun n => { l with threshold := some n }
  | "position_filter" => (truth? v).map fun b => { l with filtered := some b }
  | "max_fingers" => (count? v).map fun n => { l with maxFingers := some n }
  | "max_events_per_call" => (count? v).map fun n => { l with recordsPerCall := some n }
  | "format" => (format? v).map fun f => { l with format := some f }
  | "layout" => (layout? v).map fun f => { l with layout := some f }
  | _ => none

def putAll? (l : Layer) : Entries → Option Layer
  | [] => some l
  | (key, v) :: rest => (put? l key v).bind fun m => putAll? m rest

/-- The settings that a configuration file makes. -/
def read? (text : String) : Option Layer :=
  (Toml.read? text).bind (putAll? Layer.empty)

end FingerTracking.ConfigFile
