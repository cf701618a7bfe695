import FingerTracking.Contact
import FingerTracking.Handle
import FingerTracking.Layout

/-!
Notes: what happened along the way and is worth a line in the log.

Operations return their notes in the order in which the things happened. A note is data, and
`Note.level` and `Note.text` say how it is logged. Notes of level `error` or `warn` are faults of
the program or its input (`Note.isComplaint`); a tracker at work makes none
(`Tracker.quiet_answers`), nor do the feed and the writer of a session (`Program.quiet_notesAt`).
-/

namespace FingerTracking

namespace Note

inductive Level where
  | error
  | warn
  | info
  | debug
deriving DecidableEq, Inhabited

def Level.name : Level → String
  | error => "error"
  | warn => "warn"
  | info => "info"
  | debug => "debug"

end Note

inductive Note where
  | trackerReady (slots trailLength : Nat) (filtered : Bool)
  /-- A finger was matched to the contact at this index of the frame. -/
  | matched (index : Nat) (contact : Contact) (distance : Int)
  /-- A matched contact was too light for its finger to follow it. -/
  | notFollowed (id : UInt32) (weight last : Int32)
  | tooLight (weight : Int32)
  | noSlot (index : Nat) (contact : Contact)
  | fingerDown (id : UInt32) (contact : Contact)
  | fingerUp (x y : Int32)
  | steppedAfterRelease (id : UInt32)
  | noCoordinates (id : UInt32)
  | staleHandle (handle : Handle)
  | framesFlowing
  | frames (count active : Nat)
  | recordIgnored (record : Record)
  | noItem
  | unexpectedCode (code : UInt16)
  | invalidType (type : UInt16)
  | deviceOpened (path : String) (layout : Layout)
  | malformedRecord (path : String) (count : Nat)
  | configLoaded (path : String)
  | configRejected (path : String)
deriving DecidableEq

namespace Note

def level : Note → Level
  | steppedAfterRelease _ | noCoordinates _ | noItem | unexpectedCode _ => .error
  | staleHandle _ | invalidType _ | malformedRecord _ _ | configRejected _ => .warn
  | noSlot _ _ | fingerDown _ _ | fingerUp _ _ | framesFlowing | deviceOpened _ _ => .info
  | trackerReady _ _ _ | matched _ _ _ | notFollowed _ _ _ | tooLight _ | frames _ _
  | recordIgnored _ | configLoaded _ => .debug

def text : Note → String
  | trackerReady slots trailLength filtered =>
    s!"Gesture engine ready ({slots} finger slots, history {trailLength}, filter {filtered})"
  | matched index c distance =>
    s!"New coord (at: {index}), {c.x},{c.y} weight: {c.weight}, distance: {distance}"
  | notFollowed id weight last =>
    s!"Ignoring coordinate for finger {id} (weight {weight} < {last}/2)"
  | tooLight weight => s!"Discarding finger with too low weight ({weight})"
  | noSlot index c => s!"No available finger slots, rejecting finger {index} at {c.x},{c.y}"
  | fingerDown id c => s!"Finger {id} down at {c.x},{c.y}"
  | fingerUp x y => s!"Finger up at {x},{y}"
  | steppedAfterRelease id => s!"Finger {id} stepped after release"
  | noCoordinates id => s!"Finger {id} has no coordinates, dropping it"
  | staleHandle handle => s!"Ignoring release of stale finger handle {handle.text}"
  | framesFlowing => "Touch frames flowing"
  | frames count active => s!"Touch frames: {count}, active fingers: {active}"
  | recordIgnored r =>
    s!"Ignoring raw event type {Numeral.hex r.type.toNat} code {Numeral.hex r.code.toNat} " ++
      s!"value {r.value}"
  | noItem => "No touch item available for event"
  | unexpectedCode code => s!"Unexpected code {Numeral.hex code.toNat}"
  | invalidType type => s!"Invalid event type ({Numeral.hex type.toNat})"
  | deviceOpened path layout => s!"Opened touch device {path} ({layout.name} records)"
  | malformedRecord path count => s!"Malformed input record from {path} ({count} so far)"
  | configLoaded path => s!"Loaded config from {path}"
  | configRejected path => s!"Failed to parse {path}: not a configuration"

/-- Something is wrong, with the program or with what it was given. -/
def isComplaint (n : Note) : Bool :=
  match n.level with
  | .error | .warn => true
  | .info | .debug => false

end Note

end FingerTracking
