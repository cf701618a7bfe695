import FingerTracking.Panel
import FingerTracking.Source
import FingerTracking.Tracker

/-!
Feeds: a source, the panel that makes frames of its records, and the tracker behind it.

`Feed.poll` does at most one frame of work: it reads while the source is ready, up to a limit of
records, and stops at the first complete frame. What is left incomplete stays in the panel for
the next call.
-/

namespace FingerTracking

structure Feed (σ : Type) where
  source : σ
  panel : Panel
  tracker : Tracker
  /-- Records read in one call at most. -/
  limit : Nat
  /-- Frames tracked so far. -/
  frames : Nat

namespace Feed

variable {σ : Type}

/-- A feed that reads at least one record a call. -/
def new (source : σ) (tracker : Tracker) (scaling : Scaling) (limit : Nat) : Feed σ :=
  { source, panel := Panel.new scaling, tracker, limit := max limit 1, frames := 0 }

/-- Every this many frames a note counts them. -/
def framesPerNote : Nat := 500

/-- A feed after a frame, with the frame's events. -/
structure Tracked (σ : Type) where
  feed : Feed σ
  events : Batch
  notes : List Note

/-- Tracks a frame, wherever it comes from. -/
def track (feed : Feed σ) (contacts : List Contact) (now : Timestamp) : Tracked σ :=
  let t := feed.tracker.frame contacts now
  let frames := feed.frames + 1
  { feed := { feed with tracker := t.tracker, frames }
    events := t.events
    notes := t.notes ++ (if feed.frames = 0 then [.framesFlowing] else []) ++
      (if frames % framesPerNote = 0 then [.frames frames t.tracker.activeCount] else []) }

/-- A feed after a call, with the events of the frame that was completed, if it has any. -/
structure Polled (σ : Type) where
  result : Except IoFault (Option Batch)
  feed : Feed σ
  notes : List Note

/-- The result of a frame: one without events counts as none. -/
def nonEmpty (events : Batch) : Option Batch :=
  if events.isEmpty then none else some events

/-- Reads up to the given number of records, until a frame is complete. -/
def pollUpTo [Source σ] (now : Timestamp) : Nat → Feed σ → Polled σ
  | 0, feed => { result := .ok none, feed, notes := [] }
  | n + 1, feed =>
    match Source.ready feed.source with
    | (.error f, source) => { result := .error f, feed := { feed with source }, notes := [] }
    | (.ok false, source) => { result := .ok none, feed := { feed with source }, notes := [] }
    | (.ok true, source) =>
      let r := Source.read source
      let feed := { feed with source := r.source }
      match r.result with
      | .error f => { result := .error f, feed, notes := r.notes }
      | .ok none =>
        let rest := pollUpTo now n feed
        { rest with notes := r.notes ++ rest.notes }
      | .ok (some record) =>
        let fed := feed.panel.feed record
        let feed := { feed with panel := fed.panel }
        match fed.frame with
        | none =>
          let rest := pollUpTo now n feed
          { rest with notes := r.notes ++ fed.notes ++ rest.notes }
        | some contacts =>
          let t := feed.track contacts now
          { result := .ok (nonEmpty t.events), feed := t.feed
            notes := r.notes ++ fed.notes ++ t.notes }

/-- Does at most one frame of work without waiting. -/
def poll [Source σ] (feed : Feed σ) (now : Timestamp) : Polled σ :=
  pollUpTo now feed.limit feed

/-- Lets go of every finger. The panel keeps what it has read of the next frame. -/
def teardown (feed : Feed σ) : Feed σ × List Note :=
  let t := feed.tracker.teardown
  ({ feed with tracker := t.1, frames := 0 }, t.2)

end Feed

end FingerTracking
