import FingerTracking.Proofs.BatchShape
import FingerTracking.Proofs.Listing
import FingerTracking.Proofs.Retelling
import FingerTracking.Proofs.SideBySide

/-!
# No complaints

Some notes are complaints (`Note.isComplaint`): about a finger that is stepped after its release or
has no samples, a handle that frees nothing, an event without an item to fill in. The code has an
answer to each of these, and none of them ever comes up between a device and the output. Every
handle that a frame visits has a touching finger behind it, and every batch that has events has a
finger id in front:

> `quiet_answers`: whatever is asked of a new tracker, it does not complain.
>
> `notes_write`: a batch of a tracker is written without a note, in every format.
>
> `quiet_notesAt`: in a session on any device no step complains.

Matching is quiet in any pool at all (`quiet_correlate`); it is the steps of the fingers and the
freeing of slots that need a sound tracker.
-/

namespace FingerTracking

/-- Notes without a complaint. -/
def Quiet (notes : List Note) : Prop :=
  ∀ n ∈ notes, n.isComplaint = false

section Notes

variable {n : Note} {notes more : List Note}

theorem quiet_nil : Quiet [] :=
  List.forall_mem_nil _

theorem quiet_singleton (hn : n.isComplaint = false) : Quiet [n] :=
  List.forall_mem_singleton.mpr hn

theorem Quiet.append (h : Quiet notes) (hmore : Quiet more) : Quiet (notes ++ more) :=
  List.forall_mem_append.mpr ⟨h, hmore⟩

end Notes

/-! ## Matching -/

namespace Matching

variable {threshold : Int32} {now : Timestamp}

/-- Carrying out a claim is no ground for complaint, in any pool. -/
theorem quiet_applyOne (T : MatchTable) (now : Timestamp) (p : Pool) (frame : List Contact)
    (h : Handle) : Quiet (applyOne T now p frame h).notes := by
  unfold applyOne
  split
  · split
    · dsimp only
      split
      · exact quiet_singleton rfl
      · exact Quiet.append (quiet_singleton rfl) (quiet_singleton rfl)
    · exact quiet_nil
  · exact quiet_nil

/-- Nor are the claims of any fingers in any order, stale handles among them: a handle that is good
for nothing is passed over without a word. -/
theorem quiet_applyTo (T : MatchTable) (now : Timestamp) (hs : List Handle) :
    ∀ (p : Pool) (frame : List Contact), Quiet (applyTo T now p frame hs).notes := by
  induction hs with
  | nil => exact fun _ _ => quiet_nil
  | cons h hs ih => exact fun p frame => (quiet_applyOne T now p frame h).append (ih _ _)

/-- A contact that starts no finger is worth a note, but no complaint. -/
theorem quiet_spawnOne {s : Spawning} (hs : Quiet s.notes) (j : Nat) (c : Contact) :
    Quiet (spawnOne threshold now s j c).notes := by
  unfold spawnOne
  split
  · exact hs
  · split
    · exact hs.append (quiet_singleton rfl)
    · split
      · exact hs.append (quiet_singleton rfl)
      · split
        · exact hs
        · exact hs.append (quiet_singleton rfl)

/-- So nothing is wrong with a frame that finds all slots in use. -/
theorem quiet_spawnFrom (cs : List Contact) :
    ∀ (j : Nat) {s : Spawning}, Quiet s.notes → Quiet (spawnFrom threshold now j cs s).notes := by
  induction cs with
  | nil => exact fun _ _ hs => hs
  | cons c cs ih => exact fun j _ hs => ih (j + 1) (quiet_spawnOne hs j c)

/-- Matching has no complaints about any pool. -/
theorem quiet_correlate (threshold : Int32) (p : Pool) (frame : List Contact) (now : Timestamp)
    (nextId : UInt32) : Quiet (correlate threshold p frame now nextId).notes :=
  (quiet_applyTo _ now p.handles p frame).append (quiet_spawnFrom _ 0 quiet_nil)

end Matching

/-! ## A tracker -/

/-- A finger with samples is stepped without complaint. -/
theorem Finger.quiet_step {n : Nat} {b : Bool} {f : Finger} (hf : f.Touching n b) (seen : Bool) :
    Quiet (f.step seen).notes := by
  obtain ⟨last, hl⟩ := hf.last?_eq
  cases seen with
  | true =>
    rw [step_seen hf hl]
    exact quiet_nil
  | false =>
    rw [step_unseen hf hl]
    exact quiet_singleton rfl

namespace Tracker

variable {s : Settings} {t t₀ : Tracker}

/-- A frame makes the notes of its matching, and one for each finger that lifts. -/
theorem quiet_frame (ht : Sound s t) (contacts : List Contact) (now : Timestamp) :
    Quiet (t.frame contacts now).notes := by
  obtain ⟨-, -, -, -, -, hnotes⟩ := carry_matched contacts now ht.settled
  rw [hnotes]
  have hmatched : Quiet (t.matched contacts now).notes :=
    Matching.quiet_correlate t.threshold t.pool contacts now t.nextId
  refine hmatched.append fun n hn => ?_
  obtain ⟨e, he, hn⟩ := List.mem_flatMap.mp hn
  exact Finger.quiet_step (touching_present contacts now ht.settled e he) _ n hn

/-- The handles that a teardown frees are live when their turn comes. -/
theorem notes_teardown (ht : Sound s t) : t.teardown.2 = [] := by
  obtain ⟨q, hq, -⟩ := Pool.freeAll_spec ht.settled.shaped
  rw [teardown, hq]

/-- One call, the step of a run. -/
theorem quiet_answer (ht : Sound s t) (c : Call) : Quiet (t.answer c).notes := by
  cases c with
  | frame contacts now => exact quiet_frame ht contacts now
  | teardown =>
    show Quiet t.teardown.2
    rw [notes_teardown ht]
    exact quiet_nil

/-- Soundness is what a run keeps, and it is all that a call needs. -/
theorem quiet_answers_of_sound (calls : List Call) :
    ∀ {t : Tracker}, Sound s t → ∀ r ∈ t.answers calls, Quiet r.notes := by
  induction calls with
  | nil => exact fun _ r hr => absurd hr List.not_mem_nil
  | cons c calls ih =>
    intro t ht r hr
    rcases List.mem_cons.mp hr with rfl | hr
    · exact quiet_answer ht c
    · exact ih (sound_call ht c) r hr

/-- **A tracker does not complain,** whatever it is asked and in which order. -/
theorem quiet_answers (h : Tracker.new s = .ok t₀) (calls : List Call) :
    ∀ r ∈ t₀.answers calls, Quiet r.notes :=
  quiet_answers_of_sound calls (sound_new h)

end Tracker

/-! ## Writing -/

namespace Assembler

variable {gs : List Batch}

/-- Only axes and buttons need an item to be filled in. -/
theorem notes_push {e : Event} {a : Assembler} (h : a.pending.isSome ∨ e.kind = .fingerId) :
    (a.push e).notes = [] := by
  rcases fills_or e with he | he | he
  · have hpending : a.pending.isSome := by
      refine h.resolve_right fun hkind => ?_
      rw [Event.Fills, hkind] at he
      simp at he
    obtain ⟨p, hp⟩ := Option.isSome_iff_exists.mp hpending
    rw [push_fills he, fill, hp]
  · rw [push_fingerId he, start]
    split
    next => rfl
    next => split <;> rfl
  · rw [push_sync he]
    rfl

/-- An event leaves an item pending where there was one before, or where it begins one; only a sync
takes it away. -/
theorem isSome_push {e : Event} {a : Assembler} (h : a.pending.isSome ∨ e.kind = .fingerId)
    (he : e.kind ≠ .sync) : (a.push e).assembler.pending.isSome := by
  obtain ⟨p, hp⟩ := exists_pending [e] (a := a) (List.forall_mem_singleton.mpr he)
    (h.imp_right fun hkind => ⟨e, List.mem_singleton_self e, hkind⟩)
  exact Option.isSome_iff_exists.mpr ⟨p, hp⟩

/-- Behind a finger id everything up to the sync finds its item. -/
theorem notes_pushAll_sync (es : List Event) (now : Timestamp) :
    ∀ {a : Assembler}, a.pending.isSome → (∀ d ∈ es, d.kind ≠ .sync) →
      (a.pushAll (es ++ [Event.sync now])).notes = [] := by
  induction es with
  | nil =>
    intro a ha _
    show (a.push (Event.sync now)).notes ++ [] = []
    rw [notes_push (.inl ha), List.append_nil]
  | cons e es ih =>
    intro a ha hes
    have hpending := isSome_push (.inl ha) (hes e (List.mem_cons_self ..))
    show (a.push e).notes ++ ((a.push e).assembler.pushAll (es ++ [Event.sync now])).notes = []
    rw [notes_push (.inl ha), ih hpending fun d hd => hes d (List.mem_cons_of_mem _ hd),
      List.append_nil]

/-- Groups with a finger id in front lack no item, whatever the assembler has seen before. -/
theorem notes_pushAll_closed (a : Assembler) (hgs : ∀ g ∈ gs, Event.Headed g) (now : Timestamp) :
    (a.pushAll (Tracker.closed gs.flatten now)).notes = [] := by
  cases gs with
  | nil => rfl
  | cons g gs =>
    have hsync := Event.kind_ne_sync_of_mem_flatten hgs
    obtain ⟨e, es, rfl, he, -⟩ := hgs g (List.mem_cons_self ..)
    have hpending : (a.push e).assembler.pending.isSome :=
      isSome_push (.inr he) (hsync e (List.mem_cons_self ..))
    have hrest := notes_pushAll_sync (es ++ gs.flatten) now hpending fun d hd =>
      hsync d (List.mem_cons_of_mem _ hd)
    show (a.push e).notes ++
      ((a.push e).assembler.pushAll (es ++ gs.flatten ++ [Event.sync now])).notes = []
    rw [notes_push (.inr he), hrest, List.append_nil]

end Assembler

/-- A batch of a tracker is written without a note, in every format. -/
theorem Writer.notes_write {s : Settings} {t : Tracker} (ht : Tracker.Sound s t) (w : Writer)
    (contacts : List Contact) (now : Timestamp) :
    (w.write (t.frame contacts now).events).notes = [] := by
  have hnotes : (w.write (t.frame contacts now).events).notes =
      (w.render (t.frame contacts now).events).notes := by
    unfold write
    dsimp only
    split <;> rfl
  rw [hnotes, render]
  cases w.format with
  | events | raw => rfl
  | reports =>
    show (w.assembler.pushAll (t.frame contacts now).events).notes = []
    rw [Tracker.events_tellings ht.settled]
    exact Assembler.notes_pushAll_closed _ (Tracker.headed_tellings ht.settled contacts now) now

/-! ## A feed -/

/-- A panel passes over the records that mean nothing to it, with a note. -/
theorem Panel.quiet_feed (p : Panel) (r : Record) : Quiet (p.feed r).notes := by
  unfold Panel.feed
  split
  · exact quiet_nil
  · exact quiet_nil
  · split <;> exact quiet_nil
  · exact quiet_nil
  · exact quiet_singleton rfl

namespace Feed

variable {σ : Type} {s : Settings} {now : Timestamp} {f : Feed σ} {p : Polled σ}

/-- A call that has not complained, and whose batch, if there is one, comes from the tracker. -/
structure Calm (s : Settings) (now : Timestamp) (p : Polled σ) : Prop where
  quiet : Quiet p.notes
  sound : Tracker.Sound s p.feed.tracker
  told : ∀ batch, p.result = .ok (some batch) →
    ∃ t contacts, Tracker.Sound s t ∧ batch = (t.frame contacts now).events

/-- Notes made before a call are put in front of its own. -/
theorem Calm.noted (hp : Calm s now p) {notes : List Note} (hnotes : Quiet notes) :
    Calm s now { p with notes := notes ++ p.notes } :=
  ⟨hnotes.append hp.quiet, hp.sound, hp.told⟩

/-- The notes of a tracked frame are those of the tracker and the feed's own counting. -/
theorem quiet_track (hf : Tracker.Sound s f.tracker) (contacts : List Contact) (now : Timestamp) :
    Quiet (f.track contacts now).notes := by
  refine ((Tracker.quiet_frame hf contacts now).append ?_).append ?_
  · split
    · exact quiet_singleton rfl
    · exact quiet_nil
  · split
    · exact quiet_singleton rfl
    · exact quiet_nil

/-- A batch that is given out is the frame's. -/
theorem eq_of_nonEmpty {events batch : Batch} (h : nonEmpty events = some batch) :
    batch = events := by
  rw [nonEmpty] at h
  split at h
  · cases h
  · exact (Option.some.inj h).symm

/-- A source that reads without complaint is polled without one. The induction is on the records
that the call may still read, and every turn hands on a sound tracker. -/
theorem calm_pollUpTo [Source σ] (hread : ∀ source : σ, Quiet (Source.read source).notes)
    (now : Timestamp) (most : Nat) :
    ∀ {f : Feed σ}, Tracker.Sound s f.tracker → Calm s now (pollUpTo now most f) := by
  induction most with
  | zero => exact fun hf => ⟨quiet_nil, hf, fun _ h => by cases h⟩
  | succ most ih =>
    intro f hf
    unfold pollUpTo
    split
    next => exact ⟨quiet_nil, hf, fun _ h => by cases h⟩
    next => exact ⟨quiet_nil, hf, fun _ h => by cases h⟩
    next source hready =>
      have hquiet := hread source
      dsimp only
      split
      next => exact ⟨hquiet, hf, fun _ h => by cases h⟩
      next =>
        exact (ih (f := { f with source := (Source.read source).source }) hf).noted hquiet
      next r hr =>
        -- the record goes to the panel, and what there is to say about it comes first
        have hfed := hquiet.append (Panel.quiet_feed f.panel r)
        have hg : Tracker.Sound s (f.fed r (Source.read source).source).tracker := hf
        split
        next => exact (ih hg).noted hfed
        next contacts hframe =>
          refine ⟨hfed.append (quiet_track hg contacts now), ?_, ?_⟩
          · exact Tracker.sound_frame hf contacts now
          · intro batch hbatch
            exact ⟨f.tracker, contacts, hf, eq_of_nonEmpty (Except.ok.inj hbatch)⟩

/-- **Calls do not complain,** when and however often a feed is polled. -/
theorem calm_calls [Source σ] (hread : ∀ source : σ, Quiet (Source.read source).notes)
    (times : List Timestamp) (now : Timestamp) :
    ∀ {f : Feed σ}, Tracker.Sound s f.tracker → Calm s now ((f.calls times).poll now) := by
  induction times with
  | nil => exact fun hf => calm_pollUpTo hread now _ hf
  | cons time times ih => exact fun hf => ih (calm_pollUpTo hread time _ hf).sound

end Feed

/-- Whatever has arrived in a queue, it is read without a note. -/
theorem Queue.notes_read (q : Queue) : q.read.notes = [] := by
  unfold read
  split <;> rfl

/-- A feed on a queue does not complain of what has arrived there, malformed records, pauses and
faults among it. -/
theorem Feed.quiet_calls_queue {s : Settings} {t₀ : Tracker} (h : Tracker.new s = .ok t₀)
    (q : Queue) (scaling : Scaling) (limit : Nat) (times : List Timestamp) (now : Timestamp) :
    Quiet (((Feed.new q t₀ scaling limit).calls times).poll now).notes := by
  have hread : ∀ source : Queue, Quiet (Source.read source).notes := by
    intro source
    rw [show (Source.read source).notes = [] from source.notes_read]
    exact quiet_nil
  have hnew : Tracker.Sound s (Feed.new q t₀ scaling limit).tracker := Tracker.sound_new h
  exact (calm_calls hread times now hnew).quiet

/-! ## A session -/

namespace Program

/-- The session after a step at each of these times. -/
def Session.after (u : Session) (times : List Timestamp) : Session :=
  times.foldl (fun u now => (u.step now).2) u

/-- What a step has to say: the notes of its call, and those of writing the batch. -/
def Session.notesAt (u : Session) (now : Timestamp) : List Note :=
  (u.feed.poll now).notes ++
    match (u.feed.poll now).result with
    | .ok (some batch) => (u.writer.write batch).notes
    | _ => []

variable {u : Session}

/-- The feed of a session is polled once a step, and writing leaves it alone. -/
theorem feed_step (u : Session) (now : Timestamp) :
    (u.step now).2.feed = (u.feed.poll now).feed := by
  unfold Session.step
  dsimp only
  split
  · rfl
  · rfl
  · split <;> rfl

/-- So the feed after some steps is the feed after as many calls. -/
theorem feed_after (times : List Timestamp) :
    ∀ u : Session, (u.after times).feed = u.feed.calls times := by
  induction times with
  | nil => exact fun _ => rfl
  | cons now times ih =>
    intro u
    show ((u.step now).2.after times).feed = _
    rw [ih, feed_step]
    rfl

/-- A session begins with a new tracker. -/
theorem sound_session {c : Config} {device : Device} (h : Session.new c device = .ok u) :
    Tracker.Sound c.settings u.feed.tracker := by
  unfold Session.new at h
  cases ht : Tracker.new c.settings with
  | error f =>
    rw [ht] at h
    cases h
  | ok t =>
    cases hscaling : c.scaling with
    | error f =>
      rw [ht, hscaling] at h
      cases h
    | ok scaling =>
      rw [ht, hscaling] at h
      obtain rfl := Except.ok.inj h
      exact Tracker.sound_new ht

/-- **A session does not complain.** Whatever the device holds, and whatever time it is at the
steps, none of them has anything to say that is a complaint. -/
theorem quiet_notesAt {c : Config} {device : Device} (h : Session.new c device = .ok u)
    (times : List Timestamp) (now : Timestamp) : Quiet ((u.after times).notesAt now) := by
  have hread : ∀ source : Device, Quiet (Source.read source).notes := by
    intro source
    rw [show (Source.read source).notes = [] from source.read_whole.2]
    exact quiet_nil
  have hcalm := Feed.calm_calls hread times now (sound_session h)
  rw [← feed_after] at hcalm
  refine hcalm.quiet.append ?_
  split
  next batch hbatch =>
    obtain ⟨t, contacts, ht, rfl⟩ := hcalm.told batch hbatch
    rw [Writer.notes_write ht]
    exact quiet_nil
  next => exact quiet_nil

end Program

end FingerTracking
