import FingerTracking.Proofs.Capacity
import FingerTracking.Proofs.Likeness
import FingerTracking.Proofs.Ring

/-!
# A teardown is a fresh start

A tracker that has been torn down is not the tracker it was when it was new: its slots wait in
another order, under other generations, and hold what the last fingers left in them. None of this
can be seen. What can be seen of a tracker is what its calls give (`watch`): the events, the
contacts that were taken off, and of each finger its id, phase, weight and samples (`seen`).

> `likeness_seen`: fingers that look the same are alike in every frame.
>
> `watch_teardown`: whatever comes after a teardown, it is as if the tracker were new.
-/

namespace FingerTracking

open Matching

/-- What can be seen of a finger, wherever it is kept. -/
structure Sight where
  id : UInt32
  phase : Phase
  weight : Int32
  /-- The samples, oldest first. -/
  trail : List Sample
deriving DecidableEq

namespace Finger

variable {n : Nat} {b : Bool} {f g : Finger}

def seen (f : Finger) : Sight :=
  { id := f.id, phase := f.phase, weight := f.weight, trail := f.trail.toList }

/-- Fingers with trails of one kind that look the same. Where their samples lie in the rings may
differ. -/
structure LooksLike (n : Nat) (b : Bool) (f g : Finger) : Prop where
  fits : f.trail.Fits n b
  fits' : g.trail.Fits n b
  id_eq : f.id = g.id
  phase_eq : f.phase = g.phase
  weight_eq : f.weight = g.weight
  toList_eq : f.trail.toList = g.trail.toList

namespace LooksLike

theorem seen_eq (h : LooksLike n b f g) : f.seen = g.seen := by
  rw [seen, seen, h.id_eq, h.phase_eq, h.weight_eq, h.toList_eq]

/-- Fingers that look alike are in the same place. -/
theorem last?_eq (h : LooksLike n b f g) : f.trail.last? = g.trail.last? := by
  rw [Trail.last?_eq_getLast?, Trail.last?_eq_getLast?, h.toList_eq]

/-- Fingers that look the same are told about in the same way. -/
theorem told_eq (h : LooksLike n b f g) (leaves : Bool) : f.told leaves = g.told leaves := by
  rw [told, told, h.last?_eq, h.id_eq, h.phase_eq]

/-- A contact that both follow leaves them looking alike. -/
theorem moved (h : LooksLike n b f g) (c : Contact) (now : Timestamp) :
    LooksLike n b (moved f c now) (moved g c now) := by
  refine ⟨h.fits.push .., h.fits'.push .., h.id_eq, h.phase_eq, rfl, ?_⟩
  show (f.trail.push c.x c.y now).toList = (g.trail.push c.x c.y now).toList
  rw [Trail.toList_push h.fits, Trail.toList_push h.fits', h.toList_eq]

/-- What a slot held before does not show in the finger that starts in it. -/
theorem started (hf : f.Resting n b) (hg : g.Resting n b) (id : UInt32) (c : Contact)
    (time : Timestamp) :
    LooksLike n b (started f.opened id c time) (started g.opened id c time) := by
  refine ⟨hf.fits.cleared.push .., hg.fits.cleared.push .., rfl, rfl, rfl, ?_⟩
  show (f.trail.cleared.push c.x c.y time).toList = (g.trail.cleared.push c.x c.y time).toList
  rw [Trail.toList_push_cleared hf.fits.stays, Trail.toList_push_cleared hg.fits.stays]

end LooksLike

/-- Looking alike is as good as being the same, in every frame. -/
theorem likeness_seen (s : Settings) (now : Timestamp) :
    Likeness s s now now (LooksLike s.trailLength s.filtered) Eq where
  distance_eq hf hc := by rw [hf.last?_eq, hc]
  follows_eq hf hc := by rw [follows, follows, hf.weight_eq, hc]
  qualifies_eq hc := by rw [hc]
  moved hf hc := hc ▸ hf.moved _ now
  started hf hg hc id tries := hc ▸ LooksLike.started hf hg id _ _
  goOn hf := ⟨hf.fits, hf.fits', hf.id_eq, rfl, hf.weight_eq, hf.toList_eq⟩

end Finger

namespace Tracker

variable {s : Settings} {t u t₀ : Tracker} {contacts : List Contact} {now : Timestamp}

/-- What a call gives, and the active fingers after it in their order. -/
structure Shown where
  events : Batch
  /-- The contacts of the frame with the claimed ones taken off. -/
  frame : List Contact
  fingers : List Sight
deriving DecidableEq

def shown (t : Tracker) : Call → Shown
  | .frame contacts now =>
    { events := (t.frame contacts now).events
      frame := (t.frame contacts now).frame
      fingers := (t.frame contacts now).tracker.pool.fingers.map Finger.seen }
  | .teardown => { events := [], frame := [], fingers := t.teardown.1.pool.fingers.map Finger.seen }

/-- All that can be seen of a run. -/
def watch (t : Tracker) : List Call → List Shown
  | [] => []
  | c :: calls => t.shown c :: (t.call c).watch calls

/-- Trackers with equally many fingers have equally many free slots. -/
theorem length_spares_eq (ht : Sound s t) (hu : Sound s u)
    (hlen : t.pool.fingers.length = u.pool.fingers.length) :
    t.pool.spares.length = u.pool.spares.length := by
  have hp := ht.settled.shaped
  have hq := hu.settled.shaped
  have hslots := Pool.length_active_add_available hp
  have hslots' := Pool.length_active_add_available hq
  rw [Pool.length_fingers hp, Pool.length_fingers hq] at hlen
  rw [Pool.length_spares hp, Pool.length_spares hq]
  rw [ht.capacity_eq] at hslots
  rw [hu.capacity_eq] at hslots'
  omega

/-- A teardown leaves nobody on the panel. -/
theorem fingers_teardown (ht : Sound s t) : t.teardown.1.pool.fingers = [] := by
  obtain ⟨q, hq, hs, -, hent, -⟩ := Pool.freeAll_spec ht.settled.shaped
  show t.pool.freeAll.1.fingers = []
  rw [hq, Pool.fingers_eq hs, hent]
  rfl

/-- Trackers whose fingers look the same. -/
abbrev LookAlike (s : Settings) (t u : Tracker) : Prop :=
  Alike (Finger.LooksLike s.trailLength s.filtered) t u

/-- After a teardown all trackers of the same settings look alike, whatever came before. -/
theorem lookAlike_teardown (ht : Sound s t) (hu : Sound s u) :
    LookAlike s t.teardown.1 u.teardown.1 := by
  refine ⟨rfl, ?_⟩
  rw [fingers_teardown ht, fingers_teardown hu]
  exact List.Forall₂.nil

/-- What is seen of fingers that look alike is the same. -/
theorem map_seen_eq {fs gs : List Finger}
    (h : List.Forall₂ (Finger.LooksLike s.trailLength s.filtered) fs gs) :
    fs.map Finger.seen = gs.map Finger.seen := by
  rw [← List.forall₂_eq_eq_eq]
  exact List.rel_map (fun _ _ hfg => hfg.seen_eq) h

/-- The same frame finds both trackers alike. -/
theorem alikeIn_self (ht : Sound s t) (hu : Sound s u) (h : LookAlike s t u)
    (contacts : List Contact) (now : Timestamp) :
    AlikeIn (Finger.LooksLike s.trailLength s.filtered) t u contacts contacts now now := by
  have hroom : RoomAlike s t u contacts now := by
    rw [RoomAlike, length_spares_eq ht hu h.fingers.length_eq]
  exact alikeIn_frame (Finger.likeness_seen s now) ht hu h
    (List.forall₂_same.mpr fun _ _ => rfl) hroom

/-- A call on trackers that look alike gives the same, and they look alike after it. -/
theorem lookAlike_call (ht : Sound s t) (hu : Sound s u) (h : LookAlike s t u) (c : Call) :
    t.shown c = u.shown c ∧ LookAlike s (t.call c) (u.call c) := by
  cases c with
  | frame contacts now =>
    have hin := alikeIn_self ht hu h contacts now
    refine ⟨?_, hin.after⟩
    have hevents : (t.frame contacts now).events = (u.frame contacts now).events := by
      rw [events_heard contacts now ht.settled, events_heard contacts now hu.settled]
      congr 1
      rw [← List.forall₂_eq_eq_eq]
      refine List.rel_flatMap hin.heard ?_
      intro x y hxy
      show List.Forall₂ (· = ·) (x.1.told x.2) (y.1.told y.2)
      rw [hxy.2, hxy.1.told_eq, List.forall₂_eq_eq_eq]
    obtain ⟨js, hframe, hframe'⟩ := hin.frame
    rw [shown, shown, hevents, hframe, hframe', map_seen_eq hin.after.fingers]
  | teardown =>
    refine ⟨?_, lookAlike_teardown ht hu⟩
    rw [shown, shown, fingers_teardown ht, fingers_teardown hu]

/-- What is watched of two trackers that look alike is the same in every run. -/
theorem watch_eq (calls : List Call) :
    ∀ {t u : Tracker}, Sound s t → Sound s u → LookAlike s t u → t.watch calls = u.watch calls := by
  induction calls with
  | nil => exact fun _ _ _ => rfl
  | cons c calls ih =>
    intro t u ht hu h
    obtain ⟨hshown, hafter⟩ := lookAlike_call ht hu h c
    rw [watch, watch, hshown, ih (sound_call ht c) (sound_call hu c) hafter]

/-- **A teardown is a fresh start.** After any run of a tracker and a teardown, whatever follows
gives what it would have given if the tracker were new. -/
theorem watch_teardown (h : Tracker.new s = .ok t₀) (before later : List Call) :
    (t₀.after before).teardown.1.watch later = t₀.watch later := by
  have ht₀ := sound_new h
  have ht := sound_after h before
  refine watch_eq later (sound_teardown ht) ht₀ ⟨(nextId_new h).symm, ?_⟩
  rw [fingers_teardown ht, Pool.fingers_eq ht₀.settled.shaped, entries_new h]
  exact List.Forall₂.nil

/-- A teardown with a finger still down, after another has left: the slots wait in another order
and are not as they were, and a press, a move and a release are told as by a new tracker. -/
theorem watch_teardown_rotated :
    ∃ t₀, Tracker.new { maxFingers := 2 } = .ok t₀ ∧
      let first := Call.frame [⟨7, 7, 50⟩, ⟨90, 90, 50⟩] Timestamp.epoch
      let second := Call.frame [⟨90, 91, 50⟩] Timestamp.epoch
      let later := [first, second, .teardown, second]
      let t := (t₀.after [first, second]).teardown.1
      t.pool.available = [2, 3, 0, 1] ∧ t₀.pool.available = [0, 1, 2, 3] ∧
        t.watch later = t₀.watch later := by
  obtain ⟨t₀, h⟩ : ∃ t₀, Tracker.new { maxFingers := 2 } = .ok t₀ := ⟨_, rfl⟩
  obtain ⟨-, ht₀⟩ := new_eq_ok h
  refine ⟨t₀, h, ?_, ?_, watch_teardown h _ _⟩
  · rw [ht₀]
    decide +kernel
  · rw [ht₀]
    decide +kernel

end Tracker

end FingerTracking
