import FingerTracking.Proofs.SideBySide

/-!
# Times are carried along and decide nothing

Times travel with the positions through the rings and out again with the events. Nothing looks at
them on the way: erasing them (`untimed`) before a step or after it is the same. So two runs that
differ in their times only, whatever these are, tell the same about the same fingers, and their
pools are the same to the last cell but for the times in it. This holds of every tracker, also of
one whose pool is out of shape.

> `Trail.push_untimed`, `Finger.step_untimed`, `Pool.freeEach_untimed`: one operation after the
> other goes on without times.
>
> `frame_untimed`: so does a frame, whatever time it is given.
>
> `answers_eq_but_times`: runs that differ in their times only.
-/

namespace FingerTracking

open Matching

/-! ## Erasing the times -/

def Sample.untimed (s : Sample) : Sample :=
  { s with time := .epoch }

def Trail.untimed (t : Trail) : Trail :=
  { t with cells := t.cells.map Sample.untimed }

def Finger.untimed (f : Finger) : Finger :=
  { f with trail := f.trail.untimed }

def Slot.untimed (s : Slot) : Slot :=
  { s with finger := s.finger.untimed }

def Pool.untimed (p : Pool) : Pool :=
  { p with slots := p.slots.map Slot.untimed }

def Event.untimed (e : Event) : Event :=
  { e with time := .epoch }

def Tracker.untimed (t : Tracker) : Tracker :=
  { t with pool := t.pool.untimed }

/-! Erasing twice is erasing once. -/

@[simp] theorem Trail.untimed_untimed (t : Trail) : t.untimed.untimed = t.untimed := by
  rw [untimed, untimed, Array.map_map]
  rfl

@[simp] theorem Finger.untimed_untimed (f : Finger) : f.untimed.untimed = f.untimed := by
  simp only [untimed, Trail.untimed_untimed]

@[simp] theorem Pool.untimed_untimed (p : Pool) : p.untimed.untimed = p.untimed := by
  have hslot : Slot.untimed ∘ Slot.untimed = Slot.untimed := by
    funext s
    simp only [Function.comp_apply, Slot.untimed, Finger.untimed_untimed]
  rw [untimed, untimed, Array.map_map, hslot]

/-- The call without its time. -/
def Call.untimed : Call → Call
  | .frame contacts _ => .frame contacts .epoch
  | .teardown => .teardown

/-! ## Trails -/

namespace Trail

@[simp] theorem capacity_untimed (t : Trail) : t.untimed.capacity = t.capacity :=
  Array.size_map ..

/-- The ring is indexed by its counters alone, so the times in the cells can be erased before a cell
is looked up or after it. -/
theorem nth_untimed (t : Trail) (i : Nat) : t.untimed.nth i = (t.nth i).untimed := by
  rw [nth, nth, capacity_untimed]
  show (t.cells.map Sample.untimed).getD ((t.head + i) % t.capacity) Sample.blank.untimed = _
  simp only [Array.getD_eq_getD_getElem?, Array.getElem?_map, Option.getD_map]

@[simp] theorem length_untimed (t : Trail) : t.untimed.length = t.length := rfl

/-- The newest sample keeps its place. This is where distances, steps and events come from. -/
@[simp] theorem last?_untimed (t : Trail) : t.untimed.last? = t.last?.map Sample.untimed := by
  unfold last?
  rw [length_untimed, nth_untimed]
  split <;> rfl

/-- What is stored depends on the place of the last sample alone. -/
theorem stored_untimed (filtered : Bool) (last : Option Sample) (x y : Int32) :
    stored filtered (last.map Sample.untimed) x y = stored filtered last x y := by
  cases filtered <;> cases last <;> rfl

/-- A sample goes into the same cell, whatever its time is. -/
theorem append_untimed (t : Trail) (s : Sample) :
    (t.append s).untimed = t.untimed.append s.untimed := by
  unfold append
  simp only [capacity_untimed, length_untimed]
  split <;> simp only [untimed, Array.map_setIfInBounds]

/-- A trail pushed without times is the pushed trail without them. -/
theorem push_untimed (t : Trail) (x y : Int32) (time : Timestamp) :
    (t.push x y time).untimed = t.untimed.push x y .epoch := by
  unfold push
  rw [append_untimed, last?_untimed, stored_untimed]
  rfl

end Trail

/-! ## Fingers -/

namespace Finger

def Stepped.untimed (s : Stepped) : Stepped :=
  { s with finger := s.finger.untimed, events := s.events.map Event.untimed }

/-- Which events a group has depends on the two flags, and the times in them are those of the
sample. -/
theorem group_untimed (id : UInt32) (last : Sample) (arrives leaves : Bool) :
    group id last.untimed arrives leaves = (group id last arrives leaves).map Event.untimed := by
  cases arrives <;> cases leaves <;> rfl

/-- A finger steps in the same way without its times: the outcome and the notes are the same, and
the events differ in their times only. -/
theorem step_untimed (f : Finger) (seen : Bool) :
    f.untimed.step seen = (f.step seen).untimed := by
  have hlast : f.untimed.trail.last? = f.trail.last?.map Sample.untimed := Trail.last?_untimed _
  unfold step
  rw [hlast]
  by_cases hphase : f.phase = .unused
  · have hphase' : f.untimed.phase = .unused := hphase
    rw [if_pos hphase, if_pos hphase']
    rfl
  · have hphase' : f.untimed.phase ≠ .unused := hphase
    rw [if_neg hphase, if_neg hphase']
    cases f.trail.last? with
    | none => rfl
    | some last =>
      simp only [Option.map_some, group_untimed]
      cases seen <;> rfl

/-- A finger that follows its contact keeps nothing of the time but in its newest sample. -/
theorem moved_untimed (f : Finger) (c : Contact) (now : Timestamp) :
    (moved f c now).untimed = moved f.untimed c .epoch := by
  unfold moved untimed
  rw [Trail.push_untimed]

theorem started_untimed (f : Finger) (id : UInt32) (c : Contact) (time : Timestamp) :
    (started f id c time).untimed = started f.untimed id c .epoch := by
  unfold started untimed
  rw [Trail.push_untimed]

end Finger

/-! ## Pools -/

namespace Pool

@[simp] theorem capacity_untimed (p : Pool) : p.untimed.capacity = p.capacity :=
  Array.size_map ..

/-- Every other lemma about a pool without times comes down to this one. -/
theorem getElem?_slots_untimed (p : Pool) (i : Nat) :
    p.untimed.slots[i]? = p.slots[i]?.map Slot.untimed :=
  Array.getElem?_map ..

/-- A handle is good for the same slots, since a generation is no time. -/
@[simp] theorem slot?_untimed (p : Pool) (h : Handle) :
    p.untimed.slot? h = (p.slot? h).map Slot.untimed := by
  unfold slot?
  rw [getElem?_slots_untimed]
  cases p.slots[h.index]? with
  | none => rfl
  | some s =>
    show (if s.active ∧ s.generation = h.generation then some s.untimed else none) =
      (if s.active ∧ s.generation = h.generation then some s else none).map Slot.untimed
    split <;> rfl

/-- The finger behind a handle is there with its times or without them. -/
@[simp] theorem get?_untimed (p : Pool) (h : Handle) :
    p.untimed.get? h = (p.get? h).map Finger.untimed := by
  rw [get?, get?, slot?_untimed, Option.map_map, Option.map_map]
  rfl

/-- The active fingers stand in the same order. -/
@[simp] theorem handles_untimed (p : Pool) : p.untimed.handles = p.handles := by
  have hone : p.untimed.handleAt? = p.handleAt? := by
    funext i
    rw [handleAt?, handleAt?, getElem?_slots_untimed, Option.map_map]
    rfl
  rw [handles, handles, hone]
  rfl

theorem set_untimed (p : Pool) (h : Handle) (f : Finger) :
    (p.set h f).untimed = p.untimed.set h f.untimed := by
  unfold set
  rw [slot?_untimed]
  cases p.slot? h with
  | none => rfl
  | some s =>
    simp only [untimed, Option.map_some, Array.map_setIfInBounds]
    rfl

/-- The same slot is taken, under the same handle. -/
theorem take?_untimed (p : Pool) :
    p.untimed.take? = p.take?.map fun r => (r.1, r.2.untimed) := by
  obtain ⟨slots, available, active⟩ := p
  cases available with
  | nil => rfl
  | cons i rest =>
    simp only [take?, untimed, Array.getElem?_map]
    cases slots[i]? with
    | none => rfl
    | some s =>
      simp only [Option.map_some, Array.map_setIfInBounds]
      rfl

/-- A slot is given back, or the same note is made of a stale handle. -/
theorem free_untimed (p : Pool) (h : Handle) :
    p.untimed.free h = ((p.free h).1.untimed, (p.free h).2) := by
  unfold free free?
  rw [slot?_untimed]
  cases p.slot? h with
  | none => rfl
  | some s =>
    simp only [untimed, Option.map_some, Array.map_setIfInBounds]
    rfl

/-- Slots return to the queue in the same order. -/
theorem freeEach_untimed (hs : List Handle) : ∀ p : Pool,
    p.untimed.freeEach hs = ((p.freeEach hs).1.untimed, (p.freeEach hs).2) := by
  induction hs with
  | nil => exact fun _ => rfl
  | cons h hs ih =>
    intro p
    rw [freeEach, freeEach, free_untimed, ih]

theorem freeAll_untimed (p : Pool) :
    p.untimed.freeAll = (p.freeAll.1.untimed, p.freeAll.2) := by
  rw [freeAll, freeAll, handles_untimed, freeEach_untimed]

end Pool

/-! ## Matching -/

namespace Matching

variable {threshold : Int32}

def Applied.untimed (a : Applied) : Applied :=
  { a with pool := a.pool.untimed }

def Spawning.untimed (s : Spawning) : Spawning :=
  { s with pool := s.pool.untimed }

def Correlated.untimed (m : Correlated) : Correlated :=
  { m with pool := m.pool.untimed }

/-- Spawning works on a pool from which the times may have been erased already. -/
theorem Spawning.untimed_untimed (s : Spawning) : s.untimed.untimed = s.untimed := by
  simp only [untimed, Pool.untimed_untimed]

/-- A distance is one between places. -/
theorem distanceTo?_untimed (p : Pool) (c : Contact) (h : Handle) :
    distanceTo? p.untimed c h = distanceTo? p c h := by
  rw [distanceTo?, distanceTo?, Pool.get?_untimed]
  cases p.get? h with
  | none => rfl
  | some f =>
    show ((f.trail.untimed).last?).map (squaredDistance c) = f.trail.last?.map (squaredDistance c)
    rw [Trail.last?_untimed, Option.map_map]
    rfl

/-- So a contact claims the same finger, from as near. -/
theorem claim_untimed (p : Pool) (t : MatchTable) (j : Nat) (c : Contact) :
    claim p.untimed t j c = claim p t j c := by
  have hbetter : better p.untimed t c = better p t c := by
    funext best h
    rw [better, better, distanceTo?_untimed]
  rw [claim, claim, nearest?, nearest?, hbetter, Pool.handles_untimed]

theorem assignFrom_untimed (p : Pool) (cs : List Contact) : ∀ (j : Nat) (t : MatchTable),
    assignFrom p.untimed j cs t = assignFrom p j cs t := by
  induction cs with
  | nil => exact fun _ _ => rfl
  | cons c cs ih =>
    intro j t
    rw [assignFrom, assignFrom, claim_untimed, ih]

/-- Who claims what does not depend on times. -/
theorem assign_untimed (p : Pool) (contacts : List Contact) :
    assign p.untimed contacts = assign p contacts := by
  rw [assign, assign, Pool.capacity_untimed, assignFrom_untimed]

/-- One claim is carried out in the same way: the same contact is taken off, and the finger follows
it in both pools or in neither. -/
theorem applyOne_untimed (t : MatchTable) (now : Timestamp) (p : Pool) (contacts : List Contact)
    (h : Handle) :
    (applyOne t now p contacts h).untimed = applyOne t .epoch p.untimed contacts h := by
  unfold applyOne
  cases t.get? h with
  | none => rfl
  | some m =>
    cases m with
    | spawned => rfl
    | contact j d =>
      simp only [Pool.get?_untimed]
      cases p.get? h with
      | none => rfl
      | some f =>
        cases contacts[j]? with
        | none => rfl
        | some c =>
          simp only [Option.map_some]
          -- a finger weighs the same without its times, so both follow the contact or neither
          by_cases hf : follows f c = true
          · have hf' : follows f.untimed c = true := hf
            rw [if_pos hf, if_pos hf', Applied.untimed, Pool.set_untimed, Finger.moved_untimed]
          · have hf' : ¬follows f.untimed c = true := hf
            rw [if_neg hf, if_neg hf']
            rfl

/-- The fingers that come later find the pool and the frame alike, so the induction goes through
pools that differ in times only. -/
theorem applyTo_untimed (t : MatchTable) (now : Timestamp) (hs : List Handle) :
    ∀ (p : Pool) (contacts : List Contact),
      (applyTo t now p contacts hs).untimed = applyTo t .epoch p.untimed contacts hs := by
  induction hs with
  | nil => exact fun _ _ => rfl
  | cons h hs ih =>
    intro p contacts
    rw [applyTo, applyTo, ← applyOne_untimed t now]
    have hrest := ih (applyOne t now p contacts h).pool (applyOne t now p contacts h).frame
    rw [Applied.untimed] at hrest
    simp only [Applied.untimed, ← hrest]

theorem apply_untimed (t : MatchTable) (p : Pool) (contacts : List Contact) (now : Timestamp) :
    (apply t p contacts now).untimed = apply t p.untimed contacts .epoch := by
  rw [apply, apply, Pool.handles_untimed, applyTo_untimed]

/-- New fingers of one frame have times of their own, also where the frame's time is the epoch, so
the times are erased on both sides. -/
theorem spawnOne_untimed (now : Timestamp) (s : Spawning) (j : Nat) (c : Contact) :
    (spawnOne threshold now s j c).untimed =
      (spawnOne threshold .epoch s.untimed j c).untimed := by
  unfold spawnOne
  split
  · exact (Spawning.untimed_untimed s).symm
  split
  · simp only [Spawning.untimed, Pool.untimed_untimed]
  simp only [Spawning.untimed, Pool.take?_untimed]
  cases s.pool.take? with
  | none => simp only [Option.map_none, Pool.untimed_untimed]
  | some r =>
    obtain ⟨h, p⟩ := r
    simp only [Option.map_some, Pool.get?_untimed]
    cases p.get? h with
    | none => simp only [Option.map_none, Pool.untimed_untimed]
    | some f =>
      simp only [Option.map_some, Pool.set_untimed, Finger.started_untimed, Pool.untimed_untimed,
        Finger.untimed_untimed]

/-- So the contacts that are left start the same fingers in the same slots. -/
theorem spawnFrom_untimed (now : Timestamp) (cs : List Contact) : ∀ (j : Nat) (s : Spawning),
    (spawnFrom threshold now j cs s).untimed =
      (spawnFrom threshold .epoch j cs s.untimed).untimed := by
  induction cs generalizing now with
  | nil => exact fun _ s => (Spawning.untimed_untimed s).symm
  | cons c cs ih =>
    -- the rest starts from a state whose times are erased, on the right from one with times again
    intro j s
    rw [spawnFrom, spawnFrom, ih now, spawnOne_untimed, ← ih .epoch]

/-- A frame is matched in the same way at any time. -/
theorem correlate_untimed (p : Pool) (contacts : List Contact) (now : Timestamp) (nextId : UInt32) :
    (correlate threshold p contacts now nextId).untimed =
      (correlate threshold p.untimed contacts .epoch nextId).untimed := by
  rw [correlate, correlate, assign_untimed, ← apply_untimed _ p contacts now]
  generalize apply (assign p contacts) p contacts now = a
  have hspawn : (spawn threshold a.pool (assign p contacts) a.frame now nextId).untimed =
      (spawn threshold a.pool.untimed (assign p contacts) a.frame .epoch nextId).untimed :=
    spawnFrom_untimed ..
  exact congrArg (fun s : Spawning => Correlated.mk s.pool s.table a.frame s.nextId
    (a.notes ++ s.notes)) hspawn

end Matching

/-! ## Trackers -/

namespace Tracker

def Carried.untimed (c : Carried) : Carried :=
  { c with pool := c.pool.untimed, events := c.events.map Event.untimed }

/-- What a call gives back, without times: nothing is left out but the times of the events and of
the samples in the pool. -/
def Framed.untimed (r : Framed) : Framed :=
  { r with tracker := r.tracker.untimed, events := r.events.map Event.untimed }

/-- A finger goes on or leaves without a look at the time. -/
theorem carryOne_untimed (table : MatchTable) (p : Pool) (h : Handle) :
    carryOne table p.untimed h = (carryOne table p h).untimed := by
  unfold carryOne
  rw [Pool.get?_untimed]
  cases p.get? h with
  | none => rfl
  | some f =>
    simp only [Option.map_some, Finger.step_untimed, Finger.Stepped.untimed, ← Pool.set_untimed]
    cases (f.step (table.isMatched h)).outcome with
    | keep => rfl
    | release =>
      simp only [Pool.free_untimed]
      rfl

theorem carry_untimed (table : MatchTable) (hs : List Handle) : ∀ p : Pool,
    carry table p.untimed hs = (carry table p hs).untimed := by
  induction hs with
  | nil => exact fun _ => rfl
  | cons h hs ih =>
    intro p
    rw [carry, carry, carryOne_untimed]
    simp only [Carried.untimed, ih, List.map_append]

/-- The sync is there or not, and its time is that of the frame. -/
theorem closed_untimed (events : Batch) (now : Timestamp) :
    (closed events now).map Event.untimed = closed (events.map Event.untimed) .epoch := by
  cases events with
  | nil => rfl
  | cons e es => exact List.map_append

/-- What is left of a frame once it is matched. -/
def finished (threshold : Int32) (m : Correlated) (now : Timestamp) : Framed :=
  let c := carry m.table m.pool m.pool.handles
  { tracker := { pool := c.pool, threshold, nextId := m.nextId }
    events := closed c.events now
    frame := m.frame
    notes := m.notes ++ c.notes }

/-- A frame in two halves, of which only the first one knows the contacts. -/
theorem frame_eq_finished (t : Tracker) (contacts : List Contact) (now : Timestamp) :
    t.frame contacts now =
      finished t.threshold (correlate t.threshold t.pool contacts now t.nextId) now := rfl

theorem finished_untimed (threshold : Int32) (m : Correlated) (now : Timestamp) :
    (finished threshold m now).untimed = finished threshold m.untimed .epoch := by
  have hcarry : carry m.table m.pool.untimed m.pool.untimed.handles =
      (carry m.table m.pool m.pool.handles).untimed := by
    rw [Pool.handles_untimed, carry_untimed]
  simp only [finished, Correlated.untimed, hcarry, Framed.untimed, closed_untimed]
  rfl

/-- **No frame looks at the time,** neither at its own nor at those of the samples. -/
theorem frame_untimed (t : Tracker) (contacts : List Contact) (now : Timestamp) :
    (t.frame contacts now).untimed = (t.untimed.frame contacts .epoch).untimed := by
  rw [frame_eq_finished, frame_eq_finished, finished_untimed, finished_untimed, correlate_untimed]
  rfl

/-- A teardown makes the same notes and gives back the same slots. -/
theorem teardown_untimed (t : Tracker) :
    t.untimed.teardown = (t.teardown.1.untimed, t.teardown.2) := by
  simp only [teardown, untimed, Pool.freeAll_untimed]

/-! ## Runs -/

/-- **No call looks at the time.** This is the step of a run. -/
theorem answer_untimed (t : Tracker) (c : Call) :
    (t.answer c).untimed = (t.untimed.answer c.untimed).untimed := by
  cases c with
  | frame contacts now => exact frame_untimed t contacts now
  | teardown =>
    have htwice : t.teardown.1.untimed.untimed = t.teardown.1.untimed := by
      simp only [untimed, Pool.untimed_untimed]
    simp only [answer, Call.untimed, teardown_untimed, Framed.untimed, htwice]

/-- Trackers that are the same but for times stay so in every call, and so do their answers. The
induction is on both runs at once. -/
theorem answers_eq_of_untimed (calls : List Call) : ∀ {t u : Tracker} {calls' : List Call},
    t.untimed = u.untimed → calls.map Call.untimed = calls'.map Call.untimed →
      (t.answers calls).map Framed.untimed = (u.answers calls').map Framed.untimed := by
  induction calls with
  | nil =>
    intro t u calls' _ hcalls
    rw [List.map_eq_nil_iff.mp hcalls.symm]
    rfl
  | cons c calls ih =>
    intro t u calls' htu hcalls
    cases calls' with
    | nil => cases hcalls
    | cons d calls' =>
      obtain ⟨hcall, hrest⟩ := List.cons.inj hcalls
      have hanswer : (t.answer c).untimed = (u.answer d).untimed := by
        rw [answer_untimed, htu, hcall, ← answer_untimed]
      have hnext : (t.call c).untimed = (u.call d).untimed := by
        rw [← tracker_answer, ← tracker_answer]
        exact congrArg Framed.tracker hanswer
      rw [answers, answers, List.map_cons, List.map_cons, hanswer, ih hnext hrest]

/-- **Times decide nothing.** Two runs of a tracker that differ in the times of their frames only
give back the same but for times, call by call: the same events in the same order, the same contacts
taken off, and the same pool to the last cell. Time may also stand still or go back in either run,
or reach the last moment, where it stops. -/
theorem answers_eq_but_times (t : Tracker) {calls calls' : List Call}
    (h : calls.map Call.untimed = calls'.map Call.untimed) :
    (t.answers calls).map Framed.untimed = (t.answers calls').map Framed.untimed :=
  answers_eq_of_untimed calls rfl h

/-- Two fingers start in one frame, one of them leaves, then the other one, and a third one starts.
Time goes on in the one run; in the other one it begins at its last moment, so that both fingers
start at the same time, and goes back. -/
theorem answers_eq_but_times_back :
    ∃ t₀, Tracker.new { trailLength := 2, filtered := true } = .ok t₀ ∧
      let calls : List Call := [.frame [⟨10, 10, 1⟩, ⟨500, 500, 1⟩] .epoch,
        .frame [⟨12, 10, 1⟩] (.ofMillis 10), .teardown, .frame [⟨5, 5, 1⟩] (.ofMillis 40)]
      let calls' : List Call := [.frame [⟨10, 10, 1⟩, ⟨500, 500, 1⟩] (.clamp Timestamp.latestNanos),
        .frame [⟨12, 10, 1⟩] (.ofMillis 7), .teardown, .frame [⟨5, 5, 1⟩] .epoch]
      calls.map Call.untimed = calls'.map Call.untimed ∧
        (t₀.answers calls).map Framed.events ≠ (t₀.answers calls').map Framed.events ∧
        (t₀.answers calls).map Framed.untimed = (t₀.answers calls').map Framed.untimed := by
  obtain ⟨t₀, h⟩ : ∃ t₀, Tracker.new { trailLength := 2, filtered := true } = .ok t₀ := ⟨_, rfl⟩
  obtain ⟨-, ht₀⟩ := new_eq_ok h
  refine ⟨t₀, h, ?_⟩
  intro calls calls'
  have hcalls : calls.map Call.untimed = calls'.map Call.untimed := rfl
  refine ⟨hcalls, ?_, answers_eq_but_times t₀ hcalls⟩
  rw [ht₀]
  decide +kernel

end Tracker

end FingerTracking
