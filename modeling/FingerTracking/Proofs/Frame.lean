import FingerTracking.Tracker
import FingerTracking.Proofs.Arrivals
import FingerTracking.Proofs.Moves

/-!
# A frame as one equation

`Settled` is what a pool is like between two frames: shaped, with every active finger down and
every free slot at rest. From a settled pool a frame is given in closed form by the claims made
in it (`claims`) and the fingers that start in it (`arrivals`):

> `entries_frame`: the active fingers that claimed a contact stay, in their order and moved by
> `followEntry`; the arrivals come after them.
>
> `events_frame`: one group of events for each finger that was active in the frame.
>
> `frame_frame`: the claimed contacts, and no others, are taken off.

The pool after it is settled again (`settled_frame`), although in between there are fingers that
have only started and slots that were freed while their handles were still to be visited.
-/

namespace FingerTracking

open MatchTable Matching

namespace Pool

/-- Shaped, with fingers down in the slots in use and at rest in the others. -/
structure Settled (n : Nat) (b : Bool) (p : Pool) : Prop where
  shaped : p.Shaped
  active_down : ∀ e ∈ p.entries, e.2.Down n b
  spare_resting : ∀ e ∈ p.spares, e.2.Resting n b

/-- In a new pool every slot is at rest. -/
theorem settled_ofTrail {n : Nat} (hn : 0 < n) (b : Bool) (capacity : Nat) :
    (ofTrail capacity (Trail.empty n b)).Settled n b := by
  refine ⟨shaped_ofTrail .., by simp, ?_⟩
  intro e he
  rw [spares_ofTrail] at he
  obtain ⟨i, -, rfl⟩ := List.mem_map.mp he
  exact Finger.resting_fresh hn b

/-- A pool stays settled when all its slots are given back. -/
theorem settled_freeAll {n : Nat} {b : Bool} {p : Pool} (hp : p.Settled n b) :
    p.freeAll.1.Settled n b := by
  obtain ⟨q, hq, hs, -, hent, hspare⟩ := freeAll_spec hp.shaped
  rw [hq]
  refine ⟨hs, ?_, ?_⟩
  · intro e he
    rw [hent] at he
    exact nomatch he
  · intro e he
    rw [hspare] at he
    rcases List.mem_append.mp he with he | he
    · exact hp.spare_resting e he
    · obtain ⟨d, hd, rfl⟩ := List.mem_map.mp he
      exact Finger.resting_closed (hp.active_down d hd).fits

end Pool

namespace Tracker

variable {n : Nat} {b : Bool} {p : Pool} {h : Handle} {f : Finger}

/-! ## Carrying the fingers over -/

/-- An entry that goes on into the next frame. -/
def goOn (e : Handle × Finger) : Handle × Finger :=
  (e.1, { e.2 with phase := .down })

/-- An entry that has left, as the spare one it becomes. -/
def leave (e : Handle × Finger) : Handle × Finger :=
  (e.1.next, e.2.closed)

/-- One finger with the others around it: it stays in its place, or its slot goes to the end of the
spares. What it tells is its own step. -/
theorem carryOne_spec (table : MatchTable) {done rest : List (Handle × Finger)} (hp : p.Shaped)
    (he : p.entries = done ++ (h, f) :: rest) (hf : f.Touching n b) :
    (carryOne table p h).pool.Shaped ∧
    (carryOne table p h).pool.capacity = p.capacity ∧
    (carryOne table p h).pool.entries =
      done ++ ((if table.isMatched h then [goOn (h, f)] else []) ++ rest) ∧
    (carryOne table p h).pool.spares =
      p.spares ++ (if table.isMatched h then [] else [leave (h, f)]) ∧
    (carryOne table p h).events = (f.step (table.isMatched h)).events ∧
    (carryOne table p h).notes = (f.step (table.isMatched h)).notes := by
  have hg : p.get? h = some f :=
    (Pool.get?_eq_some_iff hp).mpr (he ▸ List.mem_append_right _ (List.mem_cons_self ..))
  obtain ⟨last, hl⟩ := hf.last?_eq
  unfold carryOne
  -- a finger that is seen is written back; one that is not is written back and then freed
  cases hm : table.isMatched h with
  | true =>
    simp only [hg, Finger.step_seen hf hl, if_true]
    refine ⟨Pool.shaped_set hp .., Pool.capacity_set .., Pool.entries_set_at hp he _, ?_, trivial,
      trivial⟩
    rw [Pool.spares_set hp, List.append_nil]
  | false =>
    simp only [hg, Finger.step_unseen hf hl]
    have hent := Pool.entries_set_at hp he { f with phase := .unused }
    obtain ⟨q, hfree, hq, hcap, hent', hspare⟩ := Pool.free_at (Pool.shaped_set hp ..) hent
    rw [hfree]
    refine ⟨hq, by rw [hcap, Pool.capacity_set], hent', ?_, trivial, List.append_nil _⟩
    rw [hspare, Pool.spares_set hp]
    rfl

/-- Carrying some of the active fingers keeps those of them that are matched and frees the
others. The fingers before them are done with, and those after them are still as they were. -/
theorem carry_spec (table : MatchTable) (rest : List (Handle × Finger)) :
    ∀ (todo done : List (Handle × Finger)) {p : Pool}, p.Shaped →
      p.entries = done ++ (todo ++ rest) → (∀ e ∈ todo, e.2.Touching n b) →
      (carry table p (todo.map (·.1))).pool.Shaped ∧
      (carry table p (todo.map (·.1))).pool.capacity = p.capacity ∧
      (carry table p (todo.map (·.1))).pool.entries =
        done ++ ((todo.filter fun e => table.isMatched e.1).map goOn ++ rest) ∧
      (carry table p (todo.map (·.1))).pool.spares =
        p.spares ++ (todo.filter fun e => !table.isMatched e.1).map leave ∧
      (carry table p (todo.map (·.1))).events =
        todo.flatMap (fun e => (e.2.step (table.isMatched e.1)).events) ∧
      (carry table p (todo.map (·.1))).notes =
        todo.flatMap (fun e => (e.2.step (table.isMatched e.1)).notes) := by
  -- the pool changes with every finger; what carries the induction is that the entries still to
  -- be visited are the ones they were
  intro todo
  induction todo with
  | nil => exact fun done p hp he _ => ⟨hp, rfl, he, (List.append_nil _).symm, rfl, rfl⟩
  | cons e todo ih =>
    intro done p hp he ht
    obtain ⟨h, f⟩ := e
    obtain ⟨hp', hcap', hent', hspare', hev', hno'⟩ :=
      carryOne_spec table hp he (ht _ (List.mem_cons_self ..))
    rw [← List.append_assoc] at hent'
    obtain ⟨hq, hcap, hent, hspare, hev, hno⟩ :=
      ih _ hp' hent' fun e he => ht e (List.mem_cons_of_mem _ he)
    refine ⟨hq, hcap.trans hcap', hent.trans ?_, hspare.trans ?_, ?_, ?_⟩
    · rw [List.append_assoc, List.filter_cons]
      split <;> rfl
    · rw [hspare', List.append_assoc, List.filter_cons]
      cases table.isMatched h <;> rfl
    · exact congrArg₂ (· ++ ·) hev' hev
    · exact congrArg₂ (· ++ ·) hno' hno

/-! ## The parts of a frame -/

variable (t : Tracker) (contacts : List Contact) (now : Timestamp)

/-- The claims on the contacts of a frame. -/
def claims : MatchTable :=
  assign t.pool contacts

/-- Pool and frame after the fingers have moved. -/
def moved : Applied :=
  Matching.apply (t.claims contacts) t.pool contacts now

/-- What spawning begins with. -/
def beforeSpawn : Spawning :=
  { pool := (t.moved contacts now).pool, table := t.claims contacts, nextId := t.nextId
    tries := 0, count := 0, notes := [] }

/-- What spawning has made of it when the `k`-th contact has its turn. -/
def turn (k : Nat) : Spawning :=
  spawnFrom t.threshold now 0 ((t.moved contacts now).frame.take k) (t.beforeSpawn contacts now)

/-- The fingers that start in a frame. -/
def arrivals : List Arrived :=
  Matching.arrivals t.threshold now 0 (t.moved contacts now).frame t.pool.spares t.nextId 0

/-- A frame when it is matched, with all its fingers still in it. -/
def matched : Correlated :=
  correlate t.threshold t.pool contacts now t.nextId

/-- The fingers active in a frame, in the order of their groups of events: those that were down
before, moved, and those that start in it. -/
def present : List (Handle × Finger) :=
  t.pool.entries.map (followEntry (t.claims contacts) contacts now) ++
    (t.arrivals contacts now).map (·.entry)

/-- The handles of the fingers that start in a frame, in the order in which they do. -/
def newcomers : List Handle :=
  (t.matched contacts now).pool.handles.drop t.pool.handles.length

variable {t}

/-- Every finger has one claim at most, and no two have the same contact. -/
theorem sole_claims (t : Tracker) (contacts : List Contact) :
    SoleClaims t.pool.handles contacts.length (t.claims contacts) :=
  assign_sole t.pool contacts

/-- What applying the claims does to the pool and to the frame. Nobody leaves and nobody comes. -/
theorem moved_spec (hp : t.pool.Shaped) :
    (t.moved contacts now).pool.Shaped ∧
    (t.moved contacts now).pool.capacity = t.pool.capacity ∧
    (t.moved contacts now).pool.entries =
      t.pool.entries.map (followEntry (t.claims contacts) contacts now) ∧
    (t.moved contacts now).pool.spares = t.pool.spares ∧
    (t.moved contacts now).frame =
      takenOff (t.pool.entries.filterMap fun e => (t.claims contacts).claim? e.1) contacts :=
  applyTo_of_perm hp (t.sole_claims contacts) (List.Perm.refl _) contacts now

/-- When the fingers have moved, the claimed contacts are off the frame. -/
theorem frame_moved (hp : t.pool.Shaped) :
    (t.moved contacts now).frame =
      takenOff (t.pool.entries.filterMap fun e => (t.claims contacts).claim? e.1) contacts := by
  obtain ⟨-, -, -, -, hframe⟩ := moved_spec contacts now hp
  exact hframe

/-- What spawning has started at each of its turns, and at its end. -/
theorem grown_spawnFrom (hp : t.pool.Shaped) (cs : List Contact) :
    Grown (t.beforeSpawn contacts now)
      (Matching.arrivals t.threshold now 0 cs t.pool.spares t.nextId 0)
      (spawnFrom t.threshold now 0 cs (t.beforeSpawn contacts now)) := by
  obtain ⟨hs, hcap, -, hspare, -⟩ := moved_spec contacts now hp
  have h := spawnFrom_spec t.threshold now cs 0 (s := t.beforeSpawn contacts now) hs
    (Nat.le_of_eq (hcap.trans (size_assign t.pool contacts).symm))
  rw [show (t.beforeSpawn contacts now).pool.spares = t.pool.spares from hspare] at h
  exact h

theorem shaped_turn (hp : t.pool.Shaped) (k : Nat) : (t.turn contacts now k).pool.Shaped :=
  (grown_spawnFrom contacts now hp _).shaped

theorem grown_matched (hp : t.pool.Shaped) :
    Grown (t.beforeSpawn contacts now) (t.arrivals contacts now)
      (spawnFrom t.threshold now 0 (t.moved contacts now).frame (t.beforeSpawn contacts now)) :=
  grown_spawnFrom contacts now hp _

theorem shaped_matched (hp : t.pool.Shaped) : (t.matched contacts now).pool.Shaped :=
  (grown_matched contacts now hp).shaped

/-- A matched pool has the fingers that are present in the frame, and no others. -/
theorem entries_matched (hp : t.pool.Shaped) :
    (t.matched contacts now).pool.entries = t.present contacts now := by
  obtain ⟨-, -, hent, -, -⟩ := moved_spec contacts now hp
  refine (grown_matched contacts now hp).entries_eq.trans ?_
  rw [show (t.beforeSpawn contacts now).pool.entries = _ from hent]
  rfl

/-- The fingers in a frame are all different. -/
theorem nodup_present (hp : t.pool.Shaped) : ((t.present contacts now).map (·.1)).Nodup := by
  rw [← entries_matched contacts now hp, ← Pool.handles_eq]
  exact Pool.nodup_handles (shaped_matched contacts now hp)

/-- The fingers of a frame in their order: first the old ones, then the new. -/
theorem map_fst_present :
    (t.present contacts now).map (·.1) =
      t.pool.handles ++ (t.arrivals contacts now).map (·.handle) := by
  rw [present, List.map_append, List.map_map, List.map_map, Pool.handles_eq]
  rfl

/-- The newcomers are the arrivals. -/
theorem newcomers_eq (hp : t.pool.Shaped) :
    t.newcomers contacts now = (t.arrivals contacts now).map (·.handle) := by
  rw [newcomers, Pool.handles_eq, Pool.handles_eq, entries_matched contacts now hp, present,
    List.map_append, List.drop_left' (by simp), List.map_map]
  rfl

/-- The slots are taken from the front of the queue. -/
theorem spares_matched (hp : t.pool.Shaped) :
    (t.matched contacts now).pool.spares = t.pool.spares.drop (t.arrivals contacts now).length := by
  obtain ⟨-, -, -, hspare, -⟩ := moved_spec contacts now hp
  refine (grown_matched contacts now hp).spares_eq.trans ?_
  rw [show (t.beforeSpawn contacts now).pool.spares = _ from hspare]

theorem capacity_matched (hp : t.pool.Shaped) :
    (t.matched contacts now).pool.capacity = t.pool.capacity := by
  obtain ⟨-, hcap, -, -, -⟩ := moved_spec contacts now hp
  exact (grown_matched contacts now hp).capacity_eq.trans hcap

/-- Starting fingers leaves the claims as they are. -/
theorem get?_matched_old (hp : t.pool.Shaped) (hh : h ∈ t.pool.handles) :
    (t.matched contacts now).table.get? h = (t.claims contacts).get? h := by
  obtain ⟨-, -, hent, -, -⟩ := moved_spec contacts now hp
  obtain ⟨f, hf⟩ := Pool.mem_handles_iff.mp hh
  have hmem : followEntry (t.claims contacts) contacts now (h, f) ∈
      (t.beforeSpawn contacts now).pool.entries := by
    rw [show (t.beforeSpawn contacts now).pool.entries = _ from hent]
    exact List.mem_map_of_mem hf
  exact (grown_matched contacts now hp).old _ hmem

/-- A finger that starts has its mark in the table, so it is not released in its first frame. -/
theorem get?_matched_arrival (hp : t.pool.Shaped) {a : Arrived}
    (ha : a ∈ t.arrivals contacts now) :
    (t.matched contacts now).table.get? a.handle = some .spawned :=
  (grown_matched contacts now hp).fresh a ha

/-- A finger that was down before has its place in the frame. -/
theorem follow_mem_present {e : Handle × Finger} (he : e ∈ t.pool.entries) :
    followEntry (t.claims contacts) contacts now e ∈ t.present contacts now :=
  List.mem_append_left _ (List.mem_map_of_mem he)

/-- In the frame it is down still. -/
theorem phase_followEntry (hp : t.pool.Settled n b) {e : Handle × Finger}
    (he : e ∈ t.pool.entries) :
    (followEntry (t.claims contacts) contacts now e).2.phase = .down :=
  (phase_follow ..).trans (hp.active_down e he).phase_eq

/-- A finger that arrives has only started. -/
theorem phase_arrival {a : Arrived} (ha : a ∈ t.arrivals contacts now) :
    a.finger.phase = .start := by
  obtain ⟨c, e, time, id, -, -, -, -, hf⟩ := arrivals_started _ _ _ _ _ a ha
  rw [hf]
  rfl

/-! ## The whole frame -/

/-- All fingers of a frame touch, so each of them has something to tell when it is carried over. -/
theorem touching_present (hp : t.pool.Settled n b) :
    ∀ e ∈ t.present contacts now, e.2.Touching n b := by
  intro e he
  rcases List.mem_append.mp he with he | he
  · obtain ⟨d, hd, rfl⟩ := List.mem_map.mp he
    exact touching_follow (hp.active_down d hd).touching ..
  · obtain ⟨a, ha, rfl⟩ := List.mem_map.mp he
    obtain ⟨c, s, time, id, -, -, hs, -, hf⟩ := arrivals_started _ _ _ _ _ a ha
    show a.finger.Touching n b
    rw [hf]
    exact Finger.touching_started (hp.spare_resting s hs).fits id c time

/-- An old finger stays if it has claimed a contact. -/
theorem isMatched_old (hp : t.pool.Shaped) (hh : h ∈ t.pool.handles) :
    (t.matched contacts now).table.isMatched h = (t.claims contacts).isMatched h := by
  rw [isMatched, isMatched, get?_matched_old contacts now hp hh]

/-- A new one stays in any case. -/
theorem isMatched_arrival (hp : t.pool.Shaped) {a : Arrived} (ha : a ∈ t.arrivals contacts now) :
    (t.matched contacts now).table.isMatched a.handle = true := by
  rw [isMatched, get?_matched_arrival contacts now hp ha]
  rfl

/-- **All that a frame does,** put together: pool, events and notes, read off the fingers present in
it. The other facts about frames follow from this one. -/
theorem carry_matched (hp : t.pool.Settled n b) :
    (t.frame contacts now).tracker.pool.Shaped ∧
    (t.frame contacts now).tracker.pool.capacity = t.pool.capacity ∧
    (t.frame contacts now).tracker.pool.entries =
      ((t.present contacts now).filter fun e =>
        (t.matched contacts now).table.isMatched e.1).map goOn ∧
    (t.frame contacts now).tracker.pool.spares =
      t.pool.spares.drop (t.arrivals contacts now).length ++ ((t.present contacts now).filter fun e =>
        !(t.matched contacts now).table.isMatched e.1).map leave ∧
    (t.frame contacts now).events = closed ((t.present contacts now).flatMap fun e =>
      (e.2.step ((t.matched contacts now).table.isMatched e.1)).events) now ∧
    (t.frame contacts now).notes = (t.matched contacts now).notes ++
      (t.present contacts now).flatMap fun e =>
        (e.2.step ((t.matched contacts now).table.isMatched e.1)).notes := by
  have hent := entries_matched contacts now hp.shaped
  obtain ⟨hs, hcap, hentries, hspares, hevents, hnotes⟩ :=
    carry_spec (t.matched contacts now).table [] (t.present contacts now) []
      (shaped_matched contacts now hp.shaped) (hent.trans (List.append_nil _).symm)
      (touching_present contacts now hp)
  rw [← hent, ← Pool.handles_eq] at hs hcap hentries hspares hevents hnotes
  rw [hent] at hentries hspares hevents hnotes
  rw [List.nil_append, List.append_nil] at hentries
  rw [spares_matched contacts now hp.shaped] at hspares
  refine ⟨hs, hcap.trans (capacity_matched contacts now hp.shaped), hentries, hspares, ?_, ?_⟩
  · exact congrArg (closed · now) hevents
  · exact congrArg ((t.matched contacts now).notes ++ ·) hnotes

/-- Of the fingers in a frame those stay that claimed a contact, and those that have started. -/
theorem filter_present_matched (hp : t.pool.Shaped) :
    ((t.present contacts now).filter fun e => (t.matched contacts now).table.isMatched e.1) =
      (t.pool.entries.filter fun e => (t.claims contacts).isMatched e.1).map
        (followEntry (t.claims contacts) contacts now) ++
      (t.arrivals contacts now).map (·.entry) := by
  rw [present, List.filter_append, List.filter_map]
  congr 1
  · congr 1
    apply List.filter_congr
    intro e he
    exact isMatched_old contacts now hp (Pool.mem_handles_iff.mpr ⟨e.2, he⟩)
  · apply List.filter_eq_self.mpr
    intro e he
    obtain ⟨a, ha, rfl⟩ := List.mem_map.mp he
    exact isMatched_arrival contacts now hp ha

/-- Those that leave are old fingers without a claim. -/
theorem filter_present_unmatched (hp : t.pool.Shaped) :
    ((t.present contacts now).filter fun e => !(t.matched contacts now).table.isMatched e.1) =
      (t.pool.entries.filter fun e => !(t.claims contacts).isMatched e.1).map
        (followEntry (t.claims contacts) contacts now) := by
  have hgone : (((t.arrivals contacts now).map (·.entry)).filter fun e =>
      !(t.matched contacts now).table.isMatched e.1) = [] := by
    apply List.filter_eq_nil_iff.mpr
    intro e he
    obtain ⟨a, ha, rfl⟩ := List.mem_map.mp he
    simp [show a.entry.1 = a.handle from rfl, isMatched_arrival contacts now hp ha]
  rw [present, List.filter_append, hgone, List.append_nil, List.filter_map]
  congr 1
  apply List.filter_congr
  intro e he
  exact congrArg (!·) (isMatched_old contacts now hp (Pool.mem_handles_iff.mpr ⟨e.2, he⟩))

/-- The fingers after a frame: those that claimed a contact, then those that have started. -/
theorem entries_frame (hp : t.pool.Settled n b) :
    (t.frame contacts now).tracker.pool.entries =
      (t.pool.entries.filter fun e => (t.claims contacts).isMatched e.1).map
        (fun e => goOn (followEntry (t.claims contacts) contacts now e)) ++
      (t.arrivals contacts now).map fun a => goOn a.entry := by
  obtain ⟨-, -, hent, -, -, -⟩ := carry_matched contacts now hp
  rw [hent, filter_present_matched contacts now hp.shaped, List.map_append, List.map_map,
    List.map_map]
  rfl

/-- The fingers after a frame are those of the frame that are in the table. -/
theorem mem_entries_frame (hp : t.pool.Settled n b) {e : Handle × Finger} :
    e ∈ (t.frame contacts now).tracker.pool.entries ↔
      ∃ d ∈ t.present contacts now, (t.matched contacts now).table.isMatched d.1 = true ∧
        goOn d = e := by
  obtain ⟨-, -, hent, -⟩ := carry_matched contacts now hp
  rw [hent, List.mem_map]
  simp only [List.mem_filter, and_assoc]

/-- The handles after a frame: the old ones that are in the table, and those of the arrivals. -/
theorem handles_frame (hp : t.pool.Settled n b) :
    (t.frame contacts now).tracker.pool.handles =
      (t.pool.handles.filter fun h => (t.claims contacts).isMatched h) ++
        (t.arrivals contacts now).map (·.handle) := by
  rw [Pool.handles_eq, entries_frame contacts now hp, List.map_append, List.map_map, List.map_map,
    Pool.handles_eq, List.filter_map]
  rfl

/-- The free slots after a frame: those that were not taken, then those of the fingers that left. -/
theorem spares_frame (hp : t.pool.Settled n b) :
    (t.frame contacts now).tracker.pool.spares =
      t.pool.spares.drop (t.arrivals contacts now).length ++
      (t.pool.entries.filter fun e => !(t.claims contacts).isMatched e.1).map
        fun e => leave (followEntry (t.claims contacts) contacts now e) := by
  obtain ⟨-, -, -, hspare, -, -⟩ := carry_matched contacts now hp
  rw [hspare, filter_present_unmatched contacts now hp.shaped, List.map_map]
  rfl

/-- Between two frames no finger has just started, and every free slot is at rest. -/
theorem settled_frame (hp : t.pool.Settled n b) :
    (t.frame contacts now).tracker.pool.Settled n b := by
  obtain ⟨hs, -, hent, hspare, -, -⟩ := carry_matched contacts now hp
  have ht := touching_present contacts now hp
  refine ⟨hs, ?_, ?_⟩
  · intro e he
    rw [hent] at he
    obtain ⟨d, hd, rfl⟩ := List.mem_map.mp he
    exact Finger.down_of_touching (ht d (List.mem_filter.mp hd).1)
  · intro e he
    rw [hspare] at he
    rcases List.mem_append.mp he with he | he
    · exact hp.spare_resting e (List.mem_of_mem_drop he)
    · obtain ⟨d, hd, rfl⟩ := List.mem_map.mp he
      exact Finger.resting_closed (ht d (List.mem_filter.mp hd).1).fits

/-- A finger in a frame is active after it if it is in the table. -/
theorem get?_frame_of_mem (hp : t.pool.Settled n b) {e : Handle × Finger}
    (he : e ∈ t.present contacts now) :
    (t.frame contacts now).tracker.pool.get? e.1 =
      if (t.matched contacts now).table.isMatched e.1 = true then some (goOn e).2 else none := by
  have hs := (settled_frame contacts now hp).shaped
  split
  next hm =>
    exact (Pool.get?_eq_some_iff hs).mpr ((mem_entries_frame contacts now hp).mpr ⟨e, he, hm, rfl⟩)
  next hm =>
    rw [Option.eq_none_iff_forall_ne_some]
    intro y hy
    obtain ⟨d, -, hd, heq⟩ :=
      (mem_entries_frame contacts now hp).mp ((Pool.get?_eq_some_iff hs).mp hy)
    have hsame : (goOn d).1 = e.1 := by rw [heq]
    rw [show d.1 = e.1 from hsame] at hd
    exact hm hd

/-- It is live after the frame, then. -/
theorem isLive_frame (hp : t.pool.Settled n b) {e : Handle × Finger}
    (he : e ∈ t.present contacts now) :
    (t.frame contacts now).tracker.pool.isLive e.1 =
      (t.matched contacts now).table.isMatched e.1 := by
  have hsome : (t.frame contacts now).tracker.pool.isLive e.1 =
      ((t.frame contacts now).tracker.pool.get? e.1).isSome := (Option.isSome_map ..).symm
  rw [hsome, get?_frame_of_mem contacts now hp he]
  cases (t.matched contacts now).table.isMatched e.1 <;> rfl

/-- What is given back of the contacts is what moving has left of them. Those that start fingers are
not taken off. -/
theorem frame_frame (hp : t.pool.Shaped) :
    (t.frame contacts now).frame =
      takenOff (t.pool.entries.filterMap fun e => (t.claims contacts).claim? e.1) contacts := by
  obtain ⟨-, -, -, -, hfr⟩ := moved_spec contacts now hp
  exact hfr

theorem nextId_frame (hp : t.pool.Shaped) :
    (t.frame contacts now).tracker.nextId =
      t.nextId + UInt32.ofNat (t.arrivals contacts now).length :=
  (grown_matched contacts now hp).nextId_eq

/-- Where no finger starts no id is given out. -/
theorem nextId_frame_of_none {contacts : List Contact} {now : Timestamp} (hp : t.pool.Shaped)
    (harr : t.arrivals contacts now = []) :
    (t.frame contacts now).tracker.nextId = t.nextId := by
  rw [nextId_frame _ _ hp, harr]
  exact UInt32.add_zero _

/-- The events of a frame, finger by finger. -/
theorem events_frame_present (hp : t.pool.Settled n b) :
    (t.frame contacts now).events = closed ((t.present contacts now).flatMap fun e =>
      e.2.told !(t.matched contacts now).table.isMatched e.1) now := by
  have ht := touching_present contacts now hp
  obtain ⟨-, -, -, -, hev, -⟩ := carry_matched contacts now hp
  rw [hev]
  congr 1
  exact List.flatMap_congr fun e he => Finger.events_step (ht e he) _

/-- The events of a frame: a group for each finger that was down before, with a release if it has
claimed no contact, then a group for each that starts. -/
theorem events_frame (hp : t.pool.Settled n b) :
    (t.frame contacts now).events =
      closed ((t.pool.entries.flatMap fun e =>
          (followEntry (t.claims contacts) contacts now e).2.told
            !(t.claims contacts).isMatched e.1) ++
        (t.arrivals contacts now).flatMap fun a => a.finger.told false) now := by
  rw [events_frame_present contacts now hp, present, List.flatMap_append, List.flatMap_map,
    List.flatMap_map]
  congr 2
  · apply List.flatMap_congr
    intro e he
    have hh : e.1 ∈ t.pool.handles := Pool.mem_handles_iff.mpr ⟨e.2, he⟩
    rw [fst_followEntry, isMatched_old contacts now hp.shaped hh]
  · apply List.flatMap_congr
    intro a ha
    rw [show a.entry.1 = a.handle from rfl, isMatched_arrival contacts now hp.shaped ha]
    rfl

end Tracker

end FingerTracking
