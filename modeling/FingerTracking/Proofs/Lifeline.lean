import FingerTracking.Proofs.Groups
import FingerTracking.Proofs.Runs

/-!
# The life of a finger in the events of a run

A run of frames is read one finger id at a time: a `Row` for each frame says what the match table
held about the id and which groups of events named it. While fewer than 2³² fingers start, an id
is one finger, and its rows tell its life:

> `lifeline_rows`: nothing, until it is pressed in the frame that starts it; moved in every frame
> from then on; and released in the first frame that has no contact for it, with nothing after.
> An id that was not given out is never told about.

The ids of the fingers in a frame increase along the pool and stay below the next one
(`Numbered`), so at most one of them has the id that is read. It is not yet given out, held, or
over; a lemma for each says what the next row is and which of the three it is then.
-/

namespace FingerTracking

open MatchTable Matching Event

/-- The frames of a run, each with its contacts and its time. -/
abbrev Frames := List (List Contact × Timestamp)

/-- What there is about one finger id in one frame. -/
structure Row where
  /-- For each finger with the id, what the table has about it; `none` if no contact is for it. -/
  marks : List (Option Match)
  /-- The groups of events that name it. -/
  groups : List Batch

namespace Row

def Absent (r : Row) : Prop :=
  r.marks = [] ∧ r.groups = []

def Presses (v : Int32) (r : Row) : Prop :=
  r.marks = [some .spawned] ∧ ∃ s, r.groups = [press v s]

def Moves (v : Int32) (r : Row) : Prop :=
  (∃ j d, r.marks = [some (.contact j d)]) ∧ ∃ s, r.groups = [move v s]

def Releases (v : Int32) (r : Row) : Prop :=
  r.marks = [none] ∧ ∃ s, r.groups = [release v s]

end Row

/-- The rows of a finger that has left or was never there. -/
def Ended (held : Prop) (rows : List Row) : Prop :=
  ¬ held ∧ ∀ r ∈ rows, r.Absent

/-- The rows of a finger that is there before them: moves, then a release unless it is still
`held` at the end. -/
def Ongoing (v : Int32) (held : Prop) (rows : List Row) : Prop :=
  ∃ moves rest, rows = moves ++ rest ∧ (∀ r ∈ moves, r.Moves v) ∧
    (rest = [] ∧ held ∨ ∃ q later, rest = q :: later ∧ q.Releases v ∧ Ended held later)

/-- The rows of an id that is given out in the course of them: a press and what follows it. -/
def Lifeline (v : Int32) (held : Prop) (rows : List Row) : Prop :=
  ∃ before p later, rows = before ++ p :: later ∧ (∀ r ∈ before, r.Absent) ∧ p.Presses v ∧
    Ongoing v held later

namespace Tracker

/-! ## Reading a run -/

/-- Whether a finger with this id, as it is sent, is active. -/
def Holds (t : Tracker) (v : Int32) : Prop :=
  ∃ h ∈ t.pool.handles, ∃ f, t.pool.get? h = some f ∧ f.id.toInt32 = v

/-- What there is about an id in one frame, from the table and from the batch. -/
def row (t : Tracker) (v : Int32) (contacts : List Contact) (now : Timestamp) : Row :=
  let m := t.matched contacts now
  { marks := (m.pool.handles.filter fun h =>
      (m.pool.get? h).map (·.id.toInt32) == some v).map m.table.get?
    groups := (groups (t.frame contacts now).events).filter (names v) }

/-- The rows of an id in a run of frames. -/
def rows (t : Tracker) (v : Int32) : Frames → List Row
  | [] => []
  | f :: frames => t.row v f.1 f.2 :: (t.frame f.1 f.2).tracker.rows v frames

/-- What the frames of a run give out. -/
def batches (t : Tracker) : Frames → List Batch
  | [] => []
  | f :: frames => (t.frame f.1 f.2).events :: (t.frame f.1 f.2).tracker.batches frames

/-- How many fingers start in a run. -/
def startedIn (t : Tracker) : Frames → Nat
  | [] => 0
  | f :: frames =>
    (spawn t.threshold (t.moved f.1 f.2).pool (t.claims f.1) (t.moved f.1 f.2).frame f.2
      t.nextId).count + (t.frame f.1 f.2).tracker.startedIn frames

/-- The tracker after a run of frames. -/
def through (t : Tracker) (frames : Frames) : Tracker :=
  t.after (frames.map fun f => .frame f.1 f.2)

theorem through_append (t : Tracker) (frames later : Frames) :
    t.through (frames ++ later) = (t.through frames).through later := by
  unfold through
  rw [List.map_append, after_append]

/-- A run of frames can be cut anywhere, and so can what it gives out. -/
theorem batches_append (frames later : Frames) :
    ∀ t : Tracker, t.batches (frames ++ later) =
      t.batches frames ++ (t.through frames).batches later := by
  induction frames with
  | nil => exact fun _ => rfl
  | cons f frames ih =>
    intro t
    rw [List.cons_append, batches, ih]
    rfl

variable {s : Settings} {t t₀ : Tracker} {n left : Nat} {b : Bool} {v : Int32}
variable {e : Handle × Finger} (contacts : List Contact) (now : Timestamp)

/-- What spawning counts are the arrivals. -/
theorem count_spawn (hp : t.pool.Shaped) :
    (spawn t.threshold (t.moved contacts now).pool (t.claims contacts) (t.moved contacts now).frame
      now t.nextId).count = (t.arrivals contacts now).length :=
  (grown_matched contacts now hp).count_eq.trans (Nat.zero_add _)

/-- An id is held by the entries alone. -/
theorem holds_iff (hp : t.pool.Shaped) :
    t.Holds v ↔ ∃ e ∈ t.pool.entries, e.2.id.toInt32 = v := by
  constructor
  · intro ⟨h, _, f, hf, hv⟩
    exact ⟨(h, f), (Pool.get?_eq_some_iff hp).mp hf, hv⟩
  · intro ⟨e, he, hv⟩
    exact ⟨e.1, Pool.mem_handles_iff.mpr ⟨e.2, he⟩, e.2, (Pool.get?_eq_some_iff hp).mpr he, hv⟩

/-- The handles of the fingers with some id are read off the entries. -/
theorem filter_handles {p : Pool} (hp : p.Shaped) (v : Int32) :
    (p.handles.filter fun h => (p.get? h).map (·.id.toInt32) == some v) =
      (p.entries.filter fun e => e.2.id.toInt32 == v).map (·.1) := by
  rw [Pool.handles_eq, List.filter_map]
  congr 1
  apply List.filter_congr
  intro e he
  have hg : p.get? e.1 = some e.2 := (Pool.get?_eq_some_iff hp).mpr he
  show ((p.get? e.1).map (·.id.toInt32) == some v) = _
  rw [hg]
  rfl

/-- The events of a frame are one group for each finger in it. -/
theorem groups_frame (hp : t.pool.Settled n b) :
    groups (t.frame contacts now).events =
      (t.present contacts now).map fun e =>
        e.2.told !(t.matched contacts now).table.isMatched e.1 := by
  rw [events_frame_present contacts now hp, List.flatMap_def]
  apply groups_closed
  intro g hg
  obtain ⟨e, he, rfl⟩ := List.mem_map.mp hg
  exact Finger.headed_told (touching_present contacts now hp e he) _

/-- The ids told in a frame are those of the fingers in it. -/
theorem ids_frame (hp : t.pool.Settled n b) :
    ids (t.frame contacts now).events = (t.present contacts now).map (·.2.id.toInt32) := by
  have hids : ∀ es : List (Handle × Finger), (∀ e ∈ es, e.2.Touching n b) →
      ids (es.flatMap fun e => e.2.told !(t.matched contacts now).table.isMatched e.1) =
        es.map (·.2.id.toInt32) := by
    intro es hes
    induction es with
    | nil => rfl
    | cons e es ih =>
      rw [List.flatMap_cons, ids_append, ih fun d hd => hes d (List.mem_cons_of_mem _ hd),
        Finger.ids_told (hes e (List.mem_cons_self ..))]
      rfl
  rw [events_frame_present contacts now hp, ids_closed, hids _ (touching_present contacts now hp)]

/-- The row of an id, read off the fingers in the frame. -/
theorem row_eq (hp : t.pool.Settled n b) (v : Int32) :
    t.row v contacts now =
      { marks := ((t.present contacts now).filter fun e => e.2.id.toInt32 == v).map fun e =>
          (t.matched contacts now).table.get? e.1
        groups := ((t.present contacts now).filter fun e => e.2.id.toInt32 == v).map fun e =>
          e.2.told !(t.matched contacts now).table.isMatched e.1 } := by
  have ht := touching_present contacts now hp
  unfold row
  dsimp only
  congr 1
  · rw [filter_handles (shaped_matched contacts now hp.shaped),
      entries_matched contacts now hp.shaped, List.map_map]
    rfl
  · rw [groups_frame contacts now hp, List.filter_map]
    congr 1
    apply List.filter_congr
    intro e he
    exact Finger.names_told (ht e he) _ v

/-- An id that no finger of the frame has is in no mark and in no group. -/
theorem row_absent (hp : t.pool.Settled n b)
    (hv : ∀ e ∈ t.present contacts now, e.2.id.toInt32 ≠ v) : (t.row v contacts now).Absent := by
  have hnil : ((t.present contacts now).filter fun e => e.2.id.toInt32 == v) = [] :=
    List.filter_eq_nil_iff.mpr fun e he => by simpa using hv e he
  rw [row_eq contacts now hp, hnil]
  exact ⟨rfl, rfl⟩

/-! ## The ids of the fingers in a frame -/

/-- The ids increase along the list and are below the next one to be given out. -/
structure Numbered (es : List (Handle × Finger)) (next : Nat) : Prop where
  increasing : es.Pairwise fun d e => d.2.id.toNat < e.2.id.toNat
  below : ∀ e ∈ es, e.2.id.toNat < next

/-- Of numbered fingers at most one has a given id. -/
theorem Numbered.filter_eq {es : List (Handle × Finger)} {next : Nat} (hn : Numbered es next)
    (he : e ∈ es) (hv : e.2.id.toInt32 = v) : (es.filter fun d => d.2.id.toInt32 == v) = [e] := by
  -- the ids before it are smaller and those after it larger
  obtain ⟨before, after, rfl⟩ := List.append_of_mem he
  obtain ⟨-, hafter, hbefore⟩ := List.pairwise_append.mp hn.increasing
  have hne : ∀ d : Handle × Finger, d.2.id.toNat ≠ e.2.id.toNat →
      ¬ (d.2.id.toInt32 == v) = true := by
    intro d hd heq
    have hid : d.2.id.toInt32 = e.2.id.toInt32 := (eq_of_beq heq).trans hv.symm
    exact hd (congrArg (fun i => i.toUInt32.toNat) hid)
  have hl : (before.filter fun d => d.2.id.toInt32 == v) = [] :=
    List.filter_eq_nil_iff.mpr fun d hd =>
      hne d (Nat.ne_of_lt (hbefore d hd e (List.mem_cons_self ..)))
  have hr : (after.filter fun d => d.2.id.toInt32 == v) = [] :=
    List.filter_eq_nil_iff.mpr fun d hd =>
      hne d (Nat.ne_of_gt ((List.pairwise_cons.mp hafter).1 d hd))
  rw [List.filter_append, hl, List.filter_cons_of_pos (by simpa using hv), hr]
  rfl

/-- The ids of the fingers that start, as numbers, while there is room for them. -/
theorem toNat_arrivals (hroom : t.nextId.toNat + (t.arrivals contacts now).length < UInt32.size) :
    (t.arrivals contacts now).map (·.finger.id.toNat) =
      (List.range (t.arrivals contacts now).length).map (t.nextId.toNat + ·) := by
  have hids : (t.arrivals contacts now).map (·.finger.id) =
      (List.range (t.arrivals contacts now).length).map fun i => t.nextId + UInt32.ofNat i :=
    arrivals_ids ..
  have hnat := congrArg (List.map UInt32.toNat) hids
  rw [List.map_map, List.map_map] at hnat
  refine hnat.trans (List.map_congr_left ?_)
  intro i hi
  have hlt : i < (t.arrivals contacts now).length := List.mem_range.mp hi
  show (t.nextId + UInt32.ofNat i).toNat = t.nextId.toNat + i
  rw [UInt32.toNat_add, UInt32.toNat_ofNat']
  unfold UInt32.size at hroom
  omega

/-- As long as the ids do not go round, those of the arrivals lie between the next one before the
frame and the next one after it. -/
theorem toNat_arrival (hroom : t.nextId.toNat + (t.arrivals contacts now).length < UInt32.size)
    {a : Arrived} (ha : a ∈ t.arrivals contacts now) :
    t.nextId.toNat ≤ a.finger.id.toNat ∧
      a.finger.id.toNat < t.nextId.toNat + (t.arrivals contacts now).length := by
  have hmem := List.mem_map_of_mem (f := fun a => a.finger.id.toNat) ha
  rw [toNat_arrivals contacts now hroom] at hmem
  obtain ⟨i, hi, heq⟩ := List.mem_map.mp hmem
  have hlt := List.mem_range.mp hi
  omega

/-- So they carry the numbering on: in a frame the ids still increase along the fingers. -/
theorem numbered_present (ht : Numbered t.pool.entries t.nextId.toNat)
    (hroom : t.nextId.toNat + (t.arrivals contacts now).length < UInt32.size) :
    Numbered (t.present contacts now) (t.nextId.toNat + (t.arrivals contacts now).length) := by
  -- old ids keep their order, new ones count up, and the old ones are below the new ones
  refine ⟨List.pairwise_append.mpr ⟨?_, ?_, ?_⟩, ?_⟩
  · refine List.pairwise_map.mpr (ht.increasing.imp ?_)
    intro d e hde
    simpa [followEntry] using hde
  · rw [List.pairwise_map]
    have h : ((t.arrivals contacts now).map (·.finger.id.toNat)).Pairwise (· < ·) := by
      rw [toNat_arrivals contacts now hroom]
      exact List.pairwise_map.mpr (List.pairwise_lt_range.imp fun h => Nat.add_lt_add_left h _)
    exact List.pairwise_map.mp h
  · intro d hd e he
    obtain ⟨d', hd', rfl⟩ := List.mem_map.mp hd
    obtain ⟨a, ha, rfl⟩ := List.mem_map.mp he
    have hold := ht.below d' hd'
    have hnew := (toNat_arrival contacts now hroom ha).1
    simpa [followEntry, Arrived.entry] using Nat.lt_of_lt_of_le hold hnew
  · intro e he
    rcases List.mem_append.mp he with he | he
    · obtain ⟨d, hd, rfl⟩ := List.mem_map.mp he
      have hold := ht.below d hd
      simpa [followEntry] using Nat.lt_add_right _ hold
    · obtain ⟨a, ha, rfl⟩ := List.mem_map.mp he
      exact (toNat_arrival contacts now hroom ha).2

/-- A tracker made with the settings `s` that has room for the ids of `left` more fingers. -/
structure Counted (s : Settings) (left : Nat) (t : Tracker) : Prop where
  sound : Sound s t
  numbered : Numbered t.pool.entries t.nextId.toNat
  room : t.nextId.toNat + left < UInt32.size

/-- A new tracker has room for any number of fingers that is less than that of the ids. -/
theorem counted_new (h : Tracker.new s = .ok t₀) (hleft : left < UInt32.size) :
    Counted s left t₀ := by
  refine ⟨sound_new h, ?_, ?_⟩
  · rw [entries_new h]
    exact ⟨List.Pairwise.nil, nofun⟩
  · rw [nextId_new h]
    simpa using hleft

/-- Where there is room for the arrivals, the next id counts them. -/
theorem toNat_nextId_frame (hc : Counted s ((t.arrivals contacts now).length + left) t) :
    (t.frame contacts now).tracker.nextId.toNat =
      t.nextId.toNat + (t.arrivals contacts now).length := by
  have hroom := hc.room
  rw [nextId_frame contacts now hc.sound.settled.shaped, UInt32.toNat_add, UInt32.toNat_ofNat']
  unfold UInt32.size at hroom
  omega

/-- A frame uses up room for as many ids as fingers start in it. -/
theorem counted_frame (hc : Counted s ((t.arrivals contacts now).length + left) t) :
    Counted s left (t.frame contacts now).tracker := by
  have hroom := hc.room
  have hnext := toNat_nextId_frame contacts now hc
  have hpres := numbered_present contacts now hc.numbered (by omega)
  refine ⟨sound_frame hc.sound contacts now, ⟨?_, ?_⟩, by omega⟩
  · obtain ⟨-, -, hent, -⟩ := carry_matched contacts now hc.sound.settled
    rw [hent, List.pairwise_map]
    exact hpres.increasing.filter _
  · intro e he
    obtain ⟨d, hd, -, rfl⟩ := (mem_entries_frame contacts now hc.sound.settled).mp he
    rw [hnext]
    exact hpres.below d hd

/-! ## One frame in the life of an id -/

/-- The row of an id that a finger in the frame has. -/
theorem row_of_mem (hp : t.pool.Settled n b) {next : Nat}
    (hn : Numbered (t.present contacts now) next) (he : e ∈ t.present contacts now)
    (hv : e.2.id.toInt32 = v) :
    t.row v contacts now =
      { marks := [(t.matched contacts now).table.get? e.1]
        groups := [e.2.told !(t.matched contacts now).table.isMatched e.1] } := by
  rw [row_eq contacts now hp, hn.filter_eq he hv]
  rfl

/-- Whoever had the id in the frame has it after the frame if it is in the table. -/
theorem holds_frame (hp : t.pool.Settled n b) {next : Nat}
    (hn : Numbered (t.present contacts now) next) (he : e ∈ t.present contacts now)
    (hv : e.2.id.toInt32 = v) :
    (t.frame contacts now).tracker.Holds v ↔
      (t.matched contacts now).table.isMatched e.1 = true := by
  rw [holds_iff (settled_frame contacts now hp).shaped]
  constructor
  · intro ⟨d, hd, hdv⟩
    obtain ⟨d', hd', hm, rfl⟩ := (mem_entries_frame contacts now hp).mp hd
    -- it is the same finger, since no other has this id
    have hmem : d' ∈ (t.present contacts now).filter fun d => d.2.id.toInt32 == v :=
      List.mem_filter.mpr ⟨hd', beq_iff_eq.mpr hdv⟩
    rw [hn.filter_eq he hv, List.mem_singleton] at hmem
    rw [← hmem]
    exact hm
  · intro hm
    exact ⟨goOn e, (mem_entries_frame contacts now hp).mpr ⟨e, he, hm, rfl⟩, hv⟩

/-- A frame brings no id but those of its fingers. -/
theorem not_holds_frame (hp : t.pool.Settled n b)
    (hv : ∀ e ∈ t.present contacts now, e.2.id.toInt32 ≠ v) :
    ¬ (t.frame contacts now).tracker.Holds v := by
  rw [holds_iff (settled_frame contacts now hp).shaped]
  intro ⟨d, hd, hdv⟩
  obtain ⟨e, he, -, rfl⟩ := (mem_entries_frame contacts now hp).mp hd
  exact hv e he hdv

/-- The id has not been given out. -/
def Unborn (t : Tracker) (v : Int32) : Prop :=
  t.nextId.toNat ≤ v.toUInt32.toNat

/-- The id has been given out, to a finger that has left. -/
def Gone (t : Tracker) (v : Int32) : Prop :=
  v.toUInt32.toNat < t.nextId.toNat ∧ ¬ t.Holds v

theorem not_holds_of_unborn (hc : Counted s left t) (hu : t.Unborn v) : ¬ t.Holds v := by
  rw [holds_iff hc.sound.settled.shaped]
  intro ⟨e, he, hv⟩
  have hlt := hc.numbered.below e he
  have hid : e.2.id = v.toUInt32 := congrArg Int32.toUInt32 hv
  rw [hid] at hlt
  exact Nat.not_le_of_lt hlt hu

/-- A finger that starts is pressed. -/
theorem told_arrival (hp : t.pool.Settled n b) {a : Arrived} (ha : a ∈ t.arrivals contacts now) :
    ∃ u, a.finger.told false = press a.finger.id.toInt32 u := by
  have he : a.entry ∈ t.present contacts now := List.mem_append_right _ (List.mem_map_of_mem ha)
  exact Finger.told_start (touching_present contacts now hp a.entry he)
    (phase_arrival contacts now ha)

/-- A finger that was down before is moved or released. -/
theorem told_follow (hp : t.pool.Settled n b) (he : e ∈ t.pool.entries) (leaves : Bool) :
    ∃ u, (followEntry (t.claims contacts) contacts now e).2.told leaves =
      if leaves then release e.2.id.toInt32 u else move e.2.id.toInt32 u := by
  have htouch := (hp.active_down e he).touching
  have hid := id_follow contacts now ((t.claims contacts).claim? e.1) e.2
  have hdown := phase_followEntry contacts now hp he
  have hfollow := touching_follow htouch contacts now ((t.claims contacts).claim? e.1)
  rw [← hid]
  cases leaves with
  | true => exact Finger.told_unseen hfollow hdown
  | false => exact Finger.told_seen hfollow hdown

/-- As long as an id has not been reached there is nothing about it. -/
theorem unborn_step (hc : Counted s ((t.arrivals contacts now).length + left) t)
    (hlate : t.nextId.toNat + (t.arrivals contacts now).length ≤ v.toUInt32.toNat) :
    (t.row v contacts now).Absent ∧ (t.frame contacts now).tracker.Unborn v := by
  have hp := hc.sound.settled
  have hroom := hc.room
  have hn := numbered_present contacts now hc.numbered (by omega)
  refine ⟨row_absent contacts now hp ?_, (toNat_nextId_frame contacts now hc).trans_le hlate⟩
  intro e he hv
  have hlt := hn.below e he
  have hid : e.2.id = v.toUInt32 := congrArg Int32.toUInt32 hv
  rw [hid] at hlt
  omega

/-- The frame that reaches an id presses it, and the finger stays. -/
theorem born_step (hc : Counted s ((t.arrivals contacts now).length + left) t) (hu : t.Unborn v)
    (hborn : v.toUInt32.toNat < t.nextId.toNat + (t.arrivals contacts now).length) :
    (t.row v contacts now).Presses v ∧ (t.frame contacts now).tracker.Holds v := by
  have hp := hc.sound.settled
  have hroom := hc.room
  have hn := numbered_present contacts now hc.numbered (by omega)
  -- the ids of the arrivals leave no gap, so one of them is the id that is read
  obtain ⟨i, hi⟩ : ∃ i, v.toUInt32.toNat = t.nextId.toNat + i := Nat.exists_eq_add_of_le hu
  have hmem : v.toUInt32.toNat ∈ (t.arrivals contacts now).map (·.finger.id.toNat) := by
    rw [toNat_arrivals contacts now (by omega)]
    exact List.mem_map.mpr ⟨i, List.mem_range.mpr (by omega), hi.symm⟩
  obtain ⟨a, ha, hid⟩ := List.mem_map.mp hmem
  have hv : a.finger.id.toInt32 = v := congrArg UInt32.toInt32 (UInt32.toNat_inj.mp hid)
  have he : a.entry ∈ t.present contacts now := List.mem_append_right _ (List.mem_map_of_mem ha)
  have hmark := get?_matched_arrival contacts now hp.shaped ha
  have hmatched := isMatched_arrival contacts now hp.shaped ha
  refine ⟨?_, (holds_frame contacts now hp hn he hv).mpr hmatched⟩
  obtain ⟨u, hu⟩ := told_arrival contacts now hp ha
  have htold :
      a.finger.told (!(t.matched contacts now).table.isMatched a.handle) = press v u := by
    rw [hmatched, ← hv]
    exact hu
  rw [row_of_mem contacts now hp hn he hv]
  exact ⟨congrArg (fun m => [m]) hmark, u, congrArg (fun g => [g]) htold⟩

/-- A finger that is held moves and is held, or is released and gone. There is no third case. -/
theorem holds_step (hc : Counted s ((t.arrivals contacts now).length + left) t)
    (hh : t.Holds v) :
    (t.row v contacts now).Moves v ∧ (t.frame contacts now).tracker.Holds v ∨
      (t.row v contacts now).Releases v ∧ (t.frame contacts now).tracker.Gone v := by
  have hp := hc.sound.settled
  have hroom := hc.room
  have hn := numbered_present contacts now hc.numbered (by omega)
  obtain ⟨e, he, hv⟩ := (holds_iff hp.shaped).mp hh
  have hmem := follow_mem_present contacts now he
  have hfst := fst_followEntry (t.claims contacts) contacts now e
  have hfv : (followEntry (t.claims contacts) contacts now e).2.id.toInt32 = v := by
    simpa [followEntry] using hv
  have hin : e.1 ∈ t.pool.handles := Pool.mem_handles_iff.mpr ⟨e.2, he⟩
  have hmark := get?_matched_old contacts now hp.shaped hin
  have hmatched := isMatched_old contacts now hp.shaped hin
  have hheld := holds_frame contacts now hp hn hmem hfv
  rw [row_of_mem contacts now hp hn hmem hfv, hfst, hmark, hmatched]
  rw [hfst, hmatched] at hheld
  obtain ⟨u, hu⟩ := told_follow contacts now hp he !(t.claims contacts).isMatched e.1
  rw [hv] at hu
  -- it is in the table exactly if it has claimed a contact
  cases hm : (t.claims contacts).isMatched e.1 with
  | true =>
    left
    obtain ⟨j, hj⟩ := (t.sole_claims contacts).isMatched_iff.mp hm
    obtain ⟨d, hd⟩ := claim?_eq_some_iff.mp hj
    rw [hm] at hu
    exact ⟨⟨⟨j, d, congrArg (fun m => [m]) hd⟩, u, congrArg (fun g => [g]) hu⟩, hheld.mpr hm⟩
  | false =>
    right
    rw [hm] at hu
    refine ⟨⟨?_, u, congrArg (fun g => [g]) hu⟩, ?_, by simp [hheld, hm]⟩
    · have hnone : (t.claims contacts).get? e.1 = none := by simpa [isMatched] using hm
      exact congrArg (fun m => [m]) hnone
    · have hlt := hc.numbered.below e he
      have hid : e.2.id = v.toUInt32 := congrArg Int32.toUInt32 hv
      rw [hid] at hlt
      rw [toNat_nextId_frame contacts now hc]
      omega

/-- An id that is gone never comes back, since the next one is beyond it. -/
theorem gone_step (hc : Counted s ((t.arrivals contacts now).length + left) t)
    (hg : t.Gone v) :
    (t.row v contacts now).Absent ∧ (t.frame contacts now).tracker.Gone v := by
  obtain ⟨hlt, hnot⟩ := hg
  have hp := hc.sound.settled
  have hroom := hc.room
  have hne : ∀ e ∈ t.present contacts now, e.2.id.toInt32 ≠ v := by
    intro e he hv
    rcases List.mem_append.mp he with he | he
    · obtain ⟨d, hd, rfl⟩ := List.mem_map.mp he
      exact hnot ((holds_iff hp.shaped).mpr ⟨d, hd, by simpa [followEntry] using hv⟩)
    · -- the ids of the arrivals are above those given out before
      obtain ⟨a, ha, rfl⟩ := List.mem_map.mp he
      have hge := (toNat_arrival contacts now (by omega) ha).1
      have hid : a.finger.id = v.toUInt32 := congrArg Int32.toUInt32 hv
      rw [hid] at hge
      omega
  refine ⟨row_absent contacts now hp hne, ?_, not_holds_frame contacts now hp hne⟩
  rw [toNat_nextId_frame contacts now hc]
  omega

/-! ## Its life in a run -/

theorem startedIn_cons (hp : t.pool.Shaped) (f : List Contact × Timestamp) (frames : Frames) :
    t.startedIn (f :: frames) =
      (t.arrivals f.1 f.2).length + (t.frame f.1 f.2).tracker.startedIn frames := by
  rw [startedIn, count_spawn f.1 f.2 hp]

theorem counted_cons {f : List Contact × Timestamp} {frames : Frames}
    (hc : Counted s (t.startedIn (f :: frames)) t) :
    Counted s ((t.arrivals f.1 f.2).length + (t.frame f.1 f.2).tracker.startedIn frames) t :=
  startedIn_cons hc.sound.settled.shaped f frames ▸ hc

/-- After the release nothing follows, however long the run. -/
theorem ended_rows (frames : Frames) :
    ∀ {t : Tracker}, Counted s (t.startedIn frames) t → t.Gone v →
      Ended ((t.through frames).Holds v) (t.rows v frames) := by
  induction frames with
  | nil => exact fun _ hg => ⟨hg.2, nofun⟩
  | cons f frames ih =>
    intro t hc hg
    have hc' := counted_cons hc
    obtain ⟨habsent, hgone⟩ := gone_step f.1 f.2 hc' hg
    obtain ⟨hnot, hrest⟩ := ih (counted_frame f.1 f.2 hc') hgone
    exact ⟨hnot, List.forall_mem_cons.mpr ⟨habsent, hrest⟩⟩

/-- Moves follow the press without a gap, up to the release or the end of the run. -/
theorem ongoing_rows (frames : Frames) :
    ∀ {t : Tracker}, Counted s (t.startedIn frames) t → t.Holds v →
      Ongoing v ((t.through frames).Holds v) (t.rows v frames) := by
  induction frames with
  | nil => exact fun _ hh => ⟨[], [], rfl, nofun, Or.inl ⟨rfl, hh⟩⟩
  | cons f frames ih =>
    intro t hc hh
    have hc' := counted_cons hc
    rcases holds_step f.1 f.2 hc' hh with ⟨hmoves, hheld⟩ | ⟨hreleases, hgone⟩
    · obtain ⟨moves, rest, hrows, hall, hrest⟩ := ih (counted_frame f.1 f.2 hc') hheld
      refine ⟨t.row v f.1 f.2 :: moves, rest, ?_, List.forall_mem_cons.mpr ⟨hmoves, hall⟩, hrest⟩
      exact congrArg (t.row v f.1 f.2 :: ·) hrows
    · have hended := ended_rows frames (counted_frame f.1 f.2 hc') hgone
      exact ⟨[], _, rfl, nofun, Or.inr ⟨_, _, rfl, hreleases, hended⟩⟩

/-- An id that is above all those given out is never told about. -/
theorem unborn_rows (frames : Frames) :
    ∀ {t : Tracker}, Counted s (t.startedIn frames) t →
      t.nextId.toNat + t.startedIn frames ≤ v.toUInt32.toNat →
      Ended ((t.through frames).Holds v) (t.rows v frames) := by
  induction frames with
  | nil => exact fun hc hlate => ⟨not_holds_of_unborn hc hlate, nofun⟩
  | cons f frames ih =>
    intro t hc hlate
    have hc' := counted_cons hc
    rw [startedIn_cons hc.sound.settled.shaped] at hlate
    have hnext := toNat_nextId_frame f.1 f.2 hc'
    have hlater : t.nextId.toNat + (t.arrivals f.1 f.2).length ≤ v.toUInt32.toNat := by omega
    obtain ⟨habsent, -⟩ := unborn_step f.1 f.2 hc' hlater
    obtain ⟨hnot, hrest⟩ := ih (counted_frame f.1 f.2 hc') (by omega)
    exact ⟨hnot, List.forall_mem_cons.mpr ⟨habsent, hrest⟩⟩

/-- An id that is still to be given out has its life ahead. -/
theorem born_rows (frames : Frames) :
    ∀ {t : Tracker}, Counted s (t.startedIn frames) t → t.Unborn v →
      v.toUInt32.toNat < t.nextId.toNat + t.startedIn frames →
      Lifeline v ((t.through frames).Holds v) (t.rows v frames) := by
  induction frames with
  | nil => exact fun _ hu hborn => absurd hborn (Nat.not_lt_of_le hu)
  | cons f frames ih =>
    intro t hc hu hborn
    have hc' := counted_cons hc
    rw [startedIn_cons hc.sound.settled.shaped] at hborn
    have hnext := toNat_nextId_frame f.1 f.2 hc'
    -- the id is one of those given out in this frame, or this frame stays below it
    by_cases hnow : v.toUInt32.toNat < t.nextId.toNat + (t.arrivals f.1 f.2).length
    · obtain ⟨hpresses, hheld⟩ := born_step f.1 f.2 hc' hu hnow
      have hongoing := ongoing_rows frames (counted_frame f.1 f.2 hc') hheld
      exact ⟨[], _, _, rfl, nofun, hpresses, hongoing⟩
    · obtain ⟨habsent, hu'⟩ := unborn_step f.1 f.2 hc' (Nat.le_of_not_lt hnow)
      obtain ⟨before, p, later, hrows, hbefore, hlater⟩ :=
        ih (counted_frame f.1 f.2 hc') hu' (by omega)
      refine ⟨t.row v f.1 f.2 :: before, p, later, ?_,
        List.forall_mem_cons.mpr ⟨habsent, hbefore⟩, hlater⟩
      exact congrArg (t.row v f.1 f.2 :: ·) hrows

/-! ## What no batch holds -/

/-- The groups of a batch are of the three kinds. -/
def OfKinds (b : Batch) : Prop :=
  ∀ g ∈ groups b, ∃ v s, g = press v s ∨ g = move v s ∨ g = release v s

/-- Every group is a press, a move or a release. -/
theorem ofKinds_frame (hp : t.pool.Settled n b) : OfKinds (t.frame contacts now).events := by
  intro g hg
  rw [groups_frame contacts now hp] at hg
  obtain ⟨e, he, rfl⟩ := List.mem_map.mp hg
  rcases List.mem_append.mp he with hold | hnew
  · obtain ⟨d, hd, rfl⟩ := List.mem_map.mp hold
    generalize (t.matched contacts now).table.isMatched _ = seen
    obtain ⟨u, hu⟩ := told_follow contacts now hp hd !seen
    refine ⟨d.2.id.toInt32, u, Or.inr ?_⟩
    rw [hu]
    cases seen with
    | true => exact Or.inl rfl
    | false => exact Or.inr rfl
  · obtain ⟨a, ha, rfl⟩ := List.mem_map.mp hnew
    obtain ⟨u, hu⟩ := told_arrival contacts now hp ha
    have hm := isMatched_arrival contacts now hp.shaped ha
    refine ⟨a.finger.id.toInt32, u, Or.inl ?_⟩
    rw [← hu, show a.entry.1 = a.handle from rfl, hm]
    rfl

theorem ofKinds_batches (frames : Frames) :
    ∀ {t : Tracker}, Sound s t → ∀ b ∈ t.batches frames, OfKinds b := by
  induction frames with
  | nil => exact fun _ => nofun
  | cons f frames ih =>
    intro t ht
    exact List.forall_mem_cons.mpr
      ⟨ofKinds_frame f.1 f.2 ht.settled, ih (sound_frame ht f.1 f.2)⟩

/-- In no frame is an id told about twice. -/
theorem length_groups_le {held : Prop} {rows : List Row} (hl : Lifeline v held rows) :
    ∀ r ∈ rows, r.groups.length ≤ 1 := by
  have habsent : ∀ r : Row, r.Absent → r.groups.length ≤ 1 := fun r hr => by simp [hr.2]
  obtain ⟨before, p, later, rfl, hbefore, ⟨-, u, hp⟩, hlater⟩ := hl
  obtain ⟨moves, rest, rfl, hmoves, hrest⟩ := hlater
  intro r hr
  rcases List.mem_append.mp hr with hr | hr
  · exact habsent r (hbefore r hr)
  rcases List.mem_cons.mp hr with rfl | hr
  · simp [hp]
  rcases List.mem_append.mp hr with hr | hr
  · obtain ⟨-, u, hu⟩ := hmoves r hr
    simp [hu]
  rcases hrest with ⟨rfl, -⟩ | ⟨q, gone, rfl, ⟨-, u, hq⟩, -, hgone⟩
  · exact nomatch hr
  · rcases List.mem_cons.mp hr with rfl | hr
    · simp [hq]
    · exact habsent r (hgone r hr)

/-- A batch does not press and release the same id, since it has one group for it at most. -/
theorem not_press_and_release {r : Row} (hle : r.groups.length ≤ 1) (u u' : Sample) :
    ¬ (press v u ∈ r.groups ∧ release v u' ∈ r.groups) := by
  intro ⟨hpress, hrelease⟩
  match hg : r.groups, hle with
  | [], _ =>
    rw [hg] at hpress
    exact nomatch hpress
  | [g], _ =>
    rw [hg, List.mem_singleton] at hpress hrelease
    exact press_ne_release v u u' (hpress.trans hrelease.symm)

/-- What a run tells about the id `v`: its life if it is one of those given out, else nothing. -/
structure Told (t : Tracker) (frames : Frames) (v : Int32) : Prop where
  lifeline : v.toUInt32.toNat < t.startedIn frames →
    Lifeline v ((t.through frames).Holds v) (t.rows v frames)
  silent : t.startedIn frames ≤ v.toUInt32.toNat →
    Ended ((t.through frames).Holds v) (t.rows v frames)
  not_both : ∀ r ∈ t.rows v frames, ∀ u u', ¬ (press v u ∈ r.groups ∧ release v u' ∈ r.groups)

/-- **The life of a finger.** In a run of a new tracker that starts fewer than 2³² fingers, every
batch is made of presses, moves and releases; the rows of an id that was given out are a
`Lifeline`, and those of any other id are empty; and no frame both presses and releases a
finger. -/
theorem lifeline_rows (h : Tracker.new s = .ok t₀) (frames : Frames)
    (hfew : t₀.startedIn frames < UInt32.size) :
    (∀ b ∈ t₀.batches frames, OfKinds b) ∧ ∀ v, t₀.Told frames v := by
  refine ⟨ofKinds_batches frames (sound_new h), fun v => ?_⟩
  have hc := counted_new h hfew
  have hzero : t₀.nextId.toNat = 0 := by
    rw [nextId_new h]
    rfl
  have hlife : v.toUInt32.toNat < t₀.startedIn frames →
      Lifeline v ((t₀.through frames).Holds v) (t₀.rows v frames) := fun hborn =>
    born_rows frames hc (hzero.trans_le (Nat.zero_le _)) (by omega)
  have hsilent : t₀.startedIn frames ≤ v.toUInt32.toNat →
      Ended ((t₀.through frames).Holds v) (t₀.rows v frames) := fun hlate =>
    unborn_rows frames hc (by omega)
  refine ⟨hlife, hsilent, ?_⟩
  intro r hr u u'
  rcases Nat.lt_or_ge v.toUInt32.toNat (t₀.startedIn frames) with hborn | hlate
  · exact not_press_and_release (length_groups_le (hlife hborn) r hr) u u'
  · obtain ⟨-, habsent⟩ := hsilent hlate
    exact not_press_and_release (by simp [(habsent r hr).2]) u u'

/-- A finger that is pressed, moved and released, next to one that stays. -/
theorem lifeline_rows_of_two :
    ∃ t₀, Tracker.new { maxFingers := 2 } = .ok t₀ ∧
      let frames : Frames := [([⟨100, 100, 50⟩], Timestamp.epoch),
        ([⟨105, 100, 50⟩, ⟨7, 7, 50⟩], Timestamp.epoch), ([⟨8, 7, 50⟩], Timestamp.epoch)]
      t₀.startedIn frames < UInt32.size ∧
        (∀ b ∈ t₀.batches frames, OfKinds b) ∧ ∀ v, t₀.Told frames v := by
  obtain ⟨t₀, h⟩ : ∃ t₀, Tracker.new { maxFingers := 2 } = .ok t₀ := ⟨_, rfl⟩
  obtain ⟨-, ht₀⟩ := new_eq_ok h
  have hfew : t₀.startedIn [([⟨100, 100, 50⟩], Timestamp.epoch),
      ([⟨105, 100, 50⟩, ⟨7, 7, 50⟩], Timestamp.epoch), ([⟨8, 7, 50⟩], Timestamp.epoch)] <
      UInt32.size := by
    rw [ht₀]
    decide +kernel
  exact ⟨t₀, h, hfew, lifeline_rows h _ hfew⟩

example :
    ((Tracker.mk (Pool.ofTrail 4 (Trail.empty 6 false)) 10 0).rows 0
        [([⟨100, 100, 50⟩], Timestamp.epoch), ([⟨105, 100, 50⟩, ⟨7, 7, 50⟩], Timestamp.epoch),
          ([⟨8, 7, 50⟩], Timestamp.epoch)]).map (·.groups) =
      [[press 0 ⟨100, 100, Timestamp.epoch⟩], [move 0 ⟨105, 100, Timestamp.epoch⟩],
        [release 0 ⟨105, 100, Timestamp.epoch⟩]] := by
  decide +kernel

end Tracker

end FingerTracking
