import FingerTracking.Proofs.Capacity
import FingerTracking.Proofs.Polling

/-!
# A panel with one contact moves a pointer

Behind a single-touch panel the tracker, made for many fingers, is a machine with two states: there
is a finger or there is none. A `Pointer` is this machine. It knows the id and the place of its
finger, and from a frame, a contact or nothing, it makes a press, a move, a release or no events
at all.

> `agrees_frame`: in every frame the tracker does what the pointer does.
>
> `points_calls`: the batches of any calls of a new feed are those of the pointer, run over the
> frames that the panel makes of the records that are read.

Nothing stands in the pointer's way: the contacts weigh the same all the time, so a finger follows
every one of them, and a slot is always left for a finger that starts.
-/

namespace FingerTracking

open MatchTable Matching Event

/-! ## The machine -/

/-- One finger or none, and the id of the next one. -/
structure Pointer where
  /-- The id and the last place of the finger. -/
  finger : Option (UInt32 × Sample)
  nextId : UInt32

namespace Pointer

/-- No finger yet. -/
def new : Pointer := ⟨none, 0⟩

/-- One unit from `v` toward `goal`; nothing if it is reached. -/
def nudge (v goal : Int32) : Int32 :=
  if v < goal then v + 1 else if goal < v then v - 1 else v

/-- The next place of a finger at `p` with the contact at `c`. -/
def next (s : Settings) (p : Sample) (c : Contact) (now : Timestamp) : Sample :=
  if s.filtered then ⟨nudge p.x c.x, nudge p.y c.y, now⟩ else ⟨c.x, c.y, now⟩

/-- The pointer after a frame, and the events of the frame. -/
def step (s : Settings) (m : Pointer) (contact : Option Contact) (now : Timestamp) :
    Pointer × Batch :=
  match contact, m.finger with
  | some c, some (id, p) =>
    let q := next s p c now
    ({ m with finger := some (id, q) }, move id.toInt32 q ++ [sync now])
  | some c, none =>
    if (c.x = 0 ∧ c.y = 0) ∨ ¬ s.threshold ≤ 1 then (m, [])
    else
      let q : Sample := ⟨c.x, c.y, now⟩
      (⟨some (m.nextId, q), m.nextId + 1⟩, press m.nextId.toInt32 q ++ [sync now])
  | none, some (id, p) => ({ m with finger := none }, release id.toInt32 p ++ [sync now])
  | none, none => (m, [])

/-- The pointer after a run of frames. -/
def through (s : Settings) (m : Pointer) (frames : Frames) : Pointer :=
  frames.foldl (fun m f => (m.step s f.1.head? f.2).1) m

/-- The batches of a run of frames. -/
def batches (s : Settings) (m : Pointer) : Frames → List Batch
  | [] => []
  | f :: frames => (m.step s f.1.head? f.2).2 :: (m.step s f.1.head? f.2).1.batches s frames

end Pointer

/-! ## Frames of a single-touch panel -/

/-- What a single-touch panel makes a frame of: nothing, or one contact that weighs as all do. -/
def Lone (contacts : List Contact) : Prop :=
  contacts = [] ∨ ∃ c, contacts = [c] ∧ c.weight = 1

theorem Lone.length_le {contacts : List Contact} (hc : Lone contacts) : contacts.length ≤ 1 := by
  rcases hc with rfl | ⟨c, rfl, -⟩ <;> simp

/-- A panel knows one contact, of the only weight that it can give. -/
theorem Panel.lone_of_feed {p : Panel} {r : Record} {contacts : List Contact}
    (h : (p.feed r).frame = some contacts) : Lone contacts := by
  unfold Panel.feed at h
  cases hs : r.signal <;> rw [hs] at h
  case touch v =>
    dsimp only at h
    split at h
    next => exact Or.inr ⟨p.contact, (Option.some_inj.mp h).symm, rfl⟩
    next => exact nomatch h
  case report =>
    dsimp only at h
    rw [← Option.some_inj.mp h]
    split
    next => exact Or.inr ⟨p.contact, rfl, rfl⟩
    next => exact Or.inl rfl
  all_goals exact nomatch h

/-- So all the frames that it makes are alone. -/
theorem Panel.lone_frames (rs : Readings) :
    ∀ {p : Panel}, ∀ f ∈ p.frames rs, Lone f.1 := by
  induction rs with
  | nil => exact fun _ hf => nomatch hf
  | cons r rs ih =>
    intro p f hf
    rcases List.mem_append.mp hf with hf | hf
    · obtain ⟨contacts, hc, rfl⟩ := Option.map_eq_some_iff.mp (Option.mem_toList.mp hf)
      exact Panel.lone_of_feed hc
    · exact ih f hf

/-! ## One unit at a time -/

namespace Step

/-- The trail and the pointer go toward a goal in the same steps. -/
theorem toward_eq_nudge (v goal : Int32) : toward v goal = Pointer.nudge v goal := by
  have hmost := goal.toInt_le
  have hleast : Int32.minValue.toInt ≤ goal.toInt := goal.le_toInt
  unfold toward Pointer.nudge up down
  -- where there is a goal farther on, `v` is not the last coordinate in that direction
  by_cases hlt : v < goal
  · rw [if_pos hlt, if_pos hlt, if_neg]
    intro heq
    rw [heq, Int32.lt_iff_toInt_lt] at hlt
    omega
  · rw [if_neg hlt, if_neg hlt]
    by_cases hgt : goal < v
    · rw [if_pos hgt, if_pos hgt, if_neg]
      intro heq
      rw [heq, Int32.lt_iff_toInt_lt] at hgt
      omega
    · rw [if_neg hgt, if_neg hgt]

end Step

namespace Tracker

variable {s : Settings} {t : Tracker} {m : Pointer} {h : Handle} {f : Finger} {p : Sample}
variable {c : Contact} {now : Timestamp}

/-! ## One finger, one contact -/

/-- A contact on its own claims a finger on its own, wherever they are. -/
theorem claim?_alone (hp : t.pool.Shaped) (he : t.pool.entries = [(h, f)])
    (hl : f.trail.last? = some p) (c : Contact) : (t.claims [c]).claim? h = some 0 := by
  have hg : t.pool.get? h = some f :=
    (Pool.get?_eq_some_iff hp).mpr (he ▸ List.mem_cons_self ..)
  have hd : distanceTo? t.pool c h = some (squaredDistance c p) := by
    rw [distanceTo?, hg, Option.bind_some, hl, Option.map_some]
  have hhandles : t.pool.handles = [h] := by
    rw [Pool.handles_eq, he]
    rfl
  have hnear : nearest? t.pool (MatchTable.empty t.pool.capacity) c =
      some (h, squaredDistance c p) :=
    nearest?_of_first hhandles (canClaim_of_none hd (get?_empty ..)) fun _ hk => nomatch hk
  have hlt : h.index < (MatchTable.empty t.pool.capacity).entries.size := by
    rw [MatchTable.empty, Array.size_replicate]
    exact Pool.index_lt_capacity hp (Pool.mem_handles_iff.mpr ⟨f, he ▸ List.mem_cons_self ..⟩)
  rw [claim?_eq_some_iff]
  refine ⟨squaredDistance c p, ?_⟩
  show (assignFrom t.pool 0 [c] (MatchTable.empty t.pool.capacity)).get? h = _
  rw [assignFrom, assignFrom, claim, hnear]
  exact get?_set_self hlt _

theorem isMatched_alone (hp : t.pool.Shaped) (he : t.pool.entries = [(h, f)])
    (hl : f.trail.last? = some p) (c : Contact) : (t.claims [c]).isMatched h = true :=
  (t.sole_claims [c]).isMatched_iff.mpr ⟨0, claim?_alone hp he hl c⟩

/-- A contact that is claimed starts no finger. -/
theorem arrivals_alone (hp : t.pool.Shaped) (he : t.pool.entries = [(h, f)])
    (hl : f.trail.last? = some p) (c : Contact) (now : Timestamp) : t.arrivals [c] now = [] := by
  unfold arrivals
  rw [frame_moved _ _ hp, he]
  simp only [List.filterMap_cons, List.filterMap_nil, claim?_alone hp he hl c]
  have hgone : takenOff [0] [c] = [c.consumed] := by simp [takenOff]
  have hq : ¬ qualifies t.threshold c.consumed = true := by
    rw [qualifies_iff]
    simp
  rw [hgone, Matching.arrivals, arrival?, if_neg hq]
  rfl

/-- The only finger has this id, this place and this weight. -/
def HasOnly (t : Tracker) (id : UInt32) (p : Sample) (weight : Int32) : Prop :=
  ∃ h f, t.pool.entries = [(h, f)] ∧ f.id = id ∧ f.weight = weight ∧ f.trail.last? = some p

/-- Place and weight of the only finger after a contact. It stays where the contact is too light. -/
def heeded (s : Settings) (p : Sample) (weight : Int32) (c : Contact) (now : Timestamp) :
    Sample × Int32 :=
  if half weight ≤ c.weight.toInt then (Pointer.next s p c now, c.weight) else (p, weight)

/-- A finger that follows a contact is where the pointer is next. -/
theorem last?_moved (hf : f.trail.Fits s.trailLength s.filtered) (hl : f.trail.last? = some p)
    (c : Contact) (now : Timestamp) :
    (Matching.moved f c now).trail.last? = some (Pointer.next s p c now) := by
  show (f.trail.push c.x c.y now).last? = _
  rw [Trail.last?_push hf.stays, hf.filtered_eq, hl]
  unfold Trail.stored Pointer.next
  cases s.filtered with
  | true => simp only [if_true, Step.toward_eq_nudge]
  | false => simp

/-- The finger follows its contact unless this is too light. -/
theorem last?_follow (hf : f.trail.Fits s.trailLength s.filtered) (hl : f.trail.last? = some p)
    (c : Contact) (now : Timestamp) :
    (follow [c] now (some 0) f).trail.last? = some (heeded s p f.weight c now).1 ∧
      (follow [c] now (some 0) f).weight = (heeded s p f.weight c now).2 := by
  rw [follow_some (c := c) rfl]
  unfold heeded follows
  split
  next hheavy =>
    rw [if_pos (of_decide_eq_true hheavy)]
    exact ⟨last?_moved hf hl c now, rfl⟩
  next hlight =>
    rw [if_neg fun hheavy => hlight (decide_eq_true hheavy)]
    exact ⟨hl, rfl⟩

/-! ## A frame -/

/-- The entries are those of a pointer with this finger. -/
def Shows (finger : Option (UInt32 × Sample)) (es : List (Handle × Finger)) : Prop :=
  match finger with
  | none => es = []
  | some (id, p) => ∃ h f, es = [(h, f)] ∧ f.id = id ∧ f.weight = 1 ∧ f.trail.last? = some p

/-- The tracker is in the state of the pointer. -/
structure Follows (s : Settings) (t : Tracker) (m : Pointer) : Prop where
  valid : s.Valid
  sound : Sound s t
  nextId_eq : t.nextId = m.nextId
  shows : Shows m.finger t.pool.entries

/-- Before the first frame there is no finger in either. -/
theorem follows_new {t₀ : Tracker} (h : Tracker.new s = .ok t₀) : Follows s t₀ Pointer.new :=
  ⟨(new_eq_ok h).1, sound_new h, nextId_new h, entries_new h⟩

/-- A frame does what a step of the pointer does. -/
structure Agrees (s : Settings) (t : Tracker) (contacts : List Contact) (now : Timestamp)
    (r : Pointer × Batch) : Prop where
  events_eq : (t.frame contacts now).events = r.2
  nextId_eq : (t.frame contacts now).tracker.nextId = r.1.nextId
  shows : Shows r.1.finger (t.frame contacts now).tracker.pool.entries

/-- A contact for the only finger. -/
theorem frame_alone {id : UInt32} {weight : Int32} (ht : Sound s t) (ho : t.HasOnly id p weight)
    (c : Contact) (now : Timestamp) :
    (t.frame [c] now).events =
        move id.toInt32 (heeded s p weight c now).1 ++ [sync now] ∧
      (t.frame [c] now).tracker.nextId = t.nextId ∧
      (t.frame [c] now).tracker.HasOnly id (heeded s p weight c now).1
        (heeded s p weight c now).2 := by
  obtain ⟨h, f, he, rfl, rfl, hl⟩ := ho
  have hp := ht.settled
  have hdown := hp.active_down (h, f) (he ▸ List.mem_cons_self ..)
  have harr := arrivals_alone hp.shaped he hl c now
  have hm := isMatched_alone hp.shaped he hl c
  have hfollow : followEntry (t.claims [c]) [c] now (h, f) = (h, follow [c] now (some 0) f) := by
    rw [followEntry, claim?_alone hp.shaped he hl c]
  obtain ⟨hlast, hweight⟩ := last?_follow hdown.fits hl c now
  refine ⟨?_, nextId_frame_of_none hp.shaped harr, h,
    { follow [c] now (some 0) f with phase := .down }, ?_, id_follow .., hweight, hlast⟩
  · have htold : (follow [c] now (some 0) f).told false =
        move f.id.toInt32 (heeded s p f.weight c now).1 := by
      rw [Finger.told_eq hlast, phase_follow, id_follow, hdown.phase_eq]
      rfl
    rw [events_frame _ _ hp, he, harr]
    simp only [List.flatMap_cons, List.flatMap_nil, List.append_nil, hfollow, hm, Bool.not_true,
      htold]
    rfl
  · rw [entries_frame _ _ hp, he, harr, List.filter_cons_of_pos (by simpa using hm)]
    simp only [List.filter_nil, List.map_cons, List.map_nil, List.append_nil, hfollow]
    rfl

/-- The contact is there, and so is the finger: it follows. -/
theorem agrees_move (ht : Sound s t) (he : t.pool.entries = [(h, f)]) (hw : f.weight = 1)
    (hl : f.trail.last? = some p) (hc : c.weight = 1) (now : Timestamp) :
    Agrees s t [c] now
      (⟨some (f.id, Pointer.next s p c now), t.nextId⟩,
        move f.id.toInt32 (Pointer.next s p c now) ++ [sync now]) := by
  have hheeded : heeded s p 1 c now = (Pointer.next s p c now, 1) := by
    rw [heeded, hc, if_pos (by decide)]
  obtain ⟨hevents, hid, hshows⟩ := frame_alone ht ⟨h, f, he, rfl, hw, hl⟩ c now
  rw [hheeded] at hevents hshows
  exact ⟨hevents, hid, hshows⟩

theorem arrivals_empty (hp : t.pool.Shaped) (now : Timestamp) : t.arrivals [] now = [] := by
  unfold arrivals
  rw [frame_moved _ _ hp]
  rfl

/-- The contact is gone: so is the finger after the frame. -/
theorem agrees_release (ht : Sound s t) (he : t.pool.entries = [(h, f)])
    (hl : f.trail.last? = some p) (now : Timestamp) :
    Agrees s t [] now (⟨none, t.nextId⟩, release f.id.toInt32 p ++ [sync now]) := by
  have hp := ht.settled
  have hdown := hp.active_down (h, f) (he ▸ List.mem_cons_self ..)
  have harr := arrivals_empty hp.shaped now
  have hnone : (t.claims []).get? h = none := get?_empty ..
  have hm : (t.claims []).isMatched h = false := by rw [isMatched, hnone]; rfl
  have hfollow : followEntry (t.claims []) [] now (h, f) = (h, f) := by
    rw [followEntry, claim?, hnone]
    rfl
  refine ⟨?_, ?_, ?_⟩
  · have htold : f.told true = release f.id.toInt32 p := by
      rw [Finger.told_eq hl, hdown.phase_eq]
      rfl
    rw [events_frame _ _ hp, he, harr]
    simp only [List.flatMap_cons, List.flatMap_nil, List.append_nil, hfollow, hm, Bool.not_false,
      htold]
    rfl
  · exact nextId_frame_of_none hp.shaped harr
  · show (t.frame [] now).tracker.pool.entries = []
    rw [entries_frame _ _ hp, he, harr, List.filter_cons_of_neg (by simpa using hm)]
    rfl

/-- Without a finger the contact is left to spawning. -/
theorem arrivals_of_none (hp : t.pool.Shaped) (he : t.pool.entries = []) (c : Contact)
    (now : Timestamp) :
    t.arrivals [c] now = (arrival? t.threshold now 0 c t.pool.spares t.nextId 0).toList := by
  unfold arrivals
  rw [frame_moved _ _ hp, he, List.filterMap_nil, takenOff_nil, arrivals_cons, Matching.arrivals,
    List.append_nil]

/-- Without a finger there is a slot for one. -/
theorem exists_spare (hv : s.Valid) (ht : Sound s t) (he : t.pool.entries = []) :
    ∃ e rest, t.pool.spares = e :: rest := by
  have hpos := hv.maxFingers_pos
  apply Pool.exists_spare ht.settled.shaped
  rw [he, ht.capacity_eq, Settings.poolCapacity, List.length_nil]
  omega

/-- A contact that starts the only finger. -/
theorem frame_first (hv : s.Valid) (ht : Sound s t) (he : t.pool.entries = [])
    (hq : qualifies s.threshold c = true) (now : Timestamp) :
    (t.frame [c] now).events = press t.nextId.toInt32 ⟨c.x, c.y, now⟩ ++ [sync now] ∧
      (t.frame [c] now).tracker.nextId = t.nextId + 1 ∧
      (t.frame [c] now).tracker.HasOnly t.nextId ⟨c.x, c.y, now⟩ c.weight := by
  have hp := ht.settled
  obtain ⟨e, rest, hspare⟩ := exists_spare hv ht he
  have hfits := (hp.spare_resting e (hspare ▸ List.mem_cons_self ..)).fits
  have harr : t.arrivals [c] now = [⟨0, e.1, started e.2.opened t.nextId c now⟩] := by
    have hnow : staggered now 0 = now := Timestamp.ext (by
      simp [staggered, Timestamp.later, Timestamp.nanos_clamp, now.le_latest])
    rw [arrivals_of_none hp.shaped he, arrival?, ht.threshold_eq, if_pos hq, hspare, hnow]
    rfl
  have hlast : (started e.2.opened t.nextId c now).trail.last? = some ⟨c.x, c.y, now⟩ := by
    rw [Trail.last?_eq_getLast?]
    show (e.2.trail.cleared.push c.x c.y now).toList.getLast? = _
    rw [Trail.toList_push_cleared hfits.stays]
    rfl
  refine ⟨?_, ?_, e.1, { started e.2.opened t.nextId c now with phase := .down }, ?_, rfl, rfl,
    hlast⟩
  · have htold : (started e.2.opened t.nextId c now).told false =
        press t.nextId.toInt32 ⟨c.x, c.y, now⟩ := by
      rw [Finger.told_eq hlast]
      rfl
    rw [events_frame _ _ hp, he, harr]
    simp only [List.flatMap_cons, List.flatMap_nil, List.append_nil, List.nil_append, htold]
    rfl
  · rw [nextId_frame _ _ hp.shaped, harr]
    rfl
  · rw [entries_frame _ _ hp, he, harr]
    rfl

/-- A contact where none was before presses, if it qualifies. -/
theorem agrees_press (hv : s.Valid) (ht : Sound s t) (he : t.pool.entries = [])
    (hq : qualifies s.threshold c = true) (hc : c.weight = 1) (now : Timestamp) :
    Agrees s t [c] now
      (⟨some (t.nextId, ⟨c.x, c.y, now⟩), t.nextId + 1⟩,
        press t.nextId.toInt32 ⟨c.x, c.y, now⟩ ++ [sync now]) := by
  obtain ⟨hevents, hid, hshows⟩ := frame_first hv ht he hq now
  rw [hc] at hshows
  exact ⟨hevents, hid, hshows⟩

/-- No finger is there and none starts. -/
theorem agrees_idle {contacts : List Contact} (ht : Sound s t) (he : t.pool.entries = [])
    (harr : t.arrivals contacts now = []) :
    Agrees s t contacts now (⟨none, t.nextId⟩, []) := by
  have hp := ht.settled
  refine ⟨?_, ?_, ?_⟩
  · rw [events_frame _ _ hp, he, harr]
    rfl
  · exact nextId_frame_of_none hp.shaped harr
  · show (t.frame contacts now).tracker.pool.entries = []
    rw [entries_frame _ _ hp, he, harr]
    rfl

/-- A contact starts a finger unless it counts as none or is too light. -/
theorem qualifies_iff_of_weight (hc : c.weight = 1) :
    qualifies s.threshold c = true ↔ ¬ ((c.x = 0 ∧ c.y = 0) ∨ ¬ s.threshold ≤ 1) := by
  rw [qualifies_iff, hc, Int32.not_lt, Contact.isAbsent, Bool.and_eq_false_iff, beq_eq_false_iff_ne,
    beq_eq_false_iff_ne, not_or, not_and_or, not_not]

/-- In every frame the tracker does what the pointer does. -/
theorem agrees_frame {contacts : List Contact} (hm : Follows s t m) (hc : Lone contacts)
    (now : Timestamp) : Agrees s t contacts now (m.step s contacts.head? now) := by
  obtain ⟨hv, ht, hid, hshows⟩ := hm
  obtain ⟨finger, nextId⟩ := m
  subst hid
  -- whether there is a finger, and whether there is a contact
  cases finger with
  | none =>
    rcases hc with rfl | ⟨c, rfl, hw⟩
    · exact agrees_idle ht hshows (arrivals_empty ht.settled.shaped now)
    · have hiff := qualifies_iff_of_weight (s := s) hw
      show Agrees s t [c] now (if _ then _ else _)
      by_cases hq : qualifies s.threshold c = true
      · rw [if_neg (hiff.mp hq)]
        exact agrees_press hv ht hshows hq hw now
      · have harr : t.arrivals [c] now = [] := by
          rw [arrivals_of_none ht.settled.shaped hshows, arrival?, ht.threshold_eq, if_neg hq]
          rfl
        rw [if_pos (Classical.not_not.mp (hiff.not.mp hq))]
        exact agrees_idle ht hshows harr
  | some finger =>
    obtain ⟨id, p⟩ := finger
    obtain ⟨h, f, he, rfl, hw, hl⟩ := hshows
    rcases hc with rfl | ⟨c, rfl, hcw⟩
    · exact agrees_release ht he hl now
    · exact agrees_move ht he hw hl hcw now

/-- A frame of one contact at most keeps tracker and pointer together. This is the step of a run. -/
theorem follows_frame {contacts : List Contact} (hm : Follows s t m) (hc : Lone contacts)
    (now : Timestamp) :
    Follows s (t.frame contacts now).tracker (m.step s contacts.head? now).1 := by
  have h := agrees_frame hm hc now
  exact ⟨hm.valid, sound_frame hm.sound contacts now, h.nextId_eq, h.shows⟩

/-- Nothing stands in the way of the one finger or of its contact. -/
structure Unrejected (t : Tracker) (contacts : List Contact) (now : Timestamp) : Prop where
  active_le : t.activeCount ≤ 1
  /-- Nor is there a second finger inside of the frame, where one that leaves still has its slot. -/
  matched_le : (t.matched contacts now).pool.active.length ≤ 1
  /-- A claimed contact is never too light for the finger. -/
  followed : ∀ j h f c, t.ClaimedBy contacts now j h → t.pool.get? h = some f →
    contacts[j]? = some c → follows f c = true
  slot : ∀ j < contacts.length, (t.turn contacts now j).pool.take?.isSome = true

/-- There is one finger at most, and it weighs as every contact does. -/
theorem entries_of_follows (hm : Follows s t m) :
    t.pool.entries = [] ∨
      ∃ h f p, t.pool.entries = [(h, f)] ∧ f.weight = 1 ∧ f.trail.last? = some p := by
  obtain ⟨-, -, -, hshows⟩ := hm
  obtain ⟨finger, nextId⟩ := m
  cases finger with
  | none => exact Or.inl hshows
  | some finger =>
    obtain ⟨h, f, he, -, hw, hl⟩ := hshows
    exact Or.inr ⟨h, f, finger.2, he, hw, hl⟩

/-- There is never a second finger. -/
theorem activeCount_of_follows (hm : Follows s t m) : t.activeCount ≤ 1 := by
  rw [activeCount, ← Pool.length_entries hm.sound.settled.shaped]
  rcases entries_of_follows hm with he | ⟨h, f, p, he, -⟩ <;> simp [he]

/-- No finger starts next to one that is there, be it about to leave. -/
theorem length_present_le {contacts : List Contact} (hm : Follows s t m) (hc : Lone contacts)
    (now : Timestamp) : (t.present contacts now).length ≤ 1 := by
  have hp := hm.sound.settled.shaped
  rw [present, List.length_append, List.length_map, List.length_map]
  rcases entries_of_follows hm with he | ⟨h, f, p, he, -, hl⟩
  · have hle : (t.arrivals contacts now).length ≤ (t.moved contacts now).frame.length :=
      length_arrivals_le ..
    rw [frame_moved _ _ hp, length_takenOff] at hle
    rw [he, List.length_nil, Nat.zero_add]
    exact Nat.le_trans hle hc.length_le
  · have harr : t.arrivals contacts now = [] := by
      rcases hc with rfl | ⟨c, rfl, -⟩
      · exact arrivals_empty hp now
      · exact arrivals_alone hp he hl c now
    rw [he, harr]
    exact Nat.le_refl 1

/-- So no contact lacks a slot, and none is too light, since all weigh the same. -/
theorem unrejected_of_follows {contacts : List Contact} (hm : Follows s t m) (hc : Lone contacts)
    (now : Timestamp) : t.Unrejected contacts now := by
  have hp := hm.sound.settled.shaped
  have hactive := activeCount_of_follows hm
  have hpos := hm.valid.maxFingers_pos
  refine ⟨hactive, ?_, ?_, ?_⟩
  · rw [← Pool.length_entries (shaped_matched contacts now hp), entries_matched contacts now hp]
    exact length_present_le hm hc now
  · intro j h f c _ hg hj
    have hmem := (Pool.get?_eq_some_iff hp).mp hg
    have hweight : f.weight = 1 := by
      rcases entries_of_follows hm with he | ⟨k, g, p, he, hw, -⟩ <;> rw [he] at hmem
      · exact nomatch hmem
      · rw [(Prod.mk.inj (List.mem_singleton.mp hmem)).2]
        exact hw
    have hcontact : c.weight = 1 := by
      rcases hc with rfl | ⟨d, rfl, hd⟩
      · exact nomatch hj
      · obtain rfl := List.mem_singleton.mp (List.mem_of_getElem? hj)
        exact hd
    rw [follows, half, hweight, hcontact]
    decide
  · intro j hj
    have hlen := hc.length_le
    exact take?_turn_isSome contacts now hm.sound (by omega) (by omega)

/-! ## Any run -/

/-- Through any run of such frames the tracker does what the pointer does. -/
theorem follows_through (frames : Frames) :
    ∀ {t : Tracker} {m : Pointer}, Follows s t m → (∀ f ∈ frames, Lone f.1) →
      t.batches frames = m.batches s frames ∧
        Follows s (t.through frames) (m.through s frames) := by
  induction frames with
  | nil => exact fun hm _ => ⟨rfl, hm⟩
  | cons f frames ih =>
    intro t m hm hlone
    have hone := hlone f (List.mem_cons_self ..)
    obtain ⟨hbatches, hrest⟩ :=
      ih (follows_frame hm hone f.2) fun g hg => hlone g (List.mem_cons_of_mem _ hg)
    exact ⟨congrArg₂ List.cons (agrees_frame hm hone f.2).events_eq hbatches, hrest⟩

end Tracker

namespace Feed

open Tracker

variable {s : Settings} {t₀ : Tracker}

/-- After calls at these times the feed has done what the pointer does, run over `frames`. -/
structure Points (s : Settings) (t₀ : Tracker) (feed : Feed Queue) (times : List Timestamp)
    (frames : Frames) : Prop where
  batches_eq : feed.batches times = (Pointer.new.batches s frames).filter (!·.isEmpty)
  shows : Shows (Pointer.new.through s frames).finger (feed.calls times).tracker.pool.entries
  nextId_eq : (feed.calls times).tracker.nextId = (Pointer.new.through s frames).nextId
  active_le : (feed.calls times).tracker.activeCount ≤ 1
  through_eq : (feed.calls times).tracker = t₀.through frames
  unrejected : ∀ before contacts now later, frames = before ++ (contacts, now) :: later →
    (t₀.through before).Unrejected contacts now

/-- **A single-touch panel moves a pointer.** What any calls of a new feed give out is what the
pointer makes of the frames of the panel, and none of the contacts is rejected. -/
theorem points_calls (h : Tracker.new s = .ok t₀) (arrivals : List Arrival) (scaling : Scaling)
    (limit : Nat) (times : List Timestamp) :
    let feed := Feed.new ⟨arrivals⟩ t₀ scaling limit
    Points s t₀ feed times ((Panel.new scaling).frames (feed.readings times)) := by
  intro feed
  have hall := advanced_calls times feed
  have hlone := Panel.lone_frames (feed.readings times) (p := Panel.new scaling)
  obtain ⟨hbatches, hm⟩ := follows_through _ (follows_new h) hlone
  have hthrough : (feed.calls times).tracker = _ := hall.tracker_eq
  refine ⟨?_, ?_, ?_, ?_, hthrough, ?_⟩
  · rw [← hbatches]
    exact hall.batches_eq
  · rw [hthrough]
    exact hm.shows
  · rw [hthrough]
    exact hm.nextId_eq
  · rw [hthrough]
    exact activeCount_of_follows hm
  · intro before contacts now later hframes
    rw [hframes] at hlone
    obtain ⟨-, hbefore⟩ :=
      follows_through before (follows_new h) fun f hf => hlone f (List.mem_append_left _ hf)
    exact unrejected_of_follows hbefore
      (hlone (contacts, now) (List.mem_append_right _ (List.mem_cons_self ..))) now

/-- A press, a move of one unit toward the contact and a release, in calls of three records. -/
theorem points_calls_filtered :
    ∃ t₀, Tracker.new { filtered := true } = .ok t₀ ∧
      let arrivals : List Arrival := [.record ⟨Record.typeAbsolute, Record.codeX, 5⟩,
        .record ⟨Record.typeKey, Record.codeTouch, 1⟩, .pause,
        .record ⟨Record.typeSync, Record.codeReport, 0⟩, .malformed,
        .record ⟨Record.typeAbsolute, Record.codeX, 9⟩,
        .record ⟨Record.typeKey, Record.codeTouch, 0⟩,
        .record ⟨Record.typeSync, Record.codeReport, 0⟩]
      let feed := Feed.new ⟨arrivals⟩ t₀ Scaling.identity 3
      let times := List.replicate 4 Timestamp.epoch
      let frames := (Panel.new Scaling.identity).frames (feed.readings times)
      frames.map (·.1) = [[⟨5, 0, 1⟩], [⟨9, 0, 1⟩], []] ∧
        Pointer.new.batches { filtered := true } frames =
          [press 0 ⟨5, 0, Timestamp.epoch⟩ ++ [sync Timestamp.epoch],
            move 0 ⟨6, 0, Timestamp.epoch⟩ ++ [sync Timestamp.epoch],
            release 0 ⟨6, 0, Timestamp.epoch⟩ ++ [sync Timestamp.epoch]] ∧
        Points { filtered := true } t₀ feed times frames := by
  obtain ⟨t₀, h⟩ : ∃ t₀, Tracker.new { filtered := true } = .ok t₀ := ⟨_, rfl⟩
  obtain ⟨-, ht₀⟩ := new_eq_ok h
  refine ⟨t₀, h, ?_, ?_, points_calls h _ _ _ _⟩
  · rw [ht₀]
    decide +kernel
  · rw [ht₀]
    decide +kernel

end Feed

end FingerTracking
