import FingerTracking.Proofs.Lifeline
import FingerTracking.Proofs.Ring
import Mathlib.Data.List.Induction

/-!
# The clock of a finger

A sample bears the time of its frame, all but the first one of a finger: fingers that start in one
frame are a millisecond apart, so the first samples are ahead of the frame. If the next frame comes
sooner than that, the time of the finger goes back (`staggered_goes_back`).

A finger is followed by its handle, from the frame in which it starts to the one in which it leaves:
`life` is the finger after each of these frames and `story` what they tell about it.

> `exists_newcomer`: a finger that is active after a run has started in one of its frames, and its
> life goes from there to the end.
>
> `keepsTime_of_spaced`: the samples of a finger and the events about it are in the order of their
> times, if the frame after its first one is not earlier than its first sample.
-/

namespace FingerTracking

open MatchTable Matching Event

/-! ## The times of one finger -/

namespace Finger

variable {n : Nat} {b : Bool} {x : Finger} {p : Sample} {now τ : Timestamp}

/-- The samples are in the order of their times, and none is later than `τ`. -/
structure Timely (x : Finger) (τ : Timestamp) : Prop where
  sorted : x.trail.toList.Pairwise (·.time ≤ ·.time)
  le : ∀ s ∈ x.trail.toList, s.time ≤ τ

theorem Timely.mono (hx : x.Timely τ) (hτ : τ ≤ now) : x.Timely now :=
  ⟨hx.sorted, fun s hs => Timestamp.le_trans (hx.le s hs) hτ⟩

theorem Timely.last?_le (hx : x.Timely τ) (hp : x.trail.last? = some p) : p.time ≤ τ := by
  rw [Trail.last?_eq_getLast?] at hp
  exact hx.le p (List.mem_of_getLast? hp)

/-- A sample that is not earlier than those before it. -/
theorem Timely.moved (hx : x.Timely τ) (hf : x.Touching n b) (hτ : τ ≤ now) (c : Contact) :
    (Matching.moved x c now).Timely now := by
  have hkept : ∀ s ∈ (if x.trail.toList.length < n then x.trail.toList else x.trail.toList.tail),
      s ∈ x.trail.toList := by
    intro s hs
    split at hs
    next => exact hs
    next => exact List.mem_of_mem_tail hs
  have hlist := Trail.toList_push hf.fits c.x c.y now
  refine ⟨?_, ?_⟩
  · show ((x.trail.push c.x c.y now).toList).Pairwise _
    rw [hlist]
    refine List.pairwise_append.mpr ⟨?_, List.pairwise_singleton .., ?_⟩
    · split
      next => exact hx.sorted
      next => exact hx.sorted.sublist (List.tail_sublist _)
    · intro s hs q hq
      rw [List.mem_singleton.mp hq]
      exact Timestamp.le_trans (hx.le s (hkept s hs)) hτ
  · show ∀ s ∈ (x.trail.push c.x c.y now).toList, _
    rw [hlist]
    intro s hs
    rcases List.mem_append.mp hs with hs | hs
    · exact Timestamp.le_trans (hx.le s (hkept s hs)) hτ
    · rw [List.mem_singleton.mp hs]
      exact Timestamp.le_refl now

/-- Moved or not, a finger does not go back. -/
theorem Timely.follow (hx : x.Timely τ) (hf : x.Touching n b) (hτ : τ ≤ now)
    (hp : x.trail.last? = some p) (contacts : List Contact) (claim : Option Nat) :
    (Matching.follow contacts now claim x).Timely now ∧
      ∃ q, (Matching.follow contacts now claim x).trail.last? = some q ∧ p.time ≤ q.time := by
  have hsame : x.Timely now ∧ ∃ q, x.trail.last? = some q ∧ p.time ≤ q.time :=
    ⟨hx.mono hτ, p, hp, Timestamp.le_refl _⟩
  unfold Matching.follow
  split
  next c _ =>
    split
    next =>
      refine ⟨hx.moved hf hτ c, _, Trail.last?_push hf.fits.stays c.x c.y now, ?_⟩
      exact Timestamp.le_trans (hx.last?_le hp) hτ
    next => exact hsame
  next => exact hsame

/-- The first sample is all there is of a finger that has just started. -/
theorem timely_started (hf : x.trail.Fits n b) (id : UInt32) (c : Contact) (time : Timestamp) :
    (started x.opened id c time).Timely time ∧
      (started x.opened id c time).trail.last? = some ⟨c.x, c.y, time⟩ := by
  have hlist : (started x.opened id c time).trail.toList = [⟨c.x, c.y, time⟩] :=
    Trail.toList_push_cleared hf.stays c.x c.y time
  refine ⟨⟨?_, ?_⟩, ?_⟩
  · rw [hlist]
    exact List.pairwise_singleton ..
  · rw [hlist]
    intro s hs
    rw [List.mem_singleton.mp hs]
    exact Timestamp.le_refl time
  · rw [Trail.last?_eq_getLast?, hlist]
    rfl

/-- What is told about a finger bears the time of its last sample. -/
theorem time_told (hp : x.trail.last? = some p) (leaves : Bool) :
    ∀ e ∈ x.told leaves, e.time = p.time := by
  rw [told_eq hp]
  cases x.phase == .start <;> cases leaves <;>
    simp [group, Event.finger, ofKind, touch, Event.x, Event.y]

end Finger

namespace Tracker

variable {s : Settings} {t t₀ : Tracker} {n : Nat} {b : Bool} {e : Handle × Finger} {h : Handle}
variable {f : List Contact × Timestamp} {x : Finger}

/-! ## Following a handle -/

/-- What a frame tells about a finger. -/
def groupOf? (t : Tracker) (f : List Contact × Timestamp) (h : Handle) : Option Batch :=
  ((t.matched f.1 f.2).pool.handles.zip (groups (t.frame f.1 f.2).events)).lookup h

/-- What the frames of a run tell about a finger until it leaves. -/
def story (t : Tracker) (h : Handle) : Frames → List Batch
  | [] => []
  | f :: frames => (t.groupOf? f h).toList ++
      match (t.frame f.1 f.2).tracker.pool.get? h with
      | some _ => (t.frame f.1 f.2).tracker.story h frames
      | none => []

/-- A finger after each frame of a run until it leaves. -/
def life (t : Tracker) (h : Handle) : Frames → List Finger
  | [] => []
  | f :: frames =>
    match (t.frame f.1 f.2).tracker.pool.get? h with
    | some x => x :: (t.frame f.1 f.2).tracker.life h frames
    | none => []

theorem groupOf?_of_mem (hp : t.pool.Settled n b) (he : e ∈ t.present f.1 f.2) :
    t.groupOf? f e.1 = some (e.2.told !(t.matched f.1 f.2).table.isMatched e.1) := by
  have hnodup := nodup_present f.1 f.2 hp.shaped
  rw [groupOf?, Pool.handles_eq, entries_matched f.1 f.2 hp.shaped, groups_frame f.1 f.2 hp,
    List.zip_map', List.lookup_eq_some_iff]
  obtain ⟨before, after, hsplit⟩ := List.append_of_mem he
  rw [hsplit, List.map_append, List.map_cons, List.nodup_middle, List.nodup_cons] at hnodup
  rw [hsplit, List.map_append, List.map_cons]
  refine ⟨_, _, rfl, ?_⟩
  intro g hg
  obtain ⟨d, hd, rfl⟩ := List.mem_map.mp hg
  have hne : e.1 ≠ d.1 := by
    intro heq
    exact hnodup.1 (List.mem_append_left _ (heq ▸ List.mem_map_of_mem hd))
  simpa using hne

/-- What is told about a finger that is in the first of the frames. -/
theorem story_of_mem (later : Frames) (hp : t.pool.Settled n b) (he : e ∈ t.present f.1 f.2) :
    t.story e.1 (f :: later) = (e.2.told !(t.matched f.1 f.2).table.isMatched e.1) ::
      if (t.matched f.1 f.2).table.isMatched e.1 = true then
        (t.frame f.1 f.2).tracker.story e.1 later
      else [] := by
  rw [story, groupOf?_of_mem hp he, get?_frame_of_mem f.1 f.2 hp he]
  by_cases hm : (t.matched f.1 f.2).table.isMatched e.1 = true
  · rw [if_pos hm, if_pos hm]
    rfl
  · rw [if_neg hm, if_neg hm]
    rfl

/-! ## In order -/

/-- The samples of a finger and the events about it, all along a run, are in the order of their
times. -/
structure KeepsTime (t : Tracker) (h : Handle) (frames : Frames) : Prop where
  history : ∀ x ∈ t.life h frames, x.trail.toList.Pairwise (·.time ≤ ·.time)
  events : (t.story h frames).flatten.Pairwise (·.time ≤ ·.time)

/-- What is told about a finger from a frame on that it is in, if it has kept its time so far and
will keep it after the frame. -/
theorem keepsTime_cons {τ : Timestamp} {p : Sample} (later : Frames) (hp : t.pool.Settled n b)
    (he : e ∈ t.present f.1 f.2) (hx : e.2.Timely τ) (hl : e.2.trail.last? = some p)
    (hrest : (t.frame f.1 f.2).tracker.pool.get? e.1 = some (goOn e).2 →
      (t.frame f.1 f.2).tracker.KeepsTime e.1 later ∧
        ∀ d ∈ ((t.frame f.1 f.2).tracker.story e.1 later).flatten, p.time ≤ d.time) :
    t.KeepsTime e.1 (f :: later) ∧ ∀ d ∈ (t.story e.1 (f :: later)).flatten, p.time ≤ d.time := by
  have htold := Finger.time_told hl !(t.matched f.1 f.2).table.isMatched e.1
  have hle : ∀ d ∈ e.2.told !(t.matched f.1 f.2).table.isMatched e.1, p.time ≤ d.time := by
    intro d hd
    rw [htold d hd]
    exact Timestamp.le_refl _
  have hpair : (e.2.told !(t.matched f.1 f.2).table.isMatched e.1).Pairwise (·.time ≤ ·.time) := by
    apply List.pairwise_of_forall_mem_list
    intro c hc d hd
    rw [htold c hc]
    exact hle d hd
  have hget := get?_frame_of_mem f.1 f.2 hp he
  split at hget
  next hm =>
    obtain ⟨hkeeps, hlate⟩ := hrest hget
    have hstory : (t.story e.1 (f :: later)).flatten =
        e.2.told (!(t.matched f.1 f.2).table.isMatched e.1) ++
          ((t.frame f.1 f.2).tracker.story e.1 later).flatten := by
      rw [story_of_mem later hp he, if_pos hm, List.flatten_cons]
    have hlife : t.life e.1 (f :: later) =
        (goOn e).2 :: (t.frame f.1 f.2).tracker.life e.1 later := by
      simp only [life, hget]
    refine ⟨⟨?_, ?_⟩, ?_⟩
    · rw [hlife]
      exact List.forall_mem_cons.mpr ⟨hx.sorted, hkeeps.history⟩
    · rw [hstory]
      refine List.pairwise_append.mpr ⟨hpair, hkeeps.events, ?_⟩
      intro c hc d hd
      rw [htold c hc]
      exact hlate d hd
    · rw [hstory]
      exact List.forall_mem_append.mpr ⟨hle, hlate⟩
  next hm =>
    have hstory : (t.story e.1 (f :: later)).flatten =
        e.2.told (!(t.matched f.1 f.2).table.isMatched e.1) := by
      rw [story_of_mem later hp he, if_neg hm, List.flatten_singleton]
    have hlife : t.life e.1 (f :: later) = [] := by
      simp only [life, hget]
    refine ⟨⟨?_, ?_⟩, ?_⟩
    · rw [hlife]
      exact nofun
    · rw [hstory]
      exact hpair
    · rw [hstory]
      exact hle

/-- Between two frames: a finger keeps its time from here on if no frame that comes is earlier than
one of its samples. -/
theorem keepsTime_of_live (frames : Frames) :
    ∀ {t : Tracker} {x : Finger} {τ : Timestamp} {p : Sample}, Sound s t →
      t.pool.get? h = some x → x.Timely τ → x.trail.last? = some p → (∀ g ∈ frames, τ ≤ g.2) →
      frames.Pairwise (·.2 ≤ ·.2) →
      t.KeepsTime h frames ∧ ∀ d ∈ (t.story h frames).flatten, p.time ≤ d.time := by
  induction frames with
  | nil => exact fun _ _ _ _ _ _ => ⟨⟨nofun, List.Pairwise.nil⟩, nofun⟩
  | cons g frames ih =>
    intro t x τ p ht hx htime hl hlate hord
    obtain ⟨hnext, hord⟩ := List.pairwise_cons.mp hord
    have hmem := (Pool.get?_eq_some_iff ht.settled.shaped).mp hx
    have htouch := (ht.settled.active_down _ hmem).touching
    obtain ⟨htime', q, hq, hpq⟩ := htime.follow htouch (hlate g (List.mem_cons_self ..)) hl g.1
      ((t.claims g.1).claim? h)
    have hcons := keepsTime_cons frames ht.settled
      (follow_mem_present g.1 g.2 hmem) htime' hq fun hget =>
        ih (sound_frame ht g.1 g.2) hget ⟨htime'.sorted, htime'.le⟩ hq hnext hord
    exact ⟨hcons.1, fun d hd => Timestamp.le_trans hpq (hcons.2 d hd)⟩

/-- The `k`-th finger to start in a frame keeps its time if no frame after it is earlier than its
first sample. -/
theorem keepsTime_of_newcomer {k : Nat} {later : Frames} (ht : Sound s t)
    (hk : (t.newcomers f.1 f.2)[k]? = some h) (hlate : ∀ g ∈ later, staggered f.2 k ≤ g.2)
    (hord : later.Pairwise (·.2 ≤ ·.2)) : t.KeepsTime h (f :: later) := by
  have hp := ht.settled
  rw [newcomers_eq _ _ hp.shaped, List.getElem?_map, Option.map_eq_some_iff] at hk
  obtain ⟨a, ha, rfl⟩ := hk
  obtain ⟨c, -, e, he, id, -, hf⟩ := arrivals_stamped _ _ _ _ _ ha
  obtain ⟨htime, hl⟩ := Finger.timely_started (hp.spare_resting e he).fits id c
    (staggered f.2 (0 + k))
  rw [← hf, Nat.zero_add] at htime hl
  have hmem : a.entry ∈ t.present f.1 f.2 :=
    List.mem_append_right _ (List.mem_map_of_mem (List.mem_of_getElem? ha))
  exact (keepsTime_cons later hp hmem htime hl fun hget =>
    keepsTime_of_live later (sound_frame ht f.1 f.2) hget ⟨htime.sorted, htime.le⟩ hl hlate hord).1

/-! ## Where a finger has started -/

/-- One frame more in the life of a finger that is still there. -/
theorem life_append (g : List Contact × Timestamp) (h : Handle) (frames : Frames) :
    ∀ {t : Tracker}, (t.life h frames).length = frames.length →
      t.life h (frames ++ [g]) =
        t.life h frames ++ (((t.through frames).frame g.1 g.2).tracker.pool.get? h).toList := by
  induction frames with
  | nil =>
    intro t _
    show t.life h [g] = ((t.frame g.1 g.2).tracker.pool.get? h).toList
    rw [life]
    cases (t.frame g.1 g.2).tracker.pool.get? h <;> rfl
  | cons f frames ih =>
    intro t hfull
    rw [List.cons_append, life]
    rw [life] at hfull
    cases hget : (t.frame f.1 f.2).tracker.pool.get? h with
    | none =>
      rw [hget] at hfull
      exact nomatch hfull
    | some x =>
      rw [hget] at hfull
      simp only [life, hget]
      rw [ih (Nat.succ.inj hfull)]
      rfl

theorem sound_through (hnew : Tracker.new s = .ok t₀) (frames : Frames) :
    Sound s (t₀.through frames) :=
  sound_after hnew _

/-- An active finger has started in one of the frames, and it is what has become of this finger
since. -/
theorem exists_newcomer (hnew : Tracker.new s = .ok t₀) (h : Handle) (frames : Frames) :
    ∀ x, (t₀.through frames).pool.get? h = some x →
      ∃ earlier f later, ∃ k : Nat, frames = earlier ++ f :: later ∧
        ((t₀.through earlier).newcomers f.1 f.2)[k]? = some h ∧
        ((t₀.through earlier).life h (f :: later)).length = (f :: later).length ∧
        ((t₀.through earlier).life h (f :: later)).getLast? = some x := by
  induction frames using List.reverseRecOn with
  | nil =>
    intro x hx
    have hmem := (Pool.get?_eq_some_iff (sound_new hnew).settled.shaped).mp hx
    rw [entries_new hnew] at hmem
    exact nomatch hmem
  | append_singleton frames g ih =>
    intro x hx
    have hp := (sound_through hnew frames).settled
    rw [through_append] at hx
    have hmem := (Pool.get?_eq_some_iff (settled_frame g.1 g.2 hp).shaped).mp hx
    obtain ⟨d, hd, -, heq⟩ := (mem_entries_frame g.1 g.2 hp).mp hmem
    -- it was there before the last frame, or it has started in it
    rcases List.mem_append.mp hd with hd | hd
    · obtain ⟨e, he, rfl⟩ := List.mem_map.mp hd
      obtain rfl : e.1 = h := congrArg Prod.fst heq
      obtain ⟨earlier, f, later, k, rfl, hk, hfull, hlast⟩ :=
        ih e.2 ((Pool.get?_eq_some_iff hp.shaped).mpr he)
      refine ⟨earlier, f, later ++ [g], k, ?_, hk, ?_⟩
      · rw [List.append_assoc, List.cons_append]
      · rw [← List.cons_append, life_append g e.1 (f :: later) hfull, ← through_append]
        rw [show ((t₀.through (earlier ++ f :: later)).frame g.1 g.2).tracker.pool.get? e.1 =
          some x from hx]
        simp [hfull]
    · obtain ⟨a, ha, rfl⟩ := List.mem_map.mp hd
      obtain rfl : a.handle = h := congrArg Prod.fst heq
      obtain ⟨k, hk⟩ := List.mem_iff_getElem?.mp ha
      refine ⟨frames, g, [], k, rfl, ?_, ?_⟩
      · rw [newcomers_eq _ _ hp.shaped, List.getElem?_map, hk]
        rfl
      · have hlife : (t₀.through frames).life a.handle [g] = [x] := by
          have hget : ((t₀.through frames).frame g.1 g.2).tracker.pool.get? a.handle = some x := hx
          simp only [life, hget]
        rw [hlife]
        exact ⟨rfl, rfl⟩

/-- **The clock of a finger.** In frames that come one after the other every active finger has
started in one of them, and a finger keeps its time from there on if the frame after the one in
which it starts is not earlier than its first sample, which is as many milliseconds ahead as there
are fingers that start before it. -/
theorem keepsTime_of_spaced (hnew : Tracker.new s = .ok t₀) (frames : Frames)
    (hord : frames.Pairwise (·.2 ≤ ·.2)) :
    (∀ h x, (t₀.through frames).pool.get? h = some x →
      ∃ earlier f later, ∃ k : Nat, frames = earlier ++ f :: later ∧
        ((t₀.through earlier).newcomers f.1 f.2)[k]? = some h ∧
        ((t₀.through earlier).life h (f :: later)).getLast? = some x) ∧
    ∀ earlier f later (k : Nat) h, frames = earlier ++ f :: later →
      ((t₀.through earlier).newcomers f.1 f.2)[k]? = some h →
      (∀ g ∈ later.head?, staggered f.2 k ≤ g.2) → (t₀.through earlier).KeepsTime h (f :: later) := by
  refine ⟨?_, ?_⟩
  · intro h x hx
    obtain ⟨earlier, f, later, k, hframes, hk, -, hlast⟩ := exists_newcomer hnew h frames x hx
    exact ⟨earlier, f, later, k, hframes, hk, hlast⟩
  · intro earlier f later k h hframes hk hnext
    rw [hframes] at hord
    have hlater : later.Pairwise (·.2 ≤ ·.2) :=
      (List.pairwise_cons.mp (List.pairwise_append.mp hord).2.1).2
    refine keepsTime_of_newcomer (sound_through hnew earlier) hk ?_ hlater
    intro g hg
    cases later with
    | nil => exact nomatch hg
    | cons g' later =>
      have hhead := hnext g' rfl
      rcases List.mem_cons.mp hg with rfl | hg
      · exact hhead
      · exact Timestamp.le_trans hhead ((List.pairwise_cons.mp hlater).1 g hg)

/-- Two fingers start at once, and the next frame comes when the second one's first sample is
due. -/
theorem keepsTime_of_spaced_by_a_millisecond :
    ∃ t₀, Tracker.new {} = .ok t₀ ∧
      let touches : List Contact := [⟨10, 10, 1⟩, ⟨500, 500, 1⟩]
      let frames : Frames := [(touches, Timestamp.epoch), (touches, Timestamp.ofMillis 1)]
      frames.Pairwise (·.2 ≤ ·.2) ∧
        (t₀.newcomers touches Timestamp.epoch)[1]? = some ⟨1, 1⟩ ∧
        t₀.KeepsTime ⟨1, 1⟩ frames := by
  obtain ⟨t₀, h⟩ : ∃ t₀, Tracker.new {} = .ok t₀ := ⟨_, rfl⟩
  obtain ⟨-, ht₀⟩ := new_eq_ok h
  refine ⟨t₀, h, ?_⟩
  intro touches frames
  have hord : frames.Pairwise (·.2 ≤ ·.2) := by decide +kernel
  have hk : (t₀.newcomers touches Timestamp.epoch)[1]? = some ⟨1, 1⟩ := by
    subst ht₀
    decide +kernel
  refine ⟨hord, hk, (keepsTime_of_spaced h frames hord).2 [] _ _ 1 ⟨1, 1⟩ rfl hk ?_⟩
  decide +kernel

/-- Two frames at one time: the second finger's first sample is a millisecond ahead of its next
one. -/
theorem staggered_goes_back :
    ∃ t₀, Tracker.new {} = .ok t₀ ∧
      let touches : List Contact := [⟨10, 10, 1⟩, ⟨500, 500, 1⟩]
      let frames : Frames := [(touches, Timestamp.epoch), (touches, Timestamp.epoch)]
      frames.Pairwise (·.2 ≤ ·.2) ∧
        (∃ x ∈ (t₀.through frames).pool.fingers,
          ¬ x.trail.toList.Pairwise (·.time ≤ ·.time)) ∧
        ¬ (t₀.story ⟨1, 1⟩ frames).flatten.Pairwise (·.time ≤ ·.time) := by
  obtain ⟨t₀, h⟩ : ∃ t₀, Tracker.new {} = .ok t₀ := ⟨_, rfl⟩
  obtain ⟨-, ht₀⟩ := new_eq_ok h
  refine ⟨t₀, h, ?_⟩
  rw [ht₀]
  decide +kernel

end Tracker

end FingerTracking
