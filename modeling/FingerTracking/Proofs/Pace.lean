import FingerTracking.Proofs.Clock
import FingerTracking.Proofs.Conservation

/-!
# A filtered finger goes one step at a time

With the filter on, what is told about a finger begins where the finger has started, and from one
frame to the next each axis is what it was or goes on by one unit. It goes on only in a frame in
which the finger has claimed a contact that is not too light for it, and it goes toward this
contact and not past it, however far away the contact is and however few samples are kept.

> `last?_follow_cases`: a finger stays where it is or takes one step.
>
> `paced_of_live`: the same in the events about a finger, in one frame after another.
>
> `paced_from_start`: from the frame in which the finger starts, after any run.
-/

namespace FingerTracking

open MatchTable Matching Event

/-! ## Steps -/

namespace Step

/-- From `v` to `w` a coordinate comes nearer to the goal and does not go past it. -/
def Nears (v w goal : Int32) : Prop :=
  v < w ∧ w ≤ goal ∨ goal ≤ w ∧ w < v

theorem natAbs_toward_sub_le (last goal : Int32) :
    ((toward last goal).toInt - last.toInt).natAbs ≤ 1 := by
  rw [toInt_toward]
  split
  · omega
  split <;> omega

theorem nears_toward {last goal : Int32} (h : toward last goal ≠ last) :
    Nears last (toward last goal) goal := by
  have hstep := toInt_toward last goal
  simp only [Nears, Int32.lt_iff_toInt_lt, Int32.le_iff_toInt_le]
  by_cases hup : last < goal
  · rw [if_pos hup] at hstep
    rw [Int32.lt_iff_toInt_lt] at hup
    omega
  by_cases hdown : goal < last
  · rw [if_neg hup, if_pos hdown] at hstep
    rw [Int32.lt_iff_toInt_lt] at hdown
    omega
  · exact absurd (by rw [toward, if_neg hup, if_neg hdown]) h

end Step

/-! ## The place of a finger -/

namespace Event

/-- The values of the events of one kind. -/
def values (kind : Kind) (es : List Event) : List Int32 :=
  (es.filter fun e => e.kind == kind).map (·.value)

/-- Events about one finger that put it at (x, y). -/
def ShowsAt (g : Batch) (x y : Int32) : Prop :=
  values .axisX g = [x] ∧ values .axisY g = [y]

end Event

namespace Finger

variable {n : Nat} {x : Finger} {p : Sample}

theorem showsAt_told (hp : x.trail.last? = some p) (leaves : Bool) :
    ShowsAt (x.told leaves) p.x p.y := by
  rw [told_eq hp]
  cases x.phase == .start <;> cases leaves <;> exact ⟨rfl, rfl⟩

/-- **A filtered finger stays where it is or takes one step,** and it takes one only toward a
contact that it has claimed and that is not too light. -/
theorem last?_follow_cases (hx : x.Touching n true) (hp : x.trail.last? = some p)
    (contacts : List Contact) (now : Timestamp) (claim : Option Nat) :
    ∃ q, (follow contacts now claim x).trail.last? = some q ∧
      (q.x = p.x ∧ q.y = p.y ∨
        ∃ j c, claim = some j ∧ contacts[j]? = some c ∧ follows x c = true ∧
          q.x = Step.toward p.x c.x ∧ q.y = Step.toward p.y c.y) := by
  unfold follow
  split
  next c hc =>
    obtain ⟨j, hj, hc⟩ := Option.bind_eq_some_iff.mp hc
    split
    next hf =>
      have hlast := Trail.last?_push hx.fits.stays c.x c.y now
      rw [hx.fits.filtered_eq, hp] at hlast
      exact ⟨_, hlast, Or.inr ⟨j, c, hj, hc, hf, rfl, rfl⟩⟩
    next => exact ⟨p, hp, Or.inl ⟨rfl, rfl⟩⟩
  next => exact ⟨p, hp, Or.inl ⟨rfl, rfl⟩⟩

end Finger

namespace Tracker

variable {s : Settings} {t t₀ : Tracker} {h : Handle} {x : Finger} {p : Sample} {g : Batch}
variable {f : List Contact × Timestamp} {j : Nat} {c : Contact}

/-! ## One frame -/

/-- What the frame `f` tells about a finger, `g'`, puts it at most one unit away on each axis from
where `g` put it; if it is elsewhere at all, the finger has claimed a contact in the frame that
weighs at least half of the last one, and each axis that is not what it was comes nearer to this
contact. -/
def Paced (t : Tracker) (f : List Contact × Timestamp) (h : Handle) (g g' : Batch) : Prop :=
  t.groupOf? f h = some g' ∧ ∃ x y x' y', ShowsAt g x y ∧ ShowsAt g' x' y' ∧
    (x'.toInt - x.toInt).natAbs ≤ 1 ∧ (y'.toInt - y.toInt).natAbs ≤ 1 ∧
    (x' ≠ x ∨ y' ≠ y → ∃ j c k, t.ClaimedBy f.1 f.2 j h ∧ f.1[j]? = some c ∧
      t.pool.get? h = some k ∧ half k.weight ≤ c.weight.toInt ∧
      (x' ≠ x → Step.Nears x x' c.x) ∧ (y' ≠ y → Step.Nears y y' c.y))

/-- A finger that was active before the frame, shown by `g` where it was then. -/
theorem paced_of_live (ht : Sound s t) (hfilter : s.filtered = true)
    (hx : t.pool.get? h = some x) (hp : x.trail.last? = some p) (hg : ShowsAt g p.x p.y)
    (f : List Contact × Timestamp) :
    ∃ q, (followEntry (t.claims f.1) f.1 f.2 (h, x)).2.trail.last? = some q ∧
      t.Paced f h g ((followEntry (t.claims f.1) f.1 f.2 (h, x)).2.told
        !(t.matched f.1 f.2).table.isMatched h) := by
  have hmem := (Pool.get?_eq_some_iff ht.settled.shaped).mp hx
  have htouch := (ht.settled.active_down _ hmem).touching
  rw [hfilter] at htouch
  obtain ⟨q, hq, hstep⟩ := Finger.last?_follow_cases htouch hp f.1 f.2 ((t.claims f.1).claim? h)
  have htold := groupOf?_of_mem ht.settled (follow_mem_present f.1 f.2 hmem)
  refine ⟨q, hq, htold, p.x, p.y, q.x, q.y, hg, Finger.showsAt_told hq _, ?_⟩
  rcases hstep with ⟨hsamex, hsamey⟩ | ⟨j, c, hj, hc, hfollows, hstepx, hstepy⟩
  · rw [hsamex, hsamey]
    simp
  · rw [hstepx, hstepy]
    refine ⟨Step.natAbs_toward_sub_le .., Step.natAbs_toward_sub_le .., ?_⟩
    intro _
    exact ⟨j, c, x, (claimedBy_iff ht.settled.shaped).mpr hj, hc, hx, of_decide_eq_true hfollows,
      Step.nears_toward, Step.nears_toward⟩

/-! ## A run -/

/-- Every two groups that follow each other, the first one told in the frame before. -/
theorem paced_story (hfilter : s.filtered = true) (frames : Frames) :
    ∀ {t : Tracker} {x : Finger} {p : Sample} {g : Batch}, Sound s t → t.pool.get? h = some x →
      x.trail.last? = some p → ShowsAt g p.x p.y →
      ∀ i a b, (g :: t.story h frames)[i]? = some a → (t.story h frames)[i]? = some b →
        ∃ f, frames[i]? = some f ∧ (t.through (frames.take i)).Paced f h a b := by
  induction frames with
  | nil =>
    intro t x p g _ _ _ _ i a b _ hb
    exact nomatch hb
  | cons f frames ih =>
    intro t x p g ht hx hp hg i a b ha hb
    have hmem := (Pool.get?_eq_some_iff ht.settled.shaped).mp hx
    have hin := follow_mem_present f.1 f.2 hmem
    obtain ⟨q, hq, hpaced⟩ := paced_of_live ht hfilter hx hp hg f
    have hstory := story_of_mem frames ht.settled hin
    have hget := get?_frame_of_mem f.1 f.2 ht.settled hin
    rw [fst_followEntry] at hstory hget
    rw [hstory] at ha hb
    cases i with
    | zero =>
      obtain rfl := Option.some.inj ha
      obtain rfl := Option.some.inj hb
      exact ⟨f, rfl, hpaced⟩
    | succ i =>
      -- there is a group after this one only if the finger has not left
      rw [List.getElem?_cons_succ] at ha hb
      split at hb
      next hm =>
        rw [if_pos hm] at ha hget
        exact ih (sound_frame ht f.1 f.2) hget hq (Finger.showsAt_told hq _) i a b ha hb
      next => exact nomatch hb

/-- A finger that starts is told about in a press, where its contact is. -/
theorem told_newcomer (ht : Sound s t) (hs : t.Starts f.1 f.2 j h) (hc : f.1[j]? = some c) :
    ∃ x id time, (t.frame f.1 f.2).tracker.pool.get? h = some x ∧
      x.trail.last? = some ⟨c.x, c.y, time⟩ ∧
      ∀ later, t.story h (f :: later) =
        press id ⟨c.x, c.y, time⟩ :: (t.frame f.1 f.2).tracker.story h later := by
  obtain ⟨a, ha, -, rfl⟩ := (exists_arrival_iff ht.settled.shaped).mpr hs
  obtain ⟨x, time, hx, hlist, -⟩ := started_of_settled ht.settled hs hc
  have hlast : x.trail.last? = some ⟨c.x, c.y, time⟩ := by
    rw [Trail.last?_eq_getLast?, hlist]
    rfl
  have hin : a.entry ∈ t.present f.1 f.2 := List.mem_append_right _ (List.mem_map_of_mem ha)
  have hm : (t.matched f.1 f.2).table.isMatched a.entry.1 = true :=
    isMatched_arrival f.1 f.2 ht.settled.shaped ha
  have hget := get?_frame_of_mem f.1 f.2 ht.settled hin
  rw [if_pos hm] at hget
  obtain rfl : (goOn a.entry).2 = x := Option.some.inj (hget.symm.trans hx)
  have hplace : a.finger.trail.last? = some ⟨c.x, c.y, time⟩ := hlast
  have htold : a.finger.told false = press a.finger.id.toInt32 ⟨c.x, c.y, time⟩ := by
    rw [Finger.told_eq hplace, phase_arrival f.1 f.2 ha]
    rfl
  refine ⟨_, a.finger.id.toInt32, time, hx, hlast, ?_⟩
  intro later
  have hstory := story_of_mem later ht.settled hin
  rw [if_pos hm, hm, Bool.not_true] at hstory
  rw [← htold]
  exact hstory

/-- How a finger that starts in the frame `f` at the contact `c` is told about from then on. A
teardown ends what there is to tell, so the frames follow each other. -/
structure Pacing (t : Tracker) (h : Handle) (c : Contact) (f : List Contact × Timestamp)
    (later : Frames) : Prop where
  /-- It is pressed where its contact is. -/
  pressed : ∃ id time, (t.story h (f :: later)).head? = some (press id ⟨c.x, c.y, time⟩)
  paced : ∀ i g g', (t.story h (f :: later))[i]? = some g →
    (t.story h (f :: later))[i + 1]? = some g' →
      ∃ f', later[i]? = some f' ∧ (t.through (f :: later.take i)).Paced f' h g g'

/-- **A filtered finger goes one step at a time.** -/
theorem paced_from_start (hnew : Tracker.new s = .ok t₀) (hfilter : s.filtered = true)
    (before : List Call) (hs : (t₀.after before).Starts f.1 f.2 j h) (hc : f.1[j]? = some c)
    (later : Frames) : (t₀.after before).Pacing h c f later := by
  have ht := sound_after hnew before
  obtain ⟨x, id, time, hx, hlast, hstory⟩ := told_newcomer ht hs hc
  refine ⟨⟨id, time, ?_⟩, ?_⟩
  · rw [hstory]
    rfl
  · intro i g g' hg hg'
    rw [hstory] at hg hg'
    exact paced_story hfilter later (sound_frame ht f.1 f.2) hx hlast ⟨rfl, rfl⟩ i g g' hg hg'

/-- With trails of one sample, in a slot that was in use before: the finger starts at (10, 10), its
contact jumps away, then is too light for it, then is on the other side, and the finger leaves. -/
theorem paced_from_start_after_jump :
    ∃ t₀, Tracker.new { trailLength := 1, filtered := true } = .ok t₀ ∧
      let before : List Call :=
        [.frame [⟨90, 90, 50⟩] .epoch, .teardown, .frame [⟨90, 80, 50⟩] .epoch, .teardown]
      let f : List Contact × Timestamp := ([⟨10, 10, 50⟩], .ofMillis 10)
      let later : Frames := [([⟨400, 10, 50⟩], .ofMillis 20), ([⟨400, 90, 24⟩], .ofMillis 30),
        ([⟨-400, 90, 50⟩], .ofMillis 40), ([], .ofMillis 50)]
      let t := t₀.after before
      t.Starts f.1 f.2 0 ⟨0, 3⟩ ∧
        (t.story ⟨0, 3⟩ (f :: later)).map (values .axisX) = [[10], [11], [11], [10], [10]] ∧
        (t.story ⟨0, 3⟩ (f :: later)).map (values .axisY) = [[10], [10], [10], [11], [11]] ∧
        t.Pacing ⟨0, 3⟩ ⟨10, 10, 50⟩ f later := by
  obtain ⟨t₀, h⟩ : ∃ t₀, Tracker.new { trailLength := 1, filtered := true } = .ok t₀ := ⟨_, rfl⟩
  obtain ⟨-, ht₀⟩ := new_eq_ok h
  refine ⟨t₀, h, ?_⟩
  intro before f later t
  have hs : t.Starts f.1 f.2 0 ⟨0, 3⟩ := by
    show (t₀.after before).Starts f.1 f.2 0 ⟨0, 3⟩
    rw [ht₀, Starts]
    decide +kernel
  have hshown : (t.story ⟨0, 3⟩ (f :: later)).map (values .axisX) = [[10], [11], [11], [10], [10]] ∧
      (t.story ⟨0, 3⟩ (f :: later)).map (values .axisY) = [[10], [10], [10], [11], [11]] := by
    show ((t₀.after before).story ⟨0, 3⟩ (f :: later)).map (values .axisX) = _ ∧
      ((t₀.after before).story ⟨0, 3⟩ (f :: later)).map (values .axisY) = _
    rw [ht₀]
    decide +kernel
  exact ⟨hs, hshown.1, hshown.2, paced_from_start h rfl before hs rfl later⟩

end Tracker

end FingerTracking
