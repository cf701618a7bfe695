import FingerTracking.Proofs.FreshStart

/-!
# Two runs side by side

A run gives back what its calls give back, one after the other (`answers`), and two runs are
compared call by call. Of a finger a frame looks at the id, the phase, the weight and the newest
sample, and at nothing else: not at the samples before it, nor at how many of them are kept. So two
trackers may be made for trails of different lengths, and their fingers may be in different places,
as long as distances and steps between the places are the same (`PlaceLikeness`).

> `likeness_of_places`: fingers that stand alike are alike in every frame.
>
> `likeAnswers_call`: a call on two trackers whose fingers stand alike gives like answers, and their
> fingers stand alike after it.
-/

namespace FingerTracking

open Matching

/-! ## Where fingers stand -/

namespace Matching

/-- Places and contacts between which distances and steps are as they are between others. -/
structure PlaceLikeness (R : Sample → Sample → Prop) (C : Contact → Contact → Prop) : Prop where
  distance_eq : ∀ {p q c d}, R p q → C c d → squaredDistance c p = squaredDistance d q
  weight_eq : ∀ {c d}, C c d → c.weight = d.weight
  isAbsent_eq : ∀ {c d}, C c d → c.isAbsent = d.isAbsent
  /-- A finger comes to stand where the contact is. -/
  put : ∀ {c d}, C c d → ∀ time, R ⟨c.x, c.y, time⟩ ⟨d.x, d.y, time⟩
  /-- A finger comes one step nearer to the contact. -/
  step : ∀ {p q c d}, R p q → C c d → ∀ time,
    R ⟨Step.toward p.x c.x, Step.toward p.y c.y, time⟩
      ⟨Step.toward q.x d.x, Step.toward q.y d.y, time⟩

/-- Events about fingers whose newest samples are alike. -/
structure EventLikeness (R : Sample → Sample → Prop) (E : Event → Event → Prop) : Prop where
  finger : ∀ {p q}, R p q → ∀ id, E (Event.finger p.time id) (Event.finger q.time id)
  touch : ∀ {p q}, R p q → ∀ pressed, E (Event.touch p.time pressed) (Event.touch q.time pressed)
  x : ∀ {p q}, R p q → E (Event.x p.time p.x) (Event.x q.time q.x)
  y : ∀ {p q}, R p q → E (Event.y p.time p.y) (Event.y q.time q.y)
  sync : ∀ now, E (Event.sync now) (Event.sync now)

end Matching

namespace Finger

variable {R : Sample → Sample → Prop} {C : Contact → Contact → Prop} {E : Event → Event → Prop}
variable {n n' : Nat} {b : Bool} {f g : Finger} {c d : Contact}

/-- Fingers that differ at most in their newest samples, and there by `R`, and in the samples that
came before. Their trails may be of different lengths. -/
structure StandsLike (R : Sample → Sample → Prop) (n n' : Nat) (b : Bool) (f g : Finger) :
    Prop where
  fits : f.trail.Fits n b
  fits' : g.trail.Fits n' b
  id_eq : f.id = g.id
  phase_eq : f.phase = g.phase
  weight_eq : f.weight = g.weight
  newest : ∃ p q, f.trail.last? = some p ∧ g.trail.last? = some q ∧ R p q

namespace StandsLike

/-- Fingers that follow their contacts still stand alike, one unit nearer or at the contact. -/
theorem moved (hP : PlaceLikeness R C) (h : StandsLike R n n' b f g) (hc : C c d)
    (now : Timestamp) : StandsLike R n n' b (moved f c now) (moved g d now) := by
  obtain ⟨p, q, hp, hq, hpq⟩ := h.newest
  have hf := Trail.last?_push h.fits.stays c.x c.y now
  have hg := Trail.last?_push h.fits'.stays d.x d.y now
  rw [h.fits.filtered_eq, hp] at hf
  rw [h.fits'.filtered_eq, hq] at hg
  refine ⟨h.fits.push .., h.fits'.push .., h.id_eq, h.phase_eq, hP.weight_eq hc, _, _, hf, hg, ?_⟩
  cases b with
  | true => exact hP.step hpq hc now
  | false => exact hP.put hc now

/-- Fingers that start at their contacts stand alike, whatever was in their slots before. -/
theorem started (hP : PlaceLikeness R C) (hf : f.trail.Fits n b) (hg : g.trail.Fits n' b)
    (hc : C c d) (id : UInt32) (time : Timestamp) :
    StandsLike R n n' b (started f.opened id c time) (started g.opened id d time) := by
  have hlast : ∀ {m : Nat} {k : Finger} (_ : k.trail.Fits m b) (e : Contact),
      (k.trail.cleared.push e.x e.y time).last? = some ⟨e.x, e.y, time⟩ := by
    intro m k hk e
    rw [Trail.last?_eq_getLast?, Trail.toList_push_cleared hk.stays]
    rfl
  exact ⟨hf.cleared.push .., hg.cleared.push .., rfl, rfl, hP.weight_eq hc, _, _, hlast hf c,
    hlast hg d, hP.put hc time⟩

/-- What is told about fingers that stand alike is alike. -/
theorem told (hE : EventLikeness R E) (h : StandsLike R n n' b f g) (leaves : Bool) :
    List.Forall₂ E (f.told leaves) (g.told leaves) := by
  obtain ⟨p, q, hp, hq, hpq⟩ := h.newest
  have harrives : ∀ arrives : Bool, List.Forall₂ E
      (if arrives then [Event.touch p.time true] else [])
      (if arrives then [Event.touch q.time true] else []) := by
    intro arrives
    cases arrives with
    | true => exact .cons (hE.touch hpq true) .nil
    | false => exact .nil
  have hleaves : List.Forall₂ E (if leaves then [Event.touch p.time false] else [])
      (if leaves then [Event.touch q.time false] else []) := by
    cases leaves with
    | true => exact .cons (hE.touch hpq false) .nil
    | false => exact .nil
  rw [told_eq hp, told_eq hq, h.id_eq, h.phase_eq, group, group]
  refine List.rel_append (List.rel_append (List.rel_append ?_ (harrives _)) ?_) hleaves
  · exact .cons (hE.finger hpq g.id) .nil
  · exact .cons (hE.x hpq) (.cons (hE.y hpq) .nil)

end StandsLike

/-- The settings may differ in the lengths of the trails and in the number of fingers expected. -/
theorem likeness_of_places {s s' : Settings} (hP : PlaceLikeness R C)
    (hthreshold : s.threshold = s'.threshold) (hfiltered : s.filtered = s'.filtered)
    (now : Timestamp) :
    Likeness s s' now now (StandsLike R s.trailLength s'.trailLength s.filtered) C where
  distance_eq hf hc := by
    obtain ⟨p, q, hp, hq, hpq⟩ := hf.newest
    rw [hp, hq, Option.map_some, Option.map_some, hP.distance_eq hpq hc]
  follows_eq hf hc := by rw [follows, follows, hf.weight_eq, hP.weight_eq hc]
  qualifies_eq hc := by
    rw [qualifies, qualifies, hthreshold, hP.isAbsent_eq hc, hP.weight_eq hc]
  moved hf hc := hf.moved hP hc now
  started hf hg hc id _ := StandsLike.started hP hf.fits (hfiltered ▸ hg.fits) hc id _
  goOn hf := ⟨hf.fits, hf.fits', hf.id_eq, rfl, hf.weight_eq, hf.newest⟩

end Finger

/-! ## Calls and their answers -/

/-- Two calls of one kind, for frames of like contacts at one time. -/
inductive Call.Like (C : Contact → Contact → Prop) : Call → Call → Prop where
  | frame {cs ds : List Contact} (contacts : List.Forall₂ C cs ds) (now : Timestamp) :
    Like C (.frame cs now) (.frame ds now)
  | teardown : Like C .teardown .teardown

namespace Tracker

variable {s s' : Settings} {R : Sample → Sample → Prop} {C : Contact → Contact → Prop}
variable {E : Event → Event → Prop} {t u : Tracker} {cs ds : List Contact} {now : Timestamp}

/-- What a call gives back. A teardown gives neither events nor contacts. -/
def answer (t : Tracker) : Call → Framed
  | .frame contacts now => t.frame contacts now
  | .teardown => { tracker := t.teardown.1, events := [], frame := [], notes := t.teardown.2 }

/-- What the calls of a run give back. -/
def answers (t : Tracker) : List Call → List Framed
  | [] => []
  | c :: calls => t.answer c :: (t.call c).answers calls

theorem tracker_answer (t : Tracker) (c : Call) : (t.answer c).tracker = t.call c := by
  cases c <;> rfl

/-- What a caller sees of an answer: the events, and the contacts with the claimed ones taken
off. -/
def Framed.output (r : Framed) : Batch × List Contact :=
  (r.events, r.frame)

/-- Answers with like events and like contacts, of which the same ones have been taken off. -/
structure LikeAnswers (E : Event → Event → Prop) (C : Contact → Contact → Prop) (r r' : Framed) :
    Prop where
  events : List.Forall₂ E r.events r'.events
  frame : List.Forall₂
    (fun c d => C c d ∨ ∃ c₀ d₀, C c₀ d₀ ∧ c = c₀.consumed ∧ d = d₀.consumed) r.frame r'.frame

/-- Trackers whose fingers stand alike. -/
abbrev StandAlike (R : Sample → Sample → Prop) (s s' : Settings) (t u : Tracker) : Prop :=
  Alike (Finger.StandsLike R s.trailLength s'.trailLength s.filtered) t u

theorem forall₂_closed (hE : EventLikeness R E) {es es' : Batch} (h : List.Forall₂ E es es')
    (now : Timestamp) : List.Forall₂ E (closed es now) (closed es' now) := by
  cases h with
  | nil => exact .nil
  | cons hone hrest => exact List.rel_append (.cons hone hrest) (.cons (hE.sync now) .nil)

theorem forall₂_takenOff (hc : List.Forall₂ C cs ds) (js : List Nat) :
    List.Forall₂ (fun c d => C c d ∨ ∃ c₀ d₀, C c₀ d₀ ∧ c = c₀.consumed ∧ d = d₀.consumed)
      (takenOff js cs) (takenOff js ds) := by
  rw [List.forall₂_iff_get]
  refine ⟨by rw [length_takenOff, length_takenOff, hc.length_eq], ?_⟩
  intro j hj hj'
  rw [length_takenOff] at hj hj'
  have hone : C cs[j] ds[j] := hc.get hj hj'
  simp only [takenOff, List.get_eq_getElem, List.getElem_mapIdx]
  split
  · exact Or.inr ⟨_, _, hone, rfl, rfl⟩
  · exact Or.inl hone

/-- What a frame gives back where fingers stand alike. -/
theorem likeAnswers_frame (hE : EventLikeness R E) (ht : Sound s t) (hu : Sound s' u)
    (hc : List.Forall₂ C cs ds)
    (h : AlikeIn (Finger.StandsLike R s.trailLength s'.trailLength s.filtered) t u cs ds now now) :
    LikeAnswers E C (t.frame cs now) (u.frame ds now) := by
  obtain ⟨js, hjs, hjs'⟩ := h.frame
  refine ⟨?_, ?_⟩
  · rw [events_heard cs now ht.settled, events_heard ds now hu.settled]
    refine forall₂_closed hE (List.rel_flatMap h.heard ?_) now
    intro x y hxy
    show List.Forall₂ E (x.1.told x.2) (y.1.told y.2)
    rw [hxy.2]
    exact hxy.1.told hE y.2
  · rw [hjs, hjs']
    exact forall₂_takenOff hc js

/-- **Fingers that stand alike stay so,** and the answers are alike, if there is room for as many
new fingers in the one tracker as in the other. -/
theorem likeAnswers_call (hP : PlaceLikeness R C) (hE : EventLikeness R E)
    (hthreshold : s.threshold = s'.threshold) (hfiltered : s.filtered = s'.filtered)
    (ht : Sound s t) (hu : Sound s' u) (h : StandAlike R s s' t u) {c d : Call}
    (hc : Call.Like C c d)
    (hroom : ∀ contacts now, c = .frame contacts now → RoomAlike s t u contacts now) :
    LikeAnswers E C (t.answer c) (u.answer d) ∧ StandAlike R s s' (t.call c) (u.call d) := by
  cases hc with
  | frame hcs now =>
    have hin := alikeIn_frame (Finger.likeness_of_places hP hthreshold hfiltered now) ht hu h hcs
      (hroom _ now rfl)
    exact ⟨likeAnswers_frame hE ht hu hcs hin, hin.after⟩
  | teardown =>
    refine ⟨⟨.nil, .nil⟩, rfl, ?_⟩
    show List.Forall₂ _ t.teardown.1.pool.fingers u.teardown.1.pool.fingers
    rw [fingers_teardown ht, fingers_teardown hu]
    exact .nil

/-- New trackers have no fingers. -/
theorem standAlike_new {t₀ u₀ : Tracker} (R : Sample → Sample → Prop)
    (h : Tracker.new s = .ok t₀) (h' : Tracker.new s' = .ok u₀) : StandAlike R s s' t₀ u₀ := by
  refine ⟨(nextId_new h).trans (nextId_new h').symm, ?_⟩
  rw [Pool.fingers_eq (sound_new h).settled.shaped, Pool.fingers_eq (sound_new h').settled.shaped,
    entries_new h, entries_new h']
  exact .nil

end Tracker

end FingerTracking
