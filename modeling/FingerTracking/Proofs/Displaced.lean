import FingerTracking.Proofs.SideBySide

/-!
# The place on the panel does not matter

If all contacts of a run are moved by the same vector, the positions that are told are moved by it
and nothing else changes. Two things in a tracker know where the panel begins and ends: (0, 0)
stands for no contact, and a filtered trail does not step over the last coordinate. The first is
left out here, on both sides; the second never happens, since a step leads no farther than its goal.

> `toInt_toward_displaced`: a step between two places that are moved is moved with them.
>
> `displaced_answers`: the answers of a run whose contacts are moved.
-/

namespace FingerTracking

open Matching

/-! ## Moved by a vector -/

/-- The contact `d` is `c` moved by the vector (`a`, `b`), and neither is at (0, 0). -/
structure Contact.Displaced (a b : Int) (c d : Contact) : Prop where
  x_eq : d.x.toInt = c.x.toInt + a
  y_eq : d.y.toInt = c.y.toInt + b
  weight_eq : d.weight = c.weight
  isAbsent_eq : c.isAbsent = false
  isAbsent_eq' : d.isAbsent = false

structure Sample.Displaced (a b : Int) (p q : Sample) : Prop where
  x_eq : q.x.toInt = p.x.toInt + a
  y_eq : q.y.toInt = p.y.toInt + b
  time_eq : q.time = p.time

/-- How far the value of an event of this kind is moved. -/
def Event.Kind.displacement (a b : Int) : Event.Kind → Int
  | axisX => a
  | axisY => b
  | fingerId | buttonTouch | sync => 0

/-- The event `e'` is `e` with its value moved, if it is a coordinate. -/
structure Event.Displaced (a b : Int) (e e' : Event) : Prop where
  time_eq : e'.time = e.time
  kind_eq : e'.kind = e.kind
  code_eq : e'.code = e.code
  value_eq : e'.value.toInt = e.value.toInt + e.kind.displacement a b

/-- The answer `r'` is `r` moved: the coordinates in its events, and the contacts that are left. The
same contacts are taken off. -/
structure Tracker.Framed.Displaced (a b : Int) (r r' : Tracker.Framed) : Prop where
  events : List.Forall₂ (Event.Displaced a b) r.events r'.events
  frame : List.Forall₂ (fun c d => Contact.Displaced a b c d ∨
    c.isAbsent = true ∧ d.isAbsent = true ∧ d.weight = c.weight) r.frame r'.frame

variable {a b : Int}

/-- A step between two places that are moved is moved with them. -/
theorem Step.toInt_toward_displaced {k : Int} {last last' goal goal' : Int32}
    (hlast : last'.toInt = last.toInt + k) (hgoal : goal'.toInt = goal.toInt + k) :
    (toward last' goal').toInt = (toward last goal).toInt + k := by
  have hup : last' < goal' ↔ last < goal := by
    rw [Int32.lt_iff_toInt_lt, Int32.lt_iff_toInt_lt]
    omega
  have hdown : goal' < last' ↔ goal < last := by
    rw [Int32.lt_iff_toInt_lt, Int32.lt_iff_toInt_lt]
    omega
  rw [toInt_toward, toInt_toward]
  simp only [hup, hdown, hlast]
  split
  · omega
  · split <;> omega

namespace Matching

/-- Distances are the same at both places, since a contact and a finger are moved by as much. -/
theorem squaredDistance_displaced {p q : Sample} {c d : Contact} (hp : p.Displaced a b q)
    (hc : c.Displaced a b d) : squaredDistance c p = squaredDistance d q := by
  have hx : d.x.toInt - q.x.toInt = c.x.toInt - p.x.toInt := by
    rw [hc.x_eq, hp.x_eq]
    omega
  have hy : d.y.toInt - q.y.toInt = c.y.toInt - p.y.toInt := by
    rw [hc.y_eq, hp.y_eq]
    omega
  simp only [squaredDistance, hx, hy]

/-- Distances and steps are all that a frame asks of places. -/
theorem placeLikeness_displaced :
    PlaceLikeness (Sample.Displaced a b) (Contact.Displaced a b) where
  distance_eq hp hc := squaredDistance_displaced hp hc
  weight_eq hc := hc.weight_eq.symm
  isAbsent_eq hc := hc.isAbsent_eq.trans hc.isAbsent_eq'.symm
  put hc _ := ⟨hc.x_eq, hc.y_eq, rfl⟩
  step hp hc _ :=
    ⟨Step.toInt_toward_displaced hp.x_eq hc.x_eq, Step.toInt_toward_displaced hp.y_eq hc.y_eq, rfl⟩

/-- Of the events only those of the axes know where a finger is. -/
theorem eventLikeness_displaced : EventLikeness (Sample.Displaced a b) (Event.Displaced a b) where
  finger hp _ := ⟨hp.time_eq, rfl, rfl, (Int.add_zero _).symm⟩
  touch hp _ := ⟨hp.time_eq, rfl, rfl, (Int.add_zero _).symm⟩
  x hp := ⟨hp.time_eq, rfl, rfl, hp.x_eq⟩
  y hp := ⟨hp.time_eq, rfl, rfl, hp.y_eq⟩
  sync _ := ⟨rfl, rfl, rfl, (Int.add_zero _).symm⟩

end Matching

/-! ## A run -/

namespace Tracker

variable {s : Settings}

/-- Contacts that were taken off are absent at both places, and the others are displaced. -/
theorem displaced_of_likeAnswers {r r' : Framed}
    (h : LikeAnswers (Event.Displaced a b) (Contact.Displaced a b) r r') : r.Displaced a b r' := by
  refine ⟨h.events, h.frame.imp fun c d hcd => ?_⟩
  rcases hcd with hcd | ⟨c₀, d₀, hcd, rfl, rfl⟩
  · exact Or.inl hcd
  · exact Or.inr ⟨c₀.isAbsent_consumed, d₀.isAbsent_consumed, hcd.weight_eq⟩

theorem displaced_calls {calls calls' : List Call}
    (hc : List.Forall₂ (Call.Like (Contact.Displaced a b)) calls calls') :
    ∀ {t u : Tracker}, Sound s t → Sound s u → StandAlike (Sample.Displaced a b) s s t u →
      List.Forall₂ (Framed.Displaced a b) (t.answers calls) (u.answers calls') := by
  induction hc with
  | nil => exact fun _ _ _ => .nil
  | cons hone _ ih =>
    intro t u ht hu h
    have hspares := length_spares_eq ht hu h.fingers.length_eq
    obtain ⟨hanswer, hafter⟩ := likeAnswers_call placeLikeness_displaced eventLikeness_displaced rfl
      rfl ht hu h hone fun contacts now _ => by rw [RoomAlike, hspares]
    exact .cons (displaced_of_likeAnswers hanswer)
      (ih (sound_call ht _) (sound_call hu _) hafter)

/-- **The place on the panel does not matter.** If the contacts of one run are those of another
moved by the vector (`a`, `b`), and none is at (0, 0), then a new tracker gives back the same events
with every coordinate moved by this vector, and the same contacts are taken off. -/
theorem displaced_answers {t₀ : Tracker} (h : Tracker.new s = .ok t₀) {calls calls' : List Call}
    (hc : List.Forall₂ (Call.Like (Contact.Displaced a b)) calls calls') :
    List.Forall₂ (Framed.Displaced a b) (t₀.answers calls) (t₀.answers calls') :=
  displaced_calls hc (sound_new h) (sound_new h) (standAlike_new _ h h)

/-- From one end of the panel to the other, with the filter on: a finger that steps from the
smallest coordinate to the next one, and in the other run from -1 to 0. -/
theorem displaced_answers_across :
    ∃ t₀, Tracker.new { filtered := true } = .ok t₀ ∧
      let calls : List Call := [.frame [⟨-2147483648, 9, 1⟩, ⟨-7, -7, 1⟩] .epoch,
        .frame [⟨-9, -40, 1⟩, ⟨-2147480000, 9, 1⟩] (.ofMillis 10), .frame [] (.ofMillis 20)]
      let calls' : List Call := [.frame [⟨-1, -1, 1⟩, ⟨2147483640, -17, 1⟩] .epoch,
        .frame [⟨2147483638, -50, 1⟩, ⟨3647, -1, 1⟩] (.ofMillis 10), .frame [] (.ofMillis 20)]
      List.Forall₂ (Call.Like (Contact.Displaced 2147483647 (-10))) calls calls' ∧
        List.Forall₂ (Framed.Displaced 2147483647 (-10)) (t₀.answers calls)
          (t₀.answers calls') := by
  obtain ⟨t₀, h⟩ : ∃ t₀, Tracker.new { filtered := true } = .ok t₀ := ⟨_, rfl⟩
  refine ⟨t₀, h, ?_⟩
  intro calls calls'
  have hc : List.Forall₂ (Call.Like (Contact.Displaced 2147483647 (-10))) calls calls' := by
    refine .cons (.frame (.cons ?_ (.cons ?_ .nil)) _)
      (.cons (.frame (.cons ?_ (.cons ?_ .nil)) _) (.cons (.frame .nil _) .nil)) <;>
      exact ⟨by decide, by decide, rfl, rfl, rfl⟩
  exact ⟨hc, displaced_answers h hc⟩

end Tracker

end FingerTracking
