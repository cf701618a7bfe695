import FingerTracking.Proofs.Stability

/-!
# Contacts that come later leave no finger without a claim

A finger is lost to a later contact only, and only if that one is nearer. So no matter what comes
behind a frame, whoever is claimed by its contacts alone is claimed in the longer frame too: by the
same contact, or by one of those behind and from nearer (`Outbid`). No finger is left over by a
chain of contacts that take one another's finger away.

> `get?_append_cases`: who is claimed in a frame is claimed by the same contact of the longer one,
> or from nearer by a contact behind.
>
> `isMatched_assign`: some finger is claimed as soon as there is a contact and a finger with
> samples.
>
> `extended_assign`: both, and how many fingers are claimed at most.
-/

namespace FingerTracking

namespace Matching

open MatchTable

variable {p : Pool} {g : Handle} {d e : Int} {i j : Nat} {frame more : List Contact}

theorem lt_of_get? (hg : (assign p frame).get? g = some (.contact j d)) : j < frame.length :=
  ((assign_sole p frame).mem_of_claim? (claim?_eq_some_iff.mpr ⟨d, hg⟩)).2

/-- A claim stands in the longer frame, or a contact behind has claimed the finger from nearer. -/
theorem get?_append_cases (hp : p.Shaped) (more : List Contact)
    (hg : (assign p frame).get? g = some (.contact j d)) :
    (assign p (frame ++ more)).get? g = some (.contact j d) ∨
      ∃ i e, (assign p (frame ++ more)).get? g = some (.contact i e) ∧
        frame.length ≤ i ∧ e < d := by
  have hlater := outbid_assignFrom hp more (size_assign p frame) (assign_sole p frame)
  rw [← assign_append] at hlater
  exact hlater g j d hg

/-- A claim of the longer frame on a contact that is not behind stood without those behind. -/
theorem get?_of_append (hg : (assign p (frame ++ more)).get? g = some (.contact i e))
    (hi : i < frame.length) : (assign p frame).get? g = some (.contact i e) := by
  rw [assign_append] at hg
  exact get?_of_assignFrom more hi hg

/-- If there is a contact and a finger with samples, some finger is claimed. -/
theorem isMatched_assign (hp : p.Shaped) (hne : frame ≠ [])
    (hsome : ∃ x ∈ p.fingers, x.trail.isEmpty = false) :
    ∃ g ∈ p.handles, (assign p frame).isMatched g = true := by
  obtain ⟨c, rest, rfl⟩ := List.exists_cons_of_ne_nil hne
  obtain ⟨x, hx, hxne⟩ := hsome
  have hsole := assign_sole p (c :: rest)
  -- the first contact has a finger, or there is one that is claimed from as near
  obtain ⟨g, j, hj⟩ : ∃ g j, (assign p (c :: rest)).claim? g = some j := by
    by_cases hfirst : ∃ g, (assign p (c :: rest)).claim? g = some 0
    · obtain ⟨g, hg⟩ := hfirst
      exact ⟨g, 0, hg⟩
    · obtain ⟨g, d, -, ⟨j, e, hg, -⟩, -⟩ := unclaimed_of_assign hp (exists_distanceTo? hx hxne c)
        (List.getElem?_cons_zero) (not_exists.mp hfirst)
      exact ⟨g, j, claim?_eq_some_iff.mpr ⟨e, hg⟩⟩
  exact ⟨g, (hsole.mem_of_claim? hj).1, hsole.isMatched_iff.mpr ⟨j, hj⟩⟩

theorem length_matched_le (hp : p.Shaped) (frame : List Contact) :
    (p.handles.filter (assign p frame).isMatched).length ≤ min frame.length p.active.length := by
  have hcontacts := (assign_sole p frame).length_matched_le (Pool.nodup_handles hp)
  have hfingers : p.handles.length = p.active.length := by
    rw [Pool.handles_eq, List.length_map, Pool.length_entries hp]
  exact le_min hcontacts (hfingers ▸ List.length_filter_le ..)

/-- What becomes of the claims of a frame when it is extended by contacts behind, and how many there
are. -/
structure Extended (p : Pool) (frame more : List Contact) : Prop where
  /-- Every entry is an active finger's claim on a contact of the frame. -/
  sole : SoleClaims p.handles frame.length (assign p frame)
  /-- A finger that is claimed stays claimed: from nearer by another contact, and from the same
  distance by the same. -/
  kept : ∀ g j d, (assign p frame).get? g = some (.contact j d) →
    ∃ i e, (assign p (frame ++ more)).get? g = some (.contact i e) ∧
      (i = j ∧ e = d ∨ i ≠ j ∧ e < d)
  /-- The contact that has claimed a finger is the one that had claimed it, or one of those
  behind. -/
  source : ∀ g i e, (assign p (frame ++ more)).get? g = some (.contact i e) →
    (assign p frame).get? g = some (.contact i e) ∨
      frame.length ≤ i ∧ i < frame.length + more.length
  /-- If there is a contact and a finger with samples, some finger is claimed. -/
  some_claimed : frame ≠ [] → (∃ x ∈ p.fingers, x.trail.isEmpty = false) →
    ∃ g ∈ p.handles, (assign p frame).isMatched g = true
  /-- No more fingers are claimed than there are contacts, or fingers. -/
  length_le : (p.handles.filter (assign p frame).isMatched).length ≤
    min frame.length p.active.length

theorem extended_of_shaped (hp : p.Shaped) (frame more : List Contact) : Extended p frame more where
  sole := assign_sole p frame
  kept := by
    intro g j d hg
    rcases get?_append_cases hp more hg with hstands | ⟨i, e, hlost, hi, he⟩
    · exact ⟨j, d, hstands, Or.inl ⟨rfl, rfl⟩⟩
    · have hj := lt_of_get? hg
      exact ⟨i, e, hlost, Or.inr ⟨by omega, he⟩⟩
  source := by
    intro g i e hg
    rcases Nat.lt_or_ge i frame.length with hi | hi
    · exact Or.inl (get?_of_append hg hi)
    · exact Or.inr ⟨hi, List.length_append ▸ lt_of_get? hg⟩
  some_claimed := isMatched_assign hp
  length_le := length_matched_le hp frame

/-- **Contacts that come later leave no finger without a claim.** However a new pool has been used,
and whatever contacts come behind a frame: who is claimed in the frame is claimed in the longer one,
from nearer if by another contact, and that is one of those behind. -/
theorem extended_assign {s : Settings} (h : Pool.new s = .ok p) (us : List Pool.Use)
    (frame more : List Contact) : Extended (p.afterUses us) frame more :=
  extended_of_shaped (Pool.kept_afterUses h us).shaped frame more

/-- Two fingers at (10, 10) and (30, 10). The first one is taken from the contact it has by the
first of two contacts behind; the other one is then claimed too. -/
theorem extended_assign_by_two :
    ∃ p, Pool.new {} = .ok p ∧
      let put (x : Int32) (f : Finger) : Finger :=
        { f with trail := f.trail.push x 10 Timestamp.epoch }
      let q := p.afterUses [.take, .take, .edit ⟨0, 1⟩ (put 10), .edit ⟨1, 1⟩ (put 30)]
      let frame : List Contact := [⟨12, 10, 1⟩]
      let more : List Contact := [⟨11, 10, 1⟩, ⟨29, 10, 1⟩]
      (assign q frame).get? ⟨0, 1⟩ = some (.contact 0 4) ∧ (assign q frame).get? ⟨1, 1⟩ = none ∧
        (assign q (frame ++ more)).get? ⟨0, 1⟩ = some (.contact 1 1) ∧
        (assign q (frame ++ more)).get? ⟨1, 1⟩ = some (.contact 2 1) ∧ Extended q frame more := by
  have h : Pool.new {} = .ok (Pool.ofTrail 2 (Trail.empty 6 false)) := rfl
  refine ⟨_, h, ?_⟩
  intro put q frame more
  exact ⟨by decide +kernel, by decide +kernel, by decide +kernel, by decide +kernel,
    extended_assign h _ frame more⟩

end Matching

end FingerTracking
