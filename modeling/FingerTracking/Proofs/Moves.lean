import FingerTracking.Proofs.Claims
import FingerTracking.Proofs.FingerLife

/-!
# Moving the fingers to their contacts

The first pass over a frame after the claims are made: every finger follows the contact it has
claimed, unless the contact is too light, and the contact is taken off the frame in either case.

> `applyTo_of_perm`: in whatever order the fingers are visited, the entries are mapped by
> `followEntry`, each by its own claim in the frame as it was; the claimed contacts are taken off.

That no contact is claimed twice (`Claims`) is what makes the fingers independent of each other:
a finger finds its contact as it was, whoever moved before.
-/

namespace FingerTracking

open MatchTable

namespace Matching

variable {t : MatchTable} {p : Pool} {h : Handle} {f : Finger} {now : Timestamp}
variable {frame : List Contact}

/-! ## Taking contacts off a frame -/

/-- The frame with the contacts at these indices taken off. -/
def takenOff (js : List Nat) (frame : List Contact) : List Contact :=
  frame.mapIdx fun j c => if j ∈ js then c.consumed else c

@[simp] theorem length_takenOff (js : List Nat) (frame : List Contact) :
    (takenOff js frame).length = frame.length :=
  List.length_mapIdx

/-- Contacts are taken off where they stand, so the indices of the others stay as they are. -/
theorem getElem?_takenOff (js : List Nat) (frame : List Contact) (j : Nat) :
    (takenOff js frame)[j]? = frame[j]?.map fun c => if j ∈ js then c.consumed else c :=
  List.getElem?_mapIdx

/-- A contact that nobody claimed is still there for spawning. -/
theorem getElem?_takenOff_of_notMem {js : List Nat} {j : Nat} (hj : j ∉ js) :
    (takenOff js frame)[j]? = frame[j]? := by
  rw [getElem?_takenOff]
  simp only [if_neg hj, Option.map_id_fun', id_eq]

@[simp] theorem takenOff_nil (frame : List Contact) : takenOff [] frame = frame := by
  apply List.ext_getElem?
  intro j
  exact getElem?_takenOff_of_notMem List.not_mem_nil

/-- It does not matter in which order contacts are taken off. -/
theorem takenOff_congr {js ks : List Nat} (h : ∀ j, j ∈ js ↔ j ∈ ks) (frame : List Contact) :
    takenOff js frame = takenOff ks frame := by
  simp only [takenOff, h]

/-- Taking contacts off in two steps is taking them off at once. -/
theorem takenOff_takenOff (js ks : List Nat) (frame : List Contact) :
    takenOff ks (takenOff js frame) = takenOff (js ++ ks) frame := by
  apply List.ext_getElem?
  intro j
  rw [getElem?_takenOff, getElem?_takenOff, getElem?_takenOff, Option.map_map]
  congr 1
  funext c
  by_cases hj : j ∈ js <;> by_cases hk : j ∈ ks <;> simp [hj, hk, Contact.consumed]

/-- What one claim does to the frame. -/
theorem set_consumed_eq_takenOff {j : Nat} {c : Contact} (hc : frame[j]? = some c) :
    frame.set j c.consumed = takenOff [j] frame := by
  apply List.ext_getElem?
  intro i
  rw [getElem?_takenOff, List.getElem?_set]
  by_cases hij : j = i
  · subst hij
    obtain ⟨hlt, rfl⟩ := List.getElem?_eq_some_iff.mp hc
    simp [hlt]
  · simp [hij, Ne.symm hij]

/-- A claim on a contact outside of the frame takes nothing off. -/
theorem takenOff_singleton_of_none {j : Nat} (hj : frame[j]? = none) :
    takenOff [j] frame = frame := by
  apply List.ext_getElem?
  intro i
  rw [getElem?_takenOff]
  by_cases hij : i = j
  · subst hij
    rw [hj]
    rfl
  · simp [hij]

/-! ## Moving the fingers -/

/-- Half of a negative weight is rounded toward zero. -/
theorem follows_iff {c : Contact} : follows f c = true ↔ f.weight.toInt.tdiv 2 ≤ c.weight.toInt :=
  decide_eq_true_iff

/-- A finger after its claim, if it has one, is carried out. -/
def follow (frame : List Contact) (now : Timestamp) (claim : Option Nat) (f : Finger) : Finger :=
  match claim.bind fun j => frame[j]? with
  | some c => if follows f c then moved f c now else f
  | none => f

/-- A finger with a claim follows it or stays as it is. -/
theorem follow_some {j : Nat} {c : Contact} (hc : frame[j]? = some c) (now : Timestamp)
    (f : Finger) :
    follow frame now (some j) f = if follows f c then moved f c now else f := by
  simp [follow, hc]

/-- No finger changes its id while it is down. -/
@[simp] theorem id_follow (frame : List Contact) (now : Timestamp) (claim : Option Nat)
    (f : Finger) : (follow frame now claim f).id = f.id := by
  unfold follow
  split
  · split <;> rfl
  · rfl

/-- Moving is no change of phase: that is left to the step. -/
@[simp] theorem phase_follow (frame : List Contact) (now : Timestamp) (claim : Option Nat)
    (f : Finger) : (follow frame now claim f).phase = f.phase := by
  unfold follow
  split
  · split <;> rfl
  · rfl

/-- A touching finger keeps touching, with the contact or without it. -/
theorem touching_follow {n : Nat} {b : Bool} (hf : f.Touching n b) (frame : List Contact)
    (now : Timestamp) (claim : Option Nat) : (follow frame now claim f).Touching n b := by
  unfold follow
  split
  · split
    · exact Finger.touching_moved hf _ now
    · exact hf
  · exact hf

/-- A finger only looks at the contact it has claimed. -/
theorem follow_takenOff {js : List Nat} {claim : Option Nat} (hj : ∀ j, claim = some j → j ∉ js)
    (frame : List Contact) (now : Timestamp) (f : Finger) :
    follow (takenOff js frame) now claim f = follow frame now claim f := by
  cases claim with
  | none => rfl
  | some j => simp only [follow, Option.bind_some, getElem?_takenOff_of_notMem (hj j rfl)]

/-- Carrying out one claim writes the finger and takes off the contact. -/
theorem applyOne_eq (hg : p.get? h = some f) (t : MatchTable) (now : Timestamp)
    (frame : List Contact) :
    (applyOne t now p frame h).pool = p.set h (follow frame now (t.claim? h) f) ∧
      (applyOne t now p frame h).frame = takenOff (t.claim? h).toList frame := by
  have hself : p = p.set h f := (Pool.set_eq_self hg).symm
  unfold applyOne claim?
  cases hm : t.get? h with
  | none => exact ⟨hself, (takenOff_nil frame).symm⟩
  | some m =>
    cases m with
    | spawned => exact ⟨hself, (takenOff_nil frame).symm⟩
    | contact j d =>
      cases hc : frame[j]? with
      | none =>
        simp only [hg, hc]
        refine ⟨?_, (takenOff_singleton_of_none hc).symm⟩
        rw [show follow frame now (some j) f = f by simp [follow, hc]]
        exact hself
      | some c =>
        simp only [hg, hc, follow_some hc]
        have hoff := set_consumed_eq_takenOff hc
        by_cases hf : follows f c = true
        · rw [if_pos hf, if_pos hf]
          exact ⟨rfl, hoff⟩
        · rw [if_neg hf, if_neg hf]
          exact ⟨hself, hoff⟩

/-- An entry after its claim is carried out. -/
def followEntry (t : MatchTable) (frame : List Contact) (now : Timestamp) (e : Handle × Finger) :
    Handle × Finger :=
  (e.1, follow frame now (t.claim? e.1) e.2)

@[simp] theorem fst_followEntry (t : MatchTable) (frame : List Contact) (now : Timestamp)
    (e : Handle × Finger) : (followEntry t frame now e).1 = e.1 := rfl

/-- Carrying out the claims of some of the active fingers, in any order. No finger sees that the
contacts of the others are gone already, since no contact is claimed twice. -/
theorem applyTo_spec {hs : List Handle} {n : Nat} (ht : SoleClaims hs n t) (now : Timestamp) :
    ∀ (todo : List Handle) (frame : List Contact) {p : Pool}, p.Shaped → todo.Nodup →
      (∀ h ∈ todo, h ∈ p.handles) →
      (applyTo t now p frame todo).pool.Shaped ∧
      (applyTo t now p frame todo).pool.capacity = p.capacity ∧
      (applyTo t now p frame todo).pool.entries =
        p.entries.map (fun e => if e.1 ∈ todo then followEntry t frame now e else e) ∧
      (applyTo t now p frame todo).pool.spares = p.spares ∧
      (applyTo t now p frame todo).frame = takenOff (todo.filterMap t.claim?) frame := by
  -- the frame changes with every claim that is carried out, but only where no later finger looks
  intro todo
  induction todo with
  | nil => exact fun frame p hp _ _ => ⟨hp, rfl, by simp [applyTo], rfl, (takenOff_nil _).symm⟩
  | cons h todo ih =>
    intro frame p hp hnodup hmem
    obtain ⟨hh, hnodup⟩ := List.nodup_cons.mp hnodup
    obtain ⟨f, hf⟩ := Pool.mem_handles_iff.mp (hmem h (List.mem_cons_self ..))
    have hg := (Pool.get?_eq_some_iff hp).mpr hf
    obtain ⟨hpool, hframe⟩ := applyOne_eq hg t now frame
    have hshaped : (applyOne t now p frame h).pool.Shaped := hpool ▸ Pool.shaped_set hp _ _
    have hhandles : (applyOne t now p frame h).pool.handles = p.handles := by
      rw [hpool, Pool.handles_eq, Pool.entries_set hp, List.map_map, Pool.handles_eq]
      rfl
    obtain ⟨hq, hcap, hent, hspare, hfr⟩ := ih (applyOne t now p frame h).frame hshaped hnodup
      fun k hk => hhandles ▸ hmem k (List.mem_cons_of_mem _ hk)
    refine ⟨hq, hcap.trans ?_, hent.trans ?_, hspare.trans ?_, hfr.trans ?_⟩
    · rw [hpool, Pool.capacity_set]
    · rw [hpool, Pool.entries_set hp, List.map_map]
      apply List.map_congr_left
      intro e he
      by_cases heh : e.1 = h
      · -- the finger that has moved is not moved again
        have hef : e.2 = f := Option.some_inj.mp
          (((Pool.get?_eq_some_iff hp).mpr (heh ▸ he)).symm.trans hg)
        simp only [Function.comp_apply, heh, hh, List.mem_cons, if_true, if_false, true_or]
        rw [followEntry, heh, hef]
      · simp only [Function.comp_apply, heh, List.mem_cons, if_false, false_or]
        split
        next hk =>
          rw [followEntry, followEntry, hframe, follow_takenOff]
          intro j hj hjh
          exact heh (ht.sole _ _ j hj (Option.mem_toList.mp hjh))
        next => rfl
    · rw [hpool, Pool.spares_set hp]
    · rw [hframe, takenOff_takenOff]
      cases hc : t.claim? h <;> simp [hc]

/-- Nobody goes by moving. -/
theorem handles_applyTo {hs todo : List Handle} {n : Nat} (hp : p.Shaped) (ht : SoleClaims hs n t)
    (hnodup : todo.Nodup) (hmem : ∀ h ∈ todo, h ∈ p.handles) (frame : List Contact)
    (now : Timestamp) : (applyTo t now p frame todo).pool.handles = p.handles := by
  obtain ⟨-, -, hent, -, -⟩ := applyTo_spec ht now todo frame hp hnodup hmem
  rw [Pool.handles_eq, hent, List.map_map, Pool.handles_eq]
  apply List.map_congr_left
  intro e _
  rw [Function.comp_apply]
  split <;> rfl

/-- Carrying out all claims, in any order. -/
theorem applyTo_of_perm {n : Nat} {hs : List Handle} (hp : p.Shaped)
    (ht : SoleClaims p.handles n t) (hperm : hs.Perm p.handles) (frame : List Contact)
    (now : Timestamp) :
    (applyTo t now p frame hs).pool.Shaped ∧
    (applyTo t now p frame hs).pool.capacity = p.capacity ∧
    (applyTo t now p frame hs).pool.entries = p.entries.map (followEntry t frame now) ∧
    (applyTo t now p frame hs).pool.spares = p.spares ∧
    (applyTo t now p frame hs).frame =
      takenOff (p.entries.filterMap fun e => t.claim? e.1) frame := by
  obtain ⟨hs', hcap, hent, hspare, hframe⟩ := applyTo_spec ht now hs frame hp
    (hperm.nodup_iff.mpr (Pool.nodup_handles hp)) fun _ hh => hperm.mem_iff.mp hh
  refine ⟨hs', hcap, hent.trans ?_, hspare, hframe.trans ?_⟩
  · apply List.map_congr_left
    intro e he
    rw [if_pos (hperm.mem_iff.mpr (Pool.mem_handles_iff.mpr ⟨e.2, he⟩))]
  · apply takenOff_congr
    intro j
    rw [(hperm.filterMap t.claim?).mem_iff, Pool.handles_eq, List.filterMap_map]
    rfl

end Matching

end FingerTracking
