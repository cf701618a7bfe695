import FingerTracking.Matching
import Mathlib.Data.List.Nodup
import Mathlib.Data.List.Perm.Subperm
import Mathlib.Tactic.Choose

/-!
# Claims: no contact is claimed twice

The table that `assign` leaves holds claims only, each by an active finger on a contact of the
frame. Two fingers never claim the same contact, although a finger can be taken away from the
contact it had: a contact claims once, at its turn, and the claim it displaces is gone with it.

> `foremost_nearest?`: at its turn a contact finds the first of the nearest fingers that it can
> claim.
>
> `assign_sole`: `SoleClaims p.handles frame.length (assign p frame)`.
-/

namespace FingerTracking

/-- If everything in a list has an index below `n` that nothing else has, there are no more than
`n`. -/
theorem length_le_of_sole_index {α : Type} {l : List α} {n : Nat} {R : α → Nat → Prop}
    (hl : l.Nodup) (hR : ∀ a ∈ l, ∃ j < n, R a j) (hsole : ∀ a b j, R a j → R b j → a = b) :
    l.length ≤ n := by
  choose! f hlt hf using hR
  have hnodup : (l.map f).Nodup := by
    refine List.Nodup.map_on ?_ hl
    intro a ha b hb heq
    exact hsole a b (f a) (hf a ha) (heq ▸ hf b hb)
  have hsub : l.map f ⊆ List.range n := by
    intro j hj
    obtain ⟨a, ha, rfl⟩ := List.mem_map.mp hj
    exact List.mem_range.mpr (hlt a ha)
  have hle := (hnodup.subperm hsub).length_le
  rwa [List.length_map, List.length_range] at hle

namespace MatchTable

variable {t : MatchTable} {h k : Handle} {m m' : Match} {hs : List Handle} {n : Nat}

/-! ## Reading what was written -/

@[simp] theorem get?_empty (n : Nat) (h : Handle) : (empty n).get? h = none := by
  unfold get? empty
  rw [Array.getElem?_replicate]
  split
  next hh =>
    split at hh
    · exact absurd (Option.some_inj.mp hh) (by simp)
    · exact absurd hh (by simp)
  next => rfl

@[simp] theorem size_set (t : MatchTable) (h : Handle) (m : Match) :
    (t.set h m).entries.size = t.entries.size :=
  Array.size_setIfInBounds

/-- An entry is good for the handle that it was written with. An older handle of the slot loses
it. -/
theorem get?_set_same_slot (hb : h.index < t.entries.size) (hk : k.index = h.index) (m : Match) :
    (t.set h m).get? k = if h = k then some m else none := by
  have hget : (t.set h m).entries[k.index]? = some (some (h, m)) := by
    rw [set, Array.getElem?_setIfInBounds, if_pos hk.symm, if_pos hb]
  rw [get?, hget]

theorem get?_set_self (hb : h.index < t.entries.size) (m : Match) :
    (t.set h m).get? h = some m := by
  rw [get?_set_same_slot hb rfl, if_pos rfl]

/-- The entries of other slots are not touched. -/
theorem get?_set_of_index_ne (hk : k.index ≠ h.index) (m : Match) :
    (t.set h m).get? k = t.get? k := by
  have hget : (t.set h m).entries[k.index]? = t.entries[k.index]? := by
    rw [set, Array.getElem?_setIfInBounds, if_neg fun he => hk he.symm]
  rw [get?, get?, hget]

/-- What is read after a write was written by it or stood there before. -/
theorem get?_set_cases (hg : (t.set h m).get? k = some m') :
    k = h ∧ m' = m ∨ k ≠ h ∧ t.get? k = some m' := by
  by_cases hix : k.index = h.index
  · by_cases hb : h.index < t.entries.size
    · rw [get?_set_same_slot hb hix] at hg
      split at hg
      next hhk => exact Or.inl ⟨hhk.symm, (Option.some_inj.mp hg).symm⟩
      next => exact absurd hg (by simp)
    · have hset : t.set h m = t := by
        rw [set, Array.setIfInBounds, dif_neg hb]
      have hnone : t.entries[k.index]? = none := Array.getElem?_eq_none (by omega)
      rw [hset, get?, hnone] at hg
      exact absurd hg (by simp)
  · rw [get?_set_of_index_ne hix] at hg
    exact Or.inr ⟨fun he => hix (congrArg Handle.index he), hg⟩

/-! ## Claims -/

/-- The index of the contact that a finger has claimed. -/
def claim? (t : MatchTable) (h : Handle) : Option Nat :=
  match t.get? h with
  | some (.contact j _) => some j
  | _ => none

theorem claim?_eq_some_iff {j : Nat} :
    t.claim? h = some j ↔ ∃ d, t.get? h = some (.contact j d) := by
  unfold claim?
  split
  next i d hg => simp [hg]
  next hg =>
    constructor
    · intro heq
      cases heq
    · intro ⟨d, hd⟩
      exact absurd hd (hg j d)

/-- Every entry is a claim by one of the fingers `hs` on one of the first `n` contacts, and a
contact is claimed once at most. -/
structure SoleClaims (hs : List Handle) (n : Nat) (t : MatchTable) : Prop where
  claims : ∀ h m, t.get? h = some m → h ∈ hs ∧ ∃ j d, m = .contact j d ∧ j < n
  sole : ∀ h k j, t.claim? h = some j → t.claim? k = some j → h = k

/-- No claims have been made on an empty table. -/
theorem soleClaims_empty (hs : List Handle) (c : Nat) : SoleClaims hs 0 (empty c) := by
  refine ⟨?_, ?_⟩
  · intro h m hm
    simp at hm
  · intro h k j hj
    simp [claim?] at hj

namespace SoleClaims

theorem mono {n' : Nat} (ht : SoleClaims hs n t) (hn : n ≤ n') : SoleClaims hs n' t := by
  refine ⟨?_, ht.sole⟩
  intro h m hm
  obtain ⟨hh, j, d, hj, hjn⟩ := ht.claims h m hm
  exact ⟨hh, j, d, hj, Nat.lt_of_lt_of_le hjn hn⟩

/-- A claim is that of a finger of the list, on a contact that has had its turn. -/
theorem mem_of_claim? (ht : SoleClaims hs n t) {j : Nat} (hj : t.claim? h = some j) :
    h ∈ hs ∧ j < n := by
  obtain ⟨d, hd⟩ := claim?_eq_some_iff.mp hj
  obtain ⟨hh, i, e, he, hi⟩ := ht.claims h _ hd
  obtain ⟨rfl, rfl⟩ := Match.contact.inj he
  exact ⟨hh, hi⟩

/-- Before spawning every entry of the table is a claim. -/
theorem isMatched_iff (ht : SoleClaims hs n t) :
    t.isMatched h = true ↔ ∃ j, t.claim? h = some j := by
  rw [isMatched, Option.isSome_iff_exists]
  constructor
  · intro ⟨m, hm⟩
    obtain ⟨-, j, d, rfl, -⟩ := ht.claims h m hm
    exact ⟨j, claim?_eq_some_iff.mpr ⟨d, hm⟩⟩
  · intro ⟨j, hj⟩
    obtain ⟨d, hd⟩ := claim?_eq_some_iff.mp hj
    exact ⟨_, hd⟩

/-- A claim on the next contact keeps claims sole: nobody can have claimed it before. -/
theorem set_next (ht : SoleClaims hs n t) (hh : h ∈ hs) (d : Int) :
    SoleClaims hs (n + 1) (t.set h (.contact n d)) := by
  -- a claim in the new table is the one just written, or an old one of another finger
  have hold : ∀ {k j}, (t.set h (.contact n d)).claim? k = some j →
      k = h ∧ j = n ∨ k ≠ h ∧ t.claim? k = some j := by
    intro k j hj
    obtain ⟨e, he⟩ := claim?_eq_some_iff.mp hj
    rcases get?_set_cases he with ⟨hk, hm⟩ | ⟨hk, hm⟩
    · exact Or.inl ⟨hk, (Match.contact.inj hm).1⟩
    · exact Or.inr ⟨hk, claim?_eq_some_iff.mpr ⟨e, hm⟩⟩
  refine ⟨?_, ?_⟩
  · intro k m hm
    rcases get?_set_cases hm with ⟨rfl, rfl⟩ | ⟨-, hm⟩
    · exact ⟨hh, n, d, rfl, Nat.lt_succ_self n⟩
    · exact (ht.mono (Nat.le_succ n)).claims k m hm
  · intro k l j hk hl
    rcases hold hk with ⟨hkh, hkj⟩ | ⟨-, hk⟩ <;> rcases hold hl with ⟨hlh, hlj⟩ | ⟨-, hl⟩
    · exact hkh.trans hlh.symm
    · exact absurd (ht.mem_of_claim? hl).2 (hkj ▸ Nat.lt_irrefl _)
    · exact absurd (ht.mem_of_claim? hk).2 (hlj ▸ Nat.lt_irrefl _)
    · exact ht.sole k l j hk hl

/-- No more fingers are claimed than there are contacts. -/
theorem length_matched_le (ht : SoleClaims hs n t) (hnodup : hs.Nodup) :
    (hs.filter t.isMatched).length ≤ n := by
  apply length_le_of_sole_index (hnodup.filter _) (R := fun h j => t.claim? h = some j)
  · intro h hh
    obtain ⟨j, hj⟩ := ht.isMatched_iff.mp (List.mem_filter.mp hh).2
    exact ⟨j, (ht.mem_of_claim? hj).2, hj⟩
  · exact ht.sole

end SoleClaims

end MatchTable

namespace Matching

open MatchTable

variable {p : Pool} {t : MatchTable} {c : Contact} {g h : Handle} {d : Int} {n : Nat}
variable {hs : List Handle}

/-! ## The search for a finger -/

/-- The finger is at the distance `d` from the contact and can be claimed from there. -/
def CanClaim (p : Pool) (t : MatchTable) (c : Contact) (h : Handle) (d : Int) : Prop :=
  distanceTo? p c h = some d ∧ claimable t h d = true

/-- The best of the fingers `hs`: none of them is nearer, and none before it as near. -/
def Foremost (p : Pool) (t : MatchTable) (c : Contact) (hs : List Handle) :
    Option (Handle × Int) → Prop
  | none => ∀ k ∈ hs, ∀ e, ¬ CanClaim p t c k e
  | some (h, d) =>
    CanClaim p t c h d ∧ ∃ before after, hs = before ++ h :: after ∧
      (∀ k ∈ before, ∀ e, CanClaim p t c k e → d < e) ∧
      ∀ k ∈ after, ∀ e, CanClaim p t c k e → d ≤ e

/-- A finger that nobody has claimed can be claimed from any distance. -/
theorem canClaim_of_none (hd : distanceTo? p c h = some d) (hnone : t.get? h = none) :
    CanClaim p t c h d := by
  refine ⟨hd, ?_⟩
  rw [claimable, distance?, hnone]

/-- A finger that can be claimed is compared with the best one so far. -/
theorem better_of_canClaim (hc : CanClaim p t c h d) (best : Option (Handle × Int)) :
    better p t c best h =
      match best with
      | none => some (h, d)
      | some (_, least) => if d < least then some (h, d) else best := by
  rw [better, hc.1]
  exact if_pos hc.2

/-- A finger that cannot be claimed is passed over. -/
theorem better_of_not_canClaim (hc : ∀ e, ¬ CanClaim p t c h e) (best : Option (Handle × Int)) :
    better p t c best h = best := by
  unfold better
  split
  next => rfl
  next d hd => exact if_neg fun hcl => hc d ⟨hd, hcl⟩

/-- A finger that cannot be claimed does not count. -/
theorem Foremost.skip {best : Option (Handle × Int)} (hb : Foremost p t c hs best)
    (hc : ∀ e, ¬ CanClaim p t c h e) : Foremost p t c (hs ++ [h]) best := by
  cases best with
  | none =>
    intro k hk
    rcases List.mem_append.mp hk with hk | hk
    · exact hb k hk
    · exact List.mem_singleton.mp hk ▸ hc
  | some x =>
    obtain ⟨hcan, before, after, rfl, hbefore, hafter⟩ := hb
    refine ⟨hcan, before, after ++ [h], List.append_assoc .., hbefore, ?_⟩
    intro k hk e hke
    rcases List.mem_append.mp hk with hk | hk
    · exact hafter k hk e hke
    · exact absurd (List.mem_singleton.mp hk ▸ hke) (hc e)

/-- A finger takes the place of the best so far if it is nearer. -/
theorem foremost_better {best : Option (Handle × Int)} (hb : Foremost p t c hs best)
    (h : Handle) : Foremost p t c (hs ++ [h]) (better p t c best h) := by
  by_cases hcan : ∃ d, CanClaim p t c h d
  · obtain ⟨d, hd⟩ := hcan
    -- there is only one distance from which the contact could claim it
    have hsole : ∀ e, CanClaim p t c h e → e = d := fun e he =>
      Option.some_inj.mp (he.1.symm.trans hd.1)
    rw [better_of_canClaim hd]
    cases best with
    | none => exact ⟨hd, hs, [], rfl, fun k hk e he => absurd he (hb k hk e), fun k hk => nomatch hk⟩
    | some x =>
      obtain ⟨g, least⟩ := x
      obtain ⟨hg, before, after, rfl, hbefore, hafter⟩ := hb
      dsimp only
      split
      next hlt =>
        refine ⟨hd, before ++ g :: after, [], rfl, ?_, fun k hk => nomatch hk⟩
        intro k hk e he
        rcases List.mem_append.mp hk with hk | hk
        · exact Int.lt_trans hlt (hbefore k hk e he)
        · rcases List.mem_cons.mp hk with rfl | hk
          · exact Option.some_inj.mp (he.1.symm.trans hg.1) ▸ hlt
          · exact Int.lt_of_lt_of_le hlt (hafter k hk e he)
      next hle =>
        refine ⟨hg, before, after ++ [h], List.append_assoc .., hbefore, ?_⟩
        intro k hk e he
        rcases List.mem_append.mp hk with hk | hk
        · exact hafter k hk e he
        · obtain rfl := List.mem_singleton.mp hk
          exact hsole e he ▸ Int.not_lt.mp hle
  · have hno : ∀ e, ¬ CanClaim p t c h e := fun e he => hcan ⟨e, he⟩
    rw [better_of_not_canClaim hno]
    exact hb.skip hno

/-- The search keeps the foremost of the fingers that it has seen. The induction is on those still
to come. -/
theorem foremost_foldl :
    ∀ (todo done : List Handle) {best : Option (Handle × Int)}, Foremost p t c done best →
      Foremost p t c (done ++ todo) (todo.foldl (better p t c) best)
  | [], done, _, hb => (List.append_nil done).symm ▸ hb
  | h :: todo, done, _, hb => by
    have hrest := foremost_foldl todo (done ++ [h]) (foremost_better hb h)
    rwa [List.append_assoc] at hrest

/-- A contact finds the first of the nearest fingers that it can claim. -/
theorem foremost_nearest? (p : Pool) (t : MatchTable) (c : Contact) :
    Foremost p t c p.handles (nearest? p t c) :=
  foremost_foldl p.handles [] fun _ hk => nomatch hk

/-- What is found can be claimed. -/
theorem canClaim_of_nearest? (hn : nearest? p t c = some (g, d)) : CanClaim p t c g d := by
  have hbest := foremost_nearest? p t c
  rw [hn] at hbest
  exact hbest.1

/-- The nearest finger is one of the pool's. -/
theorem nearest?_mem (hn : nearest? p t c = some (h, d)) : h ∈ p.handles := by
  have hbest := foremost_nearest? p t c
  rw [hn] at hbest
  obtain ⟨-, before, after, hsplit, -⟩ := hbest
  rw [hsplit]
  exact List.mem_append_right _ (List.mem_cons_self ..)

/-- A contact finds nothing among fingers that it cannot claim. -/
theorem nearest?_of_none (hnone : ∀ k ∈ p.handles, ∀ e, ¬ CanClaim p t c k e) :
    nearest? p t c = none := by
  rw [Option.eq_none_iff_forall_ne_some]
  intro x hx
  exact hnone x.1 (nearest?_mem hx) x.2 (canClaim_of_nearest? hx)

/-- A contact finds the first finger if it can claim it and no other one is nearer. -/
theorem nearest?_of_first (hh : p.handles = h :: hs) (hcan : CanClaim p t c h d)
    (hle : ∀ k ∈ hs, ∀ e, CanClaim p t c k e → d ≤ e) : nearest? p t c = some (h, d) := by
  have hbest := foremost_nearest? p t c
  cases hn : nearest? p t c with
  | none =>
    rw [hn] at hbest
    exact absurd hcan (hbest h (hh ▸ List.mem_cons_self ..) d)
  | some x =>
    obtain ⟨g, e⟩ := x
    rw [hn] at hbest
    obtain ⟨hg, before, after, hsplit, hbefore, -⟩ := hbest
    rw [hh] at hsplit
    cases before with
    | nil =>
      obtain ⟨rfl, -⟩ := List.cons.inj hsplit
      rw [Option.some_inj.mp (hg.1.symm.trans hcan.1)]
    | cons k before =>
      obtain ⟨rfl, rfl⟩ := List.cons.inj hsplit
      have hlt := hbefore h (List.mem_cons_self ..) d hcan
      have hge := hle g (List.mem_append_right _ (List.mem_cons_self ..)) e hg
      exact absurd hlt (Int.not_lt.mpr hge)

/-- A contact that takes a finger from an earlier one leaves that without a claim, so a finger still
has one claim, and a contact one finger. -/
theorem claim_sole (ht : SoleClaims p.handles n t) (c : Contact) :
    SoleClaims p.handles (n + 1) (claim p t n c) := by
  unfold claim
  split
  next h d hn => exact ht.set_next (nearest?_mem hn) d
  next => exact ht.mono (Nat.le_succ n)

/-- So it is after the turns of any contacts. -/
theorem assignFrom_sole :
    ∀ (cs : List Contact) {n : Nat} {t : MatchTable}, SoleClaims p.handles n t →
      SoleClaims p.handles (n + cs.length) (assignFrom p n cs t)
  | [], _, _, ht => ht
  | c :: cs, n, t, ht => by
    have hrest := assignFrom_sole cs (claim_sole ht c)
    rwa [Nat.add_right_comm] at hrest

/-- No contact is claimed twice, and only active fingers claim. -/
theorem assign_sole (p : Pool) (frame : List Contact) :
    SoleClaims p.handles frame.length (assign p frame) := by
  have h := assignFrom_sole frame (soleClaims_empty p.handles p.capacity)
  rwa [Nat.zero_add] at h

@[simp] theorem size_claim (p : Pool) (t : MatchTable) (j : Nat) (c : Contact) :
    (claim p t j c).entries.size = t.entries.size := by
  unfold claim
  split
  · exact size_set ..
  · rfl

theorem size_assignFrom (p : Pool) :
    ∀ (cs : List Contact) (n : Nat) (t : MatchTable),
      (assignFrom p n cs t).entries.size = t.entries.size
  | [], _, _ => rfl
  | c :: cs, n, t => by rw [assignFrom, size_assignFrom p cs, size_claim]

/-- The table has an entry for each slot, so no claim falls outside. -/
@[simp] theorem size_assign (p : Pool) (frame : List Contact) :
    (assign p frame).entries.size = p.capacity := by
  rw [assign, size_assignFrom, MatchTable.empty, Array.size_replicate]

/-- The turns of some contacts, and then those of the others. -/
theorem assignFrom_append (p : Pool) (ys : List Contact) :
    ∀ (xs : List Contact) (j : Nat) (t : MatchTable),
      assignFrom p j (xs ++ ys) t = assignFrom p (j + xs.length) ys (assignFrom p j xs t)
  | [], _, _ => rfl
  | c :: xs, j, t => by
    rw [List.cons_append, assignFrom, assignFrom_append p ys xs, List.length_cons,
      Nat.add_right_comm]
    rfl

/-- Later contacts claim on top of what the earlier ones have claimed. -/
theorem assign_append (p : Pool) (xs ys : List Contact) :
    assign p (xs ++ ys) = assignFrom p xs.length ys (assign p xs) := by
  rw [assign, assignFrom_append, Nat.zero_add]
  rfl

end Matching

end FingerTracking
