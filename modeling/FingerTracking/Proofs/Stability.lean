import FingerTracking.Proofs.Claims
import FingerTracking.Proofs.Turnover

/-!
# Claims are stable, but for fingers that were lost

The contacts of a frame claim one after the other, each the nearest finger that it can have
(`foremost_nearest?`), and a contact whose finger is taken away later does not look for another one.
So the claims of a frame are not the best there could be; what they are is told by two facts:

> `claimedWithin_of_some`: a finger that a contact would rather have had than the one it finds is
> claimed from as near.
>
> `outbid_assignFrom`: a claim stands, or a later contact has claimed the finger from nearer.

So whatever finger a contact would rather have had was claimed at its turn, and still is:

> `stable_assign`: no finger is nearer to a contact than the one it has claimed, and free for it. A
> contact and a finger that both do worse than with each other (`Blocks`) come from a finger that the
> contact has lost.
-/

namespace FingerTracking

namespace Pool

variable {p : Pool} {f g : Handle} {xs ys : List Handle}

/-- `f` comes before `g` in the order of the active fingers. -/
def Before (p : Pool) (f g : Handle) : Prop :=
  p.handles.idxOf f < p.handles.idxOf g

instance (p : Pool) (f g : Handle) : Decidable (p.Before f g) :=
  inferInstanceAs (Decidable (_ < _))

theorem idxOf_le_of_handles (hs : p.handles = xs ++ g :: ys) : p.handles.idxOf g ≤ xs.length := by
  rw [hs]
  by_cases hg : g ∈ xs
  · rw [List.idxOf_append_of_mem hg]
    exact List.idxOf_le_length
  · rw [List.idxOf_append_of_notMem hg, List.idxOf_cons_self]
    exact Nat.le_refl _

/-- A finger stands before everything that is found behind it. -/
theorem before_of_handles (hs : p.handles = xs ++ g :: ys) (hf : f ∉ xs) (hne : f ≠ g) :
    p.Before g f := by
  have hle := idxOf_le_of_handles hs
  rw [Before, hs, List.idxOf_append_of_notMem hf, List.idxOf_cons_ne _ hne.symm]
  rw [hs] at hle
  omega

theorem Before.mem_of_handles (hfg : p.Before f g) (hs : p.handles = xs ++ g :: ys) : f ∈ xs := by
  by_contra hf
  have hle := idxOf_le_of_handles hs
  have hlt : p.handles.idxOf f < p.handles.idxOf g := hfg
  rw [hs, List.idxOf_append_of_notMem hf] at hlt
  rw [hs] at hle
  omega

end Pool

namespace MatchTable

variable {t u v : MatchTable} {h : Handle} {d : Int} {n m : Nat}

/-! ## Claims stand or are outbid -/

/-- The finger is claimed, from `d` or nearer. -/
def ClaimedWithin (t : MatchTable) (h : Handle) (d : Int) : Prop :=
  ∃ j e, t.get? h = some (.contact j e) ∧ e ≤ d

/-- What has become of the claims of `t` when contacts from the `n`-th on have had their turns: each
stands, or one of these contacts has claimed the finger from nearer. -/
def Outbid (n : Nat) (t u : MatchTable) : Prop :=
  ∀ h j d, t.get? h = some (.contact j d) →
    u.get? h = some (.contact j d) ∨ ∃ i e, u.get? h = some (.contact i e) ∧ n ≤ i ∧ e < d

/-- Nobody is outbid while no contact has its turn. -/
theorem Outbid.refl (n : Nat) (t : MatchTable) : Outbid n t t :=
  fun _ _ _ hg => Or.inl hg

/-- Bids get nearer from contact to contact, and never go back. -/
theorem Outbid.trans (h₁ : Outbid n t u) (h₂ : Outbid m u v) (hnm : n ≤ m) : Outbid n t v := by
  intro h j d hg
  rcases h₁ h j d hg with hu | ⟨i, e, hu, hi, he⟩
  · rcases h₂ h j d hu with hv | ⟨k, a, hv, hk, ha⟩
    · exact Or.inl hv
    · exact Or.inr ⟨k, a, hv, Nat.le_trans hnm hk, ha⟩
  · rcases h₂ h i e hu with hv | ⟨k, a, hv, hk, ha⟩
    · exact Or.inr ⟨i, e, hv, hi, he⟩
    · exact Or.inr ⟨k, a, hv, Nat.le_trans hnm hk, Int.lt_trans ha he⟩

/-- A finger that is claimed stays claimed, and from no farther. -/
theorem Outbid.claimedWithin (htu : Outbid n t u) (ht : t.ClaimedWithin h d) :
    u.ClaimedWithin h d := by
  obtain ⟨j, e, hg, he⟩ := ht
  rcases htu h j e hg with hu | ⟨i, a, hu, -, ha⟩
  · exact ⟨j, e, hu, he⟩
  · exact ⟨i, a, hu, Int.le_of_lt (Int.lt_of_lt_of_le ha he)⟩

end MatchTable

namespace Matching

open MatchTable

variable {p : Pool} {t : MatchTable} {c : Contact} {f g h : Handle} {d e : Int} {n j : Nat}
variable {hs : List Handle} {frame : List Contact}

/-! ## What a contact would rather have -/

/-- A finger cannot be claimed from somewhere if it has been claimed from as near. -/
theorem claimable_eq_false_iff : claimable t h d = false ↔ t.ClaimedWithin h d := by
  unfold claimable distance? ClaimedWithin
  cases t.get? h with
  | none => simp
  | some m => cases m <;> simp

/-- So either somebody is as near, or the finger can be claimed. -/
theorem claimedWithin_or_canClaim (hd : distanceTo? p c h = some d) :
    t.ClaimedWithin h d ∨ CanClaim p t c h d := by
  cases hcl : claimable t h d with
  | false => exact Or.inl (claimable_eq_false_iff.mp hcl)
  | true => exact Or.inr ⟨hd, hcl⟩

theorem mem_handles_of_distanceTo? (hp : p.Shaped) (hd : distanceTo? p c h = some d) :
    h ∈ p.handles := by
  obtain ⟨s, hs, -⟩ := Option.map_eq_some_iff.mp hd
  obtain ⟨f, hf, -⟩ := Option.bind_eq_some_iff.mp hs
  exact Pool.mem_handles_iff.mpr ⟨f, (Pool.get?_eq_some_iff hp).mp hf⟩

/-- A contact that finds no finger has each of them claimed from as near. -/
theorem claimedWithin_of_none (hp : p.Shaped) (hn : nearest? p t c = none)
    (hf : distanceTo? p c f = some e) : t.ClaimedWithin f e := by
  have hbest := foremost_nearest? p t c
  rw [hn] at hbest
  rcases claimedWithin_or_canClaim hf with hwithin | hcan
  · exact hwithin
  · exact absurd hcan (hbest f (mem_handles_of_distanceTo? hp hf) e)

/-- A finger that a contact would rather have had than the one it finds is claimed from as near. -/
theorem claimedWithin_of_some (hp : p.Shaped) (hn : nearest? p t c = some (g, d))
    (hf : distanceTo? p c f = some e) (hrather : e < d ∨ e = d ∧ p.Before f g) :
    t.ClaimedWithin f e := by
  have hbest := foremost_nearest? p t c
  rw [hn] at hbest
  obtain ⟨hg, before, after, hsplit, hbefore, hafter⟩ := hbest
  rcases claimedWithin_or_canClaim hf with hwithin | hcan
  · exact hwithin
  have hle : d ≤ e := by
    have hmem := mem_handles_of_distanceTo? hp hf
    rw [hsplit, List.mem_append, List.mem_cons] at hmem
    rcases hmem with hmem | rfl | hmem
    · exact Int.le_of_lt (hbefore f hmem e hcan)
    · exact Int.le_of_eq (Option.some_inj.mp (hg.1.symm.trans hf))
    · exact hafter f hmem e hcan
  rcases hrather with hlt | ⟨rfl, hfg⟩
  · exact absurd hlt (Int.not_lt.mpr hle)
  · exact absurd (hbefore f (hfg.mem_of_handles hsplit) e hcan) (Int.lt_irrefl e)

/-! ## A claim is lost to a later one from nearer -/

/-- What is read after a contact has claimed a finger: its claim, and those of the other fingers. -/
theorem get?_claim (hp : p.Shaped) (hsize : t.entries.size = p.capacity)
    (ht : SoleClaims p.handles n t) (hn : nearest? p t c = some (h, d)) (j : Nat) (k : Handle) :
    (claim p t j c).get? k = if k = h then some (.contact j d) else t.get? k := by
  have hmem := nearest?_mem hn
  have hlt : h.index < t.entries.size := hsize ▸ Pool.index_lt_capacity hp hmem
  rw [claim, hn]
  by_cases hindex : k.index = h.index
  · rw [get?_set_same_slot hlt hindex]
    by_cases hkh : k = h
    · rw [if_pos hkh.symm, if_pos hkh]
    · -- two active fingers are not in one slot, so nothing stood there for `k`
      rw [if_neg fun he => hkh he.symm, if_neg hkh]
      symm
      rw [Option.eq_none_iff_forall_ne_some]
      intro m hk
      exact hkh (List.inj_on_of_nodup_map (Pool.nodup_index_handles hp) (ht.claims k m hk).1 hmem
        hindex)
  · rw [if_neg fun he => hindex (congrArg Handle.index he)]
    exact get?_set_of_index_ne hindex _

/-- Whoever loses its claim to the next contact is claimed from nearer. -/
theorem outbid_claim (hp : p.Shaped) (hsize : t.entries.size = p.capacity)
    (ht : SoleClaims p.handles n t) (c : Contact) : Outbid n t (claim p t n c) := by
  cases hn : nearest? p t c with
  | none =>
    rw [claim, hn]
    exact Outbid.refl n t
  | some x =>
    obtain ⟨h, d⟩ := x
    intro k j e hk
    rw [get?_claim hp hsize ht hn]
    split
    next hkh =>
      obtain ⟨-, hfree⟩ := canClaim_of_nearest? hn
      rw [claimable, distance?, ← hkh, hk] at hfree
      exact Or.inr ⟨n, d, rfl, Nat.le_refl n, of_decide_eq_true hfree⟩
    next => exact Or.inl hk

/-- The turns of any contacts make nothing worse for a finger: it is claimed from as near as before,
or nearer. -/
theorem outbid_assignFrom (hp : p.Shaped) :
    ∀ (cs : List Contact) {n : Nat} {t : MatchTable}, t.entries.size = p.capacity →
      SoleClaims p.handles n t → Outbid n t (assignFrom p n cs t)
  | [], n, _, _, _ => Outbid.refl n _
  | c :: cs, n, _, hsize, ht =>
    (outbid_claim hp hsize ht c).trans
      (outbid_assignFrom hp cs ((size_claim ..).trans hsize) (claim_sole ht c)) (Nat.le_succ n)

/-- Later contacts write no claim for an earlier one. -/
theorem get?_of_assignFrom :
    ∀ (cs : List Contact) {n : Nat} {t : MatchTable}, j < n →
      (assignFrom p n cs t).get? g = some (.contact j d) → t.get? g = some (.contact j d)
  | [], _, _, _, hg => hg
  | c :: cs, _, _, hj, hg => by
    have hone := get?_of_assignFrom cs (Nat.lt_succ_of_lt hj) hg
    unfold claim at hone
    split at hone
    next h e _ =>
      rcases get?_set_cases hone with ⟨-, hm⟩ | ⟨-, hold⟩
      · exact absurd (Match.contact.inj hm).1 (Nat.ne_of_lt hj)
      · exact hold
    next => exact hone

/-! ## The turn of one contact -/

/-- The claims of a frame when its `j`-th contact has its turn. -/
def claimsBefore (p : Pool) (frame : List Contact) (j : Nat) : MatchTable :=
  assign p (frame.take j)

/-- The claims of a frame are those up to a contact, its own, and those of the contacts behind
it. -/
theorem assign_at (p : Pool) (hc : frame[j]? = some c) :
    assign p frame =
      assignFrom p (j + 1) (frame.drop (j + 1)) (claim p (claimsBefore p frame j) j c) := by
  obtain ⟨hlt, rfl⟩ := List.getElem?_eq_some_iff.mp hc
  have hlen : (frame.take j).length = j := List.length_take_of_le (Nat.le_of_lt hlt)
  conv => lhs; rw [← List.take_append_drop j frame, List.drop_eq_getElem_cons hlt, assign_append]
  rw [hlen]
  rfl

/-- The table that a contact finds has claims of the contacts before it. -/
theorem sole_claimsBefore (p : Pool) (hc : frame[j]? = some c) :
    SoleClaims p.handles j (claimsBefore p frame j) := by
  obtain ⟨hlt, -⟩ := List.getElem?_eq_some_iff.mp hc
  have hsole := assign_sole p (frame.take j)
  rwa [List.length_take_of_le (Nat.le_of_lt hlt)] at hsole

theorem size_claimsBefore (p : Pool) (frame : List Contact) (j : Nat) :
    (claimsBefore p frame j).entries.size = p.capacity :=
  size_assign ..

/-- What is claimed when a contact has its turn stays claimed. -/
theorem outbid_before (hp : p.Shaped) (hc : frame[j]? = some c) :
    Outbid j (claimsBefore p frame j) (assign p frame) := by
  have hsize := size_claimsBefore p frame j
  have hsole := sole_claimsBefore p hc
  rw [assign_at p hc]
  exact (outbid_claim hp hsize hsole c).trans
    (outbid_assignFrom hp _ ((size_claim ..).trans hsize) (claim_sole hsole c)) (Nat.le_succ j)

/-- A finger that a contact has claimed is still its own, or a later contact has claimed it from
nearer. -/
theorem stands_or_lost (hp : p.Shaped) (hc : frame[j]? = some c)
    (hn : nearest? p (claimsBefore p frame j) c = some (g, d)) :
    (assign p frame).get? g = some (.contact j d) ∨
      ∃ i e, (assign p frame).get? g = some (.contact i e) ∧ j < i ∧ e < d := by
  have hsize := size_claimsBefore p frame j
  have hrest := outbid_assignFrom hp (frame.drop (j + 1)) ((size_claim p _ j c).trans hsize)
    (claim_sole (sole_claimsBefore p hc) c)
  rw [← assign_at p hc] at hrest
  refine hrest g j d ?_
  rw [get?_claim hp hsize (sole_claimsBefore p hc) hn, if_pos rfl]

/-- Whatever claim a contact has in the end, it has made at its turn. -/
theorem nearest?_of_get? (hg : (assign p frame).get? g = some (.contact j d)) :
    ∃ c, frame[j]? = some c ∧ nearest? p (claimsBefore p frame j) c = some (g, d) := by
  obtain ⟨-, i, e, heq, hi⟩ := (assign_sole p frame).claims g _ hg
  obtain ⟨rfl, rfl⟩ := Match.contact.inj heq
  have hc : frame[j]? = some frame[j] := List.getElem?_eq_getElem hi
  refine ⟨_, hc, ?_⟩
  rw [assign_at p hc] at hg
  have hturn := get?_of_assignFrom _ (Nat.lt_succ_self j) hg
  -- before its turn the contact had no claim
  have hnew : (claimsBefore p frame j).get? g ≠ some (.contact j d) := by
    intro hold
    obtain ⟨-, i, e, heq, hlt⟩ := (sole_claimsBefore p hc).claims g _ hold
    obtain ⟨rfl, rfl⟩ := Match.contact.inj heq
    exact Nat.lt_irrefl _ hlt
  unfold claim at hturn
  split at hturn
  next h e hn =>
    rcases get?_set_cases hturn with ⟨rfl, hm⟩ | ⟨-, hold⟩
    · obtain ⟨-, rfl⟩ := Match.contact.inj hm
      exact hn
    · exact absurd hold hnew
  next => exact absurd hturn hnew

/-! ## Stability -/

/-- Finger and contact, at the distance `d` from each other, both do worse than with each other: the
finger is not claimed from as near, and the contact has no finger or one farther away. -/
structure Blocks (p : Pool) (frame : List Contact) (t : MatchTable) (f : Handle) (j : Nat)
    (d : Int) : Prop where
  distance_eq : ∃ c, frame[j]? = some c ∧ distanceTo? p c f = some d
  finger : ¬ t.ClaimedWithin f d
  contact : ∀ g e, t.get? g = some (.contact j e) → d < e

/-- Claims of a frame that are stable, but for fingers that were lost. A finger without samples is
at no distance from any contact. -/
structure Stable (p : Pool) (frame : List Contact) (t : MatchTable) : Prop where
  /-- A finger is claimed by a contact of the frame from its distance. -/
  entry : ∀ g m, t.get? g = some m →
    ∃ j c d, m = .contact j d ∧ frame[j]? = some c ∧ distanceTo? p c g = some d
  /-- A finger nearer to a contact than the one it has, or as near and before it, is claimed from as
  near. -/
  claimed : ∀ j c g d, frame[j]? = some c → t.get? g = some (.contact j d) →
    ∀ f e, distanceTo? p c f = some e → e < d ∨ e = d ∧ p.Before f g → t.ClaimedWithin f e
  /-- For a contact without a finger there is a finger claimed from as near, and so are all that
  are nearer. -/
  unclaimed : ∀ j c, frame[j]? = some c → (∀ g, t.claim? g ≠ some j) →
    ∃ g d, distanceTo? p c g = some d ∧ t.ClaimedWithin g d ∧
      ∀ f e, distanceTo? p c f = some e → e < d → t.ClaimedWithin f e
  /-- A contact that blocks has had a finger, which is no farther away, and has lost it to a later
  contact that is nearer. -/
  blocked : ∀ f j d, Blocks p frame t f j d →
    (∀ g, t.claim? g ≠ some j) ∧
    ∃ c g e i a, frame[j]? = some c ∧ nearest? p (claimsBefore p frame j) c = some (g, e) ∧ e ≤ d ∧
      t.get? g = some (.contact i a) ∧ j < i ∧ a < e

theorem claim?_ne_of_get? {t : MatchTable} (hg : ∀ d, t.get? g ≠ some (.contact j d)) :
    t.claim? g ≠ some j := by
  intro heq
  obtain ⟨d, hd⟩ := claim?_eq_some_iff.mp heq
  exact hg d hd

/-- A finger that a claiming contact would rather have had is claimed from as near. The contact has
been refused it at its turn, and from then on the bids only get nearer. -/
theorem claimed_of_assign (hp : p.Shaped) (hc : frame[j]? = some c)
    (hg : (assign p frame).get? g = some (.contact j d)) (hf : distanceTo? p c f = some e)
    (hrather : e < d ∨ e = d ∧ p.Before f g) : (assign p frame).ClaimedWithin f e := by
  obtain ⟨c', hc', hn⟩ := nearest?_of_get? hg
  obtain rfl := Option.some_inj.mp (hc.symm.trans hc')
  exact (outbid_before hp hc).claimedWithin (claimedWithin_of_some hp hn hf hrather)

/-- For a contact without a claim there is a finger that is claimed from as near, and so is everyone
that is nearer. -/
theorem unclaimed_of_assign (hp : p.Shaped) (hsome : ∃ g d, distanceTo? p c g = some d)
    (hc : frame[j]? = some c) (hj : ∀ g, (assign p frame).claim? g ≠ some j) :
    ∃ g d, distanceTo? p c g = some d ∧ (assign p frame).ClaimedWithin g d ∧
      ∀ f e, distanceTo? p c f = some e → e < d → (assign p frame).ClaimedWithin f e := by
  have hlater := outbid_before hp hc
  cases hn : nearest? p (claimsBefore p frame j) c with
  | none =>
    -- everything was claimed from as near when the contact had its turn
    have hall : ∀ f e, distanceTo? p c f = some e → (assign p frame).ClaimedWithin f e :=
      fun f e hf => hlater.claimedWithin (claimedWithin_of_none hp hn hf)
    obtain ⟨g, d, hd⟩ := hsome
    exact ⟨g, d, hd, hall g d hd, fun f e hf _ => hall f e hf⟩
  | some x =>
    -- the finger it found was taken away
    obtain ⟨g, d⟩ := x
    refine ⟨g, d, (canClaim_of_nearest? hn).1, ?_, ?_⟩
    · rcases stands_or_lost hp hc hn with hstands | ⟨i, e, hlost, -, hlt⟩
      · exact absurd (claim?_eq_some_iff.mpr ⟨d, hstands⟩) (hj g)
      · exact ⟨i, e, hlost, Int.le_of_lt hlt⟩
    · intro f e hf hlt
      exact hlater.claimedWithin (claimedWithin_of_some hp hn hf (Or.inl hlt))

/-- A blocking pair has one story only: the contact claimed a finger at its turn, no farther away
than this one, and lost it to a later contact. -/
theorem blocked_of_assign (hp : p.Shaped) (hb : Blocks p frame (assign p frame) f j d) :
    (∀ g, (assign p frame).claim? g ≠ some j) ∧
    ∃ c g e i a, frame[j]? = some c ∧ nearest? p (claimsBefore p frame j) c = some (g, e) ∧ e ≤ d ∧
      (assign p frame).get? g = some (.contact i a) ∧ j < i ∧ a < e := by
  obtain ⟨⟨c, hc, hf⟩, hfinger, hcontact⟩ := hb
  have hnone : ∀ g, (assign p frame).claim? g ≠ some j := by
    intro g
    apply claim?_ne_of_get?
    intro e hg
    exact hfinger (claimed_of_assign hp hc hg hf (Or.inl (hcontact g e hg)))
  refine ⟨hnone, ?_⟩
  have hlater := outbid_before hp hc
  cases hn : nearest? p (claimsBefore p frame j) c with
  | none => exact absurd (hlater.claimedWithin (claimedWithin_of_none hp hn hf)) hfinger
  | some x =>
    obtain ⟨g, e⟩ := x
    have hle : e ≤ d := by
      apply Int.not_lt.mp
      intro hlt
      exact hfinger (hlater.claimedWithin (claimedWithin_of_some hp hn hf (Or.inl hlt)))
    rcases stands_or_lost hp hc hn with hstands | ⟨i, a, hlost, hi, ha⟩
    · exact absurd (claim?_eq_some_iff.mpr ⟨e, hstands⟩) (hnone g)
    · exact ⟨c, g, e, i, a, hc, hn, hle, hlost, hi, ha⟩

theorem stable_of_shaped (hp : p.Shaped)
    (hsome : ∀ c, ∃ g d, distanceTo? p c g = some d) (frame : List Contact) :
    Stable p frame (assign p frame) where
  entry := by
    intro g m hg
    obtain ⟨-, j, d, rfl, -⟩ := (assign_sole p frame).claims g m hg
    obtain ⟨c, hc, hn⟩ := nearest?_of_get? hg
    exact ⟨j, c, d, rfl, hc, (canClaim_of_nearest? hn).1⟩
  claimed _ _ _ _ hc hg _ _ hf hrather := claimed_of_assign hp hc hg hf hrather
  unclaimed _ c hc hj := unclaimed_of_assign hp (hsome c) hc hj
  blocked _ _ _ hb := blocked_of_assign hp hb

/-- A finger with samples is at some distance from every contact. -/
theorem exists_distanceTo? {x : Finger} (hx : x ∈ p.fingers) (hne : x.trail.isEmpty = false)
    (c : Contact) : ∃ g d, distanceTo? p c g = some d := by
  obtain ⟨g, -, hg⟩ := List.mem_filterMap.mp hx
  have hlen : x.trail.length ≠ 0 := by simpa [Trail.isEmpty] using hne
  refine ⟨g, squaredDistance c (x.trail.nth (x.trail.length - 1)), ?_⟩
  rw [distanceTo?, hg, Option.bind_some, Trail.last?, if_neg hlen]
  rfl

/-- **Claims are stable, but for fingers that were lost.** However a new pool has been used, if one
of its active fingers has samples, then of the claims on the contacts of any frame each is from its
finger's distance; the fingers that a contact would rather have are claimed from as near as it is;
and where they are not, it has lost the finger it had. -/
theorem stable_assign {s : Settings} (h : Pool.new s = .ok p) (us : List Pool.Use)
    (hsome : ∃ x ∈ (p.afterUses us).fingers, x.trail.isEmpty = false) (frame : List Contact) :
    Stable (p.afterUses us) frame (assign (p.afterUses us) frame) := by
  obtain ⟨x, hx, hne⟩ := hsome
  exact stable_of_shaped (Pool.kept_afterUses h us).shaped (exists_distanceTo? hx hne) frame

/-- Two fingers at (10, 10) and (20, 10). The second contact takes the first finger from the first
contact, which does not look for the other one. -/
theorem stable_assign_lost_finger :
    ∃ p, Pool.new {} = .ok p ∧
      let put (x : Int32) (f : Finger) : Finger :=
        { f with trail := f.trail.push x 10 Timestamp.epoch }
      let q := p.afterUses [.take, .take, .edit ⟨0, 1⟩ (put 10), .edit ⟨1, 1⟩ (put 20)]
      let frame : List Contact := [⟨12, 10, 1⟩, ⟨11, 10, 1⟩]
      (∃ x ∈ q.fingers, x.trail.isEmpty = false) ∧
        (assign q frame).get? ⟨0, 1⟩ = some (.contact 1 1) ∧ (assign q frame).get? ⟨1, 1⟩ = none ∧
        Stable q frame (assign q frame) := by
  have h : Pool.new {} = .ok (Pool.ofTrail 2 (Trail.empty 6 false)) := rfl
  refine ⟨_, h, ?_⟩
  intro put q frame
  have hsome : ∃ x ∈ q.fingers, x.trail.isEmpty = false := by decide +kernel
  exact ⟨hsome, by decide +kernel, by decide +kernel, stable_assign h _ hsome frame⟩

end Matching

end FingerTracking
