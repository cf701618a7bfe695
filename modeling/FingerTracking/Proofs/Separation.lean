import FingerTracking.Proofs.Fates
import FingerTracking.Proofs.Runs
import FingerTracking.Proofs.Stability
import Mathlib.Data.List.Induction

/-!
# Contacts that are apart

The claims of a frame depend on the order of its contacts, since a contact may find its finger
claimed from nearer, or lose it to a later one. If the contacts are `Apart`, each with a finger
nearest to it and no two with the same, neither can happen, and the order does not show:

> `get?_assign_of_apart`: every contact claims the finger nearest to it, and there are no other
> claims.
>
> `frame_of_apart`: in whatever order the contacts come, the events, the pool and the next id are the
> same, and no finger starts.

Only the places at which the contacts are claimed change with their order, and a finger that moves
looks at the contact and not at its place (`contact_of_apart`).
-/

namespace FingerTracking

open MatchTable Matching

namespace Matching

variable {p : Pool} {t : MatchTable} {c : Contact} {g h : Handle} {d e : Int} {m : Match}
variable {frame frame' : List Contact}

/-! ## The finger nearest to a contact -/

/-- The active finger `h` is nearest to the contact, at the distance `d`, and no finger before it is
as near. -/
structure Nearest (p : Pool) (c : Contact) (h : Handle) (d : Int) : Prop where
  distance_eq : distanceTo? p c h = some d
  le : ∀ k e, distanceTo? p c k = some e → d ≤ e
  first : ∀ k, distanceTo? p c k = some d → ¬ p.Before k h

/-- A contact whose nearest finger nobody has claimed finds it, whatever else is claimed. -/
theorem nearest?_of_nearest (hp : p.Shaped) (hn : Nearest p c h d) (hnone : t.get? h = none) :
    nearest? p t c = some (h, d) := by
  have hcan := canClaim_of_none hn.distance_eq hnone
  have hmem := mem_handles_of_distanceTo? hp hn.distance_eq
  have hbest := foremost_nearest? p t c
  cases hfound : nearest? p t c with
  | none =>
    rw [hfound] at hbest
    exact absurd hcan (hbest h hmem d)
  | some x =>
    obtain ⟨g, e⟩ := x
    rw [hfound] at hbest
    obtain ⟨hg, before, after, hsplit, hbefore, hafter⟩ := hbest
    have hde := hn.le g e hg.1
    rw [hsplit, List.mem_append, List.mem_cons] at hmem
    rcases hmem with hmem | rfl | hmem
    · exact absurd (hbefore h hmem d hcan) (Int.not_lt.mpr hde)
    · rw [Option.some_inj.mp (hg.1.symm.trans hn.distance_eq)]
    · -- then `g` is as near and comes first, so it is `h`
      obtain rfl : e = d := Int.le_antisymm (hafter h hmem d hcan) hde
      by_cases hgh : h = g
      · rw [hgh]
      · have hnotMem : h ∉ before := fun hb => Int.lt_irrefl e (hbefore h hb e hcan)
        exact absurd (Pool.before_of_handles hsplit hnotMem hgh) (hn.first g hg.1)

/-- The finger nearest to a contact is the one it finds where nothing is claimed. -/
theorem nearest_iff (hp : p.Shaped) :
    Nearest p c h d ↔ nearest? p (MatchTable.empty p.capacity) c = some (h, d) := by
  refine ⟨fun hn => nearest?_of_nearest hp hn (get?_empty ..), ?_⟩
  intro hfound
  have hbest := foremost_nearest? p (MatchTable.empty p.capacity) c
  rw [hfound] at hbest
  obtain ⟨hh, before, after, hsplit, hbefore, hafter⟩ := hbest
  have hcan : ∀ k e, distanceTo? p c k = some e → CanClaim p (MatchTable.empty p.capacity) c k e :=
    fun k e hk => canClaim_of_none hk (get?_empty ..)
  refine ⟨hh.1, ?_, ?_⟩
  · intro k e hk
    have hmem := mem_handles_of_distanceTo? hp hk
    rw [hsplit, List.mem_append, List.mem_cons] at hmem
    rcases hmem with hmem | rfl | hmem
    · exact Int.le_of_lt (hbefore k hmem e (hcan k e hk))
    · exact Int.le_of_eq (Option.some_inj.mp (hh.1.symm.trans hk))
    · exact hafter k hmem e (hcan k e hk)
  · intro k hk hkh
    exact Int.lt_irrefl d (hbefore k (hkh.mem_of_handles hsplit) d (hcan k d hk))

/-- A contact has one nearest finger at most. -/
theorem Nearest.unique (hp : p.Shaped) (hh : Nearest p c h d) (hg : Nearest p c g e) :
    h = g ∧ d = e :=
  Prod.mk.inj (Option.some_inj.mp
    (((nearest_iff hp).mp hh).symm.trans ((nearest_iff hp).mp hg)))

/-! ## Contacts apart -/

/-- Every contact of the frame has a finger nearest to it, and no two have the same. -/
structure Apart (p : Pool) (frame : List Contact) : Prop where
  near : ∀ c ∈ frame, ∃ h d, Nearest p c h d
  apart : frame.Pairwise fun c c' => ∀ h d d', Nearest p c h d → ¬ Nearest p c' h d'

theorem Apart.perm (ha : Apart p frame) (hperm : frame.Perm frame') : Apart p frame' := by
  refine ⟨fun c hc => ha.near c (hperm.mem_iff.mpr hc), ?_⟩
  exact ha.apart.perm hperm fun hxy h d d' hy hx => hxy h d' d hx hy

theorem Apart.of_append {later : List Contact} (ha : Apart p (frame ++ later)) : Apart p frame :=
  ⟨fun c hc => ha.near c (List.mem_append_left _ hc), (List.pairwise_append.mp ha.apart).1⟩

/-- Contacts that find different fingers where nothing is claimed are apart. -/
theorem apart_of_nodup (hp : p.Shaped) (hs : List Handle)
    (hfound : frame.map (fun c => (nearest? p (MatchTable.empty p.capacity) c).map (·.1)) =
      hs.map some) (hnodup : hs.Nodup) : Apart p frame := by
  have hnear : ∀ c h d, Nearest p c h d →
      (nearest? p (MatchTable.empty p.capacity) c).map (·.1) = some h := by
    intro c h d hn
    rw [(nearest_iff hp).mp hn]
    rfl
  refine ⟨?_, ?_⟩
  · intro c hc
    have hmem := List.mem_map_of_mem
      (f := fun c => (nearest? p (MatchTable.empty p.capacity) c).map (·.1)) hc
    rw [hfound] at hmem
    obtain ⟨h, -, hh⟩ := List.mem_map.mp hmem
    obtain ⟨x, hx, -⟩ := Option.map_eq_some_iff.mp hh.symm
    exact ⟨x.1, x.2, (nearest_iff hp).mpr hx⟩
  · have hdiffer : (hs.map some).Pairwise (· ≠ ·) :=
      List.pairwise_map.mpr (hnodup.imp fun hne heq => hne (Option.some_inj.mp heq))
    rw [← hfound] at hdiffer
    refine (List.pairwise_map.mp hdiffer).imp ?_
    intro c c' hne h d d' hc hc'
    exact hne ((hnear c h d hc).trans (hnear c' h d' hc').symm)

theorem getElem?_concat_eq_some_iff {xs : List Contact} {x : Contact} {j : Nat} :
    (xs ++ [c])[j]? = some x ↔ xs[j]? = some x ∨ j = xs.length ∧ c = x := by
  rcases Nat.lt_trichotomy j xs.length with hj | rfl | hj
  · simp [List.getElem?_append_left hj, Nat.ne_of_lt hj]
  · simp
  · have hpast : (xs ++ [c]).length ≤ j := by
      rw [List.length_append, List.length_singleton]
      exact hj
    simp [List.getElem?_eq_none hpast, List.getElem?_eq_none (Nat.le_of_lt hj), Nat.ne_of_gt hj]

/-- **Contacts that are apart claim the fingers nearest to them,** and there are no other claims. -/
theorem get?_assign_of_apart (hp : p.Shaped) (ha : Apart p frame) (h : Handle) (m : Match) :
    (assign p frame).get? h = some m ↔
      ∃ j c d, m = .contact j d ∧ frame[j]? = some c ∧ Nearest p c h d := by
  -- contact by contact: the nearest finger of the last one has not been claimed before
  induction frame using List.reverseRecOn generalizing h m with
  | nil =>
    rw [assign, assignFrom, get?_empty]
    simp
  | append_singleton xs c ih =>
    replace ih := ih ha.of_append
    obtain ⟨h₀, d₀, hn₀⟩ := ha.near c (List.mem_append_right _ (List.mem_singleton_self c))
    have hother : ∀ {x j d d'}, xs[j]? = some x → Nearest p x h₀ d → ¬ Nearest p c h₀ d' :=
      fun hx hxn => (List.pairwise_append.mp ha.apart).2.2 _ (List.mem_of_getElem? hx) c
        (List.mem_singleton_self c) _ _ _ hxn
    have hfree : (assign p xs).get? h₀ = none := by
      rw [Option.eq_none_iff_forall_ne_some]
      intro m hm
      obtain ⟨j, x, e, -, hx, hxn⟩ := (ih h₀ m).mp hm
      exact hother hx hxn hn₀
    rw [assign_append, show assignFrom p xs.length [c] (assign p xs) =
      claim p (assign p xs) xs.length c from rfl, get?_claim hp (size_assign p xs)
      (assign_sole p xs) (nearest?_of_nearest hp hn₀ hfree)]
    simp only [getElem?_concat_eq_some_iff]
    split
    next hh =>
      subst hh
      constructor
      · intro hm
        exact ⟨xs.length, c, d₀, (Option.some_inj.mp hm).symm, Or.inr ⟨rfl, rfl⟩, hn₀⟩
      · rintro ⟨j, x, d, hm, hx | ⟨rfl, rfl⟩, hxn⟩
        · exact absurd hn₀ (hother hx hxn)
        · rw [hm, (Nearest.unique hp hn₀ hxn).2]
    next hh =>
      rw [ih]
      constructor
      · rintro ⟨j, x, d, hm, hx, hxn⟩
        exact ⟨j, x, d, hm, Or.inl hx, hxn⟩
      · rintro ⟨j, x, d, hm, hx | ⟨rfl, rfl⟩, hxn⟩
        · exact ⟨j, x, d, hm, hx, hxn⟩
        · exact absurd (Nearest.unique hp hxn hn₀).1 hh

/-- The contact that a finger has claimed is the one it is nearest to. -/
theorem contact_of_apart (hp : p.Shaped) (ha : Apart p frame) (h : Handle) (c : Contact) :
    (((assign p frame).claim? h).bind fun j => frame[j]?) = some c ↔
      c ∈ frame ∧ ∃ d, Nearest p c h d := by
  constructor
  · intro hc
    obtain ⟨j, hj, hc⟩ := Option.bind_eq_some_iff.mp hc
    obtain ⟨d, hd⟩ := claim?_eq_some_iff.mp hj
    obtain ⟨i, x, e, heq, hx, hn⟩ := (get?_assign_of_apart hp ha h _).mp hd
    obtain ⟨rfl, rfl⟩ := Match.contact.inj heq
    obtain rfl := Option.some_inj.mp (hx.symm.trans hc)
    exact ⟨List.mem_of_getElem? hc, d, hn⟩
  · intro ⟨hmem, d, hn⟩
    obtain ⟨j, hj⟩ := List.getElem?_of_mem hmem
    have hget := (get?_assign_of_apart hp ha h _).mpr ⟨j, c, d, rfl, hj, hn⟩
    exact Option.bind_eq_some_iff.mpr ⟨j, claim?_eq_some_iff.mpr ⟨d, hget⟩, hj⟩

end Matching

namespace Tracker

variable {n : Nat} {b : Bool} {t t₀ : Tracker} {s : Settings} {contacts contacts' : List Contact}

/-! ## A frame of contacts that are apart -/

/-- A finger follows the same contact, in whatever place it stands. -/
theorem followEntry_perm (hp : t.pool.Shaped) (ha : Apart t.pool contacts)
    (hperm : contacts.Perm contacts') (now : Timestamp) (e : Handle × Finger) :
    followEntry (t.claims contacts') contacts' now e =
      followEntry (t.claims contacts) contacts now e := by
  have hsame : (((t.claims contacts').claim? e.1).bind fun j => contacts'[j]?) =
      ((t.claims contacts).claim? e.1).bind fun j => contacts[j]? := by
    apply Option.ext
    intro c
    exact (contact_of_apart hp (ha.perm hperm) e.1 c).trans
      ((and_congr_left fun _ => hperm.symm.mem_iff).trans (contact_of_apart hp ha e.1 c).symm)
  rw [followEntry, followEntry, follow, follow, hsame]

/-- The same fingers are matched, each by its own contact. -/
theorem isMatched_perm (hp : t.pool.Shaped) (ha : Apart t.pool contacts)
    (hperm : contacts.Perm contacts') (h : Handle) :
    (t.claims contacts').isMatched h = (t.claims contacts).isMatched h := by
  have hiff : ∀ {cs}, Apart t.pool cs →
      ((t.claims cs).isMatched h = true ↔ ∃ c ∈ cs, ∃ d, Nearest t.pool c h d) := by
    intro cs hcs
    rw [isMatched, Option.isSome_iff_exists]
    constructor
    · rintro ⟨m, hm⟩
      obtain ⟨j, c, d, -, hc, hn⟩ := (get?_assign_of_apart hp hcs h m).mp hm
      exact ⟨c, List.mem_of_getElem? hc, d, hn⟩
    · rintro ⟨c, hc, d, hn⟩
      obtain ⟨j, hj⟩ := List.getElem?_of_mem hc
      exact ⟨_, (get?_assign_of_apart hp hcs h _).mpr ⟨j, c, d, rfl, hj, hn⟩⟩
  rw [Bool.eq_iff_iff, hiff (ha.perm hperm), hiff ha]
  exact exists_congr fun c => and_congr_left fun _ => hperm.symm.mem_iff

/-- Every contact is claimed, so none is left for a finger to start. -/
theorem arrivals_of_apart (hp : t.pool.Shaped) (ha : Apart t.pool contacts) (now : Timestamp) :
    t.arrivals contacts now = [] := by
  rw [List.eq_nil_iff_forall_not_mem]
  intro a harr
  obtain ⟨c, e, time, id, hc, hq, -⟩ := arrivals_started _ _ _ _ _ a harr
  have hfree := unclaimed_of_qualifies hp hc hq
  obtain ⟨hlt, -⟩ := List.getElem?_eq_some_iff.mp hc
  rw [length_moved contacts now hp] at hlt
  obtain ⟨h, d, hn⟩ := ha.near _ (List.getElem_mem hlt)
  have hget := (get?_assign_of_apart hp ha h _).mpr
    ⟨a.index - 0, _, d, rfl, List.getElem?_eq_getElem hlt, hn⟩
  exact hfree h ((claimedBy_iff hp).mpr (claim?_eq_some_iff.mpr ⟨d, hget⟩))

/-- The batch does not show the order of the contacts. -/
theorem events_frame_perm (hp : t.pool.Settled n b) (ha : Apart t.pool contacts)
    (hperm : contacts.Perm contacts') (now : Timestamp) :
    (t.frame contacts' now).events = (t.frame contacts now).events := by
  rw [events_frame _ _ hp, events_frame _ _ hp, arrivals_of_apart hp.shaped ha,
    arrivals_of_apart hp.shaped (ha.perm hperm)]
  congr 2
  apply List.flatMap_congr
  intro e _
  rw [followEntry_perm hp.shaped ha hperm, isMatched_perm hp.shaped ha hperm]

/-- Nor does the pool, down to its stale cells. -/
theorem pool_frame_perm (hp : t.pool.Settled n b) (ha : Apart t.pool contacts)
    (hperm : contacts.Perm contacts') (now : Timestamp) :
    (t.frame contacts' now).tracker.pool = (t.frame contacts now).tracker.pool := by
  have hfollow := followEntry_perm hp.shaped ha hperm now
  have hmatched := isMatched_perm hp.shaped ha hperm
  have harr := arrivals_of_apart hp.shaped ha now
  have harr' := arrivals_of_apart hp.shaped (ha.perm hperm) now
  apply Pool.eq_of_entries_spares (settled_frame _ _ hp).shaped (settled_frame _ _ hp).shaped
  · rw [entries_frame _ _ hp, entries_frame _ _ hp, harr, harr']
    simp only [hfollow, hmatched]
  · rw [spares_frame _ _ hp, spares_frame _ _ hp, harr, harr']
    simp only [hfollow, hmatched]

/-- **Contacts that are apart are tracked in any order.** After any run of a new tracker, if the
contacts of the next frame are apart, each claims the finger nearest to it, nobody else is claimed,
and with the contacts in any other order the events are the same and so is the tracker after the
frame. No finger starts, and no id is given out. -/
theorem frame_of_apart (h : Tracker.new s = .ok t₀) (calls : List Call)
    (ha : Apart (t₀.after calls).pool contacts) (hperm : contacts.Perm contacts')
    (now : Timestamp) :
    let t := t₀.after calls
    (∀ h m, (assign t.pool contacts).get? h = some m ↔
      ∃ j c d, m = .contact j d ∧ contacts[j]? = some c ∧ Nearest t.pool c h d) ∧
      (t.frame contacts' now).events = (t.frame contacts now).events ∧
      (t.frame contacts' now).tracker = (t.frame contacts now).tracker ∧
      (t.frame contacts' now).tracker.nextId = t.nextId ∧ t.newcomers contacts' now = [] := by
  intro t
  have hp : t.pool.Settled s.trailLength s.filtered := (sound_after h calls).settled
  have harr := arrivals_of_apart hp.shaped (ha.perm hperm) now
  have hid := nextId_frame_of_none hp.shaped harr
  have hid' := nextId_frame_of_none hp.shaped (arrivals_of_apart hp.shaped ha now)
  refine ⟨get?_assign_of_apart hp.shaped ha, events_frame_perm hp ha hperm now, ?_, hid, ?_⟩
  · have hpool := pool_frame_perm hp ha hperm now
    exact congrArg₂ (fun pool nextId => Tracker.mk pool t.threshold nextId) hpool
      (hid.trans hid'.symm)
  · rw [newcomers_eq contacts' now hp.shaped, harr]
    rfl

/-- Fingers at (10, 10) and (20, 10), and a contact half way between them: it is the first finger's,
whether it comes before the other contact or after it. -/
theorem frame_of_apart_half_way :
    ∃ t₀, Tracker.new { maxFingers := 2 } = .ok t₀ ∧
      let calls : List Call := [.frame [⟨10, 10, 1⟩, ⟨20, 10, 1⟩] Timestamp.epoch]
      let t := t₀.after calls
      let contacts : List Contact := [⟨15, 10, 1⟩, ⟨19, 10, 1⟩]
      let contacts' : List Contact := [⟨19, 10, 1⟩, ⟨15, 10, 1⟩]
      Apart t.pool contacts ∧ contacts.Perm contacts' ∧
        (∀ h m, (assign t.pool contacts).get? h = some m ↔
          ∃ j c d, m = .contact j d ∧ contacts[j]? = some c ∧ Nearest t.pool c h d) ∧
        (t.frame contacts' Timestamp.epoch).events = (t.frame contacts Timestamp.epoch).events ∧
        (t.frame contacts' Timestamp.epoch).tracker = (t.frame contacts Timestamp.epoch).tracker ∧
        (t.frame contacts' Timestamp.epoch).tracker.nextId = t.nextId ∧
        t.newcomers contacts' Timestamp.epoch = [] := by
  obtain ⟨t₀, h⟩ : ∃ t₀, Tracker.new { maxFingers := 2 } = .ok t₀ := ⟨_, rfl⟩
  refine ⟨t₀, h, ?_⟩
  intro calls t contacts contacts'
  have hp : t.pool.Shaped := (sound_after h calls).settled.shaped
  have ha : Apart t.pool contacts := by
    apply apart_of_nodup hp [⟨0, 1⟩, ⟨1, 1⟩]
    · obtain ⟨-, rfl⟩ := new_eq_ok h
      decide +kernel
    · decide
  have hperm : contacts.Perm contacts' := .swap ..
  exact ⟨ha, hperm, frame_of_apart h calls ha hperm Timestamp.epoch⟩

end Tracker

end FingerTracking
