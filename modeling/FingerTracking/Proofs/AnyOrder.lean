import FingerTracking.Proofs.Moves
import FingerTracking.Proofs.Turnover

/-!
# Claims are carried out in any order

When a finger has followed its contact, the contact is taken off the frame, while other fingers
have yet to look at theirs. No finger can tell: a contact is claimed once at most (`assign_sole`), so
each finds its own contact as it was, whoever has moved before. It does not matter in which order
the fingers are visited, and what becomes of each finger and each contact can be told one by one.

> `applyTo_of_perm` (among the moves): pool and frame after the fingers were visited in some order.
>
> `carriedOut_applyTo`: what becomes of each finger and each contact.
>
> `carriedOut_afterUses`: both for the claims of any frame, however the pool has been used.
-/

namespace FingerTracking

open MatchTable

namespace Matching

variable {p : Pool} {t : MatchTable} {frame : List Contact} {now : Timestamp} {n : Nat}
variable {hs : List Handle}

/-- The claims of a table are carried out, each on the contact as it was in the frame. -/
structure CarriedOut (t : MatchTable) (p : Pool) (frame : List Contact) (now : Timestamp)
    (a : Applied) : Prop where
  /-- A finger goes to the contact it has claimed and takes its weight, or stays all as it is if the
  contact weighs less than half of the last one. -/
  claimed : ∀ h f j, p.get? h = some f → t.claim? h = some j → ∃ c, frame[j]? = some c ∧
    a.pool.get? h = some
      (if f.weight.toInt.tdiv 2 ≤ c.weight.toInt then
        { f with trail := f.trail.push c.x c.y now, weight := c.weight }
      else f)
  unclaimed : ∀ h f, p.get? h = some f → t.claim? h = none → a.pool.get? h = some f
  active_eq : a.pool.active = p.active
  available_eq : a.pool.available = p.available
  /-- Nobody comes and nobody goes, and no slot out of use is written. -/
  handles_eq : a.pool.handles = p.handles
  slots_eq : ∀ i ∉ p.active, a.pool.slots[i]? = p.slots[i]?
  taken : ∀ j, (∃ h, t.claim? h = some j) → a.frame[j]? = frame[j]?.map Contact.consumed
  left : ∀ j, (∀ h, t.claim? h ≠ some j) → a.frame[j]? = frame[j]?

/-- Whatever order the fingers are visited in. -/
theorem applied_eq_of_perm (hp : p.Shaped) (ht : SoleClaims p.handles n t)
    (hperm : hs.Perm p.handles) (frame : List Contact) (now : Timestamp) :
    (applyTo t now p frame hs).pool = (apply t p frame now).pool ∧
      (applyTo t now p frame hs).frame = (apply t p frame now).frame := by
  obtain ⟨hq, -, hent, hspare, hframe⟩ := applyTo_of_perm hp ht hperm frame now
  obtain ⟨hq', -, hent', hspare', hframe'⟩ :=
    applyTo_of_perm hp ht (List.Perm.refl p.handles) frame now
  exact ⟨Pool.eq_of_entries_spares hq hq' (hent.trans hent'.symm) (hspare.trans hspare'.symm),
    hframe.trans hframe'.symm⟩

/-- The contacts that are claimed, whoever has claimed them. -/
theorem mem_claims_iff (ht : SoleClaims p.handles n t) {j : Nat} :
    j ∈ p.entries.filterMap (fun e => t.claim? e.1) ↔ ∃ h, t.claim? h = some j := by
  rw [List.mem_filterMap]
  constructor
  · intro ⟨e, _, hj⟩
    exact ⟨e.1, hj⟩
  · intro ⟨h, hj⟩
    obtain ⟨f, hf⟩ := Pool.mem_handles_iff.mp (ht.mem_of_claim? hj).1
    exact ⟨(h, f), hf, hj⟩

/-- Carrying out claims each of which is the only one on its contact. -/
theorem carriedOut_applyTo (hp : p.Shaped) (ht : SoleClaims p.handles frame.length t)
    (hperm : hs.Perm p.handles) (now : Timestamp) :
    CarriedOut t p frame now (applyTo t now p frame hs) := by
  obtain ⟨hq, hcap, hent, hspare, hframe⟩ := applyTo_of_perm hp ht hperm frame now
  have hget : ∀ h f, p.get? h = some f → (applyTo t now p frame hs).pool.get? h =
      some (follow frame now (t.claim? h) f) := by
    intro h f hf
    rw [Pool.get?_eq_some_iff hq, hent]
    exact List.mem_map_of_mem ((Pool.get?_eq_some_iff hp).mp hf)
  constructor
  case claimed =>
    intro h f j hf hj
    have hlt := (ht.mem_of_claim? hj).2
    refine ⟨frame[j], List.getElem?_eq_getElem hlt, (hget h f hf).trans ?_⟩
    rw [hj, follow_some (List.getElem?_eq_getElem hlt)]
    simp only [follows_iff, moved]
  case unclaimed =>
    intro h f hf hnone
    exact (hget h f hf).trans (by rw [hnone]; rfl)
  case active_eq =>
    rw [← Pool.map_index_entries hq, hent, List.map_map, ← Pool.map_index_entries hp]
    rfl
  case available_eq => rw [← Pool.map_index_spares hq, hspare, Pool.map_index_spares hp]
  case handles_eq =>
    rw [Pool.handles_eq, hent, List.map_map, Pool.handles_eq]
    rfl
  case slots_eq =>
    intro i hi
    refine Pool.getElem?_slots_eq hq hp hcap ?_ fun e he _ => hspare ▸ he
    intro e he hei
    rw [hent] at he
    obtain ⟨x, hx, rfl⟩ := List.mem_map.mp he
    have hact : x.1.index ∈ p.active := Pool.map_index_entries hp ▸ List.mem_map_of_mem hx
    exact absurd (hei ▸ hact) hi
  case taken =>
    intro j hj
    rw [hframe, getElem?_takenOff]
    simp only [if_pos ((mem_claims_iff ht).mpr hj)]
  case left =>
    intro j hj
    rw [hframe, getElem?_takenOff_of_notMem]
    intro hmem
    obtain ⟨h, hh⟩ := (mem_claims_iff ht).mp hmem
    exact hj h hh

/-- **Claims are carried out in any order.** However a new pool has been used, no contact of a frame
is claimed twice, and only contacts of the frame are claimed, by active fingers; and in whatever
order the active fingers are visited, they end up the same, each claim carried out on the contact
as it was in the frame. -/
theorem carriedOut_afterUses {s : Settings} (h : Pool.new s = .ok p) (us : List Pool.Use)
    (frame : List Contact) (now : Timestamp) :
    let q := p.afterUses us
    let t := assign q frame
    SoleClaims q.handles frame.length t ∧
      ∀ hs, hs.Perm q.handles →
        (applyTo t now q frame hs).pool = (apply t q frame now).pool ∧
        (applyTo t now q frame hs).frame = (apply t q frame now).frame ∧
        CarriedOut t q frame now (applyTo t now q frame hs) := by
  intro q t
  have hq : q.Shaped := (Pool.kept_afterUses h us).shaped
  have ht : SoleClaims q.handles frame.length t := assign_sole q frame
  refine ⟨ht, fun hs hperm => ?_⟩
  obtain ⟨hpool, hframe⟩ := applied_eq_of_perm hq ht hperm frame now
  exact ⟨hpool, hframe, carriedOut_applyTo hq ht hperm now⟩

/-- Two fingers, visited last to first. The second contact takes the first finger from the first
contact, but is too light to be followed; it is taken off all the same. -/
theorem carriedOut_afterUses_of_two :
    ∃ p, Pool.new {} = .ok p ∧
      let put (x : Int32) (w : Int32) (f : Finger) : Finger :=
        { f with trail := f.trail.push x 10 Timestamp.epoch, weight := w }
      let q := p.afterUses [.take, .take, .edit ⟨0, 1⟩ (put 10 10), .edit ⟨1, 1⟩ (put 30 5)]
      let frame : List Contact := [⟨12, 10, 9⟩, ⟨11, 10, 4⟩, ⟨30, 11, 2⟩]
      let t := assign q frame
      let a := applyTo t (.ofMillis 10) q frame [⟨1, 1⟩, ⟨0, 1⟩]
      [⟨1, 1⟩, ⟨0, 1⟩].Perm q.handles ∧ t.claim? ⟨0, 1⟩ = some 1 ∧ t.claim? ⟨1, 1⟩ = some 2 ∧
        a.frame = [⟨12, 10, 9⟩, ⟨0, 0, 4⟩, ⟨0, 0, 2⟩] ∧
        a.pool.fingers.map (fun f => (f.weight, f.trail.length)) = [(10, 1), (2, 2)] ∧
        a.pool = (apply t q frame (.ofMillis 10)).pool ∧
        CarriedOut t q frame (.ofMillis 10) a := by
  have h : Pool.new {} = .ok (Pool.ofTrail 2 (Trail.empty 6 false)) := rfl
  refine ⟨_, h, ?_⟩
  intro put q frame t a
  have hperm : [⟨1, 1⟩, ⟨0, 1⟩].Perm q.handles := by decide +kernel
  obtain ⟨hpool, -, hout⟩ := (carriedOut_afterUses h _ frame (.ofMillis 10)).2 _ hperm
  exact ⟨hperm, by decide +kernel, by decide +kernel, by decide +kernel, by decide +kernel, hpool,
    hout⟩

end Matching

end FingerTracking
