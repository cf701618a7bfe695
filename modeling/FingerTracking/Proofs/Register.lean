import FingerTracking.Proofs.Capacity
import Mathlib.Algebra.Order.Ring.Int
import Mathlib.Data.List.Nodup

/-!
# Numbers behind the ids

An id is the number of a finger among those that have started, cut down to 32 bits. The `Register`
of a run keeps the numbers themselves, whatever their size:

> `registered_after`: after any run the register has the active fingers in their order, and the id
> of each is its number modulo 2³².
>
> `nodup_ids_iff`: so the active fingers have different ids exactly if no two of their numbers
> differ by a multiple of 2³², as is the case while all are among the last 2³² to have started.

Nothing in the tracker keeps an id that is held from being given out again. A finger that stays
while 2³² − 1 others come and go meets one with its own id (`id_given_twice`).
-/

namespace FingerTracking

open MatchTable Matching

/-- The active fingers of a run with their numbers, and how many have started since the last
teardown. -/
structure Register where
  rows : List (Handle × Nat)
  count : Nat
deriving DecidableEq

namespace Tracker

/-- The register after a call: a frame takes out the fingers that have left and puts in the new
ones, and a teardown begins anew. -/
def register (t : Tracker) (r : Register) : Call → Register
  | .frame contacts now =>
    { rows := (r.rows.filter fun e => (t.frame contacts now).tracker.pool.isLive e.1) ++
        (t.newcomers contacts now).zipIdx r.count
      count := r.count + (t.newcomers contacts now).length }
  | .teardown => { rows := [], count := 0 }

/-- The register after a run. -/
def registerAll (t : Tracker) (r : Register) : List Call → Register
  | [] => r
  | c :: calls => (t.call c).registerAll (t.register r c) calls

/-- The register after a run of a new tracker. -/
def registered (t : Tracker) (calls : List Call) : Register :=
  t.registerAll { rows := [], count := 0 } calls

/-- The register is that of the tracker. -/
structure Registered (t : Tracker) (r : Register) : Prop where
  entries_eq : t.pool.entries.map (fun e => (e.1, e.2.id)) =
    r.rows.map fun e => (e.1, UInt32.ofNat e.2)
  increasing : r.rows.Pairwise (·.2 < ·.2)
  below : ∀ e ∈ r.rows, e.2 < r.count
  nextId_eq : t.nextId = UInt32.ofNat r.count

variable {s : Settings} {t t₀ : Tracker} {r : Register} {n : Nat} {b : Bool}
variable {contacts : List Contact} {now : Timestamp}

/-! ## A call -/

/-- The ids of the new fingers are the numbers that come next. -/
theorem ids_arrivals (hp : t.pool.Shaped) (hid : t.nextId = UInt32.ofNat r.count) :
    (t.arrivals contacts now).map (fun a => (a.handle, a.finger.id)) =
      ((t.newcomers contacts now).zipIdx r.count).map fun e => (e.1, UInt32.ofNat e.2) := by
  have hids : (t.arrivals contacts now).map (·.finger.id) =
      (List.range (t.arrivals contacts now).length).map fun i => t.nextId + UInt32.ofNat i :=
    arrivals_ids ..
  apply List.ext_getElem?
  intro i
  have hi := congrArg (·[i]?) hids
  simp only [List.getElem?_map] at hi
  rw [newcomers_eq _ _ hp, List.getElem?_map, List.getElem?_map, List.getElem?_zipIdx,
    List.getElem?_map]
  cases ha : (t.arrivals contacts now)[i]? with
  | none => rfl
  | some a =>
    obtain ⟨hlt, -⟩ := List.getElem?_eq_some_iff.mp ha
    rw [ha, List.getElem?_range hlt, hid] at hi
    have hcount : a.finger.id = UInt32.ofNat (r.count + i) := by
      rw [UInt32.ofNat_add]
      exact Option.some_inj.mp hi
    simp only [Option.map_some, hcount]

/-- A finger that was active before a frame is active after it if it has claimed a contact. -/
theorem isLive_frame_of_mem (hp : t.pool.Settled n b) {h : Handle} (hh : h ∈ t.pool.handles) :
    (t.frame contacts now).tracker.pool.isLive h = (t.claims contacts).isMatched h := by
  obtain ⟨f, hf⟩ := Pool.mem_handles_iff.mp hh
  have hlive := isLive_frame contacts now hp (follow_mem_present contacts now hf)
  rw [fst_followEntry, isMatched_old contacts now hp.shaped hh] at hlive
  exact hlive

/-- The rows that stay are those of the fingers that stay. -/
theorem rows_filter_isLive (hp : t.pool.Settled n b) (hr : t.Registered r) :
    ((r.rows.filter fun e => (t.frame contacts now).tracker.pool.isLive e.1).map
        fun e => (e.1, UInt32.ofNat e.2)) =
      (t.pool.entries.filter fun e => (t.claims contacts).isMatched e.1).map
        fun e => (e.1, e.2.id) := by
  let live (e : Handle × UInt32) : Bool := (t.frame contacts now).tracker.pool.isLive e.1
  have hstay : (t.pool.entries.filter fun e => (t.claims contacts).isMatched e.1) =
      t.pool.entries.filter fun e => live (e.1, e.2.id) := by
    apply List.filter_congr
    intro e he
    exact (isLive_frame_of_mem hp (Pool.mem_handles_iff.mpr ⟨e.2, he⟩)).symm
  have hrows := congrArg (List.filter live) hr.entries_eq
  rw [List.filter_map, List.filter_map] at hrows
  rw [hstay]
  exact hrows.symm

/-- A frame keeps the register in step with the tracker. -/
theorem registered_frame (hp : t.pool.Settled n b) (hr : t.Registered r) (contacts : List Contact)
    (now : Timestamp) :
    (t.frame contacts now).tracker.Registered (t.register r (.frame contacts now)) := by
  have hnum : ∀ e ∈ (t.newcomers contacts now).zipIdx r.count,
      r.count ≤ e.2 ∧ e.2 < r.count + (t.newcomers contacts now).length := by
    intro e he
    obtain ⟨hle, hlt, -⟩ := List.mem_zipIdx he
    exact ⟨hle, hlt⟩
  refine ⟨?_, ?_, ?_, ?_⟩
  · rw [entries_frame contacts now hp]
    show _ = List.map _ (_ ++ _)
    rw [List.map_append, List.map_append, ← ids_arrivals hp.shaped hr.nextId_eq,
      rows_filter_isLive hp hr, List.map_map, List.map_map]
    simp only [Function.comp_def, goOn, Arrived.entry, followEntry, id_follow]
  · refine List.pairwise_append.mpr ⟨hr.increasing.filter _, ?_, ?_⟩
    · rw [← List.pairwise_map, List.zipIdx_map_snd]
      exact List.pairwise_lt_range'
    · intro d hd e he
      exact Nat.lt_of_lt_of_le (hr.below d (List.mem_filter.mp hd).1) (hnum e he).1
  · intro e he
    rcases List.mem_append.mp he with he | he
    · exact Nat.lt_of_lt_of_le (hr.below e (List.mem_filter.mp he).1) (Nat.le_add_right ..)
    · exact (hnum e he).2
  · show _ = UInt32.ofNat (r.count + _)
    rw [nextId_frame contacts now hp.shaped, hr.nextId_eq, newcomers_eq _ _ hp.shaped,
      List.length_map, UInt32.ofNat_add]

/-- A teardown begins the numbers anew, in the register as in the tracker. -/
theorem registered_teardown (hp : t.pool.Shaped) :
    t.teardown.1.Registered (t.register r .teardown) := by
  obtain ⟨q, hq, -, -, hent, -⟩ := Pool.freeAll_spec hp
  refine ⟨?_, List.Pairwise.nil, nofun, rfl⟩
  show t.pool.freeAll.1.entries.map _ = _
  rw [hq, hent]
  rfl

/-! ## Any run -/

theorem registered_calls (calls : List Call) :
    ∀ {t : Tracker} {r : Register}, Sound s t → t.Registered r →
      (t.after calls).Registered (t.registerAll r calls) := by
  induction calls with
  | nil => exact fun _ hr => hr
  | cons c calls ih =>
    intro t r ht hr
    refine ih (sound_call ht c) ?_
    cases c with
    | frame contacts now => exact registered_frame ht.settled hr contacts now
    | teardown => exact registered_teardown ht.settled.shaped

/-- A new register has no rows. -/
theorem registered_new (h : Tracker.new s = .ok t₀) :
    t₀.Registered { rows := [], count := 0 } := by
  refine ⟨?_, List.Pairwise.nil, nofun, nextId_new h⟩
  rw [entries_new h]
  rfl

/-- After any run of a new tracker its register says which fingers are active, and gives their
ids. -/
theorem registered_after (h : Tracker.new s = .ok t₀) (calls : List Call) :
    (t₀.after calls).Registered (t₀.registered calls) :=
  registered_calls calls (sound_new h) (registered_new h)

/-! ## Ids that are given out twice -/

theorem map_id_fingers (hp : t.pool.Shaped) (hr : t.Registered r) :
    t.pool.fingers.map (·.id) = r.rows.map fun e => UInt32.ofNat e.2 := by
  have h := congrArg (List.map Prod.snd) hr.entries_eq
  rw [List.map_map, List.map_map] at h
  rw [Pool.fingers_eq hp, List.map_map]
  exact h

/-- Two numbers less than 2³² apart give different ids. -/
theorem nodup_of_recent (hr : t.Registered r)
    (hrecent : ∀ e ∈ r.rows, r.count ≤ e.2 + UInt32.size) :
    (r.rows.map (·.2 % UInt32.size)).Nodup := by
  rw [List.Nodup, List.pairwise_map]
  refine hr.increasing.imp_of_mem ?_
  intro d e hd he hlt
  have hbelow := hr.below e he
  have hle := hrecent d hd
  unfold UInt32.size at hle ⊢
  omega

/-- **Ids and numbers.** After any run the active fingers have different ids exactly if their
numbers are different modulo 2³². They have as long as none of them is older than the 2³² fingers
that have started last. -/
theorem nodup_ids_iff (h : Tracker.new s = .ok t₀) (calls : List Call) :
    (((t₀.after calls).pool.fingers.map (·.id)).Nodup ↔
      ((t₀.registered calls).rows.map (·.2 % UInt32.size)).Nodup) ∧
    ((∀ e ∈ (t₀.registered calls).rows, (t₀.registered calls).count ≤ e.2 + UInt32.size) →
      ((t₀.after calls).pool.fingers.map (·.id)).Nodup) := by
  have hr := registered_after h calls
  have hiff : ((t₀.after calls).pool.fingers.map (·.id)).Nodup ↔
      ((t₀.registered calls).rows.map (·.2 % UInt32.size)).Nodup := by
    rw [map_id_fingers (sound_after h calls).settled.shaped hr,
      ← List.nodup_map_iff (f := UInt32.toNat) fun _ _ => UInt32.toNat_inj.mp, List.map_map]
    simp only [Function.comp_def, UInt32.toNat_ofNat']
  exact ⟨hiff, fun hrecent => hiff.mpr (nodup_of_recent hr hrecent)⟩

/-- A finger leaves, another one stays, and a third one starts. -/
theorem nodup_ids_iff_of_three :
    ∃ t₀, Tracker.new {} = .ok t₀ ∧
      let calls : List Call := [.frame [⟨10, 10, 1⟩, ⟨500, 500, 1⟩] Timestamp.epoch,
        .frame [⟨500, 500, 1⟩] Timestamp.epoch,
        .frame [⟨10, 10, 1⟩, ⟨500, 500, 1⟩] Timestamp.epoch]
      (t₀.registered calls).rows.map (·.2) = [1, 2] ∧
        ((t₀.after calls).pool.fingers.map (·.id)).Nodup := by
  obtain ⟨t₀, h⟩ : ∃ t₀, Tracker.new {} = .ok t₀ := ⟨_, rfl⟩
  obtain ⟨-, ht₀⟩ := new_eq_ok h
  refine ⟨t₀, h, ?_⟩
  intro calls
  refine ⟨?_, (nodup_ids_iff h calls).2 ?_⟩
  · subst ht₀
    decide +kernel
  · subst ht₀
    decide +kernel

end Tracker

/-! ## A finger that is held while others come and go -/

namespace Matching

variable {p : Pool} {T : MatchTable} {c : Contact} {h : Handle}

theorem squaredDistance_nonneg (c : Contact) (q : Sample) : 0 ≤ squaredDistance c q := by
  unfold squaredDistance
  exact Int.add_nonneg (mul_self_nonneg _) (mul_self_nonneg _)

theorem distanceTo?_nonneg {d : Int} (hd : distanceTo? p c h = some d) : 0 ≤ d := by
  obtain ⟨q, -, rfl⟩ := Option.map_eq_some_iff.mp hd
  exact squaredDistance_nonneg c q

/-- The oldest finger is claimed by a contact that is where it is, if it is not claimed yet. -/
theorem nearest?_of_zero {hs : List Handle} (hh : p.handles = h :: hs)
    (hd : distanceTo? p c h = some 0) (hT : T.get? h = none) : nearest? p T c = some (h, 0) :=
  nearest?_of_first hh (canClaim_of_none hd hT) fun _ _ _ hk => distanceTo?_nonneg hk.1

/-- A finger that is claimed from where it is is claimed by no other contact. -/
theorem nearest?_of_claimed (hh : p.handles = [h]) (hT : T.distance? h = some 0) (c : Contact) :
    nearest? p T c = none := by
  refine nearest?_of_none ?_
  intro k hk d hcan
  rw [hh, List.mem_singleton] at hk
  obtain ⟨hd, hfree⟩ := hcan
  rw [claimable, hk, hT] at hfree
  exact absurd (of_decide_eq_true hfree) (Int.not_lt.mpr (distanceTo?_nonneg hd))

end Matching

namespace Tracker

variable {s : Settings} {t t₀ : Tracker} {a c : Contact} {id : UInt32} {h : Handle} {f : Finger}

/-- The finger has this id, is where the contact is and follows it. -/
def StaysAt (c : Contact) (id : UInt32) (f : Finger) : Prop :=
  f.id = id ∧ follows f c = true ∧ f.trail.last?.map (fun q => (q.x, q.y)) = some (c.x, c.y)

instance (c : Contact) (id : UInt32) (f : Finger) : Decidable (StaysAt c id f) :=
  inferInstanceAs (Decidable (_ ∧ _ ∧ _))

/-- A finger that stays where the contact is has distance zero from it, the least there is. -/
theorem distanceTo?_of_staysAt (hp : t.pool.Shaped) (he : (h, f) ∈ t.pool.entries)
    (hf : StaysAt a id f) : distanceTo? t.pool a h = some 0 := by
  obtain ⟨q, hq, hxy⟩ := Option.map_eq_some_iff.mp hf.2.2
  obtain ⟨hx, hy⟩ := Prod.mk.inj hxy
  rw [distanceTo?, (Pool.get?_eq_some_iff hp).mpr he, Option.bind_some, hq, Option.map_some,
    squaredDistance, hx, hy, Int.sub_self, Int.sub_self]
  rfl

/-- The claim of the first contact of a frame on the oldest finger, which is where it is. -/
def firstClaim (t : Tracker) (h : Handle) : MatchTable :=
  (MatchTable.empty t.pool.capacity).set h (.contact 0 0)

/-- So it is the one that is claimed, whoever else there is. -/
theorem claims_single {rest : List (Handle × Finger)} (hp : t.pool.Shaped)
    (he : t.pool.entries = (h, f) :: rest) (hf : StaysAt a id f) :
    t.claims [a] = t.firstClaim h := by
  have hd := distanceTo?_of_staysAt hp (he ▸ List.mem_cons_self ..) hf
  have hhandles : t.pool.handles = h :: rest.map (·.1) := by
    rw [Pool.handles_eq, he, List.map_cons]
  show claim t.pool (MatchTable.empty t.pool.capacity) 0 a = _
  rw [claim, nearest?_of_zero hhandles hd (get?_empty ..)]
  rfl

theorem get?_firstClaim (hp : t.pool.Shaped) (hh : h ∈ t.pool.handles) :
    (t.firstClaim h).get? h = some (.contact 0 0) := by
  refine get?_set_self ?_ _
  rw [MatchTable.empty, Array.size_replicate]
  exact Pool.index_lt_capacity hp hh

/-- The second contact finds the finger claimed from nearer than it could. -/
theorem claims_pair (hp : t.pool.Shaped) (he : t.pool.entries = [(h, f)]) (hf : StaysAt a id f)
    (c : Contact) : t.claims [a, c] = t.firstClaim h := by
  have hhandles : t.pool.handles = [h] := by
    rw [Pool.handles_eq, he]
    rfl
  have hdistance : (t.firstClaim h).distance? h = some 0 := by
    rw [distance?, get?_firstClaim hp (hhandles ▸ List.mem_cons_self ..)]
  show claim t.pool (t.claims [a]) 1 c = _
  rw [claims_single hp he hf, claim, nearest?_of_claimed hhandles hdistance]

/-- The finger stays where it is. -/
theorem staysAt_moved (hfits : f.trail.Fits n b) (hf : StaysAt a id f) (hb : b = false)
    (ha : half a.weight ≤ a.weight.toInt) (now : Timestamp) :
    StaysAt a id (goOn (h, Matching.moved f a now)).2 := by
  refine ⟨hf.1, decide_eq_true ha, ?_⟩
  show (f.trail.push a.x a.y now).last?.map _ = _
  rw [Trail.last?_push hfits.stays, hfits.filtered_eq, hb]
  rfl

/-- Only the finger with the id `id` is down, where the contact `a` is. -/
structure Holding (s : Settings) (a : Contact) (id : UInt32) (t : Tracker) : Prop where
  sound : Sound s t
  alone : ∃ h f, t.pool.entries = [(h, f)] ∧ StaysAt a id f

/-- The other fingers are not claimed. -/
theorem get?_firstClaim_of_mem {rest : List (Handle × Finger)} (hp : t.pool.Shaped)
    (he : t.pool.entries = (h, f) :: rest) {e : Handle × Finger} (hmem : e ∈ rest) :
    (t.firstClaim h).get? e.1 = none := by
  have hne := Pool.index_ne_of_entries hp (he.trans (List.nil_append _).symm) e hmem
  rw [firstClaim, get?_set_of_index_ne hne, get?_empty]

/-- If the first contact is all that is claimed, it is taken off the frame, and the fingers start
from the contacts behind it. -/
theorem arrivals_of_firstClaim {rest : List (Handle × Finger)} {cs : List Contact}
    (hp : t.pool.Shaped) (he : t.pool.entries = (h, f) :: rest)
    (hclaims : t.claims (a :: cs) = t.firstClaim h) (now : Timestamp) :
    t.arrivals (a :: cs) now = Matching.arrivals t.threshold now 1 cs t.pool.spares t.nextId 0 := by
  have hclaim : (t.firstClaim h).claim? h = some 0 := by
    rw [claim?, get?_firstClaim hp (Pool.mem_handles_iff.mpr ⟨f, he ▸ List.mem_cons_self ..⟩)]
  have hrest : (rest.filterMap fun e => (t.firstClaim h).claim? e.1) = [] := by
    apply List.filterMap_eq_nil_iff.mpr
    intro e hmem
    rw [claim?, get?_firstClaim_of_mem hp he hmem]
  have htaken : (t.pool.entries.filterMap fun e => (t.claims (a :: cs)).claim? e.1) = [0] := by
    rw [hclaims, he, List.filterMap_cons, hclaim, hrest]
  have hoff : takenOff [0] (a :: cs) = a.consumed :: cs := (set_consumed_eq_takenOff rfl).symm
  have hgone : ¬ qualifies t.threshold a.consumed = true :=
    not_qualifies_of_isAbsent a.isAbsent_consumed
  rw [arrivals, frame_moved _ _ hp, htaken, hoff, Matching.arrivals, arrival?, if_neg hgone]
  simp only [if_neg hgone]

/-- A frame whose first contact is all that is claimed, by the oldest finger: this finger stays, the
others leave, and the contacts behind the first one start what they can. -/
theorem frame_held {rest : List (Handle × Finger)} {cs : List Contact} (hp : t.pool.Settled n b)
    (he : t.pool.entries = (h, f) :: rest) (hf : StaysAt a id f)
    (hclaims : t.claims (a :: cs) = t.firstClaim h) (now : Timestamp) :
    (t.frame (a :: cs) now).tracker.pool.entries = goOn (h, Matching.moved f a now) ::
        (Matching.arrivals t.threshold now 1 cs t.pool.spares t.nextId 0).map
          (fun d => goOn d.entry) ∧
      (t.frame (a :: cs) now).tracker.nextId = t.nextId + UInt32.ofNat
        (Matching.arrivals t.threshold now 1 cs t.pool.spares t.nextId 0).length := by
  have harr := arrivals_of_firstClaim hp.shaped he hclaims now
  have hget : (t.claims (a :: cs)).get? h = some (.contact 0 0) := by
    rw [hclaims]
    exact get?_firstClaim hp.shaped (Pool.mem_handles_iff.mpr ⟨f, he ▸ List.mem_cons_self ..⟩)
  have hfollow : followEntry (t.claims (a :: cs)) (a :: cs) now (h, f) =
      (h, Matching.moved f a now) := by
    rw [followEntry, claim?, hget, follow_some (c := a) rfl, if_pos hf.2.1]
  have hmatched : (t.claims (a :: cs)).isMatched h = true := by
    rw [isMatched, hget]
    rfl
  have hrest : (rest.filter fun e => (t.claims (a :: cs)).isMatched e.1) = [] := by
    apply List.filter_eq_nil_iff.mpr
    intro e hmem
    rw [isMatched, hclaims, get?_firstClaim_of_mem hp.shaped he hmem]
    exact Bool.false_ne_true
  refine ⟨?_, ?_⟩
  · rw [entries_frame _ _ hp, he, harr, List.filter_cons_of_pos (by simpa using hmatched), hrest,
      List.map_singleton, hfollow, List.singleton_append]
  · rw [nextId_frame _ _ hp.shaped, harr]

/-- A second contact beside the held finger starts another one. -/
theorem frame_pair (hs : s.filtered = false) (ha : half a.weight ≤ a.weight.toInt)
    (hc : qualifies s.threshold c = true) (hcap : 1 < s.poolCapacity) (ht : Holding s a id t)
    (now : Timestamp) :
    ∃ h f g, (t.frame [a, c] now).tracker.pool.entries = [(h, f), g] ∧ StaysAt a id f ∧
      g.2.id = t.nextId ∧ (t.frame [a, c] now).tracker.nextId = t.nextId + 1 := by
  obtain ⟨hsound, h, f, he, hf⟩ := ht
  have hp := hsound.settled
  obtain ⟨hent, hnext⟩ := frame_held hp he hf (claims_pair hp.shaped he hf c) now
  obtain ⟨e, rest, hspare⟩ := Pool.exists_spare hp.shaped (by
    rw [he, hsound.capacity_eq]
    exact hcap)
  have harr : Matching.arrivals t.threshold now 1 [c] t.pool.spares t.nextId 0 =
      [⟨1, e.1, started e.2.opened t.nextId c (staggered now 0)⟩] := by
    rw [hsound.threshold_eq, Matching.arrivals, arrival?, if_pos hc, hspare]
    rfl
  rw [harr] at hent hnext
  have hfits := (hp.active_down (h, f) (he ▸ List.mem_cons_self ..)).fits
  exact ⟨h, _, _, hent, staysAt_moved hfits hf hs ha now, rfl, hnext⟩

/-- Without its contact the other finger leaves. -/
theorem frame_single {rest : List (Handle × Finger)} (hs : s.filtered = false)
    (ha : half a.weight ≤ a.weight.toInt) (ht : Sound s t)
    (he : t.pool.entries = (h, f) :: rest) (hf : StaysAt a id f) (now : Timestamp) :
    Holding s a id (t.frame [a] now).tracker ∧ (t.frame [a] now).tracker.nextId = t.nextId := by
  have hp := ht.settled
  obtain ⟨hent, hnext⟩ := frame_held hp he hf (claims_single hp.shaped he hf) now
  have hfits := (hp.active_down (h, f) (he ▸ List.mem_cons_self ..)).fits
  exact ⟨⟨sound_frame ht _ now, h, _, hent, staysAt_moved hfits hf hs ha now⟩,
    hnext.trans (UInt32.add_zero _)⟩

/-- Another finger comes and goes `n` times while the contact `a` stays. -/
def rounds (a c : Contact) (now : Timestamp) (n : Nat) : List Call :=
  (List.replicate n [.frame [a, c] now, .frame [a] now]).flatten

/-- Each finger that comes and goes uses up one id. -/
theorem holding_rounds (hs : s.filtered = false) (ha : half a.weight ≤ a.weight.toInt)
    (hc : qualifies s.threshold c = true) (hcap : 1 < s.poolCapacity) (now : Timestamp) (n : Nat) :
    ∀ {t : Tracker}, Holding s a id t → Holding s a id (t.after (rounds a c now n)) ∧
      (t.after (rounds a c now n)).nextId = t.nextId + UInt32.ofNat n := by
  induction n with
  | zero => exact fun ht => ⟨ht, (UInt32.add_zero _).symm⟩
  | succ n ih =>
    intro t ht
    obtain ⟨h, f, g, he, hf, -, hnext⟩ := frame_pair hs ha hc hcap ht now
    obtain ⟨hround, hsame⟩ := frame_single hs ha (sound_frame ht.sound _ now) he hf now
    obtain ⟨hlast, hid⟩ := ih hround
    have hrounds : t.after (rounds a c now (n + 1)) =
        ((t.frame [a, c] now).tracker.frame [a] now).tracker.after (rounds a c now n) := by
      rw [rounds, List.replicate_succ, List.flatten_cons, after, List.foldl_append]
      rfl
    rw [hrounds]
    refine ⟨hlast, ?_⟩
    rw [hid, hsame, hnext, UInt32.add_assoc, Nat.add_comm n, UInt32.ofNat_add]
    rfl

/-- A finger has the id 0 and stays. When 2³² − 1 others have come and gone, the next one has the
id 0 as well. -/
theorem id_given_twice :
    ∃ t₀, Tracker.new {} = .ok t₀ ∧
      let held : Contact := ⟨10, 10, 1⟩
      let other : Contact := ⟨500, 500, 1⟩
      let calls := [.frame [held] Timestamp.epoch] ++
        rounds held other Timestamp.epoch 4294967295 ++ [.frame [held, other] Timestamp.epoch]
      (t₀.after calls).pool.fingers.map (·.id) = [0, 0] := by
  obtain ⟨t₀, h⟩ : ∃ t₀, Tracker.new {} = .ok t₀ := ⟨_, rfl⟩
  refine ⟨t₀, h, ?_⟩
  intro held other calls
  have hstart : Holding {} held 0 (t₀.after [.frame [held] Timestamp.epoch]) ∧
      (t₀.after [.frame [held] Timestamp.epoch]).nextId = 1 := by
    have hdown : ∃ e ∈ (t₀.after [.frame [held] Timestamp.epoch]).pool.entries,
        (t₀.after [.frame [held] Timestamp.epoch]).pool.entries = [e] ∧ StaysAt held 0 e.2 := by
      obtain ⟨-, ht₀⟩ := new_eq_ok h
      subst ht₀
      decide +kernel
    obtain ⟨e, -, he, hf⟩ := hdown
    refine ⟨⟨sound_after h _, e.1, e.2, he, hf⟩, ?_⟩
    obtain ⟨-, ht₀⟩ := new_eq_ok h
    subst ht₀
    decide +kernel
  obtain ⟨hholding, hnext⟩ := holding_rounds (s := {}) (c := other) rfl (by decide) (by decide)
    (by decide) Timestamp.epoch 4294967295 hstart.1
  obtain ⟨k, f, g, he, hf, hid, -⟩ :=
    frame_pair (c := other) rfl (by decide) (by decide) (by decide) hholding Timestamp.epoch
  have hcalls : t₀.after calls = (((t₀.after [.frame [held] Timestamp.epoch]).after
      (rounds held other Timestamp.epoch 4294967295)).frame [held, other]
        Timestamp.epoch).tracker := by
    rw [after_append, after_append, after_frame]
  rw [hcalls, Pool.fingers_eq (sound_frame hholding.sound _ _).settled.shaped, he]
  rw [hstart.2] at hnext
  rw [List.map_map, List.map_cons, List.map_cons, List.map_nil]
  show [f.id, g.2.id] = [0, 0]
  rw [hf.1, hid, hnext]
  rfl

end Tracker

end FingerTracking
