import FingerTracking.Proofs.Runs
import Mathlib.Data.List.Forall2

/-!
# What a frame does not look at

Two trackers whose fingers are alike, one by one in their order, do the same with contacts that are
alike, whatever slots the fingers are in. What has to be alike is left open: a `Likeness` is any
relation of fingers and contacts that leaves the distances between them, the weights that are
compared and the contacts that are heavy enough the same, and that moved and started fingers are in
again.

> `tally_assign`: claims depend on distances alone. Each finger claims as its mate does.
>
> `alikeIn_frame`: after a frame the fingers are alike again, those that are told about as well as
> those that stay, and the same contacts are taken off.
-/

namespace FingerTracking

open MatchTable Matching

namespace Matching

/-! ## Claims depend on distances alone -/

section Pairs

variable {ws : List (Handle × Handle)} {p q : Pool} {c d : Contact} {T U : MatchTable}

/-- The active fingers of two pools, two by two. -/
structure Paired (ws : List (Handle × Handle)) (p q : Pool) : Prop where
  left : p.handles = ws.map (·.1)
  right : q.handles = ws.map (·.2)

/-- One contact is as far from a finger of the one pool as the other is from its mate. -/
def Level (ws : List (Handle × Handle)) (p q : Pool) (c d : Contact) : Prop :=
  ∀ w ∈ ws, distanceTo? p c w.1 = distanceTo? q d w.2

/-- A finger stands in the one table as its mate does in the other. -/
def Tally (ws : List (Handle × Handle)) (T U : MatchTable) : Prop :=
  ∀ w ∈ ws, T.get? w.1 = U.get? w.2

/-- The best fingers so far are mates, equally far, or there are none. -/
def Mates (ws : List (Handle × Handle)) (a b : Option (Handle × Int)) : Prop :=
  a = none ∧ b = none ∨ ∃ w ∈ ws, ∃ e, a = some (w.1, e) ∧ b = some (w.2, e)

/-- The search goes on with mates if it has come to mates, and so it ends with mates. -/
theorem mates_better (hl : Level ws p q c d) (ht : Tally ws T U) {a b : Option (Handle × Int)}
    (hab : Mates ws a b) {w : Handle × Handle} (hw : w ∈ ws) :
    Mates ws (better p T c a w.1) (better q U d b w.2) := by
  have hclaimable : ∀ e, claimable T w.1 e = claimable U w.2 e := by
    intro e
    rw [claimable, claimable, distance?, distance?, ht w hw]
  unfold better
  rw [← hl w hw]
  cases distanceTo? p c w.1 with
  | none => exact hab
  | some e =>
    simp only [← hclaimable e]
    by_cases hfree : claimable T w.1 e = true
    · rw [if_pos hfree, if_pos hfree]
      rcases hab with ⟨rfl, rfl⟩ | ⟨v, hv, least, rfl, rfl⟩
      · exact Or.inr ⟨w, hw, e, rfl, rfl⟩
      · dsimp only
        split
        next => exact Or.inr ⟨w, hw, e, rfl, rfl⟩
        next => exact Or.inr ⟨v, hv, least, rfl, rfl⟩
    · rw [if_neg hfree, if_neg hfree]
      exact hab

theorem mates_foldl (hl : Level ws p q c d) (ht : Tally ws T U) :
    ∀ (vs : List (Handle × Handle)) {a b : Option (Handle × Int)}, (∀ w ∈ vs, w ∈ ws) →
      Mates ws a b →
      Mates ws ((vs.map (·.1)).foldl (better p T c) a) ((vs.map (·.2)).foldl (better q U d) b)
  | [], _, _, _, hab => hab
  | w :: vs, _, _, hvs, hab =>
    mates_foldl hl ht vs (fun v hv => hvs v (List.mem_cons_of_mem _ hv))
      (mates_better hl ht hab (hvs w (List.mem_cons_self ..)))

/-- The nearest fingers that can be claimed are mates. -/
theorem mates_nearest? (hw : Paired ws p q) (hl : Level ws p q c d) (ht : Tally ws T U) :
    Mates ws (nearest? p T c) (nearest? q U d) := by
  rw [nearest?, nearest?, hw.left, hw.right]
  exact mates_foldl hl ht ws (fun _ hv => hv) (Or.inl ⟨rfl, rfl⟩)

/-- Two entries written for mates are read by them and by nobody else. -/
theorem tally_set (hp : p.Shaped) (hq : q.Shaped) (hw : Paired ws p q) (ht : Tally ws T U)
    (hT : T.entries.size = p.capacity) (hU : U.entries.size = q.capacity) {w : Handle × Handle}
    (hmem : w ∈ ws) (m : Match) : Tally ws (T.set w.1 m) (U.set w.2 m) := by
  intro v hv
  by_cases heq : v = w
  · subst heq
    have hleft := Pool.index_lt_capacity hp (hw.left ▸ List.mem_map_of_mem hmem)
    have hright := Pool.index_lt_capacity hq (hw.right ▸ List.mem_map_of_mem hmem)
    rw [get?_set_self (hT ▸ hleft), get?_set_self (hU ▸ hright)]
  · -- mates are in different slots than other mates, in both pools
    have hnodup₁ := Pool.nodup_index_handles hp
    have hnodup₂ := Pool.nodup_index_handles hq
    rw [hw.left, List.map_map] at hnodup₁
    rw [hw.right, List.map_map] at hnodup₂
    rw [get?_set_of_index_ne fun he => heq (List.inj_on_of_nodup_map hnodup₁ hv hmem he),
      get?_set_of_index_ne fun he => heq (List.inj_on_of_nodup_map hnodup₂ hv hmem he)]
    exact ht v hv

/-- A contact and its like claim a finger and its mate. -/
theorem tally_claim (hp : p.Shaped) (hq : q.Shaped) (hw : Paired ws p q) (hl : Level ws p q c d)
    (ht : Tally ws T U) (hT : T.entries.size = p.capacity) (hU : U.entries.size = q.capacity)
    (j : Nat) : Tally ws (claim p T j c) (claim q U j d) := by
  unfold claim
  rcases mates_nearest? hw hl ht with ⟨hnone, hnone'⟩ | ⟨w, hmem, e, hsome, hsome'⟩
  · rw [hnone, hnone']
    exact ht
  · rw [hsome, hsome']
    exact tally_set hp hq hw ht hT hU hmem _

/-- So do all contacts in turn, and the tables tally at the end. -/
theorem tally_assignFrom (hp : p.Shaped) (hq : q.Shaped) (hw : Paired ws p q)
    {cs ds : List Contact} (hl : List.Forall₂ (Level ws p q) cs ds) :
    ∀ (j : Nat) {T U : MatchTable}, T.entries.size = p.capacity → U.entries.size = q.capacity →
      Tally ws T U → Tally ws (assignFrom p j cs T) (assignFrom q j ds U) := by
  induction hl with
  | nil => exact fun _ _ _ _ _ ht => ht
  | cons hone _ ih =>
    intro j T U hT hU ht
    exact ih (j + 1) ((size_claim ..).trans hT) ((size_claim ..).trans hU)
      (tally_claim hp hq hw hone ht hT hU j)

/-- Where all contacts are level, the claims tally. -/
theorem tally_assign (hp : p.Shaped) (hq : q.Shaped) (hw : Paired ws p q) {cs ds : List Contact}
    (hl : List.Forall₂ (Level ws p q) cs ds) : Tally ws (assign p cs) (assign q ds) := by
  refine tally_assignFrom hp hq hw hl 0 Array.size_replicate Array.size_replicate ?_
  intro w _
  rw [get?_empty, get?_empty]

end Pairs

/-! ## Likenesses -/

/-- Fingers and contacts that a frame at `now` takes for the same as others at `now'`. -/
structure Likeness (s s' : Settings) (now now' : Timestamp) (F : Finger → Finger → Prop)
    (C : Contact → Contact → Prop) : Prop where
  distance_eq : ∀ {f g c d}, F f g → C c d →
    f.trail.last?.map (squaredDistance c) = g.trail.last?.map (squaredDistance d)
  follows_eq : ∀ {f g c d}, F f g → C c d → follows f c = follows g d
  qualifies_eq : ∀ {c d}, C c d → qualifies s.threshold c = qualifies s'.threshold d
  moved : ∀ {f g c d}, F f g → C c d → F (moved f c now) (moved g d now')
  started : ∀ {f g : Finger} {c d : Contact}, f.Resting s.trailLength s.filtered →
    g.Resting s'.trailLength s'.filtered → C c d → ∀ id tries,
    F (started f.opened id c (staggered now tries)) (started g.opened id d (staggered now' tries))
  goOn : ∀ {f g}, F f g → F { f with phase := .down } { g with phase := .down }

namespace Likeness

variable {s s' : Settings} {now now' : Timestamp} {F : Finger → Finger → Prop}
variable {C : Contact → Contact → Prop} {cs ds : List Contact} {f g : Finger}

/-- Mates that have claimed the same contact are alike when they have followed it. -/
theorem follow (hL : Likeness s s' now now' F C) (hf : F f g) (hc : List.Forall₂ C cs ds)
    (claim : Option Nat) : F (follow cs now claim f) (follow ds now' claim g) := by
  cases claim with
  | none => exact hf
  | some j =>
    by_cases hj : j < cs.length
    · have hj' : j < ds.length := hc.length_eq ▸ hj
      have hone : C cs[j] ds[j] := hc.get hj hj'
      rw [follow_some (List.getElem?_eq_getElem hj), follow_some (List.getElem?_eq_getElem hj'),
        ← hL.follows_eq hf hone]
      split
      · exact hL.moved hf hone
      · exact hf
    · have hj' : ¬ j < ds.length := hc.length_eq ▸ hj
      rw [Matching.follow, Matching.follow, Option.bind_some, Option.bind_some,
        List.getElem?_eq_none (Nat.le_of_not_lt hj), List.getElem?_eq_none (Nat.le_of_not_lt hj')]
      exact hf

/-- Like contacts, or contacts that start no finger. -/
def Left (s s' : Settings) (C : Contact → Contact → Prop) (c d : Contact) : Prop :=
  qualifies s.threshold c = qualifies s'.threshold d ∧ (qualifies s.threshold c = true → C c d)

theorem not_qualifies_consumed (threshold : Int32) (c : Contact) :
    qualifies threshold c.consumed = false := by
  rw [qualifies, Contact.isAbsent_consumed, Bool.not_true, Bool.false_and]

/-- Where the same contacts are taken off, those left start the same fingers. -/
theorem left_takenOff (hL : Likeness s s' now now' F C) (hc : List.Forall₂ C cs ds)
    (js : List Nat) : List.Forall₂ (Left s s' C) (takenOff js cs) (takenOff js ds) := by
  rw [List.forall₂_iff_get]
  refine ⟨by rw [length_takenOff, length_takenOff, hc.length_eq], ?_⟩
  intro j hj hj'
  rw [length_takenOff] at hj hj'
  have hone : C cs[j] ds[j] := hc.get hj hj'
  simp only [takenOff, List.get_eq_getElem, List.getElem_mapIdx]
  split
  · refine ⟨by rw [not_qualifies_consumed, not_qualifies_consumed], ?_⟩
    rw [not_qualifies_consumed]
    exact fun h => absurd h Bool.false_ne_true
  · exact ⟨hL.qualifies_eq hone, fun _ => hone⟩

/-- Like contacts start like fingers, as long as there are slots for both or for neither. -/
theorem arrivals (hL : Likeness s s' now now' F C) {cs ds : List Contact}
    (hc : List.Forall₂ (Left s s' C) cs ds) :
    ∀ (j : Nat) {ss ss' : List (Handle × Finger)} (id : UInt32) (tries : Nat),
      (∀ e ∈ ss, e.2.Resting s.trailLength s.filtered) →
      (∀ e ∈ ss', e.2.Resting s'.trailLength s'.filtered) →
      min (cs.countP (qualifies s.threshold)) ss.length =
        min (cs.countP (qualifies s.threshold)) ss'.length →
      List.Forall₂ (fun a b => a.index = b.index ∧ F a.finger b.finger)
        (arrivals s.threshold now j cs ss id tries)
        (arrivals s'.threshold now' j ds ss' id tries) := by
  induction hc with
  | nil => exact fun _ _ _ _ _ _ _ _ => List.Forall₂.nil
  | @cons c d cs ds hone _ ih =>
    intro j ss ss' id tries hs hs' hroom
    obtain ⟨hq, hlike⟩ := hone
    rw [Matching.arrivals, Matching.arrivals, arrival?, arrival?, ← hq]
    by_cases hyes : qualifies s.threshold c = true
    · rw [List.countP_cons_of_pos hyes] at hroom
      simp only [if_pos hyes]
      -- a contact that qualifies finds a slot on both sides or on neither
      cases ss with
      | nil =>
        cases ss' with
        | nil => exact ih (j + 1) id (tries + 1) hs hs' rfl
        | cons e' rest' => simp at hroom
      | cons e rest =>
        cases ss' with
        | nil => simp at hroom
        | cons e' rest' =>
          refine List.Forall₂.cons ⟨rfl, hL.started (hs e (List.mem_cons_self ..))
            (hs' e' (List.mem_cons_self ..)) (hlike hyes) id tries⟩ ?_
          refine ih (j + 1) (id + 1) (tries + 1) (fun x hx => hs x (List.mem_cons_of_mem _ hx))
            (fun x hx => hs' x (List.mem_cons_of_mem _ hx)) ?_
          rw [List.length_cons, List.length_cons] at hroom
          simp only [List.tail_cons]
          omega
    · rw [List.countP_cons_of_neg hyes] at hroom
      simp only [if_neg hyes]
      exact ih (j + 1) id tries hs hs' hroom

end Likeness

end Matching

namespace Tracker

/-! ## A frame -/

section Heard

variable {n : Nat} {b : Bool} {t : Tracker} (contacts : List Contact) (now : Timestamp)

/-- The fingers that a frame tells about, in the order of their groups of events, each with whether
it leaves. -/
def heard (t : Tracker) (contacts : List Contact) (now : Timestamp) : List (Finger × Bool) :=
  (t.present contacts now).map fun e => (e.2, !(t.matched contacts now).table.isMatched e.1)

/-- What is heard in a frame: first of the old fingers, then of the new. -/
theorem heard_eq (hp : t.pool.Shaped) :
    t.heard contacts now =
      (t.pool.entries.map fun e =>
        (follow contacts now ((t.claims contacts).claim? e.1) e.2,
          !(t.claims contacts).isMatched e.1)) ++
      (t.arrivals contacts now).map fun a => (a.finger, false) := by
  rw [heard, present, List.map_append, List.map_map, List.map_map]
  congr 1
  · apply List.map_congr_left
    intro e he
    have hh : e.1 ∈ t.pool.handles := Pool.mem_handles_iff.mpr ⟨e.2, he⟩
    exact Prod.ext rfl (congrArg (!·) (isMatched_old contacts now hp hh))
  · apply List.map_congr_left
    intro a ha
    exact Prod.ext rfl (congrArg (!·) (isMatched_arrival contacts now hp ha))

/-- The events of a frame are what its fingers are told. -/
theorem events_heard (hp : t.pool.Settled n b) :
    (t.frame contacts now).events =
      closed ((t.heard contacts now).flatMap fun x => x.1.told x.2) now := by
  rw [events_frame_present contacts now hp, heard, List.flatMap_map]

/-- The fingers after a frame are those that do not leave. -/
theorem fingers_frame (hp : t.pool.Settled n b) :
    (t.frame contacts now).tracker.pool.fingers =
      ((t.heard contacts now).filter (!·.2)).map fun x => { x.1 with phase := .down } := by
  obtain ⟨hs, -, hent, -, -, -⟩ := carry_matched contacts now hp
  rw [Pool.fingers_eq hs, hent, heard, List.filter_map, List.map_map, List.map_map]
  simp only [Function.comp_def, Bool.not_not, goOn]

end Heard

variable {s s' : Settings} {now now' : Timestamp} {F : Finger → Finger → Prop}
variable {C : Contact → Contact → Prop} {t u : Tracker} {cs ds : List Contact}

/-- The fingers of two trackers are alike, and so will be the ids of the next ones. -/
structure Alike (F : Finger → Finger → Prop) (t u : Tracker) : Prop where
  nextId_eq : t.nextId = u.nextId
  fingers : List.Forall₂ F t.pool.fingers u.pool.fingers

/-- Two frames after which the trackers are alike, that have told about like fingers and have
taken off the same contacts. -/
structure AlikeIn (F : Finger → Finger → Prop) (t u : Tracker) (cs ds : List Contact)
    (now now' : Timestamp) : Prop where
  after : Alike F (t.frame cs now).tracker (u.frame ds now').tracker
  heard : List.Forall₂ (fun x y => F x.1 y.1 ∧ x.2 = y.2) (t.heard cs now) (u.heard ds now')
  frame : ∃ js, (t.frame cs now).frame = takenOff js cs ∧ (u.frame ds now').frame = takenOff js ds

/-- The active fingers of two trackers, two by two and alike. -/
structure Mated (F : Finger → Finger → Prop) (es : List ((Handle × Finger) × (Handle × Finger)))
    (t u : Tracker) : Prop where
  left : t.pool.entries = es.map (·.1)
  right : u.pool.entries = es.map (·.2)
  like : ∀ e ∈ es, F e.1.2 e.2.2

/-- Fingers that are alike in their order can be paired off with their handles. -/
theorem exists_mated (ht : t.pool.Shaped) (hu : u.pool.Shaped)
    (hf : List.Forall₂ F t.pool.fingers u.pool.fingers) : ∃ es, Mated F es t u := by
  rw [Pool.fingers_eq ht, Pool.fingers_eq hu, List.forall₂_map_left_iff,
    List.forall₂_map_right_iff] at hf
  have hlen := hf.length_eq
  refine ⟨t.pool.entries.zip u.pool.entries, (List.map_fst_zip (Nat.le_of_eq hlen)).symm,
    (List.map_snd_zip (Nat.le_of_eq hlen.symm)).symm, ?_⟩
  intro e he
  exact List.forall₂_zip hf he

/-- Mates claim the same contacts. -/
theorem tally_claims (hL : Likeness s s' now now' F C) (ht : t.pool.Shaped) (hu : u.pool.Shaped)
    {es : List ((Handle × Finger) × (Handle × Finger))} (hm : Mated F es t u)
    (hc : List.Forall₂ C cs ds) :
    ∀ e ∈ es, (t.claims cs).get? e.1.1 = (u.claims ds).get? e.2.1 := by
  have hpaired : Paired (es.map fun e => (e.1.1, e.2.1)) t.pool u.pool := by
    refine ⟨?_, ?_⟩
    · rw [Pool.handles_eq, hm.left, List.map_map, List.map_map]
      rfl
    · rw [Pool.handles_eq, hm.right, List.map_map, List.map_map]
      rfl
  have hlevel : ∀ c d, C c d → Level (es.map fun e => (e.1.1, e.2.1)) t.pool u.pool c d := by
    intro c d hcd w hw
    obtain ⟨e, he, rfl⟩ := List.mem_map.mp hw
    have hleft : t.pool.get? e.1.1 = some e.1.2 :=
      (Pool.get?_eq_some_iff ht).mpr (hm.left ▸ List.mem_map_of_mem he)
    have hright : u.pool.get? e.2.1 = some e.2.2 :=
      (Pool.get?_eq_some_iff hu).mpr (hm.right ▸ List.mem_map_of_mem he)
    rw [distanceTo?, distanceTo?, hleft, hright]
    exact hL.distance_eq (hm.like e he) hcd
  intro e he
  exact tally_assign ht hu hpaired (hc.imp hlevel) (e.1.1, e.2.1) (List.mem_map.mpr ⟨e, he, rfl⟩)

section Mates

variable {es : List ((Handle × Finger) × (Handle × Finger))}

theorem claim?_mates (htally : ∀ e ∈ es, (t.claims cs).get? e.1.1 = (u.claims ds).get? e.2.1) :
    ∀ e ∈ es, (t.claims cs).claim? e.1.1 = (u.claims ds).claim? e.2.1 := by
  intro e he
  rw [claim?, claim?, htally e he]

/-- The same contacts are taken off. -/
theorem takenOff_mates (ht : t.pool.Shaped) (hu : u.pool.Shaped) (hm : Mated F es t u)
    (htally : ∀ e ∈ es, (t.claims cs).get? e.1.1 = (u.claims ds).get? e.2.1)
    (now now' : Timestamp) :
    ∃ js, (t.moved cs now).frame = takenOff js cs ∧ (u.moved ds now').frame = takenOff js ds := by
  refine ⟨_, frame_moved cs now ht, ?_⟩
  rw [frame_moved ds now' hu, hm.left, hm.right, List.filterMap_map, List.filterMap_map]
  congr 1
  apply List.filterMap_congr
  exact fun e he => (claim?_mates htally e he).symm

/-- The fingers that a frame tells about are alike, if those that start in it are. -/
theorem heard_mates (hL : Likeness s s' now now' F C) (ht : t.pool.Shaped) (hu : u.pool.Shaped)
    (hm : Mated F es t u)
    (htally : ∀ e ∈ es, (t.claims cs).get? e.1.1 = (u.claims ds).get? e.2.1)
    (hc : List.Forall₂ C cs ds)
    (harr : List.Forall₂ (fun a b => a.index = b.index ∧ F a.finger b.finger)
      (t.arrivals cs now) (u.arrivals ds now')) :
    List.Forall₂ (fun x y => F x.1 y.1 ∧ x.2 = y.2) (t.heard cs now) (u.heard ds now') := by
  rw [heard_eq cs now ht, heard_eq ds now' hu, hm.left, hm.right, List.map_map, List.map_map]
  refine List.rel_append ?_ ?_
  · rw [List.forall₂_map_left_iff, List.forall₂_map_right_iff, List.forall₂_same]
    intro e he
    refine ⟨?_, ?_⟩
    · show F (follow cs now ((t.claims cs).claim? e.1.1) e.1.2) (follow ds now' _ e.2.2)
      rw [claim?_mates htally e he]
      exact hL.follow (hm.like e he) hc _
    · show (!(t.claims cs).isMatched e.1.1) = !(u.claims ds).isMatched e.2.1
      rw [isMatched, isMatched, htally e he]
  · rw [List.forall₂_map_left_iff, List.forall₂_map_right_iff]
    exact harr.imp fun a b hab => ⟨hab.2, rfl⟩

end Mates

/-- Both trackers have slots for the fingers that should start in the frame, or equally many. -/
def RoomAlike (s : Settings) (t u : Tracker) (cs : List Contact) (now : Timestamp) : Prop :=
  min ((t.moved cs now).frame.countP (qualifies s.threshold)) t.pool.spares.length =
    min ((t.moved cs now).frame.countP (qualifies s.threshold)) u.pool.spares.length

/-- **Trackers that are alike stay alike.** -/
theorem alikeIn_frame (hL : Likeness s s' now now' F C) (ht : Sound s t) (hu : Sound s' u)
    (h : Alike F t u) (hc : List.Forall₂ C cs ds) (hroom : RoomAlike s t u cs now) :
    AlikeIn F t u cs ds now now' := by
  have hp := ht.settled
  have hq := hu.settled
  obtain ⟨es, hm⟩ := exists_mated hp.shaped hq.shaped h.fingers
  have htally := tally_claims hL hp.shaped hq.shaped hm hc
  obtain ⟨js, hjs, hjs'⟩ := takenOff_mates hp.shaped hq.shaped hm htally now now'
  have harr : List.Forall₂ (fun a b => a.index = b.index ∧ F a.finger b.finger)
      (t.arrivals cs now) (u.arrivals ds now') := by
    rw [RoomAlike, hjs] at hroom
    rw [arrivals, arrivals, hjs, hjs', ht.threshold_eq, hu.threshold_eq, ← h.nextId_eq]
    exact hL.arrivals (hL.left_takenOff hc js) 0 t.nextId 0 hp.spare_resting hq.spare_resting hroom
  have hheard := heard_mates hL hp.shaped hq.shaped hm htally hc harr
  refine ⟨⟨?_, ?_⟩, hheard, js, hjs, hjs'⟩
  · rw [nextId_frame cs now hp.shaped, nextId_frame ds now' hq.shaped, h.nextId_eq,
      harr.length_eq]
  · rw [fingers_frame cs now hp, fingers_frame ds now' hq]
    refine List.rel_map (R := fun x y => F x.1 y.1 ∧ x.2 = y.2) (fun x y hxy => hL.goOn hxy.1) ?_
    exact List.rel_filter (fun x y hxy => iff_of_eq (congrArg (fun l => (!l) = true) hxy.2)) hheard

end Tracker

end FingerTracking
