import FingerTracking.Proofs.Assembly
import FingerTracking.Proofs.FreshStart
import FingerTracking.Proofs.Lifeline

/-!
# A frame told again in reports

The tracker takes the fingers of a frame apart into events, and an assembler has nothing but their
order to put them together again. It gets back what it should: an item for each finger in the
frame, with what became of it and its last sample.

> `told_group`: the group of a finger is one item.
>
> `pushAll_closed`: events closed by a sync leave nothing pending, and only the last report is not
> full.
>
> `retold`: after any run, the reports of the next frame are its fingers, ten to a report.
-/

namespace FingerTracking

open MatchTable Matching Event

namespace Report.Item

/-- The item of a finger whose last sample is `last`. -/
def ofFinger (id : UInt32) (last : Sample) (arrives leaves : Bool) : Item :=
  { finger := 1000 * id.toInt32.toInt
    state := if leaves then .up else if arrives then .down else .undefined
    x := last.x, y := last.y, time := last.time }

variable {id : UInt32} {last : Sample} {arrives leaves : Bool}

theorem state_ofFinger_eq_down_iff :
    (ofFinger id last arrives leaves).state = .down ↔ arrives = true ∧ leaves = false := by
  cases arrives <;> cases leaves <;> simp [ofFinger]

theorem state_ofFinger_eq_up_iff :
    (ofFinger id last arrives leaves).state = .up ↔ leaves = true := by
  cases arrives <;> cases leaves <;> simp [ofFinger]

end Report.Item

namespace Finger

/-- The group of a finger is told as one item if no span goes on behind it. -/
theorem told_group (id : UInt32) (last : Sample) (arrives leaves : Bool) {rest : List Event}
    (hrest : span rest = []) :
    Report.told (group id last arrives leaves ++ rest) =
      Report.Item.ofFinger id last arrives leaves :: Report.told rest := by
  have hsplit : group id last arrives leaves =
      Event.finger last.time id :: (group id last arrives leaves).tail := rfl
  have hfills : ∀ e ∈ (group id last arrives leaves).tail, e.Fills := by
    cases arrives <;> cases leaves <;>
      simp [group, Fills, Event.x, Event.y, touch, ofKind]
  -- the press comes before the axes and the release after them, so the release has the last word
  have hitem : Report.Item.told (Event.finger last.time id) (group id last arrives leaves).tail =
      .ofFinger id last arrives leaves := by
    cases arrives <;> cases leaves <;>
      exact congrArg (Report.Item.mk · _ last.x last.y last.time) (Int.add_zero _)
  rw [hsplit, List.cons_append, Report.told_cons_append rfl hfills hrest, hitem]

/-- The groups of some fingers, closed by a sync, are told as one item for each. -/
theorem forall₂_told {R : Handle × Finger → Report.Item → Prop} (leaves : Handle × Finger → Bool)
    (now : Timestamp) (es : List (Handle × Finger))
    (hes : ∀ e ∈ es, ∃ last, e.2.trail.last? = some last ∧
      R e (.ofFinger e.2.id last (e.2.phase == .start) (leaves e))) :
    List.Forall₂ R es
      (Report.told ((es.flatMap fun e => e.2.told (leaves e)) ++ [Event.sync now])) := by
  induction es with
  | nil => exact .nil
  | cons e es ih =>
    obtain ⟨last, hl, hR⟩ := hes e (List.mem_cons_self ..)
    have hrest := ih fun d hd => hes d (List.mem_cons_of_mem _ hd)
    -- behind the group there is the next finger id, or the sync
    have hspan : span ((es.flatMap fun e => e.2.told (leaves e)) ++ [Event.sync now]) = [] := by
      cases es with
      | nil => exact span_cons_of_kind (.inr rfl) []
      | cons d es =>
        obtain ⟨last', hl', -⟩ := hes d (List.mem_cons_of_mem _ (List.mem_cons_self ..))
        rw [List.flatMap_cons, told_eq hl', group, List.append_assoc, List.append_assoc,
          List.append_assoc, List.append_assoc]
        exact span_cons_of_kind (.inl rfl) _
    rw [List.flatMap_cons, told_eq hl, List.append_assoc, told_group _ _ _ _ hspan]
    exact .cons hR hrest

end Finger

namespace Assembler

variable {es : List Event}

/-- A finger id leaves an item pending as long as no sync comes. -/
theorem exists_pending (es : List Event) : ∀ {a : Assembler}, (∀ d ∈ es, d.kind ≠ .sync) →
    a.pending.isSome ∨ (∃ d ∈ es, d.kind = .fingerId) →
      ∃ p, (a.pushAll es).assembler.pending = some p := by
  induction es with
  | nil =>
    intro a _ h
    exact Option.isSome_iff_exists.mp (h.resolve_right fun ⟨d, hd, _⟩ => nomatch hd)
  | cons e es ih =>
    intro a hes h
    refine ih (a := (a.push e).assembler) (fun d hd => hes d (List.mem_cons_of_mem _ hd)) ?_
    rcases fills_or e with he | he | he
    · rw [(push_fills_assembler he a).1, Option.isSome_map]
      refine h.imp_right fun ⟨d, hd, hkind⟩ => ⟨d, ?_, hkind⟩
      refine (List.mem_cons.mp hd).resolve_left ?_
      rintro rfl
      rcases he with he | he | he <;> simp [he] at hkind
    · left
      rw [push_fingerId he, start]
      split
      next => rfl
      next => split <;> rfl
    · exact absurd he (hes e (List.mem_cons_self ..))

/-- A batch that is closed leaves nothing pending. Its reports are full but for the last one, which
has what is left. -/
theorem pushAll_closed (hes : ∀ d ∈ es, d.kind ≠ .sync)
    (hne : es ≠ [] → ∃ d ∈ es, d.kind = .fingerId) (now : Timestamp) :
    let p := empty.pushAll (Tracker.closed es now)
    p.assembler = empty ∧ p.reports.flatten = Report.told (es ++ [Event.sync now]) ∧
      (∀ r ∈ p.reports.dropLast, r.length = Report.mostItems) ∧
      p.reports.length = (p.reports.flatten.length + 9) / 10 := by
  by_cases hnil : es = []
  · subst hnil
    exact ⟨rfl, rfl, nofun, show 0 = (0 + 9) / 10 from rfl⟩
  rw [Tracker.closed, if_neg (by simpa using hnil)]
  obtain ⟨p, hp⟩ := exists_pending es (a := empty) hes (.inr (hne hnil))
  obtain ⟨hbounded, hsizes⟩ := pushAll_bounded es bounded_empty
  have hpush : (empty.pushAll es).assembler.push (Event.sync now) =
      { assembler := empty, report := some p.items, notes := [] } := by
    rw [push_sync rfl, close, hp]
    rfl
  obtain ⟨hlo, hhi, -⟩ := (push_bounded hbounded (Event.sync now)).2 p.items (by rw [hpush]; rfl)
  obtain ⟨hassembler, hreports⟩ := pushAll_append es [Event.sync now] empty
  rw [pushAll_cons_assembler, hpush] at hassembler
  rw [pushAll_cons_reports, hpush] at hreports
  have hfull : ∀ r ∈ (empty.pushAll es).reports, r.length = Report.mostItems :=
    fun r hr => (hsizes r hr).2.2 hes
  have hitems := pushAll_items (es ++ [Event.sync now]) empty
  rw [hassembler] at hitems
  intro q
  have hshape : q.reports = (empty.pushAll es).reports ++ [p.items] := hreports
  refine ⟨hassembler, (List.append_nil _).symm.trans hitems, ?_, ?_⟩
  · rw [hshape, List.dropLast_concat]
    exact hfull
  · -- ten items in each of the reports before the last one
    have hlength : (empty.pushAll es).reports.flatten.length =
        (empty.pushAll es).reports.length * 10 := by
      rw [List.length_flatten, List.map_eq_replicate_iff.mpr hfull, List.sum_replicate_nat]
      rfl
    have hten : Report.mostItems = 10 := rfl
    rw [hshape, List.flatten_append, List.length_append, List.length_append, hlength,
      List.flatten_singleton, List.length_singleton]
    omega

end Assembler

namespace Tracker

variable {s : Settings} {t t₀ : Tracker} {n : Nat} {b : Bool}
variable {contacts : List Contact} {now : Timestamp}

/-! ## A frame -/

/-- A finger of a frame as it is kept after the frame, or as it was kept before if it has left. -/
def lastKept? (t : Tracker) (contacts : List Contact) (now : Timestamp) (h : Handle) :
    Option Finger :=
  ((t.frame contacts now).tracker.pool.get? h).or (t.pool.get? h)

/-- The item tells what became of the finger in the frame, and where it was kept last. -/
structure Tells (t : Tracker) (contacts : List Contact) (now : Timestamp) (h : Handle)
    (i : Report.Item) : Prop where
  down_iff : i.state = .down ↔ h ∈ t.newcomers contacts now
  up_iff : i.state = .up ↔ (t.frame contacts now).tracker.pool.isLive h = false
  kept : ∃ f last, t.lastKept? contacts now h = some f ∧ f.trail.last? = some last ∧
    i.finger = 1000 * f.id.toInt32.toInt ∧ i.x = last.x ∧ i.y = last.y ∧ i.time = last.time

/-- The reports of a frame are its fingers, those that were there before and then the new ones, ten
to a report. -/
structure Retold (t : Tracker) (contacts : List Contact) (now : Timestamp)
    (p : Assembler.PushedAll) : Prop where
  pending_eq : p.assembler.pending = none
  /-- A tenth of the groups, rounded up. -/
  length_eq : p.reports.length = ((groups (t.frame contacts now).events).length + 9) / 10
  full : ∀ r ∈ p.reports.dropLast, r.length = 10
  tells : List.Forall₂ (t.Tells contacts now) (t.pool.handles ++ t.newcomers contacts now)
    p.reports.flatten
  /-- The items come in the order of the groups. -/
  ordered : p.reports.flatten.map (·.finger) =
    (ids (t.frame contacts now).events).map fun v => 1000 * v.toInt

/-- A finger in a frame is new exactly if it has only started. -/
theorem phase_eq_start_iff (hp : t.pool.Settled n b) {e : Handle × Finger}
    (he : e ∈ t.present contacts now) :
    e.2.phase = .start ↔ e.1 ∈ t.newcomers contacts now := by
  have hnodup := nodup_old_new contacts now hp.shaped
  rw [newcomers_eq _ _ hp.shaped]
  rcases List.mem_append.mp he with he | he
  · obtain ⟨d, hd, rfl⟩ := List.mem_map.mp he
    have hold : d.1 ∈ t.pool.handles := Pool.mem_handles_iff.mpr ⟨d.2, hd⟩
    rw [phase_followEntry contacts now hp hd]
    exact ⟨nofun, fun hnew => absurd hnew (List.disjoint_of_nodup_append hnodup hold)⟩
  · obtain ⟨a, ha, rfl⟩ := List.mem_map.mp he
    exact ⟨fun _ => List.mem_map_of_mem ha, fun _ => phase_arrival contacts now ha⟩

/-- What was kept last of a finger in a frame is its id and its trail in the frame. -/
theorem lastKept?_of_mem (hp : t.pool.Settled n b) {e : Handle × Finger}
    (he : e ∈ t.present contacts now) :
    ∃ f, t.lastKept? contacts now e.1 = some f ∧ f.id = e.2.id ∧ f.trail = e.2.trail := by
  have hget := get?_frame_of_mem contacts now hp he
  cases hm : (t.matched contacts now).table.isMatched e.1 with
  | true =>
    rw [hm, if_pos rfl] at hget
    exact ⟨(goOn e).2, by rw [lastKept?, hget, Option.some_or], rfl, rfl⟩
  | false =>
    -- a finger that leaves was there before, and no contact has moved it
    have hmem : e ∈ (t.present contacts now).filter fun e =>
        !(t.matched contacts now).table.isMatched e.1 :=
      List.mem_filter.mpr ⟨he, by rw [hm]; rfl⟩
    rw [filter_present_unmatched contacts now hp.shaped] at hmem
    obtain ⟨d, hd, rfl⟩ := List.mem_map.mp hmem
    obtain ⟨hd, hunclaimed⟩ := List.mem_filter.mp hd
    have hclaim : (t.claims contacts).claim? d.1 = none := by
      rw [Option.eq_none_iff_forall_ne_some]
      intro j hj
      rw [(t.sole_claims contacts).isMatched_iff.mpr ⟨j, hj⟩] at hunclaimed
      exact nomatch hunclaimed
    rw [hm, if_neg Bool.false_ne_true, fst_followEntry] at hget
    refine ⟨d.2, ?_, ?_, ?_⟩
    · rw [fst_followEntry, lastKept?, hget, Option.none_or]
      exact (Pool.get?_eq_some_iff hp.shaped).mpr hd
    · exact (id_follow ..).symm
    · rw [followEntry, hclaim]
      rfl

/-- The item of a finger in a frame tells about it. -/
theorem tells_ofFinger (hp : t.pool.Settled n b) {e : Handle × Finger}
    (he : e ∈ t.present contacts now) {last : Sample} (hl : e.2.trail.last? = some last) :
    t.Tells contacts now e.1 (.ofFinger e.2.id last (e.2.phase == .start)
      !(t.matched contacts now).table.isMatched e.1) := by
  have hnew := phase_eq_start_iff hp he
  obtain ⟨f, hf, hid, htrail⟩ := lastKept?_of_mem hp he
  refine ⟨?_, ?_, f, last, hf, htrail ▸ hl, by rw [hid]; rfl, rfl, rfl, rfl⟩
  · rw [Report.Item.state_ofFinger_eq_down_iff, beq_iff_eq, hnew]
    refine and_iff_left_of_imp fun hmem => ?_
    -- a new finger is in the table, so it does not leave
    rw [newcomers_eq _ _ hp.shaped] at hmem
    obtain ⟨a, ha, hhandle⟩ := List.mem_map.mp hmem
    rw [← hhandle, isMatched_arrival contacts now hp.shaped ha]
    rfl
  · rw [Report.Item.state_ofFinger_eq_up_iff, Bool.not_eq_true', isLive_frame contacts now hp he]

/-- An assembler without a pending report tells a frame again. -/
theorem retold_of_settled (hp : t.pool.Settled n b) (contacts : List Contact) (now : Timestamp) :
    t.Retold contacts now (Assembler.empty.pushAll (t.frame contacts now).events) := by
  have ht := touching_present contacts now hp
  let leaves (e : Handle × Finger) : Bool := !(t.matched contacts now).table.isMatched e.1
  let es := (t.present contacts now).flatMap fun e => e.2.told (leaves e)
  have hevents : (t.frame contacts now).events = closed es now := events_frame_present _ _ hp
  have hes : ∀ d ∈ es, d.kind ≠ .sync := by
    intro d hd
    obtain ⟨e, he, hd⟩ := List.mem_flatMap.mp hd
    exact (Finger.headed_told (ht e he) _).kind_ne_sync d hd
  have hne : es ≠ [] → ∃ d ∈ es, d.kind = .fingerId := by
    intro hne
    obtain ⟨d, hd⟩ := List.exists_mem_of_ne_nil es hne
    obtain ⟨e, he, -⟩ := List.mem_flatMap.mp hd
    obtain ⟨c, cs, htold, hc, -⟩ := Finger.headed_told (ht e he) (leaves e)
    exact ⟨c, List.mem_flatMap.mpr ⟨e, he, htold ▸ List.mem_cons_self ..⟩, hc⟩
  obtain ⟨hassembler, hflatten, hfull, hlength⟩ := Assembler.pushAll_closed hes hne now
  rw [← hevents] at hassembler hflatten hfull hlength
  -- every item tells about its finger and has its id
  have htells : List.Forall₂ (fun e i => t.Tells contacts now e.1 i ∧
      1000 * e.2.id.toInt32.toInt = i.finger) (t.present contacts now)
      (Assembler.empty.pushAll (t.frame contacts now).events).reports.flatten := by
    rw [hflatten]
    refine Finger.forall₂_told leaves now _ fun e he => ?_
    obtain ⟨last, hl⟩ := (ht e he).last?_eq
    exact ⟨last, hl, tells_ofFinger hp he hl, rfl⟩
  refine ⟨congrArg Assembler.pending hassembler, ?_, hfull, ?_, ?_⟩
  · rw [hlength, ← htells.length_eq, groups_frame contacts now hp, List.length_map]
  · rw [newcomers_eq _ _ hp.shaped, ← map_fst_present contacts now,
      List.forall₂_map_left_iff]
    exact htells.imp fun _ _ h => h.1
  · rw [ids_frame contacts now hp, List.map_map, ← List.forall₂_eq_eq_eq,
      List.forall₂_map_left_iff, List.forall₂_map_right_iff]
    exact htells.flip.imp fun _ _ h => h.2.symm

/-! ## Any run -/

/-- After every call of a run nothing is pending. -/
theorem pending_watch (calls : List Call) : ∀ {t : Tracker}, Sound s t →
    (Assembler.empty.pushAll ((t.watch calls).flatMap (·.events))).assembler = Assembler.empty := by
  induction calls with
  | nil => exact fun _ => rfl
  | cons c calls ih =>
    intro t ht
    have hcall : (Assembler.empty.pushAll (t.shown c).events).assembler = Assembler.empty := by
      cases c with
      | frame contacts now =>
        exact congrArg Assembler.mk (retold_of_settled ht.settled contacts now).pending_eq
      | teardown => rfl
    rw [watch, List.flatMap_cons, (Assembler.pushAll_append ..).1, hcall]
    exact ih (sound_call ht c)

/-- **Nothing is lost in telling a run again.** Whatever was asked of a tracker, an assembler that
has read it all has no report pending, and its reports of the next frame are the fingers of the
frame. -/
theorem retold (h : Tracker.new s = .ok t₀) (before : List Call) (contacts : List Contact)
    (now : Timestamp) :
    let t := t₀.after before
    let a := (Assembler.empty.pushAll ((t₀.watch before).flatMap (·.events))).assembler
    a.pending = none ∧ t.Retold contacts now (a.pushAll (t.frame contacts now).events) := by
  intro t a
  have ha : a = Assembler.empty := pending_watch before (sound_new h)
  rw [ha]
  exact ⟨rfl, retold_of_settled (sound_after h before).settled contacts now⟩

/-- Of twelve fingers one leaves in the second frame, and another one starts. -/
theorem retold_of_thirteen :
    ∃ t₀, Tracker.new { maxFingers := 7 } = .ok t₀ ∧
      let twelve := (List.range 12).map fun i => Contact.mk (100 * Int32.ofNat (i + 1)) 50 5
      let contacts := ⟨3000, 50, 5⟩ :: twelve.drop 1
      let before : List Call := [.frame twelve Timestamp.epoch]
      let t := t₀.after before
      let a := (Assembler.empty.pushAll ((t₀.watch before).flatMap (·.events))).assembler
      let p := a.pushAll (t.frame contacts Timestamp.epoch).events
      p.reports.map (·.map (·.state)) =
        [.up :: List.replicate 9 .undefined, [.undefined, .undefined, .down]] ∧
      a.pending = none ∧ t.Retold contacts Timestamp.epoch p := by
  obtain ⟨t₀, h⟩ : ∃ t₀, Tracker.new { maxFingers := 7 } = .ok t₀ := ⟨_, rfl⟩
  obtain ⟨-, ht₀⟩ := new_eq_ok h
  refine ⟨t₀, h, ?_⟩
  intro twelve contacts before t a p
  refine ⟨?_, retold h before contacts Timestamp.epoch⟩
  subst ht₀
  decide +kernel

end Tracker

end FingerTracking
