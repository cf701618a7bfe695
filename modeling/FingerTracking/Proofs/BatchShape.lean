import FingerTracking.Proofs.Capacity
import FingerTracking.Proofs.Groups

/-!
# The shape of a batch

The batch of a frame has a group of events for each finger that is in the frame, those that were
active before first, and a `sync` behind them if there are any. A group shows the newest sample that
the finger has when the frame is matched, and its kind says what became of the finger (`GroupOf`).

> `groupOf_of_mem`: what is told about a finger in a frame is its group.
>
> `shape_of_settled`: the fingers that start, the groups and the events put together from them.
>
> `exists_shape_after`: the batch of every frame after any run, group by group.
-/

namespace FingerTracking

open MatchTable Matching Event

namespace Tracker

variable {s : Settings} {t t₀ : Tracker} {n : Nat} {b : Bool} {contacts : List Contact}
variable {now : Timestamp} {h : Handle} {f : Finger} {c : Contact} {j : Nat}

/-! ## Groups -/

/-- The events `g` are what a frame has to tell about the finger behind `h`: that it moves to its
contact, is released, or starts. -/
def GroupOf (t : Tracker) (contacts : List Contact) (now : Timestamp) (h : Handle) (g : Batch) :
    Prop :=
  ∃ f last, (t.matched contacts now).pool.get? h = some f ∧ f.trail.last? = some last ∧
    ((h ∈ t.pool.handles ∧ (∃ j, t.ClaimedBy contacts now j h) ∧ g = move f.id.toInt32 last) ∨
      (h ∈ t.pool.handles ∧ (∀ j, ¬ t.ClaimedBy contacts now j h) ∧
        g = release f.id.toInt32 last) ∨
      ((∃ j, t.Starts contacts now j h) ∧ g = press f.id.toInt32 last))

/-- A frame with its fingers, of which `new` start in it, each at the contact with this index, and
its groups of events. -/
structure Shape (t : Tracker) (contacts : List Contact) (now : Timestamp)
    (new : List (Nat × Handle)) (groups : List Batch) : Prop where
  new_iff : ∀ j h, (j, h) ∈ new ↔ t.Starts contacts now j h
  new_sorted : new.Pairwise (·.1 < ·.1)
  groupOf : List.Forall₂ (t.GroupOf contacts now) (t.pool.handles ++ new.map (·.2)) groups
  events_eq : (t.frame contacts now).events =
    groups.flatten ++ if groups = [] then [] else [sync now]
  /-- A contact that weighs less than half of the last one is claimed, but not followed. -/
  rejected : ∀ j h f c, t.ClaimedBy contacts now j h → t.pool.get? h = some f →
    contacts[j]? = some c → c.weight.toInt < half f.weight →
    (t.matched contacts now).pool.get? h = some f ∧
      (t.frame contacts now).tracker.pool.get? h = some f
  length_le : (t.frame contacts now).events.length ≤ 4 * (t.activeCount + new.length) + 1
  fits : t.activeCount + new.length ≤ t.pool.capacity
  one_sync : (t.frame contacts now).events ≠ [] →
    ((t.frame contacts now).events.filter fun e => e.kind == .sync) = [sync now]
  nil_iff : (t.frame contacts now).events = [] ↔ t.activeCount = 0 ∧ new = []

/-- The entries of a matched frame are the fingers present in it, so a handle leads to the finger
that its group is about. -/
theorem get?_matched_of_mem (hp : t.pool.Shaped) {e : Handle × Finger}
    (he : e ∈ t.present contacts now) : (t.matched contacts now).pool.get? e.1 = some e.2 := by
  rw [Pool.get?_eq_some_iff (shaped_matched contacts now hp), entries_matched contacts now hp]
  exact he

/-- What is told about a finger in a frame is its group. -/
theorem groupOf_of_mem (hp : t.pool.Settled n b) {e : Handle × Finger}
    (he : e ∈ t.present contacts now) :
    t.GroupOf contacts now e.1 (e.2.told !(t.matched contacts now).table.isMatched e.1) := by
  obtain ⟨last, hl⟩ := (touching_present contacts now hp e he).last?_eq
  refine ⟨e.2, last, get?_matched_of_mem hp.shaped he, hl, ?_⟩
  rw [Finger.told_eq hl]
  rcases List.mem_append.mp he with hold | hnew
  · obtain ⟨d, hd, rfl⟩ := List.mem_map.mp hold
    have hh : d.1 ∈ t.pool.handles := Pool.mem_handles_iff.mpr ⟨d.2, hd⟩
    rw [fst_followEntry, isMatched_old contacts now hp.shaped hh,
      phase_followEntry contacts now hp hd]
    cases hm : (t.claims contacts).isMatched d.1 with
    | true => exact Or.inl ⟨hh, (isMatched_iff_claimedBy hp.shaped).mp hm, rfl⟩
    | false =>
      refine Or.inr (Or.inl ⟨hh, fun j hj => ?_, rfl⟩)
      have hm' := (isMatched_iff_claimedBy hp.shaped).mpr ⟨j, hj⟩
      exact absurd (hm'.symm.trans hm) (by decide)
  · obtain ⟨a, ha, rfl⟩ := List.mem_map.mp hnew
    rw [show a.entry.1 = a.handle from rfl, isMatched_arrival contacts now hp.shaped ha,
      show a.entry.2.phase = .start from phase_arrival contacts now ha]
    exact Or.inr (Or.inr ⟨⟨a.index, (exists_arrival_iff hp.shaped).mp ⟨a, ha, rfl, rfl⟩⟩, rfl⟩)

/-! ## Events -/

/-- A group is three events long, or four with the button. -/
theorem GroupOf.length_le {g : Batch} (hg : t.GroupOf contacts now h g) : g.length ≤ 4 := by
  obtain ⟨f, last, -, -, hkind⟩ := hg
  rcases hkind with ⟨-, -, rfl⟩ | ⟨-, -, rfl⟩ | ⟨-, rfl⟩ <;> simp [move, release, press]

theorem length_flatten_le {k : Nat} :
    ∀ {gs : List Batch}, (∀ g ∈ gs, g.length ≤ k) → gs.flatten.length ≤ k * gs.length
  | [], _ => Nat.zero_le _
  | g :: gs, hgs => by
    rw [List.flatten_cons, List.length_append, List.length_cons, Nat.mul_succ, Nat.add_comm]
    exact Nat.add_le_add (length_flatten_le fun d hd => hgs d (List.mem_cons_of_mem _ hd))
      (hgs g (List.mem_cons_self ..))

/-- The sync is the only event that is no finger's. -/
theorem length_closed_le (es : Batch) (now : Timestamp) :
    (closed es now).length ≤ es.length + 1 := by
  unfold closed
  split
  · exact Nat.zero_le _
  · exact Nat.le_of_eq List.length_append

/-! ## A frame -/

/-- A contact that is too light is claimed all the same: the finger stays in the table, and so on
the panel, where and as heavy as it was. -/
theorem rejected_of_settled (hp : t.pool.Settled n b) (hj : t.ClaimedBy contacts now j h)
    (hf : t.pool.get? h = some f) (hc : contacts[j]? = some c)
    (hlight : c.weight.toInt < half f.weight) :
    (t.matched contacts now).pool.get? h = some f ∧
      (t.frame contacts now).tracker.pool.get? h = some f := by
  have he : (h, f) ∈ t.pool.entries := (Pool.get?_eq_some_iff hp.shaped).mp hf
  have hstays : followEntry (t.claims contacts) contacts now (h, f) = (h, f) := by
    have hnot : ¬ follows f c = true := by
      rw [follows, decide_eq_true_eq]
      exact Int.not_le.mpr hlight
    rw [followEntry, (claimedBy_iff hp.shaped).mp hj, follow_some hc, if_neg hnot]
  have hmem := follow_mem_present contacts now he
  rw [hstays] at hmem
  have hm : (t.matched contacts now).table.isMatched h = true := by
    rw [isMatched_old contacts now hp.shaped hj.1]
    exact (isMatched_iff_claimedBy hp.shaped).mpr ⟨j, hj⟩
  refine ⟨get?_matched_of_mem hp.shaped hmem, ?_⟩
  rw [show h = (h, f).1 from rfl, get?_frame_of_mem contacts now hp hmem, if_pos hm, goOn,
    ← (hp.active_down (h, f) he).phase_eq]

/-- All fingers of a frame have their slots in it. -/
theorem length_present_le_capacity (hp : t.pool.Shaped) (contacts : List Contact)
    (now : Timestamp) : (t.present contacts now).length ≤ t.pool.capacity := by
  have hq := shaped_matched contacts now hp
  rw [← entries_matched contacts now hp, Pool.length_entries hq,
    ← capacity_matched contacts now hp, ← Pool.length_active_add_available hq]
  exact Nat.le_add_right ..

/-- The fingers that start in a frame, each with the index of its contact. -/
def starters (t : Tracker) (contacts : List Contact) (now : Timestamp) : List (Nat × Handle) :=
  (t.arrivals contacts now).map fun a => (a.index, a.handle)

/-- What is told in a frame, finger by finger. -/
def tellings (t : Tracker) (contacts : List Contact) (now : Timestamp) : List Batch :=
  (t.present contacts now).map fun e => e.2.told !(t.matched contacts now).table.isMatched e.1

/-- Those that start, counted through the arrivals, are those of `Starts`. -/
theorem mem_starters_iff (hp : t.pool.Shaped) :
    (j, h) ∈ t.starters contacts now ↔ t.Starts contacts now j h := by
  rw [← exists_arrival_iff hp, starters, List.mem_map]
  simp only [Prod.mk.injEq]

/-- A frame has the fingers that were active before it and those that start in it; the former are
there even if they leave. -/
theorem length_present (hp : t.pool.Shaped) (contacts : List Contact) (now : Timestamp) :
    (t.present contacts now).length = t.activeCount + (t.starters contacts now).length := by
  rw [present, List.length_append, List.length_map, List.length_map, activeCount, starters,
    List.length_map, Pool.length_entries hp]

/-- There is one telling for each of them. -/
theorem length_tellings (hp : t.pool.Shaped) (contacts : List Contact) (now : Timestamp) :
    (t.tellings contacts now).length = t.activeCount + (t.starters contacts now).length := by
  rw [tellings, List.length_map, length_present hp]

/-- Told one after the other in the order of their handles, the fingers make the groups of the
frame. -/
theorem groupOf_tellings (hp : t.pool.Settled n b) :
    List.Forall₂ (t.GroupOf contacts now)
      (t.pool.handles ++ (t.starters contacts now).map (·.2)) (t.tellings contacts now) := by
  have hhandles : t.pool.handles ++ (t.starters contacts now).map (·.2) =
      (t.present contacts now).map (·.1) := by
    rw [map_fst_present, starters, List.map_map]
    rfl
  rw [hhandles, tellings, List.forall₂_map_left_iff, List.forall₂_map_right_iff, List.forall₂_same]
  exact fun e he => groupOf_of_mem hp he

/-- Each telling has its finger id in front and none behind it, so the events can be cut into groups
again. -/
theorem headed_tellings (hp : t.pool.Settled n b) (contacts : List Contact) (now : Timestamp) :
    ∀ g ∈ t.tellings contacts now, Headed g := by
  intro g hg
  obtain ⟨e, he, rfl⟩ := List.mem_map.mp hg
  exact Finger.headed_told (touching_present contacts now hp e he) _

theorem length_le_of_mem_tellings (hp : t.pool.Settled n b) :
    ∀ g ∈ t.tellings contacts now, g.length ≤ 4 := by
  intro g hg
  obtain ⟨e, he, rfl⟩ := List.mem_map.mp hg
  exact (groupOf_of_mem hp he).length_le

/-- The batch is nothing but the tellings and the sync. -/
theorem events_tellings (hp : t.pool.Settled n b) :
    (t.frame contacts now).events = closed (t.tellings contacts now).flatten now := by
  rw [events_frame_present contacts now hp, List.flatMap_def]
  rfl

/-- The shape of a frame holds of any settled pool. The starters and the tellings are the new
fingers and the groups that it asks for. -/
theorem shape_of_settled (hp : t.pool.Settled n b) (contacts : List Contact) (now : Timestamp) :
    t.Shape contacts now (t.starters contacts now) (t.tellings contacts now) where
  new_iff _ _ := mem_starters_iff hp.shaped
  new_sorted := List.pairwise_map.mpr (arrivals_index_pairwise ..)
  groupOf := groupOf_tellings hp
  events_eq := (events_tellings hp).trans (closed_flatten (headed_tellings hp contacts now) now)
  rejected _ _ _ _ hj hf hc hlight := rejected_of_settled hp hj hf hc hlight
  length_le := by
    rw [events_tellings hp, ← length_tellings hp.shaped]
    exact (length_closed_le ..).trans
      (Nat.succ_le_succ (length_flatten_le (length_le_of_mem_tellings hp)))
  fits := length_present hp.shaped contacts now ▸ length_present_le_capacity hp.shaped contacts now
  one_sync := by
    intro hne
    rw [events_tellings hp] at hne ⊢
    have hgs := headed_tellings hp contacts now
    rw [closed_flatten hgs, List.filter_append, filter_sync_flatten hgs,
      if_neg ((closed_eq_nil_iff hgs now).not.mp hne)]
    rfl
  nil_iff := by
    rw [events_tellings hp, closed_eq_nil_iff (headed_tellings hp contacts now) now,
      ← List.length_eq_zero_iff, length_tellings hp.shaped, Nat.add_eq_zero_iff,
      List.length_eq_zero_iff]

/-- **The shape of a batch.** After any run of a new tracker, whatever the next frame is: its batch
has a group for each finger that is active or starts in it, in their order, with the newest sample
that the finger has by then, and a `sync` at the end if there are any. -/
theorem exists_shape_after (h : Tracker.new s = .ok t₀) (calls : List Call)
    (contacts : List Contact) (now : Timestamp) :
    ∃ new groups, (t₀.after calls).Shape contacts now new groups :=
  ⟨_, _, shape_of_settled (sound_after h calls).settled contacts now⟩

/-- One finger is left behind by its contact, which is too light, one is released, and a third one
starts. -/
theorem exists_shape_after_two_fingers :
    ∃ t₀, Tracker.new { maxFingers := 2 } = .ok t₀ ∧
      let t := t₀.after [.frame [⟨100, 100, 50⟩, ⟨300, 300, 50⟩] .epoch]
      let contacts : List Contact := [⟨110, 100, 50⟩, ⟨101, 100, 20⟩]
      let now := Timestamp.ofMillis 10
      (t.frame contacts now).events = move 0 ⟨100, 100, .epoch⟩ ++
          release 1 ⟨300, 300, .ofMillis 1⟩ ++ press 2 ⟨110, 100, now⟩ ++ [sync now] ∧
        ∃ new groups, t.Shape contacts now new groups := by
  obtain ⟨t₀, h⟩ : ∃ t₀, Tracker.new { maxFingers := 2 } = .ok t₀ := ⟨_, rfl⟩
  obtain ⟨-, ht₀⟩ := new_eq_ok h
  refine ⟨t₀, h, ?_, exists_shape_after h _ _ _⟩
  rw [ht₀]
  decide +kernel

end Tracker

end FingerTracking
