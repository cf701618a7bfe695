import FingerTracking.Tracker
import FingerTracking.Proofs.FingerLife
import Mathlib.Data.List.SplitBy

/-!
# The groups of a batch

A batch is a flat list of events; a reader finds the fingers in it by cutting it at the finger
ids (`Event.groups`). What the fingers of a frame are told comes back out of the batch in this way,
one group for each:

> `groups_closed`: cutting the batch closed over some groups, each with a finger id in front and
> nowhere else, gives these groups again.

A group is one of `press`, `move` and `release`, by the phase of the finger and by whether it
leaves.
-/

namespace FingerTracking

namespace Event

/-! ## Cutting a batch -/

/-- The events of a batch but for the `sync`, cut in front of every finger id. -/
def groups (b : Batch) : List Batch :=
  (b.filter fun e => e.kind != .sync).splitBy fun _ e => e.kind != .fingerId

/-- Whether a group is about the finger with this id, as it is sent. -/
def names (v : Int32) (g : Batch) : Bool :=
  g.any fun e => e.kind == .fingerId && e.value == v

/-- The finger ids in some events, as they are sent. -/
def ids (es : List Event) : List Int32 :=
  (es.filter fun e => e.kind == .fingerId).map (·.value)

/-- A finger id, and then neither a finger id nor a `sync`. -/
def Headed (g : Batch) : Prop :=
  ∃ e es, g = e :: es ∧ e.kind = .fingerId ∧ ∀ d ∈ es, d.kind ≠ .fingerId ∧ d.kind ≠ .sync

variable {g : Batch} {gs : List Batch}

/-- A group says at least who it is about. -/
theorem Headed.ne_nil (hg : Headed g) : g ≠ [] := by
  obtain ⟨e, es, rfl, -⟩ := hg
  exact List.cons_ne_nil e es

/-- No group has a sync: that comes from the frame. -/
theorem Headed.kind_ne_sync (hg : Headed g) : ∀ e ∈ g, e.kind ≠ .sync := by
  obtain ⟨e, es, rfl, he, hes⟩ := hg
  intro d hd
  rcases List.mem_cons.mp hd with rfl | hd
  · rw [he]
    decide
  · exact (hes d hd).2

/-- Inside of a group nothing is cut. -/
theorem Headed.isChain (hg : Headed g) : g.IsChain fun _ e => (e.kind != .fingerId) = true := by
  obtain ⟨e, es, rfl, -, hes⟩ := hg
  apply List.Pairwise.isChain
  refine List.pairwise_cons.mpr ⟨fun d hd => by simpa using (hes d hd).1, ?_⟩
  exact List.pairwise_of_forall_mem_list fun _ _ d hd => by simpa using (hes d hd).1

/-- Two groups are cut where the second begins. -/
theorem Headed.cut {g' : Batch} (hg : Headed g) (hg' : Headed g') :
    ∃ (_ : g ≠ []) (hb : g' ≠ []), ((g'.head hb).kind != .fingerId) = false := by
  refine ⟨hg.ne_nil, hg'.ne_nil, ?_⟩
  obtain ⟨e, es, rfl, he, -⟩ := hg'
  simp [he]

/-- No group has a `sync` in it. -/
theorem kind_ne_sync_of_mem_flatten (hgs : ∀ g ∈ gs, Headed g) :
    ∀ e ∈ gs.flatten, e.kind ≠ .sync := by
  intro e he
  obtain ⟨g, hg, he⟩ := List.mem_flatten.mp he
  exact (hgs g hg).kind_ne_sync e he

/-- Taking the syncs away leaves groups whole. -/
theorem filter_flatten (hgs : ∀ g ∈ gs, Headed g) :
    gs.flatten.filter (fun e => e.kind != .sync) = gs.flatten := by
  apply List.filter_eq_self.mpr
  intro e he
  simpa using kind_ne_sync_of_mem_flatten hgs e he

/-- There is no other sync in a batch than the one behind its groups. -/
theorem filter_sync_flatten (hgs : ∀ g ∈ gs, Headed g) :
    gs.flatten.filter (fun e => e.kind == .sync) = [] := by
  apply List.filter_eq_nil_iff.mpr
  intro e he
  simpa using kind_ne_sync_of_mem_flatten hgs e he

/-- Groups that were put one after the other are found again by their finger ids. -/
theorem splitBy_headed (hgs : ∀ g ∈ gs, Headed g) :
    (gs.flatten.splitBy fun _ e => e.kind != .fingerId) = gs := by
  refine List.splitBy_flatten ?_ (fun g hg => (hgs g hg).isChain) ?_
  · intro hnil
    exact (hgs [] hnil).ne_nil rfl
  · apply List.Pairwise.isChain
    exact List.pairwise_of_forall_mem_list fun a ha b hb => (hgs a ha).cut (hgs b hb)

/-- Nothing is told only if nobody is told of. -/
theorem flatten_headed_eq_nil_iff (hgs : ∀ g ∈ gs, Headed g) : gs.flatten = [] ↔ gs = [] := by
  rw [List.flatten_eq_nil_iff]
  constructor
  · intro hnil
    exact List.eq_nil_iff_forall_not_mem.mpr fun g hg => (hgs g hg).ne_nil (hnil g hg)
  · intro hnil g hg
    rw [hnil] at hg
    exact nomatch hg

/-- Groups are closed by a `sync` if there are any. -/
theorem closed_flatten (hgs : ∀ g ∈ gs, Headed g) (now : Timestamp) :
    Tracker.closed gs.flatten now = gs.flatten ++ if gs = [] then [] else [sync now] := by
  unfold Tracker.closed
  by_cases hnil : gs = []
  · subst hnil
    rfl
  · have hne : ¬ gs.flatten.isEmpty = true := by
      rw [List.isEmpty_iff, flatten_headed_eq_nil_iff hgs]
      exact hnil
    rw [if_neg hne, if_neg hnil]

/-- With the sync it is the same: a batch is empty only if there is no group. -/
theorem closed_eq_nil_iff (hgs : ∀ g ∈ gs, Headed g) (now : Timestamp) :
    Tracker.closed gs.flatten now = [] ↔ gs = [] := by
  rw [closed_flatten hgs, List.append_eq_nil_iff, flatten_headed_eq_nil_iff hgs]
  exact ⟨And.left, fun hnil => ⟨hnil, if_pos hnil⟩⟩

/-- A batch comes apart into the groups it was put together from. -/
theorem groups_closed (hgs : ∀ g ∈ gs, Headed g) (now : Timestamp) :
    groups (Tracker.closed gs.flatten now) = gs := by
  have hsync : (if gs = [] then [] else [sync now]).filter (fun e => e.kind != .sync) = [] := by
    split <;> rfl
  rw [groups, closed_flatten hgs, List.filter_append, filter_flatten hgs, hsync, List.append_nil]
  exact splitBy_headed hgs

theorem ids_append (es ds : List Event) : ids (es ++ ds) = ids es ++ ids ds := by
  rw [ids, List.filter_append, List.map_append]
  rfl

/-- The `sync` at the end names no finger. -/
theorem ids_closed (es : List Event) (now : Timestamp) : ids (Tracker.closed es now) = ids es := by
  unfold Tracker.closed
  split
  next hnil => rw [List.isEmpty_iff.mp hnil]
  next => exact (ids_append ..).trans (List.append_nil _)

/-! ## The three kinds of groups -/

/-- A finger arrives. -/
def press (v : Int32) (s : Sample) : Batch :=
  [ofKind s.time .fingerId v, touch s.time true, x s.time s.x, y s.time s.y]

/-- A finger stays. -/
def move (v : Int32) (s : Sample) : Batch :=
  [ofKind s.time .fingerId v, x s.time s.x, y s.time s.y]

/-- A finger leaves. -/
def release (v : Int32) (s : Sample) : Batch :=
  [ofKind s.time .fingerId v, x s.time s.x, y s.time s.y, touch s.time false]

/-- A press is never taken for a release. -/
theorem press_ne_release (v : Int32) (s s' : Sample) : press v s ≠ release v s' := by
  intro h
  have hkind := congrArg (fun g => g.map (·.kind)) h
  revert hkind
  show ¬ ([Kind.fingerId, .buttonTouch, .axisX, .axisY] = [.fingerId, .axisX, .axisY, .buttonTouch])
  decide

end Event

namespace Finger

open Event

variable {n : Nat} {b : Bool} {f : Finger}

/-- What is told of a touching finger is a group. -/
theorem headed_told (hf : f.Touching n b) (leaves : Bool) : Headed (f.told leaves) := by
  obtain ⟨last, hl⟩ := hf.last?_eq
  rw [told_eq hl]
  refine ⟨Event.finger last.time f.id, (group f.id last (f.phase == .start) leaves).tail, rfl, rfl,
    ?_⟩
  cases f.phase == .start <;> cases leaves <;>
    simp [group, Event.finger, ofKind, touch, Event.x, Event.y]

/-- A finger is told under its own id and under no other. -/
theorem names_told (hf : f.Touching n b) (leaves : Bool) (v : Int32) :
    names v (f.told leaves) = (f.id.toInt32 == v) := by
  obtain ⟨last, hl⟩ := hf.last?_eq
  rw [told_eq hl]
  cases f.phase == .start <;> cases leaves <;>
    simp [names, group, Event.finger, ofKind, touch, Event.x, Event.y]

/-- The group is about this finger alone. -/
theorem ids_told (hf : f.Touching n b) (leaves : Bool) : ids (f.told leaves) = [f.id.toInt32] := by
  obtain ⟨last, hl⟩ := hf.last?_eq
  rw [told_eq hl]
  cases f.phase == .start <;> cases leaves <;> rfl

/-- A finger that has only started is told as a press. -/
theorem told_start (hf : f.Touching n b) (hs : f.phase = .start) :
    ∃ s, f.told false = press f.id.toInt32 s := by
  obtain ⟨last, hl⟩ := hf.last?_eq
  refine ⟨last, ?_⟩
  rw [told_eq hl, hs]
  rfl

/-- A finger that was down before and is seen again is told as a move. -/
theorem told_seen (hf : f.Touching n b) (hs : f.phase = .down) :
    ∃ s, f.told false = move f.id.toInt32 s := by
  obtain ⟨last, hl⟩ := hf.last?_eq
  refine ⟨last, ?_⟩
  rw [told_eq hl, hs]
  rfl

/-- A finger that was down before and is gone is told as a release. -/
theorem told_unseen (hf : f.Touching n b) (hs : f.phase = .down) :
    ∃ s, f.told true = release f.id.toInt32 s := by
  obtain ⟨last, hl⟩ := hf.last?_eq
  refine ⟨last, ?_⟩
  rw [told_eq hl, hs]
  rfl

end Finger

end FingerTracking
