import FingerTracking.Matching
import FingerTracking.Proofs.PoolView

/-!
# A finger's life, one finger at a time

Three conditions on a finger follow it through the pool: `Resting` in a free slot, `Touching`
inside a frame, `Down` between two frames. Each step of a frame leads from one to the next:

> `touching_started`: a resting finger that starts at a contact touches;
>
> `step_seen`, `step_unseen`: a touching finger is stepped without a complaint, and is down or
> leaves;
>
> `resting_closed`: a finger that leaves rests.

So a step never finds a finger that has left already or has no coordinates.
-/

namespace FingerTracking

namespace Trail

variable {t : Trail} {n : Nat} {b : Bool}

/-- A trail grows until all its cells are used, and stays as long from then on. -/
theorem length_append (t : Trail) (s : Sample) :
    (t.append s).length = if t.length < t.capacity then t.length + 1 else t.length := by
  unfold append
  dsimp only
  split <;> rfl

/-- A cell that is written and read back under the same index, wherever the ring begins by then. -/
theorem nth_of_set (cells : Array Sample) (s : Sample) (b : Bool) {head length i : Nat}
    (hi : (head + i) % cells.size < cells.size) :
    nth ⟨cells.setIfInBounds ((head + i) % cells.size) s, head, length, b⟩ i = s := by
  simp [nth, capacity, Array.getD_eq_getD_getElem?, hi]

/-- The sample just written is the newest. -/
theorem last?_append (ht : t.Stays) (s : Sample) : (t.append s).last? = some s := by
  have hpos : 0 < t.capacity := Nat.lt_of_le_of_lt (Nat.zero_le _) ht.head_lt
  have hlen := ht.length_le
  unfold last?
  rw [length_append]
  by_cases hlt : t.length < t.capacity
  · rw [if_pos hlt, if_neg (Nat.succ_ne_zero _), Nat.add_sub_cancel, append, if_pos hlt]
    exact congrArg some (nth_of_set t.cells s t.filtered (Nat.mod_lt _ hpos))
  · have hfull : t.length = t.capacity := by omega
    rw [if_neg hlt, if_neg (by omega), append, if_neg hlt]
    -- the new first cell follows the old one, so the last cell is the one just written
    have hcell : ((t.head + 1) % t.capacity + (t.length - 1)) % t.capacity =
        (t.head + t.length) % t.capacity := by
      rw [Nat.mod_add_mod, hfull]
      congr 1
      omega
    have hb : (t.head + t.length) % t.capacity < t.cells.size := Nat.mod_lt _ hpos
    simp only [nth, capacity, Array.size_setIfInBounds, Array.getD_eq_getD_getElem?] at hcell hb ⊢
    rw [hcell, Array.getElem?_setIfInBounds, if_pos rfl, if_pos hb]
    rfl

/-- A trail that keeps something keeps what was pushed last: the contact itself, or a step toward it
if the trail is filtered. -/
theorem last?_push (ht : t.Stays) (x y : Int32) (time : Timestamp) :
    (t.push x y time).last? =
      some ⟨(stored t.filtered t.last? x y).1, (stored t.filtered t.last? x y).2, time⟩ :=
  last?_append ht _

/-- There is no newest sample only where there is none at all. -/
theorem last?_eq_none_iff : t.last? = none ↔ t.toList = [] := by
  rw [last?_eq_getLast?, List.getLast?_eq_none_iff]

/-- So a finger that has followed a contact once has a place. -/
theorem toList_push_ne_nil (ht : t.Stays) (x y : Int32) (time : Timestamp) :
    (t.push x y time).toList ≠ [] := by
  rw [ne_eq, ← last?_eq_none_iff, last?_push ht]
  exact Option.some_ne_none _

/-- The first sample of a trail is stored as it comes, filtered or not. -/
theorem toList_push_cleared (ht : t.Stays) (x y : Int32) (time : Timestamp) :
    (t.cleared.push x y time).toList = [⟨x, y, time⟩] := by
  have hc := stays_cleared ht
  have hlen : (t.cleared.push x y time).toList.length = 1 := by
    rw [length_toList, push, length_append, capacity_cleared]
    exact if_pos (Nat.lt_of_le_of_lt (Nat.zero_le _) ht.head_lt)
  obtain ⟨s, hs⟩ := List.length_eq_one_iff.mp hlen
  have hlast := last?_push hc x y time
  have hstored : stored t.cleared.filtered t.cleared.last? x y = (x, y) := by
    rw [show t.cleared.last? = none from rfl]
    cases t.cleared.filtered <;> rfl
  rw [last?_eq_getLast?, hs, List.getLast?_singleton, Option.some_inj, hstored] at hlast
  rw [hs, hlast]

/-- A ring in shape, with room for `n` samples and the filter on or off. -/
structure Fits (n : Nat) (b : Bool) (t : Trail) : Prop where
  stays : t.Stays
  capacity_eq : t.capacity = n
  filtered_eq : t.filtered = b

theorem fits_empty (hn : 0 < n) (b : Bool) : Fits n b (empty n b) :=
  ⟨stays_empty hn b, capacity_empty n b, rfl⟩

/-- A trail that could be made has room, and nothing in it yet. -/
theorem eq_empty_of_new (h : Trail.new n b = .ok t) : 0 < n ∧ t = empty n b := by
  unfold Trail.new at h
  split at h
  next => exact nomatch h
  next hn =>
    split at h
    next => exact nomatch h
    next => exact ⟨Nat.pos_of_ne_zero hn, (Except.ok.inj h).symm⟩

/-- Clearing a trail does not shrink it. -/
theorem Fits.cleared (ht : Fits n b t) : Fits n b t.cleared :=
  ⟨stays_cleared ht.stays, ht.capacity_eq, ht.filtered_eq⟩

/-- No push changes how many samples a trail can keep, or whether it filters them. -/
theorem Fits.push (ht : Fits n b t) (x y : Int32) (time : Timestamp) :
    Fits n b (t.push x y time) := by
  refine ⟨stays_push ht.stays x y time, by rw [capacity_push, ht.capacity_eq], ?_⟩
  rw [← ht.filtered_eq, Trail.push, append]
  split <;> rfl

theorem Fits.length_toList_le (ht : Fits n b t) : t.toList.length ≤ n := by
  rw [length_toList, ← ht.capacity_eq]
  exact ht.stays.length_le

end Trail

namespace Finger

variable {n : Nat} {b : Bool} {f : Finger}

/-- In a free slot. -/
structure Resting (n : Nat) (b : Bool) (f : Finger) : Prop where
  fits : f.trail.Fits n b
  toList_eq : f.trail.toList = []
  phase_eq : f.phase = .unused

/-- Inside a frame: started in it or down before. -/
structure Touching (n : Nat) (b : Bool) (f : Finger) : Prop where
  fits : f.trail.Fits n b
  toList_ne : f.trail.toList ≠ []
  phase_ne : f.phase ≠ .unused

/-- Between two frames. -/
structure Down (n : Nat) (b : Bool) (f : Finger) : Prop where
  fits : f.trail.Fits n b
  toList_ne : f.trail.toList ≠ []
  phase_eq : f.phase = .down

/-- Between frames a finger touches just as well. -/
theorem Down.touching (hf : f.Down n b) : f.Touching n b :=
  ⟨hf.fits, hf.toList_ne, by rw [hf.phase_eq]; decide⟩

theorem resting_fresh (hn : 0 < n) (b : Bool) : (fresh (Trail.empty n b)).Resting n b :=
  ⟨Trail.fits_empty hn b, rfl, rfl⟩

/-- A slot that is given back is ready for the next finger, whatever the last one left in it. -/
theorem resting_closed (hf : f.trail.Fits n b) : f.closed.Resting n b :=
  ⟨hf.cleared, rfl, rfl⟩

/-- A finger that starts touches at once: it begins with the sample of its contact. -/
theorem touching_started (hf : f.trail.Fits n b) (id : UInt32) (c : Contact) (time : Timestamp) :
    (Matching.started f.opened id c time).Touching n b :=
  ⟨hf.cleared.push .., Trail.toList_push_ne_nil (Trail.stays_cleared hf.stays) c.x c.y time, nofun⟩

/-- A finger that follows a contact goes on touching. -/
theorem touching_moved (hf : f.Touching n b) (c : Contact) (now : Timestamp) :
    (Matching.moved f c now).Touching n b :=
  ⟨hf.fits.push .., Trail.toList_push_ne_nil hf.fits.stays c.x c.y now, hf.phase_ne⟩

/-- What a frame makes of the fingers that stay. -/
theorem down_of_touching (hf : f.Touching n b) : Down n b { f with phase := .down } :=
  ⟨hf.fits, hf.toList_ne, rfl⟩

/-- A finger that touches is somewhere, so a step of it has a place to tell. -/
theorem Touching.last?_eq (hf : f.Touching n b) : ∃ last, f.trail.last? = some last := by
  rw [← Option.isSome_iff_exists, Option.isSome_iff_ne_none, ne_eq, Trail.last?_eq_none_iff]
  exact hf.toList_ne

/-- The step of a finger that is seen. -/
theorem step_seen (hf : f.Touching n b) {last : Sample} (hl : f.trail.last? = some last) :
    f.step true =
      { outcome := .keep, finger := { f with phase := .down }
        events := group f.id last (f.phase == .start) false, notes := [] } := by
  rw [step, if_neg hf.phase_ne, hl]
  rfl

/-- The step of a finger that is not seen. -/
theorem step_unseen (hf : f.Touching n b) {last : Sample} (hl : f.trail.last? = some last) :
    f.step false =
      { outcome := .release, finger := { f with phase := .unused }
        events := group f.id last (f.phase == .start) true
        notes := [.fingerUp last.x last.y] } := by
  rw [step, if_neg hf.phase_ne, hl]
  rfl

/-- What is told about a finger in a frame: its newest sample, and whether it arrives or leaves. -/
def told (f : Finger) (leaves : Bool) : Batch :=
  match f.trail.last? with
  | some last => group f.id last (f.phase == .start) leaves
  | none => []

theorem told_eq {last : Sample} (hl : f.trail.last? = some last) (leaves : Bool) :
    f.told leaves = group f.id last (f.phase == .start) leaves := by
  rw [told, hl]

/-- A finger that is not seen leaves, and this is all that its step adds to what is told of it. -/
theorem events_step (hf : f.Touching n b) (seen : Bool) : (f.step seen).events = f.told !seen := by
  obtain ⟨last, hl⟩ := hf.last?_eq
  rw [told_eq hl]
  cases seen with
  | true => rw [step_seen hf hl]; rfl
  | false => rw [step_unseen hf hl]; rfl

end Finger

end FingerTracking
