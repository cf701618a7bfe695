import FingerTracking.Proofs.Runs
import Mathlib.Data.List.Induction

/-!
# Contacts that a frame can do without

A contact at (0, 0) stands for no contact, but it is asked about that only where it would start a
finger. To the fingers that are active it is a contact like any other: the nearest one that nobody
has claimed from as near is claimed by it, stays and goes to (0, 0) (`origin_holds_finger`).

What can be left out of a frame is a contact that finds no finger to claim at its turn and that
starts none. Without it the contacts behind it move up by one, and nothing else is different:

> `frame_without`: the events, the pool and the next id are those of the frame without the contact.
>
> `frame_without_absent`: if no contact at (0, 0) finds a finger to claim, all can be left out.
-/

namespace FingerTracking

open MatchTable Matching

/-! ## One contact more in a frame -/

/-- Where the `j`-th contact of a frame is when one more has come in as the `k`-th. -/
def shift (k j : Nat) : Nat :=
  if j < k then j else j + 1

theorem shift_of_lt {k j : Nat} (h : j < k) : shift k j = j :=
  if_pos h

theorem shift_of_le {k j : Nat} (h : k ≤ j) : shift k j = j + 1 :=
  if_neg (Nat.not_lt_of_le h)

theorem shift_ne (k j : Nat) : shift k j ≠ k := by
  unfold shift
  split <;> omega

/-- No two contacts are shifted to one place. -/
theorem shift_injective (k : Nat) : Function.Injective (shift k) := by
  intro i j h
  unfold shift at h
  split at h <;> split at h <;> omega

/-- Behind the place every contact stands one further on. -/
theorem getElem?_shift {α : Type} (xs ys : List α) (x : α) (j : Nat) :
    (xs ++ x :: ys)[shift xs.length j]? = (xs ++ ys)[j]? := by
  rcases Nat.lt_or_ge j xs.length with hj | hj
  · rw [shift_of_lt hj, List.getElem?_append_left hj, List.getElem?_append_left hj]
  · rw [shift_of_le hj, List.getElem?_append_right (by omega), List.getElem?_append_right hj,
      Nat.sub_add_comm hj, List.getElem?_cons_succ]

/-- The same match in the longer frame. -/
def Match.shift (k : Nat) : Match → Match
  | .contact j d => .contact (FingerTracking.shift k j) d
  | .spawned => .spawned

namespace Matching

variable {p : Pool} {T U : MatchTable} {h : Handle} {c : Contact} {k : Nat}

/-- The second table says of the longer frame what the first one says of the shorter. -/
def Shifted (k : Nat) (T U : MatchTable) : Prop :=
  ∀ h, U.get? h = (T.get? h).map (Match.shift k)

theorem Shifted.distance?_eq (ht : Shifted k T U) (h : Handle) : U.distance? h = T.distance? h := by
  rw [distance?, distance?, ht h]
  cases T.get? h with
  | none => rfl
  | some m => cases m <;> rfl

/-- A search looks at nothing in the table but the distances. -/
theorem nearest?_congr (hd : ∀ h, U.distance? h = T.distance? h) (p : Pool) (c : Contact) :
    nearest? p U c = nearest? p T c := by
  have hbetter : better p U c = better p T c := by
    funext best h
    unfold better claimable
    rw [hd h]
  rw [nearest?, nearest?, hbetter]

/-- A shifted table lets a contact claim the same finger, since only distances are compared. -/
theorem Shifted.nearest?_eq (ht : Shifted k T U) (p : Pool) (c : Contact) :
    nearest? p U c = nearest? p T c :=
  nearest?_congr ht.distance?_eq p c

/-- A claim is written at the shifted index. -/
theorem Shifted.set (ht : Shifted k T U) (hT : h.index < T.entries.size)
    (hU : h.index < U.entries.size) (m : Match) :
    Shifted k (T.set h m) (U.set h (m.shift k)) := by
  intro g
  by_cases hg : g.index = h.index
  · rw [get?_set_same_slot hT hg, get?_set_same_slot hU hg]
    split <;> rfl
  · rw [get?_set_of_index_ne hg, get?_set_of_index_ne hg]
    exact ht g

/-- A contact behind the one that has come in claims the finger it would have claimed. -/
theorem shifted_claim (hp : p.Shaped) (ht : Shifted k T U) (hT : T.entries.size = p.capacity)
    (hU : U.entries.size = p.capacity) {j : Nat} (hj : k ≤ j) (c : Contact) :
    Shifted k (claim p T j c) (claim p U (j + 1) c) := by
  rw [claim, claim, ht.nearest?_eq]
  cases hn : nearest? p T c with
  | none => exact ht
  | some e =>
    obtain ⟨h, d⟩ := e
    have hlt := Pool.index_lt_capacity hp (nearest?_mem hn)
    have hset := ht.set (hT ▸ hlt) (hU ▸ hlt) (.contact j d)
    rwa [Match.shift, shift_of_le hj] at hset

/-- The contacts behind the place claim what they would without it. -/
theorem shifted_assignFrom (hp : p.Shaped) :
    ∀ (cs : List Contact) {j : Nat} {T U : MatchTable}, k ≤ j → T.entries.size = p.capacity →
      U.entries.size = p.capacity → Shifted k T U →
      Shifted k (assignFrom p j cs T) (assignFrom p (j + 1) cs U)
  | [], _, _, _, _, _, _, ht => ht
  | c :: cs, _, _, _, hj, hT, hU, ht =>
    shifted_assignFrom hp cs (Nat.le_succ_of_le hj) ((size_claim ..).trans hT)
      ((size_claim ..).trans hU) (shifted_claim hp ht hT hU hj c)

/-- A contact that finds nothing leaves the claims as they are, but for the places of those made
after it. -/
theorem shifted_assign (hp : p.Shaped) (xs ys : List Contact)
    (hc : nearest? p (assign p xs) c = none) :
    Shifted xs.length (assign p (xs ++ ys)) (assign p (xs ++ c :: ys)) := by
  have hnone : claim p (assign p xs) xs.length c = assign p xs := by
    rw [claim, hc]
  have hsize : (assign p xs).entries.size = p.capacity := size_assign p xs
  rw [assign_append, assign_append, assignFrom, hnone]
  refine shifted_assignFrom hp ys (Nat.le_refl _) hsize hsize ?_
  -- the claims made so far are on contacts in front of the one that comes in
  intro h
  cases hg : (assign p xs).get? h with
  | none => rfl
  | some m =>
    obtain ⟨-, j, d, rfl, hj⟩ := (assign_sole p xs).claims h m hg
    rw [Option.map_some, Match.shift, shift_of_lt hj]

/-! ## The fingers that start -/

variable {threshold : Int32} {now : Timestamp}

/-- Which fingers start does not depend on where the contacts are counted from. -/
theorem entries_arrivals_from (threshold : Int32) (now : Timestamp) (i : Nat) :
    ∀ (cs : List Contact) (j : Nat) (spares : List (Handle × Finger)) (id : UInt32) (tries : Nat),
      (arrivals threshold now i cs spares id tries).map (·.entry) =
        (arrivals threshold now j cs spares id tries).map (·.entry)
  | [], _, _, _, _ => rfl
  | c :: cs, j, spares, id, tries => by
    have ih := entries_arrivals_from threshold now (i + 1) cs (j + 1)
    by_cases hq : qualifies threshold c = true
    · cases spares with
      | nil =>
        simp only [arrivals, arrival?, if_pos hq]
        exact ih ..
      | cons e rest =>
        simp only [arrivals, arrival?, if_pos hq, List.head?_cons, Option.map_some, List.map_cons]
        exact congrArg _ (ih ..)
    · simp only [arrivals, arrival?, if_neg hq]
      exact ih ..

/-- A contact that does not qualify starts no finger and holds up none. -/
theorem entries_arrivals_without (hq : ¬ qualifies threshold c = true) (xs ys : List Contact)
    (spares : List (Handle × Finger)) (id : UInt32) :
    (arrivals threshold now 0 (xs ++ c :: ys) spares id 0).map (·.entry) =
      (arrivals threshold now 0 (xs ++ ys) spares id 0).map (·.entry) := by
  rw [arrivals_append, arrivals_append, List.map_append, List.map_append]
  congr 1
  simp only [arrivals, arrival?, if_neg hq]
  exact entries_arrivals_from ..

/-- Taking contacts off the longer frame. The one that has come in is none of them. -/
theorem takenOff_shift (js : List Nat) (xs ys : List Contact) (c : Contact) :
    ∃ as bs, takenOff js (xs ++ ys) = as ++ bs ∧
      takenOff (js.map (shift xs.length)) (xs ++ c :: ys) = as ++ c :: bs := by
  have hmem : ∀ j, shift xs.length j ∈ js.map (shift xs.length) ↔ j ∈ js := fun j =>
    List.mem_map_of_injective (shift_injective _)
  have hself : xs.length ∉ js.map (shift xs.length) := by
    intro h
    obtain ⟨j, -, hj⟩ := List.mem_map.mp h
    exact shift_ne _ j hj
  have hfront : ∀ i < xs.length, (i ∈ js.map (shift xs.length) ↔ i ∈ js) := by
    intro i hi
    rw [← hmem i, shift_of_lt hi]
  have hback : ∀ i, (i + 1 + xs.length ∈ js.map (shift xs.length) ↔ i + xs.length ∈ js) := by
    intro i
    rw [← hmem, shift_of_le (Nat.le_add_left ..), Nat.add_right_comm]
  refine ⟨takenOff js xs, ys.mapIdx fun i d => if i + xs.length ∈ js then d.consumed else d,
    by rw [takenOff, List.mapIdx_append, takenOff], ?_⟩
  rw [takenOff, List.mapIdx_append, List.mapIdx_cons, Nat.zero_add, if_neg hself, takenOff]
  congr 1
  · apply List.mapIdx_eq_mapIdx_iff.mpr
    intro i hi
    simp only [hfront i hi]
  · congr 1
    apply List.mapIdx_eq_mapIdx_iff.mpr
    intro i _
    simp only [hback]

end Matching

namespace Tracker

variable {n : Nat} {b : Bool} {t : Tracker} {c : Contact} {xs ys : List Contact}

/-! ## A frame without the contact -/

/-- A finger is matched with the additional contact exactly if it is without it. -/
theorem isMatched_shift {k : Nat} {T U : MatchTable} (ht : Shifted k T U) (h : Handle) :
    U.isMatched h = T.isMatched h := by
  rw [isMatched, isMatched, ht h, Option.isSome_map]

theorem claim?_shift {k : Nat} {T U : MatchTable} (ht : Shifted k T U) (h : Handle) :
    U.claim? h = (T.claim? h).map (shift k) := by
  rw [claim?, claim?, ht h]
  cases T.get? h with
  | none => rfl
  | some m => cases m <;> rfl

/-- A finger finds its contact at the shifted index, so it moves to the same place. -/
theorem followEntry_shift {T U : MatchTable} (ht : Shifted xs.length T U) (c : Contact)
    (ys : List Contact) (now : Timestamp) :
    followEntry U (xs ++ c :: ys) now = followEntry T (xs ++ ys) now := by
  funext e
  rw [followEntry, followEntry, claim?_shift ht]
  cases T.claim? e.1 with
  | none => rfl
  | some j =>
    simp only [follow, Option.map_some, Option.bind_some, getElem?_shift]

/-- The claims of a frame and of the frame with a contact more that finds no finger. -/
theorem shifted_claims (hp : t.pool.Shaped) (hc : nearest? t.pool (t.claims xs) c = none)
    (ys : List Contact) :
    Shifted xs.length (t.claims (xs ++ ys)) (t.claims (xs ++ c :: ys)) :=
  shifted_assign hp xs ys hc

/-- The same fingers start, with the same ids and times. -/
theorem entries_arrivals_idle (hp : t.pool.Shaped) (hq : ¬ qualifies t.threshold c = true)
    (hc : nearest? t.pool (t.claims xs) c = none) (ys : List Contact) (now : Timestamp) :
    (t.arrivals (xs ++ c :: ys) now).map (·.entry) = (t.arrivals (xs ++ ys) now).map (·.entry) := by
  have hclaims : (t.pool.entries.filterMap fun e => (t.claims (xs ++ c :: ys)).claim? e.1) =
      (t.pool.entries.filterMap fun e => (t.claims (xs ++ ys)).claim? e.1).map
        (shift xs.length) := by
    rw [List.map_filterMap]
    simp only [claim?_shift (shifted_claims hp hc ys)]
  obtain ⟨as, bs, hshort, hlong⟩ := takenOff_shift
    (t.pool.entries.filterMap fun e => (t.claims (xs ++ ys)).claim? e.1) xs ys c
  rw [arrivals, arrivals, frame_moved _ _ hp, frame_moved _ _ hp, hclaims, hlong, hshort]
  exact entries_arrivals_without hq as bs _ _

/-- A frame is the same without a contact that finds no finger at its turn and starts none. -/
theorem frame_without (hp : t.pool.Settled n b) (hq : ¬ qualifies t.threshold c = true)
    (hc : nearest? t.pool (t.claims xs) c = none) (ys : List Contact) (now : Timestamp) :
    (t.frame (xs ++ c :: ys) now).tracker = (t.frame (xs ++ ys) now).tracker ∧
      (t.frame (xs ++ c :: ys) now).events = (t.frame (xs ++ ys) now).events := by
  have hshift := shifted_claims hp.shaped hc ys
  have hmatched := isMatched_shift hshift
  have hfollow := followEntry_shift hshift c ys now
  have harr := entries_arrivals_idle hp.shaped hq hc ys now
  have hlen : (t.arrivals (xs ++ c :: ys) now).length = (t.arrivals (xs ++ ys) now).length := by
    rw [← List.length_map (·.entry), harr, List.length_map]
  have hgoOn : ∀ as : List Arrived,
      (as.map fun a => goOn a.entry) = (as.map (·.entry)).map goOn := by
    intro as
    rw [List.map_map]
    rfl
  have htold : ∀ as : List Arrived, (as.flatMap fun a => a.finger.told false) =
      (as.map (·.entry)).flatMap fun e => e.2.told false := by
    intro as
    rw [List.flatMap_map]
    rfl
  have hpool : (t.frame (xs ++ c :: ys) now).tracker.pool = (t.frame (xs ++ ys) now).tracker.pool := by
    apply Pool.eq_of_entries_spares (settled_frame _ _ hp).shaped (settled_frame _ _ hp).shaped
    · simp only [entries_frame _ _ hp, hmatched, hfollow, hgoOn, harr]
    · simp only [spares_frame _ _ hp, hmatched, hfollow, hlen]
  have hid : (t.frame (xs ++ c :: ys) now).tracker.nextId =
      (t.frame (xs ++ ys) now).tracker.nextId := by
    rw [nextId_frame _ _ hp.shaped, nextId_frame _ _ hp.shaped, hlen]
  refine ⟨?_, ?_⟩
  · show ({ t with pool := _, nextId := _ } : Tracker) = { t with pool := _, nextId := _ }
    exact congrArg₂ (fun pool nextId => { t with pool, nextId }) hpool hid
  · simp only [events_frame _ _ hp, hmatched, hfollow, htold, harr]

/-! ## Frames without absent contacts -/

/-- Leaving out the absent contacts of the first part of a frame, the last one first, so that the
claims made before the ones that are still in it stay the same. -/
theorem frame_filter_append (hp : t.pool.Settled n b) (now : Timestamp) (xs : List Contact) :
    ∀ ys, (∀ as c bs, xs = as ++ c :: bs → c.isAbsent = true →
        nearest? t.pool (t.claims as) c = none) →
      (t.frame (xs.filter (!·.isAbsent) ++ ys) now).tracker = (t.frame (xs ++ ys) now).tracker ∧
        (t.frame (xs.filter (!·.isAbsent) ++ ys) now).events =
          (t.frame (xs ++ ys) now).events := by
  induction xs using List.reverseRecOn with
  | nil => exact fun ys _ => ⟨rfl, rfl⟩
  | append_singleton xs c ih =>
    intro ys hidle
    have hxs : ∀ as d bs, xs = as ++ d :: bs → d.isAbsent = true →
        nearest? t.pool (t.claims as) d = none := by
      intro as d bs heq hd
      refine hidle as d (bs ++ [c]) ?_ hd
      rw [heq, List.append_assoc, List.cons_append]
    rw [List.filter_append, List.append_assoc xs, List.singleton_append]
    by_cases hc : c.isAbsent = true
    · obtain ⟨htracker, hevents⟩ :=
        frame_without hp (not_qualifies_of_isAbsent hc) (hidle xs c [] rfl hc) ys now
      rw [List.filter_cons_of_neg (by simp [hc]), List.filter_nil, List.append_nil, htracker,
        hevents]
      exact ih ys hxs
    · rw [List.filter_cons_of_pos (by simp [hc]), List.filter_nil, List.append_assoc,
        List.singleton_append]
      exact ih (c :: ys) hxs

/-- Contacts at (0, 0) that find no finger to claim when their turn comes can be left out of the
frame: the events are the same, and so is all of the tracker. -/
theorem frame_without_absent {s : Settings} {t₀ : Tracker} (h : Tracker.new s = .ok t₀)
    (calls : List Call) (contacts : List Contact) (now : Timestamp)
    (hidle : ∀ j : Fin contacts.length, contacts[j].isAbsent = true →
      nearest? (t₀.after calls).pool ((t₀.after calls).claims (contacts.take j)) contacts[j] =
        none) :
    ((t₀.after calls).frame (contacts.filter (!·.isAbsent)) now).tracker =
        ((t₀.after calls).frame contacts now).tracker ∧
      ((t₀.after calls).frame (contacts.filter (!·.isAbsent)) now).events =
        ((t₀.after calls).frame contacts now).events := by
  have hall := frame_filter_append (sound_after h calls).settled now contacts [] (by
    intro as c bs heq hc
    subst heq
    have hj := hidle ⟨as.length, by simp⟩
    simp only [Fin.getElem_fin, List.getElem_append_right (Nat.le_refl _), Nat.sub_self,
      List.getElem_cons_zero, List.take_left'] at hj
    exact hj hc)
  simpa only [List.append_nil] using hall

/-- The finger is claimed from where it is, so the contacts at (0, 0) find none. The last contact
starts a second finger. -/
theorem frame_without_absent_beside_touch :
    ∃ t₀, Tracker.new { maxFingers := 2 } = .ok t₀ ∧
      ((t₀.after [.frame [⟨10, 10, 1⟩] Timestamp.epoch]).frame
          [⟨10, 10, 1⟩, ⟨500, 500, 1⟩] Timestamp.epoch).events =
        ((t₀.after [.frame [⟨10, 10, 1⟩] Timestamp.epoch]).frame
          [⟨10, 10, 1⟩, ⟨0, 0, 1⟩, ⟨0, 0, 7⟩, ⟨500, 500, 1⟩] Timestamp.epoch).events := by
  obtain ⟨t₀, h⟩ : ∃ t₀, Tracker.new { maxFingers := 2 } = .ok t₀ := ⟨_, rfl⟩
  obtain ⟨-, ht₀⟩ := new_eq_ok h
  refine ⟨t₀, h, (frame_without_absent h [.frame [⟨10, 10, 1⟩] Timestamp.epoch]
    [⟨10, 10, 1⟩, ⟨0, 0, 1⟩, ⟨0, 0, 7⟩, ⟨500, 500, 1⟩] Timestamp.epoch ?_).2⟩
  rw [ht₀]
  decide +kernel

/-- A contact at (0, 0) holds a finger that would leave without it, and moves it to (0, 0). -/
theorem origin_holds_finger :
    ∃ t₀, Tracker.new {} = .ok t₀ ∧
      ((t₀.after [.frame [⟨10, 10, 1⟩] Timestamp.epoch]).frame
          ([⟨0, 0, 1⟩].filter (!·.isAbsent)) Timestamp.epoch).events ≠
        ((t₀.after [.frame [⟨10, 10, 1⟩] Timestamp.epoch]).frame
          [⟨0, 0, 1⟩] Timestamp.epoch).events := by
  obtain ⟨t₀, h⟩ : ∃ t₀, Tracker.new {} = .ok t₀ := ⟨_, rfl⟩
  obtain ⟨-, ht₀⟩ := new_eq_ok h
  refine ⟨t₀, h, ?_⟩
  rw [ht₀]
  decide +kernel

end Tracker

end FingerTracking
