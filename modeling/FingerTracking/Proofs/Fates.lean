import FingerTracking.Proofs.Frame

/-!
# What becomes of a contact

In a frame a finger that was active before may claim a contact (`ClaimedBy`), and the contacts that
nobody claims have their turns one by one: a turn starts a finger (`Starts`) or does not. Both are
read off the claims and the arrivals of the frame:

> `claimedBy_iff`: the table of the frame has the claims that were made in it, and no others.
>
> `starts_iff`: the turn of a contact starts a finger exactly if the contact, as it stands in the
> frame by then, qualifies and there is a spare finger.
>
> `exists_arrival_iff`: the fingers started at the turns are the arrivals.

A contact that is claimed is taken off the frame before the turns begin, so its own starts
nothing.
-/

namespace FingerTracking

open MatchTable Matching

namespace Matching

variable {threshold : Int32} {now : Timestamp} {spares : List (Handle × Finger)} {id : UInt32}
variable {cs : List Contact} {c : Contact} {j : Nat}

/-- The arrivals before a contact, the one at the contact, and those after it. -/
theorem arrivals_at (threshold : Int32) (now : Timestamp) (hc : cs[j]? = some c)
    (spares : List (Handle × Finger)) (id : UInt32) :
    ∃ id' tries' after, arrivals threshold now 0 cs spares id 0 =
        arrivals threshold now 0 (cs.take j) spares id 0 ++
          ((arrival? threshold now j c
            (spares.drop (arrivals threshold now 0 (cs.take j) spares id 0).length)
            id' tries').toList ++ after) ∧
      ∀ a ∈ after, j < a.index := by
  obtain ⟨hlt, hget⟩ := List.getElem?_eq_some_iff.mp hc
  have hsplit : cs = cs.take j ++ c :: cs.drop (j + 1) := by
    rw [← hget, ← List.drop_eq_getElem_cons hlt, List.take_append_drop]
  have hlen : (cs.take j).length = j := List.length_take_of_le (Nat.le_of_lt hlt)
  have h := arrivals_append threshold now (cs.take j) (c :: cs.drop (j + 1)) 0 spares id 0
  rw [← hsplit, arrivals_cons, hlen, Nat.zero_add] at h
  exact ⟨_, _, _, h, fun a ha => (arrivals_index_lt _ _ _ _ _ a ha).1⟩

theorem spawnFrom_append (threshold : Int32) (now : Timestamp) (ys : List Contact) :
    ∀ (xs : List Contact) (j : Nat) (s : Spawning),
      spawnFrom threshold now j (xs ++ ys) s =
        spawnFrom threshold now (j + xs.length) ys (spawnFrom threshold now j xs s)
  | [], _, _ => rfl
  | c :: xs, j, s => by
    rw [List.cons_append, spawnFrom, spawnFrom_append threshold now ys xs, List.length_cons,
      Nat.add_right_comm]
    rfl

end Matching

namespace Tracker

variable {n : Nat} {b : Bool} {t : Tracker} {contacts : List Contact} {now : Timestamp}
variable {j : Nat} {h : Handle} {c : Contact}

/-- The finger behind `h` was active before the frame, and the contact at index `j` is its own. -/
def ClaimedBy (t : Tracker) (contacts : List Contact) (now : Timestamp) (j : Nat) (h : Handle) :
    Prop :=
  h ∈ t.pool.handles ∧ ∃ d, (t.matched contacts now).table.get? h = some (.contact j d)

/-- The turn of the contact at index `j` adds a finger, the one behind `h`. -/
def Starts (t : Tracker) (contacts : List Contact) (now : Timestamp) (j : Nat) (h : Handle) :
    Prop :=
  (t.turn contacts now (j + 1)).pool.handles = (t.turn contacts now j).pool.handles ++ [h]

/-! ## Claims -/

/-- A claim is read off the table once all contacts have had their turns. -/
theorem claimedBy_iff (hp : t.pool.Shaped) :
    t.ClaimedBy contacts now j h ↔ (t.claims contacts).claim? h = some j := by
  constructor
  · intro ⟨hh, d, hd⟩
    rw [get?_matched_old contacts now hp hh] at hd
    exact claim?_eq_some_iff.mpr ⟨d, hd⟩
  · intro hj
    obtain ⟨hh, -⟩ := (t.sole_claims contacts).mem_of_claim? hj
    obtain ⟨d, hd⟩ := claim?_eq_some_iff.mp hj
    refine ⟨hh, d, ?_⟩
    rw [get?_matched_old contacts now hp hh]
    exact hd

/-- A finger is in the table of claims if it has a contact of its own. -/
theorem isMatched_iff_claimedBy (hp : t.pool.Shaped) :
    (t.claims contacts).isMatched h = true ↔ ∃ j, t.ClaimedBy contacts now j h := by
  rw [(t.sole_claims contacts).isMatched_iff]
  exact exists_congr fun j => (claimedBy_iff hp).symm

theorem lt_of_claimedBy (hp : t.pool.Shaped) (hj : t.ClaimedBy contacts now j h) :
    j < contacts.length :=
  ((t.sole_claims contacts).mem_of_claim? ((claimedBy_iff hp).mp hj)).2

/-- A contact is claimed by one finger at most. -/
theorem claimedBy_inj {k : Handle} (hp : t.pool.Shaped) (hh : t.ClaimedBy contacts now j h)
    (hk : t.ClaimedBy contacts now j k) : h = k :=
  (t.sole_claims contacts).sole h k j ((claimedBy_iff hp).mp hh) ((claimedBy_iff hp).mp hk)

/-- The contacts taken off a frame are those that a finger has claimed. -/
theorem mem_takenOff_iff (hp : t.pool.Shaped) :
    j ∈ t.pool.entries.filterMap (fun e => (t.claims contacts).claim? e.1) ↔
      ∃ h, t.ClaimedBy contacts now j h := by
  rw [List.mem_filterMap]
  constructor
  · intro ⟨e, _, hj⟩
    exact ⟨e.1, (claimedBy_iff hp).mpr hj⟩
  · intro ⟨h, hj⟩
    obtain ⟨f, hf⟩ := Pool.mem_handles_iff.mp hj.1
    exact ⟨(h, f), hf, (claimedBy_iff hp).mp hj⟩

theorem getElem?_frame_of_claimedBy (hp : t.pool.Shaped) (hj : t.ClaimedBy contacts now j h)
    (hc : contacts[j]? = some c) : (t.frame contacts now).frame[j]? = some c.consumed := by
  have hmem := (mem_takenOff_iff hp).mpr ⟨h, hj⟩
  rw [frame_frame contacts now hp, getElem?_takenOff, hc]
  simp only [Option.map_some, if_pos hmem]

theorem getElem?_frame_of_unclaimed (hp : t.pool.Shaped)
    (hj : ∀ h, ¬ t.ClaimedBy contacts now j h) :
    (t.frame contacts now).frame[j]? = contacts[j]? := by
  rw [frame_frame contacts now hp]
  apply getElem?_takenOff_of_notMem
  intro hmem
  obtain ⟨h, hh⟩ := (mem_takenOff_iff hp).mp hmem
  exact hj h hh

/-- What still qualifies in the frame when the turns begin has been claimed by nobody. -/
theorem unclaimed_of_qualifies (hp : t.pool.Shaped) (hc : (t.moved contacts now).frame[j]? = some c)
    (hq : qualifies t.threshold c = true) : ∀ h, ¬ t.ClaimedBy contacts now j h := by
  intro h hj
  obtain ⟨d, hd⟩ : ∃ d, contacts[j]? = some d :=
    ⟨_, List.getElem?_eq_getElem (lt_of_claimedBy hp hj)⟩
  have hgone : (t.moved contacts now).frame[j]? = some d.consumed :=
    getElem?_frame_of_claimedBy hp hj hd
  rw [hc, Option.some_inj] at hgone
  rw [hgone] at hq
  exact absurd (qualifies_iff.mp hq).1 (by simp)

/-! ## Turns -/

theorem length_moved (contacts : List Contact) (now : Timestamp) (hp : t.pool.Shaped) :
    (t.moved contacts now).frame.length = contacts.length := by
  obtain ⟨-, -, -, -, hframe⟩ := moved_spec contacts now hp
  rw [hframe, length_takenOff]

/-- A turn is one step of spawning. -/
theorem turn_succ (hc : (t.moved contacts now).frame[j]? = some c) :
    t.turn contacts now (j + 1) = spawnOne t.threshold now (t.turn contacts now j) j c := by
  obtain ⟨hlt, -⟩ := List.getElem?_eq_some_iff.mp hc
  have hlen : ((t.moved contacts now).frame.take j).length = j :=
    List.length_take_of_le (Nat.le_of_lt hlt)
  unfold turn
  rw [List.take_add_one, hc, Option.toList_some, spawnFrom_append, hlen, Nat.zero_add]
  rfl

/-- When all contacts have had their turns, spawning is over. -/
theorem turn_length (hp : t.pool.Shaped) :
    t.turn contacts now contacts.length =
      spawn t.threshold (t.moved contacts now).pool (t.claims contacts)
        (t.moved contacts now).frame now t.nextId := by
  unfold turn
  rw [List.take_of_length_le (Nat.le_of_eq (length_moved contacts now hp))]
  rfl

/-- The fingers that have started when the `k`-th contact has its turn. -/
def arrivedBy (t : Tracker) (contacts : List Contact) (now : Timestamp) (k : Nat) : List Arrived :=
  Matching.arrivals t.threshold now 0 ((t.moved contacts now).frame.take k) t.pool.spares t.nextId 0

theorem spares_turn (hp : t.pool.Shaped) (k : Nat) :
    (t.turn contacts now k).pool.spares =
      t.pool.spares.drop (t.arrivedBy contacts now k).length := by
  obtain ⟨-, -, -, hspare, -⟩ := moved_spec contacts now hp
  have h := (grown_spawnFrom contacts now hp ((t.moved contacts now).frame.take k)).spares_eq
  rw [show (t.beforeSpawn contacts now).pool.spares = t.pool.spares from hspare] at h
  exact h

/-- In the course of spawning the old fingers keep their places and the new ones come behind
them. -/
theorem handles_turn (hp : t.pool.Shaped) (k : Nat) :
    (t.turn contacts now k).pool.handles =
      t.pool.handles ++ (t.arrivedBy contacts now k).map (·.handle) := by
  obtain ⟨-, -, hent, -, -⟩ := moved_spec contacts now hp
  have h := (grown_spawnFrom contacts now hp ((t.moved contacts now).frame.take k)).entries_eq
  rw [show (t.beforeSpawn contacts now).pool.entries = _ from hent] at h
  rw [Pool.handles_eq, Pool.handles_eq, show (t.turn contacts now k).pool.entries = _ from h,
    List.map_append, List.map_map, List.map_map]
  rfl

/-- A turn adds what arrives at its contact. -/
theorem arrivedBy_succ (hc : (t.moved contacts now).frame[j]? = some c) :
    ∃ id tries, t.arrivedBy contacts now (j + 1) = t.arrivedBy contacts now j ++
      (arrival? t.threshold now j c (t.pool.spares.drop (t.arrivedBy contacts now j).length)
        id tries).toList := by
  obtain ⟨hlt, -⟩ := List.getElem?_eq_some_iff.mp hc
  have hlen : ((t.moved contacts now).frame.take j).length = j :=
    List.length_take_of_le (Nat.le_of_lt hlt)
  have htake : (t.moved contacts now).frame.take (j + 1) =
      (t.moved contacts now).frame.take j ++ [c] := by
    rw [List.take_add_one, hc]
    rfl
  have h := arrivals_append t.threshold now ((t.moved contacts now).frame.take j) [c] 0
    t.pool.spares t.nextId 0
  rw [← htake, arrivals_cons, hlen, Nat.zero_add, Matching.arrivals, List.append_nil] at h
  exact ⟨_, _, h⟩

/-- A contact starts a finger at its turn if it qualifies and a slot is left by then. -/
theorem starts_iff (hp : t.pool.Shaped) (hc : (t.moved contacts now).frame[j]? = some c) :
    t.Starts contacts now j h ↔ qualifies t.threshold c = true ∧
      ∃ f rest, (t.turn contacts now j).pool.spares = (h, f) :: rest := by
  obtain ⟨id, tries, hsucc⟩ := arrivedBy_succ hc
  rw [Starts, handles_turn hp, handles_turn hp, hsucc, List.map_append, ← List.append_assoc,
    List.append_cancel_left_eq, ← spares_turn hp]
  cases ha : arrival? t.threshold now j c (t.turn contacts now j).pool.spares id tries with
  | none =>
    constructor
    · intro hnil
      exact nomatch hnil
    · intro ⟨hq, f, rest, hspare⟩
      rcases arrival?_eq_none_iff.mp ha with hnot | hnil
      · exact absurd hq hnot
      · rw [hspare] at hnil
        exact nomatch hnil
  | some a =>
    obtain ⟨hq, e, rest, hspare, rfl⟩ := arrival?_eq_some_iff.mp ha
    constructor
    · intro heq
      obtain rfl : e.1 = h := List.head_eq_of_cons_eq heq
      exact ⟨hq, e.2, rest, hspare⟩
    · intro ⟨_, f, rest', hspare'⟩
      obtain ⟨rfl, -⟩ := List.cons.inj (hspare.symm.trans hspare')
      rfl

/-- An unclaimed contact starts a finger exactly if it qualifies and there is a slot for it. -/
theorem starts_iff_of_unclaimed (hp : t.pool.Shaped) (hc : contacts[j]? = some c)
    (hfree : ∀ h, ¬ t.ClaimedBy contacts now j h) :
    t.Starts contacts now j h ↔ qualifies t.threshold c = true ∧
      ∃ f rest, (t.turn contacts now j).pool.spares = (h, f) :: rest :=
  starts_iff hp ((getElem?_frame_of_unclaimed hp hfree).trans hc)

/-- There is a contact where a finger starts. -/
theorem exists_of_starts (hs : t.Starts contacts now j h) :
    ∃ c, (t.moved contacts now).frame[j]? = some c := by
  by_cases hlt : j < (t.moved contacts now).frame.length
  · exact ⟨_, List.getElem?_eq_getElem hlt⟩
  · -- past the last contact nothing has a turn any more
    have hsame : t.turn contacts now (j + 1) = t.turn contacts now j := by
      unfold turn
      rw [List.take_of_length_le (by omega), List.take_of_length_le (by omega)]
    rw [Starts, hsame] at hs
    exact absurd (congrArg List.length hs) (by simp)

/-- A turn starts one finger. -/
theorem starts_unique {k : Handle} (hp : t.pool.Shaped) (hh : t.Starts contacts now j h)
    (hk : t.Starts contacts now j k) : h = k := by
  obtain ⟨c, hc⟩ := exists_of_starts hh
  obtain ⟨-, f, rest, hf⟩ := (starts_iff hp hc).mp hh
  obtain ⟨-, g, rest', hg⟩ := (starts_iff hp hc).mp hk
  rw [hf] at hg
  exact congrArg Prod.fst (List.cons.inj hg).1

/-- A contact that is claimed starts nothing. -/
theorem not_starts_of_claimedBy (hp : t.pool.Shaped) (hj : t.ClaimedBy contacts now j h) :
    ∀ k, ¬ t.Starts contacts now j k := by
  intro k hs
  obtain ⟨c, hc⟩ := exists_of_starts hs
  exact unclaimed_of_qualifies hp hc ((starts_iff hp hc).mp hs).1 h hj

/-- The arrivals are the fingers that start. -/
theorem exists_arrival_iff (hp : t.pool.Shaped) :
    (∃ a ∈ t.arrivals contacts now, a.index = j ∧ a.handle = h) ↔ t.Starts contacts now j h := by
  constructor
  · intro ⟨a, ha, hindex, hhandle⟩
    obtain ⟨c, -, -, -, hc, hq, -⟩ := arrivals_started _ _ _ _ _ a ha
    rw [Nat.sub_zero, hindex] at hc
    obtain ⟨id, tries, after, hsplit, hafter⟩ :=
      arrivals_at t.threshold now hc t.pool.spares t.nextId
    -- of the arrivals only the one at the contact itself has its index
    rw [arrivals, hsplit] at ha
    rcases List.mem_append.mp ha with ha | ha
    · have hlt := (arrivals_index_lt _ _ _ _ _ a ha).2
      rw [Nat.zero_add, List.length_take] at hlt
      omega
    rcases List.mem_append.mp ha with ha | ha
    · obtain ⟨-, e, rest, hspare, rfl⟩ := arrival?_eq_some_iff.mp (Option.mem_toList.mp ha)
      refine (starts_iff hp hc).mpr ⟨hq, e.2, rest, ?_⟩
      rw [spares_turn hp, ← hhandle]
      exact hspare
    · exact absurd (hafter a ha) (by omega)
  · intro hs
    obtain ⟨c, hc⟩ := exists_of_starts hs
    obtain ⟨hq, f, rest, hspare⟩ := (starts_iff hp hc).mp hs
    obtain ⟨id, tries, after, hsplit, -⟩ := arrivals_at t.threshold now hc t.pool.spares t.nextId
    rw [spares_turn hp] at hspare
    refine ⟨⟨j, h, started f.opened id c (staggered now tries)⟩, ?_, rfl, rfl⟩
    rw [arrivals, hsplit]
    apply List.mem_append_right
    apply List.mem_append_left
    exact Option.mem_toList.mpr (arrival?_eq_some_iff.mpr ⟨hq, (h, f), rest, hspare, rfl⟩)

/-! ## Old fingers and new ones -/

/-- The fingers in a frame are all different, the old ones and the new ones. -/
theorem nodup_old_new (contacts : List Contact) (now : Timestamp) (hp : t.pool.Shaped) :
    (t.pool.handles ++ (t.arrivals contacts now).map (·.handle)).Nodup := by
  rw [← map_fst_present contacts now]
  exact nodup_present contacts now hp

/-- A finger that starts was not active before, since a slot is taken under a new handle. -/
theorem notMem_handles_of_starts (hp : t.pool.Shaped) (hs : t.Starts contacts now j h) :
    h ∉ t.pool.handles := by
  obtain ⟨a, ha, -, rfl⟩ := (exists_arrival_iff hp).mpr hs
  exact fun hmem =>
    List.disjoint_of_nodup_append (nodup_old_new contacts now hp) hmem (List.mem_map_of_mem ha)

/-- A finger starts at one turn only. -/
theorem starts_inj {k : Nat} (hp : t.pool.Shaped) (hj : t.Starts contacts now j h)
    (hk : t.Starts contacts now k h) : j = k := by
  obtain ⟨a, ha, rfl, hah⟩ := (exists_arrival_iff hp).mpr hj
  obtain ⟨d, hd, rfl, hdh⟩ := (exists_arrival_iff hp).mpr hk
  have hnodup := (List.nodup_append.mp (nodup_old_new contacts now hp)).2.1
  rw [List.inj_on_of_nodup_map hnodup ha hd (hah.trans hdh.symm)]

end Tracker

end FingerTracking
