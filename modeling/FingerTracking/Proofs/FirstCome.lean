import FingerTracking.Proofs.Arrivals
import FingerTracking.Proofs.Turnover

/-!
# First come, first served

Of the contacts of a frame that qualify, the first ones start fingers, as many as there are slots,
and each takes the slot that has waited the longest. The others come away with nothing: no slot, no
entry and no number is different for them.

> `entries_arrivals` (among the arrivals): the `i`-th finger to start stands at the `i`-th contact
> that qualifies, in the `i`-th free slot, with the `i`-th id from the next one on, and its sample is
> `i` milliseconds late.
>
> `trailsStay_afterUses`: the trails of a pool in use stay in shape.
>
> `firstCome_afterUses`: what starting fingers does to pool, table and counters, all of it.

The delays count tries, with or without a slot, and yet no finger is later than its number among the
fingers: once there is no slot for a try, there is none for those behind it.
-/

namespace FingerTracking

open MatchTable

namespace Pool

variable {p q : Pool} {u : Use}

/-! ## Trails in shape -/

/-- The trails of all slots are in shape, also of those that are free. -/
def TrailsStay (p : Pool) : Prop :=
  ∀ (i : Nat) (s : Slot), p.slots[i]? = some s → s.finger.trail.Stays

/-- A use that makes no trail but by pushing and clearing, and so none that is not in shape. -/
def Use.KeepsTrails : Use → Prop
  | .edit _ change => ∀ f : Finger, f.trail.Stays → (change f).trail.Stays
  | _ => True

/-- Such a use leaves the trail of a slot in shape, whichever slot it is. -/
theorem stays_edited {f : Finger} (hu : u.KeepsTrails) (hf : f.trail.Stays) (p : Pool) (i : Nat) :
    (p.edited i u f).trail.Stays := by
  cases u with
  | edit h change =>
    rw [edited]
    split
    · exact hu f hf
    · exact hf
  | _ => exact hf

/-- Taking and giving back clear the trail, which leaves it in shape as well. -/
theorem stays_slotAfter {s : Slot} (hu : u.KeepsTrails) (hs : s.finger.trail.Stays) (p : Pool)
    (i : Nat) : (p.slotAfter u i s).finger.trail.Stays := by
  unfold slotAfter
  split
  · exact Trail.stays_cleared hs
  split
  · exact Trail.stays_cleared hs
  · exact stays_edited hu hs p i

/-- So all trails stay in shape in any such use. -/
theorem trailsStay_use (hp : p.Shaped) (ht : p.TrailsStay) (hu : u.KeepsTrails) :
    (p.use u).TrailsStay := by
  have hone := used_use hp u
  intro i r hr
  obtain ⟨hlt, -⟩ := Array.getElem?_eq_some_iff.mp hr
  have hs := Array.getElem?_eq_getElem (hone.capacity_eq ▸ hlt : i < p.capacity)
  obtain rfl := Option.some_inj.mp ((hone.slots i _ hs).symm.trans hr)
  exact stays_slotAfter hu (ht i _ hs) p i

theorem trailsStay_afterUses (us : List Use) :
    ∀ {p : Pool}, p.Shaped → p.TrailsStay → (∀ u ∈ us, u.KeepsTrails) →
      (p.afterUses us).TrailsStay := by
  induction us with
  | nil => exact fun _ ht _ => ht
  | cons u us ih =>
    intro p hp ht hus
    obtain ⟨hu, hus⟩ := List.forall_mem_cons.mp hus
    exact ih (used_use hp u).shaped (trailsStay_use hp ht hu) hus

theorem trailsStay_new {s : Settings} (h : Pool.new s = .ok p) : p.TrailsStay := by
  intro i r hr
  unfold Pool.new at h
  split at h
  next =>
    obtain rfl := Except.ok.inj h
    simp at hr
  next =>
    cases hnew : Trail.new s.trailLength s.filtered with
    | error e =>
      rw [hnew] at h
      exact nomatch h
    | ok trail =>
      rw [hnew] at h
      obtain rfl := Except.ok.inj h
      obtain ⟨hpos, rfl⟩ := Trail.eq_empty_of_new hnew
      obtain ⟨hi, rfl⟩ := Array.getElem?_eq_some_iff.mp hr
      simp only [ofTrail, Array.getElem_replicate]
      exact Trail.stays_empty hpos s.filtered

end Pool

namespace Matching

variable {p : Pool} {table : MatchTable} {frame : List Contact} {now : Timestamp}
variable {threshold : Int32} {nextId : UInt32}

/-! ## Starting fingers -/

/-- How many fingers start: as many as contacts qualify, if there are slots for them. -/
def places (threshold : Int32) (p : Pool) (frame : List Contact) : Nat :=
  min (frame.countP (qualifies threshold)) p.available.length

/-- The first of the contacts that qualify take the first of the free slots, and nothing else
happens. -/
structure FirstCome (threshold : Int32) (p : Pool) (table : MatchTable) (frame : List Contact)
    (now : Timestamp) (nextId : UInt32) (r : Spawning) : Prop where
  count_eq : r.count = places threshold p frame
  nextId_eq : r.nextId = nextId + UInt32.ofNat (places threshold p frame)
  available_eq : r.pool.available = p.available.drop (places threshold p frame)
  active_eq : r.pool.active = p.active ++ p.available.take (places threshold p frame)
  /-- The `i`-th contact that qualifies starts a finger in the `i`-th free slot. -/
  starts : ∀ i < places threshold p frame, ∃ c slot s trail,
    (frame.filter (qualifies threshold))[i]? = some c ∧ p.available[i]? = some slot ∧
    p.slots[slot]? = some s ∧
    r.pool.slots[slot]? = some
      { finger := { id := nextId + UInt32.ofNat i, trail, phase := .start, weight := c.weight }
        generation := s.generation + 1, active := true } ∧
    trail.toList = [⟨c.x, c.y, now.later (i * Timestamp.nanosPerMilli)⟩] ∧
    r.table.get? ⟨slot, s.generation + 1⟩ = some .spawned
  slots_eq : ∀ slot ∉ p.available.take (places threshold p frame),
    r.pool.slots[slot]? = p.slots[slot]?
  entries_eq : ∀ slot ∉ p.available.take (places threshold p frame),
    r.table.entries[slot]? = table.entries[slot]?

/-- The finger that starts at the `i`-th contact that qualifies, if there is an `i`-th free slot. -/
theorem starts_of_grown {r : Spawning}
    (hgrown : Grown ⟨p, table, nextId, 0, 0, []⟩
      (arrivals threshold now 0 frame p.spares nextId 0) r) (hp : p.Shaped) (ht : p.TrailsStay)
    {i : Nat} (hi : i < frame.countP (qualifies threshold)) (hi' : i < p.available.length) :
    ∃ c slot s trail, (frame.filter (qualifies threshold))[i]? = some c ∧
      p.available[i]? = some slot ∧ p.slots[slot]? = some s ∧
      r.pool.slots[slot]? = some
        { finger := { id := nextId + UInt32.ofNat i, trail, phase := .start, weight := c.weight }
          generation := s.generation + 1, active := true } ∧
      trail.toList = [⟨c.x, c.y, now.later (i * Timestamp.nanosPerMilli)⟩] ∧
      r.table.get? ⟨slot, s.generation + 1⟩ = some .spawned := by
  rw [List.countP_eq_length_filter] at hi
  rw [← Pool.length_spares hp] at hi'
  have hc := List.getElem?_eq_getElem hi
  have he := List.getElem?_eq_getElem hi'
  generalize (frame.filter (qualifies threshold))[i] = c at hc
  generalize p.spares[i] = e at he
  obtain ⟨⟨slot, generation⟩, f⟩ := e
  obtain ⟨s, hs, hgen, hfinger⟩ := Pool.exists_slot_of_mem_spares (List.mem_of_getElem? he)
  obtain rfl : s.generation + 1 = generation := hgen
  obtain rfl : s.finger = f := hfinger
  -- the new finger stands among the arrivals, and so among the entries
  have hnew : ((arrivals threshold now 0 frame p.spares nextId 0).map (·.entry))[i]? =
      some (⟨slot, s.generation + 1⟩,
        started s.finger.opened (nextId + UInt32.ofNat i) c (staggered now i)) := by
    have hzip := List.getElem?_zip_eq_some (z := (c, _)) |>.mpr ⟨hc, he⟩
    rw [entries_arrivals, List.getElem?_mapIdx, hzip, Option.map_some, Nat.zero_add]
  have hmem := List.mem_of_getElem? hnew
  obtain ⟨a, ha, hae⟩ := List.mem_map.mp hmem
  have hslot := Pool.slot_of_mem_entries hgrown.shaped
    (hgrown.entries_eq ▸ List.mem_append_right _ hmem)
  refine ⟨c, slot, s, _, hc, ?_, hs, hslot, ?_, ?_⟩
  · rw [← Pool.map_index_spares hp, List.getElem?_map, he]
    rfl
  · exact Trail.toList_push_cleared (ht slot s hs) c.x c.y _
  · rw [← hgrown.fresh a ha, show a.handle = _ from congrArg Prod.fst hae]

/-- What spawning does in a shaped pool whose trails are in shape, contact by contact and slot by
slot. -/
theorem firstCome_of_shaped (hp : p.Shaped) (ht : p.TrailsStay)
    (hsize : p.capacity ≤ table.entries.size) (threshold : Int32) (frame : List Contact)
    (now : Timestamp) (nextId : UInt32) :
    FirstCome threshold p table frame now nextId (spawn threshold p table frame now nextId) := by
  have hgrown : Grown ⟨p, table, nextId, 0, 0, []⟩ (arrivals threshold now 0 frame p.spares nextId 0)
      (spawn threshold p table frame now nextId) := spawnFrom_spec threshold now frame 0 hp hsize
  generalize spawn threshold p table frame now nextId = r at hgrown
  have hlength : (arrivals threshold now 0 frame p.spares nextId 0).length =
      places threshold p frame := by
    rw [length_arrivals, Pool.length_spares hp, places]
  have hslots : (arrivals threshold now 0 frame p.spares nextId 0).map (·.handle.index) =
      p.available.take (places threshold p frame) := by
    have hhandles : (arrivals threshold now 0 frame p.spares nextId 0).map (·.handle) = _ :=
      arrivals_handles frame 0 p.spares nextId 0
    replace hhandles := congrArg (List.map Handle.index) hhandles
    rw [List.map_map, List.map_take, List.map_map, hlength] at hhandles
    rw [← Pool.map_index_spares hp]
    exact hhandles
  have hothers : ∀ slot ∉ p.available.take (places threshold p frame),
      ∀ a ∈ arrivals threshold now 0 frame p.spares nextId 0, a.handle.index ≠ slot := by
    intro slot hslot a ha heq
    exact hslot (hslots ▸ heq ▸ List.mem_map_of_mem ha)
  refine ⟨?_, ?_, ?_, ?_, ?_, ?_, ?_⟩
  · rw [hgrown.count_eq, hlength, Nat.zero_add]
  · rw [hgrown.nextId_eq, hlength]
  · rw [← Pool.map_index_spares hgrown.shaped, hgrown.spares_eq, List.map_drop, hlength,
      Pool.map_index_spares hp]
  · rw [← Pool.map_index_entries hgrown.shaped, hgrown.entries_eq, List.map_append,
      Pool.map_index_entries hp, List.map_map, ← hslots]
    rfl
  · intro i hi
    exact starts_of_grown hgrown hp ht (Nat.lt_of_lt_of_le hi (Nat.min_le_left ..))
      (Nat.lt_of_lt_of_le hi (Nat.min_le_right ..))
  · exact fun slot hslot => hgrown.slots_eq hp (hothers slot hslot)
  · exact fun slot hslot => hgrown.untouched slot (hothers slot hslot)

/-- **First come, first served.** However a new pool has been used, the contacts that qualify take
its free slots in order, until there are no more contacts or no more slots. -/
theorem firstCome_afterUses {s : Settings} (h : Pool.new s = .ok p) (us : List Pool.Use)
    (hus : ∀ u ∈ us, u.KeepsTrails) (hsize : (p.afterUses us).capacity ≤ table.entries.size)
    (threshold : Int32) (frame : List Contact) (now : Timestamp) (nextId : UInt32) :
    FirstCome threshold (p.afterUses us) table frame now nextId
      (spawn threshold (p.afterUses us) table frame now nextId) := by
  have hp := (Pool.kept_afterUses h []).shaped
  have ht := Pool.trailsStay_afterUses us hp (Pool.trailsStay_new h) hus
  exact firstCome_of_shaped (Pool.shaped_afterUses us hp) ht hsize threshold frame now nextId

/-- Four slots, of which the second is in use and the first was given back behind the others. Of six
contacts one is absent and one too light; the last of the others comes too late. The ids run
over. -/
theorem firstCome_afterUses_of_three :
    ∃ p, Pool.new { maxFingers := 2 } = .ok p ∧
      let put (f : Finger) : Finger := { f with trail := f.trail.push 7 7 Timestamp.epoch }
      let us : List Pool.Use := [.take, .take, .edit ⟨1, 1⟩ put, .free ⟨0, 1⟩]
      let q := p.afterUses us
      let table := MatchTable.empty 6
      let frame : List Contact :=
        [⟨0, 0, 9⟩, ⟨10, 10, 5⟩, ⟨20, 20, 4⟩, ⟨30, 30, 9⟩, ⟨40, 40, 7⟩, ⟨50, 50, 8⟩]
      let r := spawn 5 q table frame (.ofMillis 100) 4294967295
      (∀ u ∈ us, u.KeepsTrails) ∧ q.capacity ≤ table.entries.size ∧ q.available = [2, 3, 0] ∧
        r.count = 3 ∧ r.pool.active = [1, 2, 3, 0] ∧
        r.pool.fingers.map (·.id) = [0, 4294967295, 0, 1] ∧
        FirstCome 5 q table frame (.ofMillis 100) 4294967295 r := by
  have h : Pool.new { maxFingers := 2 } = .ok (Pool.ofTrail 4 (Trail.empty 6 false)) := rfl
  refine ⟨_, h, ?_⟩
  intro put us q table frame r
  have hus : ∀ u ∈ us, u.KeepsTrails := by
    have hput : (Pool.Use.edit ⟨1, 1⟩ put).KeepsTrails := fun f hf => Trail.stays_push hf ..
    simpa [us, Pool.Use.KeepsTrails] using hput
  have hsize : q.capacity ≤ table.entries.size := by decide +kernel
  exact ⟨hus, hsize, by decide +kernel, by decide +kernel, by decide +kernel, by decide +kernel,
    firstCome_afterUses h us hus hsize 5 frame (.ofMillis 100) 4294967295⟩

end Matching

end FingerTracking
