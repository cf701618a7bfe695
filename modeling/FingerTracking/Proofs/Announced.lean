import FingerTracking.Proofs.Pointer

/-!
# What a press needs

A finger is pressed for one of two reasons. Most of the time the panel has reported a touch since
the press before. But a lift gives a frame with the contact whether the panel was touched or not,
and if there is no finger to lift, the contact starts one (`lift_presses`).

> `announced_or_relifted`: every press has a touch among the records that were read since the
> press before, or it comes from a lift on a panel that was not touched.

What carries the run is `Owed`: while the panel is touched and there is no finger, a touch has been
reported that no press has answered yet.
-/

namespace FingerTracking

/-- The event that a finger makes when it arrives. -/
def Event.isPress (e : Event) : Bool :=
  e.kind == .buttonTouch && e.value == 1

/-- A record that reports a touch. -/
def Record.isTouch (r : Record) : Bool :=
  match r.signal with
  | .touch v => v != 0
  | _ => false

/-- A touch is reported by one of these records. -/
def Announced (rs : Readings) : Prop :=
  ∃ r ∈ rs, r.1.isTouch = true

instance (rs : Readings) : Decidable (Announced rs) :=
  inferInstanceAs (Decidable (∃ r ∈ rs, r.1.isTouch = true))

/-- A lift is reported by one of these records while the panel is not touched. -/
def Relifted (p : Panel) (rs : Readings) : Prop :=
  ∃ before r after, rs = before ++ r :: after ∧ r.1.signal = .touch 0 ∧
    (p.after before).touching = false

theorem Announced.mono {rs qs : Readings} (h : Announced rs) (hs : rs ⊆ qs) : Announced qs := by
  obtain ⟨r, hr, hv⟩ := h
  exact ⟨r, hs hr, hv⟩

namespace Panel

variable {p : Panel} {r : Record}

/-- A panel is touched because of this record, or it was before and no empty frame comes of it. -/
theorem of_touching_feed (h : (p.feed r).panel.touching = true) :
    r.isTouch = true ∨ p.touching = true ∧ (p.feed r).frame ≠ some [] := by
  unfold feed at h ⊢
  cases hs : r.signal with
  | touch v =>
    by_cases hv : v = 0
    · simp [hs, hv] at h
    · exact Or.inl (by simpa [Record.isTouch, hs] using hv)
  | report =>
    simp only [hs] at h ⊢
    exact Or.inr ⟨h, by simp [h]⟩
  | x v | y v | other =>
    simp only [hs] at h ⊢
    exact Or.inr ⟨h, nofun⟩

/-- A frame with a contact comes from a panel that is touched or from a lift. -/
theorem of_frame_contact {c : Contact} {cs : List Contact} (h : (p.feed r).frame = some (c :: cs)) :
    p.touching = true ∨ r.signal = .touch 0 := by
  unfold feed at h
  cases hs : r.signal with
  | touch v =>
    by_cases hv : v = 0
    · exact Or.inr (by rw [hv])
    · simp [hs, hv] at h
  | report =>
    cases ht : p.touching with
    | true => exact Or.inl rfl
    | false => simp [hs, ht] at h
  | x v | y v | other => simp [hs] at h

/-- The record that completes the only frame. -/
theorem exists_completing (rs : Readings) :
    ∀ {p : Panel} {f : List Contact × Timestamp}, p.frames rs = [f] →
      ∃ before r after, rs = before ++ r :: after ∧ p.frames before = [] ∧
        ((p.after before).feed r.1).frame = some f.1 := by
  induction rs with
  | nil => exact fun h => nomatch h
  | cons r rs ih =>
    intro p f h
    rw [frames] at h
    cases hr : (p.feed r.1).frame with
    | some contacts =>
      rw [hr, Option.map_some, Option.toList_some, List.singleton_append, List.cons.injEq] at h
      exact ⟨[], r, rs, rfl, rfl, by rw [← h.1]; exact hr⟩
    | none =>
      rw [hr, Option.map_none, Option.toList_none, List.nil_append] at h
      obtain ⟨before, q, after, rfl, hbefore, hq⟩ := ih h
      refine ⟨r :: before, q, after, rfl, ?_, hq⟩
      rw [frames, hr, hbefore]
      rfl

end Panel

namespace Pointer

variable {s : Settings} {m : Pointer} {contact : Option Contact} {now : Timestamp}

/-- A press is of a new finger, which a contact has started. -/
theorem of_press (h : (m.step s contact now).2.any Event.isPress = true) :
    (∃ c, contact = some c) ∧ m.finger = none ∧ (m.step s contact now).1.finger ≠ none := by
  obtain ⟨finger, nextId⟩ := m
  cases contact with
  | none =>
    cases finger with
    | none => exact absurd h Bool.false_ne_true
    | some q =>
      simp [step, Event.release, Event.isPress, Event.ofKind, Event.touch, Event.x, Event.y,
        Event.sync] at h
  | some c =>
    cases finger with
    | none =>
      refine ⟨⟨c, rfl⟩, rfl, ?_⟩
      dsimp only [step] at h ⊢
      split at h
      next => exact absurd h Bool.false_ne_true
      next hc =>
        rw [if_neg hc]
        exact Option.some_ne_none _
    | some q =>
      simp [step, Event.move, Event.isPress, Event.ofKind, Event.x, Event.y, Event.sync] at h

/-- A finger is gone because there was no contact, or it was not there before. -/
theorem of_finger_step_eq_none (h : (m.step s contact now).1.finger = none) :
    contact = none ∨ m.finger = none := by
  obtain ⟨finger, nextId⟩ := m
  cases contact with
  | none => exact Or.inl rfl
  | some c =>
    cases finger with
    | none => exact Or.inr rfl
    | some q => exact nomatch h

/-- While the panel is touched and there is no finger, one of these records has reported the
touch. -/
def Owed (m : Pointer) (p : Panel) (rs : Readings) : Prop :=
  m.finger = none → p.touching = true → Announced rs

variable {p : Panel} {rs : Readings}

/-- A record reports the touch itself, or there was no finger before it, and the touch was owed. -/
theorem owed_record (h : m.Owed p rs) (s : Settings) (r : Record × Timestamp) :
    (m.through s (p.frames [r])).Owed (p.after [r]) (rs ++ [r]) := by
  intro hnone htouching
  rcases Panel.of_touching_feed htouching with hr | ⟨hbefore, hframe⟩
  · exact ⟨r, List.mem_append_right _ (List.mem_cons_self ..), hr⟩
  · -- the finger was not lost to this record: the frame it completes, if any, has a contact
    have hfinger : m.finger = none := by
      cases hr : (p.feed r.1).frame with
      | none =>
        rw [Panel.frames, hr] at hnone
        exact hnone
      | some contacts =>
        rw [Panel.frames, hr] at hnone
        rcases of_finger_step_eq_none hnone with hhead | hfinger
        · rw [hr] at hframe
          exact absurd (congrArg some (List.head?_eq_none_iff.mp hhead)) hframe
        · exact hfinger
    exact (h hfinger hbefore).mono (List.subset_append_left ..)

theorem owed_readings (s : Settings) (qs : Readings) :
    ∀ {m : Pointer} {p : Panel} {rs : Readings}, m.Owed p rs →
      (m.through s (p.frames qs)).Owed (p.after qs) (rs ++ qs) := by
  induction qs with
  | nil =>
    intro m p rs h
    rw [List.append_nil]
    exact h
  | cons r qs ih =>
    intro m p rs h
    have hrest := ih (owed_record h s r)
    rw [List.append_assoc, List.singleton_append, ← Panel.after_append] at hrest
    rw [← List.singleton_append, Panel.frames_append, through, List.foldl_append]
    exact hrest

/-- A press answers a touch that was owed, or its contact comes from a lift out of season. -/
theorem announced_of_press (h : m.Owed p rs) {r : Record} {contacts : List Contact}
    (hr : (p.feed r).frame = some contacts)
    (hpress : (m.step s contacts.head? now).2.any Event.isPress = true) :
    Announced rs ∨ r.signal = .touch 0 ∧ p.touching = false := by
  obtain ⟨⟨c, hc⟩, hnone, -⟩ := of_press hpress
  obtain ⟨cs, rfl⟩ := List.head?_eq_some_iff.mp hc
  cases htouching : p.touching with
  | true => exact Or.inl (h hnone htouching)
  | false =>
    rcases Panel.of_frame_contact hr with hp | hlift
    · rw [htouching] at hp
      exact nomatch hp
    · exact Or.inr ⟨hlift, rfl⟩

end Pointer

namespace Feed

open Tracker

variable {s : Settings} {t₀ : Tracker} {f : Feed Queue} {m : Pointer} {now : Timestamp}

/-- A call that presses a finger. -/
def Presses (f : Feed Queue) (now : Timestamp) : Prop :=
  (f.poll now).batch?.any (·.any Event.isPress) = true

instance (f : Feed Queue) (now : Timestamp) : Decidable (f.Presses now) :=
  inferInstanceAs (Decidable (_ = true))

/-- A call that presses a finger has read records up to one that completes a frame, and the
pointer is pressed by this frame. -/
theorem exists_pressing (hm : Follows s f.tracker m) (h : f.Presses now) :
    ∃ before r after contacts time, f.readings [now] = before ++ r :: after ∧
      f.panel.frames before = [] ∧ ((f.panel.after before).feed r.1).frame = some contacts ∧
      (m.step s contacts.head? time).2.any Event.isPress = true ∧
      Follows s (f.poll now).feed.tracker (m.step s contacts.head? time).1 := by
  obtain ⟨b, hb, hpress⟩ := (Option.any_eq_true _ _).mp h
  have hs := served_poll f now
  have hbatches := hs.advanced.batches_eq
  have htracker := hs.advanced.tracker_eq
  have hlone := Panel.lone_frames (Readings.stamp now (f.used now)) (p := f.panel)
  rw [hb, Option.toList_some] at hbatches
  cases hframes : f.panel.frames (Readings.stamp now (f.used now)) with
  | nil =>
    rw [hframes] at hbatches
    exact nomatch hbatches
  | cons fr rest =>
    have hrest : rest = [] := by
      have hle := hs.frames_le
      rw [hframes, List.length_cons] at hle
      exact List.length_eq_zero_iff.mp (by omega)
    subst hrest
    rw [hframes] at hbatches htracker hlone
    have hone := hlone fr (List.mem_cons_self ..)
    have hevents : b = (m.step s fr.1.head? fr.2).2 := by
      rw [← (agrees_frame hm hone fr.2).events_eq]
      have hmem : b ∈ (f.tracker.batches [fr]).filter (!·.isEmpty) :=
        hbatches ▸ List.mem_cons_self ..
      exact List.mem_singleton.mp (List.mem_filter.mp hmem).1
    obtain ⟨before, r, after, hsplit, hbefore, hr⟩ := Panel.exists_completing _ hframes
    refine ⟨before, r, after, fr.1, fr.2, ?_, hbefore, hr, hevents ▸ hpress, ?_⟩
    · rw [readings, readings, List.append_nil, hsplit]
    · rw [htracker]
      exact follows_frame hm hone fr.2

/-- Between two calls: the tracker follows a pointer, and what the panel owes it is announced by
the records `rs`. -/
def Owing (s : Settings) (f : Feed Queue) (rs : Readings) : Prop :=
  ∃ m, Follows s f.tracker m ∧ m.Owed f.panel rs

theorem owing_new (h : Tracker.new s = .ok t₀) (arrivals : List Arrival) (scaling : Scaling)
    (limit : Nat) : Owing s (Feed.new ⟨arrivals⟩ t₀ scaling limit) [] :=
  ⟨Pointer.new, follows_new h, fun _ htouching => nomatch htouching⟩

/-- Calls announce what they owe. -/
theorem owing_calls {rs : Readings} (h : Owing s f rs) (times : List Timestamp) :
    Owing s (f.calls times) (rs ++ f.readings times) := by
  obtain ⟨m, hm, howed⟩ := h
  have hall := advanced_calls times f
  obtain ⟨-, hfollows⟩ := follows_through _ hm (Panel.lone_frames (f.readings times))
  refine ⟨_, hall.tracker_eq ▸ hfollows, ?_⟩
  rw [hall.panel_eq]
  exact Pointer.owed_readings s (f.readings times) howed

/-- After a press there is a finger, so nothing is owed. -/
theorem owing_of_presses {rs : Readings} (h : Owing s f rs) (hpress : f.Presses now) :
    Owing s (f.poll now).feed [] := by
  obtain ⟨m, hm, -⟩ := h
  obtain ⟨before, r, after, contacts, time, -, -, -, hpress, hfollows⟩ := exists_pressing hm hpress
  exact ⟨_, hfollows, fun hnone => absurd hnone (Pointer.of_press hpress).2.2⟩

/-- A call that presses a finger owes it, or reads a lift on a panel that is not touched. -/
theorem announced_of_presses {rs : Readings} (h : Owing s f rs) (hpress : f.Presses now) :
    Announced (rs ++ f.readings [now]) ∨ Relifted f.panel (f.readings [now]) := by
  obtain ⟨m, hm, howed⟩ := h
  obtain ⟨before, r, after, contacts, time, hsplit, hbefore, hr, hpress, -⟩ :=
    exists_pressing hm hpress
  have hat := Pointer.owed_readings s before howed
  rw [hbefore] at hat
  rw [hsplit]
  rcases Pointer.announced_of_press hat hr hpress with ha | ⟨hlift, htouching⟩
  · refine Or.inl (ha.mono ?_)
    rw [← List.append_assoc]
    exact List.subset_append_left ..
  · exact Or.inr ⟨before, r, after, rfl, hlift, htouching⟩

/-- **What a press needs.** Between the press before it, or the start, and any press of a feed's
calls the panel has reported a touch; or else the press comes of a lift that the panel has reported
while it was not touched. -/
theorem announced_or_relifted (h : Tracker.new s = .ok t₀) (arrivals : List Arrival)
    (scaling : Scaling) (limit : Nat) (earlier between : List Timestamp) (now : Timestamp) :
    let feed := Feed.new ⟨arrivals⟩ t₀ scaling limit
    (earlier = [] ∨ ∃ before last, earlier = before ++ [last] ∧ (feed.calls before).Presses last) →
      (feed.calls (earlier ++ between)).Presses now →
      Announced ((feed.calls earlier).readings (between ++ [now])) ∨
        Relifted (feed.calls (earlier ++ between)).panel
          ((feed.calls (earlier ++ between)).readings [now]) := by
  intro feed hearlier hpress
  have hnew : Owing s feed [] := owing_new h arrivals scaling limit
  -- at the start and after a press nothing is owed
  have howing : Owing s (feed.calls earlier) [] := by
    rcases hearlier with rfl | ⟨before, last, rfl, hlast⟩
    · exact hnew
    · rw [calls_append]
      exact owing_of_presses (owing_calls hnew before) hlast
  rw [calls_append] at hpress ⊢
  rw [readings_append]
  exact announced_of_presses (owing_calls howing between) hpress

/-- A touch, a lift and a touch again. The second press has the second touch. -/
theorem announced_or_relifted_twice :
    ∃ t₀, Tracker.new {} = .ok t₀ ∧
      let arrivals : List Arrival := [.record ⟨Record.typeAbsolute, Record.codeX, 5⟩,
        .record ⟨Record.typeKey, Record.codeTouch, 1⟩,
        .record ⟨Record.typeSync, Record.codeReport, 0⟩,
        .record ⟨Record.typeKey, Record.codeTouch, 0⟩,
        .record ⟨Record.typeSync, Record.codeReport, 0⟩,
        .record ⟨Record.typeKey, Record.codeTouch, 1⟩,
        .record ⟨Record.typeSync, Record.codeReport, 0⟩]
      let feed := Feed.new ⟨arrivals⟩ t₀ Scaling.identity 8
      let between := List.replicate 2 Timestamp.epoch
      feed.Presses Timestamp.epoch ∧
        (feed.calls ([Timestamp.epoch] ++ between)).Presses Timestamp.epoch ∧
        (Announced ((feed.calls [Timestamp.epoch]).readings (between ++ [Timestamp.epoch])) ∨
          Relifted (feed.calls ([Timestamp.epoch] ++ between)).panel
            ((feed.calls ([Timestamp.epoch] ++ between)).readings [Timestamp.epoch])) := by
  obtain ⟨t₀, h⟩ : ∃ t₀, Tracker.new {} = .ok t₀ := ⟨_, rfl⟩
  obtain ⟨-, ht₀⟩ := new_eq_ok h
  refine ⟨t₀, h, ?_⟩
  intro arrivals feed between
  obtain ⟨hfirst, hsecond⟩ : feed.Presses Timestamp.epoch ∧
      (feed.calls ([Timestamp.epoch] ++ between)).Presses Timestamp.epoch := by
    subst ht₀
    decide +kernel
  exact ⟨hfirst, hsecond, announced_or_relifted h arrivals Scaling.identity 8 [Timestamp.epoch]
    between Timestamp.epoch (Or.inr ⟨[], Timestamp.epoch, rfl, hfirst⟩) hsecond⟩

/-- A panel that begins with a lift: its contact is pressed, and no touch has been reported. -/
theorem lift_presses :
    ∃ t₀, Tracker.new {} = .ok t₀ ∧
      let arrivals : List Arrival := [.record ⟨Record.typeAbsolute, Record.codeX, 5⟩,
        .record ⟨Record.typeKey, Record.codeTouch, 0⟩]
      let feed := Feed.new ⟨arrivals⟩ t₀ Scaling.identity 8
      feed.Presses Timestamp.epoch ∧ ¬ Announced (feed.readings [Timestamp.epoch]) := by
  obtain ⟨t₀, h⟩ : ∃ t₀, Tracker.new {} = .ok t₀ := ⟨_, rfl⟩
  obtain ⟨-, ht₀⟩ := new_eq_ok h
  refine ⟨t₀, h, ?_⟩
  rw [ht₀]
  decide +kernel

end Feed

end FingerTracking
