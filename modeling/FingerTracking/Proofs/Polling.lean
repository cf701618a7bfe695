import FingerTracking.Feed
import FingerTracking.Proofs.Lifeline
import Mathlib.Data.Nat.Find

/-!
# However the calls fall, the frames are the same

A feed is polled call by call, and a call ends where it ends: at the limit, at a pause, at a fault
or with a frame. None of this shows in what comes out. The panel keeps what a call has left
incomplete, so the calls together do what feeding the records one after the other does:

> `advanced_calls`: panel, tracker, count of frames and batches after any calls are those of the
> records that the calls have read.
>
> `drained_as_fed`: calls at one time empty a queue, and what they give out is what its records
> alone give.

The step is one call (`served_poll`): it uses up some arrivals at the head of the queue, no more
than its limit, at least one if there is one, and completes one frame at most.
-/

namespace FingerTracking

/-- Records in the order in which they are read, each with the time of the call that reads it. -/
abbrev Readings := List (Record × Timestamp)

/-- The record that an arrival brings, if it brings one. -/
def Arrival.record? : Arrival → Option Record
  | .record r => some r
  | _ => none

/-- The records among some arrivals, all read at one time. -/
def Readings.stamp (now : Timestamp) (arrivals : List Arrival) : Readings :=
  (arrivals.filterMap Arrival.record?).map fun r => (r, now)

namespace Panel

variable {p : Panel}

/-- The panel after some records. -/
def after (p : Panel) (rs : Readings) : Panel :=
  rs.foldl (fun p r => (p.feed r.1).panel) p

/-- The frames that some records complete, each at the time of the record that completes it. -/
def frames (p : Panel) : Readings → Frames
  | [] => []
  | r :: rs => ((p.feed r.1).frame.map fun contacts => (contacts, r.2)).toList ++
      (p.feed r.1).panel.frames rs

/-- The panel keeps its place between any two records. -/
theorem after_append (p : Panel) (rs qs : Readings) :
    p.after (rs ++ qs) = (p.after rs).after qs :=
  List.foldl_append

/-- A frame that is cut in two by a call is completed in the next. -/
theorem frames_append (rs qs : Readings) :
    ∀ p : Panel, p.frames (rs ++ qs) = p.frames rs ++ (p.after rs).frames qs := by
  induction rs with
  | nil => exact fun _ => rfl
  | cons r rs ih =>
    intro p
    rw [List.cons_append, frames, ih, frames, List.append_assoc]
    rfl

end Panel

namespace Feed

variable {σ : Type}

/-! ## Calls -/

/-- The batch that a call gives out. -/
def Polled.batch? (p : Polled σ) : Option Batch :=
  match p.result with
  | .ok b => b
  | .error _ => none

/-- The feed after a call at each of these times. -/
def calls [Source σ] (feed : Feed σ) (times : List Timestamp) : Feed σ :=
  times.foldl (fun feed now => (feed.poll now).feed) feed

/-- What the calls at these times give out. -/
def batches [Source σ] (feed : Feed σ) : List Timestamp → List Batch
  | [] => []
  | now :: times => (feed.poll now).batch?.toList ++ (feed.poll now).feed.batches times

/-- The arrivals that a call uses up. -/
def used (feed : Feed Queue) (now : Timestamp) : List Arrival :=
  feed.source.items.take (feed.source.items.length - (feed.poll now).feed.source.items.length)

/-- The records that the calls at these times read. -/
def readings (feed : Feed Queue) : List Timestamp → Readings
  | [] => []
  | now :: times => Readings.stamp now (feed.used now) ++ (feed.poll now).feed.readings times

theorem calls_append [Source σ] (feed : Feed σ) (times later : List Timestamp) :
    feed.calls (times ++ later) = (feed.calls times).calls later :=
  List.foldl_append

theorem readings_append (times later : List Timestamp) :
    ∀ feed : Feed Queue, feed.readings (times ++ later) =
      feed.readings times ++ (feed.calls times).readings later := by
  induction times with
  | nil => exact fun _ => rfl
  | cons now times ih =>
    intro feed
    rw [List.cons_append, readings, ih, readings, List.append_assoc]
    rfl

/-! ## Feeding records one after the other -/

/-- `g` is `f` with these records fed one after the other to the panel, and every frame that they
complete to the tracker; `batches` are those of the frames that have events. -/
structure Advanced (f : Feed σ) (rs : Readings) (batches : List Batch) (g : Feed σ) : Prop where
  panel_eq : g.panel = f.panel.after rs
  tracker_eq : g.tracker = f.tracker.through (f.panel.frames rs)
  frames_eq : g.frames = f.frames + (f.panel.frames rs).length
  batches_eq : batches = (f.tracker.batches (f.panel.frames rs)).filter (!·.isEmpty)
  limit_eq : g.limit = f.limit

namespace Advanced

variable {f g k : Feed σ} {rs qs : Readings} {bs cs : List Batch}

/-- A call may read nothing at all. -/
theorem rested (hp : g.panel = f.panel) (ht : g.tracker = f.tracker) (hf : g.frames = f.frames)
    (hl : g.limit = f.limit) : Advanced f [] [] g :=
  ⟨hp, ht, hf, rfl, hl⟩

/-- Feeding some records and then others is feeding them all. -/
theorem trans (h₁ : Advanced f rs bs g) (h₂ : Advanced g qs cs k) :
    Advanced f (rs ++ qs) (bs ++ cs) k := by
  refine ⟨?_, ?_, ?_, ?_, h₂.limit_eq.trans h₁.limit_eq⟩
  · rw [h₂.panel_eq, h₁.panel_eq, Panel.after_append]
  · rw [h₂.tracker_eq, h₁.tracker_eq, h₁.panel_eq, Panel.frames_append, Tracker.through_append]
  · rw [h₂.frames_eq, h₁.frames_eq, h₁.panel_eq, Panel.frames_append, List.length_append,
      Nat.add_assoc]
  · rw [h₂.batches_eq, h₁.batches_eq, h₁.tracker_eq, h₁.panel_eq, Panel.frames_append,
      Tracker.batches_append, List.filter_append]

end Advanced

/-! ## One record -/

section Turn

variable {f : Feed σ} {r : Record}

/-- A feed behind a record that has gone to the panel, with what is left of the source. -/
def fed (f : Feed σ) (r : Record) (source : σ) : Feed σ :=
  { f with source, panel := (f.panel.feed r).panel }

theorem frames_of_none (hr : (f.panel.feed r).frame = none) (now : Timestamp) :
    f.panel.frames [(r, now)] = [] := by
  simp only [Panel.frames, hr, Option.map_none, Option.toList_none, List.append_nil]

theorem frames_of_some {contacts : List Contact} (hr : (f.panel.feed r).frame = some contacts)
    (now : Timestamp) : f.panel.frames [(r, now)] = [(contacts, now)] := by
  simp only [Panel.frames, hr, Option.map_some, Option.toList_some, List.append_nil]

/-- A record that completes no frame moves the panel on. -/
theorem advanced_fed (hr : (f.panel.feed r).frame = none) (now : Timestamp) (source : σ) :
    Advanced f [(r, now)] [] (f.fed r source) := by
  have hframes := frames_of_none hr now
  refine ⟨rfl, ?_, ?_, ?_, rfl⟩ <;> rw [hframes] <;> rfl

/-- A record that completes a frame has it tracked as well. -/
theorem advanced_tracked {contacts : List Contact} (hr : (f.panel.feed r).frame = some contacts)
    (now : Timestamp) (source : σ) :
    Advanced f [(r, now)] (nonEmpty (f.tracker.frame contacts now).events).toList
      ((f.fed r source).track contacts now).feed := by
  have hframes := frames_of_some hr now
  refine ⟨rfl, ?_, ?_, ?_, rfl⟩ <;> rw [hframes]
  · rfl
  · rfl
  · simp only [Tracker.batches, List.filter_cons, List.filter_nil, nonEmpty]
    cases (f.tracker.frame contacts now).events.isEmpty <;> rfl

/-- The turn of a call at a record: it goes on, or it ends with the frame that is complete. -/
theorem pollUpTo_record [Source σ] {source : σ} {notes : List Note}
    (hready : Source.ready f.source = (.ok true, f.source))
    (hread : Source.read f.source = { result := .ok (some r), source, notes })
    (now : Timestamp) (most : Nat) :
    match (f.panel.feed r).frame with
    | none => (pollUpTo now (most + 1) f).feed = (pollUpTo now most (f.fed r source)).feed ∧
        (pollUpTo now (most + 1) f).result = (pollUpTo now most (f.fed r source)).result
    | some contacts =>
      (pollUpTo now (most + 1) f).feed = ((f.fed r source).track contacts now).feed ∧
        (pollUpTo now (most + 1) f).result =
          .ok (nonEmpty (f.tracker.frame contacts now).events) := by
  split
  all_goals
    next hr =>
      simp only [pollUpTo, hready, hread, hr]
      exact ⟨rfl, rfl⟩

/-- Calls with one result give out the same batch. -/
theorem Polled.batch?_of_result {p q : Polled σ} (h : p.result = q.result) :
    p.batch? = q.batch? := by
  rw [Polled.batch?, Polled.batch?, h]

theorem Polled.batch?_of_ok {p : Polled σ} {b : Option Batch} (h : p.result = .ok b) :
    p.batch? = b := by
  rw [Polled.batch?, h]

end Turn

/-! ## One call -/

section Call

variable {f g : Feed Queue} {now : Timestamp} {most : Nat} {arrivals : List Arrival}
variable {p p' : Polled Queue}

/-- A call that handles `most` arrivals at most has handled these. -/
structure Served (f : Feed Queue) (now : Timestamp) (most : Nat) (arrivals : List Arrival)
    (p : Polled Queue) : Prop where
  items_eq : f.source.items = arrivals ++ p.feed.source.items
  length_le : arrivals.length ≤ most
  advanced : Advanced f (Readings.stamp now arrivals) p.batch?.toList p.feed
  frames_le : (f.panel.frames (Readings.stamp now arrivals)).length ≤ 1
  moves : 0 < most → f.source.items ≠ [] → arrivals ≠ []

/-- A call that finds nothing to read serves no arrival. -/
theorem Served.nothing (hb : p.batch? = none) (hf : p.feed = f)
    (hm : 0 < most → f.source.items = []) : Served f now most [] p := by
  refine ⟨by rw [hf]; rfl, Nat.zero_le _, ?_, Nat.zero_le _, fun hpos hne => absurd (hm hpos) hne⟩
  rw [hb, hf]
  exact Advanced.rested rfl rfl rfl rfl

/-- The last arrival that a call handles. -/
theorem Served.last {a : Arrival} (hi : f.source.items = a :: p.feed.source.items)
    (h : Advanced f (Readings.stamp now [a]) p.batch?.toList p.feed)
    (hf : (f.panel.frames (Readings.stamp now [a])).length ≤ 1) : Served f now (most + 1) [a] p :=
  ⟨hi, Nat.succ_le_succ (Nat.zero_le most), h, hf, fun _ _ => List.cons_ne_nil a []⟩

/-- An arrival that ends nothing, and what the call handles after it. -/
theorem Served.cons {a : Arrival} (hi : f.source.items = a :: g.source.items)
    (h : Advanced f (Readings.stamp now [a]) [] g)
    (hf : f.panel.frames (Readings.stamp now [a]) = []) (hs : Served g now most arrivals p)
    (hfeed : p'.feed = p.feed) (hbatch : p'.batch? = p.batch?) :
    Served f now (most + 1) (a :: arrivals) p' := by
  have hat : Readings.stamp now (a :: arrivals) =
      Readings.stamp now [a] ++ Readings.stamp now arrivals := by
    unfold Readings.stamp
    rw [← List.map_append, ← List.filterMap_append]
    rfl
  refine ⟨?_, Nat.succ_le_succ hs.length_le, ?_, ?_, fun _ _ => List.cons_ne_nil a arrivals⟩
  · rw [hi, hs.items_eq, hfeed]
    rfl
  · rw [hat, hfeed, hbatch]
    exact h.trans hs.advanced
  · rw [hat, Panel.frames_append, hf, ← h.panel_eq]
    exact hs.frames_le

/-- What a call of `most` turns does, by the arrival at the head of the queue. -/
theorem served_pollUpTo (now : Timestamp) :
    ∀ (most : Nat) (f : Feed Queue), ∃ arrivals, Served f now most arrivals (pollUpTo now most f)
  | 0, f => ⟨[], Served.nothing rfl rfl fun hpos => absurd hpos (Nat.lt_irrefl 0)⟩
  | most + 1, f => by
    obtain ⟨⟨items⟩, panel, tracker, limit, count⟩ := f
    cases items with
    | nil => exact ⟨[], Served.nothing rfl rfl fun _ => rfl⟩
    | cons a rest =>
      -- where no record is read, panel and tracker stay as they are
      have hsame : Advanced (σ := Queue) ⟨⟨a :: rest⟩, panel, tracker, limit, count⟩ [] []
          ⟨⟨rest⟩, panel, tracker, limit, count⟩ := Advanced.rested rfl rfl rfl rfl
      cases a with
      | pause => exact ⟨_, Served.last rfl hsame (Nat.zero_le _)⟩
      | readyFault e => exact ⟨_, Served.last rfl hsame (Nat.zero_le _)⟩
      | readFault e => exact ⟨_, Served.last rfl hsame (Nat.zero_le _)⟩
      | malformed =>
        obtain ⟨arrivals, hs⟩ := served_pollUpTo now most ⟨⟨rest⟩, panel, tracker, limit, count⟩
        exact ⟨_, Served.cons (a := .malformed) rfl hsame rfl hs rfl rfl⟩
      | record r =>
        have hread : Source.read (⟨.record r :: rest⟩ : Queue) =
          { result := .ok (some r), source := ⟨rest⟩, notes := [] } := rfl
        have hturn := pollUpTo_record (σ := Queue)
          (f := ⟨⟨.record r :: rest⟩, panel, tracker, limit, count⟩) rfl hread now most
        cases hr : (panel.feed r).frame with
        | none =>
          rw [hr] at hturn
          obtain ⟨hfeed, hresult⟩ := hturn
          obtain ⟨arrivals, hs⟩ := served_pollUpTo now most _
          exact ⟨_, Served.cons (a := .record r) rfl (advanced_fed hr now _)
            (frames_of_none hr now) hs hfeed (Polled.batch?_of_result hresult)⟩
        | some contacts =>
          rw [hr] at hturn
          obtain ⟨hfeed, hresult⟩ := hturn
          refine ⟨[.record r], Served.last ?_ ?_ (Nat.le_of_eq ?_)⟩
          · rw [hfeed]
            rfl
          · rw [hfeed, Polled.batch?_of_ok hresult]
            exact advanced_tracked hr now _
          · exact congrArg List.length (frames_of_some hr now)

/-- What a call does with the arrivals that it uses up. -/
theorem served_poll (f : Feed Queue) (now : Timestamp) :
    Served f now f.limit (f.used now) (f.poll now) := by
  obtain ⟨arrivals, hs⟩ := served_pollUpTo now f.limit f
  have hused : f.used now = arrivals := by
    have hi : f.source.items = arrivals ++ (f.poll now).feed.source.items := hs.items_eq
    unfold used
    rw [hi, List.length_append, Nat.add_sub_cancel, List.take_left]
  rw [hused]
  exact hs

end Call

/-! ## Any calls -/

section Calls

variable {f : Feed Queue}

/-- **Calls together feed their records one after the other.** -/
theorem advanced_calls (times : List Timestamp) :
    ∀ f : Feed Queue, Advanced f (f.readings times) (f.batches times) (f.calls times) := by
  induction times with
  | nil => exact fun _ => Advanced.rested rfl rfl rfl rfl
  | cons now times ih => exact fun f => (served_poll f now).advanced.trans (ih _)

theorem limit_calls (f : Feed Queue) (times : List Timestamp) : (f.calls times).limit = f.limit :=
  (advanced_calls times f).limit_eq

/-- The records read are those of the arrivals used up, in their order. -/
theorem map_fst_readings (times : List Timestamp) :
    ∀ f : Feed Queue, ∃ arrivals, f.source.items = arrivals ++ (f.calls times).source.items ∧
      (f.readings times).map (·.1) = arrivals.filterMap Arrival.record? := by
  induction times with
  | nil => exact fun _ => ⟨[], rfl, rfl⟩
  | cons now times ih =>
    intro f
    obtain ⟨arrivals, hi, hr⟩ := ih (f.poll now).feed
    refine ⟨f.used now ++ arrivals, ?_, ?_⟩
    · rw [(served_poll f now).items_eq, hi, List.append_assoc]
      rfl
    · rw [readings, List.map_append, hr, List.filterMap_append]
      congr 1
      unfold Readings.stamp
      rw [List.map_map]
      exact List.map_id _

/-- A record is read at the time of one of the calls. -/
theorem mem_readings {r : Record × Timestamp} (times : List Timestamp) :
    ∀ {f : Feed Queue}, r ∈ f.readings times → r.2 ∈ times := by
  induction times with
  | nil => exact fun hr => nomatch hr
  | cons now times ih =>
    intro f hr
    rcases List.mem_append.mp hr with hr | hr
    · obtain ⟨record, -, rfl⟩ := List.mem_map.mp hr
      exact List.mem_cons_self ..
    · exact List.mem_cons_of_mem _ (ih hr)

/-- Calls at one time that have emptied the queue have read all its records. -/
theorem readings_of_empty {now : Timestamp} {n : Nat}
    (he : (f.calls (List.replicate n now)).source.items = []) :
    f.readings (List.replicate n now) = Readings.stamp now f.source.items := by
  obtain ⟨arrivals, hi, hr⟩ := map_fst_readings (List.replicate n now) f
  rw [he, List.append_nil] at hi
  unfold Readings.stamp
  rw [hi, ← hr, List.map_map]
  symm
  conv => rhs; rw [← List.map_id (f.readings (List.replicate n now))]
  apply List.map_congr_left
  intro r hmem
  have htime := List.eq_of_mem_replicate (mem_readings _ hmem)
  rw [← htime]
  rfl

/-- Every call shortens the queue until it is empty. -/
theorem length_calls_le (now : Timestamp) (n : Nat) :
    ∀ {f : Feed Queue}, 0 < f.limit →
      (f.calls (List.replicate n now)).source.items.length ≤ f.source.items.length - n := by
  induction n with
  | zero => exact fun _ => Nat.le_refl _
  | succ n ih =>
    intro f hl
    have hs := served_poll f now
    have hrest := ih (f := (f.poll now).feed) (hs.advanced.limit_eq ▸ hl)
    have hlen := congrArg List.length hs.items_eq
    rw [List.length_append] at hlen
    refine Nat.le_trans hrest ?_
    by_cases hne : f.source.items = []
    · rw [hne, List.length_nil] at hlen
      omega
    · have hpos := List.length_pos_of_ne_nil (hs.moves hl hne)
      omega

/-- The number of calls after which the queue is empty for the first time. -/
structure Empties (f : Feed Queue) (now : Timestamp) (n : Nat) : Prop where
  empty : (f.calls (List.replicate n now)).source.items = []
  not_before : ∀ m < n, (f.calls (List.replicate m now)).source.items ≠ []

/-- Every call uses up an arrival, so there need not be more calls than arrivals. -/
theorem exists_empties (hl : 0 < f.limit) (now : Timestamp) :
    ∃ n ≤ f.source.items.length, f.Empties now n := by
  classical
  have hlast : (f.calls (List.replicate f.source.items.length now)).source.items = [] := by
    have hle := length_calls_le now f.source.items.length hl
    rw [Nat.sub_self] at hle
    exact List.length_eq_zero_iff.mp (Nat.le_zero.mp hle)
  have hex : ∃ n, (f.calls (List.replicate n now)).source.items = [] := ⟨_, hlast⟩
  exact ⟨Nat.find hex, Nat.find_min' hex hlast, Nat.find_spec hex, fun _ => Nat.find_min hex⟩

/-- What a call may do at most: it uses up this many arrivals and completes one frame. -/
structure Bounded (f : Feed Queue) (now : Timestamp) (most : Nat) : Prop where
  items_eq : f.source.items = f.used now ++ (f.poll now).feed.source.items
  used_le : (f.used now).length ≤ most
  completed_le : (f.panel.frames (Readings.stamp now (f.used now))).length ≤ 1
  frames_le : (f.poll now).feed.frames ≤ f.frames + 1

/-- A call completes one frame at most, and stays within its limit. -/
theorem bounded_poll (f : Feed Queue) (now : Timestamp) : f.Bounded now f.limit := by
  have hs := served_poll f now
  refine ⟨hs.items_eq, hs.length_le, hs.frames_le, ?_⟩
  rw [hs.advanced.frames_eq]
  exact Nat.add_le_add_left hs.frames_le _

/-- **Scheduling does not show.** Calls at one time empty any queue, and what they give out and
leave behind is what its records alone give when they are fed to the panel one after the other and
every frame to the tracker. And no call, at whatever time, goes beyond one frame or its limit. -/
theorem drained_as_fed (arrivals : List Arrival) (tracker : Tracker) (scaling : Scaling)
    (limit : Nat) (now : Timestamp) :
    let feed := Feed.new ⟨arrivals⟩ tracker scaling limit
    let panel := Panel.new scaling
    let records := Readings.stamp now arrivals
    (∃ n ≤ arrivals.length, feed.Empties now n ∧
      feed.batches (List.replicate n now) =
        (tracker.batches (panel.frames records)).filter (!·.isEmpty) ∧
      (feed.calls (List.replicate n now)).panel = panel.after records ∧
      (feed.calls (List.replicate n now)).tracker = tracker.through (panel.frames records) ∧
      (feed.calls (List.replicate n now)).frames = (panel.frames records).length) ∧
    ∀ (times : List Timestamp) (next : Timestamp),
      (feed.calls times).Bounded next (max 1 limit) := by
  intro feed panel records
  refine ⟨?_, ?_⟩
  · obtain ⟨n, hn, he⟩ := exists_empties (f := feed) (Nat.le_max_right limit 1) now
    have h := advanced_calls (List.replicate n now) feed
    rw [readings_of_empty he.empty] at h
    exact ⟨n, hn, he, h.batches_eq, h.panel_eq, h.tracker_eq, h.frames_eq.trans (Nat.zero_add _)⟩
  · intro times next
    have h := bounded_poll (feed.calls times) next
    rw [limit_calls, show feed.limit = max 1 limit from Nat.max_comm limit 1] at h
    exact h

end Calls

end Feed

end FingerTracking
