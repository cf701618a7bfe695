import FingerTracking.Report
import Mathlib.Data.List.Induction

/-!
# What an assembler makes of any events

An assembler keeps one report at a time and knows no more than the item begun last, so all it can
go by is the order of the events. Whatever they are, and in whatever order, there is one item for
each finger id, and what fills it in is the *span* that follows: the events before the next finger
id or sync. The proof looks at one event and at what is to come: the items handed out by it and the
items that the assembler will make of what it holds are those that it would have made before, and
the one that the event begins.

> `push_items`: one event, seen from what follows it.
>
> `push_bounded`: a report closed by anything but a sync is full.
>
> `assembled`: the items of all reports are those of the finger ids; an axis or a button outside
> the spans, or overridden in its span, might as well be left out.
-/

namespace FingerTracking

/-! ## What is told by a list of events -/

namespace Event

/-- The events up to the next finger id or sync. -/
def span (es : List Event) : List Event :=
  es.takeWhile fun e => e.kind ≠ .fingerId ∧ e.kind ≠ .sync

def lastValue? (kind : Kind) (es : List Event) : Option Int32 :=
  (es.filter (·.kind = kind)).getLast?.map (·.value)

/-- An axis or a button: an event that fills in an item. -/
def Fills (e : Event) : Prop :=
  e.kind = .axisX ∨ e.kind = .axisY ∨ e.kind = .buttonTouch

end Event

namespace Report

open Event

/-- The item of a finger id, as the events after it tell it. -/
def Item.told (e : Event) (after : List Event) : Item :=
  { finger := 1000 * e.value.toInt + e.code.toNat
    state :=
      match lastValue? .buttonTouch (span after) with
      | none => .undefined
      | some value => if value = 1 then .down else .up
    x := (lastValue? .axisX (span after)).getD 0
    y := (lastValue? .axisY (span after)).getD 0
    time := e.time }

/-- One item for each finger id. -/
def told : List Event → List Item
  | [] => []
  | e :: after => if e.kind = .fingerId then Item.told e after :: told after else told after

end Report

namespace Event

variable {e : Event} {es : List Event}

/-- The span of an event goes on as long as axes and buttons come. -/
theorem span_cons_fills (he : e.Fills) (es : List Event) : span (e :: es) = e :: span es := by
  rw [span, List.takeWhile_cons_of_pos]
  · rfl
  · rcases he with he | he | he <;> simp [he]

/-- The next finger id or sync ends the span. -/
theorem span_cons_of_kind (he : e.kind = .fingerId ∨ e.kind = .sync) (es : List Event) :
    span (e :: es) = [] := by
  rw [span, List.takeWhile_cons_of_neg]
  rcases he with he | he <;> simp [he]

/-- Axes and buttons in front are part of it. -/
theorem span_append (hes : ∀ e ∈ es, e.Fills) (rest : List Event) :
    span (es ++ rest) = es ++ span rest := by
  induction es with
  | nil => rfl
  | cons e es ih =>
    rw [List.cons_append, span_cons_fills (hes e (List.mem_cons_self ..)),
      ih fun d hd => hes d (List.mem_cons_of_mem _ hd)]
    rfl

/-- The last value of a list is that of its tail, if the tail has one. -/
theorem lastValue?_cons (kind : Kind) (e : Event) (es : List Event) :
    lastValue? kind (e :: es) =
      (lastValue? kind es).or (if e.kind = kind then some e.value else none) := by
  rw [lastValue?, lastValue?, List.filter_cons]
  by_cases he : e.kind = kind
  · rw [if_pos (decide_eq_true he), if_pos he, List.getLast?_cons]
    cases (es.filter (·.kind = kind)).getLast? <;> rfl
  · rw [if_neg (by simpa using he), if_neg he, Option.or_none]

end Event

namespace Report

open Event

/-- A finger id with its span is told as one item. -/
theorem told_cons_append {e : Event} {es rest : List Event} (he : e.kind = .fingerId)
    (hes : ∀ d ∈ es, d.Fills) (hrest : span rest = []) :
    told (e :: (es ++ rest)) = Item.told e es :: told rest := by
  have hskip : told (es ++ rest) = told rest := by
    induction es with
    | nil => rfl
    | cons d es ih =>
      have hd : d.kind ≠ .fingerId := by
        rcases hes d (List.mem_cons_self ..) with hd | hd | hd <;> simp [hd]
      rw [List.cons_append, told, if_neg hd, ih fun c hc => hes c (List.mem_cons_of_mem _ hc)]
  have hitem : Item.told e (es ++ rest) = Item.told e es := by
    have hspan := span_append hes []
    rw [Item.told, Item.told, span_append hes, hrest, ← List.append_nil es, hspan,
      List.append_nil]
    rfl
  rw [told, if_pos he, hskip, hitem]

end Report

/-! ## What an item becomes -/

namespace Report.Item

open Event

variable {e d : Event}

/-- An item after an event of its span. -/
def set (i : Item) (e : Event) : Item :=
  match e.kind with
  | .axisX => { i with x := e.value }
  | .axisY => { i with y := e.value }
  | .buttonTouch => { i with state := if e.value = 1 then .down else .up }
  | .fingerId | .sync => i

/-- Of two events of one kind only the later one counts. -/
theorem set_set_of_kind (i : Item) (h : d.kind = e.kind) : (i.set e).set d = i.set d := by
  rw [set, set, set, h]
  cases e.kind <;> rfl

/-- Events of different kinds set different fields. -/
theorem set_comm (i : Item) (h : d.kind ≠ e.kind) : (i.set e).set d = (i.set d).set e := by
  obtain ⟨_, kind, _, _⟩ := e
  obtain ⟨_, kind', _, _⟩ := d
  cases kind <;> cases kind' <;> first | rfl | exact absurd rfl h

/-- An item after some events, field by field. -/
theorem foldl_set (es : List Event) : ∀ i : Item, es.foldl set i =
    { i with
      state := ((lastValue? .buttonTouch es).map fun value =>
        if value = 1 then State.down else .up).getD i.state
      x := (lastValue? .axisX es).getD i.x
      y := (lastValue? .axisY es).getD i.y } := by
  induction es with
  | nil => exact fun _ => rfl
  | cons e es ih =>
    intro i
    rw [List.foldl_cons, ih]
    obtain ⟨time, kind, code, value⟩ := e
    simp only [lastValue?_cons]
    cases kind <;> cases lastValue? .buttonTouch es <;> cases lastValue? .axisX es <;>
      cases lastValue? .axisY es <;> rfl

/-- The item that a finger id begins becomes what is told of it. -/
theorem foldl_set_ofEvent (e : Event) (after : List Event) :
    (span after).foldl set (ofEvent e) = told e after := by
  rw [foldl_set, told, ofEvent, Int.mul_comm]
  cases lastValue? .buttonTouch (span after) <;> rfl

end Report.Item

namespace Assembler

open Event

variable {a : Assembler} {e : Event}

/-! ## One event -/

/-- An event pushed, by its kind. -/
theorem push_fills (he : e.Fills) (a : Assembler) : a.push e = a.fill (·.set e) := by
  obtain ⟨_, kind, _, _⟩ := e
  rcases he with rfl | rfl | rfl <;> rfl

theorem push_fingerId (he : e.kind = .fingerId) (a : Assembler) :
    a.push e = a.start (.ofEvent e) := by
  rw [push, he]

theorem push_sync (he : e.kind = .sync) (a : Assembler) : a.push e = a.close := by
  rw [push, he]

/-- An event fills an item in, or is a finger id, or is a sync. These are the cases of every proof
about pushing. -/
theorem fills_or (e : Event) : e.Fills ∨ e.kind = .fingerId ∨ e.kind = .sync := by
  rw [Fills]
  cases e.kind <;> simp

theorem pushAll_cons_reports (a : Assembler) (e : Event) (es : List Event) :
    (a.pushAll (e :: es)).reports =
      (a.push e).report.toList ++ ((a.push e).assembler.pushAll es).reports :=
  rfl

theorem pushAll_cons_assembler (a : Assembler) (e : Event) (es : List Event) :
    (a.pushAll (e :: es)).assembler = ((a.push e).assembler.pushAll es).assembler :=
  rfl

/-- An assembler keeps all that it needs of the events before. -/
theorem pushAll_append (es fs : List Event) : ∀ a : Assembler,
    (a.pushAll (es ++ fs)).assembler = ((a.pushAll es).assembler.pushAll fs).assembler ∧
      (a.pushAll (es ++ fs)).reports =
        (a.pushAll es).reports ++ ((a.pushAll es).assembler.pushAll fs).reports := by
  induction es with
  | nil => exact fun _ => ⟨rfl, rfl⟩
  | cons e es ih =>
    intro a
    obtain ⟨hassembler, hreports⟩ := ih (a.push e).assembler
    refine ⟨hassembler, ?_⟩
    rw [List.cons_append, pushAll_cons_reports, hreports, ← List.append_assoc]
    rfl

/-! ## One item for each finger id -/

/-- The items that are held. -/
def items (a : Assembler) : List Report.Item :=
  (a.pending.map Report.Pending.items).getD []

/-- The items that are held, as they will be after these events: the last one is filled in. -/
def awaiting (a : Assembler) (es : List Event) : List Report.Item :=
  match a.pending with
  | none => []
  | some p => p.earlier ++ [(span es).foldl Report.Item.set p.current]

theorem awaiting_nil (a : Assembler) : a.awaiting [] = a.items := by
  obtain ⟨_ | p⟩ := a <;> rfl

/-- The item begun last is complete at the next finger id and at a sync. -/
theorem awaiting_cons_of_kind (he : e.kind = .fingerId ∨ e.kind = .sync) (a : Assembler)
    (es : List Event) : a.awaiting (e :: es) = a.items := by
  obtain ⟨_ | p⟩ := a
  · rfl
  · rw [awaiting, span_cons_of_kind he]
    rfl

/-- One event, seen from what follows it: nothing is lost of what is held, and a finger id adds the
item that will be told of it. -/
theorem push_items (a : Assembler) (e : Event) (es : List Event) :
    (a.push e).report.toList.flatten ++ (a.push e).assembler.awaiting es =
      a.awaiting (e :: es) ++ if e.kind = .fingerId then [Report.Item.told e es] else [] := by
  rcases fills_or e with he | he | he
  · have hkind : e.kind ≠ .fingerId := by
      rcases he with he | he | he <;> simp [he]
    rw [push_fills he, if_neg hkind, List.append_nil]
    obtain ⟨_ | p⟩ := a
    · rfl
    · rw [fill, awaiting, awaiting, span_cons_fills he]
      rfl
  · rw [push_fingerId he, if_pos he, awaiting_cons_of_kind (.inl he),
      ← Report.Item.foldl_set_ofEvent]
    obtain ⟨_ | p⟩ := a
    · rfl
    · rw [start]
      dsimp only
      -- a full report is handed out, another one takes the item in: the list is the same
      split
      next => simp [awaiting, items]
      next => rfl
  · rw [push_sync he, if_neg (by rw [he]; decide), List.append_nil, awaiting_cons_of_kind (.inr he)]
    obtain ⟨_ | p⟩ := a
    · rfl
    · simp [close, empty, awaiting, items]

/-- The reports of some events and what is held after them, in terms of what was held before. -/
theorem pushAll_items (es : List Event) : ∀ a : Assembler,
    (a.pushAll es).reports.flatten ++ (a.pushAll es).assembler.items =
      a.awaiting es ++ Report.told es := by
  induction es with
  | nil =>
    intro a
    rw [awaiting_nil, Report.told, List.append_nil]
    rfl
  | cons e es ih =>
    intro a
    calc (a.pushAll (e :: es)).reports.flatten ++ (a.pushAll (e :: es)).assembler.items
        = (a.push e).report.toList.flatten ++ (((a.push e).assembler.pushAll es).reports.flatten ++
            ((a.push e).assembler.pushAll es).assembler.items) := by
          rw [pushAll_cons_reports, List.flatten_append, List.append_assoc]
          rfl
      _ = ((a.push e).report.toList.flatten ++ (a.push e).assembler.awaiting es) ++
            Report.told es := by rw [ih, List.append_assoc]
      _ = a.awaiting (e :: es) ++ Report.told (e :: es) := by
          rw [push_items, List.append_assoc, Report.told]
          split <;> rfl

/-! ## How long reports are -/

/-- What is held is no longer than a report may be. -/
def Bounded (a : Assembler) : Prop :=
  a.items.length ≤ Report.mostItems

theorem bounded_empty : empty.Bounded :=
  Nat.zero_le _

/-- A report that is handed out is not empty and not too long, and it is full unless a sync closed
it. -/
theorem push_bounded (ha : a.Bounded) (e : Event) :
    (a.push e).assembler.Bounded ∧
      ∀ r ∈ (a.push e).report, 1 ≤ r.length ∧ r.length ≤ Report.mostItems ∧
        (e.kind ≠ .sync → r.length = Report.mostItems) := by
  have hlength : ∀ p : Report.Pending, 1 ≤ p.items.length := fun p => by
    rw [Report.Pending.items, List.length_append]
    exact Nat.le_add_left ..
  have one_le : 1 ≤ Report.mostItems := by decide
  obtain ⟨_ | p⟩ := a
  · rcases fills_or e with he | he | he
    · rw [push_fills he]
      exact ⟨ha, fun r hr => nomatch hr⟩
    · rw [push_fingerId he]
      exact ⟨one_le, fun r hr => nomatch hr⟩
    · rw [push_sync he]
      exact ⟨bounded_empty, fun r hr => nomatch hr⟩
  · have hp : p.items.length ≤ Report.mostItems := ha
    rcases fills_or e with he | he | he
    · rw [push_fills he]
      refine ⟨?_, fun r hr => nomatch hr⟩
      rw [Report.Pending.items, List.length_append] at hp
      show (p.earlier ++ [p.current.set e]).length ≤ _
      rw [List.length_append]
      exact hp
    · rw [push_fingerId he, start]
      dsimp only
      split
      next hfull =>
        refine ⟨one_le, fun r hr => ?_⟩
        obtain rfl : p.items = r := Option.some.inj hr
        exact ⟨hlength p, hp, fun _ => Nat.le_antisymm hp hfull⟩
      next hfull =>
        refine ⟨?_, fun r hr => nomatch hr⟩
        show (p.items ++ [Report.Item.ofEvent e]).length ≤ _
        rw [List.length_append, List.length_singleton]
        exact Nat.lt_of_not_le hfull
    · rw [push_sync he]
      refine ⟨bounded_empty, fun r hr => ?_⟩
      obtain rfl : p.items = r := Option.some.inj hr
      exact ⟨hlength p, hp, fun hne => absurd he hne⟩

/-- Every report has between one and ten items, and one that no sync has closed is full. -/
theorem pushAll_bounded (es : List Event) : ∀ {a : Assembler}, a.Bounded →
    (a.pushAll es).assembler.Bounded ∧
      ∀ r ∈ (a.pushAll es).reports, 1 ≤ r.length ∧ r.length ≤ Report.mostItems ∧
        ((∀ e ∈ es, e.kind ≠ .sync) → r.length = Report.mostItems) := by
  induction es with
  | nil => exact fun ha => ⟨ha, fun r hr => nomatch hr⟩
  | cons e es ih =>
    intro a ha
    obtain ⟨hone, hreport⟩ := push_bounded ha e
    obtain ⟨hrest, hreports⟩ := ih hone
    refine ⟨hrest, fun r hr => ?_⟩
    rcases List.mem_append.mp hr with hr | hr
    · obtain ⟨hlo, hhi, hfull⟩ := hreport r (Option.mem_toList.mp hr)
      exact ⟨hlo, hhi, fun hs => hfull (hs e (List.mem_cons_self ..))⟩
    · obtain ⟨hlo, hhi, hfull⟩ := hreports r hr
      exact ⟨hlo, hhi, fun hs => hfull fun d hd => hs d (List.mem_cons_of_mem _ hd)⟩

/-! ## Events that might as well be left out -/

/-- A finger id has been told since the last sync, and what is `between` may fill in its item. -/
def Begun (before : List Event) : Prop :=
  ∃ earlier d between, before = earlier ++ d :: between ∧ d.kind = .fingerId ∧
    ∀ b ∈ between, b.kind ≠ .fingerId ∧ b.kind ≠ .sync

/-- The event is in the span of a finger id, and none of its kind comes after it there. -/
def Covered (before : List Event) (e : Event) (after : List Event) : Prop :=
  Begun before ∧ ∀ d ∈ span after, d.kind ≠ e.kind

/-- Without a finger id since the last sync no item is held. -/
theorem pending_eq_none (es : List Event) (hes : ¬Begun es) :
    (empty.pushAll es).assembler.pending = none := by
  induction es using List.reverseRecOn with
  | nil => rfl
  | append_singleton es e ih =>
    rw [(pushAll_append es [e] empty).1]
    show ((empty.pushAll es).assembler.push e).assembler.pending = none
    rcases fills_or e with he | he | he
    · have hbefore : ¬Begun es := by
        rintro ⟨earlier, d, between, rfl, hd, hbetween⟩
        refine hes ⟨earlier, d, between ++ [e], by simp, hd, fun b hb => ?_⟩
        rcases List.mem_append.mp hb with hb | hb
        · exact hbetween b hb
        · rw [List.mem_singleton.mp hb]
          rcases he with he | he | he <;> simp [he]
      rw [push_fills he, fill, ih hbefore]
      exact ih hbefore
    · exact absurd ⟨es, e, [], rfl, he, fun b hb => nomatch hb⟩ hes
    · rw [push_sync he]
      rfl

/-- Filling in touches the item begun last, and closes nothing. -/
theorem push_fills_assembler (he : e.Fills) (a : Assembler) :
    (a.push e).assembler = ⟨a.pending.map fun p => { p with current := p.current.set e }⟩ ∧
      (a.push e).report = none := by
  rw [push_fills he]
  obtain ⟨_ | p⟩ := a <;> exact ⟨rfl, rfl⟩

/-- An event is of no consequence if one of its kind comes later in the same span. -/
theorem pushAll_of_overridden (he : e.Fills) (es : List Event) : ∀ a : Assembler,
    (∃ d ∈ span es, d.kind = e.kind) →
      ((a.push e).assembler.pushAll es).assembler = (a.pushAll es).assembler ∧
        ((a.push e).assembler.pushAll es).reports = (a.pushAll es).reports := by
  induction es with
  | nil => exact fun a ⟨d, hd, _⟩ => nomatch hd
  | cons c es ih =>
    intro a ⟨d, hd, hkind⟩
    have hc : c.Fills := (fills_or c).resolve_right fun hc => by
      rw [span_cons_of_kind hc] at hd
      exact nomatch hd
    obtain ⟨hae, -⟩ := push_fills_assembler he a
    obtain ⟨hac, hacr⟩ := push_fills_assembler hc a
    obtain ⟨haec, haecr⟩ := push_fills_assembler hc (a.push e).assembler
    rw [pushAll_cons_assembler, pushAll_cons_assembler, pushAll_cons_reports, pushAll_cons_reports,
      hacr, haecr]
    by_cases hce : c.kind = e.kind
    · have hsame : ((a.push e).assembler.push c).assembler = (a.push c).assembler := by
        rw [haec, hac, hae, Option.map_map]
        congr 2
        funext p
        exact congrArg (Report.Pending.mk p.earlier) (Report.Item.set_set_of_kind _ hce)
      rw [hsame]
      exact ⟨rfl, rfl⟩
    · -- events of two kinds change places, and the one that overrides is still to come
      have hswap : ((a.push e).assembler.push c).assembler =
          ((a.push c).assembler.push e).assembler := by
        rw [haec, hae, (push_fills_assembler he _).1, hac, Option.map_map, Option.map_map]
        congr 2
        funext p
        exact congrArg (Report.Pending.mk p.earlier) (Report.Item.set_comm _ hce)
      have hd' : d ∈ span es := by
        rw [span_cons_fills hc] at hd
        exact (List.mem_cons.mp hd).resolve_left fun h => hce (h ▸ hkind)
      obtain ⟨hassembler, hreports⟩ := ih (a.push c).assembler ⟨d, hd', hkind⟩
      rw [hswap, hassembler, hreports]
      exact ⟨rfl, rfl⟩

/-- An axis or a button that is not covered might as well be left out. -/
theorem pushAll_of_not_covered {before after : List Event} (he : e.Fills)
    (hcovered : ¬Covered before e after) :
    (empty.pushAll (before ++ e :: after)).reports = (empty.pushAll (before ++ after)).reports ∧
      (empty.pushAll (before ++ e :: after)).assembler =
        (empty.pushAll (before ++ after)).assembler := by
  obtain ⟨hwith, hwithr⟩ := pushAll_append before (e :: after) empty
  obtain ⟨hless, hlessr⟩ := pushAll_append before after empty
  have hrest : (((empty.pushAll before).assembler.push e).assembler.pushAll after).assembler =
        ((empty.pushAll before).assembler.pushAll after).assembler ∧
      (((empty.pushAll before).assembler.push e).assembler.pushAll after).reports =
        ((empty.pushAll before).assembler.pushAll after).reports := by
    by_cases hbegun : Begun before
    · apply pushAll_of_overridden he
      by_contra hnone
      exact hcovered ⟨hbegun, fun d hd hkind => hnone ⟨d, hd, hkind⟩⟩
    · have hpending := pending_eq_none before hbegun
      have hsame : ((empty.pushAll before).assembler.push e).assembler =
          (empty.pushAll before).assembler := by
        rw [(push_fills_assembler he _).1, hpending]
        exact congrArg mk hpending.symm
      rw [hsame]
      exact ⟨rfl, rfl⟩
  rw [hwith, hwithr, hless, hlessr, pushAll_cons_assembler, pushAll_cons_reports, hrest.1, hrest.2,
    (push_fills_assembler he _).2]
  exact ⟨rfl, rfl⟩

/-! ## Other times

An assembler carries times along and does not look at them. -/

end Assembler

def Event.retimed (g : Timestamp → Timestamp) (e : Event) : Event :=
  { e with time := g e.time }

namespace Report

def Item.retimed (g : Timestamp → Timestamp) (i : Item) : Item :=
  { i with time := g i.time }

def retimed (g : Timestamp → Timestamp) (r : Report) : Report :=
  r.map (Item.retimed g)

def Pending.retimed (g : Timestamp → Timestamp) (p : Pending) : Pending :=
  { earlier := p.earlier.map (Item.retimed g), current := p.current.retimed g }

theorem items_retimed (g : Timestamp → Timestamp) (p : Pending) :
    (p.retimed g).items = retimed g p.items := by
  rw [retimed, Pending.items, Pending.items, List.map_append]
  rfl

end Report

namespace Assembler

def retimed (g : Timestamp → Timestamp) (a : Assembler) : Assembler :=
  ⟨a.pending.map (Report.Pending.retimed g)⟩

def Pushed.retimed (g : Timestamp → Timestamp) (p : Pushed) : Pushed :=
  { p with assembler := p.assembler.retimed g, report := p.report.map (Report.retimed g) }

def PushedAll.retimed (g : Timestamp → Timestamp) (p : PushedAll) : PushedAll :=
  { p with assembler := p.assembler.retimed g, reports := p.reports.map (Report.retimed g) }

/-- Pushing carries times along and does not look at them. -/
theorem push_retimed (g : Timestamp → Timestamp) (a : Assembler) (e : Event) :
    (a.retimed g).push (e.retimed g) = (a.push e).retimed g := by
  obtain ⟨_ | p⟩ := a
  · obtain ⟨_, kind, _, _⟩ := e
    cases kind <;> rfl
  have hitems := Report.items_retimed g p
  obtain ⟨_, kind, _, _⟩ := e
  cases kind with
  | axisX | axisY | buttonTouch => rfl
  | sync => exact congrArg (Pushed.mk empty · []) (congrArg some hitems)
  | fingerId =>
    show start ⟨some (p.retimed g)⟩ _ = Pushed.retimed g (start ⟨some p⟩ _)
    have hlength : (Report.retimed g p.items).length = p.items.length := List.length_map ..
    simp only [start, hitems, hlength]
    split <;> rfl

theorem pushAll_retimed (g : Timestamp → Timestamp) (es : List Event) : ∀ a : Assembler,
    (a.retimed g).pushAll (es.map (Event.retimed g)) = (a.pushAll es).retimed g := by
  induction es with
  | nil => exact fun _ => rfl
  | cons e es ih =>
    intro a
    simp only [List.map_cons, pushAll, push_retimed, Pushed.retimed, ih, PushedAll.retimed,
      List.map_append]
    cases (a.push e).report <;> rfl

/-! ## Everything that was told -/

/-- What a fresh assembler makes of some events. -/
structure Assembled (es : List Event) : Prop where
  sizes : ∀ r ∈ (empty.pushAll es).reports, 1 ≤ r.length ∧ r.length ≤ Report.mostItems
  /-- Every finger id has its item, in order, and there are no others. -/
  items_eq : (empty.pushAll es).reports.flatten ++ (empty.pushAll es).assembler.items =
    Report.told es
  /-- The other axes and buttons do not show, neither in the items nor in how they are divided into
  reports, nor later. -/
  uncovered : ∀ before e after, es = before ++ e :: after → e.Fills → ¬Covered before e after →
    (empty.pushAll es).reports = (empty.pushAll (before ++ after)).reports ∧
      (empty.pushAll es).assembler = (empty.pushAll (before ++ after)).assembler
  closed : ∀ before e after, es = before ++ e :: after → e.kind = .sync →
    let held := (empty.pushAll before).assembler
    (held.push e).report = held.pending.map Report.Pending.items ∧
      (held.push e).assembler.pending = none

/-- **An assembler neither loses, nor doubles, nor mixes items**, whatever the events are. -/
theorem assembled (es : List Event) : Assembled es where
  sizes := fun r hr => by
    obtain ⟨hlo, hhi, -⟩ := (pushAll_bounded es bounded_empty).2 r hr
    exact ⟨hlo, hhi⟩
  items_eq := pushAll_items es empty
  uncovered := by
    rintro before e after rfl he hcovered
    exact pushAll_of_not_covered he hcovered
  closed := by
    intro before e after _ he held
    rw [push_sync he]
    exact ⟨rfl, rfl⟩

end Assembler

end FingerTracking
