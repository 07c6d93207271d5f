import TraceLink.Proofs.Aspects
import TraceLink.Proofs.Bookkeeping
import TraceLink.Proofs.IgnoredTraces

/-! # Accounts of async spans

    In every play of an engine, whatever comes between the parts of a stop: the books stay in
    order, so the fields of each ledger agree with each other and with its docket, and every
    span on which a handle was prepared is in one place.

    So a handle that has not finished finds the record of its span and is counted, a strand
    that stops an async span finds its record, and no segment is handed over with a span that
    has no end. -/

namespace TraceLink

namespace Engine

/-- The outline of the open segment of the strand at place `k`. -/
def outline? (e : Engine) (k : Nat) : Option Outline := (e.open? k).map OpenSegment.outline

/-- **Books in order**: every ledger keeps its docket, the spans of every open segment are
    placed in its ledger, and no two open segments share one. -/
structure Reconciled (e : Engine) (d : Nat → Docket) : Prop where
  tracer : e.tracer.Reconciled d
  outline : ∀ k x, e.outline? k = some x → x.Reconciled e.tracer d
  apart : ∀ k k' x x' n, e.outline? k = some x → e.outline? k' = some x' →
    x.ledger = some n → x'.ledger = some n → k = k'

variable {e e' : Engine} {d d' : Nat → Docket}

theorem outline?_of_site? {k : Nat} {s : Site} (h : e.site? k = some s) :
    e.outline? k = s.outline? := by
  rw [outline?, open?_of_site? h, Site.outline?]

theorem Reconciled.site (h : e.Reconciled d) {k : Nat} {s : Site} (hsite : e.site? k = some s) :
    s.Reconciled d := by
  refine ⟨?_, fun x hx => ?_⟩
  · rw [tracer_of_site? hsite]
    exact h.tracer
  · rw [tracer_of_site? hsite]
    exact h.outline k x ((outline?_of_site? hsite).trans hx)

/-- The ledger of an open segment is not that of one on another strand. -/
theorem Reconciled.foreign (h : e.Reconciled d) {k k' : Nat} (hk : k ≠ k') {t' : Tracer}
    {x'? : Option Outline} {n : Option Nat}
    (hsequel : Sequel e.tracer t' (e.outline? k) x'? d d' n) {x : Outline}
    (hx : e.outline? k' = some x) {m : Nat} (hm : x.ledger = some m) : n ≠ some m := by
  intro hn
  rcases (hsequel.claimed m hn).2 with ⟨y, hy, hym⟩ | hnew
  · exact hk (h.apart k k' y x m hy hx hym hm)
  · exact Nat.ne_of_lt ((h.outline k' x hx).bound m hm) hnew

/-- The segments of the other strands do not notice what one strand does. -/
theorem Reconciled.sequel (h : e.Reconciled d) {k : Nat} {n : Option Nat}
    (hsequel : Sequel e.tracer e'.tracer (e.outline? k) (e'.outline? k) d d' n)
    (hothers : ∀ k', k ≠ k' → e'.outline? k' = e.outline? k') : e'.Reconciled d' where
  tracer := hsequel.tracer h.tracer
  outline := by
    intro k' x hx
    by_cases hk : k = k'
    · subst hk
      exact hsequel.outline hx
    -- another segment, whose ledger and docket are not touched
    · rw [hothers k' hk] at hx
      obtain ⟨hplaced, hbound⟩ := h.outline k' x hx
      refine ⟨?_, fun m hm => Nat.lt_of_lt_of_le (hbound m hm) hsequel.spares.length⟩
      cases hledger : x.ledger with
      | none => rwa [hledger] at hplaced
      | some m =>
        rw [hledger] at hplaced
        have hforeign := h.foreign hk hsequel hx hledger
        rwa [Tracer.ledgerOf, Docket.of, hsequel.spares.ledger m hforeign,
          hsequel.dockets m hforeign]
  apart := by
    intro k₁ k₂ x₁ x₂ m hx₁ hx₂ hm₁ hm₂
    -- one that changed has the ledger that it had, or a new one
    by_cases hk₁ : k = k₁
    · by_cases hk₂ : k = k₂
      · exact hk₁.symm.trans hk₂
      · subst hk₁
        rw [hothers k₂ hk₂] at hx₂
        exact absurd ((hsequel.placed x₁ hx₁).1.symm.trans hm₁) (h.foreign hk₂ hsequel hx₂ hm₂)
    · rw [hothers k₁ hk₁] at hx₁
      by_cases hk₂ : k = k₂
      · subst hk₂
        exact absurd ((hsequel.placed x₂ hx₂).1.symm.trans hm₂) (h.foreign hk₁ hsequel hx₁ hm₁)
      · rw [hothers k₂ hk₂] at hx₂
        exact h.apart k₁ k₂ x₁ x₂ m hx₁ hx₂ hm₁ hm₂

/-- What touches no ledger, and begins no segment. -/
theorem Reconciled.of_ledgers_eq (h : e.Reconciled d)
    (hledgers : e'.tracer.ledgers = e.tracer.ledgers)
    (hopen : ∀ k x, e'.outline? k = some x → e.outline? k = some x) : e'.Reconciled d where
  tracer := h.tracer.of_ledgers_eq hledgers
  outline := fun k x hx => (h.outline k x (hopen k x hx)).of_ledgers_eq hledgers
  apart := fun k k' x x' n hx hx' => h.apart k k' x x' n (hopen k x hx) (hopen k' x' hx')

/-! ### Handles -/

/-- What is noted of an operation of a handle. -/
theorem enter_noted_handle (e : Engine) (d : Nat → Docket) (now : UInt64) (n id : Nat)
    (op : HandleOp) :
    Docket.enter d (e.noted now (.whole (.handle (.span n id) op))) =
      Function.update d n ((d n).noteHandle id op) := by
  cases op with
  | finish time => rfl
  | _ => exact (Function.update_eq_self n d).symm

/-- The ledger after an operation of a handle, be it there or not. -/
theorem ledger_handled (t : Tracer) (n id : Nat) (now : UInt64) (op : HandleOp) :
    (t.setLedger n ((t.ledger n).handle id now op).value.2).ledger n =
      ((t.ledger n).handle id now op).value.2 := by
  by_cases hn : n < t.ledgers.length
  · exact Tracer.ledger_setLedger_self hn _
  · have hempty := Tracer.ledger_eq_empty (Nat.le_of_not_lt hn)
    rw [Tracer.ledger_eq_empty (by rw [Tracer.setLedger, List.length_set]; omega), hempty]
    cases op <;> rfl

/-- **Every operation of a handle** keeps the books in order. -/
theorem Reconciled.handled (h : e.Reconciled d) (now : UInt64) (n id : Nat) (op : HandleOp) :
    let outcome := (e.step now (.handle (.span n id) op)).value
    outcome.state.Reconciled (Docket.enter d (e.noted now (.whole (.handle (.span n id) op)))) ∧
      ∀ g, outcome.handed = some g → ∀ s ∈ g.spans, s.isClosed := by
  rw [enter_noted_handle, step_handle]
  have hhandled := Ledger.handled_handle (h.tracer.kept n).wellKept id now op
  have hself := ledger_handled e.tracer n id now op
  generalize ((e.tracer.ledger n).handle id now op).value = after at hhandled hself
  obtain ⟨hkept, hwaits, hclosed⟩ := (h.tracer.kept n).handled (h.tracer.waits n) hhandled
  refine ⟨Reconciled.of_ledgers_eq (e := { e with tracer := e.tracer.setLedger n after.2 }) ?_
    (Tracer.reportDue_value _ _).2 fun _ _ hx => hx, hclosed⟩
  refine ⟨h.tracer.setLedger hself hkept hwaits ?_, fun k x hx => ?_, h.apart⟩
  · intro hnew
    rw [hnew]
    cases op <;> rfl
  · exact (h.outline k x hx).setLedger hself fun hplaced => hplaced.handled hhandled

/-! ### Beats -/

/-- A strand works with its site. -/
theorem Reconciled.setSite (h : e.Reconciled d) {k : Nat} {s s' : Site} (hsite : e.site? k = some s)
    {n : Option Nat} (hsequel : Sequel s.tracer s'.tracer s.outline? s'.outline? d d' n) :
    (e.setSite k s').Reconciled d' := by
  refine h.sequel (k := k) (n := n) ?_ fun k' hk => ?_
  · rw [outline?_of_site? (site?_setSite hsite s'), outline?_of_site? hsite,
      ← tracer_of_site? hsite]
    exact hsequel
  · rw [outline?, outline?, open?_setSite hsite s' hk]

theorem Reconciled.strand (h : e.Reconciled d) (now : UInt64) (k : Nat) (op : StrandOp) :
    let outcome := (e.step now (.strand k op)).value
    outcome.state.Reconciled (Docket.enter d (e.noted now (.whole (.strand k op)))) ∧
      ∀ g, outcome.handed = some g → ∀ s ∈ g.spans, s.isClosed := by
  cases hsite : e.site? k with
  | none =>
    simp only [noted, step, hsite, Logged.pure_value, Option.bind_none]
    exact ⟨h, fun g hg => by contradiction⟩
  | some s =>
    obtain ⟨⟨n, hsequel⟩, hclosed⟩ := (h.site hsite).effect (s.effect_of_step now op)
    rw [noted, hsite, Option.bind_some, step_strand hsite]
    exact ⟨h.setSite hsite hsequel, hclosed⟩

/-- What strands and handles do not do touches no ledger and hands nothing over. -/
theorem Reconciled.shared (h : e.Reconciled d) (now : UInt64) {op : Op}
    (hstrand : ∀ k sop, op ≠ .strand k sop) (hhandle : ∀ a hop, op ≠ .handle a hop) :
    let outcome := (e.step now op).value
    outcome.state.Reconciled d ∧ ∀ g, outcome.handed = some g → ∀ s ∈ g.spans, s.isClosed := by
  refine ⟨h.of_ledgers_eq (e.ledgers_step now hstrand hhandle) fun k x hx => ?_, fun g hg => ?_⟩
  · obtain ⟨o, ho, rfl⟩ := Option.map_eq_some_iff.mp hx
    rw [outline?, open?_of_step (hstrand k) ho, Option.map_some]
  · rcases op_of_handed hg with ⟨k, expected, rfl⟩ | ⟨a, time, rfl⟩
    · exact absurd rfl (hstrand k _)
    · exact absurd rfl (hhandle a _)

/-- **Every beat keeps the books in order**, and hands over closed spans only. -/
theorem Reconciled.beat (h : e.Reconciled d) (now : UInt64) (b : Beat) :
    (e.beat now b).state.Reconciled (Docket.enter d (e.noted now b)) ∧
      ∀ g, (e.beat now b).handed = some g → ∀ s ∈ g.spans, s.isClosed := by
  cases b with
  | whole op =>
    cases op with
    | strand k op => exact h.strand now k op
    | handle a op =>
      cases a with
      | span n id => exact h.handled now n id op
      | idle => exact ⟨h.of_ledgers_eq rfl fun _ _ hx => hx, fun g hg => by contradiction⟩
    | _ => exact h.shared now nofun nofun
  | stop k expected =>
    cases hsite : e.site? k with
    | none =>
      simp only [Engine.beat, noted, hsite, Option.bind_none]
      exact ⟨h, fun g hg => by contradiction⟩
    | some s =>
      obtain ⟨n, hsequel⟩ := (h.site hsite).stopActive expected now
      rw [beat_stop hsite, noted, hsite, Option.bind_some]
      exact ⟨h.setSite hsite hsequel, fun g hg => by contradiction⟩
  | finish k =>
    cases hsite : e.site? k with
    | none =>
      simp only [Engine.beat, hsite]
      exact ⟨h, fun g hg => by contradiction⟩
    | some s =>
      obtain ⟨⟨n, hsequel⟩, hclosed⟩ := (h.site hsite).endSegment
      rw [beat_finish hsite]
      exact ⟨h.setSite hsite hsequel, hclosed⟩

/-- An engine without strands. -/
theorem reconciled_start (config : Config) (reporter : Reporter) (process : String)
    (start : UInt64) :
    (ofTracer (.start config reporter process start)).Reconciled fun _ => {} where
  tracer := {
    kept := fun _ => Ledger.kept_empty
    waits := fun _ => Ledger.waits_of_not_parked rfl
    fresh := fun _ _ => rfl }
  outline := fun k x hx => by contradiction
  apart := fun k k' x x' n hx => by contradiction

/-- The books stay in order. -/
theorem Reconciled.play (h : e.Reconciled d) (bs : List (UInt64 × Beat)) :
    (e.play bs).Reconciled (e.docketsFrom d bs) := by
  -- the dockets grow with the play, so the invariant is one of both
  induction bs generalizing e d with
  | nil => exact h
  | cons timed bs ih => exact ih (h.beat timed.1 timed.2).1

end Engine

/-! ### Accounts -/

namespace Ledger

/-- **In agreement**: the fields of a ledger agree with each other and with its docket. -/
structure Agrees (l : Ledger) (d : Docket) : Prop where
  /-- Every span has one record. -/
  keys : (l.records.map Prod.fst).Nodup
  /-- As many are pending as records have no end time. -/
  records : l.pending = openIn l.records
  /-- As many are pending as handles have not finished, be they alive or dropped. -/
  handles : d.unfinished.Nodup ∧ l.pending = d.unfinished.length
  /-- These handles find the records of their spans, and no others have no end time. -/
  found : ∀ id, id ∈ d.unfinished ↔ ∃ r, l.records.get? id = some r ∧ r.stop = none
  /-- One that finishes is counted off, which never goes below zero. -/
  counted : ∀ id ∈ d.unfinished, ∀ now time,
    (l.handle id now (.finish time)).value.2.pending + 1 = l.pending
  /-- A record has its span only after it was taken off the stack, and no end time then. -/
  held : ∀ id r s, l.records.get? id = some r → r.span = some s →
    s.id = id ∧ s ∈ d.popped ∧ r.stop = none
  completed : ∀ s ∈ l.completed, s.isClosed

/-- **Located**: every span on which a handle was prepared is on the stack, in a record,
    completed or archived, in one of these places and there only once. -/
def Locates (l : Ledger) (d : Docket) (stack archive : List Span) : Prop :=
  ∀ id ∈ d.prepared,
    (stack.map (·.id)).count id + ((heldIn l.records).map (·.id)).count id +
      (l.completed.map (·.id)).count id + (archive.map (·.id)).count id = 1

variable {l : Ledger} {d : Docket}

/-- A handle that has not finished is one of those that are pending, until it finishes. -/
theorem Kept.pending_finish (h : l.Kept d) (hwaits : l.Waits) {id : Nat} (hid : id ∈ d.unfinished)
    (now : UInt64) (time : Option UInt64) :
    (l.handle id now (.finish time)).value.2.pending + 1 = l.pending := by
  have hafter := (h.handled hwaits (handled_handle h.wellKept id now (.finish time))).1
  have hbefore := h.pending_eq
  have hpos := h.pending_pos hid
  rw [hafter.pending_eq]
  show (d.unfinished.erase id).length + 1 = _
  rw [List.length_erase_of_mem hid]
  omega

theorem Kept.agrees (h : l.Kept d) (hwaits : l.Waits) : l.Agrees d where
  keys := h.wellKept.keys
  records := h.wellKept.pending
  handles := ⟨h.nodup, h.pending_eq⟩
  found := fun id => by rw [← h.open_iff, open?_isSome_iff]
  counted := fun id hid => h.pending_finish hwaits hid
  held := by
    intro id r s hget hspan
    obtain ⟨hid, hstop⟩ := h.wellKept.held id r s hget hspan
    exact ⟨hid, h.held s (mem_heldIn_of_get? hget hspan), hstop⟩
  completed := h.completed

end Ledger

namespace OpenSegment

/-- The recorded spans on the stack. -/
def openSpans (o : OpenSegment) : List Span := o.stack.filterMap Frame.span?

theorem ids_outline (o : OpenSegment) : o.outline.ids = o.openSpans.map (·.id) := by
  unfold Outline.ids Outline.marks outline openSpans
  simp only
  induction o.stack with
  | nil => rfl
  | cons f rest ih =>
    cases f with
    | recorded s => exact congrArg (s.id :: ·) ih
    | placeholder name => exact ih

theorem mark_mem_marks_of_openSpans {o : OpenSegment} {s : Span} (h : s ∈ o.openSpans) :
    s.mark ∈ o.outline.marks := by
  obtain ⟨f, hf, hspan⟩ := List.mem_filterMap.mp h
  rw [Frame.eq_recorded hspan] at hf
  exact mark_mem_marks_of_mem hf

end OpenSegment

namespace Engine

/-- **Accounted**: what holds of async spans at any moment, with the dockets of all that was
    noted until then. -/
structure Accounted (e : Engine) (d : Nat → Docket) : Prop where
  agrees : ∀ n, (e.tracer.ledger n).Agrees (d n)
  /-- A ledger is that of one open segment at most. -/
  owned : ∀ k k' o o' n, e.open? k = some o → e.open? k' = some o' →
    o.ledger = some n → o'.ledger = some n → k = k'
  /-- The open spans that are async are those on which a handle was prepared. -/
  marked : ∀ k o s, e.open? k = some o → s ∈ o.openSpans →
    (s.isAsync = true ↔ s.id ∈ (Docket.of d o.ledger).prepared)
  /-- A strand that stops an async span finds its record, which waits for the span. -/
  found : ∀ k o s, e.open? k = some o → s ∈ o.openSpans → s.isAsync = true →
    ∃ n r, o.ledger = some n ∧ (e.tracer.ledger n).records.get? s.id = some r ∧ r.span = none
  /-- While a segment is open, its spans are located and it is not parked. -/
  active : ∀ k o n, e.open? k = some o → o.ledger = some n →
    (e.tracer.ledger n).Locates (d n) o.openSpans o.segment.spans ∧
      (e.tracer.ledger n).parked = none
  /-- While a segment is parked, its spans are located too. Handles are pending, and the
      segment is not open any more. -/
  parked : ∀ n g, (e.tracer.ledger n).parked = some g →
    (e.tracer.ledger n).Locates (d n) [] g.spans ∧ 0 < (e.tracer.ledger n).pending ∧
      ∀ k o, e.open? k = some o → o.ledger ≠ some n
  /-- No span is archived without an end time, in segments that are open or parked. -/
  archived : (∀ k o, e.open? k = some o → ∀ s ∈ o.segment.spans, s.isClosed) ∧
    ∀ n g, (e.tracer.ledger n).parked = some g → ∀ s ∈ g.spans, s.isClosed
  /-- Nor is one handed over, whatever comes next. -/
  handed : ∀ now b g, (e.beat now b).handed = some g → ∀ s ∈ g.spans, s.isClosed

variable {e : Engine} {d : Nat → Docket}

theorem outline?_of_open? {k : Nat} {o : OpenSegment} (h : e.open? k = some o) :
    e.outline? k = some o.outline := congrArg (Option.map OpenSegment.outline) h

theorem Reconciled.placed (h : e.Reconciled d) {k : Nat} {o : OpenSegment}
    (ho : e.open? k = some o) :
    o.outline.Placed (e.tracer.ledgerOf o.ledger) (Docket.of d o.ledger) :=
  (h.outline k o.outline (outline?_of_open? ho)).placed

theorem Reconciled.accounted (h : e.Reconciled d) : e.Accounted d where
  agrees := fun n => (h.tracer.kept n).agrees (h.tracer.waits n)
  owned := fun k k' o o' n ho ho' =>
    h.apart k k' o.outline o'.outline n (outline?_of_open? ho) (outline?_of_open? ho')
  marked := by
    intro k o s ho hs
    have hplaced := h.placed ho
    have hmark := OpenSegment.mark_mem_marks_of_openSpans hs
    constructor
    · intro hasync
      obtain ⟨r, hget, -⟩ := hplaced.async _ hmark hasync
      exact hplaced.known _ (Option.isSome_of_eq_some hget)
    · intro hprepared
      rw [← Bool.not_eq_false]
      exact fun hplain => hplaced.plain _ hmark hplain hprepared
  found := by
    intro k o s ho hs hasync
    have hmark := OpenSegment.mark_mem_marks_of_openSpans hs
    obtain ⟨r, hget, hnone⟩ := (h.placed ho).async _ hmark hasync
    -- the record is in the ledger of the segment, so there is one
    cases hledger : o.ledger with
    | none =>
      rw [hledger] at hget
      contradiction
    | some n =>
      rw [hledger] at hget
      exact ⟨n, r, rfl, hget, hnone⟩
  active := by
    intro k o n ho hn
    have hplaced := h.placed ho
    rw [hn] at hplaced
    refine ⟨fun id hid => ?_, hplaced.parked⟩
    rw [← o.ids_outline]
    exact hplaced.housed.count_eq_one hid
  parked := by
    intro n g hg
    refine ⟨fun id hid => ((h.tracer.kept n).parked g hg).count_eq_one hid, h.tracer.waits n g hg,
      fun k o ho hn => ?_⟩
    have hopen := (h.placed ho).parked
    rw [hn, Tracer.ledgerOf, hg] at hopen
    contradiction
  archived := ⟨fun k o ho => (h.placed ho).housed.archived,
    fun n g hg => ((h.tracer.kept n).parked g hg).archived⟩
  handed := fun now b => (h.beat now b).2

/-- **Async spans are accounted for** at every moment of every play: among any operations of
    strands and handles, and between the two parts of a stop. -/
theorem async_spans_accounted (config : Config) (reporter : Reporter) (process : String)
    (start : UInt64) (beats : List (UInt64 × Beat)) :
    let e := ofTracer (.start config reporter process start)
    (e.play beats).Accounted (e.dockets beats) :=
  ((reconciled_start config reporter process start).play beats).accounted

/-- Both spans of a segment are left to handles. One handle finishes before its span is
    stopped, the other one between the stop of the last span and the end of the segment. -/
def crossedBeats : List (UInt64 × Beat) :=
  [(0, .whole .openStrand), (1, .whole (.strand 0 (.inner "a"))),
    (2, .whole (.strand 0 .prepareAsync)), (3, .whole (.strand 0 (.inner "b"))),
    (4, .whole (.strand 0 .prepareAsync)), (5, .whole (.strand 0 (.stop none))),
    (6, .whole (.handle (.span 0 0) (.finish none))), (7, .stop 0 none),
    (8, .whole (.handle (.span 0 1) (.finish none)))]

theorem async_spans_accounted_crossed :
    let e := ofTracer (.start (Config.standard "i") .collecting "p" 0)
    let after := e.play crossedBeats
    (e.dockets crossedBeats 0).prepared = [0, 1] ∧ (e.dockets crossedBeats 0).unfinished = [] ∧
    (after.open? 0).map (fun o => (o.stack.length, o.segment.spans.map (·.id))) = some (0, [0]) ∧
    (after.tracer.ledger 0).completed.map (·.id) = [1] ∧
    after.Accounted (e.dockets crossedBeats) ∧
    (after.beat 9 (.finish 0)).handed.map (·.spans.map (·.id)) = some [0, 1] := by
  intro e after
  exact ⟨by decide +kernel, by decide +kernel, by decide +kernel, by decide +kernel,
    async_spans_accounted _ _ _ _ crossedBeats, by decide +kernel⟩

end Engine

end TraceLink
