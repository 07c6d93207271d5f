import TraceLink.Proofs.Intervals
import TraceLink.Proofs.OpenFrames

/-! # Reported segments are laminar in time

    In a run whose clock does not go back, in which end times come from stops only, the
    spans of a reported segment nest in time as they nest on the stack: a span lies
    inside its parent and is archived before it, and of two spans of which none is inside
    the other, the later one begins after the earlier one has ended.

    Placeholders stand on the stack, too, but take no part: the parent of a span is the
    innermost open span that is recorded. -/

namespace TraceLink

open TraceLink.Interval

/-! ### Laminar segments -/

/-- The intervals of the spans, in the order of closing. -/
def Segment.intervals (g : Segment) : List Interval := g.spans.map Span.interval

/-- **Laminar** in time. -/
structure Segment.IsLaminar (g : Segment) : Prop where
  ids : (g.spans.map Span.id).Nodup
  timely : ∀ s ∈ g.spans, ∃ t, s.stop = some t ∧ s.start ≤ t
  /-- The parent of a span is archived behind it, and its interval contains that of the
      span. -/
  inside : ∀ (i : Nat) (s : Span) (p : Nat), g.spans[i]? = some s → s.parent = some p →
    ∃ (j : Nat) (s' : Span), i < j ∧ g.spans[j]? = some s' ∧ s'.id = p ∧ s'.start ≤ s.start ∧
      ∀ t t', s.stop = some t → s'.stop = some t' → t ≤ t'
  /-- Of two spans of which none is inside the other, the earlier one ends before the
      later one begins. -/
  apart : ∀ s ∈ g.spans, ∀ s' ∈ g.spans, s.id < s'.id →
    ¬ Encloses g.intervals s.id s'.id → ¬ Encloses g.intervals s'.id s.id →
    ∀ t, s.stop = some t → t ≤ s'.start

namespace Nested

variable {now : UInt64} {next : Nat} {g : Segment}

/-- Of two spans, the one that is archived first ends first. -/
theorem endsFirst_of_lt (h : Nested now next g.intervals []) {i j : Nat} {s s' : Span}
    (hi : g.spans[i]? = some s) (hj : g.spans[j]? = some s') (hij : i < j) :
    EndsFirst g.intervals s.interval s'.interval := by
  have horder := h.order
  rw [List.append_nil, Segment.intervals, List.pairwise_map, List.pairwise_iff_getElem] at horder
  obtain ⟨hilt, rfl⟩ := List.getElem?_eq_some_iff.mp hi
  obtain ⟨hjlt, rfl⟩ := List.getElem?_eq_some_iff.mp hj
  exact horder i j hilt hjlt hij

theorem lt_of_encloses (h : Nested now next g.intervals []) {i j : Nat}
    (hij : Encloses g.intervals i j) : i < j := by
  have hfamily := h.family
  rw [List.append_nil] at hfamily
  exact hfamily.lt_of_encloses hij

/-- A span is archived behind the spans that are opened in it. -/
theorem lt_of_parent (h : Nested now next g.intervals []) {i j : Nat} {s s' : Span}
    (hi : g.spans[i]? = some s) (hj : g.spans[j]? = some s') (hlt : s'.id < s.id)
    (hparent : s.parent = some s'.id) : i < j := by
  rcases Nat.lt_trichotomy i j with hij | rfl | hji
  · exact hij
  · obtain rfl := Option.some.inj (hi.symm.trans hj)
    exact absurd hlt (Nat.lt_irrefl _)
  · -- what ends before another one is neither outside of it nor its parent
    cases h.endsFirst_of_lt hj hi hji with
    | inl hinside => exact absurd (h.lt_of_encloses hinside) (Nat.lt_asymm hlt)
    | inr hbefore => exact absurd hparent hbefore.2.1

/-- When all spans have ended, the segment is laminar. -/
theorem isLaminar (h : Nested now next g.intervals []) : g.IsLaminar where
  ids := by
    have hids := h.family.ids
    rw [List.append_nil, Segment.intervals, List.map_map] at hids
    exact hids
  timely := by
    intro s hs
    obtain ⟨t, hstop, hstart, -⟩ := h.timely s.interval (List.mem_map_of_mem hs)
    exact ⟨t, hstop, hstart⟩
  inside := by
    intro i s p hi hparent
    have hmem : s.interval ∈ g.intervals ++ [] :=
      List.mem_append_left _ (List.mem_map_of_mem (List.mem_of_getElem? hi))
    obtain ⟨hlt, a, ha, rfl⟩ := h.family.parents s.interval hmem p hparent
    have hstart := h.family.starts a ha s.interval hmem (Nat.le_of_lt hlt)
    rw [List.append_nil] at ha
    obtain ⟨s', hs', rfl⟩ := List.mem_map.mp ha
    obtain ⟨j, hj⟩ := List.mem_iff_getElem?.mp hs'
    have hij := h.lt_of_parent hi hj hlt hparent
    refine ⟨j, s', hij, hj, rfl, hstart, ?_⟩
    -- what is archived behind it has not ended before it
    have hstops := h.stops
    rw [Segment.intervals, List.pairwise_map, List.pairwise_iff_getElem] at hstops
    obtain ⟨hilt, rfl⟩ := List.getElem?_eq_some_iff.mp hi
    obtain ⟨hjlt, rfl⟩ := List.getElem?_eq_some_iff.mp hj
    exact hstops i j hilt hjlt hij
  apart := by
    intro s hs s' hs' hlt hnot hnot' t hstop
    obtain ⟨i, hi⟩ := List.mem_iff_getElem?.mp hs
    obtain ⟨j, hj⟩ := List.mem_iff_getElem?.mp hs'
    -- the order of the archive tells which of the two ends first
    rcases Nat.lt_trichotomy i j with hij | rfl | hji
    · cases h.endsFirst_of_lt hi hj hij with
      | inl hinside => exact absurd hinside hnot'
      | inr hbefore =>
        obtain ⟨-, -, t', hstop', hle⟩ := hbefore
        obtain rfl := Option.some.inj (hstop.symm.trans hstop')
        exact hle
    · obtain rfl := Option.some.inj (hi.symm.trans hj)
      exact absurd hlt (Nat.lt_irrefl _)
    · cases h.endsFirst_of_lt hj hi hji with
      | inl hinside => exact absurd hinside hnot
      | inr hbefore => exact absurd hbefore.1 (Nat.lt_asymm hlt)

end Nested

/-! ### Open segments -/

/-- **Orderly** outline: no span is async, and the intervals of the spans nest. -/
structure Outline.Orderly (now : UInt64) (x : Outline) : Prop where
  plain : ∀ m ∈ x.marks, m.isAsync = false
  ledger : x.ledger = none
  nested : Nested now x.nextSpan (x.spans.map Span.interval) (x.marks.map Mark.interval)

namespace Outline

variable {now now' : UInt64} {x : Outline}

theorem Orderly.later (h : x.Orderly now) (hle : now ≤ now') : x.Orderly now' :=
  ⟨h.plain, h.ledger, h.nested.later hle⟩

theorem orderly_new (now : UInt64) (id : String) (sampled : Bool) :
    (new id sampled).Orderly now :=
  ⟨fun m hm => by contradiction, rfl, .nil now⟩

/-- Whether the segment is recorded does not matter. -/
theorem Orderly.resampled (h : x.Orderly now) (sampled : Bool) :
    Orderly now { x with sampled } := ⟨h.plain, h.ledger, h.nested⟩

/-- A placeholder has no interval. -/
theorem marks_placeholder (x : Outline) : marks { x with frames := none :: x.frames } = x.marks :=
  List.reduceOption_cons_of_none _

/-- A span that is opened begins now. -/
theorem Orderly.opened (h : x.Orderly now) (capacity : Nat) (kind : SpanKind) :
    (x.opened capacity kind now).Orderly now := by
  unfold Outline.opened
  split
  · exact ⟨x.marks_placeholder.symm ▸ h.plain, h.ledger, x.marks_placeholder.symm ▸ h.nested⟩
  · split
    · exact ⟨x.marks_placeholder.symm ▸ h.plain, h.ledger, x.marks_placeholder.symm ▸ h.nested⟩
    · refine ⟨fun m hm => ?_, h.ledger, ?_⟩
      · cases List.mem_cons.mp hm with
        | inl hfresh => exact hfresh ▸ rfl
        | inr hold => exact h.plain m hold
      · have hpush := h.nested.push
        unfold fresh at hpush
        rw [List.head?_map, Option.map_map] at hpush
        exact hpush

end Outline

namespace OpenSegment

variable {now : UInt64} {o o' : OpenSegment} {f : Frame} {rest : List Frame} {t t' : Tracer}

theorem closeNow_of_open {s : Span} (h : s.stop = none) (now : UInt64) :
    (closeNow s now).value = { s with stop := some now } := by
  have hopen : s.isClosed = false := by
    unfold Span.isClosed
    rw [h]
    rfl
  simp only [closeNow, Span.closeOr, Span.close, hopen, Bool.false_eq_true, if_false,
    Logged.pure_value]

/-- A span that is stopped ends now, behind those that have ended. -/
theorem orderly_retired (h : o.outline.Orderly now) (hopen : o.AllOpen)
    (hstack : o.stack = f :: rest) (hretired : Retired { o with stack := rest } t now f o' t') :
    o'.outline.Orderly now ∧ t'.ledgers = t.ledgers := by
  have hmarks : o.outline.marks = (f.mark :: rest.map Frame.mark).reduceOption :=
    congrArg List.reduceOption (frames_of_stack hstack)
  cases hretired with
  | dropped name =>
    have hsame : o.outline.marks = (rest.map Frame.mark).reduceOption := hmarks
    have hplain := h.plain
    have hnested := h.nested
    rw [hsame] at hplain hnested
    exact ⟨⟨hplain, h.ledger, hnested⟩, rfl⟩
  | archived hplain =>
    next s =>
    have htop := marks_of_stack hstack
    have hnested := h.nested
    have hplains := h.plain
    rw [htop] at hplains hnested
    have hpop := hnested.pop
    refine ⟨⟨fun m hm => hplains m (List.mem_cons_of_mem _ hm), h.ledger, ?_⟩, rfl⟩
    rw [closeNow_of_open (hopen.top hstack s rfl)]
    have hspans : (o.segment.spans ++ [{ s with stop := some now }]).map Span.interval =
        o.outline.spans.map Span.interval ++ [{ s.mark.interval with stop := some now }] :=
      List.map_append
    exact hspans ▸ hpop
  | deferred hasync hledger =>
    rw [show o.ledger = none from h.ledger] at hledger
    contradiction
  | stray hasync hledger =>
    next s =>
    have hplain : s.isAsync = false := h.plain _ (mark_mem_marks hstack)
    rw [hplain] at hasync
    contradiction

/-- The segment that is handed over when its stack is empty is laminar. -/
theorem isLaminar_of_ending (h : o.outline.Orderly now) (hlast : o.stack = [])
    {due : Option Segment} (hending : Ending o t due t') :
    t'.ledgers = t.ledgers ∧ ∀ g, due = some g → g.IsLaminar := by
  have hledger : o.ledger = none := h.ledger
  cases hending with
  | ignored hignored hconfig hledgers => exact ⟨hledgers, fun g hg => by contradiction⟩
  | plain hsampled hnone hconfig hledgers =>
    refine ⟨hledgers, fun g hg => ?_⟩
    obtain rfl := Option.some.inj hg
    have hnested := h.nested
    rw [show o.outline.marks = [] by simp [Outline.marks, outline, hlast]] at hnested
    exact hnested.isLaminar
  | settled hsampled hsome =>
    rw [hledger] at hsome
    contradiction
  | parked hsampled hsome =>
    rw [hledger] at hsome
    contradiction

end OpenSegment

/-! ### Steps -/

/-- The reply is the handle of a recorded span. -/
def Reply.isAsync : Reply → Bool
  | .handle (.span _ _) => true
  | _ => false

namespace Site

/-- **Orderly** site: no ledger was opened, and the open segment is orderly. -/
structure Orderly (now : UInt64) (s : Site) : Prop where
  allOpen : s.AllOpen
  outline : ∀ x, s.outline? = some x → x.Orderly now
  ledgers : s.tracer.ledgers = []

variable {now : UInt64} {s : Site} {op : StrandOp} {outcome : Outcome Site}

/-- What is left of the segment when its active span was stopped. -/
theorem Orderly.retired (h : s.Orderly now) {o o₁ o' : OpenSegment} {f : Frame} {t : Tracer}
    {expected : Option Int} (hactive : s.strand.active = some o)
    (hpop : o.pop expected = .ok (f, o₁))
    (hretire : (o₁.retire s.tracer f now).value = (o', t)) :
    o'.outline.Orderly now ∧ t.ledgers = [] := by
  obtain ⟨rest, hstack, rfl, -⟩ := OpenSegment.pop_eq_ok hpop
  have hretired := OpenSegment.retired_retire { o with stack := rest } s.tracer f now
  rw [hretire] at hretired
  obtain ⟨horderly, hledgers⟩ := OpenSegment.orderly_retired
    (h.outline _ (outline?_of_active hactive)) (h.allOpen o hactive) hstack hretired
  exact ⟨horderly, hledgers.trans h.ledgers⟩

/-- What an effect leaves is orderly, and what it hands over is laminar. -/
theorem outline_of_effect (h : s.Orderly now) (heffect : Effect now s op outcome)
    (hreply : outcome.reply.isAsync = false) :
    (∀ x, outcome.state.outline? = some x → x.Orderly now) ∧
      outcome.state.tracer.ledgers = [] ∧ ∀ g, outcome.handed = some g → g.IsLaminar := by
  have hnothing : ∀ g, (none : Option Segment) = some g → g.IsLaminar :=
    fun g hg => by contradiction
  have hopening {kind : SpanKind} (hop : op.opens? = some kind) :
      (∀ x, outcome.state.outline? = some x → x.Orderly now) ∧
        outcome.state.tracer.ledgers = [] ∧ ∀ g, outcome.handed = some g → g.IsLaminar := by
    obtain ⟨hhanded, -, hledgers, hout⟩ := Life.opens_of_effect heffect hop
    refine ⟨fun x' hx' => ?_, hledgers.trans h.ledgers, hhanded ▸ hnothing⟩
    rcases hout with ⟨x, b, hbefore, hafter⟩ | ⟨-, id, sampled, hafter⟩
    · obtain rfl := Option.some.inj (hafter.symm.trans hx')
      exact ((h.outline x hbefore).resampled _).opened _ kind
    · obtain rfl := Option.some.inj (hafter.symm.trans hx')
      exact (Outline.orderly_new now id sampled).opened _ kind
  cases heffect with
  | refused e hop => exact ⟨h.outline, h.ledgers, hnothing⟩
  | touched hop hstop hprepare htouch =>
    obtain ⟨htracer, b, hout⟩ := outline?_touches htouch
    refine ⟨fun x' hx' => ?_, (congrArg Tracer.ledgers htracer).trans h.ledgers, hnothing⟩
    obtain ⟨x, hx, rfl⟩ := Option.map_eq_some_iff.mp (hout.symm.trans hx')
    exact (h.outline x hx).resampled _
  | opened hop => exact hopening hop
  | sent => exact hopening rfl
  | prepared hactive hprepare =>
    rcases OpenSegment.prepareAsync_eq_ok hprepare with ⟨rfl, rfl, rfl⟩ | ⟨s, rest, n, t₁, -, -, -,
      rfl, -⟩
    · refine ⟨fun x hx => h.outline x ?_, h.ledgers, hnothing⟩
      rwa [outline?_of_active hactive]
    · contradiction
  | stopped hactive hpop hretire hopen =>
    obtain ⟨horderly, hledgers⟩ := h.retired hactive hpop hretire
    refine ⟨fun x hx => ?_, hledgers, hnothing⟩
    obtain rfl := Option.some.inj hx
    exact horderly
  | ended hactive hpop hretire hlast hfinish =>
    next expected o o₁ o' f t t' due =>
    obtain ⟨horderly, hledgers⟩ := h.retired hactive hpop hretire
    have hending := o'.ending_finish (t := t) fun n hn => by
      rw [show o'.ledger = none from horderly.ledger] at hn
      contradiction
    rw [hfinish] at hending
    obtain ⟨hledgers', hlaminar⟩ := OpenSegment.isLaminar_of_ending horderly hlast hending
    refine ⟨fun x hx => by contradiction, ?_, hlaminar⟩
    exact (t'.reportDue_value due).2.trans (hledgers'.trans hledgers)

theorem Orderly.later {now' : UInt64} (h : s.Orderly now) (hle : now ≤ now') : s.Orderly now' :=
  ⟨h.allOpen, fun x hx => (h.outline x hx).later hle, h.ledgers⟩

/-- **A step of a strand** keeps its site orderly, and what it hands over is laminar. -/
theorem Orderly.step (h : s.Orderly now) (hop : op.ClosesNone)
    (hreply : (s.step now op).value.reply.isAsync = false) :
    (s.step now op).value.state.Orderly now ∧
      ∀ g, (s.step now op).value.handed = some g → g.IsLaminar := by
  obtain ⟨hout, hledgers, hlaminar⟩ := outline_of_effect h (s.effect_of_step now op) hreply
  exact ⟨⟨h.allOpen.step now hop, hout, hledgers⟩, hlaminar⟩

/-- Only the strand counts, as long as there are no ledgers. -/
theorem Orderly.of_strand {s' : Site} (h : s.Orderly now) (hstrand : s'.strand = s.strand)
    (hledgers : s'.tracer.ledgers = []) : s'.Orderly now where
  allOpen := h.allOpen.of_active (congrArg Strand.active hstrand)
  outline := by
    intro x hx
    refine h.outline x ?_
    unfold outline? at hx ⊢
    rwa [← hstrand]
  ledgers := hledgers

theorem orderly_idle (hidle : s.strand.active = none) (hledgers : s.tracer.ledgers = []) :
    s.Orderly now where
  allOpen := by
    intro o ho
    rw [hidle] at ho
    contradiction
  outline := by
    intro x hx
    rw [outline?, hidle] at hx
    contradiction
  ledgers := hledgers

end Site

namespace Engine

/-- **Orderly** engine: no ledger was opened, and all sites are orderly. -/
structure Orderly (now : UInt64) (e : Engine) : Prop where
  ledgers : e.tracer.ledgers = []
  sites : ∀ k s, e.site? k = some s → s.Orderly now

variable {now : UInt64} {e : Engine} {op : Op}

/-- Without ledgers, handles do nothing. -/
theorem quiet_handle (h : e.tracer.ledgers = []) (now : UInt64) (a : AsyncHandle) (hop : HandleOp) :
    (e.step now (.handle a hop)).value.handed = none ∧
      (e.step now (.handle a hop)).value.state.tracer.ledgers = [] := by
  cases a with
  | idle => exact ⟨rfl, h⟩
  | span n id =>
    have hempty : e.tracer.ledger n = {} := Tracer.ledger_eq_empty (h ▸ Nat.zero_le n)
    have hparked : (e.tracer.ledger n).parked = none := hempty ▸ rfl
    obtain ⟨hhanded, -⟩ := Ledger.handle_of_not_parked hparked id now hop
    rw [step_handle]
    refine ⟨hhanded, (Tracer.reportDue_value _ _).2.trans ?_⟩
    unfold Tracer.setLedger
    rw [h]
    rfl

/-- What is handed over in a step, and the ledgers after it. -/
theorem Orderly.handed_step (h : e.Orderly now) (hop : op.ClosesNone)
    (hreply : (e.step now op).value.reply.isAsync = false) :
    (e.step now op).value.state.tracer.ledgers = [] ∧
      ∀ g, (e.step now op).value.handed = some g → g.IsLaminar := by
  have hnothing : ∀ g, (none : Option Segment) = some g → g.IsLaminar :=
    fun g hg => by contradiction
  cases op with
  | strand k sop =>
    cases hsite : e.site? k with
    | none =>
      simp only [step, hsite, Logged.pure_value]
      exact ⟨h.ledgers, hnothing⟩
    | some s =>
      rw [step_strand hsite] at hreply ⊢
      obtain ⟨hnext, hlaminar⟩ := (h.sites k s hsite).step hop hreply
      exact ⟨hnext.ledgers, hlaminar⟩
  | handle a handleOp =>
    obtain ⟨hhanded, hledgers⟩ := quiet_handle h.ledgers now a handleOp
    exact ⟨hledgers, hhanded ▸ hnothing⟩
  | closeStrand k =>
    refine ⟨(e.ledgers_step now (by simp) (by simp)).trans h.ledgers, ?_⟩
    exact hnothing
  | setSuffixes value =>
    refine ⟨(e.ledgers_step now (by simp) (by simp)).trans h.ledgers, ?_⟩
    obtain ⟨reply, suffixes, hvalue⟩ := e.setSuffixes_value now value
    rw [hvalue]
    exact hnothing
  | _ => exact ⟨(e.ledgers_step now (by simp) (by simp)).trans h.ledgers, hnothing⟩

/-- **Every step** keeps the engine orderly, and what it hands over is laminar. -/
theorem Orderly.step (h : e.Orderly now) (hop : op.ClosesNone)
    (hreply : (e.step now op).value.reply.isAsync = false) :
    (e.step now op).value.state.Orderly now ∧
      ∀ g, (e.step now op).value.handed = some g → g.IsLaminar := by
  obtain ⟨hledgers, hlaminar⟩ := h.handed_step hop hreply
  refine ⟨⟨hledgers, fun k s' hsite' => ?_⟩, hlaminar⟩
  have hledgers' : s'.tracer.ledgers = [] := tracer_of_site? hsite' ▸ hledgers
  generalize hstrand : s'.strand = strand
  have hstrides := strides_of_step (strand?_of_site? hsite')
  rw [hstrand] at hstrides
  cases hstrides with
  | still hsame =>
    -- the strand is as it was before the step
    have hbefore := h.sites k ⟨e.tracer, strand⟩ (congrArg (Option.map _) hsame)
    exact hbefore.of_strand hstrand hledgers'
  | new n => exact Site.orderly_idle (hstrand ▸ rfl) hledgers'
  | stepped hsite heq =>
    subst heq
    rw [step_strand hsite] at hreply
    exact ((h.sites k _ hsite).step hop hreply).1.of_strand hstrand hledgers'

theorem Orderly.later {now' : UInt64} (h : e.Orderly now) (hle : now ≤ now') : e.Orderly now' :=
  ⟨h.ledgers, fun k s hs => (h.sites k s hs).later hle⟩

/-- **Every run** hands over laminar segments, if its clock does not go back. -/
theorem Orderly.run (h : e.Orderly now) {ops : List (UInt64 × Op)}
    (hclock : (now :: ops.map Prod.fst).Pairwise (· ≤ ·)) (hops : ∀ x ∈ ops, x.2.ClosesNone)
    (hreplies : ∀ r ∈ e.replies ops, r.isAsync = false) : ∀ g ∈ e.handed ops, g.IsLaminar := by
  induction ops generalizing e now with
  | nil => exact fun g hg => by contradiction
  | cons timed ops ih =>
    obtain ⟨time, op⟩ := timed
    obtain ⟨hfirst, hrest⟩ := List.pairwise_cons.mp hclock
    have hle : now ≤ time := hfirst time List.mem_cons_self
    obtain ⟨hnext, hlaminar⟩ := (h.later hle).step (hops _ List.mem_cons_self)
      (hreplies _ List.mem_cons_self)
    intro g hg
    rcases List.mem_append.mp hg with hnow | hthen
    · exact hlaminar g (Option.mem_toList.mp hnow)
    · exact ih hnext hrest (fun x hx => hops x (List.mem_cons_of_mem _ hx))
        (fun r hr => hreplies r (List.mem_cons_of_mem _ hr)) g hthen

theorem orderly_start (config : Config) (reporter : Reporter) (process : String)
    (start now : UInt64) : (ofTracer (.start config reporter process start)).Orderly now where
  ledgers := rfl
  sites := fun k s hs => by contradiction

/-- **Reported segments are laminar in time.** In a run whose clock does not go back, in
    which no span is closed by an edit and none is prepared for async finish, every
    segment that is handed over has spans that end when they are stopped: each lies
    inside its parent and is archived before it, and of two spans of which none is an
    ancestor of the other, the earlier one has ended when the later one begins. -/
theorem handed_segments_are_laminar (config : Config) (reporter : Reporter) (process : String)
    (start : UInt64) (ops : List (UInt64 × Op)) (hclock : (ops.map Prod.fst).Pairwise (· ≤ ·))
    (hops : ∀ x ∈ ops, x.2.ClosesNone)
    (hreplies : ∀ r ∈ (ofTracer (.start config reporter process start)).replies ops,
      r.isAsync = false) :
    ∀ g ∈ (ofTracer (.start config reporter process start)).handed ops, g.IsLaminar := by
  -- no reading is before zero
  have hzero : (0 :: ops.map Prod.fst).Pairwise (· ≤ ·) :=
    List.pairwise_cons.mpr ⟨fun t _ => UInt64.zero_le, hclock⟩
  exact (orderly_start config reporter process start 0).run hzero hops hreplies

/-- A strand on which two spans are opened one after the other, the second one with a
    span inside. -/
def siblingsRun : List (UInt64 × Op) :=
  [(0, .openStrand), (1, .strand 0 (.inner "root")), (2, .strand 0 (.inner "a")),
    (3, .strand 0 (.stop none)), (4, .strand 0 (.inner "b")), (5, .strand 0 (.inner "c")),
    (6, .strand 0 (.stop none)), (7, .strand 0 (.stop none)), (8, .strand 0 (.stop none))]

theorem handed_segments_are_laminar_siblings :
    let e := ofTracer (.start (.standard "i") .collecting "p" 0)
    (e.handed siblingsRun).map (fun g => g.spans.map fun s => (s.id, s.start, s.stop)) =
        [[(1, 2, some 3), (3, 5, some 6), (2, 4, some 7), (0, 1, some 8)]] ∧
      ∀ g ∈ e.handed siblingsRun, g.IsLaminar := by
  intro e
  refine ⟨by decide +kernel, ?_⟩
  apply handed_segments_are_laminar
  · decide
  · simp [siblingsRun, Op.ClosesNone, StrandOp.ClosesNone]
  · decide +kernel

end Engine
end TraceLink
