import TraceLink.Proofs.Descents
import TraceLink.Proofs.IgnoredTraces
import TraceLink.Proofs.LinkedHops
import TraceLink.Proofs.OutboundCarriers

/-! # Continuing on another strand

    A snapshot is captured of a recorded segment on one strand, and continued on another
    one that is idle, of the same process or not. The next span that is opened there without
    a context of its own begins a recorded segment below the one that was captured.

    Whatever the strands did before, and whatever the configurations are: the new segment is
    in the same trace, it refers to the innermost span that was recorded when the snapshot
    was captured, and as long as no other context is applied to it, its first span is the one
    that shows this reference. -/

namespace TraceLink

open Kinship (Passes)

/-- The kind of the span that an operation opens with no context from outside but the
    captured one. -/
def StrandOp.opensBelow? (c : Captured) : StrandOp → Option SpanKind
  | .entry _ none => some .entry
  | .exit .. => some .exit
  | .inner _ => some .inner
  | .innerWith _ snapshot => if snapshot = .sampled c then some .inner else none
  | _ => none

namespace OpenSegment

/-! ### What is captured -/

/-- The context of a recorded segment, with `x` as its innermost recorded span. -/
def contextAt (o : OpenSegment) (x : Span) : Captured where
  trace := o.segment.trace
  segment := o.segment.id
  span := x.id
  endpoint := o.endpoint? none
  correlation := o.correlation
  extension := o.extension

variable {config : Config} {o : OpenSegment} {x : Span}

theorem capture_of_nearest (hsampled : o.sampled = true) (hx : o.nearestRecorded? = some x) :
    o.capture = .sampled (o.contextAt x) := by
  have hrecorded : ¬ (!o.sampled) = true := by simp [hsampled]
  unfold capture
  rw [if_neg hrecorded, nearestId, hx]
  rfl

/-- What is captured of a sound segment can be continued. -/
theorem Sound.isValid_contextAt (h : o.Sound config) (x : Span) :
    (Snapshot.sampled (o.contextAt x)).isValid = true := by
  unfold Snapshot.isValid
  simp only [Bool.and_eq_true, bne_iff_ne, decide_eq_true_eq]
  exact ⟨⟨h.bearings.trace_ne, h.outline.id_ne⟩, Int.natCast_nonneg x.id⟩

/-! ### The first span -/

/-- **Recording**: the span is the next one of the segment, of this kind. -/
structure Records (o : OpenSegment) (kind : SpanKind) (y : Span) : Prop where
  id : y.id = o.nextSpan
  kind : y.kind = kind
  ref : y.ref = o.pendingRef
  skipAnalysis : y.skipAnalysis = o.extension.skipAnalysis

theorem openSpan_of_room (hsampled : o.sampled = true)
    (hroom : o.isFull config.spanLimit = false) (kind : SpanKind) (name : String) (now : UInt64) :
    ∃ y, o.Records kind y ∧
      (o.openSpan config kind name now none).value.2 =
        (o.afterFresh kind name now).push (.recorded y) := by
  let tags := (o.afterFresh kind name now).entryTags config.autoTagKeys
  refine ⟨{ o.freshSpan kind name now with tags := tags }, ⟨rfl, rfl, rfl, rfl⟩, ?_⟩
  unfold openSpan
  simp only [Logged.bind_value, Logged.pure_value, newFrame_of_room hsampled hroom]
  rw [autoTag_recorded _ _ rfl]
  rfl

theorem openExit_of_room (hsampled : o.sampled = true)
    (hroom : o.isFull config.spanLimit = false) (name peer : String) (k : Option Carrier)
    (now : UInt64) :
    ∃ y, o.Records .exit y ∧
      (o.openExit config name peer k now).value.2.2 =
        (o.afterFresh .exit name now).push (.recorded y) := by
  let tags := (o.afterFresh .exit name now).entryTags config.autoTagKeys
  refine ⟨{ o.freshSpan .exit name now with peer := some peer, tags := tags },
    ⟨rfl, rfl, rfl, rfl⟩, ?_⟩
  have hframe : o.exitFrame config.spanLimit name peer now =
      (.recorded { o.freshSpan .exit name now with peer := some peer },
        o.afterFresh .exit name now) := by
    unfold exitFrame
    rw [newFrame_of_room hsampled hroom]
    rfl
  rw [openExit_value, hframe]
  simp only [autoTag_recorded (o.afterFresh .exit name now) config.autoTagKeys
    (s := { o.freshSpan .exit name now with peer := some peer }) rfl]
  rfl

/-! ### Segments that continue -/

/-- **Resuming**: the segment was begun under the configuration, as its first span `y` was
    opened, below the captured context `c`. -/
structure Resumes (config : Config) (c : Captured) (kind : SpanKind) (o : OpenSegment)
    (y : Span) : Prop where
  stack : o.stack = [.recorded y]
  first : y.id = 0
  kind : y.kind = kind
  sampled : o.sampled = true
  trace : o.segment.trace = c.trace
  parent : o.segment.parent = some (firstRef config c)
  ref : y.ref = some (firstRef config c)
  /-- The entries are taken in order, as far as the limits here go. -/
  correlation : o.correlation =
    ⟨config.correlationLimits, Correlation.admitted config.correlationLimits c.correlation.entries⟩
  segmentSkip : o.segment.skipAnalysis = c.extension.skipAnalysis
  extensionSkip : o.extension.skipAnalysis = c.extension.skipAnalysis
  spanSkip : y.skipAnalysis = c.extension.skipAnalysis
  /-- The reference is used up. -/
  pendingRef : o.pendingRef = none
  archive : o.segment.spans = []
  ledger : o.ledger = none
  nextSpan : o.nextSpan = 1

/-- What is captured of a recorded segment decides for a segment without another decision. -/
theorem start_continued (t : Tracer) (ordinal now : UInt64) (name : String) (c : Captured) :
    ∃ id trace, (start t ordinal now name .undecided (some (.sampled c))).value.1 =
      ((fresh t.config id trace).continueFrom c).value :=
  ⟨_, _, rfl⟩

theorem pendingRef_skipIf (o : OpenSegment) (skip : Bool) :
    (o.skipIf skip).pendingRef = o.pendingRef := by
  cases skip <;> rfl

theorem pendingRef_continueFrom (o : OpenSegment) (c : Captured) :
    (o.continueFrom c).value.pendingRef = some (o.strandRef c) := by
  unfold continueFrom
  simp only [Logged.bind_value, Logged.pure_value, pendingRef_skipIf, link_value]

/-- A segment that continues a captured context has room for its first span. -/
theorem room_continueFrom (hlimit : 1 ≤ config.spanLimit) (id trace : String) (c : Captured) :
    ((fresh config id trace).continueFrom c).value.sampled = true ∧
      ((fresh config id trace).continueFrom c).value.isFull config.spanLimit = false := by
  have hout := outline_continueFrom (fresh config id trace) c
  have hnext : ((fresh config id trace).continueFrom c).value.nextSpan = 0 :=
    congrArg Outline.nextSpan hout
  exact ⟨congrArg Outline.sampled hout, room_of_begun hnext hlimit⟩

theorem resumes_of_records {id trace : String} {c : Captured} (hc : c.correlation.WellFormed)
    {kind : SpanKind} {y : Span}
    (hy : ((fresh config id trace).continueFrom c).value.Records kind y) (name : String)
    (now : UInt64) :
    ((((fresh config id trace).continueFrom c).value.afterFresh kind name now).push
      (.recorded y)).Resumes config c kind y := by
  have hbearings := bearings_continueFrom (fresh config id trace) c
  have hout := outline_continueFrom (fresh config id trace) c
  have href := pendingRef_continueFrom (fresh config id trace) c
  generalize ((fresh config id trace).continueFrom c).value = o at hy hbearings hout href
  have hstack : o.stack = [] := List.map_eq_nil_iff.mp (congrArg Outline.frames hout)
  have hskip : o.extension.skipAnalysis = c.extension.skipAnalysis :=
    (congrArg (fun b => b.extension.skipAnalysis) hbearings).trans (Bool.false_or _)
  have hnext : o.nextSpan = 0 := congrArg Outline.nextSpan hout
  exact
    { stack := congrArg (List.cons _) hstack
      first := hy.id.trans hnext
      kind := hy.kind
      sampled := congrArg Outline.sampled hout
      trace := congrArg Bearings.trace hbearings
      parent := congrArg Bearings.parent hbearings
      ref := hy.ref.trans href
      correlation := (congrArg Bearings.correlation hbearings).trans
        (Correlation.merge_empty_value hc _)
      segmentSkip := (congrArg Bearings.skipAnalysis hbearings).trans (Bool.false_or _)
      extensionSkip := hskip
      spanSkip := hy.skipAnalysis.trans hskip
      pendingRef := rfl
      archive := congrArg Outline.spans hout
      ledger := congrArg Outline.ledger hout
      nextSpan := congrArg (· + 1) hnext }

end OpenSegment

/-! ### Strands that continue -/

namespace Site

variable {s : Site} {c : Captured} {now : UInt64}

/-- The segment that begins while a captured context is pending. -/
theorem segmentFor_of_pending (hidle : s.strand.active = none)
    (hpending : s.strand.continuation = some (.sampled c)) (name : String) (now : UInt64) :
    ∃ id trace s₂, (s.segmentFor name .undecided now).value =
        (((OpenSegment.fresh s.tracer.config id trace).continueFrom c).value, s₂) ∧
      s₂.tracer.config = s.tracer.config ∧
      s₂.tracer.counters = s.tracer.counters.created true false := by
  obtain ⟨id, trace, hstart⟩ :=
    OpenSegment.start_continued s.tracer s.strand.ordinal now name c
  have hconfig := (OpenSegment.outline_start s.tracer s.strand.ordinal now name .undecided
    (some (.sampled c))).2.2
  have hcounters := OpenSegment.counters_start s.tracer s.strand.ordinal now name .undecided
    (some (.sampled c))
  have hsampled : ((OpenSegment.fresh s.tracer.config id trace).continueFrom c).value.sampled =
      true := OpenSegment.sampled_continueFrom _ c
  simp only [hstart, hsampled] at hcounters
  refine ⟨id, trace, ⟨(OpenSegment.start s.tracer s.strand.ordinal now name .undecided
    (some (.sampled c))).value.2, { s.strand with continuation := none }⟩, ?_, hconfig, hcounters⟩
  unfold segmentFor
  simp only [hidle, hpending, Logged.bind_value, Logged.pure_value, hstart]

/-- **Resumed**: the strand begins a segment that resumes the captured context. It is counted
    as one for which the decision was inherited. -/
def Resumed (s : Site) (c : Captured) (kind : SpanKind) (s' : Site) : Prop :=
  ∃ o y, s'.strand.active = some o ∧
    s'.tracer.counters = s.tracer.counters.created true false ∧
    o.Resumes s.tracer.config c kind y

section pending

variable (hidle : s.strand.active = none)
  (hpending : s.strand.continuation = some (.sampled c)) (hc : c.correlation.WellFormed)
  (hlimit : 1 ≤ s.tracer.config.spanLimit)

include hidle hpending hc hlimit

theorem resumed_openSpan (kind : SpanKind) (name : String) (now : UInt64) :
    s.Resumed c kind (s.openSpan kind name .absent now).value.2 := by
  obtain ⟨id, trace, s₂, hsegment, hconfig, hcounters⟩ :=
    segmentFor_of_pending hidle hpending name now
  let o := ((OpenSegment.fresh s.tracer.config id trace).continueFrom c).value
  obtain ⟨hsampled, hroom⟩ := OpenSegment.room_continueFrom hlimit id trace c
  obtain ⟨y, hy, hopen⟩ := OpenSegment.openSpan_of_room hsampled hroom kind name now
  have hvalue : (s.openSpan kind name .absent now).value.2 =
      s₂.withActive ((o.afterFresh kind name now).push (.recorded y)) := by
    unfold openSpan
    simp only [Logged.bind_value, Logged.pure_value, inheritedFrom, hsegment, hconfig]
    rw [hopen]
  rw [hvalue]
  exact ⟨_, y, rfl, hcounters, OpenSegment.resumes_of_records hc hy name now⟩

theorem resumed_exit (name peer : String) (k : Option Carrier) (now : UInt64) :
    s.Resumed c .exit (s.exit name peer k now).value.2.2 := by
  obtain ⟨id, trace, s₂, hsegment, hconfig, hcounters⟩ :=
    segmentFor_of_pending hidle hpending name now
  let o := ((OpenSegment.fresh s.tracer.config id trace).continueFrom c).value
  obtain ⟨hsampled, hroom⟩ := OpenSegment.room_continueFrom hlimit id trace c
  obtain ⟨y, hy, hopen⟩ := OpenSegment.openExit_of_room hsampled hroom name peer k now
  have hvalue : (s.exit name peer k now).value.2.2 =
      s₂.withActive ((o.afterFresh .exit name now).push (.recorded y)) := by
    unfold exit
    simp only [Logged.bind_value, Logged.pure_value, hsegment, hconfig]
    rw [hopen]
  rw [hvalue]
  exact ⟨_, y, rfl, hcounters, OpenSegment.resumes_of_records hc hy name now⟩

end pending

/-- An idle strand on which a captured context is pending resumes it with the next span,
    whatever the sampling gate would decide. -/
theorem resumed_step (hwaits : s.strand.Waits (.sampled c))
    (hvalid : (Snapshot.sampled c).isValid = true) (hc : c.correlation.WellFormed)
    (hlimit : 1 ≤ s.tracer.config.spanLimit) {op : StrandOp} {kind : SpanKind}
    (hop : op.opensBelow? c = some kind) (now : UInt64) :
    s.Resumed c kind (s.step now op).value.state := by
  obtain ⟨hidle, hpending⟩ := hwaits
  cases op with
  | entry name k =>
    cases k with
    | none =>
      obtain rfl := Option.some.inj hop
      exact resumed_openSpan hidle hpending hc hlimit .entry name now
    | some k => contradiction
  | exit name peer k =>
    obtain rfl := Option.some.inj hop
    exact resumed_exit hidle hpending hc hlimit name peer k now
  | inner name =>
    obtain rfl := Option.some.inj hop
    exact resumed_openSpan hidle hpending hc hlimit .inner name now
  | innerWith name snapshot =>
    obtain ⟨rfl, hkind⟩ := Option.ite_none_right_eq_some.mp hop
    obtain rfl := Option.some.inj hkind
    show s.Resumed c _ (s.innerWith name (.sampled c) now).value.2
    rw [innerWith_of_idle hidle, continued_of_idle (by exact hidle) hvalid]
    exact resumed_openSpan (s := { s with strand := { s.strand with
      continuation := some (.sampled c) } }) hidle rfl hc hlimit .inner name now
  | _ => contradiction

/-- The captured context is all that is applied to the segment that begins. -/
theorem offers_of_waits (hwaits : s.strand.Waits (.sampled c))
    (hvalid : (Snapshot.sampled c).isValid = true) {op : StrandOp} {kind : SpanKind}
    (hop : op.opensBelow? c = some kind) :
    s.offers op = [OpenSegment.firstRef s.tracer.config c] := by
  have hrefs : s.pendingRefs = [OpenSegment.firstRef s.tracer.config c] := by
    rw [pendingRefs_of_idle hwaits.idle, hwaits.pending]
    rfl
  cases op with
  | entry name k =>
    cases k with
    | none => exact congrArg (· ++ []) hrefs
    | some k => contradiction
  | exit name peer k => exact hrefs
  | inner name => exact hrefs
  | innerWith name snapshot =>
    obtain ⟨rfl, -⟩ := Option.ite_none_right_eq_some.mp hop
    rw [offers, Strand.isActive, hwaits.idle, if_pos hvalid]
    rfl
  | _ => contradiction

end Site

/-! ### The only reference -/

/-- **Sole reference**: of the recorded spans only the first one refers to a parent. -/
structure Kinship.Sole (κ : Kinship) (ref : ParentRef) : Prop where
  begun : κ.begun = true
  pendingRef : κ.pendingRef = none
  badges : ∀ b ∈ κ.badges, b.2 = if b.1 = 0 then some ref else none

/-- The reference stays the only one until another context is applied. -/
theorem Kinship.Sole.passes {κ κ' : Kinship} {ref : ParentRef} (h : κ.Sole ref)
    (hpasses : Passes [] κ κ') : κ'.Sole ref := by
  generalize hrefs : ([] : List ParentRef) = refs at hpasses
  induction hpasses with
  | still htrace hparent hpending hbegun hbadges =>
    refine ⟨hbegun h.begun, ?_, fun b hb => h.badges b (hbadges hb)⟩
    refine Option.eq_none_iff_forall_ne_some.mpr fun r hr => ?_
    have hsome := hpending r hr
    rw [h.pendingRef] at hsome
    contradiction
  | opened hid =>
    refine ⟨rfl, rfl, fun b hb => ?_⟩
    rcases List.mem_cons.mp hb with rfl | hold
    -- a later span, for which no reference is pending
    · rw [if_neg (hid h.begun)]
      exact h.pendingRef
    · exact h.badges b hold
  | joined ref' htrace hparent => contradiction
  | trans _ _ ih ih' =>
    obtain ⟨hfirst, hsecond⟩ := List.append_eq_nil_iff.mp hrefs.symm
    exact ih' (ih h hfirst.symm) hsecond.symm

theorem OpenSegment.Resumes.sole {config : Config} {c : Captured} {kind : SpanKind}
    {o : OpenSegment} {y : Span} (h : o.Resumes config c kind y) :
    (o.kinship {}).Sole (firstRef config c) where
  begun := decide_eq_true (by rw [h.nextSpan]; exact Nat.one_pos)
  pendingRef := h.pendingRef
  badges := by
    intro b hb
    have hbadges : (o.kinship {}).badges = [(0, some (firstRef config c))] := by
      unfold kinship badges ownSpans
      simp only [h.stack, h.archive]
      show [(y.id, y.ref)] = _
      rw [h.first, h.ref]
    rw [hbadges, List.mem_singleton] at hb
    rw [hb]
    rfl

/-- The span that was opened first is in one of the places. -/
theorem Custody.exists_first {capacity : Nat} {o : OpenSegment} {led : Ledger} {l : Life}
    (h : Custody capacity o.outline led l) (hpos : 1 ≤ capacity) (hbegun : l.openings ≠ []) :
    ∃ b ∈ o.badges ++ led.badges, b.1 = 0 := by
  have hids := h.ids
  have hlength := List.length_pos_iff.mpr hbegun
  rw [OpenSegment.origins_outline, List.map_map, h.count] at hids
  have hroom : 0 < min l.openings.length capacity := Nat.lt_min.mpr ⟨hlength, hpos⟩
  obtain ⟨x, hx, hid⟩ := List.mem_map.mp (hids.mem_iff.mpr (List.mem_range.mpr hroom))
  refine ⟨x.badge, ?_, hid⟩
  rw [OpenSegment.badges, Ledger.badges, ← List.map_append]
  exact List.mem_map_of_mem hx

namespace Engine

/-- The open segment of the life is ignored. -/
def IgnoresLife (e : Engine) (l : Life) : Prop :=
  ∃ k, l.stage = .running k ∧ e.Ignores k

variable {capacity : Nat} {e : Engine} {ls : List Life} {l : Life} {κ : Kinship}

/-- The first span of a segment that is not ignored is never lost. -/
theorem Tells.exists_first (h : e.Tells capacity ls) (hl : l ∈ ls) (hpos : 1 ≤ capacity)
    (hholds : e.Holds l κ) : (∃ b ∈ κ.badges, b.1 = 0) ∨ e.IgnoresLife l := by
  cases hholds with
  | running hstage hopen =>
    next k o =>
    cases h.status l hl with
    | resting hrests => exact absurd hstage (hrests.stage_ne k)
    | running hstage' hsite hruns =>
      obtain rfl := Stage.running.inj (hstage.symm.trans hstage')
      obtain rfl := hruns.outline_eq ((open?_of_site? hsite).symm.trans hopen)
      cases hsampled : o.sampled with
      | false => exact .inr ⟨_, hstage, o, hopen, hsampled⟩
      | true =>
        have hcustody := hruns.custody hsampled
        rw [tracer_of_site? hsite] at hcustody
        exact .inl (hcustody.exists_first hpos hruns.begun)
  | parked hparked =>
    next g =>
    cases h.status l hl with
    | running hstage hsite hruns =>
      rw [← tracer_of_site? hsite, hruns.parked] at hparked
      contradiction
    | resting hrests =>
      cases hrests with
      | waiting hstage hledger hpending hbegun hreports hwaits hstack hcustody =>
        next o n =>
        have hof : e.tracer.ledgerOf l.ledger? = e.tracer.ledger n := by
          rw [hledger]
          rfl
        rw [hof] at hparked ⊢
        obtain rfl := Option.some.inj (hwaits.symm.trans hparked)
        have hfirst := hcustody.exists_first hpos hbegun
        rw [OpenSegment.badges, OpenSegment.ownSpans, hstack] at hfirst
        exact .inl hfirst
      | reported hdue hreports hid htree hnone =>
        rw [hnone] at hparked
        contradiction
      | gone hstage hreports hnone =>
        rw [hnone] at hparked
        contradiction
  | handed hreport =>
    next g =>
    obtain ⟨-, -, -, htree⟩ := (h.status l hl).of_mem_reports hreport
    have htree := htree hpos
    have hroom : 0 < min l.openings.length capacity :=
      Nat.lt_min.mpr ⟨List.length_pos_iff.mpr htree.begun, hpos⟩
    obtain ⟨x, hx, hid⟩ := List.mem_map.mp (htree.ids.mem_iff.mpr (List.mem_range.mpr hroom))
    exact .inl ⟨x.badge, List.mem_append_left _ (List.mem_map_of_mem hx), hid⟩

/-- Capturing has no effect. -/
theorem step_capture {k : Nat} {s : Site} (hsite : e.site? k = some s) (now : UInt64) :
    e.step now (.strand k .capture) = pure (.of (.snapshot s.capture) e) := by
  simp only [step, hsite, Site.step, pure_bind, Outcome.map, Outcome.of, setSite_self hsite]

/-- **Only reference**: at the end of the run the segment is open on the strand at place `k`,
    and `ref` is all that was offered to it. However the run goes on, as long as this is so
    only its first span refers to a parent, which is `ref`. -/
def OnlyReference (e : Engine) (ops : List (UInt64 × Op)) (k : Nat) (segment : String)
    (ref : ParentRef) : Prop :=
  ∃ (i : Nat) (d : Descent), (e.descents ops)[i]? = some d ∧ d.life.stage = .running k ∧
    d.life.segment = segment ∧ d.offers = [ref] ∧
    ∀ more, ∃ d', (e.descents (ops ++ more))[i]? = some d' ∧ d.Continues d' ∧
      (d'.offers = [ref] → ∀ κ, (e.run (ops ++ more)).Holds d'.life κ → κ.Sole ref ∧
        ((0, some ref) ∈ κ.badges ∨ (e.run (ops ++ more)).IgnoresLife d'.life))

theorem only_reference (config : Config) (reporter : Reporter) (process : String)
    (start : UInt64) {ops : List (UInt64 × Op)} {k : Nat} {s : Site} {c : Captured}
    (hsite : ((ofTracer (.start config reporter process start)).run ops).site? k = some s)
    (hwaits : s.strand.Waits (.sampled c)) (hvalid : (Snapshot.sampled c).isValid = true)
    (hlimit : 1 ≤ config.spanLimit) {t : UInt64} {op : StrandOp} {kind : SpanKind}
    (hop : op.opensBelow? c = some kind) {o : OpenSegment} {y : Span}
    (hopen : ((ofTracer (.start config reporter process start)).run
      (ops ++ [(t, .strand k op)])).open? k = some o)
    (hresumes : o.Resumes config c kind y) :
    (ofTracer (.start config reporter process start)).OnlyReference (ops ++ [(t, .strand k op)]) k
      o.segment.id (OpenSegment.firstRef config c) := by
  let e₀ := ofTracer (.start config reporter process start)
  let begun := ops ++ [(t, Op.strand k op)]
  have htells := tells_descents config reporter process start
  have hconfig : s.tracer.config = config :=
    ((Strand.sound_invariant config).of_run reporter process start ops hsite).1
  have hrun : e₀.run begun = ((e₀.run ops).step t (.strand k op)).value.state :=
    run_append e₀ ops _
  have hds : e₀.descents begun = (e₀.run ops).descentsAfter t (.strand k op) (e₀.descents ops) :=
    e₀.descentsFrom_append [] ops _
  have hstop : ∀ expected, op ≠ .stop expected := by
    rintro expected rfl
    contradiction
  obtain ⟨d, hd, hstage, hsegment, hoffers⟩ :=
    exists_descent_begun hsite hwaits.idle hstop (hrun ▸ hopen) (e₀.descents ops)
  rw [← hds] at hd
  rw [Site.offers_of_waits hwaits hvalid hop, hconfig] at hoffers
  -- at first the kinship is that of the segment which resumes the context
  have hsole : ∀ κ, (e₀.run begun).Holds d.life κ → κ.Sole (OpenSegment.firstRef config c) := by
    intro κ hholds
    obtain ⟨s', hsite', hactive⟩ := site?_of_open? hopen
    have hmem : d.life ∈ (e₀.descents begun).map Descent.life :=
      List.mem_map_of_mem (List.mem_of_getElem? hd)
    obtain ⟨x, hruns, -⟩ := (htells begun).runs hmem hstage hsite'
    obtain ⟨o', hactive', -, rfl⟩ := hholds.of_runs hstage hsite' hruns
    obtain rfl := Option.some.inj (hactive.symm.trans hactive')
    rw [hresumes.ledger]
    exact hresumes.sole
  refine ⟨_, d, hd, hstage, hsegment, hoffers, fun more => ?_⟩
  have hmore : e₀.descents (begun ++ more) =
      (e₀.run begun).descentsFrom (e₀.descents begun) more := e₀.descentsFrom_append [] begun more
  obtain ⟨d', hd', hcontinues⟩ := continues_descentsFrom (e := e₀.run begun) hd more
  refine ⟨d', hmore ▸ hd', hcontinues, fun hsame κ hholds => ?_⟩
  have hkept : κ.Sole (OpenSegment.firstRef config c) :=
    (htells begun).kept_run (fun κ κ' hpasses hκ => hκ.passes hpasses) hd hsole hd'
      (hsame.trans hoffers.symm) κ (run_append e₀ begun more ▸ hholds)
  have hmem : d'.life ∈ (e₀.descents (begun ++ more)).map Descent.life :=
    List.mem_map_of_mem (List.mem_of_getElem? (hmore ▸ hd'))
  have hcapacity : 1 ≤ config.capacity := Nat.le_min.mpr ⟨hlimit, by decide⟩
  refine ⟨hkept, ?_⟩
  rcases (htells (begun ++ more)).exists_first hmem hcapacity hholds with ⟨b, hb, hfirst⟩ | hignored
  · have hbadge : b = (0, some (OpenSegment.firstRef config c)) :=
      Prod.ext hfirst ((hkept.badges b hb).trans (if_pos hfirst))
    exact .inl (hbadge ▸ hb)
  · exact .inr hignored

/-- **Continuing on another strand**, end to end. Of every recorded segment that an engine
    comes to a valid snapshot is captured, which changes nothing. On every idle strand of every
    engine on which it is continued, whatever happens elsewhere in between, the next span that
    is opened with no other context begins a segment that resumes it. -/
theorem continued_elsewhere (config : Config) (reporter : Reporter) (process : String)
    (start : UInt64) (ops : List (UInt64 × Op)) {k : Nat} {o : OpenSegment}
    (hopen : ((ofTracer (.start config reporter process start)).run ops).open? k = some o)
    (hsampled : o.sampled = true) (hlimit : 1 ≤ config.spanLimit) :
    let e := (ofTracer (.start config reporter process start)).run ops
    ∃ x, o.nearestRecorded? = some x ∧
      (∀ now, e.step now (.strand k .capture) =
        pure (.of (.snapshot (some (.sampled (o.contextAt x)))) e)) ∧
      (Snapshot.sampled (o.contextAt x)).isValid = true ∧
      ∀ (config' : Config) (reporter' : Reporter) (process' : String) (start' : UInt64)
        (before more : List (UInt64 × Op)) (k' : Nat) (s : Site) (t t' : UInt64)
        (op : StrandOp) (kind : SpanKind),
        let e₀ := ofTracer (.start config' reporter' process' start')
        let waiting := before ++ (t, .strand k' (.continued (.sampled (o.contextAt x)))) :: more
        let begun := waiting ++ [(t', .strand k' op)]
        let ref : ParentRef := ⟨.thread, o.segment.trace, o.segment.id, x.id,
          config'.serviceName, config'.instanceName, (o.endpoint? none).getD ""⟩
        (e₀.run before).site? k' = some s → s.strand.active = none → 1 ≤ config'.spanLimit →
        (∀ timed ∈ more, timed.2.KeepsPending k') →
        op.opensBelow? (o.contextAt x) = some kind →
        ∃ o' y, (e₀.run begun).open? k' = some o' ∧
          (e₀.run begun).tracer.counters =
            (e₀.run waiting).tracer.counters.created true false ∧
          o'.Resumes config' (o.contextAt x) kind y ∧
          o'.segment.parent = some ref ∧ y.ref = some ref ∧
          e₀.OnlyReference begun k' o'.segment.id ref := by
  intro e
  obtain ⟨producer, hsite, hactive⟩ := site?_of_open? hopen
  obtain ⟨-, hsound⟩ := (Strand.sound_invariant config).of_run reporter process start ops hsite
  have ho := hsound.active o hactive
  have htells := ((tells_start config reporter process start).run ops).1
  obtain ⟨x, hx⟩ := htells.exists_nearest (Nat.le_min.mpr ⟨hlimit, by decide⟩) hopen hsampled
  have hvalid := ho.isValid_contextAt x
  refine ⟨x, hx, fun now => ?_, hvalid, ?_⟩
  · have hcapture : producer.capture = some (.sampled (o.contextAt x)) := by
      rw [Site.capture, hactive, Option.map_some, OpenSegment.capture_of_nearest hsampled hx]
    rw [step_capture hsite, hcapture]
  · intro config' reporter' process' start' before more k' s t t' op kind e₀ waiting begun ref
      hsite' hidle hlimit' hmore hop
    have hrun : e₀.run waiting = (((e₀.run before).step t
        (.strand k' (.continued (.sampled (o.contextAt x))))).value.state).run more :=
      run_append e₀ before _
    obtain ⟨s', hpending, hwaits⟩ := waits_continued hsite' hidle hvalid t hmore
    rw [← hrun] at hpending
    have hconfig : s'.tracer.config = config' :=
      ((Strand.sound_invariant config').of_run reporter' process' start' waiting hpending).1
    obtain ⟨o', y, hactive', hcounters, hresumes⟩ := Site.resumed_step hwaits hvalid
      ho.bearings.correlation.2 (hconfig.symm ▸ hlimit') hop t'
    rw [hconfig] at hresumes
    have hbegun : e₀.run begun = (e₀.run waiting).setSite k' (s'.step t' op).value.state := by
      refine (run_append e₀ waiting _).trans ?_
      show ((e₀.run waiting).step t' (.strand k' op)).value.state = _
      rw [step_strand hpending]
      rfl
    have hopen' : (e₀.run begun).open? k' = some o' := by
      rw [hbegun]
      exact (open?_of_site? (site?_setSite hpending _)).trans hactive'
    refine ⟨o', y, hopen', ?_, hresumes, hresumes.parent, hresumes.ref, ?_⟩
    · rw [hbegun, ← tracer_of_site? hpending]
      exact hcounters
    · exact only_reference config' reporter' process' start' hpending hwaits hvalid hlimit' hop
        hopen' hresumes

/-- A tracer that records one span of a segment. -/
def brief : Config := { Config.standard "shop-1" with spanLimit := 1 }

/-- A request that stores two entries, inside a span that is not recorded any more. -/
def cartRun : List (UInt64 × Op) :=
  [(1, .openStrand), (2, .strand 0 (.entry "/cart" none)),
    (3, .strand 0 (.putCorrelation "note" "longer than the worker allows")),
    (4, .strand 0 (.putCorrelation "user" "ann")), (5, .strand 0 (.inner "query"))]

/-- A tracer that would record nothing, and takes one short entry. -/
def worker : Config :=
  { Config.standard "worker-1" with sampleRate := 0, correlationLimits := ⟨1, 8⟩ }

theorem continued_elsewhere_worker :
    ∃ o x, ((ofTracer (.start brief .collecting "a" 0)).run cartRun).open? 0 = some o ∧
      o.nearestRecorded? = some x ∧ x.id = 0 ∧ o.active?.bind Frame.span? = none ∧
      let e₀ := ofTracer (.start worker .collecting "b" 0)
      let begun := [(6, Op.openStrand), (7, .strand 0 (.continued (.sampled (o.contextAt x)))),
        (8, .openStrand), (9, .strand 0 (.inner "/logo.png"))]
      let ref : ParentRef := ⟨.thread, o.segment.trace, o.segment.id, 0,
        worker.serviceName, "worker-1", (o.endpoint? none).getD ""⟩
      ∃ o', (e₀.run begun).open? 0 = some o' ∧ o'.segment.trace = o.segment.trace ∧
        o'.segment.parent = some ref ∧ o'.correlation = ⟨⟨1, 8⟩, [("user", "ann")]⟩ ∧
        e₀.OnlyReference begun 0 o'.segment.id ref := by
  have hrun : (((ofTracer (.start brief .collecting "a" 0)).run cartRun).open? 0).any (fun o =>
      o.sampled && o.correlation.entries ==
        [("note", "longer than the worker allows"), ("user", "ann")] &&
      (o.active?.bind Frame.span?).isNone && o.nearestRecorded?.map (·.id) == some 0) = true := by
    decide +kernel
  obtain ⟨o, hopen, hrun⟩ := (Option.any_eq_true _ _).mp hrun
  simp only [Bool.and_eq_true, beq_iff_eq, Option.isNone_iff_eq_none] at hrun
  obtain ⟨⟨⟨hsampled, hentries⟩, hactive⟩, hnearest⟩ := hrun
  have hidle : (((ofTracer (.start worker .collecting "b" 0)).run [(6, .openStrand)]).site? 0).any
      (fun s => s.strand.active.isNone) = true := by decide +kernel
  obtain ⟨s, hsite, hidle⟩ := (Option.any_eq_true _ _).mp hidle
  obtain ⟨x, hx, -, -, hcontinued⟩ :=
    continued_elsewhere brief .collecting "a" 0 cartRun hopen hsampled (by decide)
  have hid : x.id = 0 := by
    rw [hx] at hnearest
    exact Option.some.inj hnearest
  obtain ⟨o', y, hopen', -, hresumes, hparent, -, honly⟩ :=
    hcontinued worker .collecting "b" 0 [(6, .openStrand)] [(8, .openStrand)] 0 s 7 9
      (.inner "/logo.png") .inner hsite (Option.isNone_iff_eq_none.mp hidle) (by decide)
      (by simp [Op.KeepsPending]) rfl
  rw [hid] at hparent honly
  refine ⟨o, x, hopen, hx, hid, hactive, o', hopen', hresumes.trace, hparent, ?_, honly⟩
  have hcorrelation := hresumes.correlation
  rw [show (o.contextAt x).correlation.entries = o.correlation.entries from rfl, hentries]
    at hcorrelation
  rw [hcorrelation]
  decide +kernel

end Engine

end TraceLink
