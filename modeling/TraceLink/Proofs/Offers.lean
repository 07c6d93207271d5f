import TraceLink.Proofs.Aspects
import TraceLink.Proofs.Kinship

/-! # What is applied to a segment

    Which contexts from outside a step applies to the segment of a strand can be told from
    the operation and the state before it: the continuation that is pending when the
    segment begins, the context in the carrier of an entry span, one that is extracted,
    and a snapshot that is continued. Their references are what the step *offers* to the
    segment.

    A step passes the kinship of the segment by what it offers, in this order. A segment
    begins with the trace id that is generated for it. -/

namespace TraceLink

open Kinship (Passes)

/-! ### What an operation applies -/

namespace Site

/-- The parent that an inbound context names. -/
def inboundRefs : Inbound → List ParentRef
  | .remote c => [OpenSegment.remoteRef c]
  | _ => []

/-- The parent that a snapshot names which a segment continues from its beginning. An
    ignored one names none. -/
def firstRefs (c : Config) : Option Snapshot → List ParentRef
  | some (.sampled captured) => [OpenSegment.firstRef c captured]
  | _ => []

/-- The parent of the pending continuation, which a segment takes when it begins. -/
def pendingRefs (s : Site) : List ParentRef :=
  if s.strand.isActive then [] else firstRefs s.tracer.config s.strand.continuation

/-- The parent that a snapshot names when it is continued in the open segment. One that is
    invalid or of the segment itself is skipped. -/
def continuedRefs (s : Site) (snapshot : Snapshot) : List ParentRef :=
  match s.strand.active, snapshot with
  | some o, .sampled c =>
    if snapshot.isValid && !s.strand.isCurrent snapshot then [o.strandRef c] else []
  | _, _ => []

/-- **Offers**: the parents in the contexts that an operation applies to the segment of the
    strand, in order. -/
def offers (s : Site) : StrandOp → List ParentRef
  | .entry _ k => s.pendingRefs ++ inboundRefs (s.inboundOf k)
  | .entryFrom _ headers =>
    s.pendingRefs ++ inboundRefs (s.inboundOf (some (.readFrom headers s.label)))
  | .exit .. | .inner _ => s.pendingRefs
  | .innerWith _ snapshot =>
    if s.strand.isActive then s.continuedRefs snapshot
    else if snapshot.isValid then firstRefs s.tracer.config (some snapshot)
    else []
  | .continued snapshot => s.continuedRefs snapshot
  | .extract k => if s.strand.isActive then inboundRefs (s.readCarrier k).value else []
  | _ => []

/-- The trace id that is generated for a segment that begins on the strand. -/
def ownTrace (s : Site) (now : UInt64) : String :=
  ((s.tracer.ids.generate s.strand.ordinal now).2.generate s.strand.ordinal now).1

/-- The kinship of the segment of the strand, which is new while the strand is idle. -/
def kinship (s : Site) (now : UInt64) (led : Ledger) : Kinship :=
  match s.strand.active with
  | some o => o.kinship led
  | none => .new (s.ownTrace now)

variable {s s' : Site} {now : UInt64} {led : Ledger}

theorem kinship_of_active {o : OpenSegment} (h : s.strand.active = some o) (now : UInt64)
    (led : Ledger) : s.kinship now led = o.kinship led := by
  rw [kinship, h]

theorem kinship_of_idle (h : s.strand.active = none) (now : UInt64) (led : Ledger) :
    s.kinship now led = .new (s.ownTrace now) := by
  rw [kinship, h]

theorem pendingRefs_of_active {o : OpenSegment} (h : s.strand.active = some o) :
    s.pendingRefs = [] := by
  rw [pendingRefs, Strand.isActive, h]
  rfl

theorem pendingRefs_of_idle (h : s.strand.active = none) :
    s.pendingRefs = firstRefs s.tracer.config s.strand.continuation := by
  rw [pendingRefs, Strand.isActive, h]
  rfl

/-! ### Opening spans -/

/-- A segment begins with the trace id that is generated for it, and takes the pending
    continuation. -/
theorem passes_start (s : Site) (name : String) (inherited : Inherited) (now : UInt64)
    (hled : led.badges = []) :
    Passes (firstRefs s.tracer.config s.strand.continuation) (.new (s.ownTrace now))
      ((OpenSegment.start s.tracer s.strand.ordinal now name inherited
        s.strand.continuation).value.1.kinship led) := by
  have hnew {o : OpenSegment} (h : o.kinship led =
      { Kinship.new (s.ownTrace now) with badges := led.badges }) :
      Passes [] (.new (s.ownTrace now)) (o.kinship led) := by
    rw [h, hled]
    exact .refl _
  have hbearings := OpenSegment.bearings_start s.tracer s.strand.ordinal now name inherited
    s.strand.continuation
  cases hpending : s.strand.continuation with
  | none => exact hnew rfl
  | some snapshot =>
    cases snapshot with
    | ignored segment => exact hnew rfl
    | sampled c =>
      rw [hpending] at hbearings
      obtain ⟨-, trace, -, hjoined⟩ := hbearings
      exact .joined _ (congrArg Bearings.trace hjoined) (congrArg Bearings.parent hjoined)

theorem passes_segmentFor {s₂ : Site} {o : OpenSegment} {name : String} {inherited : Inherited}
    (h : (s.segmentFor name inherited now).value = (o, s₂))
    (hled : s.strand.active = none → led.badges = []) :
    Passes s.pendingRefs (s.kinship now led) (o.kinship led) := by
  rcases segmentFor_cases h with ⟨hactive, -⟩ | ⟨hidle, rfl, -⟩
  · rw [pendingRefs_of_active hactive, kinship_of_active hactive]
    exact .refl _
  · rw [pendingRefs_of_idle hidle, kinship_of_idle hidle]
    exact s.passes_start name inherited now (hled hidle)

theorem passes_openSpan (s : Site) (led : Ledger) (kind : SpanKind) (name : String)
    (inbound : Inbound) (now : UInt64) (hled : s.strand.active = none → led.badges = []) :
    Passes (s.pendingRefs ++ inboundRefs inbound) (s.kinship now led)
      ((s.openSpan kind name inbound now).value.2.kinship now led) := by
  obtain ⟨o, s₂, hsegment, hvalue⟩ := s.openSpan_value name now kind inbound
  rw [hvalue]
  have hopen := OpenSegment.passes_openSpan s₂.tracer.config o kind name now
    (inheritedFrom inbound).2 led
  have hrefs : ((inheritedFrom inbound).2.map OpenSegment.remoteRef).toList =
      inboundRefs inbound := by
    cases inbound <;> rfl
  rw [hrefs] at hopen
  exact (passes_segmentFor hsegment hled).trans hopen

theorem passes_exit (s : Site) (name peer : String) (k : Option Carrier) (now : UInt64)
    (hled : s.strand.active = none → led.badges = []) :
    Passes s.pendingRefs (s.kinship now led)
      ((s.exit name peer k now).value.2.2.kinship now led) := by
  obtain ⟨o, s₂, hsegment, hvalue⟩ := s.exit_value name now peer k
  rw [hvalue]
  exact (passes_segmentFor hsegment hled).after
    (OpenSegment.passes_openExit s₂.tracer.config o name peer k now led)

/-! ### Contexts for the open segment -/

theorem passes_continued (s : Site) (snapshot : Snapshot) (now : UInt64) (led : Ledger) :
    Passes (s.continuedRefs snapshot) (s.kinship now led)
      ((s.continued snapshot).value.kinship now led) := by
  have h := s.continued_spec snapshot
  generalize (s.continued snapshot).value = s' at h ⊢
  cases h with
  | invalid hvalid =>
    have hrefs : s.continuedRefs snapshot = [] := by
      unfold continuedRefs
      split
      · rw [hvalid]
        rfl
      · rfl
    rw [hrefs]
    exact .refl _
  | pending hidle hvalid =>
    -- the snapshot waits for the segment that begins next
    have hrefs : s.continuedRefs snapshot = [] := by
      unfold continuedRefs
      rw [hidle]
    rw [hrefs, kinship_of_idle hidle, kinship_of_idle (by exact hidle)]
    exact .refl _
  | ignored hactive id =>
    have hrefs : s.continuedRefs (.ignored id) = [] := by
      unfold continuedRefs
      rw [hactive]
    rw [hrefs, kinship_of_active hactive]
    exact .refl _
  | own hactive hvalid hown =>
    next o c =>
    have hrefs : s.continuedRefs (.sampled c) = [] := by
      unfold continuedRefs
      simp only [hactive, hown, Bool.not_true, Bool.and_false, Bool.false_eq_true, if_false]
    rw [hrefs]
    exact .refl _
  | joined hactive hvalid hother =>
    next o c =>
    have hrefs : s.continuedRefs (.sampled c) = [o.strandRef c] := by
      unfold continuedRefs
      simp only [hactive, hvalid, hother, Bool.not_false, Bool.and_true, if_true]
    rw [hrefs, kinship_of_active hactive]
    exact OpenSegment.passes_of_bearings (OpenSegment.bearings_continueFrom o c) led led

theorem receive_of_stack {o : OpenSegment} {f : Frame} {rest : List Frame}
    (hstack : o.stack = f :: rest) (c : RemoteContext) (now : UInt64) :
    ∃ step, o.receive c now = .ok step ∧
      let applied := (OpenSegment.applyInbound { o with stack := rest } f c now).value
      step.value = applied.2.push applied.1 := by
  unfold OpenSegment.receive OpenSegment.pop
  rw [hstack]
  exact ⟨_, rfl, rfl⟩

/-- A carrier can be read as long as a span is open. -/
theorem receive_of_active (now : UInt64) {o : OpenSegment} {f : Frame} {rest : List Frame}
    (hactive : s.strand.active = some o) (hstack : o.stack = f :: rest) (inbound : Inbound)
    (led : Ledger) :
    ∃ step, s.receive inbound now = .ok step ∧
      Passes (inboundRefs inbound) (o.kinship led) (step.value.kinship now led) := by
  have hstill : Passes [] (o.kinship led) (s.kinship now led) := by
    rw [kinship_of_active hactive]
    exact .refl _
  cases inbound with
  | absent =>
    rw [receive, active_eq_ok.mpr hactive]
    exact ⟨_, rfl, hstill⟩
  | ignored =>
    rw [receive, active_eq_ok.mpr hactive]
    exact ⟨_, rfl, hstill⟩
  | remote c =>
    obtain ⟨step, hreceive, hvalue⟩ := receive_of_stack hstack c now
    have hjoined := OpenSegment.bearings_applyInbound { o with stack := rest } f c now
    have hpushed : step.value.bearings = o.bearings.joined
        (OpenSegment.remoteRef c) c.correlation c.extension.skipAnalysis := by
      rw [hvalue]
      exact hjoined
    refine ⟨_, receive_remote_eq_ok.mpr ⟨o, hactive, _, hreceive, rfl⟩, ?_⟩
    exact OpenSegment.passes_of_bearings hpushed led led

theorem passes_innerWith (s : Site) (name : String) (snapshot : Snapshot) (now : UInt64)
    (hled : s.strand.active = none → led.badges = []) :
    Passes (s.offers (.innerWith name snapshot)) (s.kinship now led)
      ((s.innerWith name snapshot now).value.2.kinship now led) := by
  rw [offers, Strand.isActive]
  cases hactive : s.strand.active with
  | some o =>
    rw [innerWith_of_active hactive, Option.isSome_some, if_pos rfl]
    have hcontinued := s.passes_continued snapshot now led
    -- the segment stays open, so nothing is pending for the span
    obtain ⟨-, b, hout⟩ := outline?_touches (s.touches_continued now snapshot)
    rw [outline?_of_active hactive] at hout
    obtain ⟨o', hactive', -⟩ := Option.map_eq_some_iff.mp hout
    have hopen := (s.continued snapshot).value.passes_openSpan led .inner name .absent now
      fun hnone => by rw [hactive'] at hnone; contradiction
    rw [pendingRefs_of_active hactive'] at hopen
    exact hcontinued.after hopen
  | none =>
    rw [innerWith_of_idle hactive, Option.isSome_none, if_neg Bool.false_ne_true,
      kinship_of_idle hactive]
    -- only the snapshot itself is pending when the segment begins
    have hbegun (s' : Site) (hidle : s'.strand.active = none)
        (hown : s'.ownTrace now = s.ownTrace now) := by
      have hopen := s'.passes_openSpan led .inner name .absent now
        fun _ => hled hactive
      rw [kinship_of_idle hidle, hown, pendingRefs_of_idle hidle,
        show inboundRefs .absent = [] from rfl, List.append_nil] at hopen
      exact hopen
    cases hvalid : snapshot.isValid with
    | false =>
      rw [continued_of_invalid hvalid]
      exact hbegun { s with strand := { s.strand with continuation := none } } hactive rfl
    | true =>
      rw [continued_of_idle (by exact hactive) hvalid]
      exact hbegun { s with strand := { s.strand with continuation := some snapshot } } hactive rfl

/-- **A step of a strand** passes the kinship of its segment by what is applied to it, if no
    span is stopped or prepared. -/
theorem passes_step (s : Site) (now : UInt64) (led : Ledger) {op : StrandOp}
    (hstop : ∀ expected, op ≠ .stop expected)
    (hprepare : op ≠ .prepareAsync) (hstack : ∀ o, s.strand.active = some o → o.stack ≠ [])
    (hled : s.strand.active = none → led.badges = []) :
    Passes (s.offers op) (s.kinship now led) ((s.step now op).value.state.kinship now led) := by
  have hrefl : Passes [] (s.kinship now led) (s.kinship now led) := .refl _
  cases op with
  | entry name k =>
    have hopen := s.passes_openSpan led .entry name (s.inboundOf k) now hled
    rw [← entry_value] at hopen
    exact hopen
  | entryFrom name headers =>
    have hopen := s.passes_openSpan led .entry name
      (s.inboundOf (some (.readFrom headers s.label))) now hled
    rw [← entry_value] at hopen
    exact hopen
  | exit name peer k => exact s.passes_exit name peer k now hled
  | inner name =>
    have hopen := s.passes_openSpan led .inner name .absent now hled
    rw [show inboundRefs .absent = [] from rfl, List.append_nil] at hopen
    exact hopen
  | innerWith name snapshot => exact s.passes_innerWith name snapshot now hled
  | stop expected => exact absurd rfl (hstop expected)
  | capture => exact hrefl
  | continued snapshot => exact s.passes_continued snapshot now led
  | discard =>
    show Passes [] _ (s.discard.value.2.kinship now led)
    rw [discard_value]
    exact hrefl
  | inject k =>
    rw [state_inject]
    exact hrefl
  | extract k =>
    show Passes _ _ (Site.kinship (Outcome.ofAttempt .usage _).value.state now led)
    rw [offers]
    cases hactive : s.strand.active with
    | none =>
      rw [receive_of_idle hactive, Strand.isActive, hactive]
      exact hrefl
    | some o =>
      obtain ⟨f, rest, hframes⟩ := List.exists_cons_of_ne_nil (hstack o hactive)
      obtain ⟨step, hreceive, hpasses⟩ := receive_of_active now hactive hframes
        (s.readCarrier k).value led
      rw [hreceive, Strand.isActive, hactive, kinship_of_active hactive]
      exact hpasses
  | active =>
    rw [state_active]
    exact hrefl
  | edit edits =>
    refine Outcome.keeps_ofAttempt
      (P := fun s' => Passes [] (s.kinship now led) (s'.kinship now led))
      (s.atomic_edit now edits) hrefl fun step hresult => ?_
    obtain ⟨o, f, rest, hactive, hframes, hedited⟩ := edit_eq_ok hresult
    show Passes [] _ (step.value.2.2.kinship now led)
    rw [hedited, kinship_of_active hactive]
    show Passes [] _ (OpenSegment.kinship { o with stack := _ :: rest } led)
    rw [OpenSegment.kinship_of_stack hframes (f.badge?_editAll now edits)]
    exact .refl _
  | prepareAsync => exact absurd rfl hprepare
  | putCorrelation key value =>
    show Passes [] _ ((s.putCorrelation key value).value.2.kinship now led)
    unfold putCorrelation
    cases hactive : s.strand.active with
    | none => exact hrefl
    | some o =>
      have hsame := o.kinship_putCorrelation s.tracer.config.autoTagKeys key value led
      rw [kinship_of_active hactive, ← hsame]
      exact .refl _
  | scratch op => exact hrefl
  | reset =>
    show Passes [] _ ((discard _).value.2.kinship now led)
    rw [discard_value]
    exact hrefl

end Site

/-! ### The kinship as an aspect -/

/-- The aspect that shows the kinship of a segment. -/
def Kinship.aspect : Aspect Kinship where
  running := OpenSegment.kinship
  ended := Segment.kinship
  first := fun s now => .new (s.ownTrace now)

theorem Kinship.evolves_aspect : aspect.Evolves Site.offers Passes where
  refl := .refl
  begun := by
    intro s now op o hidle hstop hprepare hafter
    have hpasses := s.passes_step now {} hstop hprepare
      (fun o ho => by rw [hidle] at ho; contradiction) fun _ => rfl
    rw [Site.kinship_of_idle hidle, Site.kinship_of_active hafter] at hpasses
    exact hpasses
  stepped := by
    intro s now op o o' led hactive hstack hstop hprepare hafter
    have hpasses := s.passes_step now led hstop hprepare
      (fun o₁ ho₁ => Option.some.inj (hactive.symm.trans ho₁) ▸ hstack) fun hidle => by
        rw [hactive] at hidle
        contradiction
    rw [Site.kinship_of_active hactive, Site.kinship_of_active hafter] at hpasses
    exact hpasses
  prepared := Aspect.prepared_of_ok (R := Passes []) .refl fun hprepare hbound =>
    OpenSegment.passes_prepareAsync (OpenSegment.preparing_prepareAsync hbound hprepare)
  stopped := Aspect.stopped_of_retired (R := Passes []) .refl .before
    OpenSegment.Retired.passes OpenSegment.Ending.passes
  handled := by
    intro led id now op
    have hrelayed := led.relayed_handle id now op
    generalize (led.handle id now op).value = after at hrelayed
    obtain ⟨due, led'⟩ := after
    refine ⟨fun _ o => o.passes_of_badges hrelayed.badges, fun g hg => ?_, fun g hg => ?_⟩
    · cases hrelayed with
      | kept hsame hbadges => exact ⟨hsame.symm.trans hg, g.passes_of_badges hbadges⟩
      | handed _ hempty =>
        rw [show led'.parked = some g from hg] at hempty
        contradiction
    -- the segment was parked, and goes with the spans that waited for it
    · rw [show due = some g from hg] at hrelayed
      cases hrelayed with
      | handed hparked hempty hdone hbadges =>
        next g' done => exact ⟨g', hparked, g'.passes_archiveAll hdone (List.nil_subset _)⟩

end TraceLink
