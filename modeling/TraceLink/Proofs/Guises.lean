import TraceLink.Proofs.Bearings

/-! # Guises of open segments

    A *guise* shows an open segment with another segment to be reported, and with another
    ledger. The operations on an open segment do not look at what a guise changes: what
    they do to the guise of a segment is the guise of what they do to the segment. -/

namespace TraceLink

/-- **Guise**: it may change everything of the segment to be reported but what says where it
    was recorded, as long as it lets the segment take its parent and its marks. -/
structure Guise where
  segment : Segment → Segment
  ledger : Option Nat → Option Nat
  service : ∀ g, (segment g).service = g.service
  instanceName : ∀ g, (segment g).instanceName = g.instanceName
  linked : ∀ g ref, (segment g).link ref = ((g.link ref).1, segment (g.link ref).2)
  skipped : ∀ g, { segment g with skipAnalysis := true } = segment { g with skipAnalysis := true }
  limited : ∀ g, { segment g with sizeLimited := true } = segment { g with sizeLimited := true }

namespace Guise

/-- The guise of an open segment. -/
def on (v : Guise) (o : OpenSegment) : OpenSegment :=
  { o with segment := v.segment o.segment, ledger := v.ledger o.ledger }

variable (v : Guise) (o : OpenSegment)

theorem on_skipIf (skip : Bool) : (v.on o).skipIf skip = v.on (o.skipIf skip) := by
  cases skip with
  | true =>
    let marked (g : Segment) : OpenSegment :=
      { v.on o with segment := g, extension := { o.extension with skipAnalysis := true } }
    exact congrArg marked (v.skipped o.segment)
  | false => rfl

theorem on_link (ref : ParentRef) (refusal : Diagnostic) :
    ((v.on o).link ref refusal).value = v.on (o.link ref refusal).value := by
  show { v.on o with segment := ((v.segment o.segment).link ref).2 } = _
  rw [v.linked]
  rfl

theorem on_continueFrom (c : Captured) :
    ((v.on o).continueFrom c).value = v.on (o.continueFrom c).value := by
  have href : (v.on o).strandRef c = o.strandRef c := by
    unfold OpenSegment.strandRef on
    rw [v.service, v.instanceName]
  unfold OpenSegment.continueFrom
  simp only [Logged.bind_value, Logged.pure_value, href, on_link, ← on_skipIf]
  rfl

theorem on_applyInbound (f : Frame) (c : RemoteContext) (now : UInt64) :
    ((v.on o).applyInbound f c now).value =
      ((o.applyInbound f c now).value.1, v.on (o.applyInbound f c now).value.2) := by
  unfold OpenSegment.applyInbound
  simp only [Logged.bind_value, Logged.pure_value, on_link, ← on_skipIf]
  rfl

theorem on_newFrame (limit : Nat) (kind : SpanKind) (name : String) (now : UInt64) :
    ((v.on o).newFrame limit kind name now).value =
      ((o.newFrame limit kind name now).value.1,
        v.on (o.newFrame limit kind name now).value.2) := by
  have hsampled : (v.on o).sampled = o.sampled := rfl
  have hfull : (v.on o).isFull limit = o.isFull limit := rfl
  unfold OpenSegment.newFrame
  rw [hsampled, hfull]
  split
  · rfl
  · split
    · show (_, { v.on o with segment := { v.segment o.segment with sizeLimited := true } }) = _
      rw [v.limited]
      rfl
    · rfl

theorem on_openSpan (c : Config) (kind : SpanKind) (name : String) (now : UInt64)
    (inbound : Option RemoteContext) :
    ((v.on o).openSpan c kind name now inbound).value =
      ((o.openSpan c kind name now inbound).value.1,
        v.on (o.openSpan c kind name now inbound).value.2) := by
  unfold OpenSegment.openSpan
  cases inbound with
  | none =>
    simp only [Logged.bind_value, Logged.pure_value, on_newFrame]
    rfl
  | some r =>
    simp only [Logged.bind_value, Logged.pure_value, on_newFrame, on_applyInbound]
    rfl

/-- What is sent may differ, but the frame does not, nor does the segment after it. -/
theorem on_openExit (c : Config) (name peer : String) (k : Option Carrier) (now : UInt64) :
    ((v.on o).openExit c name peer k now).value.1 = (o.openExit c name peer k now).value.1 ∧
    ((v.on o).openExit c name peer k now).value.2.2 =
      v.on (o.openExit c name peer k now).value.2.2 := by
  unfold OpenSegment.openExit
  cases k with
  | none =>
    simp only [Logged.bind_value, Logged.pure_value, on_newFrame]
    exact ⟨rfl, rfl⟩
  | some k =>
    simp only [Logged.bind_value, Logged.pure_value, on_newFrame]
    exact ⟨rfl, rfl⟩

theorem on_putCorrelation (keys : List String) (key value : String) :
    ((v.on o).putCorrelation keys key value).value =
      ((o.putCorrelation keys key value).value.1,
        v.on (o.putCorrelation keys key value).value.2) := by
  have hcorrelation : (v.on o).correlation = o.correlation := rfl
  have hstack : (v.on o).stack = o.stack := rfl
  unfold OpenSegment.putCorrelation
  simp only [Logged.bind_value, hcorrelation]
  split
  · simp only [hstack]
    cases o.stack with
    | nil => rfl
    | cons f rest => rfl
  · rfl

theorem on_pop (expected : Option Int) :
    (v.on o).pop expected =
      ((o.pop expected).within v.on).map fun popped => (popped.1, v.on popped.2) := by
  unfold OpenSegment.pop
  rw [show (v.on o).stack = o.stack from rfl]
  cases o.stack with
  | nil => rfl
  | cons f rest =>
    cases expected with
    | none => rfl
    | some id =>
      by_cases hid : f.id = id
      · simp only [if_pos hid]
        rfl
      · simp only [if_neg hid]
        rfl

theorem on_receive (c : RemoteContext) (now : UInt64) :
    Attempt.Rel (fun step step' => step'.value = v.on step.value) (o.receive c now)
      ((v.on o).receive c now) := by
  refine (Attempt.Rel.of_map (v.on_pop o none)).map ?_
  rintro popped _ rfl
  simp only [Logged.bind_value, Logged.pure_value, on_applyInbound]
  rfl

end Guise

end TraceLink
