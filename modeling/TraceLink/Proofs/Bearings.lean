import TraceLink.Proofs.Outline

/-! # Bearings of open segments

    What the outline of an open segment leaves out: the trace that it belongs to, who
    its parent is, and what travels with the trace.

    The bearings change in two ways only. A context that comes from outside, from
    another process or from another strand, is *joined*: its parent is taken if there
    is none yet, its correlation entries are merged, and its flag is taken over. And
    a correlation entry may be stored. Whatever is done to the spans leaves the
    bearings as they are. -/

namespace TraceLink

/-- **Bearings** of an open segment. -/
structure Bearings where
  trace : String
  service : String
  instanceName : String
  parent : Option ParentRef
  /-- The segment is not to be analysed. -/
  skipAnalysis : Bool
  correlation : Correlation
  extension : Extension

/-- The bearings of an open segment. -/
def OpenSegment.bearings (o : OpenSegment) : Bearings where
  trace := o.segment.trace
  service := o.segment.service
  instanceName := o.segment.instanceName
  parent := o.segment.parent
  skipAnalysis := o.segment.skipAnalysis
  correlation := o.correlation
  extension := o.extension

namespace Bearings

/-- The bearings with which a segment begins. -/
def new (c : Config) (trace : String) : Bearings where
  trace := trace
  service := c.serviceName
  instanceName := c.instanceName
  parent := none
  skipAnalysis := false
  correlation := .empty c.correlationLimits
  extension := .none

/-- The bearings after a context from outside was applied: the first parent is taken,
    and with it the trace; entries are merged and the flag is kept once it is set. -/
def joined (b : Bearings) (ref : ParentRef) (correlation : Correlation) (skip : Bool) :
    Bearings where
  trace := if b.parent.isSome then b.trace else ref.trace
  service := b.service
  instanceName := b.instanceName
  parent := b.parent.or (some ref)
  skipAnalysis := b.skipAnalysis || skip
  correlation := (b.correlation.merge correlation).value
  extension := { b.extension with skipAnalysis := b.extension.skipAnalysis || skip }

end Bearings

/-- An id has dots in it. -/
theorem IdSource.generate_ne (i : IdSource) (ordinal now : UInt64) :
    (i.generate ordinal now).1 ≠ "" := by
  intro h
  have hlist := congrArg String.toList h
  simp [generate] at hlist
  exact absurd hlist.2.1 (by decide)

namespace OpenSegment

/-! ### Contexts from outside -/

theorem bearings_skipIf (o : OpenSegment) (skip : Bool) :
    (o.skipIf skip).bearings =
      { o.bearings with
        skipAnalysis := o.segment.skipAnalysis || skip
        extension := { o.extension with skipAnalysis := o.extension.skipAnalysis || skip } } := by
  unfold skipIf bearings
  cases skip with
  | true => simp only [if_true, Bool.or_true]
  | false => simp only [Bool.false_eq_true, if_false, Bool.or_false]

/-- An offer of a parent changes the segment in two fields, if at all. -/
theorem link_value (o : OpenSegment) (ref : ParentRef) (refusal : Diagnostic) :
    (o.link ref refusal).value =
      { o with segment := { o.segment with
        trace := if o.segment.parent.isSome then o.segment.trace else ref.trace
        parent := o.segment.parent.or (some ref) } } := by
  -- a second parent is refused, so both fields depend on the first one only
  obtain ⟨g, stack, sampled, nextSpan, primary, correlation, extension, pendingRef, ledger⟩ := o
  obtain ⟨id, trace, service, instanceName, spans, parent, skip, limited⟩ := g
  cases parent <;> rfl

theorem bearings_continueFrom (o : OpenSegment) (c : Captured) :
    (o.continueFrom c).value.bearings =
      o.bearings.joined (o.strandRef c) c.correlation c.extension.skipAnalysis := by
  unfold continueFrom
  simp only [Logged.bind_value, Logged.pure_value, link_value, bearings_skipIf]
  rfl

/-- The outline stays, and with it the id. -/
theorem id_continueFrom (o : OpenSegment) (c : Captured) :
    (o.continueFrom c).value.segment.id = o.segment.id :=
  congrArg Outline.id (outline_continueFrom o c)

theorem bearings_applyInbound (o : OpenSegment) (f : Frame) (c : RemoteContext) (now : UInt64) :
    (o.applyInbound f c now).value.2.bearings =
      o.bearings.joined (remoteRef c) c.correlation c.extension.skipAnalysis := by
  unfold applyInbound
  simp only [Logged.bind_value, Logged.pure_value, link_value, bearings_skipIf]
  rfl

/-! ### Operations on the segment -/

/-- The reference of a segment that begins to the one that its strand continues. -/
def firstRef (c : Config) (captured : Captured) : ParentRef where
  crossing := .thread
  trace := captured.trace
  segment := captured.segment
  span := captured.span
  service := c.serviceName
  instanceName := c.instanceName
  endpoint := captured.endpoint.getD ""

/-- A segment begins with new bearings, which a recorded continuation joins. Neither of
    its ids is empty. -/
theorem bearings_start (t : Tracer) (ordinal now : UInt64) (name : String)
    (inherited : Inherited) (continuation : Option Snapshot) :
    let o := (start t ordinal now name inherited continuation).value.1
    o.segment.id ≠ "" ∧ ∃ trace, trace ≠ "" ∧
      o.bearings = match continuation with
        | some (.sampled c) => (Bearings.new t.config trace).joined (firstRef t.config c)
            c.correlation c.extension.skipAnalysis
        | _ => Bearings.new t.config trace := by
  have hid := t.ids.generate_ne ordinal now
  have htrace := (t.ids.generate ordinal now).2.generate_ne ordinal now
  unfold start
  cases continuation with
  | none => exact ⟨hid, _, htrace, rfl⟩
  | some snapshot =>
    cases snapshot with
    | ignored segment => exact ⟨hid, _, htrace, rfl⟩
    | sampled c =>
      simp only [Logged.bind_value, Logged.pure_value, bearings_continueFrom]
      refine ⟨?_, _, htrace, rfl⟩
      rw [id_continueFrom]
      exact hid

theorem bearings_newFrame (o : OpenSegment) (limit : Nat) (kind : SpanKind) (name : String)
    (now : UInt64) : (o.newFrame limit kind name now).value.2.bearings = o.bearings := by
  unfold newFrame
  split
  · rfl
  · split
    · rfl
    · rfl

/-- Only a remote context changes the bearings when a span is opened. -/
theorem bearings_openSpan (c : Config) (o : OpenSegment) (kind : SpanKind) (name : String)
    (now : UInt64) (inbound : Option RemoteContext) :
    (o.openSpan c kind name now inbound).value.2.bearings =
      match inbound with
      | some r => o.bearings.joined (remoteRef r) r.correlation r.extension.skipAnalysis
      | none => o.bearings := by
  have hnew := bearings_newFrame o c.spanLimit kind name now
  unfold openSpan
  cases inbound with
  | none => exact hnew
  | some r =>
    have happly := bearings_applyInbound (o.newFrame c.spanLimit kind name now).value.2
      (o.newFrame c.spanLimit kind name now).value.1 r now
    rw [hnew] at happly
    exact happly

theorem bearings_openExit (c : Config) (o : OpenSegment) (name peer : String)
    (k : Option Carrier) (now : UInt64) :
    (o.openExit c name peer k now).value.2.2.bearings = o.bearings := by
  have hnew := bearings_newFrame o c.spanLimit .exit name now
  unfold openExit
  cases k with
  | none => exact hnew
  | some k => exact hnew

theorem bearings_putCorrelation (o : OpenSegment) (keys : List String) (key value : String) :
    (o.putCorrelation keys key value).value.2.bearings =
      { o.bearings with correlation := (o.correlation.put key value).value.2 } := by
  unfold putCorrelation
  simp only [Logged.bind_value]
  split
  · split
    · rfl
    · rfl
  · rfl

end OpenSegment

end TraceLink
