import TraceLink.Json
import TraceLink.Severity
import TraceLink.UsageError

/-! # Diagnostics

    Everything the engine has to say about its own work. A diagnostic is kept as
    its cause; severity, origin and wording are functions of it. The origin names
    the part of the engine that speaks, and is what filters select by. -/

namespace TraceLink

/-- **Header** of one hop: the link to the parent segment, the correlation entries,
    and the extension flags. -/
inductive Header where
  | link
  | correlation
  | extension
  deriving Repr, DecidableEq

/-- The name of a header without its label. -/
def Header.baseName : Header → String
  | link => "sw8"
  | correlation => "sw8-correlation"
  | extension => "sw8-x"

/-- **Header fault**: why a received header was not understood. -/
inductive HeaderFault where
  | sampleFlag
  | missingFields
  | linkBase64
  | linkUtf8
  | emptyIds
  | spanId
  | pairSeparator
  | pairBase64
  | pairUtf8
  | skipFlag
  | timestamp
  deriving Repr, DecidableEq

namespace HeaderFault

/-- The header in which the fault arises. -/
def header : HeaderFault → Header
  | sampleFlag | missingFields | linkBase64 | linkUtf8 | emptyIds | spanId => .link
  | pairSeparator | pairBase64 | pairUtf8 => .correlation
  | skipFlag | timestamp => .extension

/-- The wording of the fault. -/
def message : HeaderFault → String
  | sampleFlag => "invalid sample flag"
  | missingFields => "missing fields"
  | linkBase64 => "invalid base64 field"
  | linkUtf8 => "invalid utf-8 field"
  | emptyIds => "empty trace or segment id"
  | spanId => "invalid parent span id"
  | pairSeparator => "pair without `:` separator"
  | pairBase64 => "invalid base64"
  | pairUtf8 => "invalid utf-8"
  | skipFlag => "invalid skip analysis flag"
  | timestamp => "invalid sending timestamp"

end HeaderFault

/-- A fault named together with its header. -/
def decodeFailure (header message : String) : String :=
  s!"Cannot decode {header} header: {message}"

/-- **Diagnostic**, by its cause. -/
inductive Diagnostic where
  /-- A usage error was raised. -/
  | usage (e : UsageError)
  /-- `action` was tried on a span that is already closed. -/
  | closedSpan (action : String) (span : Nat) (name : String)
  /-- A peer was given to a span that is not an exit span. -/
  | peerRefused (kind : String) (span : Nat)
  | segmentStarted (segment : String) (sampled : Bool) (name : String)
  | spanLimitReached (limit : Nat) (segment : String)
  | secondParent (segment parent : String)
  | secondContinuation (segment parent : String)
  | nothingToPropagate
  | segmentForcedIgnored (segment : String)
  | closedBeforeStop (span : Nat)
  | ignoredSegmentDropped (segment : String)
  | waitingForAsync (segment : String) (count : Nat)
  | segmentLeaked (segment : String)
  | asyncAlreadyClosed (span : Nat)
  | continuationDiscarded (segment : String)
  | snapshotInvalid (segment : String)
  | snapshotOfCurrent (segment : String)
  | inboundNotSampled
  | correlationWhileIdle (key : String)
  | suffixIgnored (name : String)
  | rateReached (name : String)
  | suffixesUpdated (suffixes : List String)
  | rateUpdated (rate : Int)
  | reporting (segment trace : String) (spans : Nat)
  | bufferFull (segment trace : String)
  | receiverClosed (segment : String)
  | correlationValueTooLong (key : String) (length limit : Nat)
  | correlationFull (key : String) (limit : Nat)
  | headerFault (f : HeaderFault)
  | listExpected (found : Json)
  | environmentUnreadable (name value : String)
  | levelUnknown (text : String)
  | levelNotText (found : Json)
  deriving Repr

namespace Diagnostic

/-- How severe the diagnostic is. -/
def severity : Diagnostic → Severity
  | usage _ | listExpected _ | environmentUnreadable .. | levelUnknown _ | levelNotText _ => .error
  | bufferFull .. => .warn
  | segmentStarted .. | ignoredSegmentDropped _ | snapshotOfCurrent _ | rateReached _ => .trace
  | _ => .debug

/-- The part of the engine that speaks. -/
def origin : Diagnostic → String
  | usage _ => "trace_context::error"
  | closedSpan .. | peerRefused .. => "trace_context::span"
  | segmentStarted .. | spanLimitReached .. | secondParent .. | secondContinuation ..
  | nothingToPropagate | segmentForcedIgnored _ | closedBeforeStop _ | ignoredSegmentDropped _
  | waitingForAsync .. | segmentLeaked _ | asyncAlreadyClosed _ => "trace_context::context"
  | continuationDiscarded _ | snapshotInvalid _ | snapshotOfCurrent _ | inboundNotSampled
  | correlationWhileIdle _ => "trace_context::manager"
  | suffixIgnored _ | rateReached _ => "trace_context::sampling"
  | suffixesUpdated _ | rateUpdated _ | reporting .. => "trace_context::tracer"
  | bufferFull .. | receiverClosed _ => "trace_context::report"
  | correlationValueTooLong .. | correlationFull .. => "trace_context::propagation::correlation"
  | headerFault f =>
    match f.header with
    | .link => "trace_context::propagation::sw8"
    | .correlation => "trace_context::propagation::correlation"
    | .extension => "trace_context::propagation::extension"
  | listExpected _ | environmentUnreadable .. => "trace_context::config"
  | levelUnknown _ | levelNotText _ => "trace_context::config::log_level"

/-- The wording of the diagnostic. -/
def message : Diagnostic → String
  | usage e => s!"Trace context usage error: {e.message}"
  | closedSpan action span name => s!"Ignoring `{action}` on closed span {span} ({name})"
  | peerRefused kind span =>
    s!"Ignoring peer on {kind} span {span}, only exit spans have a peer"
  | segmentStarted segment sampled name =>
    s!"Starting segment {segment} (sampled: {sampled}) with `{name}`"
  | spanLimitReached limit segment =>
    s!"Span limit {limit} reached in segment {segment}, later spans are not recorded"
  | secondParent segment parent =>
    s!"Segment {segment} already has a parent, ignoring inbound reference to segment {parent}"
  | secondContinuation segment parent =>
    s!"Segment {segment} already has a parent, ignoring continuation of segment {parent}"
  | nothingToPropagate => "No recorded span to propagate, marking carrier as ignored"
  | segmentForcedIgnored segment =>
    s!"Segment {segment} continued an ignored context, dropping it"
  | closedBeforeStop span => s!"Span {span} was closed before it was stopped"
  | ignoredSegmentDropped segment => s!"Dropping ignored segment {segment}"
  | waitingForAsync segment count => s!"Segment {segment} waits for {count} async spans"
  | segmentLeaked segment => s!"Segment {segment} dropped with open spans, it is not reported"
  | asyncAlreadyClosed span => s!"Async span {span} was already closed"
  | continuationDiscarded segment => s!"Discarding continuation of segment {segment}"
  | snapshotInvalid segment => s!"Ignoring invalid snapshot of segment {segment}"
  | snapshotOfCurrent segment =>
    s!"Snapshot of segment {segment} is from the current segment, skipping"
  | inboundNotSampled => "Inbound carrier is not sampled, keeping the current decision"
  | correlationWhileIdle key => s!"No active context, dropping correlation entry `{key}`"
  | suffixIgnored name => s!"Not sampling `{name}`, its suffix is ignored"
  | rateReached name => s!"Sample rate reached, not sampling `{name}`"
  | suffixesUpdated suffixes => "Ignore suffixes updated to " ++ ",".intercalate suffixes
  | rateUpdated rate => s!"Sample rate updated to {rate} per 3 seconds"
  | reporting segment trace spans =>
    s!"Reporting segment {segment} of trace {trace} with {spans} spans"
  | bufferFull segment trace =>
    s!"Segment buffer is full, dropping segment {segment} of trace {trace}"
  | receiverClosed segment => s!"Segment receiver is closed, dropping segment {segment}"
  | correlationValueTooLong key length limit =>
    s!"Rejecting correlation value for `{key}`, length {length} exceeds {limit}"
  | correlationFull key limit =>
    s!"Rejecting correlation key `{key}`, context already holds {limit} elements"
  | headerFault f => decodeFailure f.header.baseName f.message
  | listExpected found => s!"Expected a comma separated list, got {found.shown}"
  | environmentUnreadable name value =>
    s!"Failed to parse {name}={value}, using default"
  | levelUnknown text => Severity.unknown text
  | levelNotText found => s!"Expected a string for log level, got {found.shown}"

end Diagnostic

end TraceLink
