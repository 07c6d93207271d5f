import TraceLink.Hop.RemoteContext
import TraceLink.Snapshot
import TraceLink.Tracer

/-! # Open segments

    A segment is open from its first span until its stack is empty. Beside the
    stack it carries the sampling decision, what travels with the trace, and the
    parents that are offered to it.

    While a segment is not sampled its spans are placeholders, what it sends and
    what is captured of it says that the trace is ignored, and it is dropped when
    it ends. -/

namespace TraceLink

/-- **Primary span**: the span whose name is the endpoint of the segment. -/
structure Primary where
  span : Nat
  isEntry : Bool
  deriving Repr, DecidableEq

/-- **Open segment**. -/
structure OpenSegment where
  /-- What will be reported. -/
  segment : Segment
  /-- The open spans, the active one first. -/
  stack : List Frame
  sampled : Bool
  /-- How many spans were recorded, which is the id of the next one. -/
  nextSpan : Nat
  primary : Option Primary
  correlation : Correlation
  extension : Extension
  /-- The parent that the next recorded span refers to. -/
  pendingRef : Option ParentRef
  /-- The number of its ledger, once a span was prepared for async finish. -/
  ledger : Option Nat
  deriving Repr, DecidableEq

namespace OpenSegment

/-! ### Looking at the stack -/

/-- The innermost open span that is recorded. -/
def nearestRecorded? (o : OpenSegment) : Option Span := o.stack.findSome? Frame.span?

/-- The id of the innermost open span that is recorded, `-1` if there is none. -/
def nearestId (o : OpenSegment) : Int :=
  match o.nearestRecorded? with
  | some s => s.id
  | none => -1

/-- The recorded open span with the given id. -/
def openSpan? (o : OpenSegment) (id : Nat) : Option Span :=
  (o.stack.filterMap Frame.span?).find? (·.id = id)

/-- The active frame. -/
def active? (o : OpenSegment) : Option Frame := o.stack.head?

/-- The name of the primary span as it is now. The span `fresh`, which is not on the
    stack yet, is looked at first, then the stack, then the archive. -/
def endpoint? (o : OpenSegment) (fresh : Option Span) : Option String := do
  let primary ← o.primary
  let span ← (fresh.filter (·.id = primary.span)).or
    ((o.openSpan? primary.span).or (o.segment.span? primary.span))
  return span.name

/-! ### Parents -/

/-- Marks the segment to be left out of the analysis if `skip` is set. -/
def skipIf (o : OpenSegment) (skip : Bool) : OpenSegment :=
  if skip then
    { o with
      extension := { o.extension with skipAnalysis := true }
      segment := { o.segment with skipAnalysis := true } }
  else o

/-- Offers a parent to the segment, and notes `refusal` if it has one already. -/
def link (o : OpenSegment) (ref : ParentRef) (refusal : Diagnostic) : Logged OpenSegment := do
  let (taken, segment) := o.segment.link ref
  Logged.noteIf (!taken) refusal
  return { o with segment }

/-- The reference to the parent in another process. -/
def remoteRef (c : RemoteContext) : ParentRef where
  crossing := .process c.address
  trace := c.trace
  segment := c.segment
  span := c.span
  service := c.service
  instanceName := c.instanceName
  endpoint := c.endpoint

/-- The milliseconds from `sent` to `now`, zero if the clocks disagree. -/
def latency (sent now : UInt64) : Nat := now.toNat - sent.toNat

/-- What a remote context leaves on a span: an entry span refers to the parent and
    shows how long the message was on its way. -/
def markInbound (c : RemoteContext) (now : UInt64) (s : Span) : Logged Span := do
  let s ←
    if s.kind = .entry then
      let s := { s with ref := some (remoteRef c) }
      match c.extension.sentAt with
      | some sent => s.tagWith Tag.transmissionLatency (toString (latency sent now))
      | none => pure s
    else pure s
  return if c.extension.skipAnalysis then { s with skipAnalysis := true } else s

/-- Applies a remote context to the segment and to the span in the frame. -/
def applyInbound (o : OpenSegment) (f : Frame) (c : RemoteContext) (now : UInt64) :
    Logged (Frame × OpenSegment) := do
  let o ← o.link (remoteRef c) (.secondParent o.segment.id c.segment)
  let f ← f.modify (markInbound c now)
  let correlation ← o.correlation.merge c.correlation
  return (f, { o with correlation }.skipIf c.extension.skipAnalysis)

/-- The reference to the parent on another strand. -/
def strandRef (o : OpenSegment) (c : Captured) : ParentRef where
  crossing := .thread
  trace := c.trace
  segment := c.segment
  span := c.span
  service := o.segment.service
  instanceName := o.segment.instanceName
  endpoint := c.endpoint.getD ""

/-- Continues a captured context: it is offered as parent, the next recorded span
    refers to it, and what travels with it is taken over. -/
def continueFrom (o : OpenSegment) (c : Captured) : Logged OpenSegment := do
  let ref := o.strandRef c
  let o ← o.link ref (.secondContinuation o.segment.id c.segment)
  let correlation ← o.correlation.merge c.correlation
  return { o with pendingRef := some ref, correlation }.skipIf c.extension.skipAnalysis

/-- Stops recording. -/
def ignore (o : OpenSegment) : Logged OpenSegment := do
  Logged.noteIf o.sampled (.segmentForcedIgnored o.segment.id)
  return { o with sampled := false }

/-! ### Opening -/

/-- The decision that a continued snapshot makes for the segment. An ignored one
    always wins; a recorded one counts where no other decision was inherited. -/
def decision (inherited : Inherited) (continuation : Option Snapshot) : Inherited :=
  match continuation, inherited with
  | some (.ignored _), _ => .ignored
  | some (.sampled _), .undecided => .sampled
  | _, inherited => inherited

/-- Begins a segment, still without spans, on the strand with the given ordinal. -/
def start (t : Tracer) (ordinal now : UInt64) (name : String) (inherited : Inherited)
    (continuation : Option Snapshot) : Logged (OpenSegment × Tracer) := do
  let inherited := decision inherited continuation
  let (sampled, gate) ← t.gate.judge name inherited now
  let (id, ids) := t.ids.generate ordinal now
  let (trace, ids) := ids.generate ordinal now
  let counters := t.counters.created (inherited ≠ .undecided) (!sampled)
  Logged.note (.segmentStarted id sampled name)
  let o : OpenSegment := {
    segment := {
      id := id
      trace := trace
      service := t.config.serviceName
      instanceName := t.config.instanceName }
    stack := []
    sampled := sampled
    nextSpan := 0
    primary := none
    correlation := .empty t.config.correlationLimits
    extension := .none
    pendingRef := none
    ledger := none }
  let o ← match continuation with
    | some (.sampled c) => o.continueFrom c
    | _ => pure o
  return (o, { t with gate, ids, counters })

/-! ### Spans -/

/-- The first span is the primary one, until an entry span takes its place. -/
def promote (primary : Option Primary) (s : Span) : Primary :=
  let fresh : Primary := ⟨s.id, s.kind = .entry⟩
  match primary with
  | none => fresh
  | some p => if fresh.isEntry && !p.isEntry then fresh else p

/-- Span ids stay below this number, so they have 31 bits. -/
def idBound : Nat := 0x80000000

/-- No more spans can be recorded. -/
def isFull (o : OpenSegment) (limit : Nat) : Bool :=
  limit ≤ o.nextSpan || idBound ≤ o.nextSpan

/-- Notes that the segment is full, the first time. -/
def limitReached (o : OpenSegment) (limit : Nat) : Logged OpenSegment := do
  Logged.noteIf (!o.segment.sizeLimited) (.spanLimitReached limit o.segment.id)
  return { o with segment := { o.segment with sizeLimited := true } }

/-- The next recorded span. -/
def freshSpan (o : OpenSegment) (kind : SpanKind) (name : String) (now : UInt64) : Span where
  id := o.nextSpan
  parent := o.nearestRecorded?.map (·.id)
  kind := kind
  name := name
  start := now
  ref := o.pendingRef
  skipAnalysis := o.extension.skipAnalysis

/-- A new frame, not yet on the stack: a recorded span if the segment is sampled and
    not full. -/
def newFrame (o : OpenSegment) (limit : Nat) (kind : SpanKind) (name : String)
    (now : UInt64) : Logged (Frame × OpenSegment) :=
  if !o.sampled then return (.placeholder name, o)
  else if o.isFull limit then do
    return (.placeholder name, ← o.limitReached limit)
  else
    let s := o.freshSpan kind name now
    return (.recorded s,
      { o with
        nextSpan := o.nextSpan + 1
        pendingRef := none
        primary := some (promote o.primary s) })

/-- Tags the span with the correlation entries under the given keys. -/
def autoTag (o : OpenSegment) (keys : List String) (f : Frame) : Logged Frame :=
  f.modify fun s =>
    keys.foldlM
      (fun s key =>
        match o.correlation.get? key with
        | some value => s.tag key value
        | none => pure s)
      s

/-- Makes a frame the active one. -/
def push (o : OpenSegment) (f : Frame) : OpenSegment := { o with stack := f :: o.stack }

/-- Opens an entry span or an inner span; `inbound` is the parent in another
    process. -/
def openSpan (c : Config) (o : OpenSegment) (kind : SpanKind) (name : String)
    (now : UInt64) (inbound : Option RemoteContext) : Logged (Frame × OpenSegment) := do
  let (f, o) ← o.newFrame c.spanLimit kind name now
  let (f, o) ← match inbound with
    | some r => o.applyInbound f r now
    | none => pure (f, o)
  let f ← o.autoTag c.autoTagKeys f
  return (f, o.push f)

/-! ### Sending -/

/-- The context that another process gets, sent from the span with the given id. -/
def remoteContext (o : OpenSegment) (span : Int) (fresh : Option Span) (peer : String)
    (now : UInt64) : RemoteContext where
  trace := o.segment.trace
  segment := o.segment.id
  span := span
  service := o.segment.service
  instanceName := o.segment.instanceName
  endpoint := (o.endpoint? fresh).getD ""
  address := peer
  correlation := o.correlation
  extension := { o.extension with sentAt := some now }

/-- Fills a carrier from an exit span, which may not be on the stack yet. For a
    placeholder the innermost recorded span stands in; if there is none, the trace
    is sent as ignored. -/
def send (o : OpenSegment) (f : Frame) (peer : String) (k : Carrier) (now : UInt64) :
    Logged Carrier :=
  if !o.sampled then return RemoteContext.injectIgnored k
  else match f with
    | .recorded s => return (o.remoteContext s.id (some s) peer now).inject k
    | .placeholder _ =>
      match o.nearestRecorded? with
      | some s => return (o.remoteContext s.id none peer now).inject k
      | none => do
        Logged.note .nothingToPropagate
        return RemoteContext.injectIgnored k

/-- Opens an exit span to a peer, and fills the carrier if there is one. -/
def openExit (c : Config) (o : OpenSegment) (name peer : String) (k : Option Carrier)
    (now : UInt64) : Logged (Frame × Option Carrier × OpenSegment) := do
  let (f, o) ← o.newFrame c.spanLimit .exit name now
  let f ← f.modify (Span.setPeer peer)
  let k ← match k with
    | some k => do pure (some (← o.send f peer k now))
    | none => pure none
  let f ← o.autoTag c.autoTagKeys f
  return (f, k, o.push f)

/-- The peer of the span in the frame, empty if it has none. -/
def peerOf (f : Frame) : String := (f.span?.bind (·.peer)).getD ""

/-- Fills a carrier from the active span, which has to be an exit span if it is
    recorded. -/
def inject (o : OpenSegment) (k : Carrier) (now : UInt64) :
    Attempt UsageError Carrier (Logged Carrier) :=
  match o.active? with
  | none => .fail .stackEmpty k
  | some f =>
    match f with
    | .recorded s =>
      if o.sampled && s.kind ≠ .exit then .fail (.notExitSpan s.id) k
      else .ok (o.send f (peerOf f) k now)
    | .placeholder _ => .ok (o.send f (peerOf f) k now)

/-- A snapshot of the segment. -/
def capture (o : OpenSegment) : Snapshot :=
  if !o.sampled then .ignored o.segment.id
  else .sampled {
    trace := o.segment.trace
    segment := o.segment.id
    span := o.nearestId
    endpoint := o.endpoint? none
    correlation := o.correlation
    extension := o.extension }

/-! ### The active span -/

/-- Takes the active frame off the stack. If an id is expected, it has to be that of
    the active span. -/
def pop (o : OpenSegment) (expected : Option Int) :
    Attempt UsageError OpenSegment (Frame × OpenSegment) :=
  match o.stack with
  | [] => .fail .stackEmpty o
  | f :: rest =>
    match expected with
    | some id =>
      if f.id = id then .ok (f, { o with stack := rest }) else .fail (.outOfOrder f.id id) o
    | none => .ok (f, { o with stack := rest })

/-- Applies a remote context that is read while the active span is open. -/
def receive (o : OpenSegment) (c : RemoteContext) (now : UInt64) :
    Attempt UsageError OpenSegment (Logged OpenSegment) :=
  (o.pop none).map fun (f, o) => do
    let (f, o) ← o.applyInbound f c now
    return o.push f

/-- Stores a correlation entry. If its key is one of the tag keys, the active span
    gets it as a tag. -/
def putCorrelation (o : OpenSegment) (tagKeys : List String) (key value : String) :
    Logged (Bool × OpenSegment) := do
  let (stored, correlation) ← o.correlation.put key value
  let o := { o with correlation }
  if stored && tagKeys.contains key && value != "" then
    match o.stack with
    | f :: rest => return (true, { o with stack := (← f.modify (·.tag key value)) :: rest })
    | [] => return (true, o)
  else return (stored, o)

/-- Prepares the active span for async finish. A placeholder gets an idle handle. -/
def prepareAsync (t : Tracer) (o : OpenSegment) :
    Attempt UsageError (OpenSegment × Tracer) (AsyncHandle × OpenSegment × Tracer) :=
  match o.stack with
  | [] => .fail .stackEmpty (o, t)
  | .placeholder _ :: _ => .ok (.idle, o, t)
  | .recorded s :: rest => do
    let s ← s.markAsync.within fun s => ({ o with stack := .recorded s :: rest }, t)
    let (n, t) := match o.ledger with
      | some n => (n, t)
      | none => t.openLedger
    let o := { o with stack := .recorded s :: rest, ledger := some n }
    return (.span n s.id, o, t.setLedger n ((t.ledger n).prepare s.id))

/-! ### Closing -/

/-- Closes a span that is not async. -/
def closeNow (s : Span) (now : UInt64) : Logged Span := s.closeOr .closedBeforeStop now

/-- Brings a span that was taken off the stack into the segment, or leaves it to its
    async handle. -/
def retire (o : OpenSegment) (t : Tracer) (f : Frame) (now : UInt64) :
    Logged (OpenSegment × Tracer) :=
  match f with
  | .placeholder _ => return (o, t)
  | .recorded s =>
    if s.isAsync then
      match o.ledger with
      | some n => do
        let (done, l) ← (t.ledger n).pop s
        let segment := match done with
          | some s => o.segment.archive s
          | none => o.segment
        return ({ o with segment }, t.setLedger n l)
      | none => return ({ o with segment := o.segment.archive s }, t)
    else do
      return ({ o with segment := o.segment.archive (← closeNow s now) }, t)

/-- Stops the active span. -/
def stop (t : Tracer) (o : OpenSegment) (expected : Option Int) (now : UInt64) :
    Attempt UsageError (OpenSegment × Tracer) (Logged (OpenSegment × Tracer)) :=
  ((o.pop expected).within (·, t)).map fun (f, o) => o.retire t f now

/-- Ends a segment whose stack is empty. The answer is the segment to be reported:
    none if it is not sampled, or if it has to wait for async spans. -/
def finish (t : Tracer) (o : OpenSegment) : Logged (Option Segment × Tracer) := do
  let t := { t with counters := t.counters.finish (!o.sampled) }
  if !o.sampled then
    Logged.note (.ignoredSegmentDropped o.segment.id)
    return (none, t)
  else match o.ledger with
    | none => return (some o.segment, t)
    | some n => do
      let (due, l) ← (t.ledger n).settle o.segment
      return (due, t.setLedger n l)

/-- Drops a segment whose strand goes away. -/
def leak (t : Tracer) (o : OpenSegment) : Logged Tracer := do
  Logged.note (.segmentLeaked o.segment.id)
  return { t with counters := t.counters.leak (!o.sampled) }

end OpenSegment

end TraceLink
