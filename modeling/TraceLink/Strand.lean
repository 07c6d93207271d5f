import TraceLink.OpenSegment
import TraceLink.Scratch

/-! # Strands

    A strand is one thread or task. It is idle until its first span is opened,
    active while spans are open, and idle again when the last one is stopped.

    A snapshot that is continued while the strand is idle stays pending for the
    next segment. A later one takes its place, and it can be discarded.

    The operations are functions of a *site*: a strand together with the tracer
    that it shares with other strands. -/

namespace TraceLink

/-- **Strand** of execution. -/
structure Strand where
  ordinal : UInt64
  /-- The open segment, if the strand is active. -/
  active : Option OpenSegment := none
  /-- The snapshot that the next segment continues. -/
  continuation : Option Snapshot := none
  scratch : Scratch := {}
  deriving Repr, DecidableEq

namespace Strand

/-- Spans are open. -/
def isActive (s : Strand) : Bool := s.active.isSome

/-- The id of the open segment. -/
def segmentId? (s : Strand) : Option String := s.active.map (·.segment.id)

/-- The trace id of the open segment. -/
def traceId? (s : Strand) : Option String := s.active.map (·.segment.trace)

/-- The id of the active span, `-1` if it is not recorded. -/
def spanId? (s : Strand) : Option Int := (s.active.bind (·.active?)).map Frame.id

/-- The snapshot was taken of the open segment. -/
def isCurrent (s : Strand) (snapshot : Snapshot) : Bool :=
  s.segmentId? == some snapshot.segment

/-- The correlation entries of the open segment. -/
def correlation? (s : Strand) : Option Correlation := s.active.map (·.correlation)

/-- The strand, as it is shown. -/
def describe (s : Strand) : String :=
  let segment := match s.segmentId? with
    | some id => s!"Some({Text.quoted id})"
    | none => "None"
  let span := match s.spanId? with
    | some id => s!"Some({id})"
    | none => "None"
  "ContextManager \x7b ordinal: " ++ toString s.ordinal ++ ", segment_id: " ++ segment ++
    ", span_id: " ++ span ++ ", runtime: " ++ s.scratch.describe ++ ", .. \x7d"

end Strand

/-- **Site**: a strand and the tracer that it shares. -/
structure Site where
  tracer : Tracer
  strand : Strand
  deriving Repr, DecidableEq

namespace Site

/-- The site with another open segment. -/
def withActive (s : Site) (o : OpenSegment) : Site :=
  { s with strand := { s.strand with active := some o } }

/-- The open segment, which has to be there. -/
def active (s : Site) : Attempt UsageError Site OpenSegment :=
  match s.strand.active with
  | some o => .ok o
  | none => (Attempt.fail .notActive s).raised

/-- The label of the header names. -/
def label (s : Site) : String := s.tracer.config.headerLabel

/-- An empty carrier for the headers of this process. -/
def newCarrier (s : Site) : Carrier := .empty s.label

/-- What a carrier says about the trace, correlation entries taken within the limits
    of this process. -/
def readCarrier (s : Site) (k : Carrier) : Logged Inbound :=
  RemoteContext.extract s.tracer.config.correlationLimits k

/-! ### Opening spans -/

/-- The open segment, begun now if there is none. A pending continuation is used up
    by the segment that begins. -/
def segmentFor (s : Site) (name : String) (inherited : Inherited) (now : UInt64) :
    Logged (OpenSegment × Site) :=
  match s.strand.active with
  | some o => return (o, s)
  | none => do
    let (o, tracer) ←
      OpenSegment.start s.tracer s.strand.ordinal now name inherited s.strand.continuation
    return (o, ⟨tracer, { s.strand with continuation := none }⟩)

/-- The decision and the parent that come with an inbound context. -/
def inheritedFrom : Inbound → Inherited × Option RemoteContext
  | .absent => (.undecided, none)
  | .ignored => (.ignored, none)
  | .remote c => (.sampled, some c)

/-- Opens a span that is no exit span. -/
def openSpan (s : Site) (kind : SpanKind) (name : String) (inbound : Inbound)
    (now : UInt64) : Logged (Frame × Site) := do
  let (inherited, parent) := inheritedFrom inbound
  let (o, s) ← s.segmentFor name inherited now
  let (f, o) ← o.openSpan s.tracer.config kind name now parent
  return (f, s.withActive o)

/-- Opens an entry span, below the context in the carrier if there is one. -/
def entry (s : Site) (name : String) (k : Option Carrier) (now : UInt64) :
    Logged (Frame × Site) := do
  let inbound ← match k with
    | some k => s.readCarrier k
    | none => pure .absent
  s.openSpan .entry name inbound now

/-- Opens an entry span below the context in the headers of a message. -/
def entryFrom (s : Site) (name : String) (t : Transport) (now : UInt64) :
    Logged (Frame × Site) :=
  s.entry name (some (Carrier.readFrom t s.label)) now

/-- Opens an inner span. -/
def inner (s : Site) (name : String) (now : UInt64) : Logged (Frame × Site) :=
  s.openSpan .inner name .absent now

/-- Opens an exit span to a peer, and fills the carrier if there is one. -/
def exit (s : Site) (name peer : String) (k : Option Carrier) (now : UInt64) :
    Logged (Frame × Option Carrier × Site) := do
  let (o, s) ← s.segmentFor name .undecided now
  let (f, k, o) ← o.openExit s.tracer.config name peer k now
  return (f, k, s.withActive o)

/-! ### Snapshots -/

/-- A snapshot of the open segment, none while idle. -/
def capture (s : Site) : Option Snapshot := s.strand.active.map OpenSegment.capture

/-- Continues a snapshot. An ignored one stops the recording of an open segment, and
    one of the open segment itself is skipped; a snapshot continued while idle is
    kept for the next segment. -/
def continued (s : Site) (snapshot : Snapshot) : Logged Site :=
  if !snapshot.isValid then do
    Logged.note (.snapshotInvalid snapshot.segment)
    return s
  else match s.strand.active, snapshot with
    | none, snapshot =>
      return { s with strand := { s.strand with continuation := some snapshot } }
    | some o, .ignored _ => do return s.withActive (← o.ignore)
    | some o, .sampled c =>
      if s.strand.isCurrent snapshot then do
        Logged.note (.snapshotOfCurrent snapshot.segment)
        return s
      else do return s.withActive (← o.continueFrom c)

/-- Forgets the pending continuation; the answer tells whether there was one. -/
def discard (s : Site) : Logged (Bool × Site) :=
  match s.strand.continuation with
  | some snapshot => do
    Logged.note (.continuationDiscarded snapshot.segment)
    return (true, { s with strand := { s.strand with continuation := none } })
  | none => return (false, s)

/-- Opens an inner span that continues a snapshot. While idle, a pending continuation
    is forgotten first. -/
def innerWith (s : Site) (name : String) (snapshot : Snapshot) (now : UInt64) :
    Logged (Frame × Site) := do
  let s ← if s.strand.isActive then pure s else do pure (← s.discard).2
  let s ← s.continued snapshot
  s.inner name now

/-- Clears the scratch values and the pending continuation, before another task runs
    on the strand. -/
def reset (s : Site) : Logged Site := do
  return (← { s with strand := { s.strand with scratch := {} } }.discard).2

/-! ### Sending and receiving -/

/-- Fills a carrier from the active exit span. -/
def inject (s : Site) (k : Carrier) (now : UInt64) :
    Attempt UsageError (Site × Carrier) (Logged Carrier) := do
  let o ← s.active.within (·, k)
  ((o.inject k now).within (s, ·)).raised

/-- Links the active span to the context in a carrier. Only a recorded context has an
    effect. -/
def receive (s : Site) (inbound : Inbound) (now : UInt64) :
    Attempt UsageError Site (Logged Site) := do
  let o ← s.active
  match inbound with
  | .remote c => return s.withActive <$> (← ((o.receive c now).within s.withActive).raised)
  | .ignored =>
    return do
      Logged.note .inboundNotSampled
      return s
  | .absent => return pure s

/-! ### The active span -/

/-- The active span. -/
def activeFrame (s : Site) : Attempt UsageError Site Frame := do
  match (← s.active).active? with
  | some f => .ok f
  | none => (Attempt.fail .stackEmpty s).raised

/-- Edits the active span. -/
def edit (s : Site) (edits : List Edit) (now : UInt64) :
    Attempt UsageError Site (Logged (List EditAnswer × Frame × Site)) := do
  let o ← s.active
  match o.stack with
  | [] => (Attempt.fail .stackEmpty s).raised
  | f :: rest =>
    return do
      let (answers, f) ← f.editAll now edits
      return (answers, f, s.withActive { o with stack := f :: rest })

/-- Prepares the active span for async finish. -/
def prepareAsync (s : Site) : Attempt UsageError Site (AsyncHandle × Site) := do
  let o ← s.active
  let (h, o, tracer) ←
    ((o.prepareAsync s.tracer).within fun (o, tracer) => { s with tracer }.withActive o).raised
  return (h, { s with tracer }.withActive o)

/-- Stores a correlation entry in the open segment. -/
def putCorrelation (s : Site) (key value : String) : Logged (Bool × Site) :=
  match s.strand.active with
  | some o => do
    let (stored, o) ← o.putCorrelation s.tracer.config.autoTagKeys key value
    return (stored, s.withActive o)
  | none => do
    Logged.note (.correlationWhileIdle key)
    return (false, s)

/-! ### Closing spans -/

/-- Stops the active span, which has to have the expected id if one is given. The
    answer tells whether it was the last one. Then the segment ends, and is handed
    over unless it has to wait. -/
def stop (s : Site) (expected : Option Int) (now : UInt64) :
    Attempt UsageError Site (Logged (Bool × Option Segment × Site)) := do
  let o ← s.active
  let step ←
    ((o.stop s.tracer expected now).within fun (o, tracer) =>
      { s with tracer }.withActive o).raised
  return do
    let (o, t) ← step
    if o.stack.isEmpty then
      let (due, t) ← o.finish t
      return (true, due, ⟨t, { s.strand with active := none }⟩)
    else return (false, none, { s with tracer := t }.withActive o)

/-- The strand goes away. An open segment is lost. -/
def leave (s : Site) : Logged Tracer :=
  match s.strand.active with
  | some o => o.leak s.tracer
  | none => return s.tracer

end Site

end TraceLink
