import TraceLink.Attempt
import TraceLink.Entries
import TraceLink.Tag

/-! # Spans

    A span is one timed unit of work. It is open until it gets its end time, once.
    While it is open it may be edited; an edit of a closed span is noted and
    changes nothing.

    A *frame* is what stands on the stack of a segment: a recorded span, or the
    placeholder of a span that is not recorded. A placeholder accepts everything
    and keeps nothing, so the instrumented code need not know which it has. -/

namespace TraceLink

/-! ### References to the parent -/

/-- **Crossing**: how the trace came into a segment. -/
inductive Crossing where
  /-- From another process, which reached this one under `address`. -/
  | process (address : String)
  /-- From another thread or task of this process. -/
  | thread
  deriving Repr, DecidableEq

/-- **Reference to the parent** of a segment in another segment. -/
structure ParentRef where
  crossing : Crossing
  trace : String
  segment : String
  span : Int
  service : String
  instanceName : String
  endpoint : String
  deriving Repr, DecidableEq

/-! ### Spans -/

/-- **Kind** of a span. -/
inductive SpanKind where
  /-- An inbound request. -/
  | entry
  /-- An outbound call. -/
  | exit
  /-- A step inside the process. -/
  | inner
  deriving Repr, DecidableEq

/-- The name of the kind. -/
def SpanKind.name : SpanKind → String
  | entry => "entry"
  | exit => "exit"
  | inner => "local"

/-- **Layer**: the technology that a span belongs to. -/
inductive SpanLayer where
  | unknown
  | database
  | rpcFramework
  | http
  | messageQueue
  | cache
  | faas
  deriving Repr, DecidableEq

/-- The number by which the analysis knows the layer. -/
def SpanLayer.code : SpanLayer → Nat
  | unknown => 0
  | database => 1
  | rpcFramework => 2
  | http => 3
  | messageQueue => 4
  | cache => 5
  | faas => 6

/-- **Log event** of a span: a time and its fields in order. -/
structure LogEvent where
  time : UInt64
  fields : List (String × String)
  deriving Repr, DecidableEq

/-- **Recorded span**. -/
structure Span where
  id : Nat
  /-- The recorded span in which this one was opened, none for the first. -/
  parent : Option Nat
  kind : SpanKind
  name : String
  start : UInt64
  stop : Option UInt64 := none
  peer : Option String := none
  component : UInt16 := 0
  layer : SpanLayer := .unknown
  tags : Entries String String := []
  logs : List LogEvent := []
  failed : Bool := false
  isAsync : Bool := false
  ref : Option ParentRef := none
  skipAnalysis : Bool := false
  deriving Repr, DecidableEq

namespace Span

/-- The span has its end time. -/
def isClosed (s : Span) : Bool := s.stop.isSome

/-- The first value of the tag `key`. -/
def tagValue? (s : Span) (key : String) : Option String := s.tags.get? key

/-- Applies a change to an open span. On a closed one the action is noted by its
    name and nothing changes. -/
def whileOpen (action : String) (change : Span → Span) (s : Span) : Logged Span :=
  if s.isClosed then do
    Logged.note (.closedSpan action s.id s.name)
    return s
  else return change s

theorem whileOpen_of_isClosed {s : Span} (h : s.isClosed) (action : String)
    (change : Span → Span) : (whileOpen action change s).value = s := by
  simp [whileOpen, h]

theorem whileOpen_of_open {s : Span} (h : s.isClosed = false) (action : String)
    (change : Span → Span) : whileOpen action change s = pure (change s) := by
  simp [whileOpen, h]

/-- Gives the span another name. -/
def rename (name : String) : Span → Logged Span :=
  whileOpen "set_operation_name" fun s => { s with name }

/-- Adds a tag behind those there are. -/
def tag (key value : String) : Span → Logged Span :=
  whileOpen "tag" fun s => { s with tags := s.tags ++ [(key, value)] }

/-- Sets a well-known tag, in the place of its value if it may be overwritten. -/
def tagWith (t : Tag) (value : String) : Span → Logged Span :=
  whileOpen "tag" fun s =>
    { s with tags :=
        if t.overwritable then s.tags.put t.key value else s.tags ++ [(t.key, value)] }

/-- Adds a log event. -/
def log (event : LogEvent) : Span → Logged Span :=
  whileOpen "log" fun s => { s with logs := s.logs ++ [event] }

/-- The event of an error at `now`. -/
def errorEvent (now : UInt64) (kind message : String) : LogEvent :=
  ⟨now, [("event", "error"), ("error.kind", kind), ("message", message)]⟩

/-- Marks the work of the span as failed. -/
def markFailed : Span → Logged Span :=
  whileOpen "error_occurred" fun s => { s with failed := true }

/-- Names the remote peer, which only an exit span has. -/
def setPeer (peer : String) (s : Span) : Logged Span :=
  if s.isClosed ∨ s.kind = .exit then
    whileOpen "set_peer" (fun s => { s with peer := some peer }) s
  else do
    Logged.note (.peerRefused s.kind.name s.id)
    return s

/-- Names the component that does the work. -/
def setComponent (component : UInt16) : Span → Logged Span :=
  whileOpen "set_component" fun s => { s with component }

/-- Names the layer of the work. -/
def setLayer (layer : SpanLayer) : Span → Logged Span :=
  whileOpen "set_layer" fun s => { s with layer }

/-- Gives the span its end time, which it gets only once. -/
def close (time : UInt64) (s : Span) : Attempt UsageError Span Span :=
  if s.isClosed then .fail (.alreadyClosed s.id) s else .ok { s with stop := some time }

/-- Closes the span, or notes that it was closed already. -/
def closeOr (already : Nat → Diagnostic) (time : UInt64) (s : Span) : Logged Span :=
  match s.close time with
  | .ok s => return s
  | .error x => do
    let s := (← x).state
    Logged.note (already s.id)
    return s

/-- Leaves the end time of the span to an async handle, once and while it is open. -/
def markAsync (s : Span) : Attempt UsageError Span Span :=
  if s.isAsync then .fail (.alreadyAsync s.id) s
  else if s.isClosed then .fail (.alreadyClosed s.id) s
  else .ok { s with isAsync := true }

end Span

/-! ### Edits -/

/-- **Edit** of the active span, or a question to it. -/
inductive Edit where
  | rename (name : String)
  | tag (key value : String)
  | tagWith (t : Tag) (value : String)
  | log (event : LogEvent)
  | logError (kind message : String)
  | markFailed
  | setPeer (peer : String)
  | setComponent (component : UInt16)
  | setLayer (layer : SpanLayer)
  | close (time : UInt64)
  | tagValue (key : String)
  deriving Repr, DecidableEq

/-- **Outcome of an edit** that has an answer. -/
inductive EditAnswer where
  | closed (result : Except UsageError Unit)
  | value (v : Option String)

/-- Applies an edit to a recorded span. -/
def Span.edit (now : UInt64) (s : Span) : Edit → Logged (Option EditAnswer × Span)
  | .rename name => do return (none, ← s.rename name)
  | .tag key value => do return (none, ← s.tag key value)
  | .tagWith t value => do return (none, ← s.tagWith t value)
  | .log event => do return (none, ← s.log event)
  | .logError kind message => do return (none, ← s.log (Span.errorEvent now kind message))
  | .markFailed => do return (none, ← s.markFailed)
  | .setPeer peer => do return (none, ← s.setPeer peer)
  | .setComponent component => do return (none, ← s.setComponent component)
  | .setLayer layer => do return (none, ← s.setLayer layer)
  | .close time =>
    match s.close time with
    | .ok s => return (some (.closed (.ok ())), s)
    | .error x => do
      let f ← x
      return (some (.closed (.error f.error)), f.state)
  | .tagValue key => return (some (.value (s.tagValue? key)), s)

/-! ### Frames -/

/-- **Frame** of the stack of a segment. -/
inductive Frame where
  | recorded (s : Span)
  /-- A span that is not recorded, known by its name only. -/
  | placeholder (name : String)
  deriving Repr, DecidableEq

namespace Frame

/-- The id of the span, `-1` for a placeholder. -/
def id : Frame → Int
  | recorded s => s.id
  | placeholder _ => -1

/-- The span, if it is recorded. -/
def span? : Frame → Option Span
  | recorded s => some s
  | placeholder _ => none

/-- Changes the span if it is recorded. -/
def modify (f : Frame) (change : Span → Logged Span) : Logged Frame :=
  match f with
  | recorded s => do return recorded (← change s)
  | placeholder name => return placeholder name

/-- Applies an edit. A placeholder may be closed any number of times and has no
    tags. -/
def edit (now : UInt64) (f : Frame) (e : Edit) : Logged (Option EditAnswer × Frame) :=
  match f with
  | recorded s => do
    let (answer, s) ← s.edit now e
    return (answer, recorded s)
  | placeholder name =>
    let answer := match e with
      | .close _ => some (.closed (.ok ()))
      | .tagValue _ => some (.value none)
      | _ => none
    return (answer, placeholder name)

/-- Applies edits in order and collects their answers. -/
def editAll (now : UInt64) (f : Frame) : List Edit → Logged (List EditAnswer × Frame)
  | [] => return ([], f)
  | e :: es => do
    let (answer, f) ← f.edit now e
    let (answers, f) ← f.editAll now es
    return (answer.toList ++ answers, f)

end Frame

end TraceLink
