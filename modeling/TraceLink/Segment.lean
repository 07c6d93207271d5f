import TraceLink.Span

/-! # Segments

    The spans that one strand of execution contributes to a trace. Spans join the
    segment as they close, except those that an async handle closes after their stop:
    these join it at the end.

    A segment has at most one parent in another segment. The first that is offered
    is taken, and with it the trace id of the parent. -/

namespace TraceLink

/-- **Segment** of a trace. -/
structure Segment where
  id : String
  trace : String
  service : String
  instanceName : String
  /-- The closed spans, in the order in which they joined the segment. -/
  spans : List Span := []
  parent : Option ParentRef := none
  skipAnalysis : Bool := false
  /-- The span limit was reached, and later spans are not recorded. -/
  sizeLimited : Bool := false
  deriving Repr, DecidableEq

namespace Segment

/-- Adds a span behind those there are. -/
def archive (g : Segment) (s : Span) : Segment := { g with spans := g.spans ++ [s] }

/-- Adds spans in order. -/
def archiveAll (g : Segment) (ss : List Span) : Segment := { g with spans := g.spans ++ ss }

/-- The archived span with the given id. -/
def span? (g : Segment) (id : Nat) : Option Span := g.spans.find? (·.id == id)

/-- Takes the parent, unless there is one already. -/
def link (g : Segment) (ref : ParentRef) : Bool × Segment :=
  match g.parent with
  | some _ => (false, g)
  | none => (true, { g with trace := ref.trace, parent := some ref })

end Segment

end TraceLink
