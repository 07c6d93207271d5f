/-! # Usage errors

    An operation was asked for in a state that does not allow it, such as
    stopping a span while none is open. A usage error changes nothing: the state
    after it is the state before it. -/

namespace TraceLink

/-- **Usage error**. Spans are named by their id, which is `-1` for a span that is
    not recorded. -/
inductive UsageError where
  /-- No segment is open. -/
  | notActive
  /-- A segment is open, but none of its spans is. -/
  | stackEmpty
  /-- The span `actual` was to be stopped while `expected` is the active one. -/
  | outOfOrder (expected actual : Int)
  | alreadyClosed (span : Int)
  | alreadyAsync (span : Int)
  /-- Only an exit span sends its context to another process. -/
  | notExitSpan (span : Int)
  deriving Repr, DecidableEq

/-- The wording of the error. -/
def UsageError.message : UsageError → String
  | notActive => "No active span, the context is idle"
  | stackEmpty => "Cannot stop a span, the span stack is empty"
  | outOfOrder expected actual =>
    s!"Span {actual} is not the active span, the active span is {expected}"
  | alreadyClosed span => s!"Span {span} is already closed"
  | alreadyAsync span => s!"Span {span} is already prepared for async finish"
  | notExitSpan span =>
    s!"Inject can only be done from an exit span, the active span is {span}"

end TraceLink
