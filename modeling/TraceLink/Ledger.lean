import TraceLink.Logged
import TraceLink.Segment

/-! # Ledger of async spans

    The end of an async span is recorded by a handle and not by the strand that
    opened it. The strand still takes the span off its stack, before or after the
    handle has finished; only when both have happened does the span join its
    segment. A segment is reported when all its async spans are finished.

    The ledger keeps one record for each async span from its preparation until
    both sides are done with it. -/

namespace TraceLink

/-- **Record** of an async span. -/
structure Deferral where
  /-- The span, once the strand has taken it off the stack. -/
  span : Option Span := none
  /-- The end time, once the handle has finished. -/
  stop : Option UInt64 := none
  tags : Entries String String := []
  logs : List LogEvent := []
  failed : Bool := false
  deriving Repr, DecidableEq

namespace Deferral

/-- Applies what the handle recorded to the span and closes it. -/
def applyTo (d : Deferral) (s : Span) (time : UInt64) : Logged Span := do
  let s ← d.tags.foldlM (fun s e => s.tag e.1 e.2) s
  let s ← d.logs.foldlM (fun s e => s.log e) s
  let s ← if d.failed then s.markFailed else pure s
  s.closeOr .asyncAlreadyClosed time

end Deferral

/-- **Ledger** of the async spans of one segment. -/
structure Ledger where
  records : Entries Nat Deferral := []
  /-- How many handles have not finished. -/
  pending : Nat := 0
  /-- Spans finished after they were taken off the stack, waiting for the segment. -/
  completed : List Span := []
  /-- The segment, once its stack is empty and while handles are pending. -/
  parked : Option Segment := none
  deriving Repr, DecidableEq

namespace Ledger

/-- Opens the record of a span. -/
def prepare (l : Ledger) (id : Nat) : Ledger :=
  { l with records := l.records.put id {}, pending := l.pending + 1 }

/-- The record of a span whose handle has not finished. -/
def open? (l : Ledger) (id : Nat) : Option Deferral :=
  (l.records.get? id).filter (·.stop.isNone)

/-- The strand takes a span off its stack. The span is given back if it can join the
    segment right away. -/
def pop (l : Ledger) (s : Span) : Logged (Option Span × Ledger) :=
  match l.records.get? s.id with
  | none => return (some s, l)
  | some d =>
    match d.stop with
    | some time => do
      let s' ← d.applyTo s time
      return (some s', { l with records := l.records.erase s.id })
    | none =>
      return (none, { l with records := l.records.put s.id { d with span := some s } })

/-- The segment of the ledger if it is parked and nothing is pending, together with
    the spans that wait for it. -/
def release (l : Ledger) : Option Segment × Ledger :=
  match l.parked with
  | some g =>
    if l.pending = 0 then
      (some (g.archiveAll l.completed), { l with parked := none, completed := [] })
    else (none, l)
  | none => (none, l)

/-- The handle of a span finishes. A handle that has finished does nothing more. The
    segment is given back if it was parked for this handle. -/
def finish (l : Ledger) (id : Nat) (time : UInt64) : Logged (Option Segment × Ledger) :=
  match l.open? id with
  | none => return (none, l)
  | some d =>
    match d.span with
    | some s => do
      let s ← d.applyTo s time
      return release
        { l with
          records := l.records.erase id
          completed := l.completed ++ [s]
          pending := l.pending - 1 }
    | none =>
      return release
        { l with
          records := l.records.put id { d with stop := some time }
          pending := l.pending - 1 }

/-- Changes the record of a span whose handle has not finished. -/
def update (l : Ledger) (id : Nat) (change : Deferral → Deferral) : Ledger :=
  match l.open? id with
  | some d => { l with records := l.records.put id (change d) }
  | none => l

/-- The stack of the segment is empty. The segment is given back with the spans that
    wait for it, or parked while handles are pending. -/
def settle (l : Ledger) (g : Segment) : Logged (Option Segment × Ledger) :=
  if l.pending = 0 then
    return (some (g.archiveAll l.completed), { l with completed := [] })
  else do
    Logged.note (.waitingForAsync g.id l.pending)
    return (none, { l with parked := some g })

end Ledger

/-! ### Handles -/

/-- **Async handle**: names the span whose end it records. The handle of a span that
    is not recorded does nothing. -/
inductive AsyncHandle where
  | idle
  | span (ledger id : Nat)
  deriving Repr, DecidableEq

/-- The id of the span, `-1` if it is not recorded. -/
def AsyncHandle.id : AsyncHandle → Int
  | idle => -1
  | span _ id => id

/-- **Operation of a handle**. -/
inductive HandleOp where
  | tag (key value : String)
  | log (event : LogEvent)
  | markFailed
  /-- Records the end of the span, now if no time is given. -/
  | finish (time : Option UInt64)
  deriving Repr, DecidableEq

/-- A handle operation on the ledger of its span. -/
def Ledger.handle (l : Ledger) (id : Nat) (now : UInt64) :
    HandleOp → Logged (Option Segment × Ledger)
  | .tag key value =>
    return (none, l.update id fun d => { d with tags := d.tags ++ [(key, value)] })
  | .log event => return (none, l.update id fun d => { d with logs := d.logs ++ [event] })
  | .markFailed => return (none, l.update id fun d => { d with failed := true })
  | .finish time => l.finish id (time.getD now)

end TraceLink
