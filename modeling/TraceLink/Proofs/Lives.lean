import TraceLink.Proofs.Effects

/-! # Lives of segments

    What an observer writes down about the segments of an engine while it runs. The
    observer sees the operations and their replies, the segments that are handed to
    the reporter, and before each operation the open segment of the strand.

    The *life* of a segment begins with its first span. It tells which spans were
    opened in it, which handles were prepared on them and which of these finished,
    how it ended, and what was reported of it. -/

namespace TraceLink

/-- **Opening** of a span: when it was opened, of which kind it is, and inside which
    recorded span. -/
structure Opening where
  time : UInt64
  kind : SpanKind
  /-- The innermost open span that was recorded, if there was one. -/
  inside : Option Nat
  deriving Repr, DecidableEq

/-- **Stage** of a life. -/
inductive Stage where
  /-- The segment is open, on the strand at place `k`. -/
  | running (k : Nat)
  /-- Its last span was stopped, while it was sampled or not. -/
  | emptied (sampled : Bool)
  /-- Its strand went away while spans were open. -/
  | lost
  deriving Repr, DecidableEq

/-- **Life** of a segment. -/
structure Life where
  segment : String
  stage : Stage
  openings : List Opening := []
  /-- The handles of recorded spans that were prepared for async finish. -/
  handles : List AsyncHandle := []
  /-- Those of them that were finished. -/
  finished : List AsyncHandle := []
  /-- What was handed to the reporter. -/
  reports : List Segment := []
  deriving DecidableEq

namespace Life

/-- The segment is to be reported: its last span was stopped while it was sampled, and
    all handles were finished. -/
def IsDue (l : Life) : Prop := l.stage = .emptied true ∧ ∀ h ∈ l.handles, h ∈ l.finished

instance (l : Life) : Decidable l.IsDue := inferInstanceAs (Decidable (_ ∧ _))

/-- What an operation of its strand adds to the life of a segment that was open
    before it as `before`. -/
def afterStrandOp (l : Life) (before : Option OpenSegment) (now : UInt64) (op : StrandOp)
    (reply : Reply) : Life :=
  match op, reply with
  | .stop _, .flag true => { l with stage := .emptied (before.any (·.sampled)) }
  | .prepareAsync, .handle (.span n id) => { l with handles := l.handles ++ [.span n id] }
  | op, _ =>
    match op.opens? with
    | some kind =>
      let inside := (before.bind (·.nearestRecorded?)).map (·.id)
      { l with openings := l.openings ++ [⟨now, kind, inside⟩] }
    | none => l

/-- What was handed to the reporter is noted in the life. -/
def report (l : Life) (handed : Option Segment) : Life :=
  { l with reports := l.reports ++ handed.toList }

/-- What a handle operation adds to the life of the segment of its span. -/
def afterHandle (l : Life) (h : AsyncHandle) (op : HandleOp) (handed : Option Segment) : Life :=
  match op with
  | .finish _ =>
    if h ∈ l.handles then { l with finished := l.finished ++ [h] }.report handed else l
  | _ => l

end Life

/-- **Tree**: the segment holds the first `limit` of the spans that were opened in it,
    under the span that was opened first. -/
structure Segment.IsTree (limit : Nat) (openings : List Opening) (g : Segment) : Prop where
  begun : openings ≠ []
  ids : (g.spans.map (·.id)).Perm (List.range (min openings.length limit))
  closed : ∀ s ∈ g.spans, s.isClosed
  /-- The span with the id `i` is the one that was opened as number `i`. -/
  opened : ∀ s ∈ g.spans, ∃ o, openings[s.id]? = some o ∧
    s.kind = o.kind ∧ s.start = o.time ∧ s.parent = o.inside
  root : ∀ s ∈ g.spans, s.parent = none ↔ s.id = 0
  parent : ∀ s ∈ g.spans, ∀ p, s.parent = some p → p < s.id ∧ ∃ s' ∈ g.spans, s'.id = p
  sizeLimited : g.sizeLimited = true ↔ limit < openings.length

namespace Engine

/-- The open segment of the strand at place `k`. -/
def open? (e : Engine) (k : Nat) : Option OpenSegment := (e.strand? k).bind (·.active)

/-- What a step adds to a life. -/
def live (e : Engine) (now : UInt64) (op : Op) (l : Life) : Life :=
  let outcome := (e.step now op).value
  match op with
  | .strand k op =>
    if l.stage = .running k then
      (l.afterStrandOp (e.open? k) now op outcome.reply).report outcome.handed
    else l
  | .closeStrand k => if l.stage = .running k then { l with stage := .lost } else l
  | .handle h op => l.afterHandle h op outcome.handed
  | _ => l

/-- The life that begins with a step, still without spans: that of a segment which is
    open after the step on a strand that was idle before. -/
def begun (e : Engine) (now : UInt64) : Op → Option Life
  | .strand k op =>
    match e.open? k, (e.step now (.strand k op)).value.state.open? k with
    | none, some o => some { segment := o.segment.id, stage := .running k }
    | _, _ => none
  | _ => none

/-- The lives after a step. -/
def chronicle (e : Engine) (now : UInt64) (op : Op) (lives : List Life) : List Life :=
  (lives ++ (e.begun now op).toList).map (e.live now op)

/-- The lives after a run, from those before it. -/
def livesFrom (e : Engine) (lives : List Life) : List (UInt64 × Op) → List Life
  | [] => lives
  | (now, op) :: ops =>
    (e.step now op).value.state.livesFrom (e.chronicle now op lives) ops

/-- The lives of all segments that begin in a run. -/
def lives (e : Engine) (ops : List (UInt64 × Op)) : List Life := e.livesFrom [] ops

end Engine

end TraceLink
