/-! # Counters

    Every segment is counted when it begins and when it ends. It ends finished
    when its last span is stopped, and leaked when its strand goes away before. -/

namespace TraceLink

/-- **Counters** of the segments of one tracer. Recorded and ignored segments are
    counted apart, and so are those whose decision was inherited and those decided here. -/
structure Counters where
  createdInherited : UInt64 := 0
  createdHere : UInt64 := 0
  ignoredInherited : UInt64 := 0
  ignoredHere : UInt64 := 0
  finished : UInt64 := 0
  finishedIgnored : UInt64 := 0
  leaked : UInt64 := 0
  leakedIgnored : UInt64 := 0
  deriving Repr, DecidableEq

namespace Counters

/-- Counts a segment that begins. -/
def created (c : Counters) (inherited ignored : Bool) : Counters :=
  match inherited, ignored with
  | true, false => { c with createdInherited := c.createdInherited + 1 }
  | false, false => { c with createdHere := c.createdHere + 1 }
  | true, true => { c with ignoredInherited := c.ignoredInherited + 1 }
  | false, true => { c with ignoredHere := c.ignoredHere + 1 }

/-- Counts a segment whose last span was stopped. -/
def finish (c : Counters) (ignored : Bool) : Counters :=
  if ignored then { c with finishedIgnored := c.finishedIgnored + 1 }
  else { c with finished := c.finished + 1 }

/-- Counts a segment whose strand went away. -/
def leak (c : Counters) (ignored : Bool) : Counters :=
  if ignored then { c with leakedIgnored := c.leakedIgnored + 1 }
  else { c with leaked := c.leaked + 1 }

/-- The counts in order. -/
def toList (c : Counters) : List UInt64 :=
  [c.createdInherited, c.createdHere, c.ignoredInherited, c.ignoredHere, c.finished,
    c.finishedIgnored, c.leaked, c.leakedIgnored]

/-- The published names of the counts, in order. -/
def names : List String :=
  ["created_propagated", "created_sampler", "created_ignored_propagated",
    "created_ignored_sampler", "finished", "finished_ignored", "leaked", "leaked_ignored"]

/-- All counts with their names. -/
def describe (c : Counters) : String :=
  ", ".intercalate ((names.zip c.toList).map fun (n, v) => s!"{n}={v}")

end Counters

end TraceLink
