import TraceLink.Hop.Correlation
import TraceLink.Hop.Extension

/-! # Snapshots

    The context of a segment at one moment, taken to be continued by another
    strand of the same process. -/

namespace TraceLink

/-- **Captured context** of a recorded segment. -/
structure Captured where
  trace : String
  segment : String
  span : Int
  endpoint : Option String
  correlation : Correlation
  extension : Extension
  deriving Repr, DecidableEq

/-- **Snapshot** of a segment. -/
inductive Snapshot where
  /-- The segment is not recorded; neither is one that continues it. -/
  | ignored (segment : String)
  | sampled (c : Captured)
  deriving Repr, DecidableEq

namespace Snapshot

/-- The segment that the snapshot was taken of. -/
def segment : Snapshot → String
  | ignored segment => segment
  | sampled c => c.segment

/-- The snapshot is of a segment that is not recorded. -/
def isIgnored : Snapshot → Bool
  | ignored _ => true
  | sampled _ => false

/-- A snapshot of a recorded segment has to name a span. -/
def isValid : Snapshot → Bool
  | ignored _ => true
  | sampled c => c.trace != "" && c.segment != "" && decide (0 ≤ c.span)

end Snapshot

end TraceLink
