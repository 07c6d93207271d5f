import TraceLink.Logged
import TraceLink.Segment

/-! # Reporters

    A reporter takes the finished segments of a tracer. It never waits: a channel
    whose buffer is full, or whose receiver is gone, drops the segment and notes
    it. -/

namespace TraceLink

/-- **Channel** to a receiver. -/
structure Channel where
  /-- Segments that may wait at a time. -/
  capacity : Nat
  /-- The segments that wait, the oldest first. -/
  waiting : List Segment
  /-- The receiver is still there. -/
  isOpen : Bool
  deriving Repr, DecidableEq

/-- **Reporter** of finished segments. -/
inductive Reporter where
  /-- Passes every segment on to its owner. -/
  | collecting
  /-- Forgets every segment. -/
  | discarding
  | channel (c : Channel)
  deriving Repr, DecidableEq

namespace Reporter

/-- A reporter with an empty channel, in which one segment at least may wait. -/
def ofBuffer (size : Nat) : Reporter := channel ⟨max size 1, [], true⟩

/-- Takes a finished segment. -/
def deliver (r : Reporter) (g : Segment) : Logged Reporter :=
  match r with
  | collecting => return collecting
  | discarding => return discarding
  | channel c =>
    if !c.isOpen then do
      Logged.note (.receiverClosed g.id)
      return channel c
    else if c.capacity ≤ c.waiting.length then do
      Logged.note (.bufferFull g.id g.trace)
      return channel c
    else return channel { c with waiting := c.waiting ++ [g] }

/-- The oldest segment that waits for the receiver. -/
def receive (r : Reporter) : Option Segment × Reporter :=
  match r with
  | channel c => (c.waiting.head?, channel { c with waiting := c.waiting.tail })
  | other => (none, other)

/-- The receiver goes away, and with it what waits for it. -/
def closeReceiver (r : Reporter) : Reporter :=
  match r with
  | channel c => channel { c with waiting := [], isOpen := false }
  | other => other

end Reporter

end TraceLink
