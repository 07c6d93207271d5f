import TraceLink.Logged

/-! # Sampling

    Whether a segment is recorded is decided once, when it begins:

    * a decision that came with the trace is taken as it is;
    * else a span name with an ignored suffix is not recorded;
    * else at most so many segments are recorded in a window of three seconds.

    The window begins anew with the first counted attempt after its end. -/

namespace TraceLink

/-! ### The rate window -/

/-- **Rate window**: how many attempts were counted since it began. -/
structure RateWindow where
  /-- Attempts that pass in one window; no limit if it is not positive. -/
  rate : Int
  counted : UInt32
  start : UInt64
  deriving Repr, DecidableEq

namespace RateWindow

/-- The length of a window in milliseconds. -/
def length : Nat := 3000

/-- A window that begins now. -/
def new (rate : Int) (now : UInt64) : RateWindow := ⟨rate, 0, now⟩

/-- Begins a new window if this one is over. -/
def roll (w : RateWindow) (now : UInt64) : RateWindow :=
  if length ≤ now.toNat - w.start.toNat then { w with counted := 0, start := now } else w

/-- Counts one attempt. -/
def count (w : RateWindow) : RateWindow := { w with counted := w.counted + 1 }

/-- One attempt at time `now`: whether it passes. Refused attempts count too, and
    without a limit nothing is counted. -/
def attempt (w : RateWindow) (now : UInt64) : Bool × RateWindow :=
  if w.rate ≤ 0 then (true, w)
  else
    let w := w.roll now
    ((w.counted.toNat : Int) < w.rate, w.count)

/-- Counts an attempt that was decided elsewhere and passes in any case. -/
def force (w : RateWindow) (now : UInt64) : RateWindow := (w.roll now).count

end RateWindow

/-! ### The gate -/

/-- **Inherited decision**: what the sender of a trace decided about it. -/
inductive Inherited where
  | undecided
  | sampled
  | ignored
  deriving Repr, DecidableEq

/-- **Gate** that decides about new segments. -/
structure Gate where
  window : RateWindow
  /-- Suffixes of span names that are not recorded. -/
  suffixes : List String
  deriving Repr, DecidableEq

namespace Gate

/-- The part of a text from its last dot on. -/
def fromLastDot? (s : List Char) : Option (List Char) :=
  match s with
  | [] => none
  | c :: rest =>
    match fromLastDot? rest with
    | some t => some t
    | none => if c = '.' then some (c :: rest) else none

/-- The part of the name from its last dot on is one of the suffixes. -/
def ignoresName (g : Gate) (name : String) : Bool :=
  match fromLastDot? name.toList with
  | some suffix => g.suffixes.any (·.toList == suffix)
  | none => false

/-- Decides about a segment that begins with a span called `name`. -/
def judge (g : Gate) (name : String) (inherited : Inherited) (now : UInt64) :
    Logged (Bool × Gate) :=
  match inherited with
  | .sampled => return (true, { g with window := g.window.force now })
  | .ignored => return (false, g)
  | .undecided =>
    if g.ignoresName name then do
      Logged.note (.suffixIgnored name)
      return (false, g)
    else do
      let (passed, window) := g.window.attempt now
      Logged.noteIf (!passed) (.rateReached name)
      return (passed, { g with window })

end Gate

end TraceLink
