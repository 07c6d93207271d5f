/-! # Ranges of code points

    A class of characters is kept as the increasing list of its ranges, each by
    its first and its last code point. -/

namespace TraceLink.Text

/-- **Range of code points**, both ends included. -/
abbrev Range : Type := Nat × Nat

/-- The character lies in one of the ranges. -/
def inRanges (ranges : Array Range) (c : Char) : Bool :=
  ranges.any fun r => r.1 ≤ c.toNat && c.toNat ≤ r.2

end TraceLink.Text
