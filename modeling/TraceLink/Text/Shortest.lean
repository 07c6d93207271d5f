import TraceLink.Text.Decimal

/-! # Shortest decimal form of a binary fraction

    A 64-bit binary floating point number stands for all real numbers that round
    to it. `shortest` finds the decimal number with the fewest digits among them,
    and of those the one nearest to the number itself. `Notation64.write` then
    decides where the point goes and when an exponent is written.

    All arithmetic is exact: numbers are counted in the common unit
    `10 ^ (-324) * 2 ^ (-1077)`. -/

namespace TraceLink.Text

/-- **Binary floating point number** `mantissa * 2 ^ (power - 1075)`. The flag
    `narrow` says that the next smaller number is only half as far away as the
    next larger one. -/
structure Binary64 where
  negative : Bool
  mantissa : Nat
  power : Nat
  narrow : Bool

/-- The number with the given bits: one sign bit, eleven bits of exponent and 52
    of fraction. -/
def Binary64.ofBits (bits : UInt64) : Binary64 :=
  let fraction := bits.toNat % Nat.pow 2 52
  let exponent := bits.toNat / Nat.pow 2 52 % Nat.pow 2 11
  { negative := bits.toNat / Nat.pow 2 63 == 1
    mantissa := if exponent = 0 then fraction else Nat.pow 2 52 + fraction
    power := max exponent 1
    narrow := fraction == 0 && exponent > 1 }

/-- **Decimal number** `digits * 10 ^ (place - 324)`. -/
structure DecimalFraction where
  digits : Nat
  place : Nat

/-- The decimal number with its last digit at `place` that rounds to `x`, if there
    is one: the two neighbours of `x` on that grid are tried, the nearer one
    first, and of two equally near ones the even one. -/
def Binary64.onGrid? (x : Binary64) (place : Nat) : Option DecimalFraction :=
  let unit := Nat.pow 2 x.power * Nat.pow 10 324
  let value := 4 * x.mantissa * unit
  let low := (4 * x.mantissa - if x.narrow then 1 else 2) * unit
  let high := (4 * x.mantissa + 2) * unit
  let grid := Nat.pow 10 place * Nat.pow 2 1077
  let rounds (d : Nat) : Bool :=
    if x.mantissa % 2 = 0 then low ≤ d * grid && d * grid ≤ high
    else low < d * grid && d * grid < high
  let below := value / grid
  let rest := value % grid
  let nearest :=
    if 2 * rest < grid ∨ (2 * rest = grid ∧ below % 2 = 0) then [below, below + 1]
    else [below + 1, below]
  (nearest.find? fun d => 0 < d && rounds d).map (⟨·, place⟩)

/-- The decimal number with the fewest digits that rounds to `x`: the coarsest grid
    with a point in the interval of `x`. -/
def Binary64.shortest (x : Binary64) : DecimalFraction :=
  ((List.range 634).reverse.findSome? x.onGrid?).getD ⟨0, 324⟩

/-- **Notation of decimal fractions**: numbers below `10 ^ positionalDigits` and at
    least `10 ^ (-positionalZeros)` are written with all their places, the others
    with an exponent behind `exponentMark`. An exponent that is not negative has
    `exponentPlus` before it. -/
structure Notation64 where
  positionalDigits : Nat
  positionalZeros : Nat
  exponentMark : String
  exponentPlus : String

/-- Writes `digits * 10 ^ (place - 324)`. -/
def Notation64.writeDecimal (n : Notation64) (d : DecimalFraction) : String :=
  let ds := digits d.digits
  let zeros (k : Nat) : List Char := List.replicate k '0'
  let pointAt : Int := ds.length + d.place - 324
  String.ofList <|
    if 324 ≤ d.place ∧ pointAt ≤ n.positionalDigits then
      ds ++ zeros (d.place - 324) ++ ['.', '0']
    else if 0 < pointAt ∧ pointAt ≤ n.positionalDigits then
      ds.take pointAt.toNat ++ '.' :: ds.drop pointAt.toNat
    else if -(n.positionalZeros : Int) < pointAt ∧ pointAt ≤ 0 then
      ['0', '.'] ++ zeros (-pointAt).toNat ++ ds
    else
      ds.take 1 ++ (if ds.length = 1 then [] else '.' :: ds.drop 1) ++
        n.exponentMark.toList ++ (if 0 < pointAt then n.exponentPlus.toList else []) ++
        signed (pointAt - 1)

/-- Writes the number with the given bits in its shortest form. -/
def Notation64.write (n : Notation64) (bits : UInt64) : String :=
  let x := Binary64.ofBits bits
  let size := if x.mantissa = 0 then "0.0" else n.writeDecimal x.shortest
  if x.negative then "-" ++ size else size

end TraceLink.Text
