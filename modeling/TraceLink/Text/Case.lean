import TraceLink.Text.CaseTable

/-! # Lower case

    `lowercased` is the full lowercase form of a text. Every character is
    replaced on its own, with two exceptions: capital I with a dot above becomes
    two characters, and a capital sigma takes its final form where it ends a
    word.

    `sameIgnoringAsciiCase` compares header names: only the letters `A` to `Z`
    are equal to their small forms. -/

namespace TraceLink.Text

/-- The small letter of an ASCII capital, any other character as it is. -/
def asciiLower (c : Char) : Char :=
  if 'A' ≤ c ∧ c ≤ 'Z' then Char.ofNat (c.toNat + 32) else c

/-- The two texts are equal up to the case of their ASCII letters. -/
def sameIgnoringAsciiCase (s t : String) : Bool :=
  s.toList.map asciiLower == t.toList.map asciiLower

/-- The lowercase form of a character that stands alone. -/
def lowerChar (c : Char) : List Char :=
  if c.toNat < 0x80 then [asciiLower c]
  else if c = 'İ' then ['i', '\u0307']
  else match lowercaseRuns.find? (·.covers c.toNat) with
    | some run => [Char.ofNat (c.toNat + run.shift).toNat]
    | none => [c]

/-- The first character that is not looked through has a case. -/
def meetsCased (s : List Char) : Bool :=
  match s.dropWhile (inRanges caseIgnorable) with
  | c :: _ => inRanges cased c
  | [] => false

/-- The lowercase form of the text `s`, where `before` is the text already passed,
    last character first. A capital sigma ends a word when a letter with a case
    comes before it and none after it. -/
def lower (before : List Char) : List Char → List Char
  | [] => []
  | c :: rest =>
    let small :=
      if c = 'Σ' then [if meetsCased before && !meetsCased rest then 'ς' else 'σ']
      else lowerChar c
    small ++ lower (c :: before) rest

/-- The lowercase form of the text. -/
def lowercased (s : String) : String := String.ofList (lower [] s.toList)

end TraceLink.Text
