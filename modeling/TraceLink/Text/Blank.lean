import TraceLink.Text.Ranges

/-! # White space

    The characters with the Unicode property White_Space, and the texts without
    any at their ends. -/

namespace TraceLink.Text

/-- The ranges of the white space characters. -/
def blank : Array Range := #[
  (0x9, 0xD), (0x20, 0x20), (0x85, 0x85), (0xA0, 0xA0), (0x1680, 0x1680), (0x2000, 0x200A),
  (0x2028, 0x2029), (0x202F, 0x202F), (0x205F, 0x205F), (0x3000, 0x3000)]

/-- A white space character. -/
def isBlank (c : Char) : Bool := inRanges blank c

/-- The text without the white space at its beginning. -/
def trimStart (s : List Char) : List Char := s.dropWhile isBlank

/-- The text without the white space at its end. -/
def trimEnd (s : List Char) : List Char := (s.reverse.dropWhile isBlank).reverse

/-- The text without the white space at its two ends. -/
def trim (s : List Char) : List Char := trimEnd (trimStart s)

/-- The text without the white space at its two ends. -/
def trimmed (s : String) : String := String.ofList (trim s.toList)

end TraceLink.Text
