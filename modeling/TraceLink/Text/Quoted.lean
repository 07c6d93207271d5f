import TraceLink.Text.HiddenTable

/-! # Quoted texts

    A quoted text stands between double quotes. A quote, a backslash and the
    three layout characters have short escapes, a character without a visible
    form of its own is shown by its code point. -/

namespace TraceLink.Text

/-- The code point of a character in lowercase hexadecimal digits. -/
def codePoint (c : Char) : List Char := Nat.toDigits 16 c.toNat

/-- The form `\u\x7b...\x7d` of a character. -/
def byCodePoint (c : Char) : List Char :=
  ['\\', 'u', '\x7b'] ++ codePoint c ++ ['\x7d']

/-- A character as it stands inside a quoted text. -/
def quotedChar (c : Char) : List Char :=
  match c with
  | '\x00' => ['\\', '0']
  | '\t' => ['\\', 't']
  | '\r' => ['\\', 'r']
  | '\n' => ['\\', 'n']
  | '\\' => ['\\', '\\']
  | '"' => ['\\', '"']
  | _ => if inRanges hidden c then byCodePoint c else [c]

/-- The text between double quotes. -/
def quoted (s : String) : String :=
  String.ofList ('"' :: s.toList.flatMap quotedChar ++ ['"'])

end TraceLink.Text
