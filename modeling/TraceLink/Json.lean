import TraceLink.Entries
import TraceLink.Text.Quoted
import TraceLink.Text.Shortest

/-! # JSON values

    Configuration documents and message headers may come as JSON. Objects are
    sorted by key. A number is either an integer that fits into 64 bits or a
    binary floating point number, of which the bits are kept. -/

namespace TraceLink

/-- **JSON value**. -/
inductive Json where
  | null
  | bool (b : Bool)
  | integer (n : Int)
  | float (bits : UInt64)
  | text (s : String)
  | array (items : List Json)
  | object (entries : List (String × Json))
  deriving Repr, Inhabited

namespace Json

/-- Numbers have a point up to 16 digits before it and 4 zeros behind it. Every
    exponent has a sign. -/
def numberNotation : Text.Notation64 := ⟨16, 5, "e", "+"⟩

mutual

/-- The value as a diagnostic shows it, with the kind of every part. -/
def shown : Json → String
  | null => "Null"
  | bool b => if b then "Bool(true)" else "Bool(false)"
  | integer n => s!"Number({n})"
  | float bits => s!"Number({numberNotation.write bits})"
  | text s => s!"String({Text.quoted s})"
  | array items => "Array [" ++ ", ".intercalate (shownItems items) ++ "]"
  | object entries => "Object \x7b" ++ ", ".intercalate (shownEntries entries) ++ "\x7d"

/-- The items of an array, shown one by one. -/
def shownItems : List Json → List String
  | [] => []
  | v :: rest => shown v :: shownItems rest

/-- The entries of an object, shown one by one. -/
def shownEntries : List (String × Json) → List String
  | [] => []
  | (k, v) :: rest => (Text.quoted k ++ ": " ++ shown v) :: shownEntries rest

end

/-- The text of a JSON string. -/
def text? : Json → Option String
  | text s => some s
  | _ => none

end Json

end TraceLink
