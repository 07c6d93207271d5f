import TraceLink.Diagnostic

/-! # Log lines

    A log line begins with the name of the engine and the severity, so that it
    stands out among the lines of the host program. Then come the scopes in which
    the host works, outermost first, and the wording of the diagnostic.

    Control characters that could move the cursor or hide text are written by
    their code. -/

namespace TraceLink

/-- **Value** of a field of a scope. -/
inductive ScopeValue where
  | text (s : String)
  | number (n : Int)
  deriving Repr, DecidableEq

/-- The value as it stands in a line. -/
def ScopeValue.shown : ScopeValue → String
  | text s => Text.quoted s
  | number n => toString n

/-- **Scope** of the host program, with its fields in order. -/
structure Scope where
  name : String
  fields : List (String × ScopeValue) := []
  deriving Repr, DecidableEq

/-- The scope as it stands in a line. -/
def Scope.shown (s : Scope) : String :=
  let fields := " ".intercalate (s.fields.map fun (k, v) => k ++ "=" ++ v.shown)
  if fields = "" then s.name ++ ": "
  else s.name ++ "\x7b" ++ fields ++ "\x7d: "

namespace Diagnostic

/-- A control character by its code, any other character as it is. -/
def plainChar (c : Char) : List Char :=
  match c with
  | '\x1b' => "\\x1b".toList
  | '\x07' => "\\x07".toList
  | '\x08' => "\\x08".toList
  | '\x0c' => "\\x0c".toList
  | '\x7f' => "\\x7f".toList
  | _ =>
    if 0x80 ≤ c.toNat ∧ c.toNat ≤ 0x9F then
      ['\\', 'u', '\x7b'] ++ Nat.toDigits 16 c.toNat ++ ['\x7d']
    else [c]

/-- A text without control characters. -/
def plain (s : String) : String := String.ofList (s.toList.flatMap plainChar)

/-- The log line of a diagnostic within the given scopes. -/
def line (scopes : List Scope) (d : Diagnostic) : String :=
  "TRACE_CONTEXT | " ++ d.severity.label ++ " | " ++ String.join (scopes.map Scope.shown) ++
    plain d.message

end Diagnostic

end TraceLink
