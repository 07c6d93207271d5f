import TraceLink.Diagnostic.Line
import TraceLink.Text.Alphanumeric
import TraceLink.Text.Blank
import TraceLink.Text.Decimal
import TraceLink.Text.Fields

/-! # Directives

    A directive of a filter gives a threshold to the origins that begin with its
    own. It is written in one of three ways:

    * `threshold`, for all origins;
    * `origin`, which lets everything pass;
    * `origin=threshold`, where an empty threshold lets everything pass.

    A scope pattern in brackets, `[name]`, `[name{field}]` or
    `[name{field=value}]`, may stand behind the origin or in its place. The
    directive then speaks of what happens within the scopes that match.

    Blanks around a directive are not removed. No threshold is read from a text
    with blanks, and no origin begins with one. -/

namespace TraceLink

/-! ### Scope patterns -/

/-- **Field pattern**: a field of a scope, and its value if that matters. -/
structure FieldPattern where
  name : String
  value : Option String
  deriving Repr, DecidableEq

namespace FieldPattern

/-- Reads `name` or `name=value`; what follows a second `=` is passed over. -/
def read (s : List Char) : FieldPattern :=
  let (name, others) := Text.cut '=' s
  ⟨String.ofList name, others.head?.map String.ofList⟩

/-- The number that a text stands for. -/
def number? (s : String) : Option Int :=
  match Text.readNat UInt64.size s.toList with
  | some n => some n
  | none => Text.readInt 0x8000000000000000 s.toList

/-- The pattern asks for this value, or for none in particular. -/
def asksFor (p : FieldPattern) (v : ScopeValue) : Bool :=
  match p.value, v with
  | none, _ => true
  | some wanted, .text s => wanted == s
  | some wanted, .number n => number? wanted == some n

end FieldPattern

/-- **Scope pattern**. -/
structure ScopePattern where
  /-- The name of the scope, none for any. -/
  name : Option String := none
  field : Option FieldPattern := none
  deriving Repr, DecidableEq

namespace ScopePattern

/-- The pattern says nothing about scopes. -/
def isOpen (p : ScopePattern) : Bool := p.name.isNone && p.field.isNone

/-- The scope has the name and the field of the pattern. -/
def fits (p : ScopePattern) (s : Scope) : Bool :=
  (p.name.all fun name => name == s.name) &&
    (p.field.all fun f => s.fields.any fun e => e.1 == f.name)

/-- The field of the scope has the value of the pattern. -/
def holds (p : ScopePattern) (s : Scope) : Bool :=
  p.field.all fun f => s.fields.any fun e => e.1 == f.name && f.asksFor e.2

/-- Reads a pattern behind its opening bracket, up to the closing one; the text
    behind it is given back. -/
def read? (s : List Char) : Option (ScopePattern × List Char) :=
  let (name, rest) := s.span fun c => c ≠ ']' && c ≠ '\x7b'
  match rest with
  | ']' :: rest => some (⟨some (String.ofList name), none⟩, rest)
  | '\x7b' :: rest =>
    match rest.span fun c => c ≠ '\x7d' with
    | (field, '\x7d' :: ']' :: rest) =>
      if field = [] then none
      else
        let name := if name = [] then none else some (String.ofList name)
        some (⟨name, some (.read field)⟩, rest)
    | _ => none
  | _ => none

end ScopePattern

/-! ### Thresholds -/

/-- **Threshold**: how severe something has to be to pass, none to let nothing
    pass. -/
abbrev Threshold : Type := Option Severity

namespace Threshold

/-- Something of severity `s` passes. -/
def admits (t : Threshold) (s : Severity) : Bool := t.any (·.admits s)

/-- The threshold that lets more pass. -/
def wider (t u : Threshold) : Threshold :=
  match t, u with
  | some a, some b => if a.grade < b.grade then some b else some a
  | none, u => u
  | t, none => t

/-- Reads a severity in any letter case, `off`, or its grade. -/
def read? (s : List Char) : Option Threshold :=
  match Text.readNat UInt64.size s with
  | some 0 => some none
  | some n => (Severity.all.find? (·.grade == n)).map some
  | none =>
    let small := String.ofList (s.map Text.asciiLower)
    if small = "off" then some none else (Severity.all.find? (·.name == small)).map some

end Threshold

/-! ### Directives -/

/-- **Directive** of a filter. -/
structure Directive where
  /-- The beginning of the origins that it speaks of, empty for all. -/
  origin : String
  scope : ScopePattern
  threshold : Threshold
  deriving Repr, DecidableEq

namespace Directive

/-- A character that a directive may begin with. -/
def isInitial (c : Char) : Bool :=
  Text.isAlphanumeric c || c == '-' || c == '_' || c == ':' || c == '['

/-- Reads a directive. -/
def read? (s : List Char) : Option Directive :=
  let body := Text.trim s
  if !body.head?.any isInitial then none
  else
    let (origin, rest) := body.span fun c => c ≠ '=' && c ≠ '['
    let marked : Option (ScopePattern × List Char) := match rest with
      | '[' :: rest => ScopePattern.read? rest
      | rest => some (⟨none, none⟩, rest)
    match marked with
    | none => none
    | some (scope, '=' :: level) =>
      let threshold := if level = [] then some (some .trace) else Threshold.read? level
      if s = body then threshold.map (⟨String.ofList origin, scope, ·⟩) else none
    | some (scope, []) =>
      if scope.isOpen then
        match Threshold.read? s with
        | some threshold => some ⟨"", scope, threshold⟩
        | none => some ⟨String.ofList s, scope, some .trace⟩
      else
        let origin := if Text.trimStart s = s then origin else s
        some ⟨String.ofList origin, scope, some .trace⟩
    | some _ => none

/-- The directive speaks of an origin. -/
def covers (d : Directive) (origin : String) : Bool :=
  d.origin.toList.isPrefixOf origin.toList

/-- The directive decides by the origin alone, within scopes and without. -/
def isStatic (d : Directive) : Bool :=
  d.scope.name.isNone && d.scope.field.all fun f => f.value.isNone

/-- The directive lets things pass within the scopes that match. -/
def isScoped (d : Directive) : Bool := !d.scope.isOpen

/-- The field that the directive names, empty for none. -/
def fieldName (d : Directive) : String := (d.scope.field.map (·.name)).getD ""

/-- The directive is more specific than another one that speaks of the same: its
    origin is longer, or else it names a field. -/
def outranks (d other : Directive) : Bool :=
  if d.origin.utf8ByteSize = other.origin.utf8ByteSize then other.fieldName < d.fieldName
  else other.origin.utf8ByteSize < d.origin.utf8ByteSize

end Directive

end TraceLink
