import TraceLink.Logged
import TraceLink.Text.Decimal
import TraceLink.Text.Fields

/-! # Extension flags

    Two things beside the link to the parent: whether the trace is to be left out
    of the analysis, and when the message was sent.

    On the wire the flag is `0` or `1`, then comes a dash and the time in
    milliseconds, or nothing if it is not known. What follows a second dash is
    left for future use. A value that is not understood counts as no flags. -/

namespace TraceLink

/-- **Extension flags** of a hop. -/
structure Extension where
  /-- The segments of this trace are not to be analysed. -/
  skipAnalysis : Bool
  /-- When the message was sent, in milliseconds. -/
  sentAt : Option UInt64
  deriving Repr, DecidableEq

namespace Extension

/-- No flags. -/
def none : Extension := ⟨false, .none⟩

instance : Inhabited Extension := ⟨none⟩

/-- The header value. -/
def encode (e : Extension) : String :=
  let time := match e.sentAt with
    | some t => Text.digits t.toNat
    | .none => []
  String.ofList ((if e.skipAnalysis then '1' else '0') :: '-' :: time)

/-- Reads the flag. -/
def readFlag (s : List Char) : Except HeaderFault Bool :=
  if s = ['1'] then .ok true
  else if s = ['0'] ∨ s = [] then .ok false
  else .error .skipFlag

/-- Reads the time, which may be left out. -/
def readTime : List (List Char) → Except HeaderFault (Option UInt64)
  | [] => .ok .none
  | s :: _ =>
    if s = [] then .ok .none
    else match Text.readWord s with
      | some t => .ok (some t)
      | .none => .error .timestamp

/-- Reads a header value. -/
def read (header : String) : Except HeaderFault Extension := do
  let (flag, rest) := Text.cut '-' header.toList
  let skip ← readFlag flag
  let time ← readTime rest
  return ⟨skip, time⟩

/-- The flags of a header value, none if it is not understood. -/
def decode (header : String) : Logged Extension :=
  match read header with
  | .ok e => pure e
  | .error f => do
    Logged.note (.headerFault f)
    pure none

end Extension

end TraceLink
