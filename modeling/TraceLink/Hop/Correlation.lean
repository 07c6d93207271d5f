import TraceLink.Logged
import TraceLink.Text.Base64
import TraceLink.Text.Fields

/-! # Correlation entries

    User data that travels with a trace: keys and values in the order in which
    the keys first came. Their number and the size of a value are bounded; what
    exceeds a bound is refused.

    On the wire a pair is `key:value`, both in base64, and pairs are separated by
    commas. Reading skips each pair that it does not understand. -/

namespace TraceLink

/-- **Limits** of the correlation entries. -/
structure Correlation.Limits where
  /-- Most entries held at a time. -/
  entries : Nat
  /-- Most bytes of a value. -/
  valueBytes : Nat
  deriving Repr, DecidableEq

/-- **Correlation entries** and the limits that they respect. -/
structure Correlation where
  limits : Correlation.Limits
  entries : Entries String String
  deriving Repr, DecidableEq

namespace Correlation

/-- The limits where none are configured. -/
def Limits.standard : Limits := ⟨3, 128⟩

/-- No entries. -/
def empty (limits : Limits) : Correlation := ⟨limits, []⟩

instance : Inhabited Correlation := ⟨empty .standard⟩

/-- The value under `key`. -/
def get? (c : Correlation) (key : String) : Option String := c.entries.get? key

/-- The correlation without the entry under `key`. -/
def erase (c : Correlation) (key : String) : Correlation :=
  { c with entries := c.entries.erase key }

/-- Stores `value` under `key`, in the place of an earlier value. An empty value
    removes the entry. The answer is `false`, and nothing changes, if the key is
    empty, the value too long, or the key new and no entry free. -/
def put (c : Correlation) (key value : String) : Logged (Bool × Correlation) :=
  if key = "" then pure (false, c)
  else if value = "" then pure (true, c.erase key)
  else if c.limits.valueBytes < value.utf8ByteSize then do
    Logged.note (.correlationValueTooLong key value.utf8ByteSize c.limits.valueBytes)
    pure (false, c)
  else if c.entries.hasKey key || c.entries.length < c.limits.entries then
    pure (true, { c with entries := c.entries.put key value })
  else do
    Logged.note (.correlationFull key c.limits.entries)
    pure (false, c)

/-- Stores a list of entries one after the other; what is refused is left out. -/
def putAll (c : Correlation) (es : Entries String String) : Logged Correlation :=
  es.foldlM (fun c e => do return (← c.put e.1 e.2).2) c

/-- Stores every entry of `other` here, within the limits that hold here. -/
def merge (c other : Correlation) : Logged Correlation := c.putAll other.entries

/-! ### Wire form -/

/-- One pair on the wire. -/
def encodePair (e : String × String) : List Char :=
  Text.Base64.ofText e.1 ++ ':' :: Text.Base64.ofText e.2

/-- The header value, none if there is nothing to send. -/
def encode (c : Correlation) : Option String :=
  if c.entries = [] then none
  else some (String.ofList (Text.joined ',' (c.entries.map encodePair)))

/-- One side of a pair. -/
def decodeSide (s : List Char) : Except HeaderFault String :=
  match Text.Base64.toText s with
  | .ok t => .ok t
  | .error .notBase64 => .error .pairBase64
  | .error .notUtf8 => .error .pairUtf8

/-- Reads one pair. -/
def decodePair (s : List Char) : Except HeaderFault (String × String) :=
  match Text.cutOnce? ':' s with
  | none => .error .pairSeparator
  | some (k, v) => do return (← decodeSide k, ← decodeSide v)

/-- Stores the entry that a pair holds, if it holds one. -/
def putPair (c : Correlation) (s : List Char) : Logged Correlation :=
  match decodePair s with
  | .ok (k, v) => do return (← c.put k v).2
  | .error f => do
    Logged.note (.headerFault f)
    pure c

/-- Stores the entries of a header value. -/
def decode (c : Correlation) (header : String) : Logged Correlation :=
  ((Text.fields ',' header.toList).filter (· ≠ [])).foldlM putPair c

end Correlation

end TraceLink
