import TraceLink.Entries
import TraceLink.Text.Quoted

/-! # Scratch values

    A strand carries values for the instrumentations that run on it. Every value
    has a kind, and whoever asks for a value has to name its kind. -/

namespace TraceLink

/-- **Kind** of a scratch value. -/
inductive ScratchKind where
  | text
  | word32
  | int64
  | bool
  deriving Repr, DecidableEq

/-- **Scratch value**. -/
inductive ScratchValue where
  | text (s : String)
  | word32 (n : UInt32)
  | int64 (n : Int64)
  | bool (b : Bool)
  deriving Repr, DecidableEq

/-- The kind of a value. -/
def ScratchValue.kind : ScratchValue → ScratchKind
  | text _ => .text
  | word32 _ => .word32
  | int64 _ => .int64
  | bool _ => .bool

/-- **Scratch values** by key. -/
structure Scratch where
  entries : Entries String ScratchValue := []
  deriving Repr, DecidableEq

namespace Scratch

/-- Stores a value; the answer tells whether it took the place of another. -/
def put (s : Scratch) (key : String) (v : ScratchValue) : Bool × Scratch :=
  (s.entries.hasKey key, ⟨s.entries.put key v⟩)

/-- The value under `key`, if it has the given kind. -/
def get? (s : Scratch) (kind : ScratchKind) (key : String) : Option ScratchValue :=
  (s.entries.get? key).filter (·.kind = kind)

/-- Replaces a value by one of its own kind; the answer tells whether there was one. -/
def set (s : Scratch) (key : String) (v : ScratchValue) : Bool × Scratch :=
  match s.get? v.kind key with
  | some _ => (true, ⟨s.entries.put key v⟩)
  | none => (false, s)

/-- Takes out the value under `key`, if it has the given kind. -/
def remove (s : Scratch) (kind : ScratchKind) (key : String) : Option ScratchValue × Scratch :=
  match s.get? kind key with
  | some v => (some v, ⟨s.entries.erase key⟩)
  | none => (none, s)

/-- There is a value under `key`. -/
def contains (s : Scratch) (key : String) : Bool := s.entries.hasKey key

/-- How many values there are. -/
def size (s : Scratch) : Nat := s.entries.length

/-- The keys, as they are shown. -/
def describe (s : Scratch) : String :=
  "RuntimeContext \x7b keys: [" ++ ", ".intercalate (s.entries.map fun e => Text.quoted e.1) ++
    "] \x7d"

end Scratch

/-- **Operation** on the scratch values. -/
inductive ScratchOp where
  | put (key : String) (v : ScratchValue)
  | get (kind : ScratchKind) (key : String)
  | set (key : String) (v : ScratchValue)
  | remove (kind : ScratchKind) (key : String)
  | contains (key : String)
  | clear
  | describe
  deriving Repr, DecidableEq

/-- **Answer** of a scratch operation. -/
inductive ScratchAnswer where
  | flag (b : Bool)
  | value (v : Option ScratchValue)
  | text (s : String)
  | done
  deriving Repr, DecidableEq

/-- Applies an operation. -/
def Scratch.apply (s : Scratch) : ScratchOp → ScratchAnswer × Scratch
  | .put key v =>
    let (replaced, s) := s.put key v
    (.flag replaced, s)
  | .get kind key => (.value (s.get? kind key), s)
  | .set key v =>
    let (found, s) := s.set key v
    (.flag found, s)
  | .remove kind key =>
    let (v, s) := s.remove kind key
    (.value v, s)
  | .contains key => (.flag (s.contains key), s)
  | .clear => (.done, {})
  | .describe => (.text s.describe, s)

end TraceLink
