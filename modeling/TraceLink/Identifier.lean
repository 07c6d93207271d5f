/-! # Identifiers

    A trace or segment id is made of three parts joined by dots: the random name
    of the process, the ordinal of the strand that asks, and the time in
    milliseconds followed by a rolling number of four digits. -/

namespace TraceLink

/-! ### Random names -/

/-- Two hexadecimal digits of a byte. -/
def hexByte (b : UInt8) : List Char :=
  [Nat.digitChar (b.toNat / 16), Nat.digitChar (b.toNat % 16)]

/-- The bytes of a random universally unique identifier: the version 4 stands in
    the seventh byte, the variant in the ninth. -/
def randomUuid (random : List UInt8) : List UInt8 :=
  (random.modify 6 fun b => b &&& 0x0F ||| 0x40).modify 8 fun b => b &&& 0x3F ||| 0x80

/-- The name made of 16 random bytes. -/
def randomName (random : List UInt8) : String :=
  String.ofList ((randomUuid random).flatMap hexByte)

/-! ### Ids -/

/-- **Source of ids** of one process. -/
structure IdSource where
  process : String
  /-- How many ids were made. -/
  sequence : UInt64
  /-- The ordinal of the next strand. -/
  ordinal : UInt64
  deriving Repr, DecidableEq

namespace IdSource

/-- The source before its first id. -/
def new (process : String) : IdSource := ⟨process, 0, 0⟩

/-- Hands out the ordinal of a new strand. -/
def nextOrdinal (i : IdSource) : UInt64 × IdSource :=
  (i.ordinal, { i with ordinal := i.ordinal + 1 })

/-- The time in milliseconds followed by the last four digits of the sequence. It is
    reduced to 64 bits, and holds both as long as there is room for them. -/
def stamp (now sequence : UInt64) : UInt64 := now * 10000 + sequence % 10000

/-- Makes an id for the strand with the given ordinal. -/
def generate (i : IdSource) (ordinal now : UInt64) : String × IdSource :=
  (s!"{i.process}.{ordinal}.{stamp now i.sequence}", { i with sequence := i.sequence + 1 })

end IdSource

end TraceLink
