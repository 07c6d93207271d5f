/-! # Decimal numbers

    Numbers are written with the fewest digits and a minus sign where needed.
    Reading is more lenient: leading zeros and one plus sign are accepted. What
    is read must fit into a machine word, whose range the reader is given. -/

namespace TraceLink.Text

/-- The value of a decimal digit. -/
def digit? (c : Char) : Option Nat :=
  if '0' ≤ c ∧ c ≤ '9' then some (c.toNat - '0'.toNat) else none

/-- The number that `n` becomes when the digits are written behind it. -/
def readOnto (n : Nat) : List Char → Option Nat
  | [] => some n
  | c :: rest => (digit? c).bind fun d => readOnto (10 * n + d) rest

/-- The number with these digits, of which there must be one at least. -/
def readDigits : List Char → Option Nat
  | [] => none
  | s => readOnto 0 s

/-- The text without a plus sign at its beginning. -/
def dropPlus : List Char → List Char
  | '+' :: rest => rest
  | s => s

/-- Reads a number below `bound`. -/
def readNat (bound : Nat) (s : List Char) : Option Nat :=
  (readDigits (dropPlus s)).filter (· < bound)

/-- Reads a number in the range of a signed word: at least `-bound` and below
    `bound`. -/
def readInt (bound : Nat) : List Char → Option Int
  | '-' :: rest => ((readDigits rest).filter (· ≤ bound)).map fun (n : Nat) => -(n : Int)
  | s => (readNat bound s).map fun (n : Nat) => (n : Int)

/-- Reads a 64-bit number without sign. -/
def readWord (s : List Char) : Option UInt64 := (readNat UInt64.size s).map UInt64.ofNat

/-- Reads a 32-bit number with sign. -/
def readInt32 (s : List Char) : Option Int := readInt 0x80000000 s

/-- The digits of a number. -/
def digits (n : Nat) : List Char := Nat.toDigits 10 n

/-- A number with sign. -/
def signed : Int → List Char
  | .ofNat n => digits n
  | .negSucc n => '-' :: digits (n + 1)

/-! ### Writing and reading back -/

theorem readOnto_append (n : Nat) (s t : List Char) :
    readOnto n (s ++ t) = (readOnto n s).bind (readOnto · t) := by
  induction s generalizing n with
  | nil => rfl
  | cons c rest ih =>
    cases h : digit? c <;> simp [readOnto, h, ih]

theorem digit?_digitChar {d : Nat} (h : d < 10) : digit? d.digitChar = some d := by
  revert d; decide

theorem readOnto_digits (n : Nat) : readOnto 0 (digits n) = some n := by
  induction n using Nat.strongRecOn with
  | _ n ih =>
    by_cases h : n < 10
    · simp [digits, Nat.toDigits_of_lt_base h, readOnto, digit?_digitChar h]
    · have small : n % 10 < 10 := Nat.mod_lt _ (by omega)
      have ih := ih (n / 10) (by omega)
      rw [digits] at ih
      rw [digits, Nat.toDigits_of_base_le (by omega) (by omega), readOnto_append, ih]
      simp only [Option.bind_some, readOnto, digit?_digitChar small, Option.some.injEq]
      omega

theorem readDigits_digits (n : Nat) : readDigits (digits n) = some n := by
  have h := readOnto_digits n
  have : digits n ≠ [] := Nat.toDigits_ne_nil
  cases hd : digits n with
  | nil => contradiction
  | cons c rest => rw [hd] at h; exact h

theorem head_digits (n : Nat) : ∃ c rest, digits n = c :: rest ∧ (digit? c).isSome := by
  cases hd : digits n with
  | nil => exact absurd hd Nat.toDigits_ne_nil
  | cons c rest =>
    have h := readOnto_digits n
    rw [hd, readOnto] at h
    refine ⟨c, rest, rfl, ?_⟩
    cases hc : digit? c <;> simp_all

theorem readNat_digits {n bound : Nat} (h : n < bound) : readNat bound (digits n) = some n := by
  obtain ⟨c, rest, hd, hc⟩ := head_digits n
  have plain : dropPlus (digits n) = digits n := by
    rw [hd]
    have : c ≠ '+' := by rintro rfl; revert hc; decide
    simp [dropPlus, this]
  simp [readNat, plain, readDigits_digits, h]

theorem readInt_signed {n : Int} {bound : Nat} (low : -bound ≤ n) (high : n < bound) :
    readInt bound (signed n) = some n := by
  cases n with
  | ofNat n =>
    obtain ⟨c, rest, hd, hc⟩ := head_digits n
    have hn : n < bound := by simpa using high
    have : c ≠ '-' := by rintro rfl; revert hc; decide
    have h := readNat_digits hn
    rw [signed, hd]
    rw [hd] at h
    simp [readInt, this, h]
  | negSucc n =>
    have : n + 1 ≤ bound := by omega
    simp only [signed, readInt, readDigits_digits, Option.filter_some, this, decide_true, if_true,
      Option.map_some]
    rfl

theorem readWord_digits (w : UInt64) : readWord (digits w.toNat) = some w := by
  simp [readWord, readNat_digits w.toNat_lt]

/-- Digits only are written. -/
theorem not_mem_digits {c : Char} (h : c.isDigit = false) (n : Nat) : c ∉ digits n := by
  intro hc
  simp [Nat.isDigit_of_mem_toDigits (by omega) (by omega) hc] at h

end TraceLink.Text
