/-! # Base64

    The standard alphabet of 64 characters. Three bytes are written as four
    characters; one or two bytes that are left over become two or three
    characters, filled up with `=` to four.

    Reading accepts what writing produces and, for a last group that is not
    full, also fewer `=` than that or none. The bits of the last character that
    belong to no byte must be zero, so each text has one form up to its `=`. -/

namespace TraceLink.Text.Base64

/-- The characters for the numbers from 0 to 63. -/
def alphabet : List Char :=
  "ABCDEFGHIJKLMNOPQRSTUVWXYZabcdefghijklmnopqrstuvwxyz0123456789+/".toList

/-- The character for a number below 64. -/
def symbol (n : Nat) : Char := alphabet.getD n 'A'

/-- The number for a character of the alphabet. -/
def sextet? (c : Char) : Option Nat := alphabet.idxOf? c

/-- The base64 form of some bytes. -/
def encode : List UInt8 → List Char
  | [] => []
  | [a] => [symbol (a.toNat / 4), symbol (a.toNat % 4 * 16), '=', '=']
  | [a, b] =>
    [symbol (a.toNat / 4), symbol (a.toNat % 4 * 16 + b.toNat / 16),
      symbol (b.toNat % 16 * 4), '=']
  | a :: b :: c :: rest =>
    symbol (a.toNat / 4) :: symbol (a.toNat % 4 * 16 + b.toNat / 16) ::
      symbol (b.toNat % 16 * 4 + c.toNat / 64) :: symbol (c.toNat % 64) :: encode rest

/-- The byte behind a last group of two characters. -/
def decodeTwo (w x : Char) : Option (List UInt8) := do
  let p ← sextet? w
  let q ← sextet? x
  if q % 16 = 0 then some [UInt8.ofNat (p * 4 + q / 16)] else none

/-- The bytes behind a last group of three characters. -/
def decodeThree (w x y : Char) : Option (List UInt8) := do
  let p ← sextet? w
  let q ← sextet? x
  let r ← sextet? y
  if r % 4 = 0 then
    some [UInt8.ofNat (p * 4 + q / 16), UInt8.ofNat (q % 16 * 16 + r / 4)]
  else none

/-- The bytes behind a full group. -/
def decodeFour (w x y z : Char) : Option (List UInt8) := do
  let p ← sextet? w
  let q ← sextet? x
  let r ← sextet? y
  let s ← sextet? z
  some [UInt8.ofNat (p * 4 + q / 16), UInt8.ofNat (q % 16 * 16 + r / 4),
    UInt8.ofNat (r % 4 * 64 + s)]

/-- The bytes whose base64 form is given. -/
def decode : List Char → Option (List UInt8)
  | [] => some []
  | [w, x] => decodeTwo w x
  | [w, x, '='] => decodeTwo w x
  | [w, x, '=', '='] => decodeTwo w x
  | [w, x, y] => decodeThree w x y
  | [w, x, y, '='] => decodeThree w x y
  | w :: x :: y :: z :: rest => do
    let group ← decodeFour w x y z
    let others ← decode rest
    some (group ++ others)
  | [_] => none

/-- The bytes of a text in UTF-8. -/
def bytes (s : String) : List UInt8 := s.toUTF8.data.toList

/-- The text whose UTF-8 form the bytes are, if they are one. -/
def text? (bs : List UInt8) : Option String := String.fromUTF8? ⟨bs.toArray⟩

/-- The base64 form of a text. -/
def ofText (s : String) : List Char := encode (bytes s)

/-- **Unreadable field**: why no text could be read from it. -/
inductive Unreadable where
  | notBase64
  | notUtf8
  deriving Repr, DecidableEq

/-- The text whose base64 form is given. -/
def toText (s : List Char) : Except Unreadable String :=
  match decode s with
  | none => .error .notBase64
  | some bs =>
    match text? bs with
    | none => .error .notUtf8
    | some t => .ok t

/-! ### Writing and reading back -/

theorem sextet?_symbol {n : Nat} (h : n < 64) : sextet? (symbol n) = some n := by
  revert n; decide +kernel

theorem symbol_mem {n : Nat} (h : n < 64) : symbol n ∈ alphabet := by
  revert n; decide +kernel

theorem pad_not_mem : '=' ∉ alphabet := by decide +kernel

theorem decodeTwo_symbols (a : UInt8) :
    decodeTwo (symbol (a.toNat / 4)) (symbol (a.toNat % 4 * 16)) = some [a] := by
  have := a.toNat_lt
  have ha : a.toNat / 4 * 4 + a.toNat % 4 * 16 / 16 = a.toNat := by omega
  simp only [decodeTwo, sextet?_symbol (n := a.toNat / 4) (by omega),
    sextet?_symbol (n := a.toNat % 4 * 16) (by omega), Option.bind_eq_bind, Option.bind_some]
  rw [if_pos (by omega), ha, UInt8.ofNat_toNat]

theorem decodeThree_symbols (a b : UInt8) :
    decodeThree (symbol (a.toNat / 4)) (symbol (a.toNat % 4 * 16 + b.toNat / 16))
      (symbol (b.toNat % 16 * 4)) = some [a, b] := by
  have := a.toNat_lt
  have := b.toNat_lt
  have ha : a.toNat / 4 * 4 + (a.toNat % 4 * 16 + b.toNat / 16) / 16 = a.toNat := by omega
  have hb : (a.toNat % 4 * 16 + b.toNat / 16) % 16 * 16 + b.toNat % 16 * 4 / 4 = b.toNat := by
    omega
  simp only [decodeThree, sextet?_symbol (n := a.toNat / 4) (by omega),
    sextet?_symbol (n := a.toNat % 4 * 16 + b.toNat / 16) (by omega),
    sextet?_symbol (n := b.toNat % 16 * 4) (by omega), Option.bind_eq_bind, Option.bind_some]
  rw [if_pos (by omega), ha, hb, UInt8.ofNat_toNat, UInt8.ofNat_toNat]

theorem decodeFour_symbols (a b c : UInt8) :
    decodeFour (symbol (a.toNat / 4)) (symbol (a.toNat % 4 * 16 + b.toNat / 16))
      (symbol (b.toNat % 16 * 4 + c.toNat / 64)) (symbol (c.toNat % 64)) = some [a, b, c] := by
  have := a.toNat_lt
  have := b.toNat_lt
  have := c.toNat_lt
  have ha : a.toNat / 4 * 4 + (a.toNat % 4 * 16 + b.toNat / 16) / 16 = a.toNat := by omega
  have hb : (a.toNat % 4 * 16 + b.toNat / 16) % 16 * 16 +
      (b.toNat % 16 * 4 + c.toNat / 64) / 4 = b.toNat := by omega
  have hc : (b.toNat % 16 * 4 + c.toNat / 64) % 4 * 64 + c.toNat % 64 = c.toNat := by omega
  simp only [decodeFour, sextet?_symbol (n := a.toNat / 4) (by omega),
    sextet?_symbol (n := a.toNat % 4 * 16 + b.toNat / 16) (by omega),
    sextet?_symbol (n := b.toNat % 16 * 4 + c.toNat / 64) (by omega),
    sextet?_symbol (n := c.toNat % 64) (by omega), Option.bind_eq_bind, Option.bind_some]
  rw [ha, hb, hc, UInt8.ofNat_toNat, UInt8.ofNat_toNat, UInt8.ofNat_toNat]

theorem symbol_ne_pad {n : Nat} (h : n < 64) : symbol n ≠ '=' :=
  fun e => pad_not_mem (e ▸ symbol_mem h)

/-- Reading undoes writing. -/
theorem decode_encode (bs : List UInt8) : decode (encode bs) = some bs := by
  fun_induction encode bs with
  | case1 => rfl
  | case2 a =>
    rw [decode, decodeTwo_symbols]
  | case3 a b =>
    have := symbol_ne_pad (n := b.toNat % 16 * 4) (by omega)
    rw [decode, decodeThree_symbols]
    simp_all
  | case4 a b c rest ih =>
    have := symbol_ne_pad (n := c.toNat % 64) (by omega)
    rw [decode, decodeFour_symbols, ih]
    all_goals simp_all

/-- Writing uses the alphabet and `=` only. -/
theorem not_mem_encode {x : Char} (h : x ∉ alphabet) (h' : x ≠ '=') (bs : List UInt8) :
    x ∉ encode bs := by
  have ne {n : Nat} (hn : n < 64) : x ≠ symbol n := fun e => h (e ▸ symbol_mem hn)
  fun_induction encode bs with
  | case1 => simp
  | case2 a =>
    have := a.toNat_lt
    simp [h', ne (n := a.toNat / 4) (by omega), ne (n := a.toNat % 4 * 16) (by omega)]
  | case3 a b =>
    have := a.toNat_lt
    have := b.toNat_lt
    simp [h', ne (n := a.toNat / 4) (by omega),
      ne (n := a.toNat % 4 * 16 + b.toNat / 16) (by omega), ne (n := b.toNat % 16 * 4) (by omega)]
  | case4 a b c rest ih =>
    have := a.toNat_lt
    have := b.toNat_lt
    have := c.toNat_lt
    simp [ih, ne (n := a.toNat / 4) (by omega),
      ne (n := a.toNat % 4 * 16 + b.toNat / 16) (by omega),
      ne (n := b.toNat % 16 * 4 + c.toNat / 64) (by omega), ne (n := c.toNat % 64) (by omega)]

/-- The bytes of a text are the UTF-8 form of that text. -/
theorem text?_bytes (s : String) : text? (bytes s) = some s := by
  have : text? (bytes s) = String.fromUTF8? s.toUTF8 := rfl
  rw [this, String.fromUTF8?]
  exact dif_pos s.isValidUTF8

/-- The UTF-8 form of only one text. -/
theorem bytes_of_text? {bs : List UInt8} {s : String} (h : text? bs = some s) :
    bytes s = bs := by
  rw [text?, String.fromUTF8?] at h
  split at h
  · cases h
    rfl
  · contradiction

/-- A text is read back as it was written. -/
theorem toText_ofText (s : String) : toText (ofText s) = .ok s := by
  simp [toText, ofText, decode_encode, text?_bytes]

end TraceLink.Text.Base64
