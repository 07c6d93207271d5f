import Mathlib.Data.List.TakeWhile
import Mathlib.Data.Nat.Digits.Defs
import TraceLink.Hop.RemoteContext
import TraceLink.Proofs.HeaderRoundTrip

/-! # Forms of fields

    Which texts the readers of single fields accept, said without the readers: a
    base64 field is what writing produces, with any of the `=` at its end left out,
    and a number is a plus sign or nothing and then digits.

    And how the fields of a text follow when something is written behind it, or when
    it is trimmed. -/

namespace TraceLink.Text

/-! ### Base64 -/

namespace Base64

/-- **Form of a text**: its base64 form, with any of the `=` at the end left out. -/
def IsFormOf (f : List Char) (t : String) : Prop := ∃ n, f ++ List.replicate n '=' = ofText t

theorem sextet?_eq_some {c : Char} {n : Nat} (h : sextet? c = some n) :
    n < 64 ∧ symbol n = c := by
  obtain ⟨hlt, hget, -⟩ := List.idxOf?_eq_some_iff.mp h
  refine ⟨hlt, ?_⟩
  rw [symbol, List.getD_eq_getElem?_getD, List.getElem?_eq_getElem hlt, Option.getD_some, hget]

theorem toNat_ofNat {n : Nat} (h : n < 256) : (UInt8.ofNat n).toNat = n :=
  UInt8.toNat_ofNat_of_lt' h

/-- The last group of one byte is read from the characters that it is written with. -/
theorem decodeTwo_eq_some {w x : Char} {bs : List UInt8} :
    decodeTwo w x = some bs ↔ ∃ a, bs = [a] ∧ encode [a] = [w, x, '=', '='] := by
  constructor
  · intro h
    simp only [decodeTwo, Option.bind_eq_bind, Option.bind_eq_some_iff] at h
    obtain ⟨p, hp, q, hq, h⟩ := h
    obtain ⟨hp64, rfl⟩ := sextet?_eq_some hp
    obtain ⟨hq64, rfl⟩ := sextet?_eq_some hq
    by_cases hzero : q % 16 = 0
    · rw [if_pos hzero] at h
      have hbyte : (UInt8.ofNat (p * 4 + q / 16)).toNat = p * 4 + q / 16 :=
        toNat_ofNat (by omega)
      refine ⟨_, (Option.some.inj h).symm, ?_⟩
      rw [encode, hbyte, show (p * 4 + q / 16) / 4 = p by omega,
        show (p * 4 + q / 16) % 4 * 16 = q by omega]
    · rw [if_neg hzero] at h
      contradiction
  · rintro ⟨a, rfl, h⟩
    simp only [encode, List.cons.injEq] at h
    obtain ⟨rfl, rfl, -⟩ := h
    exact decodeTwo_symbols a

/-- The last group of two bytes is read from the characters that it is written with. -/
theorem decodeThree_eq_some {w x y : Char} {bs : List UInt8} :
    decodeThree w x y = some bs ↔ ∃ a b, bs = [a, b] ∧ encode [a, b] = [w, x, y, '='] := by
  constructor
  · intro h
    simp only [decodeThree, Option.bind_eq_bind, Option.bind_eq_some_iff] at h
    obtain ⟨p, hp, q, hq, r, hr, h⟩ := h
    obtain ⟨hp64, rfl⟩ := sextet?_eq_some hp
    obtain ⟨hq64, rfl⟩ := sextet?_eq_some hq
    obtain ⟨hr64, rfl⟩ := sextet?_eq_some hr
    by_cases hzero : r % 4 = 0
    · rw [if_pos hzero] at h
      have hfirst : (UInt8.ofNat (p * 4 + q / 16)).toNat = p * 4 + q / 16 :=
        toNat_ofNat (by omega)
      have hsecond : (UInt8.ofNat (q % 16 * 16 + r / 4)).toNat = q % 16 * 16 + r / 4 :=
        toNat_ofNat (by omega)
      refine ⟨_, _, (Option.some.inj h).symm, ?_⟩
      rw [encode, hfirst, hsecond, show (p * 4 + q / 16) / 4 = p by omega,
        show (p * 4 + q / 16) % 4 * 16 + (q % 16 * 16 + r / 4) / 16 = q by omega,
        show (q % 16 * 16 + r / 4) % 16 * 4 = r by omega]
    · rw [if_neg hzero] at h
      contradiction
  · rintro ⟨a, b, rfl, h⟩
    simp only [encode, List.cons.injEq] at h
    obtain ⟨rfl, rfl, rfl, -⟩ := h
    exact decodeThree_symbols a b

/-- A full group is read from the characters that it is written with. -/
theorem decodeFour_eq_some {w x y z : Char} {bs : List UInt8} :
    decodeFour w x y z = some bs ↔ ∃ a b c, bs = [a, b, c] ∧ encode [a, b, c] = [w, x, y, z] := by
  constructor
  · intro h
    simp only [decodeFour, Option.bind_eq_bind, Option.bind_eq_some_iff] at h
    obtain ⟨p, hp, q, hq, r, hr, s, hs, h⟩ := h
    obtain ⟨hp64, rfl⟩ := sextet?_eq_some hp
    obtain ⟨hq64, rfl⟩ := sextet?_eq_some hq
    obtain ⟨hr64, rfl⟩ := sextet?_eq_some hr
    obtain ⟨hs64, rfl⟩ := sextet?_eq_some hs
    have hfirst : (UInt8.ofNat (p * 4 + q / 16)).toNat = p * 4 + q / 16 :=
      toNat_ofNat (by omega)
    have hsecond : (UInt8.ofNat (q % 16 * 16 + r / 4)).toNat = q % 16 * 16 + r / 4 :=
      toNat_ofNat (by omega)
    have hthird : (UInt8.ofNat (r % 4 * 64 + s)).toNat = r % 4 * 64 + s :=
      toNat_ofNat (by omega)
    refine ⟨_, _, _, (Option.some.inj h).symm, ?_⟩
    rw [encode, hfirst, hsecond, hthird, encode, show (p * 4 + q / 16) / 4 = p by omega,
      show (p * 4 + q / 16) % 4 * 16 + (q % 16 * 16 + r / 4) / 16 = q by omega,
      show (q % 16 * 16 + r / 4) % 16 * 4 + (r % 4 * 64 + s) / 64 = r by omega,
      show (r % 4 * 64 + s) % 64 = s by omega]
  · rintro ⟨a, b, c, rfl, h⟩
    simp only [encode, List.cons.injEq] at h
    obtain ⟨rfl, rfl, rfl, rfl, -⟩ := h
    exact decodeFour_symbols a b c

/-- **Reading accepts** the written form only, without some of the `=` at its end. -/
theorem encode_of_decode {f : List Char} {bs : List UInt8} (h : decode f = some bs) :
    ∃ n, f ++ List.replicate n '=' = encode bs := by
  fun_induction decode f generalizing bs with
  | case1 =>
    obtain rfl := Option.some.inj h
    exact ⟨0, rfl⟩
  | case2 w x =>
    obtain ⟨a, rfl, henc⟩ := decodeTwo_eq_some.mp h
    exact ⟨2, henc.symm⟩
  | case3 w x =>
    obtain ⟨a, rfl, henc⟩ := decodeTwo_eq_some.mp h
    exact ⟨1, henc.symm⟩
  | case4 w x =>
    obtain ⟨a, rfl, henc⟩ := decodeTwo_eq_some.mp h
    exact ⟨0, henc.symm⟩
  | case5 w x y hy =>
    obtain ⟨a, b, rfl, henc⟩ := decodeThree_eq_some.mp h
    exact ⟨1, henc.symm⟩
  | case6 w x y hy =>
    obtain ⟨a, b, rfl, henc⟩ := decodeThree_eq_some.mp h
    exact ⟨0, henc.symm⟩
  | case7 w x y z rest hpads hpad ih =>
    simp only [Option.bind_eq_bind, Option.bind_eq_some_iff] at h
    obtain ⟨group, hgroup, others, hothers, h⟩ := h
    obtain ⟨a, b, c, rfl, henc⟩ := decodeFour_eq_some.mp hgroup
    obtain ⟨n, hn⟩ := ih hothers
    obtain rfl := Option.some.inj h
    simp only [encode, List.cons.injEq] at henc
    obtain ⟨rfl, rfl, rfl, rfl, -⟩ := henc
    refine ⟨n, ?_⟩
    show _ :: _ :: _ :: _ :: (rest ++ _) = encode (a :: b :: c :: others)
    rw [hn, encode]
  | case8 c => contradiction

/-- A character other than `=` is not among those that were left out. -/
theorem cons_of_append_pads {f rest : List Char} {n : Nat} {x : Char} (hx : x ≠ '=')
    (h : f ++ List.replicate n '=' = x :: rest) :
    ∃ f', f = x :: f' ∧ f' ++ List.replicate n '=' = rest := by
  cases f with
  | nil =>
    cases n with
    | zero => contradiction
    | succ n =>
      rw [List.nil_append, List.replicate_succ, List.cons.injEq] at h
      exact absurd h.1.symm hx
  | cons c f =>
    rw [List.cons_append, List.cons.injEq] at h
    exact ⟨f, by rw [h.1], h.2⟩

/-- Reading gets back what was written, also without some of the `=` at its end. -/
theorem decode_of_encode {f : List Char} {n : Nat} {bs : List UInt8}
    (h : f ++ List.replicate n '=' = encode bs) : decode f = some bs := by
  fun_induction encode bs generalizing f with
  | case1 =>
    rw [(List.append_eq_nil_iff.mp h).1]
    rfl
  | case2 a =>
    have := a.toNat_lt
    obtain ⟨f, rfl, h₁⟩ := cons_of_append_pads (symbol_ne_pad (by omega)) h
    obtain ⟨f, rfl, h₂⟩ := cons_of_append_pads (symbol_ne_pad (by omega)) h₁
    have hread := decodeTwo_symbols a
    cases f with
    | nil => exact hread
    | cons y f =>
      rw [List.cons_append, List.cons.injEq] at h₂
      rw [h₂.1]
      cases f with
      | nil => exact hread
      | cons z rest =>
        simp only [List.cons_append, List.cons.injEq, List.append_eq_nil_iff] at h₂
        rw [h₂.2.1, h₂.2.2.1]
        exact hread
  | case3 a b =>
    have := a.toNat_lt
    have := b.toNat_lt
    have hlast : symbol (b.toNat % 16 * 4) ≠ '=' := symbol_ne_pad (by omega)
    obtain ⟨f, rfl, h₁⟩ := cons_of_append_pads (symbol_ne_pad (by omega)) h
    obtain ⟨f, rfl, h₂⟩ := cons_of_append_pads (symbol_ne_pad (by omega)) h₁
    obtain ⟨f, rfl, h₃⟩ := cons_of_append_pads hlast h₂
    cases f with
    | nil =>
      rw [decode, decodeThree_symbols]
      exact hlast
    | cons z rest =>
      simp only [List.cons_append, List.cons.injEq, List.append_eq_nil_iff] at h₃
      rw [h₃.1, h₃.2.1, decode, decodeThree_symbols]
      exact hlast
  | case4 a b c others ih =>
    have := a.toNat_lt
    have := b.toNat_lt
    have := c.toNat_lt
    have hlast : symbol (c.toNat % 64) ≠ '=' := symbol_ne_pad (by omega)
    obtain ⟨f, rfl, h₁⟩ := cons_of_append_pads (symbol_ne_pad (by omega)) h
    obtain ⟨f, rfl, h₂⟩ := cons_of_append_pads (symbol_ne_pad (by omega)) h₁
    obtain ⟨f, rfl, h₃⟩ := cons_of_append_pads (symbol_ne_pad (by omega)) h₂
    obtain ⟨f, rfl, h₄⟩ := cons_of_append_pads hlast h₃
    rw [decode, decodeFour_symbols, ih h₄]
    · rfl
    · simp [hlast]
    · simp [hlast]

/-- **Reading a text** accepts its forms and nothing else. -/
theorem toText_eq_ok {f : List Char} {t : String} : toText f = .ok t ↔ IsFormOf f t := by
  constructor
  · intro h
    unfold toText at h
    cases hdecode : decode f with
    | none =>
      rw [hdecode] at h
      contradiction
    | some bs =>
      cases htext : text? bs with
      | none =>
        simp only [hdecode, htext] at h
        contradiction
      | some t' =>
        simp only [hdecode, htext, Except.ok.injEq] at h
        obtain rfl := h
        obtain ⟨n, hn⟩ := encode_of_decode hdecode
        exact ⟨n, by rw [hn, ofText, bytes_of_text? htext]⟩
  · rintro ⟨n, hn⟩
    rw [toText, decode_of_encode hn]
    simp only [text?_bytes]

/-- A form without some of its `=` is a form of the same text. -/
theorem IsFormOf.unpad {f : List Char} {n : Nat} {t : String}
    (h : IsFormOf (f ++ List.replicate n '=') t) : IsFormOf f t := by
  obtain ⟨m, hm⟩ := h
  exact ⟨n + m, by rw [← hm, List.append_assoc, List.replicate_append_replicate]⟩

/-- A text has no form with white space. -/
theorem IsFormOf.isBlank {f : List Char} {t : String} (h : IsFormOf f t) :
    ∀ c ∈ f, isBlank c = false := by
  obtain ⟨n, hn⟩ := h
  intro c hc
  apply RemoteContext.isBlank_of_mem_ofText (s := t)
  rw [← hn]
  exact List.mem_append_left _ hc

end Base64

/-! ### Numbers -/

/-- Decimal digits, as they are written. -/
def digitChars (ds : List (Fin 10)) : List Char := ds.map fun (d : Fin 10) => d.val.digitChar

/-- The number that digits stand for, the first one counting most. -/
def valueOf (ds : List (Fin 10)) : Nat := Nat.ofDigits 10 (ds.reverse.map Fin.val)

/-- **Numeral**: one decimal digit at least, and a plus sign before the digits or not. -/
def IsNumeralOf (f : List Char) (n : Nat) : Prop :=
  ∃ ds, ds ≠ [] ∧ n = valueOf ds ∧ (f = digitChars ds ∨ f = '+' :: digitChars ds)

theorem digit?_eq_some {c : Char} {d : Nat} : digit? c = some d ↔ d < 10 ∧ c = d.digitChar := by
  constructor
  · intro h
    unfold digit? at h
    by_cases hc : '0' ≤ c ∧ c ≤ '9'
    · rw [if_pos hc] at h
      have low : 48 ≤ c.toNat := hc.1
      have high : c.toNat ≤ 57 := hc.2
      have hd : c.toNat - 48 = d := Option.some.inj h
      refine ⟨by omega, ?_⟩
      rw [← Char.ofNat_toNat c, show c.toNat = 48 + d by omega]
      have hall : ∀ d < 10, Char.ofNat (48 + d) = d.digitChar := by decide
      exact hall d (by omega)
    · rw [if_neg hc] at h
      contradiction
  · rintro ⟨hd, rfl⟩
    exact digit?_digitChar hd

/-- Reading takes digits only, and counts each of them behind what was read before. -/
theorem readOnto_eq_some {s : List Char} {m n : Nat} :
    readOnto m s = some n ↔ ∃ ds : List (Fin 10), s = digitChars ds ∧
      n = ds.foldl (fun m (d : Fin 10) => 10 * m + d.val) m := by
  induction s generalizing m with
  | nil =>
    constructor
    · intro h
      exact ⟨[], rfl, (Option.some.inj h).symm⟩
    · rintro ⟨ds, hds, rfl⟩
      rw [List.map_eq_nil_iff.mp hds.symm]
      rfl
  | cons c s ih =>
    constructor
    · intro h
      obtain ⟨d, hd, hrest⟩ := Option.bind_eq_some_iff.mp h
      obtain ⟨hlt, rfl⟩ := digit?_eq_some.mp hd
      obtain ⟨ds, rfl, rfl⟩ := ih.mp hrest
      exact ⟨⟨d, hlt⟩ :: ds, rfl, rfl⟩
    · rintro ⟨ds, hds, rfl⟩
      cases ds with
      | nil => contradiction
      | cons d ds =>
        obtain ⟨rfl, rfl⟩ := List.cons.inj hds
        rw [readOnto, digit?_digitChar d.isLt, Option.bind_some]
        exact ih.mpr ⟨ds, rfl, rfl⟩

/-- The digits counted one behind the other are those of the number. -/
theorem foldl_digits (ds : List (Fin 10)) :
    ds.foldl (fun m (d : Fin 10) => 10 * m + d.val) 0 = valueOf ds := by
  rw [List.foldl_eq_foldr_reverse, valueOf, Nat.ofDigits_eq_foldr, List.foldr_map]
  simp only [Nat.cast_id, Nat.add_comm]

theorem readDigits_eq_some {s : List Char} {n : Nat} :
    readDigits s = some n ↔ ∃ ds, ds ≠ [] ∧ s = digitChars ds ∧ n = valueOf ds := by
  cases s with
  | nil =>
    constructor
    · intro h
      contradiction
    · rintro ⟨ds, hne, hds, -⟩
      exact absurd (List.map_eq_nil_iff.mp hds.symm) hne
  | cons c s =>
    show readOnto 0 (c :: s) = some n ↔ _
    rw [readOnto_eq_some]
    constructor
    · rintro ⟨ds, hds, hn⟩
      refine ⟨ds, ?_, hds, hn.trans (foldl_digits ds)⟩
      rintro rfl
      contradiction
    · rintro ⟨ds, -, hds, hn⟩
      exact ⟨ds, hds, hn.trans (foldl_digits ds).symm⟩

/-- **Reading a number** accepts its numerals and nothing else. -/
theorem readNat_eq_some {bound n : Nat} {f : List Char} :
    readNat bound f = some n ↔ IsNumeralOf f n ∧ n < bound := by
  have hplus (d : Fin 10) : Nat.digitChar d ≠ '+' := by
    revert d
    decide
  rw [readNat, Option.filter_eq_some_iff, decide_eq_true_iff, readDigits_eq_some]
  refine and_congr_left fun _ => ⟨?_, ?_⟩
  · rintro ⟨ds, hne, hds, hn⟩
    refine ⟨ds, hne, hn, ?_⟩
    unfold dropPlus at hds
    split at hds
    · exact .inr (by rw [hds])
    · exact .inl hds
  · rintro ⟨ds, hne, hn, hf⟩
    refine ⟨ds, hne, ?_, hn⟩
    rcases hf with rfl | rfl
    · -- the first digit is no plus sign
      cases ds with
      | nil => contradiction
      | cons d ds =>
        show dropPlus (d.val.digitChar :: digitChars ds) = _
        rw [dropPlus]
        · rfl
        · exact fun rest heq => hplus d (List.cons.inj heq).1
    · rfl

/-! ### White space and separators -/

section

variable {s a b : List Char} {c : Char}

theorem trimStart_of_head (h : isBlank c = false) : trimStart (c :: s) = c :: s := by
  rw [trimStart, List.dropWhile_cons_of_neg (by simp [h])]

/-- Trimming stops at a character that is not blank. -/
theorem trimEnd_append (h : isBlank c = false) : trimEnd (a ++ c :: b) = a ++ c :: trimEnd b := by
  have hstop : ([c] ++ a.reverse).dropWhile isBlank = [c] ++ a.reverse :=
    List.dropWhile_cons_of_neg (by simp [h])
  have hreverse : (a ++ c :: b).reverse = b.reverse ++ ([c] ++ a.reverse) := by simp
  unfold trimEnd
  rw [hreverse, List.dropWhile_append, hstop]
  split
  · next hempty => simp [List.isEmpty_iff.mp hempty]
  · simp

theorem trimEnd_eq_self (h : ∀ c ∈ s, isBlank c = false) : trimEnd s = s := by
  cases hreverse : s.reverse with
  | nil => rw [trimEnd, hreverse, List.reverse_eq_nil_iff.mp hreverse]; rfl
  | cons c t =>
    have hc := h c (List.mem_reverse.mp (hreverse ▸ List.mem_cons_self))
    rw [trimEnd, hreverse, List.dropWhile_cons_of_neg (by simp [hc]), ← hreverse,
      List.reverse_reverse]

theorem mem_of_mem_trimEnd (h : c ∈ trimEnd s) : c ∈ s :=
  List.mem_reverse.mp ((List.dropWhile_suffix _).subset (List.mem_reverse.mp h))

/-- White space around a text is trimmed. -/
theorem trim_surrounded {before after : List Char} (hbefore : ∀ c ∈ before, isBlank c)
    (hafter : ∀ c ∈ after, isBlank c) : trim (before ++ s ++ after) = trim s := by
  have hend (t : List Char) : trimEnd (t ++ after) = trimEnd t := by
    rw [trimEnd, trimEnd, List.reverse_append, List.dropWhile_append_of_pos
      fun c hc => hafter c (List.mem_reverse.mp hc)]
  have hstart : trimStart (before ++ s ++ after) = trimStart (s ++ after) := by
    rw [trimStart, trimStart, List.append_assoc, List.dropWhile_append_of_pos hbefore]
  rw [trim, trim, hstart, trimStart, List.dropWhile_append, List.dropWhile_eq_nil_iff.mpr hafter]
  split
  · next hempty => rw [trimStart, List.isEmpty_iff.mp hempty]
  · exact hend _

/-- What is written behind a separator is read as further fields. -/
theorem fields_append (sep : Char) (a b : List Char) :
    fields sep (a ++ sep :: b) = fields sep a ++ fields sep b := by
  induction a with
  | nil => simp [fields, cut]
  | cons c a ih =>
    simp only [fields, List.cons_append, List.cons.injEq] at ih
    by_cases hc : c = sep
    · simp [fields, cut, hc, ih.1, ih.2]
    · simp [fields, cut, hc, ih.1, ih.2]

theorem fields_of_not_mem {sep : Char} (h : sep ∉ s) : fields sep s = [s] := by
  have hone : ∀ g ∈ [s], sep ∉ g := by
    intro g hg
    rw [List.mem_singleton.mp hg]
    exact h
  rw [← joined_singleton sep s, fields_joined hone, joined_singleton]

theorem joined_append_singleton (sep : Char) (f last : List Char) (fs : List (List Char)) :
    joined sep (f :: fs ++ [last]) = joined sep (f :: fs) ++ sep :: last := by
  induction fs generalizing f with
  | nil => rw [List.singleton_append, joined_cons, joined_singleton, joined_singleton]
  | cons g fs ih =>
    rw [List.cons_append, List.cons_append, joined_cons, joined_cons, ← List.cons_append, ih,
      List.append_assoc, List.cons_append]

/-- A text begins with its first field. -/
theorem eq_cons_of_fields {sep : Char} {f : List Char} {fs : List (List Char)}
    (h : fields sep s = (c :: f) :: fs) : ∃ t, s = c :: t := by
  cases s with
  | nil => simp [fields, cut] at h
  | cons x t =>
    refine ⟨t, ?_⟩
    by_cases hx : x = sep
    · simp [fields, cut, hx] at h
    · simp only [fields, cut, hx, if_false, List.cons.injEq] at h
      rw [h.1.1]

end

end TraceLink.Text
