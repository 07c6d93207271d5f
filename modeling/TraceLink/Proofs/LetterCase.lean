import Mathlib.Data.List.Basic
import TraceLink.Text.Case

/-! # Small forms of texts

    A text has two small forms. One takes the ASCII capitals only and is the one that
    names are compared by; the other is the full lowercase form and is the one that
    names are written in. The second leaves nothing for the first to do. Where they
    are equal the text is *plain*: each ASCII text is, and so is a text whose letters
    beyond ASCII are all small.

    A dash has no case and ends every word, so the lowercase form of a text with a
    dash in it is put together from those of its two parts. -/

namespace TraceLink.Text

/-! ### The ASCII letters -/

/-- All characters of the text are ASCII. -/
def IsAscii (s : String) : Prop := ∀ c ∈ s.toList, c.toNat < 0x80

instance (s : String) : Decidable (IsAscii s) :=
  List.decidableBAll (fun c : Char => c.toNat < 0x80) s.toList

/-- The text with small letters for its ASCII capitals. -/
def asciiLowered (s : String) : String := String.ofList (s.toList.map asciiLower)

/-- A character behind the ASCII capitals stays as it is. -/
theorem asciiLower_of_lt {c : Char} (h : 'Z' < c) : asciiLower c = c :=
  if_neg fun hc => absurd hc.2 (Char.not_le.mpr h)

theorem asciiLower_asciiLower (c : Char) : asciiLower (asciiLower c) = asciiLower c := by
  have hascii : ∀ n < 128,
      asciiLower (asciiLower (Char.ofNat n)) = asciiLower (Char.ofNat n) := by decide +kernel
  by_cases hc : c.toNat < 128
  · have h := hascii c.toNat hc
    rwa [Char.ofNat_toNat] at h
  · have hz : 'Z' < c := Nat.lt_of_lt_of_le (by decide) (Nat.le_of_not_lt hc)
    rw [asciiLower_of_lt hz, asciiLower_of_lt hz]

theorem asciiLowered_asciiLowered (s : String) :
    asciiLowered (asciiLowered s) = asciiLowered s := by
  unfold asciiLowered
  rw [String.toList_ofList, List.map_map]
  congr 2
  funext c
  exact asciiLower_asciiLower c

theorem asciiLowered_append (s t : String) :
    asciiLowered (s ++ t) = asciiLowered s ++ asciiLowered t := by
  unfold asciiLowered
  rw [String.toList_append, List.map_append, String.ofList_append]

theorem asciiLowered_eq_empty {s : String} : asciiLowered s = "" ↔ s = "" := by
  unfold asciiLowered
  rw [← String.toList_eq_nil_iff, String.toList_ofList, List.map_eq_nil_iff,
    String.toList_eq_nil_iff]

theorem sameIgnoringAsciiCase_iff (s t : String) :
    sameIgnoringAsciiCase s t = true ↔ asciiLowered s = asciiLowered t := by
  unfold sameIgnoringAsciiCase asciiLowered
  rw [beq_iff_eq, String.ofList_inj]

/-! ### The lowercase form -/

/-- The lowercase form of an ASCII text takes the letters one by one. -/
theorem lower_of_ascii (before : List Char) {s : List Char} (h : ∀ c ∈ s, c.toNat < 0x80) :
    lower before s = s.map asciiLower := by
  induction s generalizing before with
  | nil => rfl
  | cons c s ih =>
    have hc : c.toNat < 0x80 := h c List.mem_cons_self
    -- the capital sigma is the only letter that depends on those around it
    have hsigma : c ≠ 'Σ' := by
      rintro rfl
      exact absurd hc (by decide)
    rw [lower, if_neg hsigma, lowerChar, if_pos hc,
      ih (c :: before) fun x hx => h x (List.mem_cons_of_mem c hx)]
    rfl

theorem lowercased_of_isAscii {s : String} (h : IsAscii s) : lowercased s = asciiLowered s := by
  unfold lowercased asciiLowered
  rw [lower_of_ascii [] h]

/-- A lowercase partner is no ASCII capital: it stands behind them. -/
theorem lowercaseRuns_above :
    ∀ r ∈ lowercaseRuns.toList, ('Z'.toNat : Int) < r.first + r.shift := by
  decide +kernel

theorem asciiLower_partner {r : CaseRun} (hr : r ∈ lowercaseRuns) {n : Nat}
    (hn : r.covers n = true) :
    asciiLower (Char.ofNat (n + r.shift).toNat) = Char.ofNat (n + r.shift).toNat := by
  have habove := lowercaseRuns_above r (Array.mem_toList_iff.mpr hr)
  have hfirst : r.first ≤ n := by
    simp only [CaseRun.covers, Bool.and_eq_true, decide_eq_true_eq] at hn
    exact hn.1.1
  by_cases hvalid : (n + r.shift).toNat.isValidChar
  · refine asciiLower_of_lt ?_
    have htoNat : (Char.ofNat (n + r.shift).toNat).toNat = (n + r.shift).toNat := by
      rw [Char.ofNat, dif_pos hvalid]
      rfl
    show 'Z'.toNat < (Char.ofNat (n + r.shift).toNat).toNat
    rw [htoNat]
    omega
  · -- an invalid code point counts as the first character of all
    rw [Char.ofNat, dif_neg hvalid]
    rfl

theorem map_asciiLower_lowerChar (c : Char) : (lowerChar c).map asciiLower = lowerChar c := by
  have hone {d : Char} (h : asciiLower d = d) : [d].map asciiLower = [d] := by
    rw [List.map_singleton, h]
  unfold lowerChar
  split
  · exact hone (asciiLower_asciiLower c)
  · next hc =>
    split
    · decide
    · split
      · next run hrun =>
        have hcovers : run.covers c.toNat = true := by simpa only using Array.find?_some hrun
        exact hone (asciiLower_partner (Array.mem_of_find?_eq_some hrun) hcovers)
      · exact hone (asciiLower_of_lt (Nat.lt_of_lt_of_le (by decide) (Nat.le_of_not_lt hc)))

theorem map_asciiLower_lower (before s : List Char) :
    (lower before s).map asciiLower = lower before s := by
  induction s generalizing before with
  | nil => rfl
  | cons c s ih =>
    rw [lower, List.map_append, ih]
    congr 1
    split
    · split <;> decide
    · exact map_asciiLower_lowerChar c

/-- The lowercase form has no ASCII capitals. -/
theorem asciiLowered_lowercased (s : String) : asciiLowered (lowercased s) = lowercased s := by
  unfold asciiLowered lowercased
  rw [String.toList_ofList, map_asciiLower_lower]

theorem lowerChar_ne_nil (c : Char) : lowerChar c ≠ [] := by
  unfold lowerChar
  split
  · exact List.cons_ne_nil _ _
  · split
    · exact List.cons_ne_nil _ _
    · split <;> exact List.cons_ne_nil _ _

theorem lower_eq_nil {before s : List Char} : lower before s = [] ↔ s = [] := by
  refine ⟨fun h => ?_, by rintro rfl; rfl⟩
  cases s with
  | nil => rfl
  | cons c s =>
    rw [lower] at h
    obtain ⟨h, -⟩ := List.append_eq_nil_iff.mp h
    split at h
    · exact absurd h (List.cons_ne_nil _ _)
    · exact absurd h (lowerChar_ne_nil c)

theorem lowercased_eq_empty {s : String} : lowercased s = "" ↔ s = "" := by
  unfold lowercased
  rw [← String.toList_eq_nil_iff, String.toList_ofList, lower_eq_nil, String.toList_eq_nil_iff]

/-- **Plain texts**: the full lowercase form takes no letter that is not ASCII. -/
def IsPlain (s : String) : Prop := lowercased s = asciiLowered s

instance (s : String) : Decidable (IsPlain s) := decEq (lowercased s) (asciiLowered s)

theorem IsAscii.isPlain {s : String} (h : IsAscii s) : IsPlain s := lowercased_of_isAscii h

/-- The names that are written and looked up in two cases meet for plain texts only. -/
theorem sameIgnoringAsciiCase_lowercased (s : String) :
    sameIgnoringAsciiCase (lowercased s) s = true ↔ IsPlain s := by
  rw [sameIgnoringAsciiCase_iff, asciiLowered_lowercased, IsPlain]

/-! ### A dash between two parts -/

theorem meetsCased_cons (c : Char) (s : List Char) :
    meetsCased (c :: s) = if inRanges caseIgnorable c then meetsCased s else inRanges cased c := by
  unfold meetsCased
  rw [List.dropWhile_cons]
  cases inRanges caseIgnorable c with
  | true => simp only [if_true]
  | false => simp only [Bool.false_eq_true, if_false]

/-- Beyond a dash nothing is looked for. -/
theorem meetsCased_append_dash (s t : List Char) :
    meetsCased (s ++ '-' :: t) = meetsCased s := by
  induction s with
  | nil => 
    have hignorable : inRanges caseIgnorable '-' = false := by
      rw [inRanges, ← Array.any_toList]
      decide +kernel
    have hcased : inRanges cased '-' = false := by
      rw [inRanges, ← Array.any_toList]
      decide +kernel
    rw [List.nil_append, meetsCased_cons,
      if_neg (by rw [hignorable]; exact Bool.false_ne_true), hcased]
    simp only [meetsCased, List.dropWhile_nil]
  | cons c s ih =>
    rw [List.cons_append, meetsCased_cons, ih, meetsCased_cons]

/-- What follows a dash has no part in the lowercase form of what is before it. -/
theorem lower_append_dash (before s t : List Char) :
    lower before (s ++ '-' :: t) =
      lower before s ++ '-' :: lower ('-' :: (s.reverse ++ before)) t := by
  induction s generalizing before with
  | nil => rfl
  | cons c s ih =>
    rw [List.cons_append, lower, ih, meetsCased_append_dash, lower, List.append_assoc,
      List.reverse_cons, List.append_assoc]
    rfl

theorem lowercased_append_dash (s : String) {t : String} (ht : IsAscii t) :
    lowercased (s ++ "-" ++ t) = lowercased s ++ "-" ++ asciiLowered t := by
  have hlist : (s ++ "-" ++ t).toList = s.toList ++ '-' :: t.toList := by
    rw [String.toList_append, String.toList_append, List.append_assoc]
    rfl
  unfold lowercased asciiLowered
  rw [hlist, lower_append_dash, lower_of_ascii _ ht, String.ofList_append, String.append_assoc]
  exact congrArg (_ ++ ·) (String.ofList_append : String.ofList (['-'] ++ _) = _)

end TraceLink.Text
