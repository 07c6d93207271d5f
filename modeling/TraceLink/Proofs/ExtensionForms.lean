import TraceLink.Proofs.FieldForms

/-! # The grammar of the extension header

    What the reader of the flags accepts, said without the reader. The header is cut at its
    dashes; the first field is the flag, the second one the time, and the fields behind
    them have no say.

    `Extension.decode_forms` proves that the two fields are understood together or not at
    all: where one of them is malformed, nothing is taken over from the other one. -/

namespace TraceLink

/-- **Reading a word** accepts the numerals of its numbers and nothing else. -/
theorem Text.readWord_eq_some {f : List Char} {w : UInt64} :
    Text.readWord f = some w ↔ Text.IsNumeralOf f w.toNat := by
  rw [readWord, Option.map_eq_some_iff]
  constructor
  · rintro ⟨n, hread, rfl⟩
    obtain ⟨hnumeral, hlt⟩ := readNat_eq_some.mp hread
    rwa [UInt64.toNat_ofNat_of_lt' hlt]
  · intro h
    exact ⟨w.toNat, readNat_eq_some.mpr ⟨h, w.toNat_lt⟩, UInt64.ofNat_toNat⟩

namespace Extension

/-! ### Forms of the fields -/

/-- **Form of the flag**. A field that is left empty says the same as `0`. -/
inductive FlagForm : List Char → Bool → Prop where
  | set : FlagForm ['1'] true
  | unset : FlagForm ['0'] false
  | empty : FlagForm [] false

/-- **Form of the time**, whose field may be missing. -/
inductive TimeForm : Option (List Char) → Option UInt64 → Prop where
  | missing : TimeForm .none .none
  | empty : TimeForm (some []) .none
  | numeral {f : List Char} {t : UInt64} (h : Text.IsNumeralOf f t.toNat) :
    TimeForm (some f) (some t)

/-- **Form of the flags**, cut into fields. There may be more fields. -/
structure Form (fs : List (List Char)) (e : Extension) : Prop where
  flag : ∃ f ∈ fs[0]?, FlagForm f e.skipAnalysis
  time : TimeForm fs[1]? e.sentAt

theorem readFlag_eq_ok {f : List Char} {skip : Bool} :
    readFlag f = .ok skip ↔ FlagForm f skip := by
  constructor
  · intro h
    unfold readFlag at h
    split at h
    · next hone =>
      obtain rfl := Except.ok.inj h
      exact hone ▸ .set
    · split at h
      · next hzero =>
        obtain rfl := Except.ok.inj h
        rcases hzero with rfl | rfl
        · exact .unset
        · exact .empty
      · contradiction
  · intro h
    cases h <;> rfl

theorem readTime_eq_ok {fs : List (List Char)} {time : Option UInt64} :
    readTime fs = .ok time ↔ TimeForm fs[0]? time := by
  cases fs with
  | nil =>
    constructor
    · intro h
      obtain rfl := Except.ok.inj h
      exact .missing
    · intro h
      cases h
      rfl
  | cons f fs =>
    show readTime (f :: fs) = .ok time ↔ TimeForm (some f) time
    by_cases hempty : f = []
    · subst hempty
      constructor
      · intro h
        obtain rfl := Except.ok.inj h
        exact .empty
      · intro h
        cases h with
        | empty => rfl
        | numeral h =>
          -- a numeral has a digit at least
          rw [← Text.readWord_eq_some] at h
          contradiction
    · simp only [readTime, if_neg hempty]
      constructor
      · intro h
        cases hread : Text.readWord f with
        | none =>
          rw [hread] at h
          contradiction
        | some t =>
          rw [hread] at h
          obtain rfl := Except.ok.inj h
          exact .numeral (Text.readWord_eq_some.mp hread)
      · intro h
        cases h with
        | empty => contradiction
        | numeral h => rw [Text.readWord_eq_some.mpr h]

/-! ### The header -/

/-- The fields of a header. -/
def fieldsOf (header : String) : List (List Char) := Text.fields '-' header.toList

/-- The flag is read first, and then the time. -/
theorem read_eq (header : String) :
    read header = (readFlag (Text.cut '-' header.toList).1).bind fun skip =>
      (readTime (Text.cut '-' header.toList).2).map fun time => ⟨skip, time⟩ := rfl

/-- **Reading the flags** accepts their forms and nothing else. -/
theorem read_eq_ok {header : String} {e : Extension} :
    read header = .ok e ↔ Form (fieldsOf header) e := by
  obtain ⟨skip, sentAt⟩ := e
  have hform : Form (fieldsOf header) ⟨skip, sentAt⟩ ↔
      FlagForm (Text.cut '-' header.toList).1 skip ∧
        TimeForm (Text.cut '-' header.toList).2[0]? sentAt := by
    constructor
    · rintro ⟨⟨f, hf, hflag⟩, htime⟩
      obtain rfl : _ = f := Option.some.inj hf
      exact ⟨hflag, htime⟩
    · rintro ⟨hflag, htime⟩
      exact ⟨⟨_, rfl, hflag⟩, htime⟩
  rw [hform, ← readFlag_eq_ok, ← readTime_eq_ok, read_eq]
  cases readFlag (Text.cut '-' header.toList).1 with
  | error fault => simp [Except.bind]
  | ok flag =>
    cases readTime (Text.cut '-' header.toList).2 with
    | error fault => simp [Except.bind, Except.map]
    | ok time => simp [Except.bind, Except.map]

theorem decode_of_form {header : String} {e : Extension} (h : Form (fieldsOf header) e) :
    decode header = pure e := by
  rw [decode, read_eq_ok.mpr h]

/-- A header without the form counts as no flags, and its fault is noted. -/
theorem decode_of_malformed {header : String} (h : ∀ e, ¬Form (fieldsOf header) e) :
    ∃ fault, decode header = ⟨none, [.headerFault fault]⟩ := by
  cases hread : read header with
  | ok e => exact absurd (read_eq_ok.mp hread) (h e)
  | error fault =>
    refine ⟨fault, ?_⟩
    rw [decode, hread]
    rfl

/-- Of the fields behind the flag only the first one is looked at. -/
theorem readTime_take (fs : List (List Char)) : readTime (fs.take 1) = readTime fs := by
  cases fs with
  | nil => rfl
  | cons f fs => rfl

/-- Headers with the same first two fields are read alike, faults included. -/
theorem decode_congr {header header' : String}
    (h : (fieldsOf header).take 2 = (fieldsOf header').take 2) :
    decode header' = decode header := by
  obtain ⟨hflag, htime⟩ := List.cons.inj h
  unfold decode
  rw [read_eq, read_eq, hflag, ← readTime_take (Text.cut '-' header.toList).2,
    ← readTime_take (Text.cut '-' header'.toList).2, htime]

/-- **The extension header** is read back as it was written. What is read is known from the
    first two fields: the flags of which they are the form, and no flags if they are the
    form of none, in particular if the time is malformed. So a header that is read and
    written again says the same. -/
theorem decode_forms :
    (∀ e : Extension, decode e.encode = pure e) ∧
    (∀ (header : String) (e : Extension), Form (fieldsOf header) e → decode header = pure e) ∧
    (∀ header : String, (∀ e, ¬Form (fieldsOf header) e) →
      ∃ fault, decode header = ⟨none, [.headerFault fault]⟩) ∧
    (∀ header header' : String, (fieldsOf header).take 2 = (fieldsOf header').take 2 →
      decode header' = decode header) ∧
    (∀ (header : String) (time : List Char), (fieldsOf header)[1]? = some time → time ≠ [] →
      (∀ t : UInt64, ¬Text.IsNumeralOf time t.toNat) → (decode header).value = none) ∧
    ∀ header : String, decode (decode header).value.encode = pure (decode header).value := by
  have hencode (e : Extension) : decode e.encode = pure e := by
    rw [decode, read_encode]
  refine ⟨hencode, fun header e => decode_of_form, fun header => decode_of_malformed,
    fun header header' => decode_congr, fun header time htime hne hnumeral => ?_,
    fun header => hencode _⟩
  have hmalformed : ∀ e, ¬Form (fieldsOf header) e := by
    rintro e ⟨-, hform⟩
    rw [htime] at hform
    generalize e.sentAt = sentAt at hform
    cases hform with
    | empty => exact hne rfl
    | numeral h => exact hnumeral _ h
  obtain ⟨fault, hdecode⟩ := decode_of_malformed hmalformed
  rw [hdecode]

/-- The greatest time, with a plus sign, zeros and a third field; and the next number, which
    is no time. -/
theorem decode_forms_greatest :
    decode "1-+0018446744073709551615-later" = pure ⟨true, some 18446744073709551615⟩ ∧
      (decode "1-18446744073709551616").value = none ∧
      decode "1-18446744073709551616-later" = decode "1-18446744073709551616" := by
  obtain ⟨-, hform, -, hfields, htime, -⟩ := decode_forms
  refine ⟨hform _ _ ⟨⟨['1'], by decide +kernel, .set⟩, ?_⟩,
    htime _ "18446744073709551616".toList (by decide +kernel) (by decide +kernel) fun t ht => ?_,
    hfields _ _ (by decide +kernel)⟩
  · have hsecond : (fieldsOf "1-+0018446744073709551615-later")[1]? =
        some "+0018446744073709551615".toList := by decide +kernel
    rw [hsecond]
    exact .numeral (Text.readWord_eq_some.mp (by decide +kernel))
  · rw [← Text.readWord_eq_some] at ht
    have hnone : Text.readWord "18446744073709551616".toList = Option.none := by decide +kernel
    rw [hnone] at ht
    contradiction

end Extension

end TraceLink
