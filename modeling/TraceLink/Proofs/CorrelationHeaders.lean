import TraceLink.Proofs.CorrelationLaws
import TraceLink.Proofs.FieldForms

/-! # Headers of correlation entries

    A header is read pair by pair, so a header that is made of two is read as one after the
    other, and a pair that stores nothing may stand anywhere in it.

    The pairs that never store anything are the malformed ones: they have no colon, a side
    that is no base64 form of a text, or an empty key. Every other pair stores its entry
    somewhere. -/

namespace TraceLink

namespace Text

variable {sep : Char} {s f rest : List Char}

/-- A text is cut at its first separator. -/
theorem cutOnce?_eq_some : cutOnce? sep s = some (f, rest) ↔ s = f ++ sep :: rest ∧ sep ∉ f := by
  constructor
  · intro h
    induction s generalizing f with
    | nil => contradiction
    | cons c s ih =>
      rw [cutOnce?] at h
      split at h
      · next hc =>
        obtain ⟨rfl, rfl⟩ := Prod.mk.inj (Option.some.inj h)
        exact ⟨by rw [hc, List.nil_append], List.not_mem_nil⟩
      · next hc =>
        obtain ⟨⟨f', rest'⟩, hcut, heq⟩ := Option.map_eq_some_iff.mp h
        obtain ⟨rfl, rfl⟩ := Prod.mk.inj heq
        obtain ⟨rfl, hf'⟩ := ih hcut
        refine ⟨List.cons_append.symm, ?_⟩
        intro hmem
        rcases List.mem_cons.mp hmem with rfl | hmem
        · exact hc rfl
        · exact hf' hmem
  · rintro ⟨rfl, hf⟩
    exact cutOnce?_append hf rest

namespace Base64

/-- Only nothing is a form of the empty text. -/
theorem isFormOf_empty {f : List Char} : IsFormOf f "" ↔ f = [] := by
  have hempty : ofText "" = [] := by decide +kernel
  constructor
  · rintro ⟨n, hn⟩
    rw [hempty, List.append_eq_nil_iff] at hn
    exact hn.1
  · rintro rfl
    exact ⟨0, hempty.symm⟩

/-- A form is that of one text. -/
theorem IsFormOf.unique {f : List Char} {t t' : String} (h : IsFormOf f t) (h' : IsFormOf f t') :
    t = t' := by
  rw [← toText_eq_ok] at h h'
  exact Except.ok.inj (h.symm.trans h')

end Base64

end Text

namespace Correlation

open Text.Base64 (IsFormOf)

/-! ### Malformed pairs -/

/-- An unreadable side of a pair: it is not base64, or not that of a text. -/
def IsUnreadable (side : List Char) : Prop := ∀ t, ¬IsFormOf side t

/-- **Malformed pair**. -/
inductive Malformed (pair : List Char) : Prop where
  | noSeparator (h : ':' ∉ pair)
  | unreadable {key value : List Char} (h : pair = key ++ ':' :: value) (hcolon : ':' ∉ key)
      (hside : IsUnreadable key ∨ IsUnreadable value)
  | emptyKey {value : List Char} (h : pair = ':' :: value)

variable {pair : List Char}

theorem decodeSide_eq_ok {side : List Char} {t : String} :
    decodeSide side = .ok t ↔ IsFormOf side t := by
  rw [← Text.Base64.toText_eq_ok, decodeSide]
  cases Text.Base64.toText side with
  | ok t' => simp
  | error u => cases u <;> simp

/-- **Reading a pair** finds the texts of its two sides. -/
theorem decodePair_eq_ok {e : String × String} :
    decodePair pair = .ok e ↔ ∃ key value, pair = key ++ ':' :: value ∧ ':' ∉ key ∧
      IsFormOf key e.1 ∧ IsFormOf value e.2 := by
  constructor
  · intro h
    rw [decodePair] at h
    split at h
    · contradiction
    · next key value hcut =>
      obtain ⟨hpair, hcolon⟩ := Text.cutOnce?_eq_some.mp hcut
      -- the key is read first, then the value
      simp only [bind, Except.bind] at h
      split at h
      · contradiction
      · next k hk =>
        split at h
        · contradiction
        · next v hv =>
          obtain rfl := Except.ok.inj h
          exact ⟨key, value, hpair, hcolon, decodeSide_eq_ok.mp hk, decodeSide_eq_ok.mp hv⟩
  · rintro ⟨key, value, rfl, hcolon, hkey, hvalue⟩
    rw [decodePair, Text.cutOnce?_append hcolon]
    simp only [decodeSide_eq_ok.mpr hkey, decodeSide_eq_ok.mpr hvalue]
    rfl

/-- A malformed pair is not read, or only with an empty key. -/
theorem Malformed.key_eq (h : Malformed pair) {e : String × String}
    (hread : decodePair pair = .ok e) : e.1 = "" := by
  obtain ⟨key, value, rfl, hcolon, hkey, hvalue⟩ := decodePair_eq_ok.mp hread
  have hcut : Text.cutOnce? ':' (key ++ ':' :: value) = some (key, value) :=
    Text.cutOnce?_append hcolon value
  cases h with
  | noSeparator hnone => simp at hnone
  | unreadable hpair hcolon' hside =>
    -- both ways to cut the pair cut it at its first colon
    rw [hpair, Text.cutOnce?_append hcolon'] at hcut
    obtain ⟨rfl, rfl⟩ := Prod.mk.inj (Option.some.inj hcut)
    rcases hside with hside | hside
    · exact absurd hkey (hside e.1)
    · exact absurd hvalue (hside e.2)
  | emptyKey hpair =>
    rw [hpair, ← List.nil_append (':' :: _), Text.cutOnce?_append List.not_mem_nil] at hcut
    obtain ⟨rfl, rfl⟩ := Prod.mk.inj (Option.some.inj hcut)
    exact hkey.unique (Text.Base64.isFormOf_empty.mpr rfl)

/-- A pair is malformed, or it holds an entry that has a key. -/
theorem malformed_or_entry (pair : List Char) :
    Malformed pair ∨ ∃ e : String × String, decodePair pair = .ok e ∧ e.1 ≠ "" := by
  by_cases hcolon : ':' ∈ pair
  · obtain ⟨key, value, rfl, hkey⟩ := List.eq_append_cons_of_mem hcolon
    by_cases hk : IsUnreadable key
    · exact .inl (.unreadable rfl hkey (.inl hk))
    by_cases hv : IsUnreadable value
    · exact .inl (.unreadable rfl hkey (.inr hv))
    obtain ⟨k, hk⟩ := not_forall_not.mp hk
    obtain ⟨v, hv⟩ := not_forall_not.mp hv
    by_cases hempty : k = ""
    · subst hempty
      obtain rfl := Text.Base64.isFormOf_empty.mp hk
      exact .inl (.emptyKey rfl)
    · exact .inr ⟨(k, v), decodePair_eq_ok.mpr ⟨key, value, rfl, hkey, hk, hv⟩, hempty⟩
  · exact .inl (.noSeparator hcolon)

/-- Every entry with a key changes some correlation: an empty value one that has the key, and
    any other value one that has room for it. -/
theorem exists_put_ne {key : String} (hkey : key ≠ "") (value : String) :
    ∃ c : Correlation, (c.put key value).value.2 ≠ c := by
  by_cases hvalue : value = ""
  · subst hvalue
    refine ⟨⟨.standard, [(key, "x")]⟩, ?_⟩
    intro hsame
    rw [put_empty _ hkey] at hsame
    have hentries := congrArg Correlation.entries hsame
    simp [erase, Entries.erase] at hentries
  · refine ⟨empty ⟨1, value.utf8ByteSize⟩, ?_⟩
    have hadmits : (empty ⟨1, value.utf8ByteSize⟩).Admits key value :=
      ⟨hkey, Nat.le_refl _, .inr Nat.zero_lt_one⟩
    intro hsame
    rw [put_of_admits hvalue hadmits] at hsame
    have hentries := congrArg Correlation.entries hsame
    simp [empty, Entries.put] at hentries

/-- **Malformed pairs** are those that never store anything. -/
theorem malformed_iff : Malformed pair ↔ ∀ c : Correlation, (c.putPair pair).value = c := by
  constructor
  · intro h c
    unfold putPair
    split
    · next key value hread =>
      have hkey : key = "" := h.key_eq hread
      show (c.put key value).value.2 = c
      rw [hkey, put, if_pos rfl]
      rfl
    · rfl
  · intro hkeeps
    rcases malformed_or_entry pair with h | ⟨e, hread, hkey⟩
    · exact h
    · obtain ⟨c, hchanges⟩ := exists_put_ne hkey e.2
      have hput : (c.putPair pair).value = (c.put e.1 e.2).value.2 := by
        rw [putPair, hread]
        rfl
      exact absurd (hput.symm.trans (hkeeps c)) hchanges

/-! ### Pairs of a header -/

/-- The pairs of a header, in order. An empty field is no pair. -/
def pairs (header : String) : List (List Char) :=
  (Text.fields ',' header.toList).filter (· ≠ [])

theorem pairs_append (h₁ h₂ : String) : pairs (h₁ ++ "," ++ h₂) = pairs h₁ ++ pairs h₂ := by
  have hlist : (h₁ ++ "," ++ h₂).toList = h₁.toList ++ ',' :: h₂.toList := by
    simp [String.toList_append]
  rw [pairs, hlist, Text.fields_append, List.filter_append]
  rfl

/-- Two headers in one are read one after the other. -/
theorem decode_append (c : Correlation) (h₁ h₂ : String) :
    c.decode (h₁ ++ "," ++ h₂) = c.decode h₁ >>= fun c => c.decode h₂ := by
  show (pairs (h₁ ++ "," ++ h₂)).foldlM putPair c = _
  rw [pairs_append, List.foldlM_append]
  rfl

/-- A header that is one malformed pair stores nothing. -/
theorem decode_of_malformed {pair : String} (hcomma : ',' ∉ pair.toList)
    (h : Malformed pair.toList) (c : Correlation) : (c.decode pair).value = c := by
  show ((pairs pair).foldlM putPair c).value = c
  rw [Logged.foldlM_value, pairs, Text.fields_of_not_mem hcomma]
  by_cases hempty : pair.toList = []
  · rw [List.filter_cons_of_neg (by simpa using hempty)]
    rfl
  · rw [List.filter_cons_of_pos (by simpa using hempty)]
    exact malformed_iff.mp h c

/-! ### Headers -/

theorem encode_eq_none (c : Correlation) : c.encode = none ↔ c.entries = [] := by
  unfold encode
  split
  · next h => exact ⟨fun _ => h, fun _ => rfl⟩
  · next h => exact ⟨fun hnone => by contradiction, fun hnil => absurd hnil h⟩

/-- **Headers of correlation entries**: what was built within some limits and is sent arrives
    within any other limits, as the first of its entries that are not too long, and as a whole
    within its own. Two headers in one are read one after the other, and a malformed pair
    changes nothing wherever it stands. -/
theorem headers_across_limits :
    (∀ (limits : Limits) (c : Correlation), Built limits c →
      (c.encode = none ↔ c.entries = []) ∧
      (∀ limits' : Limits, received limits' c.encode =
        ⟨limits', (c.entries.filter fun e => e.2.utf8ByteSize ≤ limits'.valueBytes).take
          limits'.entries⟩) ∧
      received limits c.encode = c) ∧
    (∀ (c : Correlation) (h₁ h₂ : String),
      c.decode (h₁ ++ "," ++ h₂) = c.decode h₁ >>= fun c => c.decode h₂) ∧
    ∀ pair : String, ',' ∉ pair.toList → Malformed pair.toList →
      ∀ (c : Correlation) (h₁ h₂ : String),
        (c.decode (h₁ ++ "," ++ pair ++ "," ++ h₂)).value = (c.decode (h₁ ++ "," ++ h₂)).value ∧
        (c.decode (pair ++ "," ++ h₂)).value = (c.decode h₂).value ∧
        (c.decode (h₁ ++ "," ++ pair)).value = (c.decode h₁).value := by
  refine ⟨?_, decode_append, ?_⟩
  · intro limits c hbuilt
    obtain ⟨rfl, hwell⟩ := hbuilt.fits
    refine ⟨c.encode_eq_none, received_encode hwell, ?_⟩
    rw [received_encode hwell, admitted_self hwell]
  · intro pair hcomma hmalformed c h₁ h₂
    have hkeeps := decode_of_malformed hcomma hmalformed
    refine ⟨?_, ?_, ?_⟩
    · rw [decode_append, decode_append, decode_append]
      simp only [Logged.bind_value, hkeeps]
    · rw [decode_append, Logged.bind_value, hkeeps]
    · rw [decode_append, Logged.bind_value, hkeeps]

/-- A receiver with two entries, and values of two bytes: the long value does not arrive, and
    neither does the surplus one. A side that is not base64 is passed over. -/
theorem headers_across_limits_narrow :
    let c := (((empty ⟨4, 9⟩).decode "a2V5:dmFsdWU=,dXNlcg==:NDI=,YQ:MQ,Yg:Mg").value)
    (received ⟨2, 2⟩ c.encode).entries = [("user", "42"), ("a", "1")] ∧
      received ⟨4, 9⟩ c.encode = c ∧
      (c.decode ("YQ==:Nw==" ++ "," ++ "!:Nw==" ++ "," ++ "Yg==:OA==")).value =
        (c.decode ("YQ==:Nw==" ++ "," ++ "Yg==:OA==")).value := by
  intro c
  obtain ⟨hlimits, -, hmalformed⟩ := headers_across_limits
  obtain ⟨-, hother, hown⟩ := hlimits ⟨4, 9⟩ c (.decode _ .empty)
  have hunreadable : IsUnreadable ['!'] := by
    intro t ht
    have hread : Text.Base64.decode ['!'] = none := by decide +kernel
    have hok := Text.Base64.toText_eq_ok.mpr ht
    rw [Text.Base64.toText, hread] at hok
    contradiction
  have hpair : Malformed "!:Nw==".toList :=
    @Malformed.unreadable _ ['!'] "Nw==".toList (by decide) (by decide) (.inl hunreadable)
  refine ⟨?_, hown, (hmalformed "!:Nw==" (by decide) hpair c _ _).1⟩
  rw [hother ⟨2, 2⟩]
  decide +kernel

end Correlation

end TraceLink
