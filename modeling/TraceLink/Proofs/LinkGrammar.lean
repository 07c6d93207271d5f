import TraceLink.Proofs.FieldForms

/-! # The grammar of the link header

    What the reader of a carrier accepts, said without the reader. The value of the
    link header is trimmed and cut at its dashes, and then `LinkForm` says field by
    field which texts are the link to a parent.

    `RemoteContext.extract_grammar` proves that the reader accepts this form and
    nothing else. It also says what makes no difference: the other two headers have no
    say in what the link is, and an accepted header may be written in several ways. -/

namespace TraceLink

namespace RemoteContext

/-- **Link**: the parent of a segment, without what travels with the trace. -/
structure Link where
  trace : String
  segment : String
  span : Int
  service : String
  instanceName : String
  endpoint : String
  address : String
  deriving Repr, DecidableEq

/-- The link of a context. -/
def toLink (c : RemoteContext) : Link :=
  ⟨c.trace, c.segment, c.span, c.service, c.instanceName, c.endpoint, c.address⟩

/-- **Verdict** on a link header. -/
inductive Verdict where
  | absent
  | ignored
  | remote (l : Link)
  deriving Repr, DecidableEq

/-- What an inbound context says of the link header. -/
def verdict : Inbound → Verdict
  | .absent => .absent
  | .ignored => .ignored
  | .remote c => .remote c.toLink

/-- A numeral of 31 bits. -/
def IsSpanForm (f : List Char) (span : Int) : Prop :=
  ∃ n : Nat, Text.IsNumeralOf f n ∧ n < 2 ^ 31 ∧ span = n

/-- **Form of a link**, cut into fields: the flag `1`, two ids, a span id and four
    texts. The ids are not empty. There may be more fields. -/
structure LinkForm (fs : List (List Char)) (l : Link) : Prop where
  flag : fs[0]? = some ['1']
  trace : ∃ f ∈ fs[1]?, Text.Base64.IsFormOf f l.trace
  trace_ne : l.trace ≠ ""
  segment : ∃ f ∈ fs[2]?, Text.Base64.IsFormOf f l.segment
  segment_ne : l.segment ≠ ""
  span : ∃ f ∈ fs[3]?, IsSpanForm f l.span
  service : ∃ f ∈ fs[4]?, Text.Base64.IsFormOf f l.service
  instanceName : ∃ f ∈ fs[5]?, Text.Base64.IsFormOf f l.instanceName
  endpoint : ∃ f ∈ fs[6]?, Text.Base64.IsFormOf f l.endpoint
  address : ∃ f ∈ fs[7]?, Text.Base64.IsFormOf f l.address

/-- The fields of a link header. -/
def fieldsOf (link : String) : List (List Char) := Text.fields '-' (Text.trim link.toList)

/-- The places of the base64 fields. -/
def base64Places : List Nat := [1, 2, 4, 5, 6, 7]

/-- Some base64 fields have lost `=` at their ends. -/
structure Unpadded (fs fs' : List (List Char)) : Prop where
  length : fs'.length = fs.length
  field : ∀ i f f', fs[i]? = some f → fs'[i]? = some f' →
    f' = f ∨ i ∈ base64Places ∧ ∃ n, f = f' ++ List.replicate n '='

/-- **Other ways** to write a link header: with fields behind it, with white space around
    it, or without padding. -/
inductive Rewritten (link : String) : String → Prop where
  | longer (more : List Char) :
      Rewritten link (String.ofList (Text.trim link.toList ++ '-' :: more))
  | surrounded {before after : List Char} (hbefore : ∀ c ∈ before, Text.isBlank c)
      (hafter : ∀ c ∈ after, Text.isBlank c) :
      Rewritten link (String.ofList (before ++ link.toList ++ after))
  | unpadded {fs : List (List Char)} (h : Unpadded (fieldsOf link) fs) :
      Rewritten link (String.ofList (Text.joined '-' fs))

/-! ### Fields that are read -/

theorem readField_eq_ok {f : List Char} {t : String} :
    readField f = .ok t ↔ Text.Base64.IsFormOf f t := by
  rw [← Text.Base64.toText_eq_ok, readField]
  cases Text.Base64.toText f with
  | ok t' => simp only [Except.ok.injEq]
  | error u =>
    cases u with
    | notBase64 => simp only [reduceCtorEq]
    | notUtf8 => simp only [reduceCtorEq]

/-- The span id holds no sign but a plus sign, since a dash would cut it. -/
theorem readSpan_eq_ok {f : List Char} {span : Int} (hdash : '-' ∉ f) :
    readSpan f = .ok span ↔ IsSpanForm f span := by
  have hread : Text.readInt32 f = (Text.readNat (2 ^ 31) f).map fun (n : Nat) => (n : Int) := by
    unfold Text.readInt32 Text.readInt
    split
    · simp at hdash
    · rfl
  unfold readSpan IsSpanForm
  rw [hread]
  cases hnat : Text.readNat (2 ^ 31) f with
  | none =>
    constructor
    · intro h
      contradiction
    · rintro ⟨n, hn, hlt, -⟩
      rw [Text.readNat_eq_some.mpr ⟨hn, hlt⟩] at hnat
      contradiction
  | some n =>
    have hkept : ((some n).map fun (n : Nat) => (n : Int)).filter (0 ≤ ·) = some (n : Int) := by
      simp
    rw [hkept]
    obtain ⟨hn, hlt⟩ := Text.readNat_eq_some.mp hnat
    constructor
    · intro h
      exact ⟨n, hn, hlt, (Except.ok.inj h).symm⟩
    · rintro ⟨m, hm, hmlt, rfl⟩
      -- one text is the numeral of one number only
      have hsame := Text.readNat_eq_some.mpr ⟨hm, hmlt⟩
      rw [hnat] at hsame
      rw [Option.some.inj hsame]

theorem readIds_eq_ok {trace segment span : List Char} {ids : LinkIds} :
    readIds trace segment span = .ok ids ↔
      readField trace = .ok ids.trace ∧ readField segment = .ok ids.segment ∧
      ids.trace ≠ "" ∧ ids.segment ≠ "" ∧ readSpan span = .ok ids.span := by
  obtain ⟨t, g, n⟩ := ids
  unfold readIds
  cases readField trace with
  | error f => simp [bind, Except.bind]
  | ok trace =>
  cases readField segment with
  | error f => simp [bind, Except.bind]
  | ok segment =>
  by_cases hempty : trace = "" ∨ segment = ""
  · simp only [bind, Except.bind, hempty, if_true, throw, throwThe, MonadExceptOf.throw,
      reduceCtorEq, Except.ok.injEq, false_iff]
    rintro ⟨rfl, rfl, htrace, hsegment, -⟩
    exact hempty.elim htrace hsegment
  · obtain ⟨htrace, hsegment⟩ := not_or.mp hempty
    cases readSpan span with
    | error f => simp [bind, Except.bind, hempty]
    | ok m =>
      simp only [bind, Except.bind, hempty, if_false, pure, Except.pure, Except.ok.injEq,
        LinkIds.mk.injEq]
      constructor
      · rintro ⟨rfl, rfl, rfl⟩
        exact ⟨rfl, rfl, htrace, hsegment, rfl⟩
      · rintro ⟨rfl, rfl, -, -, rfl⟩
        exact ⟨rfl, rfl, rfl⟩

theorem readTexts_eq_ok {ids : LinkIds} {service instanceName endpoint address : List Char}
    {correlation : Correlation} {extension : Extension} {c : RemoteContext} :
    readTexts ids service instanceName endpoint address correlation extension = .ok c ↔
      readField service = .ok c.service ∧ readField instanceName = .ok c.instanceName ∧
      readField endpoint = .ok c.endpoint ∧ readField address = .ok c.address ∧
      ids = ⟨c.trace, c.segment, c.span⟩ ∧ correlation = c.correlation ∧
      extension = c.extension := by
  obtain ⟨t, g, n⟩ := ids
  obtain ⟨t', g', n', s', i', e', a', correlation', extension'⟩ := c
  unfold readTexts
  cases readField service with
  | error f => simp [bind, Except.bind]
  | ok s =>
  cases readField instanceName with
  | error f => simp [bind, Except.bind]
  | ok i =>
  cases readField endpoint with
  | error f => simp [bind, Except.bind]
  | ok e =>
  cases readField address with
  | error f => simp [bind, Except.bind]
  | ok a =>
    simp only [bind, Except.bind, pure, Except.pure, Except.ok.injEq, RemoteContext.mk.injEq,
      LinkIds.mk.injEq]
    constructor
    · rintro ⟨rfl, rfl, rfl, rfl, rfl, rfl, rfl, rfl, rfl⟩
      exact ⟨rfl, rfl, rfl, rfl, ⟨rfl, rfl, rfl⟩, rfl, rfl⟩
    · rintro ⟨rfl, rfl, rfl, rfl, ⟨rfl, rfl, rfl⟩, rfl, rfl⟩
      exact ⟨rfl, rfl, rfl, rfl, rfl, rfl, rfl, rfl, rfl⟩

/-! ### The whole header -/

section

variable {limits : Correlation.Limits} {k : Carrier} {fs fs' : List (List Char)} {l : Link}
  {c : RemoteContext}

/-- The reader asks for seven fields behind the flag. -/
theorem seven_or_short (fs : List (List Char)) :
    (∃ trace segment span service instanceName endpoint address rest,
      fs = trace :: segment :: span :: service :: instanceName :: endpoint :: address :: rest) ∨
    fs.length < 7 := by
  match fs with
  | trace :: segment :: span :: service :: instanceName :: endpoint :: address :: rest =>
    exact .inl ⟨trace, segment, span, service, instanceName, endpoint, address, rest, rfl⟩
  | [] | [_] | [_, _] | [_, _, _] | [_, _, _, _] | [_, _, _, _, _] | [_, _, _, _, _, _] =>
    exact .inr (by simp)

theorem readFields_of_short (h : fs.length < 7) : (readFields limits k fs).value = .absent := by
  unfold readFields
  split
  · simp only [List.length_cons] at h
    omega
  · rfl

theorem LinkForm.length (h : LinkForm fs l) : 8 ≤ fs.length := by
  obtain ⟨f, hf, -⟩ := h.address
  obtain ⟨hlt, -⟩ := List.getElem?_eq_some_iff.mp hf
  exact hlt

/-- The form is a matter of the first eight fields. -/
theorem LinkForm.congr (h : LinkForm fs l) (hsame : ∀ i < 8, fs'[i]? = fs[i]?) :
    LinkForm fs' l where
  flag := by rw [hsame 0 (by omega), h.flag]
  trace := by rw [hsame 1 (by omega)]; exact h.trace
  trace_ne := h.trace_ne
  segment := by rw [hsame 2 (by omega)]; exact h.segment
  segment_ne := h.segment_ne
  span := by rw [hsame 3 (by omega)]; exact h.span
  service := by rw [hsame 4 (by omega)]; exact h.service
  instanceName := by rw [hsame 5 (by omega)]; exact h.instanceName
  endpoint := by rw [hsame 6 (by omega)]; exact h.endpoint
  address := by rw [hsame 7 (by omega)]; exact h.address

section Eight

variable {trace segment span service instanceName endpoint address : List Char}
  {rest : List (List Char)}

/-- What is read is written in the fields behind the flag. -/
theorem form_of_readFields (hspan : '-' ∉ span)
    (h : (readFields limits k (trace :: segment :: span :: service :: instanceName :: endpoint ::
      address :: rest)).value = .remote c) :
    LinkForm (['1'] :: trace :: segment :: span :: service :: instanceName :: endpoint ::
      address :: rest) c.toLink ∧ c.correlation = readCorrelation limits k ∧
      c.extension = readExtension k := by
  rw [readFields_value] at h
  split at h
  · contradiction
  · next ids hids =>
    split at h
    · contradiction
    · next c' htexts =>
      obtain rfl := Inbound.remote.inj h
      obtain ⟨hservice, hinstance, hendpoint, haddress, rfl, hcorr, hext⟩ :=
        readTexts_eq_ok.mp htexts
      obtain ⟨htrace, hsegment, htrace', hsegment', hspan'⟩ := readIds_eq_ok.mp hids
      refine ⟨?_, hcorr.symm, hext.symm⟩
      exact {
        flag := rfl
        trace := ⟨trace, rfl, readField_eq_ok.mp htrace⟩
        trace_ne := htrace'
        segment := ⟨segment, rfl, readField_eq_ok.mp hsegment⟩
        segment_ne := hsegment'
        span := ⟨span, rfl, (readSpan_eq_ok hspan).mp hspan'⟩
        service := ⟨service, rfl, readField_eq_ok.mp hservice⟩
        instanceName := ⟨instanceName, rfl, readField_eq_ok.mp hinstance⟩
        endpoint := ⟨endpoint, rfl, readField_eq_ok.mp hendpoint⟩
        address := ⟨address, rfl, readField_eq_ok.mp haddress⟩ }

/-- What is written in the fields behind the flag is read. -/
theorem readFields_of_form (hspan : '-' ∉ span)
    (hform : LinkForm (['1'] :: trace :: segment :: span :: service :: instanceName :: endpoint ::
      address :: rest) c.toLink)
    (hcorr : c.correlation = readCorrelation limits k) (hext : c.extension = readExtension k) :
    (readFields limits k (trace :: segment :: span :: service :: instanceName :: endpoint ::
      address :: rest)).value = .remote c := by
  obtain ⟨f₁, hf₁, htrace⟩ := hform.trace
  obtain ⟨f₂, hf₂, hsegment⟩ := hform.segment
  obtain ⟨f₃, hf₃, hnumber⟩ := hform.span
  obtain ⟨f₄, hf₄, hservice⟩ := hform.service
  obtain ⟨f₅, hf₅, hinstance⟩ := hform.instanceName
  obtain ⟨f₆, hf₆, hendpoint⟩ := hform.endpoint
  obtain ⟨f₇, hf₇, haddress⟩ := hform.address
  obtain rfl := Option.some.inj hf₁
  obtain rfl := Option.some.inj hf₂
  obtain rfl := Option.some.inj hf₃
  obtain rfl := Option.some.inj hf₄
  obtain rfl := Option.some.inj hf₅
  obtain rfl := Option.some.inj hf₆
  obtain rfl := Option.some.inj hf₇
  have hids : readIds trace segment span = .ok ⟨c.trace, c.segment, c.span⟩ :=
    readIds_eq_ok.mpr ⟨readField_eq_ok.mpr htrace, readField_eq_ok.mpr hsegment,
      hform.trace_ne, hform.segment_ne, (readSpan_eq_ok hspan).mpr hnumber⟩
  have htexts : readTexts ⟨c.trace, c.segment, c.span⟩ service instanceName endpoint address
      (readCorrelation limits k) (readExtension k) = .ok c :=
    readTexts_eq_ok.mpr ⟨readField_eq_ok.mpr hservice, readField_eq_ok.mpr hinstance,
      readField_eq_ok.mpr hendpoint, readField_eq_ok.mpr haddress, rfl, hcorr.symm, hext.symm⟩
  rw [readFields_value]
  simp only [hids, htexts]

end Eight

/-- What is read from the fields behind the flag. -/
theorem readFields_eq_remote (hdash : ∀ f ∈ fs, '-' ∉ f) :
    (readFields limits k fs).value = .remote c ↔
      LinkForm (['1'] :: fs) c.toLink ∧ c.correlation = readCorrelation limits k ∧
        c.extension = readExtension k := by
  rcases seven_or_short fs with ⟨trace, segment, span, service, instanceName, endpoint, address,
    rest, rfl⟩ | hshort
  · have hspan : '-' ∉ span := hdash span (by simp)
    constructor
    · exact form_of_readFields hspan
    · rintro ⟨hform, hcorr, hext⟩
      exact readFields_of_form hspan hform hcorr hext
  · rw [readFields_of_short hshort]
    constructor
    · intro h
      contradiction
    · rintro ⟨hform, -⟩
      have hlong := hform.length
      rw [List.length_cons] at hlong
      omega

theorem readFields_ne_ignored (fs : List (List Char)) :
    (readFields limits k fs).value ≠ .ignored := by
  rcases seven_or_short fs with ⟨trace, segment, span, service, instanceName, endpoint, address,
    rest, rfl⟩ | hshort
  · rw [readFields_value]
    split
    · simp
    · split
      · simp
      · simp
  · rw [readFields_of_short hshort]
    simp

/-- The flag decides what is done with the other fields. -/
theorem readLink_value (limits : Correlation.Limits) (k : Carrier) (link : String) :
    (readLink limits k link).value =
      if (fieldsOf link)[0]? = some ['0'] then .ignored
      else if (fieldsOf link)[0]? = some ['1'] then (readFields limits k (fieldsOf link).tail).value
      else .absent := by
  unfold readLink fieldsOf Text.fields
  obtain ⟨flag, rest⟩ := Text.cut '-' (Text.trim link.toList)
  simp only [List.getElem?_cons_zero, Option.some.injEq, List.tail_cons]
  split
  · next heq =>
    obtain ⟨rfl, -⟩ := Prod.mk.inj heq
    rfl
  · next heq =>
    obtain ⟨rfl, rfl⟩ := Prod.mk.inj heq
    rfl
  · next hignored hrecorded =>
    have hzero : flag ≠ ['0'] := fun h => hignored rest (by rw [h])
    have hone : flag ≠ ['1'] := fun h => hrecorded rest (by rw [h])
    rw [if_neg hzero, if_neg hone]
    rfl

variable {link : String}

/-- **Ignored** is what has the flag `0`, and nothing else. -/
theorem extract_eq_ignored (hlink : k.link = some link) :
    (extract limits k).value = .ignored ↔ (fieldsOf link)[0]? = some ['0'] := by
  simp only [extract, hlink, readLink_value]
  by_cases hflag : (fieldsOf link)[0]? = some ['0']
  · rw [if_pos hflag]
    exact iff_of_true rfl hflag
  · rw [if_neg hflag]
    refine iff_of_false ?_ hflag
    split
    · exact readFields_ne_ignored _
    · simp

/-- **Remote** is what has the form of a link, and nothing else. -/
theorem extract_eq_remote (hlink : k.link = some link) :
    (extract limits k).value = .remote c ↔
      LinkForm (fieldsOf link) c.toLink ∧ c.correlation = readCorrelation limits k ∧
        c.extension = readExtension k := by
  simp only [extract, hlink, readLink_value]
  by_cases hflag : (fieldsOf link)[0]? = some ['1']
  · have hother : (fieldsOf link)[0]? ≠ some ['0'] := by
      rw [hflag]
      decide
    have hcons : ['1'] :: (fieldsOf link).tail = fieldsOf link := by
      rw [← Option.some.inj hflag]
      rfl
    have hdash : ∀ f ∈ (fieldsOf link).tail, '-' ∉ f :=
      fun f hf => Text.not_mem_of_mem_fields (List.mem_of_mem_tail hf)
    rw [if_neg hother, if_pos hflag, readFields_eq_remote hdash, hcons]
  · refine iff_of_false ?_ fun h => hflag h.1.flag
    rw [if_neg hflag]
    split
    · simp
    · simp

end

/-! ### Other ways to write it -/

/-- A flag of the link header. -/
def IsFlag (f : List Char) : Prop := f = ['0'] ∨ f = ['1']

section

variable {fs fs' : List (List Char)} {flag : List Char} {l : Link} {link : String}

theorem IsFlag.eq_singleton (h : IsFlag flag) :
    ∃ c, flag = [c] ∧ Text.isBlank c = false ∧ c ≠ '-' := by
  rcases h with rfl | rfl
  · exact ⟨'0', rfl, by decide +kernel, by decide⟩
  · exact ⟨'1', rfl, by decide +kernel, by decide⟩

/-- What is written behind a header are further fields of it. -/
theorem fieldsOf_longer (hflag : IsFlag flag) (hhead : (fieldsOf link)[0]? = some flag)
    (more : List Char) :
    fieldsOf (String.ofList (Text.trim link.toList ++ '-' :: more)) =
      fieldsOf link ++ Text.fields '-' (Text.trimEnd more) := by
  obtain ⟨c, rfl, hblank, -⟩ := hflag.eq_singleton
  have hfields : fieldsOf link = [c] :: (fieldsOf link).tail := by
    rw [← Option.some.inj hhead]
    rfl
  obtain ⟨t, ht⟩ := Text.eq_cons_of_fields hfields
  have hdash : Text.isBlank '-' = false := by decide +kernel
  unfold fieldsOf
  rw [String.toList_ofList, ht, Text.trim, List.cons_append, Text.trimStart_of_head hblank,
    ← List.cons_append, Text.trimEnd_append hdash, Text.fields_append]

/-- White space around a header is trimmed. -/
theorem fieldsOf_surrounded {before after : List Char} (hbefore : ∀ c ∈ before, Text.isBlank c)
    (hafter : ∀ c ∈ after, Text.isBlank c) :
    fieldsOf (String.ofList (before ++ link.toList ++ after)) = fieldsOf link := by
  rw [fieldsOf, String.toList_ofList, Text.trim_surrounded hbefore hafter, fieldsOf]

theorem IsFlag.trimEnd (h : IsFlag flag) : Text.trimEnd flag = flag := by
  obtain ⟨c, rfl, hblank, -⟩ := h.eq_singleton
  exact Text.trimEnd_append (a := []) (b := []) hblank

/-- A flag alone is a header of one field. -/
theorem fieldsOf_flag (hflag : IsFlag flag) : fieldsOf (String.ofList flag) = [flag] := by
  have htrim := hflag.trimEnd
  obtain ⟨c, rfl, hblank, hc⟩ := hflag.eq_singleton
  rw [fieldsOf, String.toList_ofList, Text.trim, Text.trimStart_of_head hblank, htrim]
  exact Text.fields_of_not_mem (by simpa using hc.symm)

/-- Of several fields the last one is trimmed, since the dash before it is not blank. -/
theorem fieldsOf_joined_append (hflag : IsFlag flag) {mid : List (List Char)} {last : List Char}
    (hdash : ∀ f ∈ flag :: mid ++ [last], '-' ∉ f) :
    fieldsOf (String.ofList (Text.joined '-' (flag :: mid ++ [last]))) =
      flag :: mid ++ [Text.trimEnd last] := by
  obtain ⟨c, rfl, hblank, -⟩ := hflag.eq_singleton
  have hstop : Text.isBlank '-' = false := by decide +kernel
  obtain ⟨t, ht⟩ : ∃ t, Text.joined '-' ([c] :: mid) = c :: t := by
    cases mid with
    | nil => exact ⟨[], Text.joined_singleton _ _⟩
    | cons g mid => exact ⟨_, Text.joined_cons _ _ _ _⟩
  have hlast : '-' ∉ Text.trimEnd last := fun h =>
    hdash last (by simp) (Text.mem_of_mem_trimEnd h)
  have hbefore : ∀ f ∈ [c] :: mid, '-' ∉ f :=
    fun f hf => hdash f (List.mem_append_left _ hf)
  rw [Text.joined_append_singleton, fieldsOf, String.toList_ofList, ht, Text.trim,
    List.cons_append, Text.trimStart_of_head hblank, ← List.cons_append,
    Text.trimEnd_append hstop, ← ht, Text.fields_append, Text.fields_joined hbefore,
    Text.fields_of_not_mem hlast]

/-- Fields that are written one after the other are read back, the last one trimmed. -/
theorem fieldsOf_joined (hflag : IsFlag flag) (hhead : fs[0]? = some flag)
    (hdash : ∀ f ∈ fs, '-' ∉ f) (i : Nat) :
    (fieldsOf (String.ofList (Text.joined '-' fs)))[i]? =
      if i + 1 = fs.length then fs[i]?.map Text.trimEnd else fs[i]? := by
  rcases fs.eq_nil_or_concat with rfl | ⟨before, last, rfl⟩
  · contradiction
  · rw [List.concat_eq_append] at hhead hdash ⊢
    cases before with
    | nil =>
      obtain rfl := Option.some.inj hhead
      rw [List.nil_append, Text.joined_singleton, fieldsOf_flag hflag]
      cases i with
      | zero => exact congrArg some hflag.trimEnd.symm
      | succ i => simp
    | cons g mid =>
      obtain rfl := Option.some.inj hhead
      rw [fieldsOf_joined_append hflag hdash, List.length_append, List.length_singleton]
      by_cases hi : i = (g :: mid).length
      · rw [hi, if_pos rfl, List.getElem?_concat_length, List.getElem?_concat_length,
          Option.map_some]
      · rw [if_neg (by omega), List.getElem?_append, List.getElem?_append]
        split
        · rfl
        · next hge =>
          have hbeyond : ∀ x : List Char, [x][i - (g :: mid).length]? = none :=
            fun x => List.getElem?_eq_none (by rw [List.length_singleton]; omega)
          rw [hbeyond, hbeyond]

namespace Unpadded

theorem exists_field (h : Unpadded fs fs') {i : Nat} {f : List Char} (hf : fs[i]? = some f) :
    ∃ f', fs'[i]? = some f' ∧
      (f' = f ∨ i ∈ base64Places ∧ ∃ n, f = f' ++ List.replicate n '=') := by
  obtain ⟨hlt, -⟩ := List.getElem?_eq_some_iff.mp hf
  have hget := List.getElem?_eq_getElem (h.length ▸ hlt : i < fs'.length)
  exact ⟨_, hget, h.field i f _ hf hget⟩

/-- Fields that are not in base64 stay as they are. -/
theorem same (h : Unpadded fs fs') {i : Nat} {f : List Char} (hi : i ∉ base64Places)
    (hf : fs[i]? = some f) : fs'[i]? = some f := by
  obtain ⟨f', hf', hsame | ⟨hplace, -⟩⟩ := h.exists_field hf
  · rw [hf', hsame]
  · contradiction

/-- A base64 field stays a form of its text. -/
theorem text (h : Unpadded fs fs') {i : Nat} {t : String}
    (hform : ∃ f ∈ fs[i]?, Text.Base64.IsFormOf f t) :
    ∃ f ∈ fs'[i]?, Text.Base64.IsFormOf f t := by
  obtain ⟨f, hf, hform⟩ := hform
  obtain ⟨f', hf', rfl | ⟨-, n, rfl⟩⟩ := h.exists_field hf
  · exact ⟨f', hf', hform⟩
  · exact ⟨f', hf', hform.unpad⟩

/-- No field gets a dash. -/
theorem not_mem (h : Unpadded fs fs') (hdash : ∀ f ∈ fs, '-' ∉ f) : ∀ f ∈ fs', '-' ∉ f := by
  intro f' hf' hmem
  obtain ⟨i, hi⟩ := List.mem_iff_getElem?.mp hf'
  obtain ⟨hlt, -⟩ := List.getElem?_eq_some_iff.mp hi
  have hget := List.getElem?_eq_getElem (h.length ▸ hlt : i < fs.length)
  apply hdash _ (List.mem_of_getElem? hget)
  rcases h.field i _ f' hget hi with hsame | ⟨-, n, hpads⟩
  · rwa [← hsame]
  · rw [hpads]
    exact List.mem_append_left _ hmem

end Unpadded

/-- A link stays the same without padding. -/
theorem LinkForm.unpadded (h : LinkForm fs l) (hunpadded : Unpadded fs fs') :
    LinkForm fs' l where
  flag := hunpadded.same (by decide) h.flag
  trace := hunpadded.text h.trace
  trace_ne := h.trace_ne
  segment := hunpadded.text h.segment
  segment_ne := h.segment_ne
  span := by
    obtain ⟨f, hf, hform⟩ := h.span
    exact ⟨f, hunpadded.same (by decide) hf, hform⟩
  service := hunpadded.text h.service
  instanceName := hunpadded.text h.instanceName
  endpoint := hunpadded.text h.endpoint
  address := hunpadded.text h.address

/-- The fields of a link are not trimmed when they are written one after the other. -/
theorem LinkForm.fieldsOf_joined (h : LinkForm fs l) (hdash : ∀ f ∈ fs, '-' ∉ f) :
    LinkForm (fieldsOf (String.ofList (Text.joined '-' fs))) l := by
  apply h.congr
  intro i hi
  rw [RemoteContext.fieldsOf_joined (.inr rfl) h.flag hdash]
  by_cases hlast : i + 1 = fs.length
  · -- only the address can be the last field among the first eight
    have hlong := h.length
    obtain rfl : i = 7 := by omega
    obtain ⟨f, hf, hform⟩ := h.address
    rw [if_pos hlast, hf, Option.map_some, Text.trimEnd_eq_self hform.isBlank]
  · rw [if_neg hlast]

/-- A header with a flag keeps it when it is written in another way. -/
theorem Rewritten.keeps_flag {link' : String} (h : Rewritten link link') (hflag : IsFlag flag)
    (hhead : (fieldsOf link)[0]? = some flag) : (fieldsOf link')[0]? = some flag := by
  cases h with
  | longer more =>
    obtain ⟨hlt, -⟩ := List.getElem?_eq_some_iff.mp hhead
    rw [fieldsOf_longer hflag hhead, List.getElem?_append_left hlt, hhead]
  | surrounded hbefore hafter => rw [fieldsOf_surrounded hbefore hafter, hhead]
  | unpadded hunpadded =>
    next fs =>
    have hhead' := hunpadded.same (by decide) hhead
    have hdash := hunpadded.not_mem fun f hf => Text.not_mem_of_mem_fields hf
    rw [RemoteContext.fieldsOf_joined hflag hhead' hdash, hhead', Option.map_some,
      hflag.trimEnd, ite_self]

/-- A link stays the same when it is written in another way. -/
theorem Rewritten.linkForm {link' : String} (h : Rewritten link link')
    (hform : LinkForm (fieldsOf link) l) : LinkForm (fieldsOf link') l := by
  cases h with
  | longer more =>
    apply hform.congr
    intro i hi
    have hlong := hform.length
    rw [fieldsOf_longer (.inr rfl) hform.flag, List.getElem?_append_left (by omega)]
  | surrounded hbefore hafter =>
    rw [fieldsOf_surrounded hbefore hafter]
    exact hform
  | unpadded hunpadded =>
    exact (hform.unpadded hunpadded).fieldsOf_joined
      (hunpadded.not_mem fun f hf => Text.not_mem_of_mem_fields hf)

end

/-! ### The grammar -/

section

variable {limits : Correlation.Limits} {k : Carrier} {l : Link} {link : String}

theorem verdict_eq_remote {r : Inbound} :
    verdict r = .remote l ↔ ∃ c, r = .remote c ∧ c.toLink = l := by
  cases r with
  | absent => simp [verdict]
  | ignored => simp [verdict]
  | remote c => simp [verdict]

/-- A link is found if and only if the fields have its form. -/
theorem verdict_extract_eq_remote (hlink : k.link = some link) :
    verdict (extract limits k).value = .remote l ↔ LinkForm (fieldsOf link) l := by
  rw [verdict_eq_remote]
  constructor
  · rintro ⟨c, hc, rfl⟩
    exact ((extract_eq_remote hlink).mp hc).1
  · intro hform
    let c : RemoteContext := ⟨l.trace, l.segment, l.span, l.service, l.instanceName, l.endpoint,
      l.address, readCorrelation limits k, readExtension k⟩
    exact ⟨c, (extract_eq_remote hlink).mpr ⟨hform, rfl, rfl⟩, rfl⟩

/-- In all other cases nothing usable is found. -/
theorem extract_eq_absent (hlink : k.link = some link) :
    (extract limits k).value = .absent ↔
      (fieldsOf link)[0]? ≠ some ['0'] ∧ ∀ l, ¬ LinkForm (fieldsOf link) l := by
  have hignored : (extract limits k).value = .ignored ↔ (fieldsOf link)[0]? = some ['0'] :=
    extract_eq_ignored hlink
  have hremote : ∀ l, verdict (extract limits k).value = .remote l ↔ LinkForm (fieldsOf link) l :=
    fun l => verdict_extract_eq_remote hlink
  cases hvalue : (extract limits k).value with
  | absent =>
    rw [hvalue] at hignored hremote
    refine iff_of_true rfl ⟨fun h => ?_, fun l h => ?_⟩
    · have := hignored.mpr h
      contradiction
    · have := (hremote l).mpr h
      contradiction
  | ignored => exact iff_of_false (by simp) fun h => h.1 (hignored.mp hvalue)
  | remote c =>
    rw [hvalue] at hremote
    exact iff_of_false (by simp) fun h => h.2 _ ((hremote c.toLink).mp rfl)

/-- The verdict depends on the link header only. -/
theorem verdict_congr {limits' : Correlation.Limits} {k' : Carrier} (hlink : k'.link = k.link) :
    verdict (extract limits' k').value = verdict (extract limits k).value := by
  cases hk : k.link with
  | none => simp only [extract, hlink, hk, Logged.pure_value]
  | some link =>
    rw [hk] at hlink
    cases hvalue : (extract limits k).value with
    | absent =>
      rw [(extract_eq_absent hlink).mpr ((extract_eq_absent hk).mp hvalue)]
    | ignored => rw [(extract_eq_ignored hlink).mpr ((extract_eq_ignored hk).mp hvalue)]
    | remote c =>
      exact (verdict_extract_eq_remote hlink).mpr ((extract_eq_remote hk).mp hvalue).1

/-- A header that is understood is read in the same way however it is written. -/
theorem extract_rewritten {link' : String} (hlink : k.link = some link)
    (hpresent : (extract limits k).value ≠ .absent) (h : Rewritten link link') :
    (extract limits { k with link := some link' }).value = (extract limits k).value := by
  cases hvalue : (extract limits k).value with
  | absent => exact absurd hvalue hpresent
  | ignored =>
    have hflag := (extract_eq_ignored hlink).mp hvalue
    exact (extract_eq_ignored rfl).mpr (h.keeps_flag (.inl rfl) hflag)
  | remote c =>
    obtain ⟨hform, hcorr, hext⟩ := (extract_eq_remote hlink).mp hvalue
    exact (extract_eq_remote rfl).mpr ⟨h.linkForm hform, hcorr, hext⟩

end

/-- **Grammar of the link header.** A carrier without the header says nothing. Otherwise
    the header is cut into fields: the trace is ignored if and only if the first field is
    `0`; there is a remote context if and only if the fields have the form of a link, which
    then is its link; and in all other cases nothing usable is found. Neither the other
    headers nor the limits have a say in this. A header that is understood means the same,
    together with the other headers, when it is written in another way. -/
theorem extract_grammar (limits : Correlation.Limits) (k : Carrier) :
    (k.link = none → (extract limits k).value = .absent) ∧
    (∀ link, k.link = some link →
      ((extract limits k).value = .ignored ↔ (fieldsOf link)[0]? = some ['0']) ∧
      (∀ l, verdict (extract limits k).value = .remote l ↔ LinkForm (fieldsOf link) l) ∧
      ((extract limits k).value = .absent ↔
        (fieldsOf link)[0]? ≠ some ['0'] ∧ ∀ l, ¬ LinkForm (fieldsOf link) l)) ∧
    (∀ limits' k', k'.link = k.link →
      verdict (extract limits' k').value = verdict (extract limits k).value) ∧
    (∀ link link', k.link = some link → (extract limits k).value ≠ .absent →
      Rewritten link link' →
      (extract limits { k with link := some link' }).value = (extract limits k).value) := by
  refine ⟨?_, ?_, ?_, ?_⟩
  · intro hnone
    rw [extract, hnone]
    rfl
  · intro link hlink
    exact ⟨extract_eq_ignored hlink, fun l => verdict_extract_eq_remote hlink,
      extract_eq_absent hlink⟩
  · intro limits' k' hlink
    exact verdict_congr hlink
  · intro link link' hlink hpresent hrewritten
    exact extract_rewritten hlink hpresent hrewritten

/-- A link header with a plus sign before the span id is understood, and it means the same
    with a ninth field behind it. -/
theorem extract_grammar_longer :
    let k : Carrier := ⟨"", some "1-dA==-cw==-+5-cw==-aQ==-ZQ==-YQ==", some "YQ:MQ", none⟩
    LinkForm (fieldsOf "1-dA==-cw==-+5-cw==-aQ==-ZQ==-YQ==") ⟨"t", "s", 5, "s", "i", "e", "a"⟩ ∧
    (extract .standard { k with link := some "1-dA==-cw==-+5-cw==-aQ==-ZQ==-YQ==-more" }).value =
      (extract .standard k).value := by
  intro k
  obtain ⟨-, hgrammar, -, hrewritten⟩ := extract_grammar .standard k
  have hread : verdict (extract .standard k).value =
      .remote ⟨"t", "s", 5, "s", "i", "e", "a"⟩ := by decide +kernel
  have hlonger : Rewritten "1-dA==-cw==-+5-cw==-aQ==-ZQ==-YQ=="
      "1-dA==-cw==-+5-cw==-aQ==-ZQ==-YQ==-more" := by
    rw [show "1-dA==-cw==-+5-cw==-aQ==-ZQ==-YQ==-more" = String.ofList
      (Text.trim "1-dA==-cw==-+5-cw==-aQ==-ZQ==-YQ==".toList ++ '-' :: "more".toList)
      by decide +kernel]
    exact .longer _
  refine ⟨((hgrammar _ rfl).2.1 _).mp hread, hrewritten _ _ rfl ?_ hlonger⟩
  intro habsent
  rw [habsent] at hread
  contradiction

end RemoteContext

end TraceLink
