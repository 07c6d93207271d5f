import Mathlib.Algebra.Group.Int.Defs
import TraceLink.Hop.RemoteContext
import TraceLink.Proofs.CorrelationCodec

/-! # Remote contexts through a carrier

    What is injected into a carrier is extracted from it again, field by field:
    the separators of the three headers never occur in what stands between them,
    and the white space that is trimmed never occurs at all.

    The reader accepts more than the writer produces. Whatever it accepts is still
    a context that can be sent on and read back unchanged. -/

namespace TraceLink

/-! ### The extension header -/

namespace Extension

theorem readTime_encode (t : Option UInt64) :
    readTime (match t with
      | some t => [Text.digits t.toNat]
      | .none => [[]]) = .ok t := by
  cases t with
  | none => rfl
  | some t =>
    have hne : Text.digits t.toNat ≠ [] := Nat.toDigits_ne_nil
    simp [readTime, hne, Text.readWord_digits]

/-- The flags are read back as they were written. -/
theorem read_encode (e : Extension) : read e.encode = .ok e := by
  obtain ⟨skip, sentAt⟩ := e
  have hdash (t : UInt64) : '-' ∉ Text.digits t.toNat := Text.not_mem_digits (by decide) _
  have hflag : (if skip then '1' else '0') ≠ '-' := by cases skip <;> decide
  -- neither the flag nor the digits hold a dash, so the cut falls between them
  have hcut : Text.cut '-' (encode ⟨skip, sentAt⟩).toList =
      ([if skip then '1' else '0'], match sentAt with
        | some t => [Text.digits t.toNat]
        | .none => [[]]) := by
    cases sentAt with
    | none => simp [encode, Text.cut, hflag]
    | some t =>
      have := Text.cut_append (hdash t) []
      simp only [List.append_nil, Text.cut] at this
      simp [encode, Text.cut, hflag, this]
  have hread : readFlag [if skip then '1' else '0'] = .ok skip := by cases skip <;> rfl
  rw [read, hcut]
  simp only [hread]
  show (readTime _ >>= fun time => Except.ok _) = _
  rw [readTime_encode]
  rfl

theorem decode_encode_value (e : Extension) : (decode e.encode).value = e := by
  rw [decode, read_encode]
  rfl

end Extension

namespace RemoteContext

/-! ### Characters of the link header -/

/-- The characters of a field that is a text. -/
theorem isBlank_of_mem_ofText {s : String} {c : Char} (h : c ∈ Text.Base64.ofText s) :
    Text.isBlank c = false := by
  have hsymbol : (Text.Base64.alphabet.all fun x => !Text.isBlank x) = true := by decide +kernel
  by_cases hc : c ∈ Text.Base64.alphabet
  · simpa using List.all_eq_true.mp hsymbol c hc
  · by_cases hpad : c = '='
    · subst hpad; decide +kernel
    · exact absurd h (Text.Base64.not_mem_encode hc hpad _)

theorem dash_not_mem_ofText (s : String) : '-' ∉ Text.Base64.ofText s :=
  Text.Base64.not_mem_encode (by decide +kernel) (by decide) _

theorem isBlank_of_mem_digits {n : Nat} {c : Char} (h : c ∈ Text.digits n) :
    Text.isBlank c = false := by
  have hdigit := Nat.isDigit_of_mem_toDigits (by omega) (by omega) h
  simp only [Char.isDigit, Bool.and_eq_true, decide_eq_true_eq] at hdigit
  -- the codes of the digits lie apart from those of the blanks
  have low : 48 ≤ c.toNat := hdigit.1
  have high : c.toNat ≤ 57 := hdigit.2
  simp [Text.isBlank, Text.inRanges, Text.blank]
  omega

/-- A text without white space is not shortened. -/
theorem trim_eq_self {s : List Char} (h : ∀ c ∈ s, Text.isBlank c = false) : Text.trim s = s := by
  have hdrop (t : List Char) (ht : ∀ c ∈ t, Text.isBlank c = false) :
      t.dropWhile Text.isBlank = t := by
    cases t with
    | nil => rfl
    | cons c t => simp [List.dropWhile, ht c (by simp)]
  rw [Text.trim, Text.trimStart, hdrop s h, Text.trimEnd,
    hdrop s.reverse (fun c hc => h c (List.mem_reverse.mp hc)), List.reverse_reverse]

theorem isBlank_of_mem_joined {fs : List (List Char)}
    (h : ∀ f ∈ fs, ∀ c ∈ f, Text.isBlank c = false) :
    ∀ c ∈ Text.joined '-' fs, Text.isBlank c = false := by
  induction fs with
  | nil => simp [Text.joined]
  | cons f fs ih =>
    cases fs with
    | nil => simpa using h
    | cons g gs =>
      intro c hc
      rw [Text.joined_cons] at hc
      rcases List.mem_append.mp hc with hc | hc
      · exact h f (by simp) c hc
      rcases List.mem_cons.mp hc with rfl | hc
      · decide +kernel
      · exact ih (fun x hx => h x (List.mem_cons_of_mem _ hx)) c hc

/-! ### The fields that the reader finds -/

/-- Dash-free fields whose join is the link header are the fields that the reader
    gets. -/
theorem readLink_of_joined {limits : Correlation.Limits} {k : Carrier} {fs : List (List Char)}
    (hblank : ∀ f ∈ ['1'] :: fs, ∀ x ∈ f, Text.isBlank x = false)
    (hdash : ∀ f ∈ ['1'] :: fs, '-' ∉ f) :
    readLink limits k (String.ofList (Text.joined '-' (['1'] :: fs))) =
      readFields limits k fs := by
  have hfields := Text.fields_joined hdash
  rw [Text.fields, List.cons.injEq] at hfields
  have hcut : Text.cut '-' (Text.joined '-' (['1'] :: fs)) = (['1'], fs) :=
    Prod.ext hfields.1 hfields.2
  rw [readLink, String.toList_ofList, trim_eq_self (isBlank_of_mem_joined hblank), hcut]
  rfl

/-- The fields of a link header after the sample flag. With a negative span id the
    minus sign stands as a separator, so there is an empty field in its place. -/
def readerFields (c : RemoteContext) : List (List Char) :=
  [Text.Base64.ofText c.trace, Text.Base64.ofText c.segment] ++
  (match c.span with
    | .ofNat n => [Text.digits n]
    | .negSucc n => [[], Text.digits (n + 1)]) ++
  [Text.Base64.ofText c.service, Text.Base64.ofText c.instanceName,
    Text.Base64.ofText c.endpoint, Text.Base64.ofText c.address]

theorem joined_linkFields (c : RemoteContext) :
    Text.joined '-' c.linkFields = Text.joined '-' (['1'] :: c.readerFields) := by
  unfold linkFields readerFields
  cases c.span with
  | ofNat n => rfl
  | negSucc n => simp [Text.joined_cons, Text.signed]

theorem mem_readerFields {c : RemoteContext} {f : List Char} (h : f ∈ ['1'] :: c.readerFields) :
    f = ['1'] ∨ f = [] ∨ (∃ s, f = Text.Base64.ofText s) ∨ ∃ n, f = Text.digits n := by
  unfold readerFields at h
  cases hs : c.span with
  | ofNat n =>
    simp only [hs, List.cons_append, List.nil_append, List.mem_cons, List.not_mem_nil,
      or_false] at h
    rcases h with h | h | h | h | h | h | h | h
    · exact Or.inl h
    · exact Or.inr (Or.inr (Or.inl ⟨_, h⟩))
    · exact Or.inr (Or.inr (Or.inl ⟨_, h⟩))
    · exact Or.inr (Or.inr (Or.inr ⟨_, h⟩))
    all_goals exact Or.inr (Or.inr (Or.inl ⟨_, h⟩))
  | negSucc n =>
    simp only [hs, List.cons_append, List.nil_append, List.mem_cons, List.not_mem_nil,
      or_false] at h
    rcases h with h | h | h | h | h | h | h | h | h
    · exact Or.inl h
    · exact Or.inr (Or.inr (Or.inl ⟨_, h⟩))
    · exact Or.inr (Or.inr (Or.inl ⟨_, h⟩))
    · exact Or.inr (Or.inl h)
    · exact Or.inr (Or.inr (Or.inr ⟨_, h⟩))
    all_goals exact Or.inr (Or.inr (Or.inl ⟨_, h⟩))

/-- What is extracted from a filled carrier is read from the fields that were put
    into it, and from nothing that the carrier held before. -/
theorem extract_inject (limits : Correlation.Limits) (c : RemoteContext) (k : Carrier) :
    extract limits (c.inject k) = readFields limits (c.inject k) c.readerFields := by
  have hlink : (c.inject k).link =
      some (String.ofList (Text.joined '-' (['1'] :: c.readerFields))) := by
    rw [← joined_linkFields]
    rfl
  rw [extract, hlink]
  -- both conditions go by the kind of field: a flag, nothing, base64 or digits
  apply readLink_of_joined
  · intro f hf x hx
    rcases mem_readerFields hf with rfl | rfl | ⟨s, rfl⟩ | ⟨n, rfl⟩
    · rw [List.mem_singleton.mp hx]; decide +kernel
    · exact absurd hx List.not_mem_nil
    · exact isBlank_of_mem_ofText hx
    · exact isBlank_of_mem_digits hx
  · intro f hf
    rcases mem_readerFields hf with rfl | rfl | ⟨s, rfl⟩ | ⟨n, rfl⟩
    · decide
    · exact List.not_mem_nil
    · exact dash_not_mem_ofText s
    · exact Text.not_mem_digits (by decide) n

/-! ### What the reader makes of them -/

theorem readField_ofText (s : String) : readField (Text.Base64.ofText s) = .ok s := by
  rw [readField, Text.Base64.toText_ofText]

theorem readSpan_digits {n : Nat} (h : (n : Int) < 2 ^ 31) :
    readSpan (Text.digits n) = .ok (n : Int) := by
  have hread : Text.readInt32 (Text.digits n) = some (n : Int) :=
    Text.readInt_signed (n := (n : Int)) (by omega) (by omega)
  simp [readSpan, hread, Option.filter]

/-- What the reader makes of the correlation header. -/
def readCorrelation (limits : Correlation.Limits) (k : Carrier) : Correlation :=
  Correlation.received limits k.correlation

/-- What the reader makes of the extension header. -/
def readExtension (k : Carrier) : Extension :=
  match k.extension with
  | some header => (Extension.decode header).value
  | none => Extension.none

/-- What the reader makes of the four texts behind the ids. -/
def readTexts (ids : LinkIds) (service instanceName endpoint address : List Char)
    (correlation : Correlation) (extension : Extension) : Except HeaderFault RemoteContext := do
  return {
    trace := ids.trace
    segment := ids.segment
    span := ids.span
    service := ← readField service
    instanceName := ← readField instanceName
    endpoint := ← readField endpoint
    address := ← readField address
    correlation := correlation
    extension := extension }

/-- A context is read if its ids are usable and its texts are readable. The other two
    headers have no say in this. -/
theorem readFields_value (limits : Correlation.Limits) (k : Carrier)
    (trace segment span service instanceName endpoint address : List Char)
    (rest : List (List Char)) :
    (readFields limits k
      (trace :: segment :: span :: service :: instanceName :: endpoint :: address :: rest)).value =
    match readIds trace segment span with
    | .error _ => .absent
    | .ok ids =>
      match readTexts ids service instanceName endpoint address
        (readCorrelation limits k) (readExtension k) with
      | .error _ => .absent
      | .ok c => .remote c := by
  have htexts (t : Except HeaderFault RemoteContext) :
      (match t with
        | .error f => absentFor f
        | .ok c => return .remote c : Logged Inbound).value =
      match t with
        | .error _ => .absent
        | .ok c => .remote c := by
    cases t <;> rfl
  cases hids : readIds trace segment span with
  | error f => simp [readFields, hids, absentFor]
  | ok ids =>
    unfold readCorrelation Correlation.received readExtension
    simp only [readFields, hids]
    -- the two headers only add notes, so every case ends in the same texts
    cases k.correlation <;> cases k.extension <;> exact htexts (readTexts ids _ _ _ _ _ _)

theorem readTexts_ofText (ids : LinkIds) (service instanceName endpoint address : String)
    (correlation : Correlation) (extension : Extension) :
    readTexts ids (Text.Base64.ofText service) (Text.Base64.ofText instanceName)
      (Text.Base64.ofText endpoint) (Text.Base64.ofText address) correlation extension =
    .ok ⟨ids.trace, ids.segment, ids.span, service, instanceName, endpoint, address,
      correlation, extension⟩ := by
  simp only [readTexts, readField_ofText]
  rfl

/-- Only the texts are read here; the rest of the context is what it is given. -/
theorem readTexts_ok {ids : LinkIds} {service instanceName endpoint address : List Char}
    {correlation : Correlation} {extension : Extension} {c : RemoteContext}
    (h : readTexts ids service instanceName endpoint address correlation extension = .ok c) :
    c.trace = ids.trace ∧ c.segment = ids.segment ∧ c.span = ids.span ∧
      c.correlation = correlation ∧ c.extension = extension := by
  -- the first text that cannot be read decides the outcome
  unfold readTexts at h
  cases hs : readField service with
  | error f => rw [hs] at h; contradiction
  | ok service =>
  cases hi : readField instanceName with
  | error f => rw [hs, hi] at h; contradiction
  | ok instanceName =>
  cases he : readField endpoint with
  | error f => rw [hs, hi, he] at h; contradiction
  | ok endpoint =>
  cases ha : readField address with
  | error f => rw [hs, hi, he, ha] at h; contradiction
  | ok address =>
    rw [hs, hi, he, ha] at h
    obtain rfl := Except.ok.inj h
    exact ⟨rfl, rfl, rfl, rfl, rfl⟩

/-- The ids of a link header are usable: neither id is empty, and the span id is a
    natural number of 31 bits. -/
structure LinkIds.Usable (ids : LinkIds) : Prop where
  trace_ne : ids.trace ≠ ""
  segment_ne : ids.segment ≠ ""
  span_nonneg : 0 ≤ ids.span
  span_lt : ids.span < 2 ^ 31

theorem readInt32_lt {s : List Char} {n : Int} (h : Text.readInt32 s = some n) : n < 2 ^ 31 := by
  have hnat (t : List Char) (m : Nat) (ht : Text.readNat (2 ^ 31) t = some m) : m < 2 ^ 31 := by
    obtain ⟨_, hlt⟩ := Option.filter_eq_some_iff.mp ht
    simpa using hlt
  unfold Text.readInt32 Text.readInt at h
  split at h
  · obtain ⟨m, _, rfl⟩ := Option.map_eq_some_iff.mp h
    omega
  · obtain ⟨m, hm, rfl⟩ := Option.map_eq_some_iff.mp h
    have := hnat _ _ hm
    omega

theorem readSpan_ok {s : List Char} {n : Int} (h : readSpan s = .ok n) : 0 ≤ n ∧ n < 2 ^ 31 := by
  unfold readSpan at h
  split at h
  · next m hm =>
    obtain rfl := Except.ok.inj h
    obtain ⟨hread, hnonneg⟩ := Option.filter_eq_some_iff.mp hm
    exact ⟨by simpa using hnonneg, readInt32_lt hread⟩
  · contradiction

theorem readIds_ok {trace segment span : List Char} {ids : LinkIds}
    (h : readIds trace segment span = .ok ids) : ids.Usable := by
  unfold readIds at h
  cases ht : readField trace with
  | error f => rw [ht] at h; contradiction
  | ok trace =>
  cases hg : readField segment with
  | error f => rw [ht, hg] at h; contradiction
  | ok segment =>
  rw [ht, hg] at h
  by_cases hempty : trace = "" ∨ segment = ""
  · simp [bind, Except.bind, hempty, throw, throwThe, MonadExceptOf.throw] at h
  · cases hs : readSpan span with
    | error f => simp [bind, Except.bind, hempty, hs] at h
    | ok n =>
      simp only [bind, Except.bind, hempty, if_false, hs] at h
      obtain rfl := Except.ok.inj h
      obtain ⟨hnonneg, hlt⟩ := readSpan_ok hs
      rw [not_or] at hempty
      exact ⟨hempty.1, hempty.2, hnonneg, hlt⟩

/-- The ids that were written are read back if they are usable, and refused if not. -/
theorem readIds_ofText (trace segment : String) (span : List Char) :
    readIds (Text.Base64.ofText trace) (Text.Base64.ofText segment) span =
      if trace = "" ∨ segment = "" then .error .emptyIds
      else (readSpan span).map fun n => ⟨trace, segment, n⟩ := by
  unfold readIds
  simp only [readField_ofText]
  by_cases hempty : trace = "" ∨ segment = ""
  · simp [bind, Except.bind, hempty, throw, throwThe, MonadExceptOf.throw]
  · simp only [bind, Except.bind, hempty, if_false]
    cases readSpan span <;> rfl

/-! ### Round trip -/

theorem readCorrelation_inject (limits : Correlation.Limits) (c : RemoteContext) (k : Carrier) :
    readCorrelation limits (c.inject k) = Correlation.received limits c.correlation.encode := rfl

theorem readExtension_inject (c : RemoteContext) (k : Carrier) :
    readExtension (c.inject k) = c.extension :=
  Extension.decode_encode_value c.extension

/-- The ids of a context can be read back: neither is empty, and the span id is not
    negative. -/
def IsLinkable (c : RemoteContext) : Prop := c.trace ≠ "" ∧ c.segment ≠ "" ∧ 0 ≤ c.span

instance (c : RemoteContext) : Decidable c.IsLinkable :=
  inferInstanceAs (Decidable (_ ∧ _ ∧ _))

/-- The context as it is received within other limits: with the entries that fit. -/
def within (limits : Correlation.Limits) (c : RemoteContext) : RemoteContext :=
  { c with correlation := ⟨limits, Correlation.admitted limits c.correlation.entries⟩ }

/-- Across limits, a context that can be linked arrives with the correlation entries
    that fit. -/
theorem extract_inject_of_isLinkable {limits : Correlation.Limits} {c : RemoteContext}
    (h : c.IsLinkable) (hspan : c.span < 2 ^ 31) (hcorr : c.correlation.WellFormed)
    (k : Carrier) :
    (extract limits (c.inject k)).value = .remote (c.within limits) := by
  obtain ⟨htrace, hsegment, hnonneg⟩ := h
  obtain ⟨n, hn⟩ := Int.eq_ofNat_of_zero_le hnonneg
  -- without a sign the span id is one field, as the reader expects
  have hids : readIds (Text.Base64.ofText c.trace) (Text.Base64.ofText c.segment)
      (Text.digits n) = .ok ⟨c.trace, c.segment, c.span⟩ := by
    rw [readIds_ofText, if_neg (by simp [htrace, hsegment]), readSpan_digits (by omega), ← hn]
    rfl
  have hfields : c.readerFields = [Text.Base64.ofText c.trace, Text.Base64.ofText c.segment,
      Text.digits n, Text.Base64.ofText c.service, Text.Base64.ofText c.instanceName,
      Text.Base64.ofText c.endpoint, Text.Base64.ofText c.address] := by
    rw [readerFields, hn]
    rfl
  rw [extract_inject, hfields, readFields_value, hids]
  simp only [readTexts_ofText, readCorrelation_inject, readExtension_inject,
    Correlation.received_encode hcorr]
  rfl

/-- A context that cannot be linked is not extracted. -/
theorem extract_inject_of_not_isLinkable {limits : Correlation.Limits} {c : RemoteContext}
    (h : ¬ c.IsLinkable) (k : Carrier) : (extract limits (c.inject k)).value = .absent := by
  rw [extract_inject]
  unfold readerFields
  cases hs : c.span with
  | ofNat n =>
    have hempty : c.trace = "" ∨ c.segment = "" := by
      simp only [IsLinkable, hs] at h
      grind
    simp only [List.cons_append, List.nil_append]
    rw [readFields_value, readIds_ofText, if_pos hempty]
  | negSucc n =>
    -- the minus sign leaves an empty field where the span id is read
    have hids : ∃ f, readIds (Text.Base64.ofText c.trace) (Text.Base64.ofText c.segment) [] =
        .error f := by
      rw [readIds_ofText]
      split
      · exact ⟨_, rfl⟩
      · exact ⟨.spanId, rfl⟩
    obtain ⟨f, hids⟩ := hids
    simp only [List.cons_append, List.nil_append]
    rw [readFields_value, hids]

/-- Whatever is extracted can be linked, and its correlation is within the limits. -/
theorem extract_remote {limits : Correlation.Limits} {k : Carrier} {c : RemoteContext}
    (h : (extract limits k).value = .remote c) :
    c.IsLinkable ∧ c.span < 2 ^ 31 ∧ c.correlation.Fits limits := by
  have hfits : (readCorrelation limits k).Fits limits := by
    unfold readCorrelation Correlation.received
    cases k.correlation with
    | none => exact ⟨rfl, Correlation.wellFormed_empty limits⟩
    | some header => exact Correlation.fits_decode ⟨rfl, Correlation.wellFormed_empty limits⟩ header
  -- only a link header with the flag `1` and seven fields behind it is read
  have hread : ∃ rest, (readFields limits k rest).value = .remote c := by
    unfold extract at h
    split at h
    · unfold readLink at h
      split at h
      · contradiction
      · exact ⟨_, h⟩
      · contradiction
    · contradiction
  obtain ⟨rest, hread⟩ := hread
  match rest, hread with
  | trace :: segment :: span :: service :: instanceName :: endpoint :: address :: rest, hread =>
    rw [readFields_value] at hread
    split at hread
    · contradiction
    · next ids hids =>
      split at hread
      · contradiction
      · next c' htexts =>
        obtain rfl := Inbound.remote.inj hread
        obtain ⟨htrace, hsegment, hspan, hcorr, -⟩ := readTexts_ok htexts
        have hu := readIds_ok hids
        rw [IsLinkable, htrace, hsegment, hspan, hcorr]
        exact ⟨⟨hu.trace_ne, hu.segment_ne, hu.span_nonneg⟩, hu.span_lt, hfits⟩

/-- **Round trip of the headers.** A context that was injected into a carrier is
    extracted from it with every field equal if it can be linked, and is absent
    otherwise; what the carrier held before has no influence. Whatever a carrier
    with arbitrary headers holds, a context that is extracted from it can be linked,
    keeps the limits, and passes through every other carrier unchanged. -/
theorem extract_inject_round_trip (limits : Correlation.Limits) :
    (∀ (c : RemoteContext) (k : Carrier), Correlation.Built limits c.correlation →
      c.span < 2 ^ 31 →
      (extract limits (c.inject k)).value = (if c.IsLinkable then .remote c else .absent) ∧
      c.inject k = c.inject (.empty k.label)) ∧
    (∀ (k : Carrier) (c : RemoteContext), (extract limits k).value = .remote c →
      c.IsLinkable ∧ c.span < 2 ^ 31 ∧ c.correlation.limits = limits ∧
      c.correlation.WellFormed ∧
      ∀ k', (extract limits (c.inject k')).value = .remote c) := by
  -- its own limits admit all that is sent, so nothing is lost on the way
  have hself (c : RemoteContext) (k : Carrier) (hl : c.IsLinkable) (hspan : c.span < 2 ^ 31)
      (hfits : c.correlation.Fits limits) : (extract limits (c.inject k)).value = .remote c := by
    rw [extract_inject_of_isLinkable hl hspan hfits.2]
    obtain ⟨rfl, hwf⟩ := hfits
    rw [within, Correlation.admitted_self hwf]
  constructor
  · intro c k hbuilt hspan
    refine ⟨?_, rfl⟩
    split
    · next hl => exact hself c k hl hspan hbuilt.fits
    · next hl => exact extract_inject_of_not_isLinkable hl k
  · intro k c h
    obtain ⟨hl, hspan, hfits⟩ := extract_remote h
    exact ⟨hl, hspan, hfits.1, hfits.2, fun k' => hself c k' hl hspan hfits⟩

/-- A context whose texts hold separators and letters beyond ASCII replaces what a
    carrier held, and a link header with blanks around it, a plus sign, short base64
    fields and a ninth field is read as a context that can be sent on. -/
theorem extract_inject_round_trip_lenient :
    let sent : RemoteContext :=
      ⟨"t-1", "é:,", 7, "", "i", "/a b", "db:5432",
        ((Correlation.empty .standard).put "user" "42").value.2, ⟨true, some 5⟩⟩
    let old : Carrier := ⟨"tenant", some "0", some "YQ==:MQ==", none⟩
    let lenient : Carrier :=
      ⟨"", some " 1-dA-cw==-+5-cw-aQ-ZQ-YQ-future ", some "YQ:MQ,broken,Yg==:Mg==", some "1-7-x"⟩
    let read : RemoteContext :=
      ⟨"t", "s", 5, "s", "i", "e", "a", ⟨.standard, [("a", "1"), ("b", "2")]⟩, ⟨true, some 7⟩⟩
    (extract .standard (sent.inject old)).value = .remote sent ∧
    (extract .standard lenient).value = .remote read ∧
    ∀ k, (extract .standard (read.inject k)).value = .remote read := by
  intro sent old lenient read
  have hsent := ((extract_inject_round_trip .standard).1 sent old (.put "user" "42" .empty)
    (by decide)).1
  have hread : (extract .standard lenient).value = .remote read := by decide +kernel
  have hsend := ((extract_inject_round_trip .standard).2 lenient read hread).2.2.2.2
  exact ⟨by rw [hsent, if_pos (by decide)], hread, hsend⟩

end RemoteContext

end TraceLink
