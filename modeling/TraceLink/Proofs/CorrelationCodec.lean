import TraceLink.Hop.Correlation

/-! # Correlation entries within their limits

    Every operation on correlation entries keeps them well formed: the keys are
    distinct and not empty, the values are neither empty nor too long, and there
    are no more of them than the limits allow. The operations may be handed
    anything, entries of other limits and unreadable headers included.

    On the wire the entries are read back by storing them one after the other, so
    reading the header of some entries is the same as merging them. From an empty
    start this keeps the first entries that fit. -/

namespace TraceLink

namespace Correlation

/-! ### Well-formed entries -/

/-- **Well-formed correlation**: what the receiver of a trace may rely on. -/
structure WellFormed (c : Correlation) : Prop where
  keys_nodup : (c.entries.map Prod.fst).Nodup
  key_ne : ∀ e ∈ c.entries, e.1 ≠ ""
  value_ne : ∀ e ∈ c.entries, e.2 ≠ ""
  value_le : ∀ e ∈ c.entries, e.2.utf8ByteSize ≤ c.limits.valueBytes
  length_le : c.entries.length ≤ c.limits.entries

theorem wellFormed_empty (limits : Limits) : (empty limits).WellFormed where
  keys_nodup := List.nodup_nil
  key_ne := by simp [empty]
  value_ne := by simp [empty]
  value_le := by simp [empty]
  length_le := Nat.zero_le _

/-! ### The operations keep the entries well formed -/

theorem wellFormed_erase {c : Correlation} (h : c.WellFormed) (key : String) :
    (c.erase key).WellFormed where
  keys_nodup := by
    show ((Entries.erase key c.entries).map Prod.fst).Nodup
    rw [Entries.keys_erase]
    exact h.keys_nodup.erase key
  key_ne e he := h.key_ne e (Entries.mem_of_mem_erase he)
  value_ne e he := h.value_ne e (Entries.mem_of_mem_erase he)
  value_le e he := h.value_le e (Entries.mem_of_mem_erase he)
  length_le := Nat.le_trans (Entries.length_erase_le _ _) h.length_le

/-- What storing an entry can do: nothing, remove the entry under the key, or put a
    value in its place that fits. -/
theorem put_cases (c : Correlation) (key value : String) :
    (c.put key value).value.2 = c ∨
    (c.put key value).value.2 = c.erase key ∨
    (key ≠ "" ∧ value ≠ "" ∧ value.utf8ByteSize ≤ c.limits.valueBytes ∧
      (c.entries.hasKey key ∨ c.entries.length < c.limits.entries) ∧
      (c.put key value).value.2 = { c with entries := c.entries.put key value }) := by
  unfold put
  split
  · exact Or.inl rfl
  · next hk =>
    split
    · exact Or.inr (Or.inl rfl)
    · next hv =>
      split
      · exact Or.inl rfl
      · next hl =>
        split
        · next room =>
          simp only [Bool.or_eq_true, decide_eq_true_eq] at room
          exact Or.inr (Or.inr ⟨hk, hv, Nat.le_of_not_lt hl, room, rfl⟩)
        · exact Or.inl rfl

@[simp] theorem limits_put (c : Correlation) (key value : String) :
    (c.put key value).value.2.limits = c.limits := by
  rcases put_cases c key value with h | h | ⟨_, _, _, _, h⟩ <;> rw [h]
  rfl

theorem wellFormed_put {c : Correlation} (h : c.WellFormed) (key value : String) :
    (c.put key value).value.2.WellFormed := by
  rcases put_cases c key value with e | e | ⟨hk, hv, hl, room, e⟩
  · rw [e]; exact h
  · rw [e]; exact wellFormed_erase h key
  rw [e]
  refine ⟨?_, ?_, ?_, ?_, ?_⟩
  -- the keys only change when the new one is appended
  · show ((Entries.put key value c.entries).map Prod.fst).Nodup
    rw [Entries.keys_put]
    split
    · exact h.keys_nodup
    · next hnew =>
      refine List.nodup_append.mpr ⟨h.keys_nodup, by simp, ?_⟩
      intro a ha b hb hab
      rw [List.mem_singleton.mp hb] at hab
      subst hab
      obtain ⟨x, hx, hxk⟩ := List.mem_map.mp ha
      exact hnew (by simpa [Entries.hasKey] using ⟨x.2, by rw [← hxk]; exact hx⟩)
  · intro x hx
    rcases Entries.mem_put hx with hx | rfl
    · exact h.key_ne x hx
    · exact hk
  · intro x hx
    rcases Entries.mem_put hx with hx | rfl
    · exact h.value_ne x hx
    · exact hv
  · intro x hx
    rcases Entries.mem_put hx with hx | rfl
    · exact h.value_le x hx
    · exact hl
  · show (Entries.put key value c.entries).length ≤ c.limits.entries
    rw [Entries.length_put]
    have := h.length_le
    rcases room with room | room
    · simp [room, this]
    · split <;> omega

theorem putAll_cons_value (c : Correlation) (e : String × String) (es : Entries String String) :
    (c.putAll (e :: es)).value = ((c.put e.1 e.2).value.2.putAll es).value := by
  simp [putAll, Logged.foldlM_value]

theorem putPair_value (c : Correlation) (s : List Char) :
    (c.putPair s).value = c ∨
      ∃ e : String × String, (c.putPair s).value = (c.put e.1 e.2).value.2 := by
  unfold putPair
  split
  · next key value _ => exact Or.inr ⟨(key, value), rfl⟩
  · exact Or.inl rfl

/-- A property that storing keeps is kept by storing one entry after the other. -/
theorem putAll_induct {P : Correlation → Prop}
    (hput : ∀ c key value, P c → P (c.put key value).value.2) {c : Correlation} (h : P c)
    (es : Entries String String) : P (c.putAll es).value := by
  induction es generalizing c with
  | nil => exact h
  | cons e es ih =>
    rw [putAll_cons_value]
    exact ih (hput c e.1 e.2 h)

/-- A property that storing keeps is kept by reading a header. -/
theorem decode_induct {P : Correlation → Prop}
    (hput : ∀ c key value, P c → P (c.put key value).value.2) {c : Correlation} (h : P c)
    (header : String) : P (c.decode header).value := by
  unfold decode
  rw [Logged.foldlM_value]
  -- how the header was cut no longer matters, only that it is a list of pairs
  generalize (Text.fields ',' header.toList).filter (· ≠ []) = pairs
  induction pairs generalizing c with
  | nil => exact h
  | cons s pairs ih =>
    refine ih (c := (c.putPair s).value) ?_
    rcases putPair_value c s with e | ⟨e, he⟩
    · rw [e]; exact h
    · rw [he]; exact hput c e.1 e.2 h

/-- Well formed within the given limits. -/
def Fits (limits : Limits) (c : Correlation) : Prop := c.limits = limits ∧ c.WellFormed

theorem fits_put {limits : Limits} (c : Correlation) (key value : String)
    (h : c.Fits limits) : (c.put key value).value.2.Fits limits :=
  ⟨(limits_put c key value).trans h.1, wellFormed_put h.2 key value⟩

theorem fits_merge {limits : Limits} {c : Correlation} (h : c.Fits limits)
    (other : Correlation) : (c.merge other).value.Fits limits :=
  putAll_induct fits_put h _

theorem fits_decode {limits : Limits} {c : Correlation} (h : c.Fits limits)
    (header : String) : (c.decode header).value.Fits limits :=
  decode_induct fits_put h header

/-- **Built correlation**: what the operations make of an empty one. -/
inductive Built (limits : Limits) : Correlation → Prop where
  | empty : Built limits (.empty limits)
  | put {c : Correlation} (key value : String) :
      Built limits c → Built limits (c.put key value).value.2
  | erase {c : Correlation} (key : String) : Built limits c → Built limits (c.erase key)
  | merge {c : Correlation} (other : Correlation) :
      Built limits c → Built limits (c.merge other).value
  | decode {c : Correlation} (header : String) :
      Built limits c → Built limits (c.decode header).value

/-- Built entries are well formed within their limits. -/
theorem Built.fits {limits : Limits} {c : Correlation} (h : Built limits c) :
    c.Fits limits := by
  induction h with
  | empty => exact ⟨rfl, wellFormed_empty limits⟩
  | put key value _ ih => exact fits_put _ key value ih
  | erase key _ ih => exact ⟨ih.1, wellFormed_erase ih.2 key⟩
  | merge other _ ih => exact fits_merge ih other
  | decode header _ ih => exact fits_decode ih header

/-! ### Storing into an empty correlation -/

/-- The entries of a list that limits let through: the first ones that are not too
    long. -/
def admitted (limits : Limits) (es : Entries String String) : Entries String String :=
  (es.filter fun e => e.2.utf8ByteSize ≤ limits.valueBytes).take limits.entries

theorem put_of_new {c : Correlation} {key value : String} (hk : key ≠ "") (hv : value ≠ "")
    (hnew : c.entries.hasKey key = false) :
    (c.put key value).value.2 =
      if value.utf8ByteSize ≤ c.limits.valueBytes ∧ c.entries.length < c.limits.entries then
        { c with entries := c.entries ++ [(key, value)] }
      else c := by
  have hput : Entries.put key value c.entries = c.entries ++ [(key, value)] := by
    generalize c.entries = es at hnew
    induction es with
    | nil => rfl
    | cons x rest ih =>
      have hx : x.1 ≠ key := by rintro rfl; simp [Entries.hasKey] at hnew
      have hrest : Entries.hasKey rest key = false := by
        simpa [Entries.hasKey, hx] using hnew
      rw [Entries.put, if_neg hx, ih hrest]
      rfl
  unfold put
  rw [if_neg hk, if_neg hv]
  by_cases hl : c.limits.valueBytes < value.utf8ByteSize
  · rw [if_pos hl, if_neg (by omega)]
    rfl
  · rw [if_neg hl]
    by_cases hroom : c.entries.length < c.limits.entries
    · rw [if_pos (by simp [hroom]), if_pos ⟨by omega, hroom⟩, hput]
      rfl
    · rw [if_neg (by simp [hnew, hroom]), if_neg (by omega)]
      rfl

/-- Storing new entries behind those there are admits them while there is room. -/
theorem putAll_value (limits : Limits) (kept : Entries String String)
    {es : Entries String String} (hnodup : (es.map Prod.fst).Nodup)
    (hkey : ∀ e ∈ es, e.1 ≠ "") (hvalue : ∀ e ∈ es, e.2 ≠ "")
    (hnew : ∀ e ∈ es, Entries.hasKey kept e.1 = false) (hlen : kept.length ≤ limits.entries) :
    (putAll ⟨limits, kept⟩ es).value =
      ⟨limits, kept ++
        (es.filter fun e => e.2.utf8ByteSize ≤ limits.valueBytes).take
          (limits.entries - kept.length)⟩ := by
  -- what is kept grows along the list, and the room for the rest shrinks with it
  induction es generalizing kept with
  | nil => simp [putAll]
  | cons e es ih =>
    simp only [List.map_cons, List.nodup_cons] at hnodup
    have hput := put_of_new (c := ⟨limits, kept⟩) (hkey e (by simp)) (hvalue e (by simp))
      (hnew e (by simp))
    have hkey' : ∀ x ∈ es, x.1 ≠ "" := fun x hx => hkey x (by simp [hx])
    have hvalue' : ∀ x ∈ es, x.2 ≠ "" := fun x hx => hvalue x (by simp [hx])
    have hnew' : ∀ x ∈ es, Entries.hasKey kept x.1 = false := fun x hx => hnew x (by simp [hx])
    rw [putAll_cons_value, hput]
    show (Correlation.putAll (if _ ∧ kept.length < limits.entries then _ else _) es).value = _
    by_cases hl : e.2.utf8ByteSize ≤ limits.valueBytes
    · by_cases hroom : kept.length < limits.entries
      · -- the entry is kept, and later ones are new beside it too
        have hnew'' : ∀ x ∈ es, Entries.hasKey (kept ++ [e]) x.1 = false := by
          intro x hx
          have hne : e.1 ≠ x.1 := fun h => hnodup.1 (List.mem_map.mpr ⟨x, hx, h.symm⟩)
          have := hnew' x hx
          simp only [Entries.hasKey] at this ⊢
          simp [List.any_append, this, hne]
        rw [if_pos ⟨hl, hroom⟩, ih (kept ++ [e]) hnodup.2 hkey' hvalue' hnew'' (by simp; omega)]
        have hsub : limits.entries - kept.length = limits.entries - (kept.length + 1) + 1 := by
          omega
        simp [hl, hsub]
      · -- no entry is free any more
        have hzero : limits.entries - kept.length = 0 := by omega
        rw [if_neg (by simp [hroom]), ih kept hnodup.2 hkey' hvalue' hnew' hlen]
        simp [hzero]
    · rw [if_neg (by simp [hl]), ih kept hnodup.2 hkey' hvalue' hnew' hlen]
      simp [hl]

/-- Merging well-formed entries into an empty correlation admits the first that fit. -/
theorem merge_empty_value {c : Correlation} (h : c.WellFormed) (limits : Limits) :
    ((empty limits).merge c).value = ⟨limits, admitted limits c.entries⟩ := by
  have := putAll_value limits [] h.keys_nodup h.key_ne h.value_ne (fun _ _ => rfl)
    (Nat.zero_le _)
  simpa [merge, empty, admitted] using this

/-- Well-formed entries are all admitted by their own limits. -/
theorem admitted_self {c : Correlation} (h : c.WellFormed) :
    admitted c.limits c.entries = c.entries := by
  have hall : (c.entries.filter fun e => e.2.utf8ByteSize ≤ c.limits.valueBytes) = c.entries :=
    List.filter_eq_self.mpr fun e he => by simpa using h.value_le e he
  rw [admitted, hall]
  exact List.take_of_length_le h.length_le

/-- What limits admit they admit again. -/
theorem admitted_admitted (limits : Limits) (es : Entries String String) :
    admitted limits (admitted limits es) = admitted limits es := by
  have hall : (admitted limits es).filter (fun e => e.2.utf8ByteSize ≤ limits.valueBytes) =
      admitted limits es :=
    List.filter_eq_self.mpr fun e he =>
      (List.mem_filter.mp (List.mem_of_mem_take he)).2
  rw [admitted, hall]
  exact List.take_of_length_le (List.length_take_le _ _)

/-! ### Reading what was written -/

theorem colon_not_mem_ofText (s : String) : ':' ∉ Text.Base64.ofText s :=
  Text.Base64.not_mem_encode (by decide +kernel) (by decide) _

theorem comma_not_mem_encodePair (e : String × String) : ',' ∉ encodePair e := by
  have h (s : String) : ',' ∉ Text.Base64.ofText s :=
    Text.Base64.not_mem_encode (by decide +kernel) (by decide) _
  simp [encodePair, h]

theorem decodePair_encodePair (e : String × String) : decodePair (encodePair e) = .ok e := by
  have hside (s : String) : decodeSide (Text.Base64.ofText s) = .ok s := by
    rw [decodeSide, Text.Base64.toText_ofText]
  rw [decodePair, encodePair, Text.cutOnce?_append (colon_not_mem_ofText e.1)]
  simp only [hside]
  rfl

/-- The pairs of an encoded header are the entries, in order. -/
theorem fields_encode {c : Correlation} {header : String} (h : c.encode = some header) :
    (Text.fields ',' header.toList).filter (· ≠ []) = c.entries.map encodePair := by
  unfold encode at h
  split at h
  · contradiction
  · next hne =>
    obtain ⟨e, es, hes⟩ := List.exists_cons_of_ne_nil hne
    obtain rfl := Option.some.inj h
    have hcomma : ∀ s ∈ (e :: es).map encodePair, ',' ∉ s := by
      intro s hs
      obtain ⟨x, _, rfl⟩ := List.mem_map.mp hs
      exact comma_not_mem_encodePair x
    rw [String.toList_ofList, hes]
    rw [List.map_cons] at hcomma ⊢
    rw [Text.fields_joined hcomma, ← List.map_cons]
    -- a pair holds a colon, so none is empty
    refine List.filter_eq_self.mpr ?_
    intro s hs
    obtain ⟨x, _, rfl⟩ := List.mem_map.mp hs
    simp [encodePair]

/-- **Reading is merging.** The header of some entries stores exactly these. -/
theorem decode_encode_value {c : Correlation} {header : String} (h : c.encode = some header)
    (receiver : Correlation) : (receiver.decode header).value = (receiver.merge c).value := by
  unfold decode merge putAll
  rw [Logged.foldlM_value, Logged.foldlM_value, fields_encode h, List.foldl_map]
  congr 1
  funext r e
  simp [putPair, decodePair_encodePair]

/-- What the receiver of a carrier makes of its correlation header, if there is one. -/
def received (limits : Limits) : Option String → Correlation
  | some header => ((empty limits).decode header).value
  | none => empty limits

/-- Entries sent from within other limits arrive as far as they fit. -/
theorem received_encode {c : Correlation} (h : c.WellFormed) (limits : Limits) :
    received limits c.encode = ⟨limits, admitted limits c.entries⟩ := by
  cases hc : c.encode with
  | none =>
    -- only without entries there is no header
    have hnil : c.entries = [] := by
      unfold encode at hc
      split at hc
      · assumption
      · contradiction
    simp [received, hnil, admitted, empty]
  | some header => rw [received, decode_encode_value hc, merge_empty_value h]

end Correlation

end TraceLink
