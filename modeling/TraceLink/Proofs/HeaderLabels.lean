import TraceLink.Proofs.Transports

/-! # Labels keep the headers of engines apart

    Engines that share a transport have different labels. What one of them writes is
    not read by another, and what one of them receives is not taken over by another,
    as long as the labels differ in more than the case of their letters. No header
    name under one label is a header name under the other, even where a label has the
    name of a header in it.

    A table has no order of its own: its entries may be met in any order when a name is
    looked up. The order has no part in what is read as long as a name is in the table
    in one case of its letters only. -/

namespace TraceLink

open Text (IsAscii IsPlain asciiLowered lowercased sameIgnoringAsciiCase)

/-! ### Entries under a name -/

namespace Entries

variable {α : Type} {es es' : Entries String α} {key name : String}

/-- The entries under a name, in any case of its ASCII letters. -/
def named (es : Entries String α) (name : String) : Entries String α :=
  es.filter fun e => sameIgnoringAsciiCase e.1 name

/-- No two keys are equal up to the case of their ASCII letters. -/
def KeysDiffer (es : Entries String α) : Prop :=
  es.Pairwise fun e e' => asciiLowered e.1 ≠ asciiLowered e'.1

instance (es : Entries String α) : Decidable es.KeysDiffer :=
  inferInstanceAs (Decidable (es.Pairwise fun e e' => asciiLowered e.1 ≠ asciiLowered e'.1))

theorem mem_named {e : String × α} :
    e ∈ es.named name ↔ e ∈ es ∧ asciiLowered e.1 = asciiLowered name := by
  rw [named, List.mem_filter, Text.sameIgnoringAsciiCase_iff]

theorem KeysDiffer.length_named_le (h : es.KeysDiffer) (name : String) :
    (es.named name).length ≤ 1 := by
  have hfiltered := h.sublist (List.filter_sublist (p := fun e => sameIgnoringAsciiCase e.1 name))
  match hes : es.named name with
  | [] => exact Nat.zero_le 1
  | [_] => exact Nat.le_refl 1
  | e :: e' :: rest =>
    -- two entries under one name have keys that do not differ
    have he : e ∈ es.named name := by simp [hes]
    have he' : e' ∈ es.named name := by simp [hes]
    rw [named] at hes
    rw [hes] at hfiltered
    have hne := List.rel_of_pairwise_cons hfiltered List.mem_cons_self
    exact absurd ((mem_named.mp he).2.trans (mem_named.mp he').2.symm) hne

theorem named_put_of_ne (h : asciiLowered key ≠ asciiLowered name) (value : α) :
    (es.put key value).named name = es.named name := by
  have hkey : sameIgnoringAsciiCase key name = false := by
    rwa [← Bool.not_eq_true, Text.sameIgnoringAsciiCase_iff]
  induction es with
  | nil => simp [put, named, hkey]
  | cons e rest ih =>
    unfold put
    split
    · next he => simp [named, he, hkey]
    · unfold named at ih ⊢
      rw [List.filter_cons, ih, List.filter_cons]

theorem named_putSorted_of_ne (h : asciiLowered key ≠ asciiLowered name) (value : α) :
    (putSorted key value es).named name = es.named name := by
  have hkey : sameIgnoringAsciiCase key name = false := by
    rwa [← Bool.not_eq_true, Text.sameIgnoringAsciiCase_iff]
  induction es with
  | nil => simp [putSorted, named, hkey]
  | cons e rest ih =>
    unfold putSorted
    split
    · next he => simp [named, he, hkey]
    · split
      · simp [named, hkey]
      · unfold named at ih ⊢
        rw [List.filter_cons, ih, List.filter_cons]

/-- A small key that is stored among small keys is the same as one of them, or differs
    from each in more than the case of its letters. -/
theorem KeysDiffer.put (h : es.KeysDiffer) (hsmall : es.HasSmallKeys)
    (hkey : asciiLowered key = key) (value : α) : (es.put key value).KeysDiffer := by
  induction es with
  | nil => exact List.pairwise_singleton _ _
  | cons e rest ih =>
    obtain ⟨hhead, hrest⟩ := List.pairwise_cons.mp h
    unfold Entries.put
    split
    · exact List.pairwise_cons.mpr ⟨hhead, hrest⟩
    · next hne =>
      refine List.pairwise_cons.mpr ⟨fun e' he' => ?_,
        ih hrest fun x hx => hsmall x (List.mem_cons_of_mem _ hx)⟩
      rcases mem_put he' with he' | rfl
      · exact hhead e' he'
      · rwa [hsmall e List.mem_cons_self, hkey]

end Entries

/-! ### Transports in any order -/

namespace Transport

variable {t t' : Transport} {name other : String}

/-- A look-up sees the entries under the name only. -/
theorem findEntry_eq_of_named_eq {α : Type} {es es' : Entries String α}
    (h : es.named name = es'.named name) : findEntry es name = findEntry es' name := by
  have hexact (es : Entries String α) : es.get? name = (es.named name).get? name := by
    unfold Entries.get? Entries.named
    rw [List.find?_filter]
    congr 1
    refine List.find?_congr fun e _ => ?_
    by_cases he : e.1 = name
    · simp [he, Text.sameIgnoringAsciiCase_iff]
    · simp [he]
  have hfirst (es : Entries String α) :
      es.find? (fun e => sameIgnoringAsciiCase e.1 name) = (es.named name).head? :=
    List.head?_filter.symm
  unfold findEntry
  rw [hexact es, hfirst es, h, ← hexact es', ← hfirst es']

/-- The name is in a table in one case of its letters at most. -/
def Single (t : Transport) (name : String) : Prop :=
  match t with
  | table es => (es.named name).length ≤ 1
  | document _ => True

/-- No two names in a table are equal up to the case of their ASCII letters. -/
def NamesDiffer : Transport → Prop
  | table es => es.KeysDiffer
  | document _ => True

/-- **Alike transports** hold the same entries; those of a table have no order. -/
inductive Alike : Transport → Transport → Prop
  | table {es es' : Entries String String} (h : es.Perm es') : Alike (table es) (table es')
  | document (doc : Json) : Alike (document doc) (document doc)

theorem NamesDiffer.single (h : t.NamesDiffer) (name : String) : t.Single name := by
  cases t with
  | table es => exact Entries.KeysDiffer.length_named_le h name
  | document doc => trivial

/-- From a transport with its entries in another order the same is read. -/
theorem Alike.get? (h : t.Alike t') (hsingle : t.Single name) : t'.get? name = t.get? name := by
  cases h with
  | document doc => rfl
  | @table es es' hperm =>
    have hnamed : (es.named name).Perm (es'.named name) := hperm.filter _
    have hone : (es.named name).length ≤ 1 := hsingle
    refine findEntry_eq_of_named_eq ?_
    -- a list of one entry has one order only
    match hes : es.named name with
    | [] =>
      rw [hes] at hnamed
      exact List.nil_perm.mp hnamed
    | [e] =>
      rw [hes] at hnamed
      exact (List.singleton_perm.mp hnamed).symm
    | _ :: _ :: _ =>
      rw [hes] at hone
      exact absurd hone (by simp)

theorem get?_put_of_ne (h : lowercased name ≠ asciiLowered other) (value : String) :
    (t.put name value).get? other = t.get? other := by
  rw [← Text.asciiLowered_lowercased] at h
  unfold put
  split
  · exact findEntry_eq_of_named_eq (Entries.named_put_of_ne h value)
  · exact congrArg (Option.bind · Json.text?)
      (findEntry_eq_of_named_eq (Entries.named_putSorted_of_ne h _))
  · rfl

theorem Single.put (hsingle : t.Single other) (h : lowercased name ≠ asciiLowered other)
    (value : String) : (t.put name value).Single other := by
  rw [← Text.asciiLowered_lowercased] at h
  unfold Transport.put
  split
  · next es =>
    show ((es.put (lowercased name) value).named other).length ≤ 1
    rw [Entries.named_put_of_ne h]
    exact hsingle
  · trivial
  · trivial

theorem NamesDiffer.put (h : t.NamesDiffer) (hsmall : t.IsSmall) (name value : String) :
    (t.put name value).NamesDiffer := by
  match t, hsmall with
  | table es, hsmall =>
    exact Entries.KeysDiffer.put h hsmall (Text.asciiLowered_lowercased name) value
  | document (.object es), _ => trivial

end Transport

/-! ### Carriers under one label -/

namespace Carrier

variable {k : Carrier} {t t' : Transport} {label : String}

theorem readFrom_of_alike (h : t.Alike t') (hsingle : ∀ x : Header, t.Single (x.name label)) :
    readFrom t' label = readFrom t label := by
  simp only [readFrom_eq, h.get? (hsingle _)]

/-- **Round trip under any label**: a carrier that is written into an empty table or an
    empty document is read back exactly if its label is plain, in whichever order the
    table has its entries. Under another label nothing is read. -/
theorem round_trip_of_any_label (hempty : t = .table [] ∨ t = .document (.object []))
    (halike : (k.writeTo t).Alike t') :
    readFrom t' k.label = if IsPlain k.label then k else empty k.label := by
  have hstart : t.IsSmall ∧ t.NamesDiffer := by
    rcases hempty with rfl | rfl
    · exact ⟨fun e he => absurd he List.not_mem_nil, List.Pairwise.nil⟩
    · exact ⟨fun e he => absurd he List.not_mem_nil, trivial⟩
  obtain ⟨-, hdiffer⟩ := writeTo_keeps (k := k) (fun t => t.IsSmall ∧ t.NamesDiffer)
    (fun t h v _ ht => ⟨Transport.isSmall_put ht.1 _ v, ht.2.put ht.1 _ v⟩) hstart
  rw [readFrom_of_alike halike fun x => hdiffer.single _, readFrom_writeTo_empty hempty]

/-- Small letters beyond ASCII do no harm, here in a table with its entries turned round. -/
theorem round_trip_of_any_label_strasse :
    let k : Carrier := ⟨"STRAßE", some "0", none, some "1-"⟩
    let t : Transport := .table [("straße-sw8-x", "1-"), ("straße-sw8", "0")]
    (k.writeTo (.table [])).Alike t ∧ readFrom t "STRAßE" = k := by
  intro k t
  obtain ⟨es, hwritten, hes⟩ : ∃ es, k.writeTo (.table []) = .table es ∧
      es = [("straße-sw8", "0"), ("straße-sw8-x", "1-")] := ⟨_, rfl, by decide +kernel⟩
  have halike : (k.writeTo (.table [])).Alike t := by
    rw [hwritten, hes]
    exact .table (.swap _ _ _)
  have hplain : Text.IsPlain k.label := by decide +kernel
  have hread := round_trip_of_any_label (.inl rfl) halike
  rw [if_pos hplain] at hread
  exact ⟨halike, hread⟩

/-- A capital beyond ASCII is written in lower case, and under its own name the header is
    not found. -/
theorem unread_under_capital :
    let k : Carrier := ⟨"MÜNCHEN", some "0", none, none⟩
    (k.writeTo (.document (.object []))).get? "münchen-sw8" = some "0" ∧
      readFrom (k.writeTo (.document (.object []))) "MÜNCHEN" = empty "MÜNCHEN" ∧
      readFrom (k.writeTo (.document (.object []))) "MÜNCHEN" ≠ k := by
  decide +kernel

/-! ### Carriers under two labels -/

/-- No header name under a plain label is written under a name of another label. -/
theorem lowercased_name_ne (hplain : IsPlain k.label)
    (hother : sameIgnoringAsciiCase k.label label = false) (h x : Header) :
    lowercased (h.name k.label) ≠ asciiLowered (x.name label) := by
  rw [Header.lowercased_name, Header.asciiLowered_name, hplain]
  intro heq
  have hsame := (Text.sameIgnoringAsciiCase_iff _ _).mpr (Header.name_inj.mp heq).2
  rw [hother] at hsame
  cases hsame

/-- **Labels isolate**: where two labels differ in more than the case of their letters,
    what is read under the one is the same before and after a carrier under the other is
    written, and no carrier under the one takes over a header of the other. -/
theorem labels_isolate (hascii : IsAscii k.label)
    (hother : sameIgnoringAsciiCase k.label label = false) :
    (∀ t t' : Transport, t.NamesDiffer → (k.writeTo t).Alike t' →
      readFrom t' label = readFrom t label) ∧
    ∀ (k' : Carrier) (h : Header) (name value : String), k'.label = label →
      sameIgnoringAsciiCase name (h.name k.label) = true → k'.offer name value = k' := by
  constructor
  · intro t t' hdiffer halike
    have hne := lowercased_name_ne hascii.isPlain hother
    obtain ⟨hsame, hsingle⟩ := writeTo_keeps (k := k)
      (fun u => (∀ x : Header, u.get? (x.name label) = t.get? (x.name label)) ∧
        ∀ x : Header, u.Single (x.name label))
      (fun u h v _ hu => ⟨fun x => (Transport.get?_put_of_ne (hne h x) v).trans (hu.1 x),
        fun x => (hu.2 x).put (hne h x) v⟩)
      ⟨fun _ => rfl, fun x => hdiffer.single _⟩
    rw [readFrom_of_alike halike hsingle]
    simp only [readFrom_eq, hsame]
  · rintro k' h name value rfl hname
    have hunknown : header? k'.label name = none := by
      refine List.find?_eq_none.mpr fun x _ hx => ?_
      rw [Text.sameIgnoringAsciiCase_iff] at hname hx
      rw [hname, Header.asciiLowered_name, Header.asciiLowered_name] at hx
      have hsame := (Text.sameIgnoringAsciiCase_iff _ _).mpr (Header.name_inj.mp hx).2.symm
      rw [hother] at hsame
      cases hsame
    rw [offer, hunknown]

/-- The second label is the first with the name of a header behind it. -/
theorem labels_isolate_nested :
    let k : Carrier := ⟨"a", some "1", some "2", some "3"⟩
    let k' : Carrier := ⟨"a-sw8", some "4", none, none⟩
    let t : Transport := .table [("A-SW8-sw8", "x"), ("a-sw8-X", "y")]
    readFrom (k.writeTo t) "a-sw8" = readFrom t "a-sw8" ∧ k'.offer "A-sw8-X" "v" = k' := by
  intro k k' t
  have hother : sameIgnoringAsciiCase k.label "a-sw8" = false := by decide +kernel
  obtain ⟨hread, hoffer⟩ := labels_isolate (k := k) (by decide +kernel) hother
  have hdiffer : t.NamesDiffer := by
    show Entries.KeysDiffer _
    decide +kernel
  exact ⟨hread t _ hdiffer (.table (.refl _)),
    hoffer k' .extension "A-sw8-X" "v" rfl (by decide +kernel)⟩

end Carrier

end TraceLink
