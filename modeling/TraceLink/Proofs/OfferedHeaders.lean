import TraceLink.Proofs.HeaderLabels

/-! # Headers handed over one by one

    The headers of a message are read from the transport that holds them, or they are
    handed over to a carrier one after the other. The first way searches the transport for
    each header name, the second way searches the header names for each entry.

    Of several spellings of one name the first way takes the exact one, and the second way
    the one that comes last. As long as no name is there in two spellings, both come upon
    the same entry: then neither the order of the entries nor the kind of the transport
    has a part in what is read. -/

namespace TraceLink

open Text (asciiLowered sameIgnoringAsciiCase)

/-! ### Transports that hold texts -/

namespace Transport

/-- The entry under a name that is there in one spelling at most. -/
theorem findEntry_of_single {α : Type} {es : Entries String α} {name : String}
    (h : (es.named name).length ≤ 1) :
    findEntry es name = (es.named name).head?.map Prod.snd := by
  have hnamed : (es.named name).named name = es.named name := by
    simp only [Entries.named, List.filter_filter, Bool.and_self]
  rw [← findEntry_eq_of_named_eq hnamed]
  rcases Nat.le_one_iff_eq_zero_or_eq_one.mp h with hnone | hone
  · rw [List.length_eq_zero_iff.mp hnone]
    rfl
  · obtain ⟨e, hes⟩ := List.length_eq_one_iff.mp hone
    have he : sameIgnoringAsciiCase e.1 name = true :=
      (List.mem_filter.mp (hes ▸ List.mem_singleton_self e : e ∈ es.named name)).2
    rw [hes]
    unfold findEntry Entries.get?
    by_cases hexact : e.1 = name
    · simp [hexact]
    · simp [hexact, he]

/-- **Transport that holds** certain texts under their names and nothing else, as a table or
    as a document, with its entries in any order. -/
inductive Holds (es : Entries String String) : Transport → Prop
  | table {es' : Entries String String} (h : es'.Perm es) : Holds es (.table es')
  | document {es' : Entries String String} (h : es'.Perm es) :
    Holds es (.document (.object (es'.map fun e => (e.1, .text e.2))))

theorem findEntry_texts (es : Entries String String) (name : String) :
    (findEntry (es.map fun e => (e.1, Json.text e.2)) name).bind Json.text? =
      findEntry es name := by
  unfold findEntry Entries.get?
  simp only [List.find?_map, Function.comp_def, Option.map_map]
  cases es.find? fun e => e.1 = name with
  | some e => rfl
  | none =>
    cases es.find? fun e => sameIgnoringAsciiCase e.1 name with
    | some e => rfl
    | none => rfl

/-- What is found under a name in a transport that holds it in one spelling at most. -/
theorem Holds.get? {es : Entries String String} {t : Transport} (h : t.Holds es)
    (hdiffer : es.KeysDiffer) (name : String) :
    t.get? name = (es.named name).head?.map Prod.snd := by
  have hsingle := hdiffer.length_named_le name
  have hfound {es' : Entries String String} (hperm : es'.Perm es) :
      findEntry es' name = (es.named name).head?.map Prod.snd := by
    rw [← findEntry_of_single hsingle]
    exact (Alike.table hperm.symm).get? hsingle
  cases h with
  | table hperm => exact hfound hperm
  | document hperm => exact (findEntry_texts _ name).trans (hfound hperm)

end Transport

/-! ### Carriers that take over headers -/

namespace Carrier

variable {label name : String}

/-- The carrier after the entries were handed over to it, in order. -/
def offerAll (k : Carrier) (es : Entries String String) : Carrier :=
  es.foldl (fun k e => k.offer e.1 e.2) k

/-- A name belongs to the header whose name it spells. -/
theorem header?_eq_some {x : Header} :
    header? label name = some x ↔ sameIgnoringAsciiCase name (x.name label) = true := by
  have hspells (y : Header) : sameIgnoringAsciiCase (y.name label) name = true ↔
      y.name (asciiLowered label) = asciiLowered name := by
    rw [Text.sameIgnoringAsciiCase_iff, Header.asciiLowered_name]
  have hspells' : sameIgnoringAsciiCase name (x.name label) = true ↔
      x.name (asciiLowered label) = asciiLowered name := by
    rw [Text.sameIgnoringAsciiCase_iff, Header.asciiLowered_name, eq_comm]
  rw [hspells', header?]
  constructor
  · intro h
    have hx : sameIgnoringAsciiCase (x.name label) name = true := by simpa using List.find?_some h
    exact (hspells x).mp hx
  · intro h
    -- no two headers have the same name, so the first that is found is this one
    cases hfound : Header.all.find? fun y => sameIgnoringAsciiCase (y.name label) name with
    | none => exact absurd ((hspells x).mpr h) (List.find?_eq_none.mp hfound x (Header.mem_all x))
    | some y =>
      have hy : sameIgnoringAsciiCase (y.name label) name = true := by
        simpa using List.find?_some hfound
      rw [(Header.name_inj.mp (((hspells y).mp hy).trans h.symm)).1]

theorem get?_set (k : Carrier) (x y : Header) (value : Option String) :
    (k.set x value).get? y = if x = y then value else k.get? y := by
  cases x <;> cases y <;> rfl

@[simp] theorem label_set (k : Carrier) (x : Header) (value : Option String) :
    (k.set x value).label = k.label := by
  cases x <;> rfl

@[simp] theorem label_offer (k : Carrier) (name value : String) :
    (k.offer name value).label = k.label := by
  unfold offer
  split
  · exact k.label_set _ _
  · rfl

/-- A header that is handed over is the one that its name spells. -/
theorem get?_offer (k : Carrier) (name value : String) (x : Header) :
    (k.offer name value).get? x =
      if sameIgnoringAsciiCase name (x.name k.label) then some value else k.get? x := by
  simp only [← header?_eq_some]
  unfold offer
  cases header? k.label name with
  | none => simp
  | some y => simp [get?_set]

@[simp] theorem label_offerAll (k : Carrier) (es : Entries String String) :
    (k.offerAll es).label = k.label := by
  induction es generalizing k with
  | nil => rfl
  | cons e es ih => exact (ih _).trans (k.label_offer _ _)

/-- Of the entries that spell the name of a header the last one stays. -/
theorem get?_offerAll (k : Carrier) (es : Entries String String) (x : Header) :
    (k.offerAll es).get? x =
      ((es.named (x.name k.label)).getLast?.map Prod.snd).or (k.get? x) := by
  induction es generalizing k with
  | nil => rfl
  | cons e es ih =>
    show ((k.offer e.1 e.2).offerAll es).get? x = _
    rw [ih, label_offer, get?_offer]
    unfold Entries.named
    rw [List.filter_cons]
    split
    · rw [List.getLast?_cons]
      cases (es.filter fun e => sameIgnoringAsciiCase e.1 (x.name k.label)).getLast? <;> rfl
    · rfl

/-- A carrier is known from its label and from what it has under each header. -/
theorem eq_of_get? {k k' : Carrier} (hlabel : k.label = k'.label)
    (h : ∀ x, k.get? x = k'.get? x) : k = k' := by
  obtain ⟨label, link, correlation, extension⟩ := k
  obtain ⟨label', link', correlation', extension'⟩ := k'
  obtain rfl : label = label' := hlabel
  obtain rfl : link = link' := h .link
  obtain rfl : correlation = correlation' := h .correlation
  obtain rfl : extension = extension' := h .extension
  rfl

/-- **Reading a transport** is the same as handing over its entries one by one, in any
    order, if no two of their names are equal up to the case of their ASCII letters. So a
    table and a document with the same entries are read alike. -/
theorem readFrom_eq_offerAll {es : Entries String String} (hdiffer : es.KeysDiffer)
    (label : String) {t : Transport} (h : t.Holds es) :
    readFrom t label = (empty label).offerAll es ∧
      ∀ t' : Transport, t'.Holds es → readFrom t' label = readFrom t label := by
  have hread {t : Transport} (h : t.Holds es) : readFrom t label = (empty label).offerAll es := by
    refine eq_of_get? ?_ fun x => ?_
    · rw [readFrom_eq, label_offerAll]
      rfl
    · rw [get?_readFrom, h.get? hdiffer, get?_offerAll]
      have hnone : (empty label).get? x = none := by cases x <;> rfl
      rw [hnone, Option.or_none]
      refine congrArg (Option.map Prod.snd) ?_
      show (es.named (x.name label)).head? = (es.named (x.name label)).getLast?
      have hone := hdiffer.length_named_le (x.name label)
      generalize es.named (x.name label) = found at hone
      -- the first entry under the name is the last one as well
      rcases Nat.le_one_iff_eq_zero_or_eq_one.mp hone with hlength | hlength
      · rw [List.length_eq_zero_iff.mp hlength]
        rfl
      · obtain ⟨e, rfl⟩ := List.length_eq_one_iff.mp hlength
        rfl
  exact ⟨hread h, fun t' h' => (hread h').trans (hread h).symm⟩

/-- Names in mixed case, among others that are no header names. -/
theorem readFrom_eq_offerAll_mixed :
    let es : Entries String String :=
      [("Tenant-SW8-X", "1-"), ("sw8", "0"), ("tenant-sw8", "1-a"), ("host", "shop")]
    let t : Transport := .table es.reverse
    let doc : Transport := .document (.object
      [("Tenant-SW8-X", .text "1-"), ("host", .text "shop"), ("sw8", .text "0"),
        ("tenant-sw8", .text "1-a")])
    readFrom t "TENANT" = (empty "TENANT").offerAll es ∧
      readFrom doc "TENANT" = readFrom t "TENANT" ∧
      readFrom t "TENANT" = ⟨"TENANT", some "1-a", none, some "1-"⟩ := by
  intro es t doc
  have hdiffer : es.KeysDiffer := by decide +kernel
  have ht : t.Holds es := .table es.reverse_perm
  have hperm : ([("Tenant-SW8-X", "1-"), ("host", "shop"), ("sw8", "0"), ("tenant-sw8", "1-a")] :
      Entries String String).Perm es := by decide +kernel
  have hdoc : doc.Holds es := .document hperm
  obtain ⟨hread, hsame⟩ := readFrom_eq_offerAll hdiffer "TENANT" ht
  exact ⟨hread, hsame doc hdoc, by decide +kernel⟩

end Carrier

end TraceLink
