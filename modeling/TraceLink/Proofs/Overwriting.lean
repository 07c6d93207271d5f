import Mathlib.Data.String.Basic
import TraceLink.Proofs.HeaderLabels

/-! # Writing over the headers of an earlier hop

    A document may have headers in it already when a carrier is written, in any case of
    their letters. The carrier is written in lower case and is read by its own name, so
    what is read depends on how the document spells the name.

    An object has its entries in the order of their keys, and of all the spellings of a
    name the one in lower case comes last. So under a label with a capital any other
    spelling is found before it, and shadows what was written. Under a label in lower
    case the written header is found by its exact name, whatever the document holds. -/

namespace TraceLink

open Text (IsAscii asciiLowered lowercased sameIgnoringAsciiCase)

/-! ### The order of the spellings -/

namespace Text

theorem asciiLower_of_ne {c : Char} (h : asciiLower c ≠ c) : c < asciiLower c := by
  have hascii : ∀ n < 128, asciiLower (Char.ofNat n) ≠ Char.ofNat n →
      Char.ofNat n < asciiLower (Char.ofNat n) := by decide +kernel
  by_cases hc : c.toNat < 128
  · have hlt := hascii c.toNat hc
    rw [Char.ofNat_toNat] at hlt
    exact hlt h
  · exact absurd (asciiLower_of_lt (Nat.lt_of_lt_of_le (by decide) (Nat.le_of_not_lt hc))) h

/-- Every other spelling of a text comes before the one in lower case. -/
theorem lt_asciiLowered {s : String} (h : s ≠ asciiLowered s) : s < asciiLowered s := by
  have hlist (l : List Char) (h : l ≠ l.map asciiLower) : l < l.map asciiLower := by
    induction l with
    | nil => exact absurd rfl h
    | cons c l ih =>
      rw [List.map_cons, List.cons_lt_cons_iff]
      by_cases hc : asciiLower c = c
      · refine .inr ⟨hc.symm, ih fun hl => h ?_⟩
        rw [List.map_cons, hc, ← hl]
      · exact .inl (asciiLower_of_ne hc)
  rw [String.lt_iff_toList_lt, asciiLowered, String.toList_ofList]
  refine hlist s.toList fun hs => h ?_
  rw [asciiLowered, ← hs, String.ofList_toList]

end Text

namespace Entries

variable {α : Type} {es : Entries String α} {key name : String} {value : α}

/-- The entries are in the order of their keys. -/
def Sorted (es : Entries String α) : Prop := es.Pairwise fun e e' => e.1 < e'.1

instance (es : Entries String α) : Decidable es.Sorted :=
  inferInstanceAs (Decidable (es.Pairwise fun e e' => e.1 < e'.1))

/-- **Shadowed names**: the name is not in lower case, and some entry spells it in another
    way than that. -/
def Shadows (es : Entries String α) (name : String) : Prop :=
  name ≠ asciiLowered name ∧
    ∃ e ∈ es, asciiLowered e.1 = asciiLowered name ∧ e.1 ≠ asciiLowered name

instance (es : Entries String α) (name : String) : Decidable (es.Shadows name) :=
  inferInstanceAs (Decidable (_ ∧ ∃ e ∈ es, _))

theorem Sorted.putSorted (h : es.Sorted) (key : String) (value : α) :
    Sorted (putSorted key value es) := by
  induction es with
  | nil => exact List.pairwise_singleton _ _
  | cons e rest ih =>
    obtain ⟨hhead, hrest⟩ := List.pairwise_cons.mp h
    unfold Entries.putSorted
    split
    · next he =>
      subst he
      exact List.pairwise_cons.mpr ⟨hhead, hrest⟩
    · next hne =>
      split
      · next hlt =>
        refine List.pairwise_cons.mpr ⟨fun e' he' => ?_, h⟩
        rcases List.mem_cons.mp he' with rfl | he'
        · exact hlt
        · exact lt_trans hlt (hhead e' he')
      · next hle =>
        refine List.pairwise_cons.mpr ⟨fun e' he' => ?_, ih hrest⟩
        rcases mem_putSorted he' with he' | rfl
        · exact hhead e' he'
        · exact lt_of_le_of_ne (not_lt.mp hle) hne

theorem mem_putSorted_of_ne {e : String × α} (h : e ∈ es) (hne : e.1 ≠ key) :
    e ∈ putSorted key value es := by
  induction es with
  | nil => exact absurd h List.not_mem_nil
  | cons x rest ih =>
    unfold putSorted
    split
    · next hx =>
      rcases List.mem_cons.mp h with rfl | h
      · exact absurd hx hne
      · exact List.mem_cons_of_mem _ h
    · split
      · exact List.mem_cons_of_mem _ h
      · rcases List.mem_cons.mp h with rfl | h
        · exact List.mem_cons_self
        · exact List.mem_cons_of_mem _ (ih h)

/-- Where a match stands before the key, what is stored under the key is not found. -/
theorem find?_putSorted_of_lt (hsorted : es.Sorted) (p : String → Bool)
    (h : ∃ e ∈ es, p e.1 = true ∧ e.1 < key) :
    (putSorted key value es).find? (fun e => p e.1) = es.find? fun e => p e.1 := by
  obtain ⟨e, he, hp, hlt⟩ := h
  induction es with
  | nil => exact absurd he List.not_mem_nil
  | cons x rest ih =>
    obtain ⟨hhead, hrest⟩ := List.pairwise_cons.mp hsorted
    -- the first entry does not come behind the match
    have hx : x.1 < key := by
      rcases List.mem_cons.mp he with rfl | he
      · exact hlt
      · exact lt_trans (hhead e he) hlt
    unfold putSorted
    rw [if_neg hx.ne, if_neg hx.not_gt, List.find?_cons, List.find?_cons]
    split
    · rfl
    · next hnot =>
      refine ih hrest ((List.mem_cons.mp he).resolve_left ?_)
      rintro rfl
      exact absurd hp (by rw [hnot]; exact Bool.false_ne_true)

/-- A small key shadows no name. -/
theorem shadows_putSorted (hkey : asciiLowered key = key) :
    Shadows (putSorted key value es) name ↔ es.Shadows name := by
  refine and_congr_right fun _ => ⟨?_, ?_⟩
  · rintro ⟨e, he, hsame, hne⟩
    rcases mem_putSorted he with he | rfl
    · exact ⟨e, he, hsame, hne⟩
    · exact absurd (hkey.symm.trans hsame) hne
  · rintro ⟨e, he, hsame, hne⟩
    refine ⟨e, mem_putSorted_of_ne he ?_, hsame, hne⟩
    rintro rfl
    exact hne (hkey.symm.trans hsame)

end Entries

namespace Transport

/-- What is stored under the small form of a name is found by the name, unless it is
    shadowed; then what was found before is found. -/
theorem findEntry_putSorted {α : Type} {es : Entries String α} (hsorted : es.Sorted)
    (name : String) (value : α) :
    findEntry (Entries.putSorted (asciiLowered name) value es) name =
      if es.Shadows name then findEntry es name else some value := by
  split
  · next hshadowed =>
    obtain ⟨hname, e, he, hsame, hne⟩ := hshadowed
    have hlt : e.1 < asciiLowered name := by
      rw [← hsame] at hne ⊢
      exact Text.lt_asciiLowered hne
    have hmatch : sameIgnoringAsciiCase e.1 name = true :=
      (Text.sameIgnoringAsciiCase_iff _ _).mpr hsame
    unfold findEntry
    rw [Entries.get?_putSorted, if_neg (Ne.symm hname),
      Entries.find?_putSorted_of_lt hsorted (sameIgnoringAsciiCase · name) ⟨e, he, hmatch, hlt⟩]
  · next hclear =>
    by_cases hname : name = asciiLowered name
    · unfold findEntry
      rw [Entries.get?_putSorted, if_pos hname.symm]
    · -- the name occurs in lower case only
      rw [findEntry_of_small, Entries.get?_putSorted, if_pos rfl]
      intro e he hsame
      by_contra hne
      exact hclear ((Entries.shadows_putSorted (Text.asciiLowered_asciiLowered name)).mp
        ⟨hname, e, he, hsame, hne⟩)

end Transport

namespace Carrier

variable {k : Carrier} {es : Entries String Json}

/-- Writing a carrier keeps an object an object with sorted entries. The names that are
    shadowed stay the same, as do the entries under other names than the carrier's. -/
theorem writeTo_object (k : Carrier) (hsorted : es.Sorted) :
    ∃ es' : Entries String Json, k.writeTo (.document (.object es)) = .document (.object es') ∧
      es'.Sorted ∧ (∀ name, es'.Shadows name ↔ es.Shadows name) ∧
      ∀ name, (∀ x : Header, (k.get? x).isSome → lowercased (x.name k.label) ≠ name) →
        es'.get? name = es.get? name := by
  refine writeTo_keeps (k := k) (fun t => ∃ es' : Entries String Json,
    t = .document (.object es') ∧ es'.Sorted ∧ (∀ name, es'.Shadows name ↔ es.Shadows name) ∧
      ∀ name, (∀ x : Header, (k.get? x).isSome → lowercased (x.name k.label) ≠ name) →
        es'.get? name = es.get? name) ?_ ⟨es, rfl, hsorted, fun _ => .rfl, fun _ _ => rfl⟩
  rintro _ h v hv ⟨es', rfl, hsorted', hshadows, hothers⟩
  refine ⟨_, rfl, hsorted'.putSorted _ _, fun name => ?_, fun name hname => ?_⟩
  · exact (Entries.shadows_putSorted (Text.asciiLowered_lowercased _)).trans (hshadows name)
  · rw [Entries.get?_putSorted, if_neg (hname h (by rw [hv]; rfl)), hothers name hname]

theorem get?_writeTo_object (hascii : IsAscii k.label) (hsorted : es.Sorted) (x : Header) :
    (k.writeTo (.document (.object es))).get? (x.name k.label) =
      if es.Shadows (x.name k.label) then
        Transport.get? (.document (.object es)) (x.name k.label)
      else (k.get? x).or (Transport.get? (.document (.object es)) (x.name k.label)) := by
  have hsmall (h : Header) : lowercased (h.name k.label) = asciiLowered (h.name k.label) := by
    rw [Header.lowercased_name, Header.asciiLowered_name, hascii.isPlain]
  rw [← ite_not]
  refine get?_writeTo_of (fun t => ∃ es' : Entries String Json, t = .document (.object es') ∧
    es'.Sorted ∧ (es'.Shadows (x.name k.label) ↔ es.Shadows (x.name k.label))) _ x ?_ ?_
    ⟨es, rfl, hsorted, .rfl⟩
  · rintro _ h v ⟨es', rfl, hsorted', hshadows⟩
    exact ⟨_, rfl, hsorted'.putSorted _ _,
      (Entries.shadows_putSorted (Text.asciiLowered_lowercased _)).trans hshadows⟩
  · rintro _ h v ⟨es', rfl, hsorted', hshadows⟩
    by_cases hx : h = x
    · subst hx
      show (Transport.findEntry (Entries.putSorted _ _ es') _).bind Json.text? = _
      rw [hsmall, Transport.findEntry_putSorted hsorted']
      simp only [hshadows, true_and, ite_not]
      split <;> rfl
    · rw [if_neg fun hboth => hx hboth.1]
      refine Transport.get?_put_of_ne (fun hsame => hx ?_) v
      rw [hsmall, Header.asciiLowered_name, Header.asciiLowered_name] at hsame
      exact (Header.name_inj.mp hsame).1

/-- **Writing over an earlier hop**: after a carrier was written into a sorted object, a
    header is read as the carrier has it, and where the carrier has none, as before. It
    is read as before also if the object shadows its name. Every entry under another
    name than those of the carrier's headers stays as it is. -/
theorem read_over_earlier_hop (hascii : IsAscii k.label) (hsorted : es.Sorted) :
    (∀ x : Header, (readFrom (k.writeTo (.document (.object es))) k.label).get? x =
      if es.Shadows (x.name k.label) then
        (readFrom (.document (.object es)) k.label).get? x
      else (k.get? x).or ((readFrom (.document (.object es)) k.label).get? x)) ∧
    ∃ es' : Entries String Json, k.writeTo (.document (.object es)) = .document (.object es') ∧
      es'.Sorted ∧
      ∀ name, (∀ x : Header, (k.get? x).isSome →
          sameIgnoringAsciiCase name (x.name k.label) = false) →
        es'.get? name = es.get? name := by
  constructor
  · intro x
    simp only [get?_readFrom]
    exact get?_writeTo_object hascii hsorted x
  · obtain ⟨es', hafter, hsorted', -, hothers⟩ := writeTo_object k hsorted
    refine ⟨es', hafter, hsorted', fun name hname => hothers name fun x hx hwritten => ?_⟩
    -- the written name has the letters of the header's name
    have hsame : sameIgnoringAsciiCase name (x.name k.label) = true := by
      rw [← hwritten, Text.sameIgnoringAsciiCase_lowercased, Text.IsPlain,
        Header.lowercased_name, Header.asciiLowered_name, hascii.isPlain]
    rw [hname x hx] at hsame
    cases hsame

/-- A label in lower case, over headers that an earlier hop left in two spellings. -/
theorem read_over_earlier_hop_tenant :
    let es : Entries String Json := [("Tenant-sw8", .text "old"), ("tenant-sw8", .text "old"),
      ("tenant-sw8-x", .text "1-"), ("trace", .text "on")]
    let k : Carrier := ⟨"tenant", some "new", none, none⟩
    ∃ es' : Entries String Json, k.writeTo (.document (.object es)) = .document (.object es') ∧
      (readFrom (.document (.object es')) "tenant").get? .link = some "new" ∧
      (readFrom (.document (.object es')) "tenant").get? .extension = some "1-" ∧
      es'.get? "trace" = some (.text "on") := by
  intro es k
  have hsorted : es.Sorted := by decide
  obtain ⟨hread, es', hafter, -, hothers⟩ := read_over_earlier_hop (k := k) (by decide) hsorted
  rw [hafter] at hread
  refine ⟨es', hafter, (hread .link).trans (by decide +kernel),
    (hread .extension).trans (by decide +kernel), ?_⟩
  rw [hothers "trace" fun x _ => by cases x <;> decide]
  rfl

/-- A capital in the label lets the header of the earlier hop shadow the new one. -/
theorem shadowed_by_earlier_hop :
    let t : Transport := .document (.object [("Tenant-sw8", .text "old")])
    let k : Carrier := ⟨"Tenant", some "new", none, none⟩
    (readFrom (k.writeTo t) "Tenant").get? .link = some "old" ∧
      (readFrom (k.writeTo t) "Tenant").get? .link ≠ k.get? .link := by
  decide +kernel

end Carrier

end TraceLink
