import Mathlib.Data.List.Find
import TraceLink.Hop.Carrier
import TraceLink.Proofs.LetterCase

/-! # Carriers through a transport

    A carrier that is written into an empty transport is read from it again under the
    same label, as long as the label is plain, as each ASCII label is. Names are
    written in their full lowercase form and looked up without regard to the case of
    ASCII letters only, so the two meet under such labels and no others. In a transport
    whose names are all small a look-up is an exact one, for the small form of the name.

    The name of a header tells the header and the label, also in either small form, so
    no header is written over another. -/

namespace TraceLink

open Text (IsAscii IsPlain asciiLowered lowercased)

/-! ### Names of headers -/

namespace Header

/-- What stands before the name of a header under a label. -/
def lead (label : String) : String := if label = "" then "" else label ++ "-"

theorem name_eq (label : String) (h : Header) : h.name label = lead label ++ h.baseName := by
  unfold name lead
  split
  · rw [String.empty_append]
  · rfl

theorem lead_inj {label label' : String} : lead label = lead label' ↔ label = label' := by
  have hne (s : String) : s ++ "-" ≠ "" := fun h => by
    rw [String.append_eq_empty_iff] at h
    exact absurd h.2 (by decide)
  refine ⟨fun h => ?_, congrArg lead⟩
  unfold lead at h
  split at h
  · next hempty =>
    split at h
    · next hempty' => rw [hempty, hempty']
    · exact absurd h.symm (hne _)
  · split at h
    · exact absurd h (hne _)
    · exact (String.append_left_inj _).mp h

/-- A name tells its header, by the last character, and its label. -/
theorem name_inj {label label' : String} {h h' : Header} :
    h.name label = h'.name label' ↔ h = h' ∧ label = label' := by
  constructor
  · intro heq
    rw [name_eq, name_eq] at heq
    have hlast (label : String) (h : Header) :
        (lead label ++ h.baseName).toList.getLast? = h.baseName.toList.getLast? := by
      rw [String.toList_append]
      cases h <;> exact List.getLast?_append_of_ne_nil _ (by decide)
    have hheader : h = h' := by
      have hsame := congrArg (fun s => s.toList.getLast?) heq
      simp only [hlast] at hsame
      cases h <;> cases h' <;> first | rfl | exact absurd hsame (by decide)
    subst hheader
    exact ⟨rfl, lead_inj.mp ((String.append_left_inj _).mp heq)⟩
  · rintro ⟨rfl, rfl⟩
    rfl

theorem isAscii_baseName (h : Header) : IsAscii h.baseName := by
  cases h <;> decide

theorem asciiLowered_baseName (h : Header) : asciiLowered h.baseName = h.baseName := by
  cases h <;> decide

theorem asciiLowered_name (label : String) (h : Header) :
    asciiLowered (h.name label) = h.name (asciiLowered label) := by
  unfold name
  simp only [Text.asciiLowered_eq_empty]
  split
  · exact asciiLowered_baseName h
  · rw [Text.asciiLowered_append, Text.asciiLowered_append, asciiLowered_baseName]
    rfl

theorem lowercased_name (label : String) (h : Header) :
    lowercased (h.name label) = h.name (lowercased label) := by
  unfold name
  simp only [Text.lowercased_eq_empty]
  split
  · rw [Text.lowercased_of_isAscii (isAscii_baseName h), asciiLowered_baseName]
  · rw [Text.lowercased_append_dash _ (isAscii_baseName h), asciiLowered_baseName]

theorem mem_all (h : Header) : h ∈ all := by
  cases h <;> decide

end Header

/-! ### Looking up a name -/

namespace Entries

/-- All keys are small: no ASCII capital occurs in them. -/
def HasSmallKeys {α : Type} (es : Entries String α) : Prop := ∀ e ∈ es, asciiLowered e.1 = e.1

end Entries

namespace Transport

/-- Where a name occurs in its small form only, it is looked up by this form. -/
theorem findEntry_of_small {α : Type} {es : Entries String α} {name : String}
    (h : ∀ e ∈ es, asciiLowered e.1 = asciiLowered name → e.1 = asciiLowered name) :
    findEntry es name = es.get? (asciiLowered name) := by
  unfold findEntry
  cases hexact : es.get? name with
  | some v =>
    -- a key that is exactly the name is its own small form
    obtain ⟨e, he, -⟩ := Option.map_eq_some_iff.mp hexact
    have hname : e.1 = name := by simpa using List.find?_some he
    have hsmall := h e (List.mem_of_find?_eq_some he) (congrArg _ hname)
    rw [hname] at hsmall
    rw [← hsmall, hexact]
  | none =>
    have hcongr : es.find? (fun e => Text.sameIgnoringAsciiCase e.1 name) =
        es.find? fun e => e.1 = asciiLowered name := by
      refine List.find?_congr fun e he => ?_
      rw [Bool.eq_iff_iff, Text.sameIgnoringAsciiCase_iff, decide_eq_true_eq]
      exact ⟨h e he, fun hkey => by rw [hkey, Text.asciiLowered_asciiLowered]⟩
    show (es.find? _).map Prod.snd = _
    rw [hcongr]
    rfl

/-- Among small keys, a name is looked up by its small form. -/
theorem findEntry_of_hasSmallKeys {α : Type} {es : Entries String α} (h : es.HasSmallKeys)
    (name : String) : findEntry es name = es.get? (asciiLowered name) :=
  findEntry_of_small fun e he hname => (h e he).symm.trans hname

/-- The transport has headers, and all their names are small. -/
def IsSmall : Transport → Prop
  | table es => es.HasSmallKeys
  | document (.object es) => Entries.HasSmallKeys es
  | document _ => False

variable {t : Transport}

theorem isSmall_put (h : t.IsSmall) (name value : String) : (t.put name value).IsSmall := by
  match t, h with
  | table es, h =>
    intro e he
    rcases Entries.mem_put he with he | rfl
    · exact h e he
    · exact Text.asciiLowered_lowercased name
  | document (.object es), h =>
    intro e he
    rcases Entries.mem_putSorted he with he | rfl
    · exact h e he
    · exact Text.asciiLowered_lowercased name

/-- Writing a header changes what is read under the names that have its lowercase form
    for their small form, and under no other. -/
theorem get?_put (h : t.IsSmall) (name value other : String) :
    (t.put name value).get? other =
      if lowercased name = asciiLowered other then some value else t.get? other := by
  have hput := isSmall_put h name value
  match t, h, hput with
  | table es, h, hput =>
    show findEntry (es.put (lowercased name) value) other =
      if lowercased name = asciiLowered other then some value else findEntry es other
    rw [findEntry_of_hasSmallKeys hput, findEntry_of_hasSmallKeys h, Entries.get?_put]
  | document (.object es), h, hput =>
    show (findEntry (Entries.putSorted (lowercased name) (.text value) es) other).bind
        Json.text? =
      if lowercased name = asciiLowered other then some value
      else (findEntry es other).bind Json.text?
    rw [findEntry_of_hasSmallKeys hput, findEntry_of_hasSmallKeys h, Entries.get?_putSorted]
    split
    · rfl
    · rfl

end Transport

/-! ### Carriers -/

namespace Carrier

variable {k : Carrier} {t : Transport}

theorem readFrom_eq (t : Transport) (label : String) :
    readFrom t label =
      ⟨label, t.get? (Header.link.name label), t.get? (Header.correlation.name label),
        t.get? (Header.extension.name label)⟩ := by
  unfold readFrom Header.all
  simp only [List.foldl_cons, List.foldl_nil]
  cases t.get? (Header.link.name label) <;> cases t.get? (Header.correlation.name label) <;>
    cases t.get? (Header.extension.name label) <;> rfl

@[simp] theorem get?_readFrom (t : Transport) (label : String) (x : Header) :
    (readFrom t label).get? x = t.get? (x.name label) := by
  rw [readFrom_eq]
  cases x <;> rfl

/-- What each write of a header keeps is kept when the carrier is written. -/
theorem writeTo_keeps (P : Transport → Prop)
    (hkeep : ∀ t (h : Header) v, k.get? h = some v → P t → P (t.put (h.name k.label) v))
    (ht : P t) : P (k.writeTo t) := by
  refine List.foldlRecOn k.items _ ht fun t ht item hitem => ?_
  obtain ⟨h, -, hsome⟩ := List.mem_filterMap.mp hitem
  obtain ⟨v, hv, rfl⟩ := Option.map_eq_some_iff.mp hsome
  exact hkeep t h v hv ht

/-- The headers of a carrier are written one by one. Where each write keeps the transport
    in `P` and is read back under the condition `c`, so is the carrier. -/
theorem get?_writeTo_of (P : Transport → Prop) (c : Prop) [Decidable c] (x : Header)
    (hkeep : ∀ t (h : Header) v, P t → P (t.put (h.name k.label) v))
    (hput : ∀ t (h : Header) v, P t → (t.put (h.name k.label) v).get? (x.name k.label) =
      if h = x ∧ c then some v else t.get? (x.name k.label)) (ht : P t) :
    (k.writeTo t).get? (x.name k.label) =
      if c then (k.get? x).or (t.get? (x.name k.label)) else t.get? (x.name k.label) := by
  have hwrite (hs : List Header) (t : Transport) (ht : P t) :
      ((hs.filterMap fun h => (k.get? h).map fun v => (h.name k.label, v)).foldl
        (fun t item => t.put item.1 item.2) t).get? (x.name k.label) =
      if c then (if x ∈ hs then k.get? x else none).or (t.get? (x.name k.label))
      else t.get? (x.name k.label) := by
    induction hs generalizing t with
    | nil => exact (ite_self _).symm
    | cons h hs ih =>
      cases hget : k.get? h with
      | none =>
        rw [List.filterMap_cons_none (by rw [hget]; rfl), ih t ht]
        by_cases hx : x = h
        · subst hx
          simp only [hget, List.mem_cons_self, ite_self]
        · simp only [List.mem_cons, hx, false_or]
      | some v =>
        rw [List.filterMap_cons_some (b := (h.name k.label, v)) (by rw [hget]; rfl),
          List.foldl_cons, ih _ (hkeep t h v ht), hput t h v ht]
        by_cases hx : h = x
        · subst hx
          by_cases hc : c
          · simp only [hc, hget, List.mem_cons_self, and_self, if_true]
            split <;> rfl
          · simp only [hc, and_false, if_false]
        · simp only [List.mem_cons, hx, Ne.symm hx, false_or, false_and, if_false]
  rw [writeTo, items, hwrite Header.all t ht, if_pos (Header.mem_all x)]

/-- A header of a carrier that is written into a small transport is read as the carrier
    has it, and where the carrier has none, as the transport had it before. Under a label
    that is not plain nothing of the carrier is found. -/
theorem get?_writeTo (ht : t.IsSmall) (x : Header) :
    (k.writeTo t).get? (x.name k.label) =
      if IsPlain k.label then (k.get? x).or (t.get? (x.name k.label))
      else t.get? (x.name k.label) := by
  refine get?_writeTo_of Transport.IsSmall _ x (fun t h v ht => Transport.isSmall_put ht _ v)
    (fun t h v ht => ?_) ht
  rw [Transport.get?_put ht, Header.lowercased_name, Header.asciiLowered_name]
  exact if_congr Header.name_inj rfl rfl

/-- What is read from an empty table or an empty document after a carrier was written
    into it. -/
theorem readFrom_writeTo_empty (hempty : t = .table [] ∨ t = .document (.object [])) :
    readFrom (k.writeTo t) k.label = if IsPlain k.label then k else empty k.label := by
  have ht : t.IsSmall := by
    rcases hempty with rfl | rfl
    · exact fun e he => absurd he List.not_mem_nil
    · exact fun e he => absurd he List.not_mem_nil
  have hnone (name : String) : t.get? name = none := by
    rcases hempty with rfl | rfl <;> rfl
  have hread (x : Header) : (k.writeTo t).get? (x.name k.label) =
      if IsPlain k.label then k.get? x else none := by
    rw [get?_writeTo ht, hnone, Option.or_none]
  rw [readFrom_eq, hread, hread, hread]
  split <;> rfl

/-- **Round trip of a transport**: a carrier is read back as it was written into an
    empty table or an empty document. -/
theorem readFrom_writeTo (hlabel : IsAscii k.label)
    (hempty : t = .table [] ∨ t = .document (.object [])) :
    readFrom (k.writeTo t) k.label = k := by
  rw [readFrom_writeTo_empty hempty, if_pos hlabel.isPlain]

end Carrier

end TraceLink
