import Mathlib.Data.List.DropRight
import TraceLink.Config.Document
import TraceLink.Config.Environment
import TraceLink.Proofs.FieldForms
import TraceLink.Proofs.Settings

/-! # Comma lists have one meaning

    A comma list is written as one text, or in a document as an array of texts, each of
    which is a comma list again. Cutting, trimming and leaving out empty items commute
    with joining, so both ways say the same, and a list that was read is read again as it
    is. -/

namespace TraceLink

namespace Text

/-! ### Items -/

/-- **Item** of a comma list: it is not empty, holds no comma, and has no white space at
    its ends. -/
structure IsItem (x : String) : Prop where
  nonempty : x ≠ ""
  comma : ',' ∉ x.toList
  first : ∀ c ∈ x.toList.head?, isBlank c = false
  last : ∀ c ∈ x.toList.getLast?, isBlank c = false

theorem mem_of_mem_trim {c : Char} {s : List Char} (h : c ∈ trim s) : c ∈ s :=
  (List.dropWhile_suffix _).subset (mem_of_mem_trimEnd h)

theorem isBlank_of_getLast?_trimEnd {c : Char} {s : List Char} (h : (trimEnd s).getLast? = some c) :
    isBlank c = false := by
  rw [trimEnd, List.getLast?_reverse] at h
  have hstop := List.head?_dropWhile_not isBlank s.reverse
  rw [h] at hstop
  exact hstop

/-- What is trimmed at its end begins as before. -/
theorem isBlank_of_head?_trim {c : Char} {s : List Char} (h : (trim s).head? = some c) :
    isBlank c = false := by
  obtain ⟨rest, hrest⟩ : ∃ rest, trim s ++ rest = trimStart s :=
    List.rdropWhile_prefix isBlank (trimStart s)
  have hstop := List.head?_dropWhile_not isBlank s
  rw [show s.dropWhile isBlank = trimStart s from rfl, ← hrest, List.head?_append, h] at hstop
  exact hstop

/-- A text without white space at its ends is trimmed already. -/
theorem trim_eq_self {s : List Char} (hfirst : ∀ c ∈ s.head?, isBlank c = false)
    (hlast : ∀ c ∈ s.getLast?, isBlank c = false) : trim s = s := by
  have hstart : trimStart s = s := by
    cases s with
    | nil => rfl
    | cons c s => exact trimStart_of_head (hfirst c rfl)
  rw [trim, hstart]
  refine List.rdropWhile_eq_self_iff.mpr fun hne hblank => ?_
  rw [hlast _ (List.getLast?_eq_some_getLast hne)] at hblank
  contradiction

/-- Every item of a comma list is one. -/
theorem isItem_of_mem {s x : String} (h : x ∈ commaList s) : IsItem x := by
  obtain ⟨cs, hcs, rfl⟩ := List.mem_map.mp h
  obtain ⟨hmem, hne⟩ := List.mem_filter.mp hcs
  obtain ⟨f, hf, rfl⟩ := List.mem_map.mp hmem
  have hne : trim f ≠ [] := of_decide_eq_true hne
  refine ⟨fun hempty => hne ?_, ?_, ?_, ?_⟩
  · rw [← String.toList_ofList (l := trim f), hempty]
    rfl
  · rw [String.toList_ofList]
    exact fun hcomma => not_mem_of_mem_fields hf (mem_of_mem_trim hcomma)
  · rw [String.toList_ofList]
    exact fun c hc => isBlank_of_head?_trim hc
  · rw [String.toList_ofList]
    exact fun c hc => isBlank_of_getLast?_trimEnd hc

/-- An item is a comma list of itself. -/
theorem IsItem.commaList {x : String} (h : IsItem x) : commaList x = [x] := by
  have hne : x.toList ≠ [] := fun hempty => h.nonempty (String.toList_eq_nil_iff.mp hempty)
  have hkept : [x.toList].filter (· ≠ []) = [x.toList] :=
    List.filter_cons_of_pos (decide_eq_true hne)
  rw [Text.commaList, fields_of_not_mem h.comma, List.map_singleton,
    trim_eq_self h.first h.last, hkept, List.map_singleton, String.ofList_toList]

/-! ### Joining -/

/-- The fields of joined texts are those of all the texts. -/
theorem fields_joined_flatMap (sep : Char) {fs : List (List Char)} (h : fs ≠ []) :
    fields sep (joined sep fs) = fs.flatMap (fields sep) := by
  induction fs with
  | nil => contradiction
  | cons f fs ih =>
    cases fs with
    | nil => rw [joined_singleton, List.flatMap_singleton]
    | cons g fs =>
      rw [joined_cons, fields_append, ih (List.cons_ne_nil g fs)]
      exact List.flatMap_cons.symm

/-- **Joining** is flattening: the items of joined comma lists are those of all the lists. -/
theorem commaList_join (xs : List String) :
    commaList (",".intercalate xs) = xs.flatMap commaList := by
  cases xs with
  | nil => rfl
  | cons x xs =>
    have hjoined : (",".intercalate (x :: xs)).toList =
        joined ',' ((x :: xs).map String.toList) := String.toList_intercalate
    have hne : (x :: xs).map String.toList ≠ [] := List.cons_ne_nil _ _
    unfold commaList
    rw [hjoined, fields_joined_flatMap _ hne, List.flatMap_map, List.map_flatMap,
      List.filter_flatMap, List.map_flatMap]

/-- Items that are joined are read again as they are. -/
theorem commaList_join_of_items {xs : List String} (h : ∀ x ∈ xs, IsItem x) :
    commaList (",".intercalate xs) = xs := by
  rw [commaList_join]
  induction xs with
  | nil => rfl
  | cons x xs ih =>
    rw [List.flatMap_cons, (h x List.mem_cons_self).commaList,
      ih fun y hy => h y (List.mem_cons_of_mem _ hy)]
    rfl

end Text

namespace Config

/-! ### Documents -/

/-- The field is a comma list. -/
def Field.IsList (f : Field) : Prop := f = .ignoreSuffixes ∨ f = .autoTagKeys

/-- **Document with a slot** for the value of a field: an object that names the field, or
    an array with the value at the place of the field. -/
inductive Field.Slot (f : Field) : (Json → Json) → Prop where
  | named (before after : List (String × Json)) :
      Slot f fun v => .object (before ++ (f.name, v) :: after)
  | placed (before after : List Json) (h : Field.all[before.length]? = some f) :
      Slot f fun v => .array (before ++ v :: after)

/-- An array says the same as its texts in one. -/
theorem listOf_array (items : List Json) :
    listOf (.array items) = listOf (.text (",".intercalate (items.filterMap Json.text?))) :=
  congrArg pure (Text.commaList_join _).symm

/-- A comma list is read from what `listOf` makes of its value. -/
theorem readField_congr {f : Field} (hf : f.IsList) {v v' : Json} (h : listOf v = listOf v')
    (c : Config) : readField c f v = readField c f v' := by
  rcases hf with rfl | rfl
  · simp only [readField, h]
  · simp only [readField, h]

theorem readFields_congr {f : Field} {v v' : Json}
    (h : ∀ c, readField c f v = readField c f v') (before after : List (Field × Json))
    (c : Config) :
    readFields c (before ++ (f, v) :: after) = readFields c (before ++ (f, v') :: after) := by
  induction before generalizing c with
  | nil => simp only [List.nil_append, readFields, h]
  | cons x before ih => simp only [List.cons_append, readFields, ih]

theorem ofName?_name (f : Field) : Field.ofName? f.name = some f := by
  cases f <;> decide

/-- What stands in a slot is read as its field. -/
theorem ofDocument_congr {f : Field} {doc : Json → Json} (hdoc : f.Slot doc) {v v' : Json}
    (h : ∀ c, readField c f v = readField c f v') (defaults : Config) :
    ofDocument defaults (doc v) = ofDocument defaults (doc v') := by
  cases hdoc with
  | named before after =>
    simp only [ofDocument, List.filterMap_append, List.filterMap_cons, ofName?_name,
      Option.map_some]
    exact readFields_congr h _ _ _
  | placed before after hplace =>
    obtain ⟨hlt, hget⟩ := List.getElem?_eq_some_iff.mp hplace
    have hzip (w : Json) : Field.all.zip (before ++ w :: after) =
        (Field.all.take before.length).zip before ++
          (f, w) :: (Field.all.drop (before.length + 1)).zip after := by
      have hall : Field.all = Field.all.take before.length ++
          f :: Field.all.drop (before.length + 1) := by
        rw [← hget, List.cons_getElem_drop_succ, List.take_append_drop]
      have hlength : (Field.all.take before.length).length = before.length :=
        List.length_take_of_le (Nat.le_of_lt hlt)
      calc Field.all.zip (before ++ w :: after)
          = (Field.all.take before.length ++ f :: Field.all.drop (before.length + 1)).zip
              (before ++ w :: after) := by rw [← hall]
        _ = _ := by rw [List.zip_append hlength, List.zip_cons_cons]
    simp only [ofDocument, hzip, readFields_congr h, List.length_append, List.length_cons]

/-! ### Lists that were read -/

/-- The comma lists of the configuration hold items. -/
structure Itemized (c : Config) : Prop where
  suffixes : ∀ x ∈ c.ignoreSuffixes, Text.IsItem x
  keys : ∀ x ∈ c.autoTagKeys, Text.IsItem x

theorem isItem_of_mem_listOf {v : Json} {x : String} (h : x ∈ (listOf v).value) :
    Text.IsItem x := by
  cases v with
  | text s => exact Text.isItem_of_mem h
  | array items =>
    obtain ⟨s, -, hx⟩ := List.mem_flatMap.mp h
    exact Text.isItem_of_mem hx
  | _ => contradiction

namespace Itemized

variable {c c' : Config}

theorem standard (i : String) : (Config.standard i).Itemized :=
  ⟨fun _ hx => Text.isItem_of_mem hx, fun _ hx => by contradiction⟩

/-- A configuration with the same lists. -/
theorem of_eq (h : c.Itemized) (hsuffixes : c'.ignoreSuffixes = c.ignoreSuffixes)
    (hkeys : c'.autoTagKeys = c.autoTagKeys) : c'.Itemized :=
  ⟨hsuffixes ▸ h.suffixes, hkeys ▸ h.keys⟩

theorem readField (h : c.Itemized) {f : Field} {v : Json}
    (hread : (c.readField f v).value = some c') : c'.Itemized := by
  cases f with
  | ignoreSuffixes =>
    obtain rfl := Option.some.inj hread
    exact ⟨fun x hx => isItem_of_mem_listOf hx, h.keys⟩
  | autoTagKeys =>
    obtain rfl := Option.some.inj hread
    exact ⟨h.suffixes, fun x hx => isItem_of_mem_listOf hx⟩
  | logLevel =>
    obtain rfl := Option.some.inj hread
    exact h.of_eq rfl rfl
  | _ =>
    obtain ⟨x, -, rfl⟩ := Option.map_eq_some_iff.mp hread
    exact h.of_eq rfl rfl

theorem readFields (h : c.Itemized) {fs : List (Field × Json)}
    (hread : (c.readFields fs).value = some c') : c'.Itemized := by
  induction fs generalizing c with
  | nil =>
    obtain rfl := Option.some.inj hread
    exact h
  | cons x fs ih =>
    obtain ⟨f, v⟩ := x
    simp only [Config.readFields, Logged.bind_value] at hread
    cases hfield : (c.readField f v).value with
    | none =>
      rw [hfield] at hread
      contradiction
    | some c₁ =>
      rw [hfield] at hread
      exact ih (h.readField hfield) hread

/-- A document is read into lists of items. -/
theorem ofDocument (h : c.Itemized) {doc : Json} (hread : (c.ofDocument doc).value = some c') :
    c'.Itemized := by
  cases doc with
  | null =>
    obtain rfl := Option.some.inj hread
    exact h
  | object entries => exact h.readFields hread
  | array items =>
    simp only [Config.ofDocument, Logged.bind_value, Logged.pure_value] at hread
    split at hread
    · exact h.readFields hread
    · contradiction
  | _ => contradiction

/-- The environment is read into lists of items. -/
theorem ofEnvironment (h : c.Itemized) {env : Environment}
    (hread : (c.ofEnvironment env).value = .ok c') : c'.Itemized := by
  have hlist {value : Option String} {l : List String} (hl : ∀ x ∈ l, Text.IsItem x) :
      ∀ x ∈ (value.map Text.commaList).getD l, Text.IsItem x := by
    cases value with
    | none => exact hl
    | some s => exact fun x hx => Text.isItem_of_mem hx
  obtain ⟨-, -, rfl⟩ : ∃ u, (c.fromVariables env).value.validate = .ok u ∧
      (c.fromVariables env).value = c' := by
    simp only [Config.ofEnvironment, Logged.bind_value, Logged.pure_value] at hread
    cases hvalid : (c.fromVariables env).value.validate with
    | error err =>
      rw [hvalid] at hread
      contradiction
    | ok u =>
      rw [hvalid] at hread
      exact ⟨u, rfl, Except.ok.inj hread⟩
  exact ⟨hlist h.suffixes, hlist fun x hx => by contradiction⟩

end Itemized

end Config

/-! ### Lists that are fed back -/

namespace Engine

variable {c : Config} {e : Engine}

/-- The suffixes of the gate, as the tracer writes them. -/
def writtenSuffixes (e : Engine) : String := ",".intercalate e.tracer.gate.suffixes

/-- **Suffixes that are fed back** to the tracer as it writes them. At once they change
    nothing. Later they restore the list, as does what an update has logged. -/
structure Restorable (e : Engine) : Prop where
  still : ∀ now, (e.step now (.setSuffixes (some e.writtenSuffixes))).value.state = e
  later : (∀ s ∈ e.tracer.gate.suffixes, s.toList.head? = some '.') → ∀ ops now,
    let e' := e.run ops
    e'.step now (.setSuffixes (some e.writtenSuffixes)) =
      ⟨.of .done (e'.withSuffixes e.tracer.gate.suffixes),
        [.suffixesUpdated e.tracer.gate.suffixes]⟩
  logged : ∀ now value, ∀ d ∈ (e.step now (.setSuffixes value)).notes,
    let e₁ := (e.step now (.setSuffixes value)).value.state
    ∃ text, d.message = "Ignore suffixes updated to " ++ text ∧ ∀ ops now',
      let e' := e₁.run ops
      e'.step now' (.setSuffixes (some text)) =
        ⟨.of .done (e'.withSuffixes e₁.tracer.gate.suffixes), [d]⟩

/-- The suffixes of the gate are items, if the configured ones are. -/
theorem Furnished.isItem (h : e.Furnished c) (hc : c.Itemized) :
    ∀ x ∈ e.tracer.gate.suffixes, Text.IsItem x := by
  rcases h.suffixes with hlist | ⟨text, hlist, -⟩
  · rw [hlist]
    exact hc.suffixes
  · rw [hlist]
    exact fun x hx => Text.isItem_of_mem hx

/-- A written list of suffixes is set as it was. -/
theorem step_setSuffixes_join {suffixes : List String} (hitems : ∀ x ∈ suffixes, Text.IsItem x)
    (hdots : ∀ s ∈ suffixes, s.toList.head? = some '.') (e : Engine) (now : UInt64) :
    e.step now (.setSuffixes (some (",".intercalate suffixes))) =
      ⟨.of .done (e.withSuffixes suffixes), [.suffixesUpdated suffixes]⟩ := by
  have hlist : e.requested (some (",".intercalate suffixes)) = suffixes :=
    Text.commaList_join_of_items hitems
  rw [e.step_setSuffixes_of_dots now _ (by rwa [hlist]), hlist]

theorem Furnished.restorable (h : e.Furnished c) (hc : c.Itemized) : e.Restorable where
  still now := by
    have hlist : e.requested (some e.writtenSuffixes) = e.tracer.gate.suffixes :=
      Text.commaList_join_of_items (h.isItem hc)
    -- a list that was configured without check is refused
    rcases e.step_setSuffixes now (some e.writtenSuffixes) with
      ⟨-, hstep⟩ | ⟨before, s, after, -, -, -, hstep⟩
    · rw [hstep, hlist]
      rfl
    · rw [hstep]
      rfl
  later hdots ops now := step_setSuffixes_join (h.isItem hc) hdots _ now
  logged now value d hd := by
    have hnext := (h.step now (.setSuffixes value)).isItem hc
    rcases e.step_setSuffixes now value with ⟨hdots, hstep⟩ | ⟨before, s, after, -, -, -, hstep⟩
    · rw [hstep] at hd hnext ⊢
      obtain rfl := List.mem_singleton.mp hd
      exact ⟨_, rfl, fun ops now' => step_setSuffixes_join hnext hdots _ now'⟩
    · rw [hstep] at hd
      contradiction

end Engine

/-! ### The theorem -/

/-- **Comma lists have one meaning.** In a document an array is read as its texts joined by
    commas, whatever else stands in it. What was read are items, and they are read again as
    they are. So a tracer whose configuration was read can be fed the list of its suffixes,
    as it writes or logs it, to restore this list. -/
theorem Config.comma_lists_have_one_meaning :
    (∀ f : Field, f.IsList → ∀ doc, f.Slot doc → ∀ xs items, items.filterMap Json.text? = xs →
      ∀ defaults, ofDocument defaults (doc (.array items)) =
        ofDocument defaults (doc (.text (",".intercalate xs)))) ∧
    (∀ s, ∀ x ∈ Text.commaList s, Text.IsItem x) ∧
    (∀ s, Text.commaList (",".intercalate (Text.commaList s)) = Text.commaList s) ∧
    (∀ i c, ((∃ doc, (ofDocument (standard i) doc).value = some c) ∨
      ∃ env, (ofEnvironment (standard i) env).value = .ok c) → c.Itemized) ∧
    ∀ c : Config, c.Itemized → ∀ reporter process start ops,
      let e := (Engine.ofTracer (.start c reporter process start)).run ops
      e.Restorable ∧
        (c.validate = .ok () → ∀ s ∈ e.tracer.gate.suffixes, s.toList.head? = some '.') := by
  refine ⟨?_, fun s x hx => Text.isItem_of_mem hx, fun s => ?_, ?_, ?_⟩
  · rintro f hf doc hdoc xs items rfl defaults
    exact ofDocument_congr hdoc (readField_congr hf (listOf_array items)) defaults
  · exact Text.commaList_join_of_items fun x hx => Text.isItem_of_mem hx
  · rintro i c (⟨doc, hread⟩ | ⟨env, hread⟩)
    · exact (Itemized.standard i).ofDocument hread
    · exact (Itemized.standard i).ofEnvironment hread
  · intro c hc reporter process start ops e
    have he : e.Furnished c := (Engine.Furnished.start c reporter process start).run ops
    exact ⟨he.restorable hc, he.head⟩

/-- A document with a list in an array, beside a number, and a tracer that runs with it: the
    rate is set, the suffixes are replaced, and the first ones are fed back. -/
theorem Config.comma_lists_have_one_meaning_gif :
    let doc (v : Json) : Json := .object ([("namespace", .null)] ++ ("ignore_suffix", v) :: [])
    let items : List Json := [.text ".png, .gif", .integer 7, .text " ,.css"]
    let suffixes := [".png", ".gif", ".css"]
    let c : Config := { standard "i" with ignoreSuffixes := suffixes }
    let e := (Engine.ofTracer (.start c .collecting "p" 0)).run [(1, .setRate (some 5))]
    (ofDocument (standard "i") (doc (.array items))).value = some c ∧
      (ofDocument (standard "i") (doc (.text ".png, .gif, ,.css"))).value = some c ∧
      (let e' := e.run [(2, .setSuffixes (some ".html"))]
       e'.step 3 (.setSuffixes (some ".png,.gif,.css")) =
        ⟨.of .done (e'.withSuffixes suffixes), [.suffixesUpdated suffixes]⟩) := by
  intro doc items suffixes c e
  obtain ⟨hdocument, -, -, hread, hrestored⟩ := comma_lists_have_one_meaning
  have hsame := hdocument .ignoreSuffixes (.inl rfl) doc (.named [("namespace", .null)] [])
    [".png, .gif", " ,.css"] items rfl (standard "i")
  have htext : (ofDocument (standard "i") (doc (.text ".png, .gif, ,.css"))).value = some c := by
    decide +kernel
  have harray : (ofDocument (standard "i") (doc (.array items))).value = some c := by
    rw [hsame]
    exact htext
  obtain ⟨hrestorable, hdots⟩ := hrestored c (hread "i" c (.inl ⟨_, harray⟩)) .collecting "p" 0
    [(1, .setRate (some 5))]
  exact ⟨harray, htext, hrestorable.later (hdots (by decide +kernel)) _ 3⟩

end TraceLink
