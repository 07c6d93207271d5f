import Mathlib.Data.List.Infix
import TraceLink.Config
import TraceLink.Sampling

/-! # Ignored suffixes

    The list of ignored suffixes is documented as "a name ending with one of them".
    What decides is less than that: the gate takes the part of the name from its last
    dot on and looks it up in the list. The two agree on the suffixes with one dot.
    A suffix with a second dot is accepted by the configuration, but the part from the
    last dot on has no second dot, so no name is ever ignored for it. -/

namespace TraceLink

/-! ### The part from the last dot on -/

/-- **Extension**: one dot, and no other one after it. -/
def IsExtension (s : List Char) : Prop := ∃ rest, s = '.' :: rest ∧ '.' ∉ rest

/-- A text that begins with a dot is an extension if and only if no dot follows. -/
theorem isExtension_iff {s : List Char} (h : s.head? = some '.') :
    IsExtension s ↔ '.' ∉ s.tail := by
  obtain ⟨rest, rfl⟩ : ∃ rest, s = '.' :: rest := List.head?_eq_some_iff.mp h
  simp [IsExtension]

/-- An extension that ends another one is all of it. -/
theorem IsExtension.eq_of_suffix {s t : List Char} (hs : IsExtension s) (ht : IsExtension t)
    (h : s <:+ t) : s = t := by
  obtain ⟨_, rfl, -⟩ := hs
  obtain ⟨rest, rfl, hrest⟩ := ht
  cases List.suffix_cons_iff.mp h with
  | inl heq => exact heq
  | inr hinside => exact absurd (hinside.subset List.mem_cons_self) hrest

/-- A text ends with one extension at most. -/
theorem IsExtension.unique {s t name : List Char} (hs : IsExtension s) (ht : IsExtension t)
    (hsn : s <:+ name) (htn : t <:+ name) : s = t := by
  cases List.suffix_or_suffix_of_suffix hsn htn with
  | inl h => exact hs.eq_of_suffix ht h
  | inr h => exact (ht.eq_of_suffix hs h).symm

namespace Gate

theorem fromLastDot?_eq_none {s : List Char} : fromLastDot? s = none ↔ '.' ∉ s := by
  induction s with
  | nil => simp [fromLastDot?]
  | cons c rest ih =>
    cases htail : fromLastDot? rest with
    | some t =>
      have hdot : '.' ∈ rest := by
        by_contra hdot
        rw [ih.mpr hdot] at htail
        cases htail
      simp [fromLastDot?, htail, hdot]
    | none =>
      have hdot : '.' ∉ rest := ih.mp htail
      simp [fromLastDot?, htail, hdot, eq_comm]

theorem fromLastDot?_spec {s t : List Char} (h : fromLastDot? s = some t) :
    t <:+ s ∧ IsExtension t := by
  induction s with
  | nil => cases h
  | cons c rest ih =>
    cases htail : fromLastDot? rest with
    | some u =>
      -- a dot further back is the last one
      have hu : u = t := by simpa [fromLastDot?, htail] using h
      subst hu
      have hrest := ih htail
      exact ⟨hrest.1.trans (List.suffix_cons c rest), hrest.2⟩
    | none =>
      have hc : c = '.' ∧ c :: rest = t := by simpa [fromLastDot?, htail] using h
      obtain ⟨rfl, rfl⟩ := hc
      exact ⟨List.suffix_rfl, rest, rfl, fromLastDot?_eq_none.mp htail⟩

/-- The part from the last dot on is the extension that the text ends with. -/
theorem fromLastDot?_eq_some {s t : List Char} :
    fromLastDot? s = some t ↔ t <:+ s ∧ IsExtension t := by
  constructor
  · intro h
    exact fromLastDot?_spec h
  · rintro ⟨hsuffix, hext⟩
    cases hu : fromLastDot? s with
    | none =>
      -- the extension itself has a dot
      obtain ⟨rest, rfl, -⟩ := hext
      have hdot : '.' ∈ s := hsuffix.subset List.mem_cons_self
      exact absurd hdot (fromLastDot?_eq_none.mp hu)
    | some u =>
      have hspec := fromLastDot?_spec hu
      rw [hspec.2.unique hext hspec.1 hsuffix]

/-! ### What the gate ignores -/

/-- The gate **turns a name away**: the answer is no, the name is logged for its
    suffix, and no attempt is counted. -/
def TurnsAway (g : Gate) (name : String) (now : UInt64) : Prop :=
  g.judge name .undecided now = ⟨(false, g), [.suffixIgnored name]⟩

/-- The gate **makes an attempt**: the window answers and counts, and a refusal is
    logged as one of the window. -/
def MakesAttempt (g : Gate) (name : String) (now : UInt64) : Prop :=
  g.judge name .undecided now =
    ⟨((g.window.attempt now).1, { g with window := (g.window.attempt now).2 }),
      if (g.window.attempt now).1 then [] else [.rateReached name]⟩

theorem ignoresName_iff {g : Gate} {name : String} :
    g.ignoresName name = true ↔
      ∃ s ∈ g.suffixes, s.toList <:+ name.toList ∧ IsExtension s.toList := by
  unfold ignoresName
  cases hext : fromLastDot? name.toList with
  | none =>
    constructor
    · intro h
      cases h
    · rintro ⟨s, -, hs⟩
      rw [fromLastDot?_eq_some.mpr hs] at hext
      cases hext
  | some t =>
    have ht := fromLastDot?_eq_some.mp hext
    simp only [List.any_eq_true, beq_iff_eq]
    constructor
    · rintro ⟨s, hmem, rfl⟩
      exact ⟨s, hmem, ht⟩
    · rintro ⟨s, hmem, hsuffix, hs⟩
      exact ⟨s, hmem, hs.unique ht.2 hsuffix ht.1⟩

theorem turnsAway_of_ignoresName {g : Gate} {name : String} (h : g.ignoresName name = true)
    (now : UInt64) : g.TurnsAway name now := by
  unfold TurnsAway judge
  simp only [h, if_true]
  rfl

theorem makesAttempt_of_not_ignoresName {g : Gate} {name : String}
    (h : ¬ g.ignoresName name = true) (now : UInt64) : g.MakesAttempt name now := by
  unfold MakesAttempt judge
  rw [Bool.not_eq_true] at h
  simp only [h]
  cases hpass : (g.window.attempt now).1 with
  | true => simp [Logged.noteIf, bind, pure]
  | false => simp [Logged.noteIf, Logged.note, bind, pure]

/-- The log tells the two apart. -/
theorem not_turnsAway_of_makesAttempt {g : Gate} {name : String} {now : UInt64}
    (h : g.MakesAttempt name now) : ¬ g.TurnsAway name now := by
  intro haway
  have hnotes := congrArg Logged.notes (h.symm.trans haway)
  split at hnotes
  · cases hnotes
  · cases hnotes

theorem turnsAway_iff_ignoresName {g : Gate} {name : String} {now : UInt64} :
    g.TurnsAway name now ↔ g.ignoresName name = true := by
  constructor
  · intro haway
    by_contra h
    exact not_turnsAway_of_makesAttempt (makesAttempt_of_not_ignoresName h now) haway
  · intro h
    exact turnsAway_of_ignoresName h now

end Gate

/-! ### Accepted lists -/

theorem Config.checkSuffixes_eq_ok {suffixes : List String} :
    Config.checkSuffixes suffixes = .ok () ↔ ∀ s ∈ suffixes, s.toList.head? = some '.' := by
  unfold checkSuffixes
  cases hfind : suffixes.find? fun s => !isSuffix s with
  | some s =>
    have hs := List.find?_some hfind
    have hmem := List.mem_of_find?_eq_some hfind
    constructor
    · intro h
      cases h
    · intro h
      simp [isSuffix, h s hmem] at hs
  | none =>
    simp only [true_iff]
    intro s hmem
    simpa [isSuffix] using List.find?_eq_none.mp hfind s hmem

namespace Gate

/-- An accepted suffix counts if and only if it has no further dot. -/
theorem ignoresName_iff_of_accepted {g : Gate}
    (h : Config.checkSuffixes g.suffixes = .ok ()) {name : String} :
    g.ignoresName name = true ↔
      ∃ s ∈ g.suffixes, s.toList <:+ name.toList ∧ '.' ∉ s.toList.tail := by
  have hdot := Config.checkSuffixes_eq_ok.mp h
  rw [ignoresName_iff]
  constructor
  · rintro ⟨s, hmem, hsuffix, hext⟩
    exact ⟨s, hmem, hsuffix, (isExtension_iff (hdot s hmem)).mp hext⟩
  · rintro ⟨s, hmem, hsuffix, htail⟩
    exact ⟨s, hmem, hsuffix, (isExtension_iff (hdot s hmem)).mpr htail⟩

/-- **What an accepted list ignores**: a name is turned away, with no attempt counted,
    if and only if it ends with one of those suffixes that have no further dot. Every
    other name makes its attempt, also one that ends with a suffix of more dots. -/
theorem turned_away_by_single_dots {g : Gate}
    (h : Config.checkSuffixes g.suffixes = .ok ()) (name : String) (now : UInt64) :
    (g.TurnsAway name now ↔
      ∃ s ∈ g.suffixes, s.toList <:+ name.toList ∧ '.' ∉ s.toList.tail) ∧
    (¬ g.TurnsAway name now → g.MakesAttempt name now) := by
  constructor
  · exact turnsAway_iff_ignoresName.trans (ignoresName_iff_of_accepted h)
  · intro haway
    apply makesAttempt_of_not_ignoresName
    intro hname
    exact haway (turnsAway_of_ignoresName hname now)

/-- The style sheet is turned away, and its map makes an attempt. -/
theorem turned_away_by_single_dots_css :
    let g : Gate := ⟨RateWindow.new 1 0, [".css", ".min.js"]⟩
    Config.checkSuffixes g.suffixes = .ok () ∧ g.TurnsAway "/site.css" 5 ∧
      g.MakesAttempt "/site.css.map" 5 := by
  intro g
  have haccepted : Config.checkSuffixes g.suffixes = .ok () := by rfl
  have hcss := turned_away_by_single_dots haccepted "/site.css" 5
  have hmap := turned_away_by_single_dots haccepted "/site.css.map" 5
  refine ⟨haccepted, ?_, ?_⟩
  · exact hcss.1.mpr ⟨".css", by decide, by decide, by decide⟩
  · exact hmap.2 (mt hmap.1.mp (by decide))

/-- A name that ends with an accepted suffix of two dots is sampled. -/
theorem two_dots_make_attempt :
    let g : Gate := ⟨RateWindow.new 0 0, [".min.js"]⟩
    Config.checkSuffixes g.suffixes = .ok () ∧
      (∃ s ∈ g.suffixes, s.toList <:+ "/app.min.js".toList) ∧
      ¬ g.TurnsAway "/app.min.js" 0 ∧
      (g.judge "/app.min.js" .undecided 0).value.1 = true := by
  intro g
  refine ⟨by rfl, ⟨".min.js", by decide, by decide⟩, ?_, by decide⟩
  rw [turnsAway_iff_ignoresName]
  decide

/-! ### Lists that mean what they say -/

/-- If no suffix has a second dot, the list means what its documentation says. -/
theorem turnsAway_iff_ends {g : Gate} (h : Config.checkSuffixes g.suffixes = .ok ())
    (hsingle : ∀ s ∈ g.suffixes, '.' ∉ s.toList.tail) {name : String} {now : UInt64} :
    g.TurnsAway name now ↔ ∃ s ∈ g.suffixes, s.toList <:+ name.toList := by
  rw [turnsAway_iff_ignoresName, ignoresName_iff_of_accepted h]
  constructor
  · rintro ⟨s, hmem, hsuffix, -⟩
    exact ⟨s, hmem, hsuffix⟩
  · rintro ⟨s, hmem, hsuffix⟩
    exact ⟨s, hmem, hsuffix, hsingle s hmem⟩

theorem single_dots_staticFiles : ∀ s ∈ Text.commaList Config.staticFiles,
    s.toList.head? = some '.' ∧ '.' ∉ s.toList.tail := by
  decide +kernel

/-- The suffixes that hold where nothing is set are such a list. -/
theorem turnsAway_standard {g : Gate} {instanceName : String}
    (h : g.suffixes = (Config.standard instanceName).ignoreSuffixes) {name : String}
    {now : UInt64} :
    g.TurnsAway name now ↔ ∃ s ∈ g.suffixes, s.toList <:+ name.toList := by
  have hstatic : ∀ s ∈ g.suffixes, s.toList.head? = some '.' ∧ '.' ∉ s.toList.tail := by
    rw [h]
    exact single_dots_staticFiles
  apply turnsAway_iff_ends
  · exact Config.checkSuffixes_eq_ok.mpr fun s hs => (hstatic s hs).1
  · exact fun s hs => (hstatic s hs).2

end Gate

end TraceLink
