import TraceLink.Proofs.IgnoredSuffixes
import TraceLink.Proofs.Workplaces

/-! # Settings

    The ignored suffixes and the sample rate are set while the tracer runs. Parsing the
    list, checking it and setting it are one step: a list that is refused leaves the engine
    as it was, and one that is accepted changes the list and nothing else.

    No other operation touches the settings. So at every moment of a run the suffixes are
    the configured ones or those of an accepted list. -/

namespace TraceLink

/-! ### Lists of suffixes -/

namespace Config

/-- The list is accepted, or the first item that is no suffix is named. -/
theorem checkSuffixes_cases (suffixes : List String) :
    (∀ s ∈ suffixes, s.toList.head? = some '.') ∧ checkSuffixes suffixes = .ok () ∨
      ∃ before s after, suffixes = before ++ s :: after ∧
        (∀ b ∈ before, b.toList.head? = some '.') ∧ s.toList.head? ≠ some '.' ∧
        checkSuffixes suffixes = .error (.suffixWithoutDot s) := by
  have hsuffix (s : String) : (!isSuffix s) = true ↔ s.toList.head? ≠ some '.' := by
    simp [isSuffix]
  cases hfind : suffixes.find? fun s => !isSuffix s with
  | none =>
    have hok : checkSuffixes suffixes = .ok () := by rw [checkSuffixes, hfind]
    exact .inl ⟨checkSuffixes_eq_ok.mp hok, hok⟩
  | some s =>
    obtain ⟨hs, before, after, hlist, hbefore⟩ := List.find?_eq_some_iff_append.mp hfind
    refine .inr ⟨before, s, after, hlist, fun b hb => ?_, (hsuffix s).mp hs, ?_⟩
    · by_contra hdot
      have hb := hbefore b hb
      rw [(hsuffix b).mpr hdot] at hb
      contradiction
    · rw [checkSuffixes, hfind]

/-- The suffixes of a valid configuration are accepted. -/
theorem head_of_validate {c : Config} (h : c.validate = .ok ()) :
    ∀ s ∈ c.ignoreSuffixes, s.toList.head? = some '.' := by
  unfold validate at h
  split at h
  · contradiction
  · split at h
    · contradiction
    · split at h
      · contradiction
      · exact checkSuffixes_eq_ok.mp h

end Config

/-! ### Updates -/

/-- The operation updates a setting. -/
def Op.isUpdate : Op → Bool
  | .setSuffixes _ | .setRate _ => true
  | _ => false

namespace Engine

variable (e : Engine) (now : UInt64)

/-- The engine with other ignored suffixes. -/
def withSuffixes (suffixes : List String) : Engine :=
  { e with tracer := { e.tracer with gate := { e.tracer.gate with suffixes } } }

/-- The engine with another sample rate. -/
def withRate (rate : Int) : Engine :=
  { e with tracer := { e.tracer with
      gate := { e.tracer.gate with window := { e.tracer.gate.window with rate } } } }

/-- The suffixes that an update asks for. -/
def requested : Option String → List String
  | some text => Text.commaList text
  | none => e.tracer.config.ignoreSuffixes

/-- **An update of the suffixes** sets exactly the list that is asked for and logs it, or
    it names the first item without a dot, and nothing else happens. -/
theorem step_setSuffixes (value : Option String) :
    (∀ s ∈ e.requested value, s.toList.head? = some '.') ∧
      e.step now (.setSuffixes value) =
        ⟨.of .done (e.withSuffixes (e.requested value)),
          [.suffixesUpdated (e.requested value)]⟩ ∨
      ∃ before s after, e.requested value = before ++ s :: after ∧
        (∀ b ∈ before, b.toList.head? = some '.') ∧ s.toList.head? ≠ some '.' ∧
        e.step now (.setSuffixes value) = ⟨.of (.refused (.suffixWithoutDot s)) e, []⟩ := by
  -- the list is checked in the tracer as it is, and set after that
  have hset : e.tracer.setSuffixes value =
      ((Config.checkSuffixes (e.requested value)).mapError fun err => pure ⟨err, e.tracer⟩).map
        fun _ => ⟨(e.withSuffixes (e.requested value)).tracer,
          [.suffixesUpdated (e.requested value)]⟩ := by
    unfold Tracer.setSuffixes requested
    cases value with
    | none =>
      simp only [bind, Except.bind]
      cases Config.checkSuffixes e.tracer.config.ignoreSuffixes <;> rfl
    | some text =>
      simp only [bind, Except.bind]
      cases Config.checkSuffixes (Text.commaList text) <;> rfl
  rcases Config.checkSuffixes_cases (e.requested value) with
    ⟨hdots, hok⟩ | ⟨before, s, after, hlist, hbefore, hs, herror⟩
  · refine .inl ⟨hdots, ?_⟩
    simp only [step, hset, hok]
    rfl
  · refine .inr ⟨before, s, after, hlist, hbefore, hs, ?_⟩
    simp only [step, hset, herror]
    rfl

/-- A list of suffixes is accepted. -/
theorem step_setSuffixes_of_dots (value : Option String)
    (h : ∀ s ∈ e.requested value, s.toList.head? = some '.') :
    e.step now (.setSuffixes value) =
      ⟨.of .done (e.withSuffixes (e.requested value)), [.suffixesUpdated (e.requested value)]⟩ := by
  rcases e.step_setSuffixes now value with ⟨-, hstep⟩ | ⟨before, s, after, hlist, -, hs, -⟩
  · exact hstep
  · exact absurd (h s (hlist ▸ List.mem_append_right _ List.mem_cons_self)) hs

/-- A list with an item that is no suffix is refused. -/
theorem step_setSuffixes_of_not_dots (value : Option String)
    (h : ∃ s ∈ e.requested value, s.toList.head? ≠ some '.') :
    ∃ err, e.step now (.setSuffixes value) = ⟨.of (.refused err) e, []⟩ := by
  rcases e.step_setSuffixes now value with ⟨hdots, -⟩ | ⟨before, s, after, -, -, -, hstep⟩
  · obtain ⟨s, hs, hno⟩ := h
    exact absurd (hdots s hs) hno
  · exact ⟨_, hstep⟩

/-- An update of the rate always succeeds. -/
theorem step_setRate (value : Option Int) :
    e.step now (.setRate value) =
      ⟨.of .done (e.withRate (value.getD e.tracer.config.sampleRate)),
        [.rateUpdated (value.getD e.tracer.config.sampleRate)]⟩ := rfl

/-! ### Other operations -/

variable {e} {now}

/-- **The settings stay** in every operation that is no update. -/
theorem setting_step {op : Op} (h : op.isUpdate = false) :
    (e.step now op).value.state.tracer.gate.setting = e.tracer.gate.setting := by
  cases op with
  | openStrand => rfl
  | closeStrand k =>
    cases hsite : e.site? k with
    | none => simp only [step, closeStrand, hsite, Logged.bind_value, Logged.pure_value, Outcome.of]
    | some s =>
      simp only [step, closeStrand, hsite, Logged.bind_value, Logged.pure_value, Outcome.of]
      rw [s.gate_leave, tracer_of_site? hsite]
  | strand k op =>
    cases hsite : e.site? k with
    | none => simp only [step, hsite, Logged.pure_value, Outcome.of]
    | some s =>
      have hset := (Site.footprint_of_effect (s.effect_of_step now op)).setting
      rw [tracer_of_site? hsite] at hset
      rw [step_strand hsite]
      exact hset
  | handle a op =>
    have hgate : (e.tracer.handle a now op).value.2.gate = e.tracer.gate := by
      cases a with
      | idle => rfl
      | span n id => rfl
    exact congrArg Gate.setting ((Tracer.gate_reportDue _ _).trans hgate)
  | setSuffixes value => contradiction
  | setRate value => contradiction
  | receive => rfl
  | closeReceiver => rfl

/-! ### Runs -/

/-- **Where the suffixes come from**: they are the configured ones, or a comma list that
    was accepted. -/
structure Furnished (c : Config) (e : Engine) : Prop where
  config : e.tracer.config = c
  suffixes : e.tracer.gate.suffixes = c.ignoreSuffixes ∨
    ∃ text, e.tracer.gate.suffixes = Text.commaList text ∧
      ∀ s ∈ e.tracer.gate.suffixes, s.toList.head? = some '.'

namespace Furnished

variable {c : Config}

theorem step (h : e.Furnished c) (now : UInt64) (op : Op) :
    (e.step now op).value.state.Furnished c := by
  refine ⟨(e.config_step now op).trans h.config, ?_⟩
  cases hop : op.isUpdate with
  | false =>
    have hsuffixes : (e.step now op).value.state.tracer.gate.suffixes = e.tracer.gate.suffixes :=
      congrArg Prod.fst (setting_step hop)
    rw [hsuffixes]
    exact h.suffixes
  | true =>
    cases op with
    | setSuffixes value =>
      rcases e.step_setSuffixes now value with ⟨hdots, hstep⟩ | ⟨before, s, after, -, -, -, hstep⟩
      · rw [hstep]
        cases value with
        | none => exact .inl (congrArg Config.ignoreSuffixes h.config)
        | some text => exact .inr ⟨text, rfl, hdots⟩
      · rw [hstep]
        exact h.suffixes
    | setRate value => exact h.suffixes
    | _ => contradiction

theorem run (h : e.Furnished c) (ops : List (UInt64 × Op)) : (e.run ops).Furnished c := by
  induction ops generalizing e with
  | nil => exact h
  | cons x ops ih => exact ih (h.step x.1 x.2)

theorem start (c : Config) (reporter : Reporter) (process : String) (now : UInt64) :
    (ofTracer (.start c reporter process now)).Furnished c :=
  ⟨rfl, .inl rfl⟩

/-- With a valid configuration every suffix begins with a dot. -/
theorem head (h : e.Furnished c) (hvalid : c.validate = .ok ()) :
    ∀ s ∈ e.tracer.gate.suffixes, s.toList.head? = some '.' := by
  rcases h.suffixes with hlist | ⟨text, -, hdots⟩
  · rw [hlist]
    exact Config.head_of_validate hvalid
  · exact hdots

end Furnished

end Engine

end TraceLink
