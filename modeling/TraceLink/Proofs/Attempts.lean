import TraceLink.Engine

/-! # Attempts at operations

    A failed attempt shows the state that it leaves and what it noted. It is *atomic* if
    this is the state before it, and if nothing was noted but the error, once, where it
    is raised.

    What a strand attempts is atomic: the parts are checked from the inside out, and each
    part changes what it works on after its last check only. -/

namespace TraceLink

/-! ### Attempts, step by step -/

namespace Attempt

variable {ε σ σ' τ α α' β β' : Type} {a : Attempt ε σ α} {a' : Attempt ε σ' α'}

/-- An attempt of two steps succeeds if both do. -/
theorem bind_eq_ok {f : α → Attempt ε σ β} {b : β} :
    a >>= f = .ok b ↔ ∃ x, a = .ok x ∧ f x = .ok b := by
  cases a with
  | error x => simp [bind, Except.bind]
  | ok x => simp [bind, Except.bind]

theorem map_eq_ok {f : α → β} {b : β} : a.map f = .ok b ↔ ∃ x, a = .ok x ∧ f x = b := by
  cases a with
  | error x => simp [Except.map]
  | ok x => simp [Except.map]

@[simp] theorem within_eq_ok {put : σ → τ} {x : α} : a.within put = .ok x ↔ a = .ok x := by
  cases a with
  | error y => exact ⟨nofun, nofun⟩
  | ok y =>
    constructor
    · exact fun h => congrArg Except.ok (Except.ok.inj h)
    · exact fun h => congrArg Except.ok (Except.ok.inj h)

@[simp] theorem raised_eq_ok {a : Attempt UsageError σ α} {x : α} :
    a.raised = .ok x ↔ a = .ok x := by
  cases a with
  | error y => exact ⟨nofun, nofun⟩
  | ok y => exact Iff.rfl

/-! ### Errors -/

/-- The error, if the attempt fails. -/
def error? (a : Attempt ε σ α) : Option ε :=
  match a with
  | .error x => some x.value.error
  | .ok _ => none

@[simp] theorem error?_fail (e : ε) (s : σ) : (fail e s : Attempt ε σ α).error? = some e := rfl

@[simp] theorem error?_ok (x : α) : error? (.ok x : Attempt ε σ α) = none := rfl

@[simp] theorem error?_map (a : Attempt ε σ α) (f : α → β) :
    error? (a.map f : Attempt ε σ β) = a.error? := by
  cases a with
  | error x => rfl
  | ok x => rfl

@[simp] theorem error?_within (a : Attempt ε σ α) (put : σ → τ) :
    (a.within put).error? = a.error? := by
  cases a with
  | error x => rfl
  | ok x => rfl

@[simp] theorem error?_raised (a : Attempt UsageError σ α) : a.raised.error? = a.error? := by
  cases a with
  | error x => rfl
  | ok x => rfl

/-- An attempt fails in its first step, or in the second one. -/
theorem error?_bind {f : α → Attempt ε σ β} {e : ε} :
    error? (a >>= f) = some e ↔ a.error? = some e ∨ ∃ x, a = .ok x ∧ (f x).error? = some e := by
  cases a with
  | error x => simp [bind, Except.bind, error?]
  | ok x => simp [bind, Except.bind]

/-! ### Atomic attempts -/

/-- **Atomic**: if the attempt fails, it leaves the state `s`, and what it noted is told by
    the error. -/
def Atomic (noted : ε → List Diagnostic) (s : σ) (a : Attempt ε σ α) : Prop :=
  ∀ x, a = .error x → ∃ e, x = ⟨⟨e, s⟩, noted e⟩

/-- Nothing is noted. -/
abbrev silent : ε → List Diagnostic := fun _ => []

/-- The error is noted, once. -/
abbrev once : UsageError → List Diagnostic := fun e => [.usage e]

variable {noted : ε → List Diagnostic} {s : σ}

theorem atomic_ok (x : α) : Atomic noted s (.ok x : Attempt ε σ α) := fun _ hy => by contradiction

theorem atomic_fail (e : ε) : Atomic silent s (fail e s : Attempt ε σ α) := fun _ hx =>
  ⟨e, (Except.error.inj hx).symm⟩

namespace Atomic

/-- The error tells everything about the failure. -/
theorem eq_of_error? (h : a.Atomic noted s) {e : ε} (he : a.error? = some e) :
    a = .error ⟨⟨e, s⟩, noted e⟩ := by
  cases a with
  | error x =>
    obtain ⟨e', rfl⟩ := h x rfl
    obtain rfl := Option.some.inj he
    rfl
  | ok x => contradiction

theorem map (h : a.Atomic noted s) (f : α → β) : Atomic noted s (a.map f : Attempt ε σ β) := by
  intro x hx
  cases a with
  | error y => exact h x (congrArg Except.error (Except.error.inj hx))
  | ok y => contradiction

theorem bind (h : a.Atomic noted s) {f : α → Attempt ε σ β}
    (hf : ∀ x, a = .ok x → (f x).Atomic noted s) : Atomic noted s (a >>= f) := by
  intro x hx
  cases a with
  | error y => exact h x (congrArg Except.error (Except.error.inj hx))
  | ok y => exact hf y rfl x hx

/-- What was left of the part is put back into the whole. -/
theorem within (h : a.Atomic noted s) (put : σ → τ) : (a.within put).Atomic noted (put s) := by
  intro x hx
  cases a with
  | error y =>
    obtain ⟨e, rfl⟩ := h y rfl
    obtain rfl := Except.error.inj hx
    exact ⟨e, congrArg (Logged.mk _) (List.append_nil _)⟩
  | ok y => contradiction

/-- An error that was not noted yet is noted once. -/
theorem raised {a : Attempt UsageError σ α} (h : a.Atomic silent s) : a.raised.Atomic once s := by
  intro x hx
  cases a with
  | error y =>
    obtain ⟨e, rfl⟩ := h y rfl
    exact ⟨e, (Except.error.inj hx).symm⟩
  | ok y => contradiction

end Atomic

/-! ### Two attempts -/

/-- Attempts that both fail, with the same error, or succeed with related results. -/
inductive Rel (R : α → α' → Prop) : Attempt ε σ α → Attempt ε σ' α' → Prop where
  | error {x : Logged (Failure ε σ)} {x' : Logged (Failure ε σ')}
      (h : x'.value.error = x.value.error) : Rel R (.error x) (.error x')
  | ok {y : α} {y' : α'} (h : R y y') : Rel R (.ok y) (.ok y')

namespace Rel

variable {τ' : Type} {R : α → α' → Prop} {S : β → β' → Prop}

theorem fail (e : ε) (s : σ) (s' : σ') : Rel R (Attempt.fail e s) (Attempt.fail e s') := .error rfl

/-- An attempt compared with what is made of it. -/
theorem of_map {a' : Attempt ε τ α'} {put : σ → τ} {f : α → α'}
    (h : a' = ((a.within put).map f : Attempt ε τ α')) : Rel (fun x x' => x' = f x) a a' := by
  rw [h]
  cases a with
  | error x => exact .error rfl
  | ok x => exact .ok rfl

/-- An attempt compared with itself. -/
theorem self (a : Attempt ε σ α) : Rel (fun x x' => x' = x) a a := by
  cases a with
  | error x => exact .error rfl
  | ok x => exact .ok rfl

theorem bind (h : Rel R a a') {f : α → Attempt ε σ β} {f' : α' → Attempt ε σ' β'}
    (hf : ∀ {x x'}, R x x' → Rel S (f x) (f' x')) : Rel S (a >>= f) (a' >>= f') := by
  cases h with
  | error h => exact .error h
  | ok h => exact hf h

theorem map (h : Rel R a a') {f : α → β} {f' : α' → β'} (hf : ∀ {x x'}, R x x' → S (f x) (f' x')) :
    Rel S (a.map f : Attempt ε σ β) (a'.map f' : Attempt ε σ' β') := by
  cases h with
  | error h => exact .error h
  | ok h => exact .ok (hf h)

theorem within (h : Rel R a a') (put : σ → τ) (put' : σ' → τ') :
    Rel R (a.within put) (a'.within put') := by
  cases h with
  | error h => exact .error h
  | ok h => exact .ok h

theorem raised {a : Attempt UsageError σ α} {a' : Attempt UsageError σ' α'} (h : Rel R a a') :
    Rel R a.raised a'.raised := by
  cases h with
  | error h => exact .error h
  | ok h => exact .ok h

end Rel

end Attempt

open Attempt (Atomic silent once atomic_ok atomic_fail)

/-! ### Outcomes of attempts -/

namespace Outcome

variable {ε σ β : Type} {noted : ε → List Diagnostic} {s : σ}
  {a : Attempt ε σ (Logged (Outcome σ))}

/-- **The outcome of an atomic attempt** is what it makes of the state, or its error in the
    state before. -/
theorem ofAttempt_cases (answer : ε → Reply) (h : a.Atomic noted s) :
    (∃ step, a = .ok step ∧ ofAttempt answer a = step) ∨
      ∃ e, a.error? = some e ∧ ofAttempt answer a = ⟨.of (answer e) s, noted e⟩ := by
  cases a with
  | ok step => exact .inl ⟨step, rfl, rfl⟩
  | error x =>
    obtain ⟨e, rfl⟩ := h x rfl
    exact .inr ⟨e, rfl, congrArg (Logged.mk _) (List.append_nil _)⟩

/-- An atomic attempt that fails leaves the state, so what holds of it needs to be shown of
    the results only. -/
theorem keeps_ofAttempt {P : σ → Prop} {answer : ε → Reply} {a : Attempt ε σ β}
    (hatomic : a.Atomic noted s) (hs : P s) {F : β → Logged (Outcome σ)}
    (h : ∀ y, a = .ok y → P (F y).value.state) : P (ofAttempt answer (a.map F)).value.state := by
  rcases ofAttempt_cases answer (hatomic.map F) with ⟨step, hok, hstep⟩ | ⟨e, -, hstep⟩
  · obtain ⟨y, hy, rfl⟩ := Attempt.map_eq_ok.mp hok
    rw [hstep]
    exact h y hy
  · rw [hstep]
    exact hs

/-- What is seen of the state is kept if it is kept by the results. -/
theorem state_ofAttempt {γ : Type} (seen : σ → γ) {answer : ε → Reply} {a : Attempt ε σ β}
    (hatomic : a.Atomic noted s) {F : β → Logged (Outcome σ)}
    (h : ∀ y, a = .ok y → seen (F y).value.state = seen s) :
    seen (ofAttempt answer (a.map F)).value.state = seen s :=
  keeps_ofAttempt (P := (seen · = seen s)) hatomic rfl h

/-- **Outcomes of two atomic attempts** are related if what they make of the states is,
    and if the states before are with the same answer. -/
theorem rel_ofAttempt {σ' : Type} {R : Outcome σ → Outcome σ' → Prop} {answer : ε → Reply}
    {noted' : ε → List Diagnostic} {s' : σ'} {a' : Attempt ε σ' (Logged (Outcome σ'))}
    (h : a.Atomic noted s) (h' : a'.Atomic noted' s')
    (hrefused : ∀ e, R (.of (answer e) s) (.of (answer e) s'))
    (hrel : Attempt.Rel (fun x x' => R x.value x'.value) a a') :
    R (ofAttempt answer a).value (ofAttempt answer a').value := by
  cases hrel with
  | ok hsteps => exact hsteps
  | error herror =>
    obtain ⟨e, rfl⟩ := h _ rfl
    obtain ⟨e', rfl⟩ := h' _ rfl
    obtain rfl : e' = e := herror
    exact hrefused e'

end Outcome

/-! ### Spans -/

namespace Span

variable {x : Span}

/-- Closing gives the end time and changes nothing else. -/
theorem close_eq_ok {x' : Span} {time : UInt64} (h : x.close time = .ok x') :
    x' = { x with stop := some time } := by
  unfold close at h
  split at h
  · contradiction
  · exact (Except.ok.inj h).symm

/-- Only a closed span is not closed, and it stays as it is. -/
theorem close_eq_error {time : UInt64} {f : Logged (Failure UsageError Span)}
    (h : x.close time = .error f) : x.isClosed ∧ f = pure ⟨.alreadyClosed x.id, x⟩ := by
  unfold close at h
  split at h
  · exact ⟨‹_›, (Except.error.inj h).symm⟩
  · contradiction

theorem atomic_markAsync : x.markAsync.Atomic silent x := by
  unfold markAsync
  split
  · exact atomic_fail _
  · split
    · exact atomic_fail _
    · exact atomic_ok _

end Span

/-! ### Open segments -/

namespace OpenSegment

variable {o : OpenSegment}

/-- What is popped is the active frame, which has the expected id. -/
theorem pop_eq_ok {o' : OpenSegment} {expected : Option Int} {f : Frame}
    (h : o.pop expected = .ok (f, o')) :
    ∃ rest, o.stack = f :: rest ∧ o' = { o with stack := rest } ∧
      ∀ id, expected = some id → f.id = id := by
  unfold pop at h
  cases hstack : o.stack with
  | nil => simp [hstack, Attempt.fail] at h
  | cons g rest =>
    simp only [hstack] at h
    cases expected with
    | none =>
      obtain ⟨rfl, rfl⟩ := Prod.mk.inj (Except.ok.inj h)
      exact ⟨rest, rfl, rfl, fun id h => by contradiction⟩
    | some id =>
      by_cases hid : g.id = id
      · simp only [hid, if_true] at h
        obtain ⟨rfl, rfl⟩ := Prod.mk.inj (Except.ok.inj h)
        exact ⟨rest, rfl, rfl, fun id' h => by rw [hid, Option.some.inj h]⟩
      · simp [hid, Attempt.fail] at h

variable (o)

/-- The ids are compared before the frame is taken off. -/
theorem atomic_pop (expected : Option Int) : (o.pop expected).Atomic silent o := by
  unfold pop
  split
  · exact atomic_fail _
  · split
    · split
      · exact atomic_ok _
      · exact atomic_fail _
    · exact atomic_ok _

/-- A stop is refused if nothing can be taken off. -/
theorem stop_of_fail {o : OpenSegment} {expected : Option Int} {e : UsageError}
    (hpop : o.pop expected = .fail e o) (t : Tracer) (now : UInt64) :
    o.stop t expected now = .fail e (o, t) := by
  rw [stop, hpop]
  rfl

theorem atomic_receive (c : RemoteContext) (now : UInt64) : (o.receive c now).Atomic silent o :=
  (o.atomic_pop none).map _

/-- The carrier is filled after the last check. -/
theorem atomic_inject (k : Carrier) (now : UInt64) : (o.inject k now).Atomic silent k := by
  unfold inject
  split
  · exact atomic_fail _
  · split
    · split
      · exact atomic_fail _
      · exact atomic_ok _
    · exact atomic_ok _

/-- The span is marked before anything is booked. -/
theorem atomic_prepareAsync (t : Tracer) : (o.prepareAsync t).Atomic silent (o, t) := by
  unfold prepareAsync
  split
  · exact atomic_fail _
  · exact atomic_ok _
  · next x rest hstack =>
    -- a span that could not be marked is put back as it was, so the stack is the one before
    have hsame : { o with stack := .recorded x :: rest } = o := by rw [← hstack]
    have hmark := Span.atomic_markAsync (x := x).within
      fun x => ({ o with stack := Frame.recorded x :: rest }, t)
    rw [hsame] at hmark
    exact hmark.bind fun x' _ => atomic_ok _

theorem atomic_stop (t : Tracer) (expected : Option Int) (now : UInt64) :
    (o.stop t expected now).Atomic silent (o, t) :=
  ((o.atomic_pop expected).within (·, t)).map _

end OpenSegment

/-! ### Sites -/

namespace Site

variable {s : Site}

theorem active_eq_ok {o : OpenSegment} : s.active = .ok o ↔ s.strand.active = some o := by
  unfold active
  cases s.strand.active <;> simp [Attempt.fail]

theorem active_of_idle (h : s.strand.active = none) :
    s.active = (Attempt.fail .notActive s).raised := by
  rw [active, h]

theorem withActive_self {o : OpenSegment} (h : s.strand.active = some o) : s.withActive o = s := by
  unfold withActive
  rw [← h]

theorem atomic_active : s.active.Atomic once s := by
  unfold active
  split
  · exact atomic_ok _
  · exact (atomic_fail _).raised

/-- A carrier is filled by the open segment. -/
theorem inject_eq_ok {k : Carrier} {now : UInt64} {step : Logged Carrier} :
    s.inject k now = .ok step ↔ ∃ o, s.strand.active = some o ∧ o.inject k now = .ok step := by
  unfold inject
  simp only [Attempt.bind_eq_ok, Attempt.raised_eq_ok, Attempt.within_eq_ok, active_eq_ok]

/-- What is answered is what the open segment filled the carrier with. -/
theorem inject_of_reply {k c : Carrier} {now : UInt64}
    (h : (s.step now (.inject k)).value.reply = .carrier c) :
    ∃ o step, s.strand.active = some o ∧ o.inject k now = .ok step ∧ step.value = c := by
  cases hinject : s.inject k now with
  | error x =>
    simp only [step, hinject] at h
    contradiction
  | ok step =>
    obtain ⟨o, hactive, hfilled⟩ := inject_eq_ok.mp hinject
    simp only [Site.step, hinject] at h
    exact ⟨o, step, hactive, hfilled, Reply.carrier.inj h⟩

/-- A remote context is received by the open segment. -/
theorem receive_remote_eq_ok {c : RemoteContext} {now : UInt64} {step : Logged Site} :
    s.receive (.remote c) now = .ok step ↔
      ∃ o, s.strand.active = some o ∧ ∃ next, o.receive c now = .ok next ∧
        s.withActive <$> next = step := by
  unfold receive
  simp only [Attempt.bind_eq_ok, Attempt.raised_eq_ok, Attempt.within_eq_ok, active_eq_ok]
  exact exists_congr fun o => and_congr_right fun _ => exists_congr fun next =>
    and_congr_right fun _ => ⟨Except.ok.inj, congrArg Except.ok⟩

/-- Nothing is received while no segment is open. -/
theorem receive_of_idle (h : s.strand.active = none) (inbound : Inbound) (now : UInt64) :
    s.receive inbound now = (Attempt.fail .notActive s).raised := by
  rw [receive, active_of_idle h]
  rfl

/-- What is attempted with the open segment is atomic if it is so once a segment is open. -/
theorem atomic_bind_active {β : Type} {f : OpenSegment → Attempt UsageError Site β}
    (h : ∀ o, s.strand.active = some o → (f o).Atomic once s) : (s.active >>= f).Atomic once s :=
  atomic_active.bind fun o ho => h o (active_eq_ok.mp ho)

/-- An attempt on the open segment and the tracer, which is raised at the site. -/
theorem atomic_raised {β : Type} {o : OpenSegment} (ho : s.strand.active = some o)
    {a : Attempt UsageError (OpenSegment × Tracer) β} (h : a.Atomic silent (o, s.tracer)) :
    (a.within fun (o, tracer) => { s with tracer }.withActive o).raised.Atomic once s := by
  -- the open segment and the tracer that were left go back into the site
  have hraised : Attempt.Atomic once (s.withActive o) _ :=
    (h.within fun (o, tracer) => { s with tracer }.withActive o).raised
  rwa [withActive_self ho] at hraised

variable (s) (now : UInt64)

theorem atomic_inject (k : Carrier) : (s.inject k now).Atomic once (s, k) := by
  refine (atomic_active.within (·, k)).bind fun o _ => ?_
  exact ((o.atomic_inject k now).within (s, ·)).raised

theorem atomic_receive (inbound : Inbound) : (s.receive inbound now).Atomic once s := by
  refine atomic_bind_active fun o ho => ?_
  cases inbound with
  | absent => exact atomic_ok _
  | ignored => exact atomic_ok _
  | remote c =>
    -- only taking the frame off can fail, and then the segment goes back into the site
    have hreceive := ((o.atomic_receive c now).within s.withActive).raised
    rw [withActive_self ho] at hreceive
    exact hreceive.bind fun x _ => atomic_ok _

theorem atomic_activeFrame : s.activeFrame.Atomic once s := by
  refine atomic_bind_active fun o ho => ?_
  cases o.active? with
  | none => exact (atomic_fail _).raised
  | some f => exact atomic_ok _

theorem atomic_edit (edits : List Edit) : (s.edit edits now).Atomic once s := by
  refine atomic_bind_active fun o ho => ?_
  cases o.stack with
  | nil => exact (atomic_fail _).raised
  | cons f rest => exact atomic_ok _

theorem atomic_prepareAsync : s.prepareAsync.Atomic once s :=
  atomic_bind_active fun o ho =>
    (atomic_raised ho (o.atomic_prepareAsync s.tracer)).bind fun _ _ => atomic_ok _

theorem atomic_stop (expected : Option Int) : (s.stop expected now).Atomic once s :=
  atomic_bind_active fun o ho =>
    (atomic_raised ho (o.atomic_stop s.tracer expected now)).bind fun _ _ => atomic_ok _

/-- Filling a carrier leaves the site as it is, whether it succeeds or not. -/
theorem state_inject (k : Carrier) : (s.step now (.inject k)).value.state = s :=
  Outcome.state_ofAttempt id ((s.atomic_inject now k).within Prod.fst) fun _ _ => rfl

/-- So does looking at the active span. -/
theorem state_active : (s.step now .active).value.state = s :=
  Outcome.state_ofAttempt id s.atomic_activeFrame fun _ _ => rfl

end Site

/-! ### Settings -/

/-- A list of suffixes is checked before it is set. -/
theorem Tracer.atomic_setSuffixes (t : Tracer) (value : Option String) :
    (t.setSuffixes value).Atomic silent t := by
  have hcheck (suffixes : List String) :
      Atomic silent t ((Config.checkSuffixes suffixes).mapError fun e => pure ⟨e, t⟩) := by
    intro x hx
    cases hchecked : Config.checkSuffixes suffixes with
    | error e =>
      rw [hchecked] at hx
      exact ⟨e, (Except.error.inj hx).symm⟩
    | ok u =>
      rw [hchecked] at hx
      contradiction
  exact (hcheck _).bind fun _ _ => atomic_ok _

/-- A list of suffixes that is set is in the gate, and nothing else has changed. -/
theorem Tracer.setSuffixes_eq_ok {t : Tracer} {value : Option String} {step : Logged Tracer}
    (h : t.setSuffixes value = .ok step) :
    ∃ suffixes, step.value = { t with gate := { t.gate with suffixes } } := by
  obtain ⟨u, -, hset⟩ := Attempt.bind_eq_ok.mp h
  obtain rfl := Except.ok.inj hset
  exact ⟨_, rfl⟩

/-- **An update of the suffixes** hands over nothing, and leaves all of the engine but the
    suffixes as it was. -/
theorem Engine.setSuffixes_value (e : Engine) (now : UInt64) (value : Option String) :
    ∃ reply suffixes, (e.step now (.setSuffixes value)).value =
      .of reply { e with tracer := { e.tracer with gate := { e.tracer.gate with suffixes } } } := by
  have hatomic := (e.tracer.atomic_setSuffixes value).within fun tracer => { e with tracer }
  rcases Outcome.ofAttempt_cases .refused (hatomic.map fun step : Logged Tracer => do
    return .of .done { e with tracer := ← step }) with ⟨step, hok, hstep⟩ | ⟨err, -, hstep⟩
  · obtain ⟨next, hnext, rfl⟩ := Attempt.map_eq_ok.mp hok
    obtain ⟨suffixes, hset⟩ := Tracer.setSuffixes_eq_ok (Attempt.within_eq_ok.mp hnext)
    refine ⟨.done, suffixes, (congrArg Logged.value hstep).trans ?_⟩
    rw [Logged.bind_value, hset]
    rfl
  · exact ⟨.refused err, e.tracer.gate.suffixes, congrArg Logged.value hstep⟩

end TraceLink
