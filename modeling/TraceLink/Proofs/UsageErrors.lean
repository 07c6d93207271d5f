import TraceLink.Proofs.Reporting

/-! # Usage errors

    Which operations a strand refuses, and with which error, depends on its active
    span and on nothing else. A refused operation has no effect: the engine after it
    is the one before it, and the only error that is noted is the one that is
    answered.

    While a segment is open its stack is not empty, so no operation is refused for an
    empty stack. -/

namespace TraceLink

/-! ### Refusals -/

/-- The operation is about the open segment, which has to be there. -/
def StrandOp.needsSegment : StrandOp → Bool
  | .stop _ | .inject _ | .extract _ | .active | .edit _ | .prepareAsync => true
  | _ => false

/-- **Refusal by the active frame** of a segment that is sampled or not. -/
inductive Frame.Refuses (sampled : Bool) : Frame → StrandOp → UsageError → Prop where
  /-- Another span was to be stopped. -/
  | outOfOrder {f : Frame} {id : Int} (hother : f.id ≠ id) :
      Refuses sampled f (.stop (some id)) (.outOfOrder f.id id)
  /-- Only an exit span fills a carrier, as long as the segment is sampled. -/
  | notExitSpan {x : Span} {k : Carrier} (hsampled : sampled = true) (hkind : x.kind ≠ .exit) :
      Refuses sampled (.recorded x) (.inject k) (.notExitSpan x.id)
  | alreadyAsync {x : Span} (hasync : x.isAsync = true) :
      Refuses sampled (.recorded x) .prepareAsync (.alreadyAsync x.id)
  | alreadyClosed {x : Span} (hplain : x.isAsync = false) (hclosed : x.isClosed = true) :
      Refuses sampled (.recorded x) .prepareAsync (.alreadyClosed x.id)

/-- **Refusal by a strand**. -/
inductive Strand.Refuses (s : Strand) : StrandOp → UsageError → Prop where
  /-- No segment is open. -/
  | idle {op : StrandOp} (hidle : s.active = none) (hop : op.needsSegment = true) :
      Refuses s op .notActive
  | active {o : OpenSegment} {f : Frame} {rest : List Frame} {op : StrandOp} {e : UsageError}
      (hactive : s.active = some o) (hstack : o.stack = f :: rest)
      (hrefuses : f.Refuses o.sampled op e) : Refuses s op e

/-- **Standing**: while a segment is open, its stack is not empty. -/
def Strand.Standing (s : Strand) : Prop := ∀ o, s.active = some o → o.stack ≠ []

namespace Strand

variable {s : Strand} {op : StrandOp} {e : UsageError}

/-- An idle strand refuses what needs a segment, always with the same error. -/
theorem refuses_of_idle (hidle : s.active = none) (hop : op.needsSegment = true) :
    s.Refuses op e ↔ e = .notActive := by
  constructor
  · intro h
    cases h with
    | idle => rfl
    | active hactive =>
      rw [hidle] at hactive
      contradiction
  · intro h
    rw [h]
    exact .idle hidle hop

/-- On an active strand it is the active frame that refuses. -/
theorem refuses_of_active {o : OpenSegment} {f : Frame} {rest : List Frame}
    (hactive : s.active = some o) (hstack : o.stack = f :: rest) :
    s.Refuses op e ↔ f.Refuses o.sampled op e := by
  constructor
  · intro h
    cases h with
    | idle hidle =>
      rw [hidle] at hactive
      contradiction
    | active hactive' hstack' hrefuses =>
      obtain rfl := Option.some.inj (hactive.symm.trans hactive')
      obtain ⟨rfl, -⟩ := List.cons.inj (hstack.symm.trans hstack')
      exact hrefuses
  · exact fun h => .active hactive hstack h

/-- Only what needs a segment is refused. -/
theorem Refuses.needsSegment (h : s.Refuses op e) : op.needsSegment = true := by
  cases h with
  | idle hidle hop => exact hop
  | active hactive hstack hrefuses =>
    cases hrefuses with
    | outOfOrder => rfl
    | notExitSpan => rfl
    | alreadyAsync => rfl
    | alreadyClosed => rfl

/-- No operation is refused for an empty stack. -/
theorem Refuses.ne_stackEmpty (h : s.Refuses op e) : e ≠ .stackEmpty := by
  intro heq
  rw [heq] at h
  cases h with
  | active hactive hstack hrefuses => cases hrefuses

end Strand

/-! ### Attempts that fail -/

namespace OpenSegment

variable {o : OpenSegment} {f : Frame} {rest : List Frame} {e : UsageError}

theorem pop_none (hstack : o.stack = f :: rest) :
    o.pop none = .ok (f, { o with stack := rest }) := by
  unfold pop
  rw [hstack]

theorem error?_pop (hstack : o.stack = f :: rest) (expected : Option Int) :
    (o.pop expected).error? = some e ↔ f.Refuses o.sampled (.stop expected) e := by
  cases expected with
  | none =>
    rw [pop_none hstack]
    constructor
    · intro h
      contradiction
    · intro h
      cases h
  | some id =>
    have hvalue : o.pop (some id) =
        if f.id = id then .ok (f, { o with stack := rest }) else .fail (.outOfOrder f.id id) o := by
      unfold pop
      rw [hstack]
    rw [hvalue]
    by_cases hid : f.id = id
    · rw [if_pos hid]
      constructor
      · intro h
        contradiction
      · intro h
        cases h with
        | outOfOrder hother => exact absurd hid hother
    · rw [if_neg hid]
      constructor
      · intro h
        obtain rfl := Option.some.inj h
        exact .outOfOrder hid
      · intro h
        cases h with
        | outOfOrder hother => rfl

theorem error?_inject (hstack : o.stack = f :: rest) (k : Carrier) (now : UInt64) :
    (o.inject k now).error? = some e ↔ f.Refuses o.sampled (.inject k) e := by
  have hactive : o.active? = some f := by rw [active?, hstack, List.head?_cons]
  unfold inject
  rw [hactive]
  cases f with
  | placeholder name =>
    constructor
    · intro h
      contradiction
    · intro h
      cases h
  | recorded x =>
    by_cases hno : (o.sampled && x.kind ≠ .exit) = true
    · simp only [if_pos hno]
      obtain ⟨hsampled, hkind⟩ := Bool.and_eq_true_iff.mp hno
      constructor
      · intro h
        obtain rfl := Option.some.inj h
        exact .notExitSpan hsampled (of_decide_eq_true hkind)
      · intro h
        cases h with
        | notExitSpan => rfl
    · simp only [if_neg hno]
      constructor
      · intro h
        contradiction
      · intro h
        cases h with
        | notExitSpan hsampled hkind =>
          exact absurd (Bool.and_eq_true_iff.mpr ⟨hsampled, decide_eq_true hkind⟩) hno

theorem error?_markAsync {x : Span} :
    x.markAsync.error? = some e ↔ Frame.Refuses o.sampled (.recorded x) .prepareAsync e := by
  unfold Span.markAsync
  by_cases hasync : x.isAsync = true
  · rw [if_pos hasync]
    constructor
    · intro h
      obtain rfl := Option.some.inj h
      exact .alreadyAsync hasync
    · intro h
      cases h with
      | alreadyAsync => rfl
      | alreadyClosed hplain =>
        rw [hasync] at hplain
        contradiction
  rw [if_neg hasync]
  by_cases hclosed : x.isClosed = true
  · rw [if_pos hclosed]
    constructor
    · intro h
      obtain rfl := Option.some.inj h
      exact .alreadyClosed (by simpa using hasync) hclosed
    · intro h
      cases h with
      | alreadyAsync hasync' => exact absurd hasync' hasync
      | alreadyClosed => rfl
  · rw [if_neg hclosed]
    constructor
    · intro h
      contradiction
    · intro h
      cases h with
      | alreadyAsync hasync' => exact absurd hasync' hasync
      | alreadyClosed hplain hclosed' => exact absurd hclosed' hclosed

theorem error?_prepareAsync (t : Tracer) (hstack : o.stack = f :: rest) :
    (o.prepareAsync t).error? = some e ↔ f.Refuses o.sampled .prepareAsync e := by
  unfold prepareAsync
  rw [hstack]
  cases f with
  | placeholder name =>
    constructor
    · intro h
      contradiction
    · intro h
      cases h
  | recorded x =>
    rw [← error?_markAsync, ← Attempt.error?_within x.markAsync]
    -- once the span is marked, nothing else can fail
    refine Attempt.error?_bind.trans (or_iff_left ?_)
    rintro ⟨x', -, h⟩
    cases hledger : o.ledger with
    | none => rw [hledger] at h; contradiction
    | some n => rw [hledger] at h; contradiction

end OpenSegment

namespace Site

variable {s : Site} {now : UInt64} {e : UsageError}

/-- **An attempt on the open segment** is refused by an idle strand; on an active one
    the open segment decides. -/
theorem active_fails_or_iff {σ α : Type} {op : StrandOp} {g : OpenSegment → Attempt UsageError σ α}
    (h : s.strand.Standing) (hop : op.needsSegment = true)
    (hg : ∀ o f rest, o.stack = f :: rest →
      ((g o).error? = some e ↔ f.Refuses o.sampled op e)) :
    (s.active.error? = some e ∨ ∃ o, s.active = .ok o ∧ (g o).error? = some e) ↔
      s.strand.Refuses op e := by
  cases hactive : s.strand.active with
  | none =>
    rw [Strand.refuses_of_idle hactive hop, active_of_idle hactive]
    simp only [Attempt.error?_raised, Attempt.error?_fail, Attempt.raised_eq_ok]
    constructor
    · rintro (hfails | ⟨o, hok, -⟩)
      · exact (Option.some.inj hfails).symm
      · contradiction
    · intro he
      rw [he]
      exact .inl rfl
  | some o =>
    obtain ⟨f, rest, hstack⟩ := List.exists_cons_of_ne_nil (h o hactive)
    rw [Strand.refuses_of_active hactive hstack, ← hg o f rest hstack, active_eq_ok.mpr hactive]
    constructor
    · rintro (hfails | ⟨o', hok, hfails⟩)
      · contradiction
      · obtain rfl := Except.ok.inj hok
        exact hfails
    · exact fun hfails => .inr ⟨o, rfl, hfails⟩

theorem error?_stop (h : s.strand.Standing) (expected : Option Int) :
    (s.stop expected now).error? = some e ↔ s.strand.Refuses (.stop expected) e := by
  refine Attempt.error?_bind.trans (active_fails_or_iff h rfl fun o f rest hstack => ?_)
  refine Attempt.error?_bind.trans ((or_iff_left ?_).trans ?_)
  · rintro ⟨x, -, hok⟩
    contradiction
  · rw [Attempt.error?_raised, Attempt.error?_within, OpenSegment.stop, Attempt.error?_map,
      Attempt.error?_within, OpenSegment.error?_pop hstack]

theorem error?_inject (h : s.strand.Standing) (k : Carrier) :
    (s.inject k now).error? = some e ↔ s.strand.Refuses (.inject k) e := by
  refine Attempt.error?_bind.trans ?_
  simp only [Attempt.error?_within, Attempt.within_eq_ok, Attempt.error?_raised]
  exact active_fails_or_iff h rfl fun o f rest hstack => OpenSegment.error?_inject hstack k now

/-- Whatever was read from the carrier, it can be received while a segment is open. -/
theorem error?_receive (h : s.strand.Standing) (k : Carrier) (inbound : Inbound) :
    (s.receive inbound now).error? = some e ↔ s.strand.Refuses (.extract k) e := by
  refine Attempt.error?_bind.trans (active_fails_or_iff h rfl fun o f rest hstack => ?_)
  constructor
  · intro hfails
    cases inbound with
    | absent => contradiction
    | ignored => contradiction
    | remote c =>
      have hreceive : (o.receive c now).error? = some e := by
        rcases Attempt.error?_bind.mp hfails with hfirst | ⟨x, -, hok⟩
        · rwa [Attempt.error?_raised, Attempt.error?_within] at hfirst
        · contradiction
      rw [OpenSegment.receive, Attempt.error?_map, OpenSegment.pop_none hstack] at hreceive
      contradiction
  · intro hrefuses
    cases hrefuses

theorem error?_activeFrame (h : s.strand.Standing) :
    s.activeFrame.error? = some e ↔ s.strand.Refuses .active e := by
  refine Attempt.error?_bind.trans (active_fails_or_iff h rfl fun o f rest hstack => ?_)
  rw [OpenSegment.active?, hstack, List.head?_cons]
  constructor
  · intro hfails
    contradiction
  · intro hrefuses
    cases hrefuses

theorem error?_edit (h : s.strand.Standing) (edits : List Edit) :
    (s.edit edits now).error? = some e ↔ s.strand.Refuses (.edit edits) e := by
  refine Attempt.error?_bind.trans (active_fails_or_iff h rfl fun o f rest hstack => ?_)
  rw [hstack]
  constructor
  · intro hfails
    contradiction
  · intro hrefuses
    cases hrefuses

theorem error?_prepareAsync (h : s.strand.Standing) :
    s.prepareAsync.error? = some e ↔ s.strand.Refuses .prepareAsync e := by
  refine Attempt.error?_bind.trans (active_fails_or_iff h rfl fun o f rest hstack => ?_)
  refine Attempt.error?_bind.trans ((or_iff_left ?_).trans ?_)
  · rintro ⟨x, -, hok⟩
    contradiction
  · rw [Attempt.error?_raised, Attempt.error?_within,
      OpenSegment.error?_prepareAsync s.tracer hstack]

end Site

/-! ### What is noted -/

namespace Logged

variable {α β : Type}

/-- **Quiet**: no error is noted. -/
def Quiet (x : Logged α) : Prop := ∀ d ∈ x.notes, d.severity ≠ .error

theorem quiet_pure (a : α) : (pure a : Logged α).Quiet := fun d hd => by contradiction

theorem quiet_note {d : Diagnostic} (h : d.severity ≠ .error) : (note d).Quiet := by
  intro d' hd'
  rw [List.mem_singleton.mp hd']
  exact h

theorem Quiet.bind {x : Logged α} (hx : x.Quiet) {f : α → Logged β} (hf : ∀ a, (f a).Quiet) :
    (x >>= f).Quiet := by
  intro d hd
  rcases List.mem_append.mp hd with hfirst | hsecond
  · exact hx d hfirst
  · exact hf x.value d hsecond

theorem quiet_foldlM {f : β → α → Logged β} (hf : ∀ b a, (f b a).Quiet) (xs : List α) (b : β) :
    (xs.foldlM f b).Quiet := by
  induction xs generalizing b with
  | nil => exact quiet_pure b
  | cons a xs ih =>
    rw [List.foldlM_cons]
    exact (hf b a).bind ih

end Logged

open Logged (quiet_pure quiet_note quiet_foldlM)

namespace Correlation

theorem quiet_put (c : Correlation) (key value : String) : (c.put key value).Quiet := by
  unfold put
  split
  · exact quiet_pure _
  · split
    · exact quiet_pure _
    · split
      · exact (quiet_note (by simp [Diagnostic.severity])).bind fun _ => quiet_pure _
      · split
        · exact quiet_pure _
        · exact (quiet_note (by simp [Diagnostic.severity])).bind fun _ => quiet_pure _

theorem quiet_putPair (c : Correlation) (s : List Char) : (c.putPair s).Quiet := by
  unfold putPair
  split
  · exact (c.quiet_put _ _).bind fun _ => quiet_pure _
  · exact (quiet_note (by simp [Diagnostic.severity])).bind fun _ => quiet_pure _

theorem quiet_decode (c : Correlation) (header : String) : (c.decode header).Quiet :=
  quiet_foldlM quiet_putPair _ c

end Correlation

theorem Extension.quiet_decode (header : String) : (decode header).Quiet := by
  unfold decode
  split
  · exact quiet_pure _
  · exact (quiet_note (by simp [Diagnostic.severity])).bind fun _ => quiet_pure _

namespace RemoteContext

theorem quiet_absentFor (f : HeaderFault) : (absentFor f).Quiet :=
  (quiet_note (by simp [Diagnostic.severity])).bind fun _ => quiet_pure _

/-- Faults of the headers are no errors. -/
theorem quiet_readFields (limits : Correlation.Limits) (k : Carrier) (fields : List (List Char)) :
    (readFields limits k fields).Quiet := by
  unfold readFields
  split
  · split
    · exact quiet_absentFor _
    · extract_lets afterCorrelation
      have hcorrelation : ∀ c, (afterCorrelation c).Quiet := by
        intro c
        unfold afterCorrelation
        extract_lets afterExtension
        have hextension : ∀ x, (afterExtension x).Quiet := by
          intro x
          unfold afterExtension
          extract_lets texts
          clear_value texts
          split
          · exact quiet_absentFor _
          · exact quiet_pure _
        split
        · exact (Extension.quiet_decode _).bind hextension
        · exact (quiet_pure _).bind hextension
      split
      · exact (Correlation.quiet_decode _ _).bind hcorrelation
      · exact (quiet_pure _).bind hcorrelation
  · exact quiet_absentFor _

theorem quiet_extract (limits : Correlation.Limits) (k : Carrier) : (extract limits k).Quiet := by
  unfold extract
  split
  · unfold readLink
    split
    · exact quiet_pure _
    · exact quiet_readFields _ _ _
    · exact quiet_absentFor _
  · exact quiet_pure _

end RemoteContext

/-! ### Refused steps -/

open Attempt (once)

namespace Outcome

variable {σ α : Type} {s : σ} {a : Attempt UsageError σ α} {f : α → Logged (Outcome σ)}
  {e : UsageError}

/-- An attempt whose success is no usage error is answered with its own error. -/
theorem reply_ofAttempt (hf : ∀ x e, (f x).value.reply ≠ .usage e) :
    (ofAttempt .usage (a.map f)).value.reply = .usage e ↔ a.error? = some e := by
  cases a with
  | error x =>
    show Reply.usage x.value.error = .usage e ↔ some x.value.error = some e
    simp only [Reply.usage.injEq, Option.some.injEq]
  | ok x =>
    show (f x).value.reply = .usage e ↔ _
    constructor
    · intro h
      exact absurd h (hf x e)
    · intro h
      contradiction

/-- An atomic attempt that fails leaves the state, hands over nothing and notes its error
    once. -/
theorem ofAttempt_of_usage (hatomic : a.Atomic once s) (hf : ∀ x e, (f x).value.reply ≠ .usage e)
    (h : (ofAttempt .usage (a.map f)).value.reply = .usage e) :
    ofAttempt .usage (a.map f) = ⟨.of (.usage e) s, [.usage e]⟩ := by
  rw [hatomic.eq_of_error? ((reply_ofAttempt hf).mp h)]
  rfl

end Outcome

namespace Site

variable {s : Site} {now : UInt64} {op : StrandOp} {e : UsageError}

/-- **A step is refused** as its strand says. -/
theorem reply_step (h : s.strand.Standing) :
    (s.step now op).value.reply = .usage e ↔ s.strand.Refuses op e := by
  cases op with
  | stop expected =>
    exact (Outcome.reply_ofAttempt fun x e hx => by contradiction).trans (error?_stop h expected)
  | inject k =>
    refine (Outcome.reply_ofAttempt fun x e hx => by contradiction).trans ?_
    rw [Attempt.error?_within]
    exact error?_inject h k
  | extract k =>
    exact (Outcome.reply_ofAttempt fun x e hx => by contradiction).trans (error?_receive h k _)
  | active =>
    exact (Outcome.reply_ofAttempt fun x e hx => by contradiction).trans (error?_activeFrame h)
  | edit edits =>
    exact (Outcome.reply_ofAttempt fun x e hx => by contradiction).trans (error?_edit h edits)
  | prepareAsync =>
    exact (Outcome.reply_ofAttempt fun x e hx => by contradiction).trans (error?_prepareAsync h)
  -- the other operations need no segment, and are never refused
  | _ =>
    constructor
    · intro hreply
      contradiction
    · intro hrefuses
      have := hrefuses.needsSegment
      contradiction

theorem refused_of_eq (h : s.step now op = ⟨.of (.usage e) s, [.usage e]⟩) :
    (s.step now op).value = .of (.usage e) s ∧
      (s.step now op).notes.filter (fun d => d.severity = .error) = [.usage e] := by
  rw [h]
  exact ⟨rfl, rfl⟩

/-- **A refused step** has no effect, and the error that is answered is the only one
    that is noted. -/
theorem step_of_usage (hreply : (s.step now op).value.reply = .usage e) :
    (s.step now op).value = .of (.usage e) s ∧
      (s.step now op).notes.filter (fun d => d.severity = .error) = [.usage e] := by
  cases op with
  | extract k =>
    have hfails := Outcome.ofAttempt_of_usage (s.atomic_receive now _)
      (fun x e hx => by contradiction) hreply
    have hquiet := RemoteContext.quiet_extract s.tracer.config.correlationLimits k
    refine ⟨congrArg Logged.value hfails, ?_⟩
    -- the carrier was read before, and what is wrong with it is noted, but not as an error
    have hnotes : (s.step now (.extract k)).notes = (s.readCarrier k).notes ++ [.usage e] :=
      congrArg ((s.readCarrier k).notes ++ Logged.notes ·) hfails
    rw [hnotes, List.filter_append, List.filter_eq_nil_iff.mpr]
    · rfl
    · intro d hd
      simpa using hquiet d hd
  | stop expected =>
    exact refused_of_eq (Outcome.ofAttempt_of_usage (s.atomic_stop now expected)
      (fun x e hx => by contradiction) hreply)
  | inject k =>
    exact refused_of_eq (Outcome.ofAttempt_of_usage ((s.atomic_inject now k).within Prod.fst)
      (fun x e hx => by contradiction) hreply)
  | active =>
    exact refused_of_eq (Outcome.ofAttempt_of_usage s.atomic_activeFrame
      (fun x e hx => by contradiction) hreply)
  | edit edits =>
    exact refused_of_eq (Outcome.ofAttempt_of_usage (s.atomic_edit now edits)
      (fun x e hx => by contradiction) hreply)
  | prepareAsync =>
    exact refused_of_eq (Outcome.ofAttempt_of_usage s.atomic_prepareAsync
      (fun x e hx => by contradiction) hreply)
  | _ => contradiction

/-- **A carrier that is not filled** is left as it was. -/
theorem inject_of_usage {k : Carrier} (hreply : (s.step now (.inject k)).value.reply = .usage e) :
    s.inject k now = .error ⟨⟨e, (s, k)⟩, [.usage e]⟩ := by
  have hfails := (Outcome.reply_ofAttempt fun x e hx => by contradiction).mp hreply
  rw [Attempt.error?_within] at hfails
  exact (s.atomic_inject now k).eq_of_error? hfails

end Site

namespace Engine

variable {capacity : Nat} {e : Engine} {ls : List Life}

/-- Where the lives tell what the engine holds, every strand is standing. -/
theorem Tells.standing (h : e.Tells capacity ls) {k : Nat} {s : Site}
    (hsite : e.site? k = some s) : s.strand.Standing := by
  intro o hactive hempty
  obtain ⟨ls₁, l, ls₂, x, -, -, hruns, -⟩ := h.running hsite hactive
  apply hruns.frames
  rw [← hruns.outline_eq hactive]
  show o.stack.map Frame.mark = []
  rw [hempty, List.map_nil]

/-- **Usage errors** are exact and atomic, on every strand in every run: an open segment
    has spans on its stack; an operation is answered with a usage error if and only if
    the strand refuses it; and then the whole engine is as it was before, nothing was
    handed over, no other error was noted, and a carrier that was to be filled is as it was
    before, too. -/
theorem usage_errors_exact (config : Config) (reporter : Reporter) (process : String)
    (start : UInt64) (ops : List (UInt64 × Op)) {k : Nat} {s : Site}
    (hsite : ((ofTracer (.start config reporter process start)).run ops).site? k = some s)
    (now : UInt64) (op : StrandOp) :
    let e := (ofTracer (.start config reporter process start)).run ops
    let step := e.step now (.strand k op)
    (∀ o, s.strand.active = some o → o.stack ≠ []) ∧
    (∀ err, step.value.reply = .usage err ↔ s.strand.Refuses op err) ∧
    step.value.reply ≠ .usage .stackEmpty ∧
    (∀ err, step.value.reply = .usage err →
      step.value.state = e ∧ step.value.handed = none ∧
        step.notes.filter (fun d => d.severity = .error) = [.usage err] ∧
        ∀ c, op = .inject c → s.inject c now = .error ⟨⟨err, (s, c)⟩, [.usage err]⟩) := by
  intro e step
  have htells := ((tells_start config reporter process start).run ops).1
  have hstanding := htells.standing hsite
  have hstep : step = Outcome.map (e.setSite k) <$> s.step now op := by
    show e.step now (.strand k op) = _
    simp only [Engine.step, show e.site? k = some s from hsite]
    rfl
  have hreply : ∀ err, step.value.reply = .usage err ↔ s.strand.Refuses op err := by
    intro err
    rw [hstep, Logged.map_value]
    exact Site.reply_step hstanding
  refine ⟨hstanding, hreply, ?_, ?_⟩
  · intro hempty
    exact ((hreply _).mp hempty).ne_stackEmpty rfl
  · intro err herr
    rw [hstep, Logged.map_value] at herr
    obtain ⟨hvalue, hnotes⟩ := Site.step_of_usage herr
    rw [hstep, Logged.map_value, Logged.map_notes, hvalue]
    refine ⟨setSite_self hsite, rfl, hnotes, ?_⟩
    rintro c rfl
    exact Site.inject_of_usage herr

/-- An entry span that is closed by hand while it is still on the stack. -/
def closedRun : List (UInt64 × Op) :=
  [(0, .openStrand), (1, .strand 0 (.entry "/cart" none)), (2, .strand 0 (.edit [.close 2]))]

theorem usage_errors_exact_closed :
    let e := (ofTracer (.start (Config.standard "i") .collecting "p" 0)).run closedRun
    ∃ s, e.site? 0 = some s ∧ s.strand.Refuses .prepareAsync (.alreadyClosed 0) ∧
      (e.step 3 (.strand 0 .prepareAsync)).value.reply = .usage (.alreadyClosed 0) ∧
      (e.step 3 (.strand 0 .prepareAsync)).value.state = e := by
  intro e
  have hrun : (e.site? 0).any (fun s => s.strand.active.any fun o =>
      o.stack.length == 1 && (o.active?.bind Frame.span?).any fun x =>
        x.id == 0 && !x.isAsync && x.isClosed) = true := by decide +kernel
  obtain ⟨s, hsite, hrun⟩ := (Option.any_eq_true _ _).mp hrun
  obtain ⟨o, hactive, hrun⟩ := (Option.any_eq_true _ _).mp hrun
  obtain ⟨hlength, htop⟩ := Bool.and_eq_true_iff.mp hrun
  obtain ⟨f, hstack⟩ := List.length_eq_one_iff.mp (beq_iff_eq.mp hlength)
  rw [OpenSegment.active?, hstack, List.head?_cons, Option.bind_some] at htop
  obtain ⟨x, hx, hspan⟩ := (Option.any_eq_true _ _).mp htop
  obtain rfl := Frame.eq_recorded hx
  simp only [Bool.and_eq_true, beq_iff_eq, Bool.not_eq_true'] at hspan
  obtain ⟨⟨hid, hplain⟩, hclosed⟩ := hspan
  have hrefuses : s.strand.Refuses .prepareAsync (.alreadyClosed 0) := by
    have h := Strand.Refuses.active hactive hstack (.alreadyClosed hplain hclosed)
    rwa [hid] at h
  obtain ⟨-, hexact, -, hatomic⟩ :=
    usage_errors_exact (Config.standard "i") .collecting "p" 0 closedRun hsite 3 .prepareAsync
  have hreply := (hexact _).mpr hrefuses
  exact ⟨s, hsite, hrefuses, hreply, (hatomic _ hreply).1⟩

end Engine

end TraceLink
