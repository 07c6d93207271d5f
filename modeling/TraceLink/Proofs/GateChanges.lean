import TraceLink.Proofs.MatchedTracers

/-! # Changes of the gate

    The gate is asked once for each segment, when it begins. What an active strand does
    is the same under any other gate, and a segment that begins under another gate differs
    in nothing but the decision. -/

namespace TraceLink

/-- The tracer with another gate. -/
def Tracer.withGate (t : Tracer) (g : Gate) : Tracer := { t with gate := g }

/-- The site with another gate. -/
def Site.withGate (s : Site) (g : Gate) : Site := { s with tracer := s.tracer.withGate g }

variable (t : Tracer) (o : OpenSegment) (g : Gate)

/-! ### Tracers -/

namespace Tracer

theorem reportDue_withGate (due : Option Segment) :
    ((t.withGate g).reportDue due).value = (t.reportDue due).value.withGate g := by
  cases due with
  | none => rfl
  | some segment => rfl

theorem handle_withGate (a : AsyncHandle) (now : UInt64) (op : HandleOp) :
    ((t.withGate g).handle a now op).value =
      ((t.handle a now op).value.1, (t.handle a now op).value.2.withGate g) := by
  cases a with
  | idle => rfl
  | span n id => rfl

end Tracer

/-! ### Open segments -/

namespace OpenSegment

theorem retire_withGate (f : Frame) (now : UInt64) :
    (o.retire (t.withGate g) f now).value =
      ((o.retire t f now).value.1, (o.retire t f now).value.2.withGate g) := by
  cases f with
  | placeholder name => rfl
  | recorded s =>
    cases hasync : s.isAsync with
    | false =>
      rw [o.retire_of_plain _ now hasync, o.retire_of_plain _ now hasync]
    | true =>
      cases hledger : o.ledger with
      | none => rw [retire_of_stray _ now hasync hledger, retire_of_stray _ now hasync hledger]
      | some n =>
        rw [retire_of_ledger _ now hasync hledger, retire_of_ledger _ now hasync hledger]
        rfl

theorem finish_withGate :
    (o.finish (t.withGate g)).value =
      ((o.finish t).value.1, (o.finish t).value.2.withGate g) := by
  unfold finish
  cases o.sampled with
  | false => rfl
  | true =>
    cases o.ledger with
    | none => rfl
    | some n => rfl

theorem prepareAsync_withGate :
    Attempt.Rel (fun x x' => x' = (x.1, x.2.1, x.2.2.withGate g)) (o.prepareAsync t)
      (o.prepareAsync (t.withGate g)) := by
  unfold prepareAsync
  cases o.stack with
  | nil => exact .fail _ _ _
  | cons f rest =>
    cases f with
    | placeholder name => exact .ok rfl
    | recorded s =>
      refine ((Attempt.Rel.self s.markAsync).within _ _).bind ?_
      rintro s _ rfl
      cases o.ledger with
      | none => exact .ok rfl
      | some n => exact .ok rfl

end OpenSegment

/-! ### Active strands -/

namespace Site

variable {s : Site} {o : OpenSegment}

theorem openSpan_withGate (h : s.strand.active = some o) (kind : SpanKind) (name : String)
    (inbound : Inbound) (now : UInt64) :
    ((s.withGate g).openSpan kind name inbound now).value =
      ((s.openSpan kind name inbound now).value.1,
        (s.openSpan kind name inbound now).value.2.withGate g) := by
  have h' : (s.withGate g).strand.active = some o := h
  unfold openSpan
  simp only [Logged.bind_value, Logged.pure_value, segmentFor_of_active _ _ _ h,
    segmentFor_of_active _ _ _ h']
  rfl

theorem active_of_continued (h : s.strand.active = some o) (snapshot : Snapshot) :
    ∃ o', (s.continued snapshot).value.strand.active = some o' := by
  have hcontinued := s.continued_spec snapshot
  generalize (s.continued snapshot).value = s' at hcontinued ⊢
  cases hcontinued with
  | pending hidle hvalid =>
    rw [h] at hidle
    contradiction
  | invalid hvalid => exact ⟨o, h⟩
  | ignored hactive id => exact ⟨_, rfl⟩
  | own hactive hvalid hown => exact ⟨o, h⟩
  | joined hactive hvalid hother => exact ⟨_, rfl⟩

theorem continued_withGate (s : Site) (snapshot : Snapshot) :
    ((s.withGate g).continued snapshot).value = (s.continued snapshot).value.withGate g := by
  unfold continued
  split
  · rfl
  · rw [show (s.withGate g).strand = s.strand from rfl]
    cases s.strand.active with
    | none => rfl
    | some o =>
      cases snapshot with
      | ignored id => rfl
      | sampled c =>
        simp only
        split
        · rfl
        · rfl

theorem discard_withGate (s : Site) :
    (s.withGate g).discard.value = (s.discard.value.1, s.discard.value.2.withGate g) := by
  unfold discard
  rw [show (s.withGate g).strand = s.strand from rfl]
  cases s.strand.continuation with
  | none => rfl
  | some snapshot => rfl

/-- Attempts at the two sites are refused both, with the same error, or what they make of
    the sites differs in the gate. -/
theorem ofAttempt_withGate {a a' : Attempt UsageError Site (Logged (Outcome Site))}
    (ha : a.Atomic Attempt.once s) (ha' : a'.Atomic Attempt.once (s.withGate g))
    (h : Attempt.Rel (fun x x' => x'.value = x.value.map (withGate · g)) a a') :
    (Outcome.ofAttempt .usage a').value =
      (Outcome.ofAttempt .usage a).value.map (withGate · g) :=
  Outcome.rel_ofAttempt (R := fun x x' => x' = x.map (withGate · g)) ha ha' (fun _ => rfl) h

theorem prepareAsync_withGate (h : s.strand.active = some o) :
    Attempt.Rel (fun x x' => x' = (x.1, x.2.withGate g)) s.prepareAsync
      (s.withGate g).prepareAsync := by
  have h' : (s.withGate g).strand.active = some o := h
  unfold prepareAsync active
  rw [h, h']
  refine ((o.prepareAsync_withGate s.tracer g).within _ _).raised.bind ?_
  rintro x _ rfl
  exact .ok rfl

theorem stop_withGate (h : s.strand.active = some o) (expected : Option Int) (now : UInt64) :
    Attempt.Rel (fun x x' => x'.value = (x.value.1, x.value.2.1, x.value.2.2.withGate g))
      (s.stop expected now) ((s.withGate g).stop expected now) := by
  have h' : (s.withGate g).strand.active = some o := h
  have hstop : Attempt.Rel (fun x x' => x'.value = (x.value.1, x.value.2.withGate g))
      (o.stop s.tracer expected now) (o.stop (s.tracer.withGate g) expected now) := by
    refine ((Attempt.Rel.self (o.pop expected)).within _ _).map ?_
    rintro _ popped rfl
    exact popped.2.retire_withGate s.tracer g popped.1 now
  unfold stop active
  rw [h, h']
  refine (hstop.within _ _).raised.bind fun {x x'} hx => .ok ?_
  simp only [Logged.bind_value, hx]
  -- the segment ends if its stack is empty
  split
  · simp only [Logged.bind_value, OpenSegment.finish_withGate]
    rfl
  · rfl

theorem receive_withGate (h : s.strand.active = some o) (inbound : Inbound) (now : UInt64) :
    Attempt.Rel (fun x x' => x'.value = x.value.withGate g) (s.receive inbound now)
      ((s.withGate g).receive inbound now) := by
  have h' : (s.withGate g).strand.active = some o := h
  unfold receive active
  rw [h, h']
  cases inbound with
  | absent => exact .ok rfl
  | ignored => exact .ok rfl
  | remote c =>
    refine ((Attempt.Rel.self (o.receive c now)).within _ _).raised.bind ?_
    rintro _ step rfl
    exact .ok rfl

theorem edit_withGate (h : s.strand.active = some o) (edits : List Edit) (now : UInt64) :
    Attempt.Rel (fun x x' => x'.value = (x.value.1, x.value.2.1, x.value.2.2.withGate g))
      (s.edit edits now) ((s.withGate g).edit edits now) := by
  have h' : (s.withGate g).strand.active = some o := h
  unfold edit active
  rw [h, h']
  simp only [bind, Except.bind]
  cases o.stack with
  | nil => exact .error rfl
  | cons f rest => exact .ok rfl

theorem inject_withGate (h : s.strand.active = some o) (k : Carrier) (now : UInt64) :
    Attempt.Rel (fun x x' => x' = x) (s.inject k now) ((s.withGate g).inject k now) := by
  have h' : (s.withGate g).strand.active = some o := h
  unfold inject active
  rw [h, h']
  exact ((Attempt.Rel.self (o.inject k now)).within _ _).raised

theorem activeFrame_withGate (h : s.strand.active = some o) :
    Attempt.Rel (fun x x' => x' = x) s.activeFrame (s.withGate g).activeFrame := by
  have h' : (s.withGate g).strand.active = some o := h
  unfold activeFrame active
  rw [h, h']
  simp only [bind, Except.bind]
  cases o.active? with
  | none => exact .error rfl
  | some f => exact .ok rfl

theorem leave_withGate (s : Site) :
    (s.withGate g).leave.value = s.leave.value.withGate g := by
  unfold leave
  rw [show (s.withGate g).strand = s.strand from rfl]
  cases s.strand.active with
  | none => rfl
  | some o => rfl

/-- **An active strand** does not look at the gate: what it does under another one has the
    same outcome, with this gate. -/
theorem step_withGate (h : s.strand.active = some o) (now : UInt64) (op : StrandOp) :
    ((s.withGate g).step now op).value = (s.step now op).value.map (withGate · g) := by
  have h' : (s.withGate g).strand.active = some o := h
  cases op with
  | entry name k =>
    have hinbound : (s.withGate g).inboundOf k = s.inboundOf k := rfl
    simp only [step, Logged.bind_value, Logged.pure_value, entry_value, hinbound,
      openSpan_withGate g h]
    rfl
  | entryFrom name headers =>
    have hinbound (k : Option Carrier) : (s.withGate g).inboundOf k = s.inboundOf k := rfl
    have hlabel : (s.withGate g).label = s.label := rfl
    simp only [step, entryFrom, Logged.bind_value, Logged.pure_value, entry_value, hinbound,
      hlabel, openSpan_withGate g h]
    rfl
  | exit name peer k =>
    simp only [step, exit, Logged.bind_value, Logged.pure_value, segmentFor_of_active _ _ _ h,
      segmentFor_of_active _ _ _ h']
    rfl
  | inner name =>
    simp only [step, inner, Logged.bind_value, Logged.pure_value, openSpan_withGate g h]
    rfl
  | innerWith name snapshot =>
    obtain ⟨o', ho'⟩ := active_of_continued h snapshot
    simp only [step, Logged.bind_value, Logged.pure_value, innerWith_of_active h,
      innerWith_of_active h', continued_withGate, openSpan_withGate g ho']
    rfl
  | stop expected =>
    refine ofAttempt_withGate g ((s.atomic_stop now expected).map _)
      (((s.withGate g).atomic_stop now expected).map _)
      ((stop_withGate g h expected now).map fun {x x'} hx => ?_)
    simp only [Logged.bind_value, hx, handOver, Logged.pure_value]
    exact congrArg (fun t => Outcome.mk _ _ (Site.mk t _)) (Tracer.reportDue_withGate _ g _)
  | capture => rfl
  | continued snapshot =>
    simp only [step, Logged.bind_value, Logged.pure_value, continued_withGate]
    rfl
  | discard =>
    simp only [step, Logged.bind_value, Logged.pure_value, discard_withGate]
    rfl
  | inject k =>
    refine ofAttempt_withGate g (((s.atomic_inject now k).within Prod.fst).map _)
      ((((s.withGate g).atomic_inject now k).within Prod.fst).map _)
      (((inject_withGate g h k now).within Prod.fst Prod.fst).map ?_)
    rintro x _ rfl
    rfl
  | extract k =>
    have hread : (s.withGate g).readCarrier k = s.readCarrier k := rfl
    simp only [step, Logged.bind_value, hread]
    refine ofAttempt_withGate g ((s.atomic_receive now _).map _)
      (((s.withGate g).atomic_receive now _).map _)
      ((receive_withGate g h _ now).map fun {x x'} hx => ?_)
    simp only [Logged.bind_value, Logged.pure_value, hx]
    rfl
  | active =>
    refine ofAttempt_withGate g (s.atomic_activeFrame.map _)
      ((s.withGate g).atomic_activeFrame.map _) ((activeFrame_withGate g h).map ?_)
    rintro f _ rfl
    rfl
  | edit edits =>
    refine ofAttempt_withGate g ((s.atomic_edit now edits).map _)
      (((s.withGate g).atomic_edit now edits).map _)
      ((edit_withGate g h edits now).map fun {x x'} hx => ?_)
    simp only [Logged.bind_value, Logged.pure_value, hx]
    rfl
  | prepareAsync =>
    refine ofAttempt_withGate g (s.atomic_prepareAsync.map _)
      ((s.withGate g).atomic_prepareAsync.map _) ((prepareAsync_withGate g h).map ?_)
    rintro x _ rfl
    rfl
  | putCorrelation key value =>
    simp only [step, putCorrelation, h, h', Logged.bind_value, Logged.pure_value]
    rfl
  | scratch op => rfl
  | reset =>
    have hreset : (s.withGate g).reset.value = s.reset.value.withGate g := by
      unfold reset
      exact congrArg Prod.snd
        (discard_withGate g { s with strand := { s.strand with scratch := {} } })
    simp only [step, Logged.bind_value, Logged.pure_value, hreset]
    rfl

end Site

/-! ### Segments that begin -/

namespace OpenSegment

/-- The segment with another decision. -/
def decided (o : OpenSegment) (sampled : Bool) : OpenSegment := { o with sampled := sampled }

theorem continueFrom_decided (sampled : Bool) (c : Captured) :
    ((o.decided sampled).continueFrom c).value = (o.continueFrom c).value.decided sampled := by
  unfold continueFrom
  simp only [Logged.bind_value, Logged.pure_value]
  cases c.extension.skipAnalysis with
  | true => rfl
  | false => rfl

/-- **A segment that begins under another gate** differs in the decision only. -/
theorem start_withGate (ordinal now : UInt64) (name : String) (inherited : Inherited)
    (continuation : Option Snapshot) :
    (start (t.withGate g) ordinal now name inherited continuation).value.1 =
      (start t ordinal now name inherited continuation).value.1.decided
        (g.judge name (decision inherited continuation) now).value.1 := by
  rw [start_value, start_value]
  cases continuation with
  | none => rfl
  | some snapshot =>
    cases snapshot with
    | ignored id => rfl
    | sampled c => exact continueFrom_decided (blank _ _ _) _ c

end OpenSegment

end TraceLink
