import TraceLink.Proofs.MatchedTracers

/-! # Matched sites

    Two sites are alike if their strands and their tracers are. Every operation has alike
    outcomes at both, and joins to the matching what it gives to its strand: the names of a
    segment that begins, or the handle of a span that is prepared. -/

namespace TraceLink

/-- The handle that an operation gives to its strand. -/
def StrandOp.given? (op : StrandOp) (reply : Reply) : Option AsyncHandle :=
  match op, reply with
  | .prepareAsync, .handle a => some a
  | _, _ => none

namespace StrandOp

/-- Nothing is given by what is no preparation. -/
theorem given?_of_ne {op : StrandOp} (h : op ≠ .prepareAsync) (reply : Reply) :
    op.given? reply = none := by
  unfold given?
  split
  · exact absurd rfl h
  · rfl

/-- Nothing is given unless the reply is a handle. -/
theorem given?_of_not_handle (op : StrandOp) {reply : Reply} (h : ∀ a, reply ≠ .handle a) :
    op.given? reply = none := by
  unfold given?
  split
  · exact absurd rfl (h _)
  · rfl

end StrandOp

/-- Alike replies give a handle both, or neither does. -/
theorem Reply.Alike.given?_isSome {m : Matching} {r r' : Reply} (h : r.Alike m r')
    (op : StrandOp) : (op.given? r).isSome = (op.given? r').isSome := by
  cases h with
  | same r => rfl
  | snapshot hν inherited s =>
    rw [op.given?_of_not_handle fun a ha => by contradiction,
      op.given?_of_not_handle fun a ha => by contradiction]
  | carrier hν inherited c k =>
    rw [op.given?_of_not_handle fun a ha => by contradiction,
      op.given?_of_not_handle fun a ha => by contradiction]
  | sent hν inherited c f k =>
    rw [op.given?_of_not_handle fun a ha => by contradiction,
      op.given?_of_not_handle fun a ha => by contradiction]
  | handle hmem => cases op <;> rfl

namespace Site

/-- The names of a segment that begins now, none if a segment is open. -/
def fresh (s : Site) (now : UInt64) : Option Names :=
  if s.strand.isActive then none else some (s.tracer.ids.names s.strand.ordinal now)

/-- The names that an operation gives to its strand: those of the segment that begins. -/
def begins (s : Site) (now : UInt64) (op : StrandOp) : Option Names :=
  op.opens?.bind fun _ => s.fresh now

/-- **Sites that are alike**. -/
structure Alike (m : Matching) (gap : Counters) (s s' : Site) : Prop where
  tracer : Tracer.Alike m gap s.tracer s'.tracer
  strand : Strand.Alike m s.strand s'.strand

end Site

/-! ### Attempts -/

/-- Attempts that are refused leave sites alike. -/
theorem Outcome.alike_ofAttempt {m : Matching} {gap : Counters} {s s' : Site}
    (h : s.Alike m gap s') {a a' : Attempt UsageError Site (Logged (Outcome Site))}
    (hatomic : a.Atomic Attempt.once s) (hatomic' : a'.Atomic Attempt.once s')
    (ha : Attempt.Rel (fun x x' => Outcome.Alike m (Site.Alike m gap) x.value x'.value) a a') :
    Outcome.Alike m (Site.Alike m gap) (ofAttempt .usage a).value (ofAttempt .usage a').value :=
  rel_ofAttempt hatomic hatomic' (fun _ => ⟨.same _, .none, h⟩) ha

namespace Site.Alike

variable {m : Matching} {gap : Counters} {s s' : Site}

/-- An outcome without a segment, with the same reply. -/
theorem outcome (h : s.Alike m gap s') (reply : Reply) :
    Outcome.Alike m (Site.Alike m gap) (.of reply s) (.of reply s') :=
  ⟨.same reply, .none, h⟩

/-- Neither strand has an open segment, or both have and they are alike. -/
theorem active_cases (h : s.Alike m gap s') :
    (s.strand.active = none ∧ s'.strand.active = none) ∨
      ∃ o o', s.strand.active = some o ∧ s'.strand.active = some o' ∧ o.Alike m o' := by
  have hactive := h.strand.active
  generalize s.strand.active = o, s'.strand.active = o' at hactive
  cases hactive with
  | none => exact .inl ⟨rfl, rfl⟩
  | some ho => exact .inr ⟨_, _, rfl, rfl, ho⟩

theorem active (h : s.Alike m gap s') :
    Attempt.Rel (OpenSegment.Alike m) s.active s'.active := by
  unfold Site.active
  rcases h.active_cases with ⟨hidle, hidle'⟩ | ⟨o, o', ho, ho', halike⟩
  · rw [hidle, hidle']
    exact .error rfl
  · rw [ho, ho']
    exact .ok halike

theorem isActive (h : s.Alike m gap s') : s'.strand.isActive = s.strand.isActive := by
  unfold Strand.isActive
  rcases h.active_cases with ⟨hidle, hidle'⟩ | ⟨o, o', ho, ho', -⟩
  · rw [hidle, hidle']
  · rw [ho, ho']
    rfl

theorem withActive (h : s.Alike m gap s') {o o' : OpenSegment} (ho : o.Alike m o') :
    (s.withActive o).Alike m gap (s'.withActive o') where
  tracer := h.tracer
  strand := { h.strand with active := .some ho }

theorem readCarrier (h : s.Alike m gap s') (k : Carrier) : s'.readCarrier k = s.readCarrier k := by
  unfold Site.readCarrier
  rw [h.tracer.config]

theorem inboundOf (h : s.Alike m gap s') (k : Option Carrier) : s'.inboundOf k = s.inboundOf k := by
  cases k with
  | none => rfl
  | some k => exact congrArg Logged.value (h.readCarrier k)

/-! ### Opening spans -/

theorem segmentFor (h : s.Alike m gap s') (now : UInt64) (name : String) (inherited : Inherited) :
    let m' := m.joined (s.fresh now) (s'.fresh now) none none
    let found := (s.segmentFor name inherited now).value
    let found' := (s'.segmentFor name inherited now).value
    found.1.Alike m' found'.1 ∧ found.2.Alike m' gap found'.2 := by
  unfold fresh Strand.isActive Site.segmentFor
  rcases h.active_cases with ⟨hidle, hidle'⟩ | ⟨o, o', ho, ho', halike⟩
  · obtain ⟨hsegment, htracer⟩ := h.tracer.start s.strand.ordinal now name inherited
      s.strand.continuation
    simp only [hidle, hidle', Option.isSome_none, Bool.false_eq_true, if_false,
      Logged.bind_value, Logged.pure_value, h.strand.ordinal, h.strand.continuation]
    exact ⟨hsegment, htracer, ⟨rfl, .none, rfl, h.strand.scratch⟩⟩
  · simp only [ho, ho', Option.isSome_some, if_true, Matching.joined_none]
    exact ⟨halike, h⟩

theorem openSpan (h : s.Alike m gap s') (now : UInt64) (kind : SpanKind) (name : String)
    (inbound : Inbound) :
    (s'.openSpan kind name inbound now).value.1 = (s.openSpan kind name inbound now).value.1 ∧
    (s.openSpan kind name inbound now).value.2.Alike
      (m.joined (s.fresh now) (s'.fresh now) none none) gap
      (s'.openSpan kind name inbound now).value.2 := by
  obtain ⟨hsegment, hsite⟩ := h.segmentFor now name (inheritedFrom inbound).1
  unfold Site.openSpan
  simp only [Logged.bind_value, Logged.pure_value, hsite.tracer.config]
  obtain ⟨hframe, hopen⟩ := hsegment.openSpan now
    (s.segmentFor name (inheritedFrom inbound).1 now).value.2.tracer.config kind name
    (inheritedFrom inbound).2
  exact ⟨hframe, hsite.withActive hopen⟩

/-- The answer to an exit span is alike, and so are the sites after it. -/
theorem exit (h : s.Alike m gap s') (now : UInt64) (name peer : String) (k : Option Carrier) :
    let m' := m.joined (s.fresh now) (s'.fresh now) none none
    let opened := (s.exit name peer k now).value
    let opened' := (s'.exit name peer k now).value
    Reply.Alike m' (.sent opened.1 opened.2.1) (.sent opened'.1 opened'.2.1) ∧
      opened.2.2.Alike m' gap opened'.2.2 := by
  obtain ⟨hsegment, hsite⟩ := h.segmentFor now name .undecided
  unfold Site.exit
  simp only [Logged.bind_value, Logged.pure_value, hsite.tracer.config]
  obtain ⟨hreply, hopen⟩ := hsegment.openExit now
    (s.segmentFor name .undecided now).value.2.tracer.config name peer k
  exact ⟨hreply, hsite.withActive hopen⟩

/-! ### Snapshots -/

theorem capture (h : s.Alike m gap s') :
    Reply.Alike m (.snapshot s.capture) (.snapshot s'.capture) := by
  unfold Site.capture
  rcases h.active_cases with ⟨hidle, hidle'⟩ | ⟨o, o', ho, ho', halike⟩
  · rw [hidle, hidle']
    exact .same _
  · rw [ho, ho']
    exact halike.capture

/-- A snapshot of both open segments, or of neither, is continued. -/
theorem continued (h : s.Alike m gap s') {snapshot : Snapshot}
    (hsame : s'.strand.isCurrent snapshot = s.strand.isCurrent snapshot) :
    (s.continued snapshot).value.Alike m gap (s'.continued snapshot).value := by
  unfold Site.continued
  by_cases hvalid : snapshot.isValid = true
  · simp only [hvalid, Bool.not_true, Bool.false_eq_true, if_false, hsame]
    rcases h.active_cases with ⟨hidle, hidle'⟩ | ⟨o, o', ho, ho', halike⟩
    · rw [hidle, hidle']
      exact ⟨h.tracer, ⟨h.strand.ordinal, .none, rfl, h.strand.scratch⟩⟩
    · rw [ho, ho']
      cases snapshot with
      | ignored id => exact h.withActive halike.ignored
      | sampled c =>
        by_cases hcurrent : s.strand.isCurrent (.sampled c) = true
        · simp only [if_pos hcurrent]
          exact h
        · simp only [if_neg hcurrent]
          exact h.withActive (halike.continueFrom c)
  · rw [Bool.not_eq_true] at hvalid
    simp only [hvalid, Bool.not_false, if_true]
    exact h

theorem discard (h : s.Alike m gap s') :
    s'.discard.value.1 = s.discard.value.1 ∧ s.discard.value.2.Alike m gap s'.discard.value.2 := by
  unfold Site.discard
  rw [h.strand.continuation]
  cases s.strand.continuation with
  | none => exact ⟨rfl, h⟩
  | some snapshot => exact ⟨rfl, h.tracer, { h.strand with continuation := rfl }⟩

theorem reset (h : s.Alike m gap s') : s.reset.value.Alike m gap s'.reset.value := by
  have hcleared : Site.Alike m gap { s with strand := { s.strand with scratch := {} } }
      { s' with strand := { s'.strand with scratch := {} } } :=
    ⟨h.tracer, { h.strand with scratch := rfl }⟩
  exact hcleared.discard.2

/-! ### The active span -/

theorem inject (h : s.Alike m gap s') (now : UInt64) (k : Carrier) :
    Attempt.Rel (fun step step' => Reply.Alike m (.carrier step.value) (.carrier step'.value))
      (s.inject k now) (s'.inject k now) :=
  (h.active.within _ _).bind fun ho => ((ho.inject now k).within _ _).raised

theorem receive (h : s.Alike m gap s') (now : UInt64) (inbound : Inbound) :
    Attempt.Rel (fun step step' => step.value.Alike m gap step'.value) (s.receive inbound now)
      (s'.receive inbound now) := by
  refine h.active.bind fun ho => ?_
  cases inbound with
  | absent => exact .ok h
  | ignored => exact .ok h
  | remote c =>
    exact ((ho.receive now c).within _ _).raised.bind fun hstep => .ok (h.withActive hstep)

theorem activeFrame (h : s.Alike m gap s') :
    Attempt.Rel (fun f f' => f' = f) s.activeFrame s'.activeFrame := by
  refine h.active.bind fun {o o'} ho => ?_
  unfold OpenSegment.active?
  rw [ho.stack]
  cases o.stack with
  | nil => exact .error rfl
  | cons f rest => exact .ok rfl

theorem edit (h : s.Alike m gap s') (now : UInt64) (edits : List Edit) :
    Attempt.Rel
      (fun step step' => step'.value.1 = step.value.1 ∧ step'.value.2.1 = step.value.2.1 ∧
        step.value.2.2.Alike m gap step'.value.2.2)
      (s.edit edits now) (s'.edit edits now) := by
  refine h.active.bind fun {o o'} ho => ?_
  rw [ho.stack]
  cases o.stack with
  | nil => exact .error rfl
  | cons f rest => exact .ok ⟨rfl, rfl, h.withActive (ho.withStack _)⟩

theorem putCorrelation (h : s.Alike m gap s') (key value : String) :
    (s'.putCorrelation key value).value.1 = (s.putCorrelation key value).value.1 ∧
    (s.putCorrelation key value).value.2.Alike m gap (s'.putCorrelation key value).value.2 := by
  unfold Site.putCorrelation
  rcases h.active_cases with ⟨hidle, hidle'⟩ | ⟨o, o', ho, ho', halike⟩
  · rw [hidle, hidle']
    exact ⟨rfl, h⟩
  · rw [ho, ho', h.tracer.config]
    obtain ⟨hstored, hput⟩ := halike.putCorrelation s.tracer.config.autoTagKeys key value
    exact ⟨hstored, h.withActive hput⟩

theorem prepareAsync (h : s.Alike m gap s') :
    Attempt.Rel
      (fun after after' => after.2.Alike (m.joined none none (some after.1) (some after'.1)) gap
        after'.2)
      s.prepareAsync s'.prepareAsync := by
  refine h.active.bind fun ho =>
    ((h.tracer.prepareAsync ho).within _ _).raised.bind fun {after after'} hafter => ?_
  obtain ⟨hopen, htracer⟩ := hafter
  have hstrand := h.strand.mono (m.within_joined none none (some after.1) (some after'.1))
  exact .ok ⟨htracer, { hstrand with active := .some hopen }⟩

/-! ### Closing spans -/

theorem stop (h : s.Alike m gap s') (now : UInt64) (expected : Option Int) :
    Attempt.Rel
      (fun step step' => step'.value.1 = step.value.1 ∧
        Option.Rel (Segment.Alike m) step.value.2.1 step'.value.2.1 ∧
        step.value.2.2.Alike m gap step'.value.2.2)
      (s.stop expected now) (s'.stop expected now) := by
  refine h.active.bind fun {o o'} ho => ?_
  have hstop : Attempt.Rel
      (fun step step' => step.value.1.Alike m step'.value.1 ∧
        Tracer.Alike m gap step.value.2 step'.value.2)
      (o.stop s.tracer expected now) (o'.stop s'.tracer expected now) := by
    refine ((ho.pop expected).within _ _).map fun {popped popped'} hpopped => ?_
    obtain ⟨f, o₁⟩ := popped
    obtain ⟨f', o₁'⟩ := popped'
    obtain ⟨rfl, hopen⟩ := hpopped
    exact h.tracer.retire hopen f' now
  refine (hstop.within _ _).raised.bind fun {step step'} hstep => .ok ?_
  obtain ⟨⟨o₁, t₁⟩, notes⟩ := step
  obtain ⟨⟨o₁', t₁'⟩, notes'⟩ := step'
  obtain ⟨hopen, htracer⟩ := hstep
  have hstack : o₁'.stack = o₁.stack := hopen.stack
  simp only [Logged.bind_value, hstack]
  -- the segment ends if its stack is empty, and then it may be due
  by_cases hlast : o₁.stack.isEmpty = true
  · obtain ⟨hdue, hfinished⟩ := htracer.finish hopen
    simp only [if_pos hlast]
    exact ⟨rfl, hdue, hfinished, { h.strand with active := .none }⟩
  · simp only [if_neg hlast]
    exact ⟨rfl, .none, htracer, { h.strand with active := .some hopen }⟩

theorem leave (h : s.Alike m gap s') : Tracer.Alike m gap s.leave.value s'.leave.value := by
  unfold Site.leave
  rcases h.active_cases with ⟨hidle, hidle'⟩ | ⟨o, o', ho, ho', halike⟩
  · rw [hidle, hidle']
    exact h.tracer
  · rw [ho, ho']
    exact h.tracer.leak halike

/-! ### Steps -/

/-- A snapshot that names both of two matched segments or neither of them is of both open
    segments or of neither. -/
theorem isCurrent_eq (h : s.Alike m gap s') {snapshot : Snapshot}
    (hnames : ∀ ν ∈ m.names, snapshot.segment = ν.1.segment ↔ snapshot.segment = ν.2.segment) :
    s'.strand.isCurrent snapshot = s.strand.isCurrent snapshot := by
  unfold Strand.isCurrent Strand.segmentId?
  rcases h.active_cases with ⟨hidle, hidle'⟩ | ⟨o, o', ho, ho', halike⟩
  · rw [hidle, hidle']
  · obtain ⟨ν, hν, hid, hid'⟩ := halike.id
    rw [ho, ho', Option.map_some, Option.map_some, hid, hid', Bool.eq_iff_iff]
    simp only [beq_iff_eq, Option.some.injEq]
    exact eq_comm.trans ((hnames ν hν).symm.trans eq_comm)

/-- A segment begins at both sites, or at neither. -/
theorem begins_isSome (h : s.Alike m gap s') (now : UInt64) (op : StrandOp) :
    (s.begins now op).isSome = (s'.begins now op).isSome := by
  unfold begins fresh
  rw [h.isActive]
  cases op.opens? with
  | none => rfl
  | some kind => cases s.strand.isActive <;> rfl

theorem fresh_continued (s : Site) (snapshot : Snapshot) (now : UInt64) :
    (s.continued snapshot).value.fresh now = s.fresh now := by
  have h := s.continued_spec snapshot
  generalize (s.continued snapshot).value = s' at h ⊢
  cases h with
  | ignored hactive id =>
    unfold fresh Strand.isActive
    rw [hactive]
    rfl
  | joined hactive hvalid hother =>
    unfold fresh Strand.isActive
    rw [hactive]
    rfl
  | _ => rfl

/-- An inner span that continues a snapshot of both open segments, or of neither. -/
theorem innerWith (h : s.Alike m gap s') (now : UInt64) (name : String) {snapshot : Snapshot}
    (hsame : s'.strand.isCurrent snapshot = s.strand.isCurrent snapshot) :
    (s'.innerWith name snapshot now).value.1 = (s.innerWith name snapshot now).value.1 ∧
    (s.innerWith name snapshot now).value.2.Alike
      (m.joined (s.fresh now) (s'.fresh now) none none) gap
      (s'.innerWith name snapshot now).value.2 := by
  rw [innerWith_value, innerWith_value, h.isActive]
  split
  · have hopened := (h.continued hsame).openSpan now .inner name .absent
    rwa [fresh_continued, fresh_continued] at hopened
  · have hdiscarded := h.discard.2
    rw [discard_value, discard_value] at hdiscarded ⊢
    have hopened := (hdiscarded.continued hsame).openSpan now .inner name .absent
    rwa [fresh_continued, fresh_continued] at hopened

/-- An outcome that gives nothing to the strand. -/
theorem still {now : UInt64} {op : StrandOp} {o o' : Outcome Site} (hopens : op.opens? = none)
    (hprepare : op ≠ .prepareAsync) (h : Outcome.Alike m (Site.Alike m gap) o o') :
    let m' := m.joined (s.begins now op) (s'.begins now op) (op.given? o.reply) (op.given? o'.reply)
    Outcome.Alike m' (Site.Alike m' gap) o o' := by
  unfold begins
  rw [hopens, Option.bind_none, Option.bind_none, op.given?_of_ne hprepare,
    op.given?_of_ne hprepare, Matching.joined_none]
  exact h

/-- An outcome that gives at most names to the strand. -/
theorem opened {now : UInt64} {op : StrandOp} {kind : SpanKind} {o o' : Outcome Site}
    (hopens : op.opens? = some kind)
    (h : let m' := m.joined (s.fresh now) (s'.fresh now) none none
      Outcome.Alike m' (Site.Alike m' gap) o o') :
    let m' := m.joined (s.begins now op) (s'.begins now op) (op.given? o.reply) (op.given? o'.reply)
    Outcome.Alike m' (Site.Alike m' gap) o o' := by
  have hprepare : op ≠ .prepareAsync := fun heq => by
    rw [heq] at hopens
    contradiction
  unfold begins
  rw [hopens, Option.bind_some, Option.bind_some, op.given?_of_ne hprepare,
    op.given?_of_ne hprepare]
  exact h

end Site.Alike

/-- The snapshot that an operation receives. -/
def StrandOp.snapshot? : StrandOp → Option Snapshot
  | .innerWith _ snapshot | .continued snapshot => some snapshot
  | _ => none

/-- **Every operation** has alike outcomes at sites that are alike, and what it gives to the
    strands is matched. -/
theorem Site.Alike.step {m : Matching} {gap : Counters} {s s' : Site} (h : s.Alike m gap s')
    (now : UInt64) (op : StrandOp)
    (hsame : ∀ snapshot, op.snapshot? = some snapshot →
      s'.strand.isCurrent snapshot = s.strand.isCurrent snapshot) :
    let o := (s.step now op).value
    let o' := (s'.step now op).value
    let m' := m.joined (s.begins now op) (s'.begins now op) (op.given? o.reply) (op.given? o'.reply)
    Outcome.Alike m' (Site.Alike m' gap) o o' := by
  -- the answers of attempts and of openings, from what they are alike in
  have hframe {m' : Matching} {x x' : Frame × Site}
      (hx : x'.1 = x.1 ∧ x.2.Alike m' gap x'.2) :
      Outcome.Alike m' (Site.Alike m' gap) (.of (.frame x.1) x.2) (.of (.frame x'.1) x'.2) := by
    rw [hx.1]
    exact hx.2.outcome _
  have hflag {x x' : Bool × Site} (hx : x'.1 = x.1 ∧ x.2.Alike m gap x'.2) :
      Outcome.Alike m (Site.Alike m gap) (.of (.flag x.1) x.2) (.of (.flag x'.1) x'.2) := by
    rw [hx.1]
    exact hx.2.outcome _
  cases op with
  | entry name k =>
    have hopened := h.openSpan now .entry name (s.inboundOf k)
    refine opened rfl ?_
    simp only [Site.step, Logged.bind_value, Logged.pure_value, entry_value, h.inboundOf]
    exact hframe hopened
  | entryFrom name headers =>
    have hlabel : s'.label = s.label := congrArg Config.headerLabel h.tracer.config
    have hopened := h.openSpan now .entry name
      (s.inboundOf (some (.readFrom headers s.label)))
    refine opened rfl ?_
    simp only [Site.step, entryFrom, Logged.bind_value, Logged.pure_value, entry_value,
      h.inboundOf, hlabel]
    exact hframe hopened
  | exit name peer k =>
    obtain ⟨hreply, hsite⟩ := h.exit now name peer k
    exact opened rfl ⟨hreply, .none, hsite⟩
  | inner name => exact opened rfl (hframe (h.openSpan now .inner name .absent))
  | innerWith name snapshot =>
    exact opened rfl (hframe (h.innerWith now name (hsame snapshot rfl)))
  | stop expected =>
    refine still rfl (by simp) (Outcome.alike_ofAttempt h ((s.atomic_stop now expected).map _)
      ((s'.atomic_stop now expected).map _) ((h.stop now expected).map ?_))
    intro step step' hstep
    obtain ⟨hlast, hdue, hsite⟩ := hstep
    simp only [handOver, Logged.bind_value, Logged.pure_value, hlast]
    exact ⟨.same _, hdue, hsite.tracer.reportDue _ _, hsite.strand⟩
  | capture => exact still rfl (by simp) ⟨h.capture, .none, h⟩
  | continued snapshot =>
    exact still rfl (by simp) ((h.continued (hsame snapshot rfl)).outcome _)
  | discard => exact still rfl (by simp) (hflag h.discard)
  | inject k =>
    exact still rfl (by simp) (Outcome.alike_ofAttempt h
      (((s.atomic_inject now k).within Prod.fst).map _)
      (((s'.atomic_inject now k).within Prod.fst).map _)
      (((h.inject now k).within Prod.fst Prod.fst).map fun hreply => ⟨hreply, .none, h⟩))
  | extract k =>
    refine still rfl (by simp) ?_
    simp only [Site.step, Logged.bind_value, h.readCarrier]
    exact Outcome.alike_ofAttempt h ((s.atomic_receive now _).map _)
      ((s'.atomic_receive now _).map _) ((h.receive now _).map fun hsite => hsite.outcome _)
  | active =>
    refine still rfl (by simp) (Outcome.alike_ofAttempt h (s.atomic_activeFrame.map _)
      (s'.atomic_activeFrame.map _) (h.activeFrame.map ?_))
    intro f f' hsame
    rw [hsame]
    exact h.outcome _
  | edit edits =>
    refine still rfl (by simp) (Outcome.alike_ofAttempt h ((s.atomic_edit now edits).map _)
      ((s'.atomic_edit now edits).map _) ((h.edit now edits).map ?_))
    intro step step' hstep
    obtain ⟨hanswers, hactive, hsite⟩ := hstep
    simp only [Logged.bind_value, Logged.pure_value, hanswers, hactive]
    exact hsite.outcome _
  | prepareAsync =>
    have hprepared := h.prepareAsync
    have hatomic := s.atomic_prepareAsync
    have hatomic' := s'.atomic_prepareAsync
    simp only [Site.step]
    generalize s.prepareAsync = a, s'.prepareAsync = a' at hprepared hatomic hatomic'
    cases hprepared with
    | error herror =>
      obtain ⟨e, rfl⟩ := hatomic _ rfl
      obtain ⟨e', rfl⟩ := hatomic' _ rfl
      obtain rfl : e' = e := herror
      show let m' := m.joined none none none none; Outcome.Alike m' (Site.Alike m' gap) _ _
      rw [Matching.joined_none]
      exact h.outcome _
    | ok hsite =>
      refine ⟨.handle ?_, .none, hsite⟩
      exact List.mem_append_right _ (List.mem_singleton_self _)
  | putCorrelation key value => exact still rfl (by simp) (hflag (h.putCorrelation key value))
  | scratch op =>
    refine still rfl (by simp) ?_
    simp only [Site.step, h.strand.scratch]
    exact ⟨.same _, .none, h.tracer, { h.strand with scratch := rfl }⟩
  | reset => exact still rfl (by simp) (h.reset.outcome _)

end TraceLink
