import TraceLink.Proofs.ClosedSpans
import TraceLink.Proofs.Continuations

/-! # The span that takes a continued reference

    When a snapshot is continued, its reference is left for the next span that the strand
    records. Which one this is can be told from the operations and their replies. A
    reference is *awaited* from the moment that its snapshot is continued, until a span is
    recorded or the segment ends; another snapshot takes its place, and while the strand is
    idle it can be forgotten. Placeholders leave it.

    The span refers to what is awaited when it is recorded, and no other span does on
    account of the snapshot. But an entry span that is opened below a remote context refers
    to this one instead, and the awaited reference is lost. -/

namespace TraceLink

/-! ### What is awaited -/

/-- The span that an operation recorded, as it is told by the reply. -/
def StrandOp.recorded? (op : StrandOp) (reply : Reply) : Option Span :=
  match op.opens?, reply with
  | some _, .frame f => f.span?
  | some _, .sent f _ => f.span?
  | _, _ => none

theorem StrandOp.recorded?_eq_none {op : StrandOp} (h : op.opens? = none) (reply : Reply) :
    op.recorded? reply = none := by
  unfold recorded?
  rw [h]

/-- The operation stopped the last span of the segment. -/
def StrandOp.ends : StrandOp → Reply → Bool
  | .stop _, .flag last => last
  | _, _ => false

namespace Site

/-- What is awaited after the pending continuation is forgotten. In an open segment nothing
    is pending. -/
def awaitedStill (s : Site) (awaited : Option ParentRef) : Option ParentRef :=
  if s.strand.isActive then awaited else none

/-- What is awaited after a snapshot is continued. One that is invalid or of the open segment
    is skipped, and an ignored one only takes the place of a pending continuation. -/
def awaitedFrom (s : Site) (awaited : Option ParentRef) (snapshot : Snapshot) :
    Option ParentRef :=
  match snapshot with
  | .sampled c =>
    if snapshot.isValid && !s.strand.isCurrent snapshot then
      some (OpenSegment.firstRef s.tracer.config c)
    else awaited
  | .ignored _ => s.awaitedStill awaited

/-- What an operation awaits for the span that it opens, if it opens one. -/
def awaitedBy (s : Site) (awaited : Option ParentRef) : StrandOp → Option ParentRef
  | .continued snapshot => s.awaitedFrom awaited snapshot
  | .innerWith _ snapshot => s.awaitedFrom (s.awaitedStill awaited) snapshot
  | .discard | .reset => s.awaitedStill awaited
  | _ => awaited

/-- What is awaited after an operation with this reply. -/
def awaitedAfter (s : Site) (awaited : Option ParentRef) (op : StrandOp) (reply : Reply) :
    Option ParentRef :=
  if (op.recorded? reply).isSome || op.ends reply then none else s.awaitedBy awaited op

/-- The parent in another process that comes with the span which an operation opens. -/
def remoteRef? (s : Site) : StrandOp → Option ParentRef
  | .entry _ k => (inboundRefs (s.inboundOf k)).head?
  | .entryFrom _ headers => (inboundRefs (s.inboundOf (some (.readFrom headers s.label)))).head?
  | _ => none

end Site

namespace Engine

/-- What the strand at place `k` awaits after a step. -/
def awaitedStep (e : Engine) (k : Nat) (ref : Option ParentRef) (now : UInt64) (op : Op) :
    Option ParentRef :=
  match op, e.site? k with
  | .strand k' sop, some s =>
    if k' = k then s.awaitedAfter ref sop (s.step now sop).value.reply else ref
  | _, _ => ref

/-- What the strand at place `k` awaits after a run, from what it awaited before. -/
def awaited (e : Engine) (k : Nat) (ref : Option ParentRef) :
    List (UInt64 × Op) → Option ParentRef
  | [] => ref
  | (now, op) :: ops =>
    (e.step now op).value.state.awaited k (e.awaitedStep k ref now op) ops

end Engine

/-! ### Open segments -/

namespace OpenSegment

/-- **Taking**: the frame `f` was opened in a segment that kept the reference `kept`, below
    the parent `remote` in another process, if there is one, and this left `o`. -/
inductive Takes (remote kept : Option ParentRef) : Frame → OpenSegment → Prop where
  | recorded {x : Span} {o : OpenSegment} (href : x.ref = remote.or kept)
      (hused : o.pendingRef = none) : Takes remote kept (.recorded x) o
  | placeholder {name : String} {o : OpenSegment} (hleft : o.pendingRef = kept) :
      Takes remote kept (.placeholder name) o

variable {remote kept : Option ParentRef} {f f' : Frame} {o o' : OpenSegment}

/-- Only the badge of the frame and the pending reference of the segment count. -/
theorem Takes.congr (h : Takes remote kept f o) (hbadge : f'.badge? = f.badge?)
    (hpending : o'.pendingRef = o.pendingRef) : Takes remote kept f' o' := by
  cases h with
  | recorded href hused =>
    cases f' with
    | placeholder name => contradiction
    | recorded y =>
      have hsame := congrArg Prod.snd (Option.some.inj hbadge)
      exact .recorded (hsame.trans href) (hpending.trans hused)
  | placeholder hleft =>
    cases f' with
    | recorded y => contradiction
    | placeholder name => exact .placeholder (hpending.trans hleft)

theorem takes_newFrame (o : OpenSegment) (limit : Nat) (kind : SpanKind) (name : String)
    (now : UInt64) :
    let new := (o.newFrame limit kind name now).value
    Takes none o.pendingRef new.1 new.2 ∧ ∀ x, new.1 = .recorded x → x.kind = kind := by
  unfold newFrame
  split
  · exact ⟨.placeholder rfl, fun x hx => by contradiction⟩
  · split
    · exact ⟨.placeholder rfl, fun x hx => by contradiction⟩
    · refine ⟨.recorded rfl rfl, fun x hx => ?_⟩
      rw [← Frame.recorded.inj hx]
      rfl

theorem pendingRef_applyInbound (o : OpenSegment) (f : Frame) (c : RemoteContext)
    (now : UInt64) : (o.applyInbound f c now).value.2.pendingRef = o.pendingRef := by
  unfold applyInbound
  simp only [Logged.bind_value, Logged.pure_value, pendingRef_skipIf, link_value]

/-- An entry span refers to the remote context, whatever it referred to before. -/
theorem Takes.applyInbound (h : Takes none kept f o)
    (hkind : ∀ x, f = .recorded x → x.kind = .entry) (c : RemoteContext) (now : UInt64) :
    let applied := (o.applyInbound f c now).value
    Takes (some (remoteRef c)) kept applied.1 applied.2 := by
  have hpending := o.pendingRef_applyInbound f c now
  cases h with
  | recorded href hused =>
    next x =>
    refine .recorded ?_ (hpending.trans hused)
    rw [Span.ref_markInbound, Span.referredTo, hkind x rfl, if_pos rfl, Option.some_or]
  | placeholder hleft => exact .placeholder (hpending.trans hleft)

theorem takes_openSpan (c : Config) (o : OpenSegment) {kind : SpanKind} (name : String)
    (now : UInt64) {inbound : Option RemoteContext} (hkind : inbound.isSome → kind = .entry) :
    let opened := (o.openSpan c kind name now inbound).value
    Takes (inbound.map remoteRef) o.pendingRef opened.1 opened.2 ∧
      opened.2.active? = some opened.1 := by
  obtain ⟨hnew, hnewKind⟩ := takes_newFrame o c.spanLimit kind name now
  unfold openSpan
  cases inbound with
  | none =>
    refine ⟨hnew.congr ?_ rfl, rfl⟩
    exact badge?_autoTag _ _ _
  | some r =>
    refine ⟨(hnew.applyInbound (fun x hx => (hnewKind x hx).trans (hkind rfl)) r now).congr ?_ rfl,
      rfl⟩
    exact badge?_autoTag _ _ _

theorem takes_openExit (c : Config) (o : OpenSegment) (name peer : String) (k : Option Carrier)
    (now : UInt64) :
    let opened := (o.openExit c name peer k now).value
    Takes none o.pendingRef opened.1 opened.2.2 ∧ opened.2.2.active? = some opened.1 := by
  obtain ⟨hnew, -⟩ := takes_newFrame o c.spanLimit .exit name now
  have hpeer := Frame.badge?_modify (Span.badge_setPeer peer)
    (o.newFrame c.spanLimit .exit name now).value.1
  rw [openExit_value]
  exact ⟨hnew.congr ((badge?_autoTag _ _ _).trans hpeer) rfl, rfl⟩

theorem pendingRef_start (t : Tracer) (ordinal now : UInt64) (name : String)
    (inherited : Inherited) (continuation : Option Snapshot) :
    (start t ordinal now name inherited continuation).value.1.pendingRef =
      (Site.firstRefs t.config continuation).head? := by
  cases continuation with
  | none => rfl
  | some snapshot =>
    cases snapshot with
    | ignored segment => rfl
    | sampled c => exact pendingRef_continueFrom _ c

theorem Retired.pendingRef {t t' : Tracer} {now : UInt64} (h : Retired o t now f o' t') :
    o'.pendingRef = o.pendingRef := by
  cases h with
  | dropped name => rfl
  | archived hplain => rfl
  | deferred hasync hledger => rfl
  | stray hasync hledger => rfl

theorem pendingRef_prepareAsync {t t' : Tracer} {a : AsyncHandle}
    (h : o.prepareAsync t = .ok (a, o', t')) : o'.pendingRef = o.pendingRef := by
  rcases prepareAsync_eq_ok h with ⟨-, rfl, -⟩ | ⟨s, rest, n, t₁, -, -, -, -, rfl, -⟩
  · rfl
  · rfl

theorem pendingRef_putCorrelation (o : OpenSegment) (keys : List String) (key value : String) :
    (o.putCorrelation keys key value).value.2.pendingRef = o.pendingRef :=
  congrArg Kinship.pendingRef (o.kinship_putCorrelation keys key value {})

/-- In a sound segment the reference to a captured context is the same as in one that begins
    with it. -/
theorem Sound.strandRef_eq {config : Config} (h : o.Sound config) (c : Captured) :
    o.strandRef c = firstRef config c := by
  have hservice : o.segment.service = config.serviceName := h.bearings.service
  have hinstance : o.segment.instanceName = config.instanceName := h.bearings.instanceName
  rw [strandRef, hservice, hinstance]
  rfl

end OpenSegment

/-! ### Strands -/

namespace Site

variable {s s' : Site} {now : UInt64}

/-- The reference that the strand keeps for the next span that it records. -/
def keptRef (s : Site) : Option ParentRef :=
  match s.strand.active with
  | some o => o.pendingRef
  | none => (firstRefs s.tracer.config s.strand.continuation).head?

theorem keptRef_of_active {o : OpenSegment} (h : s.strand.active = some o) :
    s.keptRef = o.pendingRef := by
  rw [keptRef, h]

theorem keptRef_of_idle (h : s.strand.active = none) :
    s.keptRef = (firstRefs s.tracer.config s.strand.continuation).head? := by
  rw [keptRef, h]

theorem keptRef_congr (hstrand : s'.strand = s.strand)
    (hconfig : s'.tracer.config = s.tracer.config) : s'.keptRef = s.keptRef := by
  unfold keptRef
  rw [hstrand, hconfig]

/-- The segment for a new span keeps what the strand kept. -/
theorem keptRef_segmentFor {s₂ : Site} {o : OpenSegment} {name : String} {inherited : Inherited}
    (h : (s.segmentFor name inherited now).value = (o, s₂)) : o.pendingRef = s.keptRef := by
  rcases segmentFor_cases h with ⟨hactive, -⟩ | ⟨hidle, rfl, -⟩
  · exact (keptRef_of_active hactive).symm
  · rw [keptRef_of_idle hidle]
    exact OpenSegment.pendingRef_start _ _ _ _ _ _

/-! ### Snapshots -/

theorem keptRef_discard (s : Site) : s.discard.value.2.keptRef = s.awaitedStill s.keptRef := by
  rw [discard_value, awaitedStill, Strand.isActive]
  cases hactive : s.strand.active with
  | some o =>
    rw [keptRef_of_active hactive, keptRef_of_active (by exact hactive)]
    rfl
  | none =>
    rw [keptRef_of_idle (by exact hactive)]
    rfl

/-- An idle strand keeps the reference of the snapshot that is pending, an active one leaves
    it to its segment. -/
theorem keptRef_continued (h : s.strand.Sound s.tracer.config) (snapshot : Snapshot) :
    (s.continued snapshot).value.keptRef = s.awaitedFrom s.keptRef snapshot := by
  have hcontinued := s.continued_spec snapshot
  generalize (s.continued snapshot).value = s' at hcontinued ⊢
  cases hcontinued with
  | invalid hvalid =>
    cases snapshot with
    | ignored id => contradiction
    | sampled c =>
      rw [awaitedFrom, hvalid]
      rfl
  | pending hidle hvalid =>
    rw [keptRef_of_idle (by exact hidle)]
    cases snapshot with
    | ignored id =>
      rw [awaitedFrom, awaitedStill, Strand.isActive, hidle]
      rfl
    | sampled c =>
      have hother : s.strand.isCurrent (.sampled c) = false := by
        rw [Strand.isCurrent, Strand.segmentId?, hidle]
        rfl
      rw [awaitedFrom, hvalid, hother]
      rfl
  | ignored hactive id =>
    rw [awaitedFrom, awaitedStill, Strand.isActive, hactive, keptRef_of_active hactive]
    rfl
  | own hactive hvalid hown =>
    rw [awaitedFrom, hvalid, hown]
    rfl
  | joined hactive hvalid hother =>
    next o c =>
    rw [awaitedFrom, hvalid, hother]
    show (o.continueFrom c).value.pendingRef = _
    rw [OpenSegment.pendingRef_continueFrom, (h.active o hactive).strandRef_eq]
    rfl

/-- While idle, what was pending is forgotten before the snapshot is continued. -/
theorem keptRef_replaced (h : s.strand.Sound s.tracer.config) (snapshot : Snapshot) :
    ((if s.strand.isActive then s else s.discard.value.2).continued snapshot).value.keptRef =
      s.awaitedFrom (s.awaitedStill s.keptRef) snapshot := by
  cases hactive : s.strand.isActive with
  | true =>
    rw [if_pos rfl, keptRef_continued h, awaitedStill, hactive, if_pos rfl]
  | false =>
    have hsound := sound_touches h (touches_discard 0 s)
    rw [if_neg Bool.false_ne_true, keptRef_continued hsound, keptRef_discard, discard_value]
    rfl

/-! ### Opening spans -/

theorem takes_openSpan (s : Site) (kind : SpanKind) (name : String) (inbound : Inbound)
    (now : UInt64) (hkind : (inheritedFrom inbound).2.isSome → kind = .entry) :
    let opened := (s.openSpan kind name inbound now).value
    ∃ o, opened.2.strand.active = some o ∧ o.active? = some opened.1 ∧
      OpenSegment.Takes (inboundRefs inbound).head? s.keptRef opened.1 o := by
  have hremote : (inboundRefs inbound).head? =
      (inheritedFrom inbound).2.map OpenSegment.remoteRef := by
    cases inbound <;> rfl
  obtain ⟨o, s₂, hsegment, hvalue⟩ := s.openSpan_value name now kind inbound
  rw [hvalue]
  obtain ⟨htakes, htop⟩ := OpenSegment.takes_openSpan s₂.tracer.config o name now hkind
  rw [keptRef_segmentFor hsegment, ← hremote] at htakes
  exact ⟨_, rfl, htop, htakes⟩

theorem takes_exit (s : Site) (name peer : String) (k : Option Carrier) (now : UInt64) :
    let opened := (s.exit name peer k now).value
    ∃ o, opened.2.2.strand.active = some o ∧ o.active? = some opened.1 ∧
      OpenSegment.Takes none s.keptRef opened.1 o := by
  obtain ⟨o, s₂, hsegment, hvalue⟩ := s.exit_value name now peer k
  rw [hvalue]
  obtain ⟨htakes, htop⟩ := OpenSegment.takes_openExit s₂.tracer.config o name peer k now
  rw [keptRef_segmentFor hsegment] at htakes
  exact ⟨_, rfl, htop, htakes⟩

/-- **A span that is opened** takes what the strand keeps for it. -/
theorem takes_step (h : s.strand.Sound s.tracer.config) {op : StrandOp} (hop : op.opens?.isSome)
    (now : UInt64) :
    let outcome := (s.step now op).value
    ∃ f o, op.recorded? outcome.reply = f.span? ∧ outcome.state.strand.active = some o ∧
      o.active? = some f ∧
      OpenSegment.Takes (s.remoteRef? op) (s.awaitedBy s.keptRef op) f o := by
  cases op with
  | entry name k =>
    have htakes := s.takes_openSpan .entry name (s.inboundOf k) now fun _ => rfl
    rw [← entry_value] at htakes
    exact ⟨_, _, rfl, htakes.choose_spec⟩
  | entryFrom name headers =>
    have htakes := s.takes_openSpan .entry name
      (s.inboundOf (some (.readFrom headers s.label))) now fun _ => rfl
    rw [← entry_value] at htakes
    exact ⟨_, _, rfl, htakes.choose_spec⟩
  | exit name peer k => exact ⟨_, _, rfl, (s.takes_exit name peer k now).choose_spec⟩
  | inner name =>
    have htakes := s.takes_openSpan .inner name .absent now fun hnone => by contradiction
    exact ⟨_, _, rfl, htakes.choose_spec⟩
  | innerWith name snapshot =>
    let s₁ := if s.strand.isActive then s else s.discard.value.2
    have htakes := (s₁.continued snapshot).value.takes_openSpan .inner name .absent now
      fun hnone => by contradiction
    rw [keptRef_replaced h, ← innerWith_value] at htakes
    exact ⟨_, _, rfl, htakes.choose_spec⟩
  | _ => contradiction

/-! ### All operations -/

/-- A segment that ends takes with it what was awaited, and nothing is pending beside it. -/
theorem keptRef_stop (hpends : s.strand.PendsIdle) (now : UInt64) (expected : Option Int) :
    let outcome := (s.step now (.stop expected)).value
    outcome.state.keptRef =
      if StrandOp.ends (.stop expected) outcome.reply then none else s.keptRef := by
  intro outcome
  have heffect : Effect now s (.stop expected) outcome := s.effect_of_step now _
  generalize outcome = outcome at heffect
  cases heffect with
  | refused e hop => rfl
  | touched hop hstop hprepare htouch => exact absurd rfl (hstop expected)
  | opened hopens => contradiction
  | stopped hactive hpop hretire hopen =>
    next o o₁ o' f t =>
    have hretired := OpenSegment.retired_retire o₁ s.tracer f now
    rw [hretire] at hretired
    obtain ⟨rest, -, rfl, -⟩ := OpenSegment.pop_eq_ok hpop
    show o'.pendingRef = s.keptRef
    rw [keptRef_of_active hactive, hretired.pendingRef]
  | ended hactive hpop hretire hlast hfinish =>
    show (firstRefs _ s.strand.continuation).head? = none
    rw [hpends (Option.isSome_of_mem hactive)]
    rfl

theorem keptRef_prepareAsync (s : Site) (now : UInt64) :
    (s.step now .prepareAsync).value.state.keptRef = s.keptRef := by
  have heffect := s.effect_of_step now .prepareAsync
  generalize (s.step now .prepareAsync).value = outcome at heffect
  cases heffect with
  | refused e hop => rfl
  | touched hop hstop hprepare htouch => exact absurd rfl hprepare
  | opened hopens => contradiction
  | prepared hactive hprepare =>
    rw [keptRef_of_active hactive]
    exact OpenSegment.pendingRef_prepareAsync hprepare

/-- An operation that opens no span leaves what the strand keeps for the next one, as long as
    the segment does not end. -/
theorem keptRef_still (h : s.strand.Sound s.tracer.config) (hpends : s.strand.PendsIdle)
    {op : StrandOp} (hop : op.opens? = none) (now : UInt64) :
    let outcome := (s.step now op).value
    outcome.state.keptRef =
      if op.ends outcome.reply then none else s.awaitedBy s.keptRef op := by
  cases op with
  | stop expected => exact keptRef_stop hpends now expected
  | continued snapshot => exact keptRef_continued h snapshot
  | discard => exact s.keptRef_discard
  | reset => exact keptRef_discard { s with strand := { s.strand with scratch := {} } }
  | capture => rfl
  | inject k =>
    exact congrArg keptRef (s.state_inject now k)
  | extract k =>
    refine Outcome.state_ofAttempt keptRef (s.atomic_receive now _) fun step hstep => ?_
    rcases receive_eq_ok hstep with hsame | ⟨c, o, f, rest, -, hactive, -, happlied⟩
    · exact congrArg keptRef hsame
    · refine (congrArg keptRef happlied).trans ?_
      rw [keptRef_of_active hactive]
      exact OpenSegment.pendingRef_applyInbound _ f c now
  | active =>
    exact congrArg keptRef (s.state_active now)
  | edit edits =>
    refine Outcome.state_ofAttempt keptRef (s.atomic_edit now edits) fun step hstep => ?_
    obtain ⟨o, f, rest, hactive, -, hedited⟩ := edit_eq_ok hstep
    refine (congrArg keptRef hedited).trans ?_
    rw [keptRef_of_active hactive]
    rfl
  | prepareAsync => exact s.keptRef_prepareAsync now
  | putCorrelation key value =>
    show (s.putCorrelation key value).value.2.keptRef = s.keptRef
    unfold putCorrelation
    split
    · next o hactive =>
      rw [keptRef_of_active hactive]
      exact o.pendingRef_putCorrelation _ key value
    · rfl
  | scratch op => rfl
  | _ => contradiction

/-- **Every step** leaves the strand with what is awaited after it. -/
theorem keptRef_step (h : s.strand.Sound s.tracer.config) (hpends : s.strand.PendsIdle)
    (now : UInt64) (op : StrandOp) :
    (s.step now op).value.state.keptRef =
      s.awaitedAfter s.keptRef op (s.step now op).value.reply := by
  unfold awaitedAfter
  cases hop : op.opens? with
  | none =>
    rw [keptRef_still h hpends hop, StrandOp.recorded?_eq_none hop]
    rfl
  | some kind =>
    have hends : op.ends (s.step now op).value.reply = false := by
      cases op with
      | stop expected => contradiction
      | _ => rfl
    obtain ⟨f, o, hrecorded, hactive, -, htakes⟩ := takes_step h (Option.isSome_of_mem hop) now
    rw [keptRef_of_active hactive, hrecorded, hends]
    cases htakes with
    | recorded href hused => exact hused
    | placeholder hleft => exact hleft

end Site

/-! ### Runs -/

namespace Engine

variable {e : Engine} {k : Nat}

theorem length_strands_step (e : Engine) (now : UInt64) (op : Op) :
    e.strands.length ≤ (e.step now op).value.state.strands.length := by
  cases op with
  | openStrand =>
    show _ ≤ (e.strands ++ _).length
    rw [List.length_append]
    exact Nat.le_add_right _ _
  | closeStrand k =>
    simp only [step, closeStrand]
    split
    · exact (List.length_set ..).ge
    · exact Nat.le_refl _
  | strand k sop =>
    simp only [step]
    split
    · exact (List.length_set ..).ge
    · exact Nat.le_refl _
  | setSuffixes value =>
    obtain ⟨reply, suffixes, hvalue⟩ := e.setSuffixes_value now value
    rw [hvalue]
    exact Nat.le_refl _
  | _ => exact Nat.le_refl _

theorem awaitedStep_own {s : Site} (hsite : e.site? k = some s) (ref : Option ParentRef)
    (now : UInt64) (sop : StrandOp) :
    e.awaitedStep k ref now (.strand k sop) =
      s.awaitedAfter ref sop (s.step now sop).value.reply := by
  simp only [awaitedStep, hsite, if_true]

theorem awaitedStep_other {op : Op} (hop : ∀ sop, op ≠ .strand k sop) (ref : Option ParentRef)
    (now : UInt64) : e.awaitedStep k ref now op = ref := by
  unfold awaitedStep
  split
  · next k' sop s hsite =>
    refine if_neg fun hk => hop sop ?_
    rw [hk]
  · rfl

/-- The strand at place `k`, if it is still there, keeps the reference. The place was used
    already, so no other strand comes to it. -/
structure Awaits (e : Engine) (k : Nat) (ref : Option ParentRef) : Prop where
  used : k < e.strands.length
  kept : ∀ s, e.site? k = some s → s.keptRef = ref

theorem awaits_of_site {s : Site} (hsite : e.site? k = some s) : e.Awaits k s.keptRef where
  used := by
    by_contra hge
    have hstrand := strand?_of_site? hsite
    rw [strand?, List.getElem?_eq_none (Nat.le_of_not_lt hge)] at hstrand
    contradiction
  kept := fun _ hs => Option.some.inj (hs.symm.trans hsite) ▸ rfl

/-- What is invariant of the strand at place `k`, as long as the engine goes on. -/
def KeepsSound (e : Engine) (k : Nat) : Prop :=
  ∀ ops s, (e.run ops).site? k = some s → s.strand.Sound s.tracer.config ∧ s.strand.PendsIdle

theorem keepsSound (config : Config) (reporter : Reporter) (process : String) (start : UInt64)
    (ops : List (UInt64 × Op)) (k : Nat) :
    ((ofTracer (.start config reporter process start)).run ops).KeepsSound k := by
  intro more s hs
  rw [← run_append] at hs
  obtain ⟨hconfig, hsound⟩ :=
    (Strand.sound_invariant config).of_run reporter process start (ops ++ more) hs
  rw [hconfig]
  exact ⟨hsound,
    ((Strand.pendsIdle_invariant config).of_run reporter process start (ops ++ more) hs).2⟩

/-- **Every step** leaves the strand with what is awaited after it. -/
theorem Awaits.step {ref : Option ParentRef} (h : e.Awaits k ref) (hsound : e.KeepsSound k)
    (now : UInt64) (op : Op) :
    (e.step now op).value.state.Awaits k (e.awaitedStep k ref now op) where
  used := h.used.trans_le (e.length_strands_step now op)
  kept := by
    intro s' hs'
    by_cases hown : ∃ sop, op = .strand k sop
    · obtain ⟨sop, rfl⟩ := hown
      cases hsite : e.site? k with
      | none =>
        simp only [Engine.step, hsite] at hs'
        exact absurd (hsite.symm.trans hs') (by simp)
      | some s =>
        rw [site?_step_strand hsite] at hs'
        obtain rfl := Option.some.inj hs'
        obtain ⟨hs, hpends⟩ := hsound [] s hsite
        rw [Site.keptRef_step hs hpends, h.kept s hsite, awaitedStep_own hsite]
    -- the step is not its own, so the strand is as before
    · rw [awaitedStep_other fun sop hop => hown ⟨sop, hop⟩]
      have hconfig := (congrArg Tracer.config (tracer_of_site? hs')).trans (e.config_step now op)
      have hstrides := strides_of_step (strand?_of_site? hs')
      generalize hstrand : s'.strand = strand at hstrides
      cases hstrides with
      | still hsame =>
        rw [← h.kept ⟨e.tracer, strand⟩ (congrArg (Option.map _) hsame)]
        exact Site.keptRef_congr hstrand hconfig
      | new n hop hplace => exact absurd hplace (Nat.ne_of_lt h.used)
      | stepped hsite hop => exact absurd ⟨_, hop⟩ hown

/-- **Every run** leaves the strand with what is awaited after it. -/
theorem Awaits.run {ref : Option ParentRef} (h : e.Awaits k ref) (hsound : e.KeepsSound k)
    (ops : List (UInt64 × Op)) : (e.run ops).Awaits k (e.awaited k ref ops) := by
  induction ops generalizing e ref with
  | nil => exact h
  | cons timed ops ih =>
    obtain ⟨now, op⟩ := timed
    exact ih (h.step hsound now op) fun more s hs => hsound ((now, op) :: more) s hs

/-- A snapshot that is continued is awaited, unless it is of the open segment. -/
theorem awaits_continued {s : Site} {c : Captured} (hsite : e.site? k = some s)
    (hsound : e.KeepsSound k) (hvalid : (Snapshot.sampled c).isValid = true)
    (hother : s.strand.isCurrent (.sampled c) = false) (now : UInt64) :
    (e.step now (.strand k (.continued (.sampled c)))).value.state.Awaits k
      (some (OpenSegment.firstRef s.tracer.config c)) := by
  have hstep := (awaits_of_site hsite).step hsound now (.strand k (.continued (.sampled c)))
  rw [awaitedStep_own hsite] at hstep
  have hawaited : s.awaitedFrom s.keptRef (.sampled c) =
      some (OpenSegment.firstRef s.tracer.config c) := by
    rw [Site.awaitedFrom, hvalid, hother]
    rfl
  exact hawaited ▸ hstep

/-! ### Recorded spans -/

/-- A span that the strand records is the active one, and refers to the parent in another
    process if it comes with one, else to what is awaited for it. -/
theorem Awaits.recorded {ref : Option ParentRef} (h : e.Awaits k ref) (hsound : e.KeepsSound k)
    {s : Site} (hsite : e.site? k = some s) {t : UInt64} {op : StrandOp} {x : Span}
    (hx : op.recorded? (s.step t op).value.reply = some x) :
    (s.step t op).value.state.activeFrame = .ok (.recorded x) ∧
      x.ref = (s.remoteRef? op).or (s.awaitedBy ref op) := by
  have hop : op.opens?.isSome := by
    cases hop : op.opens? with
    | some kind => rfl
    | none =>
      rw [StrandOp.recorded?_eq_none hop] at hx
      contradiction
  obtain ⟨f, o, hrecorded, hactive, htop, htakes⟩ := Site.takes_step (hsound [] s hsite).1 hop t
  obtain rfl := Frame.eq_recorded (hrecorded.symm.trans hx)
  have hframe : (s.step t op).value.state.activeFrame = .ok (.recorded x) := by
    refine Attempt.bind_eq_ok.mpr ⟨o, Site.active_eq_ok.mpr hactive, ?_⟩
    simp only [htop]
  rw [h.kept s hsite] at htakes
  cases htakes with
  | recorded href hused => exact ⟨hframe, href⟩

/-- **A recorded span keeps its reference** however the run goes on, wherever the span is
    then, unless it is an entry span for which a context from another process is read. -/
theorem recorded_ref_kept (config : Config) (reporter : Reporter) (process : String)
    (start : UInt64) (ops more : List (UInt64 × Op)) {i : Nat} {l : Life} {σ σ' : Stock}
    {x y : Span} :
    let e := ofTracer (.start config reporter process start)
    (e.lives ops)[i]? = some l → (e.run ops).Shows Stock.aspect l σ → x ∈ σ.spans →
    (e.run (ops ++ more)).Shows Stock.aspect ((e.run ops).liveFrom l more) σ' → y ∈ σ'.spans →
    y.id = x.id → y.origin = x.origin ∧
      (y.ref = x.ref ∨ x.kind = .entry ∧ ∃ r ∈ (e.run ops).receiptsFrom l more,
        r.span = x.id ∧ y.ref = some (OpenSegment.remoteRef r.context)) := by
  intro e hl hσ hx hσ' hy hid
  have htells := ((tells_start config reporter process start).run ops).1
  have hstocked := (tells_start config reporter process start).stocked_run
    (fun l hl => by contradiction) ops
  rw [run_append] at hσ'
  obtain ⟨σ₁, hσ₁, hpasses⟩ := htells.restocks_run hl hσ'
  obtain rfl := htells.shows_unique (List.mem_of_getElem? hl) hσ hσ₁
  have hbecomes := hpasses.becomes (hstocked l (List.mem_of_getElem? hl) σ₁ hσ₁) hx hy hid
  refine ⟨hbecomes.origin, ?_⟩
  rw [hbecomes.ref]
  exact x.ref_receiveAll _

/-- **The next recorded span refers to a continued snapshot.** Take a valid snapshot that is
    continued on any strand, but not on that of its own open segment. However the run goes
    on, a span that the strand records refers to what is awaited then, which is the snapshot
    until a span is recorded, if nothing else takes its place; only an entry span that comes
    with the context of another process refers to this context instead. And no span takes a
    reference to a snapshot after it was recorded. -/
theorem next_span_continues (config : Config) (reporter : Reporter) (process : String)
    (start now : UInt64) (ops : List (UInt64 × Op)) {k : Nat} {s : Site} {c : Captured} :
    let e := ofTracer (.start config reporter process start)
    let continued := ops ++ [(now, .strand k (.continued (.sampled c)))]
    let ref : ParentRef := ⟨.thread, c.trace, c.segment, c.span, config.serviceName,
      config.instanceName, c.endpoint.getD ""⟩
    (e.run ops).site? k = some s → (Snapshot.sampled c).isValid = true →
    s.strand.isCurrent (.sampled c) = false →
    (∀ more s' t op x, (e.run (continued ++ more)).site? k = some s' →
      op.recorded? (s'.step t op).value.reply = some x →
      (s'.step t op).value.state.activeFrame = .ok (.recorded x) ∧
      x.ref = (s'.remoteRef? op).or
        (s'.awaitedBy ((e.run continued).awaited k (some ref) more) op)) ∧
    ∀ (before more : List (UInt64 × Op)) (i : Nat) (l : Life) (σ σ' : Stock) (x y : Span),
      (e.lives before)[i]? = some l → (e.run before).Shows Stock.aspect l σ → x ∈ σ.spans →
      (e.run (before ++ more)).Shows Stock.aspect ((e.run before).liveFrom l more) σ' →
      y ∈ σ'.spans → y.id = x.id → y.origin = x.origin ∧
        (y.ref = x.ref ∨ x.kind = .entry ∧ ∃ r ∈ (e.run before).receiptsFrom l more,
          r.span = x.id ∧ y.ref = some (OpenSegment.remoteRef r.context)) := by
  intro e continued ref hsite hvalid hother
  refine ⟨fun more s' t op x hsite' hx => ?_, ?_⟩
  · have hconfig : s.tracer.config = config :=
      ((Strand.sound_invariant config).of_run reporter process start ops hsite).1
    have hawaits : (e.run continued).Awaits k (some ref) := by
      have hstep := awaits_continued hsite (keepsSound config reporter process start ops k) hvalid
        hother now
      rw [hconfig] at hstep
      rw [run_append]
      exact hstep
    have hlater := hawaits.run (keepsSound config reporter process start continued k) more
    rw [← run_append] at hlater
    exact hlater.recorded (keepsSound config reporter process start (continued ++ more) k) hsite' hx
  · intro before more i l σ σ' x y hl hσ hx hσ' hy hid
    exact recorded_ref_kept config reporter process start before more hl hσ hx hσ' hy hid

/-- A context that is captured in another segment. -/
def jobContext : Captured := ⟨"trace-1", "job-1", 2, some "/jobs", .empty .standard, .none⟩

/-- The reference to it. -/
def jobRef : ParentRef :=
  ⟨.thread, "trace-1", "job-1", 2, "Your_ApplicationName", "i", "/jobs"⟩

/-- An entry span is open when the context is continued. -/
def ordersOpen : List (UInt64 × Op) := [(0, .openStrand), (1, .strand 0 (.entry "/orders" none))]

/-- The open entry span. -/
def openOrders : Span where
  id := 0
  parent := none
  kind := .entry
  name := "/orders"
  start := 1

theorem next_span_continues_job :
    let e := ofTracer (.start (Config.standard "i") .collecting "p" 0)
    let continued := ordersOpen ++ [(2, .strand 0 (.continued (.sampled jobContext)))]
    let run : UInt64 × Op := (3, .strand 0 (.inner "run"))
    (∃ s x, (e.run continued).site? 0 = some s ∧
      (StrandOp.inner "run").recorded? (s.step 3 (.inner "run")).value.reply = some x ∧
      x.ref = some jobRef) ∧
    (∃ s y, (e.run (continued ++ [run])).site? 0 = some s ∧
      (StrandOp.inner "rest").recorded? (s.step 4 (.inner "rest")).value.reply = some y ∧
      y.ref = none) ∧
    ∃ o z, (e.run continued).open? 0 = some o ∧ o.nearestRecorded? = some z ∧ z.id = 0 ∧
      z.ref = none := by
  intro e continued run
  have hsite : ((e.run ordersOpen).site? 0).any
      (fun s => !s.strand.isCurrent (.sampled jobContext)) = true := by decide +kernel
  obtain ⟨s, hsite, hother⟩ := (Option.any_eq_true _ _).mp hsite
  obtain ⟨hrecorded, hkept⟩ := next_span_continues (Config.standard "i") .collecting "p" 0 2
    ordersOpen (c := jobContext) hsite (by decide) (by simpa using hother)
  have hfirst : ((e.run continued).site? 0).any (fun s =>
      ((StrandOp.inner "run").recorded? (s.step 3 (.inner "run")).value.reply).isSome) = true := by
    decide +kernel
  have hsecond : ((e.run (continued ++ [run])).site? 0).any (fun s =>
      ((StrandOp.inner "rest").recorded? (s.step 4 (.inner "rest")).value.reply).isSome) =
      true := by
    decide +kernel
  have hspent : (e.run continued).awaited 0 (some jobRef) [run] = none := by decide +kernel
  refine ⟨?_, ?_, ?_⟩
  · obtain ⟨s', hs', hx⟩ := (Option.any_eq_true _ _).mp hfirst
    obtain ⟨x, hx⟩ := Option.isSome_iff_exists.mp hx
    exact ⟨s', x, hs', hx, (hrecorded [] s' 3 _ x hs' hx).2⟩
  · obtain ⟨s', hs', hy⟩ := (Option.any_eq_true _ _).mp hsecond
    obtain ⟨y, hy⟩ := Option.isSome_iff_exists.mp hy
    refine ⟨s', y, hs', hy, (hrecorded [run] s' 4 _ y hs' hy).2.trans ?_⟩
    exact hspent
  · have hlife : (e.lives ordersOpen)[0]? = some closedLife := by decide +kernel
    have hbefore : ((e.run ordersOpen).open? 0).any
        (fun o => o.stack = [.recorded openOrders]) = true := by decide +kernel
    have hafter : ((e.run continued).open? 0).any
        (fun o => o.nearestRecorded?.map (·.id) = some 0) = true := by decide +kernel
    have hnone : (e.run ordersOpen).receiptsFrom closedLife
        [(2, .strand 0 (.continued (.sampled jobContext)))] = [] := by decide +kernel
    obtain ⟨o, ho, hstack⟩ := (Option.any_eq_true _ _).mp hbefore
    obtain ⟨o', ho', hnearest⟩ := (Option.any_eq_true _ _).mp hafter
    obtain ⟨z, hz, hid⟩ := Option.map_eq_some_iff.mp (of_decide_eq_true hnearest)
    obtain ⟨f, hf, hspan⟩ := List.exists_of_findSome?_eq_some hz
    have hx : openOrders ∈ o.ownSpans := by
      simp [OpenSegment.ownSpans, of_decide_eq_true hstack, Frame.span?]
    have hy : z ∈ o'.ownSpans :=
      List.mem_append_left _ (List.mem_filterMap.mpr ⟨f, hf, hspan⟩)
    obtain ⟨-, href | ⟨-, r, hr, -⟩⟩ := hkept ordersOpen _ 0 closedLife _ _ openOrders z hlife
      (.running rfl ho) (List.mem_append_left _ hx) (.running rfl ho')
      (List.mem_append_left _ hy) hid
    · exact ⟨o', z, ho', hz, hid, href⟩
    · rw [hnone] at hr
      contradiction

/-- **An entry span below a remote context takes the reference and loses it**: the segment
    has the snapshot as its parent, but its only span refers to the remote context, and
    nothing is awaited any more. -/
theorem continued_reference_lost :
    let e := ofTracer (.start (Config.standard "i") .collecting "p" 0)
    let waiting : List (UInt64 × Op) :=
      [(0, .openStrand), (1, .strand 0 (.continued (.sampled jobContext)))]
    let opened := waiting ++
      [(2, .strand 0 (.entry "/orders" (some (lateContext.inject (.empty "sw8")))))]
    (Snapshot.sampled jobContext).isValid = true ∧
    ((e.run waiting).site? 0).map (fun s => (s.strand.active, s.strand.continuation)) =
      some (none, some (.sampled jobContext)) ∧
    ((e.run opened).open? 0).map (fun o => (o.segment.parent, o.pendingRef)) =
      some (some jobRef, none) ∧
    ((e.run opened).open? 0).map (fun o => o.stack.map fun f => f.span?.map (·.ref)) =
      some [some (some (OpenSegment.remoteRef lateContext))] ∧
    OpenSegment.remoteRef lateContext ≠ jobRef := by
  decide +kernel

end Engine

end TraceLink
