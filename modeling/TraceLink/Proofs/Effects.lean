import Mathlib.Logic.Relation
import TraceLink.Proofs.Attempts

/-! # What one step of a strand can do

    The operations of a strand are many, but what they do to its site is one of six
    things:

    * a usage error is answered, and nothing changes;
    * the site is *touched*: its open segment, its pending continuation or its
      scratch values change, while no span is opened, stopped or prepared;
    * a span is opened, in a segment that begins now if none was open;
    * the active span is prepared for async finish;
    * the active span is stopped, and others stay open;
    * the last span is stopped, and the segment ends.

    `Site.effect_of_step` says so once and for all. Properties of all steps are
    proved by cases on the effect. -/

namespace TraceLink

/-- The kind of span that an operation opens. -/
def StrandOp.opens? : StrandOp → Option SpanKind
  | .entry .. | .entryFrom .. => some .entry
  | .exit .. => some .exit
  | .inner _ | .innerWith .. => some .inner
  | _ => none

namespace Site

/-- **Touch**: a change of a site in which no span is opened, stopped or prepared. -/
inductive Touch (now : UInt64) (s : Site) : Site → Prop where
  | pend (snapshot : Snapshot) (hidle : s.strand.active = none) (hvalid : snapshot.isValid) :
      Touch now s { s with strand := { s.strand with continuation := some snapshot } }
  | discard : Touch now s { s with strand := { s.strand with continuation := none } }
  | scratch (x : Scratch) : Touch now s { s with strand := { s.strand with scratch := x } }
  | ignore {o : OpenSegment} (hactive : s.strand.active = some o) :
      Touch now s (s.withActive { o with sampled := false })
  | continueFrom {o : OpenSegment} {c : Captured} (hactive : s.strand.active = some o)
      (hvalid : (Snapshot.sampled c).isValid) (hother : s.strand.isCurrent (.sampled c) = false) :
      Touch now s (s.withActive (o.continueFrom c).value)
  | receive {o o' : OpenSegment} {f f' : Frame} {rest : List Frame} {k : Carrier}
      {c : RemoteContext} (hactive : s.strand.active = some o)
      (hread : (s.readCarrier k).value = .remote c) (hstack : o.stack = f :: rest)
      (happly : ({ o with stack := rest }.applyInbound f c now).value = (f', o')) :
      Touch now s (s.withActive (o'.push f'))
  | edit {o : OpenSegment} {f : Frame} {rest : List Frame} (edits : List Edit)
      (hactive : s.strand.active = some o) (hstack : o.stack = f :: rest) :
      Touch now s (s.withActive { o with stack := (f.editAll now edits).value.2 :: rest })
  | putCorrelation {o : OpenSegment} (key value : String) (hactive : s.strand.active = some o) :
      Touch now s
        (s.withActive (o.putCorrelation s.tracer.config.autoTagKeys key value).value.2)

/-- Any number of touches. -/
abbrev Touches (now : UInt64) : Site → Site → Prop := Relation.ReflTransGen (Touch now)

/-- **Effect** of an operation on a site, with its outcome. -/
inductive Effect (now : UInt64) (s : Site) : StrandOp → Outcome Site → Prop where
  /-- A usage error. -/
  | refused {op : StrandOp} (e : UsageError) (hop : op.opens? = none) :
      Effect now s op ⟨.usage e, none, s⟩
  | touched {op : StrandOp} {reply : Reply} {s' : Site} (hop : op.opens? = none)
      (hstop : ∀ expected, op ≠ .stop expected) (hprepare : op ≠ .prepareAsync)
      (htouch : Touches now s s') : Effect now s op ⟨reply, none, s'⟩
  /-- An entry span or an inner span is opened. -/
  | opened {op : StrandOp} {kind : SpanKind} {name : String} {inbound : Inbound} {s₁ s₂ : Site}
      {o o' : OpenSegment} {f : Frame} (hop : op.opens? = some kind)
      (hread : ∀ c, inbound = .remote c → ∃ k, (s.readCarrier k).value = .remote c)
      (htouch : Touches now s s₁)
      (hsegment : (s₁.segmentFor name (inheritedFrom inbound).1 now).value = (o, s₂))
      (hopen : (o.openSpan s₂.tracer.config kind name now (inheritedFrom inbound).2).value =
        (f, o')) :
      Effect now s op ⟨.frame f, none, s₂.withActive o'⟩
  /-- An exit span is opened. -/
  | sent {name peer : String} {k k' : Option Carrier} {s₂ : Site} {o o' : OpenSegment} {f : Frame}
      (hsegment : (s.segmentFor name .undecided now).value = (o, s₂))
      (hopen : (o.openExit s₂.tracer.config name peer k now).value = (f, k', o')) :
      Effect now s (.exit name peer k) ⟨.sent f k', none, s₂.withActive o'⟩
  | prepared {o o' : OpenSegment} {t : Tracer} {h : AsyncHandle}
      (hactive : s.strand.active = some o) (hprepare : o.prepareAsync s.tracer = .ok (h, o', t)) :
      Effect now s .prepareAsync ⟨.handle h, none, { s with tracer := t }.withActive o'⟩
  /-- The active span is stopped, others stay open. -/
  | stopped {expected : Option Int} {o o₁ o' : OpenSegment} {f : Frame} {t : Tracer}
      (hactive : s.strand.active = some o) (hpop : o.pop expected = .ok (f, o₁))
      (hretire : (o₁.retire s.tracer f now).value = (o', t)) (hopen : o'.stack ≠ []) :
      Effect now s (.stop expected) ⟨.flag false, none, { s with tracer := t }.withActive o'⟩
  /-- The last span is stopped, and the segment ends. -/
  | ended {expected : Option Int} {o o₁ o' : OpenSegment} {f : Frame} {t t' : Tracer}
      {due : Option Segment} (hactive : s.strand.active = some o)
      (hpop : o.pop expected = .ok (f, o₁))
      (hretire : (o₁.retire s.tracer f now).value = (o', t)) (hlast : o'.stack = [])
      (hfinish : (o'.finish t).value = (due, t')) :
      Effect now s (.stop expected)
        ⟨.flag true, due,
          ⟨(t'.reportDue due).value, { s.strand with active := none }⟩⟩

/-! ### Operations that touch -/

theorem touches_of_touch {now : UInt64} {s s' : Site} (h : Touch now s s') : Touches now s s' :=
  Relation.ReflTransGen.single h

theorem touches_discard (now : UInt64) (s : Site) : Touches now s s.discard.value.2 := by
  unfold discard
  split
  · exact touches_of_touch .discard
  · exact .refl

/-- **Continued**: what continuing a snapshot makes of a site. -/
inductive Continued (s : Site) : Snapshot → Site → Prop where
  | invalid {snapshot : Snapshot} (hvalid : snapshot.isValid = false) : Continued s snapshot s
  | pending {snapshot : Snapshot} (hidle : s.strand.active = none)
      (hvalid : snapshot.isValid = true) :
      Continued s snapshot { s with strand := { s.strand with continuation := some snapshot } }
  | ignored {o : OpenSegment} (hactive : s.strand.active = some o) (id : String) :
      Continued s (.ignored id) (s.withActive o.ignore.value)
  /-- The segment's own snapshot is skipped. -/
  | own {o : OpenSegment} {c : Captured} (hactive : s.strand.active = some o)
      (hvalid : (Snapshot.sampled c).isValid = true)
      (hown : s.strand.isCurrent (.sampled c) = true) : Continued s (.sampled c) s
  | joined {o : OpenSegment} {c : Captured} (hactive : s.strand.active = some o)
      (hvalid : (Snapshot.sampled c).isValid = true)
      (hother : s.strand.isCurrent (.sampled c) = false) :
      Continued s (.sampled c) (s.withActive (o.continueFrom c).value)

theorem continued_spec (s : Site) (snapshot : Snapshot) :
    s.Continued snapshot (s.continued snapshot).value := by
  unfold continued
  cases hvalid : snapshot.isValid with
  | false => exact .invalid hvalid
  | true =>
    cases hactive : s.strand.active with
    | none => exact .pending hactive hvalid
    | some o =>
      cases snapshot with
      | ignored id => exact .ignored hactive id
      | sampled c =>
        cases hcurrent : s.strand.isCurrent (.sampled c) with
        | true => exact .own hactive hvalid hcurrent
        | false => exact .joined hactive hvalid hcurrent

theorem continued_of_invalid {s : Site} {snapshot : Snapshot} (h : snapshot.isValid = false) :
    (s.continued snapshot).value = s := by
  unfold continued
  rw [h]
  rfl

/-- A snapshot that an idle strand continues is pending, whatever was before. -/
theorem continued_of_idle {s : Site} (hidle : s.strand.active = none) {snapshot : Snapshot}
    (hvalid : snapshot.isValid = true) :
    (s.continued snapshot).value =
      { s with strand := { s.strand with continuation := some snapshot } } := by
  unfold continued
  rw [hvalid, hidle]
  rfl

theorem touches_continued (now : UInt64) (s : Site) (snapshot : Snapshot) :
    Touches now s (s.continued snapshot).value := by
  have h := s.continued_spec snapshot
  generalize (s.continued snapshot).value = s' at h ⊢
  cases h with
  | invalid hvalid => exact .refl
  | pending hidle hvalid => exact touches_of_touch (.pend _ hidle hvalid)
  | ignored hactive id => exact touches_of_touch (.ignore hactive)
  | own hactive hvalid hown => exact .refl
  | joined hactive hvalid hother => exact touches_of_touch (.continueFrom hactive hvalid hother)

theorem touches_reset (now : UInt64) (s : Site) : Touches now s s.reset.value :=
  .trans (touches_of_touch (.scratch {})) (touches_discard now _)

theorem touches_putCorrelation (now : UInt64) (s : Site) (key value : String) :
    Touches now s (s.putCorrelation key value).value.2 := by
  unfold putCorrelation
  split
  · next o hactive => exact touches_of_touch (.putCorrelation key value hactive)
  · exact .refl

/-- What is received is applied to the active span, or leaves the site as it is. -/
theorem receive_eq_ok {now : UInt64} {s : Site} {inbound : Inbound} {step : Logged Site}
    (h : s.receive inbound now = .ok step) :
    step.value = s ∨ ∃ c o f rest, inbound = .remote c ∧ s.strand.active = some o ∧
      o.stack = f :: rest ∧
      let applied := ({ o with stack := rest }.applyInbound f c now).value
      step.value = s.withActive (applied.2.push applied.1) := by
  unfold receive at h
  obtain ⟨o, hactive, h⟩ := Attempt.bind_eq_ok.mp h
  rw [active_eq_ok] at hactive
  -- what is absent or ignored leaves the site, although the strand is active
  cases inbound with
  | absent =>
    obtain rfl := Except.ok.inj h
    exact .inl rfl
  | ignored =>
    obtain rfl := Except.ok.inj h
    exact .inl rfl
  | remote c =>
    obtain ⟨received, hreceive, h⟩ := Attempt.bind_eq_ok.mp h
    obtain rfl := Except.ok.inj h
    rw [Attempt.raised_eq_ok, Attempt.within_eq_ok] at hreceive
    obtain ⟨⟨f, o'⟩, hpop, rfl⟩ := Attempt.map_eq_ok.mp hreceive
    obtain ⟨rest, hstack, rfl, -⟩ := OpenSegment.pop_eq_ok hpop
    exact .inr ⟨c, o, f, rest, rfl, hactive, hstack, rfl⟩

theorem touches_receive {now : UInt64} {s : Site} {k : Carrier} {step : Logged Site}
    (h : s.receive (s.readCarrier k).value now = .ok step) : Touches now s step.value := by
  rcases receive_eq_ok h with hsame | ⟨c, o, f, rest, hread, hactive, hstack, happlied⟩
  · rw [hsame]
  · rw [happlied]
    exact touches_of_touch (.receive hactive hread hstack rfl)

/-- The active span is edited. -/
theorem edit_eq_ok {now : UInt64} {s : Site} {edits : List Edit}
    {step : Logged (List EditAnswer × Frame × Site)} (h : s.edit edits now = .ok step) :
    ∃ o f rest, s.strand.active = some o ∧ o.stack = f :: rest ∧
      step.value.2.2 = s.withActive { o with stack := (f.editAll now edits).value.2 :: rest } := by
  unfold edit at h
  obtain ⟨o, hactive, h⟩ := Attempt.bind_eq_ok.mp h
  rw [active_eq_ok] at hactive
  split at h
  · contradiction
  · next f rest hstack =>
    obtain rfl := Except.ok.inj h
    exact ⟨o, f, rest, hactive, hstack, rfl⟩

theorem touches_edit {now : UInt64} {s : Site} {edits : List Edit}
    {step : Logged (List EditAnswer × Frame × Site)} (h : s.edit edits now = .ok step) :
    Touches now s step.value.2.2 := by
  obtain ⟨o, f, rest, hactive, hstack, hedited⟩ := edit_eq_ok h
  rw [hedited]
  exact touches_of_touch (.edit edits hactive hstack)

/-! ### The segment for a new span -/

section Segments

variable {s : Site} (name : String) (inherited : Inherited) (now : UInt64)

theorem segmentFor_of_active {o : OpenSegment} (h : s.strand.active = some o) :
    s.segmentFor name inherited now = pure (o, s) := by
  unfold segmentFor
  rw [h]

theorem segmentFor_of_idle (h : s.strand.active = none) :
    let begun := (OpenSegment.start s.tracer s.strand.ordinal now name inherited
      s.strand.continuation).value
    (s.segmentFor name inherited now).value =
      (begun.1, ⟨begun.2, { s.strand with continuation := none }⟩) := by
  unfold segmentFor
  rw [h]
  rfl

variable {name} {inherited} {now}

/-- **The segment for a new span** is the open one, or it begins now. -/
theorem segmentFor_cases {s₂ : Site} {o : OpenSegment}
    (h : (s.segmentFor name inherited now).value = (o, s₂)) :
    s.strand.active = some o ∧ s₂ = s ∨
      s.strand.active = none ∧
        o = (OpenSegment.start s.tracer s.strand.ordinal now name inherited
          s.strand.continuation).value.1 ∧
        s₂ = ⟨(OpenSegment.start s.tracer s.strand.ordinal now name inherited
          s.strand.continuation).value.2, { s.strand with continuation := none }⟩ := by
  cases hactive : s.strand.active with
  | some o' =>
    rw [segmentFor_of_active name inherited now hactive] at h
    obtain ⟨rfl, rfl⟩ := Prod.mk.inj h
    exact .inl ⟨rfl, rfl⟩
  | none =>
    rw [segmentFor_of_idle name inherited now hactive] at h
    obtain ⟨rfl, rfl⟩ := Prod.mk.inj h
    exact .inr ⟨rfl, rfl, rfl⟩

variable (s) (name) (now)

/-- A span that is no exit span is opened in the segment for it. -/
theorem openSpan_value (kind : SpanKind) (inbound : Inbound) :
    ∃ o s₂, (s.segmentFor name (inheritedFrom inbound).1 now).value = (o, s₂) ∧
      (s.openSpan kind name inbound now).value =
        ((o.openSpan s₂.tracer.config kind name now (inheritedFrom inbound).2).value.1,
          s₂.withActive
            (o.openSpan s₂.tracer.config kind name now (inheritedFrom inbound).2).value.2) :=
  ⟨_, _, rfl, rfl⟩

theorem exit_value (peer : String) (k : Option Carrier) :
    ∃ o s₂, (s.segmentFor name .undecided now).value = (o, s₂) ∧
      (s.exit name peer k now).value =
        ((o.openExit s₂.tracer.config name peer k now).value.1,
          (o.openExit s₂.tracer.config name peer k now).value.2.1,
          s₂.withActive (o.openExit s₂.tracer.config name peer k now).value.2.2) :=
  ⟨_, _, rfl, rfl⟩

end Segments

/-! ### All operations -/

/-- A step that opens a span which is no exit span. -/
theorem effect_openSpan {now : UInt64} {s s₁ s' : Site} {op : StrandOp} {kind : SpanKind}
    {name : String} {inbound : Inbound} {f : Frame} (hop : op.opens? = some kind)
    (hread : ∀ c, inbound = .remote c → ∃ k, (s.readCarrier k).value = .remote c)
    (htouch : Touches now s s₁) (h : (s₁.openSpan kind name inbound now).value = (f, s')) :
    Effect now s op ⟨.frame f, none, s'⟩ := by
  obtain ⟨o, s₂, hsegment, hvalue⟩ := s₁.openSpan_value name now kind inbound
  rw [hvalue] at h
  obtain ⟨rfl, rfl⟩ := Prod.mk.inj h
  exact .opened hop hread htouch hsegment rfl

/-- What an entry span is opened with: the context in the carrier, if there is one. -/
def inboundOf (s : Site) : Option Carrier → Inbound
  | some k => (s.readCarrier k).value
  | none => .absent

theorem entry_value (s : Site) (name : String) (k : Option Carrier) (now : UInt64) :
    (s.entry name k now).value = (s.openSpan .entry name (s.inboundOf k) now).value := by
  unfold entry inboundOf
  cases k with
  | none => rfl
  | some k => rfl

theorem effect_entry {now : UInt64} {s s' : Site} {op : StrandOp} {name : String}
    {k : Option Carrier} {f : Frame} (hop : op.opens? = some .entry)
    (h : (s.entry name k now).value = (f, s')) : Effect now s op ⟨.frame f, none, s'⟩ := by
  rw [entry_value] at h
  refine effect_openSpan hop (fun c hc => ?_) .refl h
  cases k with
  | none => contradiction
  | some k => exact ⟨k, hc⟩

theorem effect_exit {now : UInt64} {s s' : Site} {name peer : String} {k k' : Option Carrier}
    {f : Frame} (h : (s.exit name peer k now).value = (f, k', s')) :
    Effect now s (.exit name peer k) ⟨.sent f k', none, s'⟩ := by
  obtain ⟨o, s₂, hsegment, hvalue⟩ := s.exit_value name now peer k
  rw [hvalue] at h
  obtain ⟨rfl, hsent⟩ := Prod.mk.inj h
  obtain ⟨rfl, rfl⟩ := Prod.mk.inj hsent
  exact .sent hsegment rfl

theorem effect_stop {now : UInt64} {s : Site} {expected : Option Int}
    {step : Logged (Bool × Option Segment × Site)} (h : s.stop expected now = .ok step) :
    Effect now s (.stop expected)
      ((step >>= fun r => r.2.2.handOver (.flag r.1) r.2.1).value) := by
  unfold stop at h
  obtain ⟨o, hactive, h⟩ := Attempt.bind_eq_ok.mp h
  rw [active_eq_ok] at hactive
  obtain ⟨stopped, hstop, h⟩ := Attempt.bind_eq_ok.mp h
  obtain rfl := Except.ok.inj h
  rw [Attempt.raised_eq_ok, Attempt.within_eq_ok] at hstop
  obtain ⟨⟨f, o₁⟩, hpop, rfl⟩ := Attempt.map_eq_ok.mp hstop
  rw [Attempt.within_eq_ok] at hpop
  cases hretire : (o₁.retire s.tracer f now).value with
  | mk o' t =>
    -- the effect depends on what is left on the stack once the span was retired
    by_cases hlast : o'.stack = []
    · simp only [Logged.bind_value, hretire, hlast, List.isEmpty_nil, if_true]
      exact .ended hactive hpop hretire hlast rfl
    · have hopen : o'.stack.isEmpty = false := by simp [hlast]
      simp only [Logged.bind_value, hretire, hopen]
      exact .stopped hactive hpop hretire hlast

theorem effect_prepareAsync {now : UInt64} {s s' : Site} {h : AsyncHandle}
    (hp : s.prepareAsync = .ok (h, s')) :
    Effect now s .prepareAsync ⟨.handle h, none, s'⟩ := by
  unfold prepareAsync at hp
  obtain ⟨o, hactive, hp⟩ := Attempt.bind_eq_ok.mp hp
  rw [active_eq_ok] at hactive
  obtain ⟨⟨h', o', t⟩, hprepare, hp⟩ := Attempt.bind_eq_ok.mp hp
  rw [Attempt.raised_eq_ok, Attempt.within_eq_ok] at hprepare
  obtain ⟨rfl, rfl⟩ := Prod.mk.inj (Except.ok.inj hp)
  exact .prepared hactive hprepare

/-- An atomic attempt is refused, or has the effect of what it succeeds with. -/
theorem effect_ofAttempt {now : UInt64} {s : Site} {op : StrandOp} (hop : op.opens? = none)
    {β : Type} {a : Attempt UsageError Site β} (hatomic : a.Atomic Attempt.once s)
    {F : β → Logged (Outcome Site)} (h : ∀ y, a = .ok y → Effect now s op (F y).value) :
    Effect now s op (Outcome.ofAttempt .usage (a.map F)).value := by
  rcases Outcome.ofAttempt_cases .usage (hatomic.map F) with ⟨step, hok, hstep⟩ | ⟨e, -, hstep⟩
  · obtain ⟨y, hy, rfl⟩ := Attempt.map_eq_ok.mp hok
    rw [hstep]
    exact h y hy
  · rw [hstep]
    exact .refused e hop

/-- While idle, a pending continuation is discarded before the snapshot is continued. -/
theorem innerWith_value (s : Site) (name : String) (snapshot : Snapshot) (now : UInt64) :
    (s.innerWith name snapshot now).value =
      (((if s.strand.isActive then s else s.discard.value.2).continued snapshot).value.openSpan
        .inner name .absent now).value := by
  unfold innerWith inner
  cases s.strand.isActive with
  | true => rfl
  | false => rfl

theorem discard_value (s : Site) :
    s.discard.value.2 = { s with strand := { s.strand with continuation := none } } := by
  obtain ⟨t, ordinal, active, continuation, scratch⟩ := s
  cases continuation <;> rfl

theorem innerWith_of_active {s : Site} {o : OpenSegment} (h : s.strand.active = some o)
    (name : String) (snapshot : Snapshot) (now : UInt64) :
    (s.innerWith name snapshot now).value =
      ((s.continued snapshot).value.openSpan .inner name .absent now).value := by
  rw [innerWith_value, Strand.isActive, h]
  rfl

theorem innerWith_of_idle {s : Site} (h : s.strand.active = none) (name : String)
    (snapshot : Snapshot) (now : UInt64) :
    (s.innerWith name snapshot now).value =
      ((continued { s with strand := { s.strand with continuation := none } }
        snapshot).value.openSpan .inner name .absent now).value := by
  rw [innerWith_value, Strand.isActive, h, ← discard_value]
  rfl

/-- **Inversion of a step**: every step of a strand has one of the effects. -/
theorem effect_of_step (s : Site) (now : UInt64) (op : StrandOp) :
    Effect now s op (s.step now op).value := by
  cases op with
  | entry name k =>
    simp only [step, Logged.bind_value]
    cases h : (s.entry name k now).value with
    | mk f s' => exact effect_entry rfl h
  | entryFrom name headers =>
    simp only [step, Logged.bind_value]
    cases h : (s.entryFrom name headers now).value with
    | mk f s' => exact effect_entry rfl h
  | exit name peer k =>
    simp only [step, Logged.bind_value]
    cases h : (s.exit name peer k now).value with
    | mk f r => exact effect_exit h
  | inner name =>
    simp only [step, Logged.bind_value]
    cases h : (s.inner name now).value with
    | mk f s' => exact effect_openSpan rfl (fun c hc => by contradiction) .refl h
  | innerWith name snapshot =>
    simp only [step, Logged.bind_value]
    cases h : (s.innerWith name snapshot now).value with
    | mk f s' =>
      rw [innerWith_value] at h
      refine effect_openSpan rfl (fun c hc => by contradiction) ?_ h
      -- the continuation that is discarded and the one that is taken are touches, one by one
      refine .trans ?_ (touches_continued now _ snapshot)
      split
      · exact .refl
      · exact touches_discard now s
  | stop expected => exact effect_ofAttempt rfl (s.atomic_stop now expected) fun _ => effect_stop
  | capture => exact .touched rfl (fun _ h => by contradiction) (fun h => by contradiction) .refl
  | continued snapshot =>
    exact .touched rfl (fun _ h => by contradiction) (fun h => by contradiction)
      (touches_continued now s snapshot)
  | discard =>
    exact .touched rfl (fun _ h => by contradiction) (fun h => by contradiction)
      (touches_discard now s)
  | inject k =>
    exact effect_ofAttempt rfl ((s.atomic_inject now k).within Prod.fst) fun _ _ =>
      .touched rfl (fun _ h => by contradiction) (fun h => by contradiction) .refl
  | extract k =>
    exact effect_ofAttempt rfl (s.atomic_receive now _) fun _ hs =>
      .touched rfl (fun _ h => by contradiction) (fun h => by contradiction) (touches_receive hs)
  | active =>
    exact effect_ofAttempt rfl s.atomic_activeFrame fun _ _ =>
      .touched rfl (fun _ h => by contradiction) (fun h => by contradiction) .refl
  | edit edits =>
    exact effect_ofAttempt rfl (s.atomic_edit now edits) fun _ hs =>
      .touched rfl (fun _ h => by contradiction) (fun h => by contradiction) (touches_edit hs)
  | prepareAsync =>
    exact effect_ofAttempt rfl s.atomic_prepareAsync fun _ => effect_prepareAsync
  | putCorrelation key value =>
    exact .touched rfl (fun _ h => by contradiction) (fun h => by contradiction)
      (touches_putCorrelation now s key value)
  | scratch op =>
    exact .touched rfl (fun _ h => by contradiction) (fun h => by contradiction)
      (touches_of_touch (.scratch _))
  | reset =>
    exact .touched rfl (fun _ h => by contradiction) (fun h => by contradiction)
      (touches_reset now s)

end Site

end TraceLink
