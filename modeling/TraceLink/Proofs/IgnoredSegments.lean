import TraceLink.Proofs.LinkedHops
import TraceLink.Proofs.UsageErrors

/-! # Ignored segments

    A segment that is not sampled is ignored: its spans are placeholders, and what it
    sends and what is taken of it says that the trace is ignored.

    The decision is made when a segment begins. An ignored trace that is received, or
    an ignored snapshot that is pending, overrides everything else. Of the steps of a
    strand only one changes the decision of its open segment: continuing an ignored
    snapshot. -/

namespace TraceLink

/-- The operation continues a snapshot of an ignored segment. -/
def StrandOp.continuesIgnored : StrandOp → Bool
  | .continued snapshot | .innerWith _ snapshot => snapshot.isIgnored
  | _ => false

/-- The operation continues a snapshot of an ignored segment on the strand at place
    `k`. -/
def Op.continuesIgnored (k : Nat) : Op → Bool
  | .strand k' op => k' == k && op.continuesIgnored
  | _ => false

/-! ### The decision of an open segment -/

/-- The outline when an ignored snapshot is continued, or another one. -/
def Outline.faded (x : Outline) (ignored : Bool) : Outline :=
  { x with sampled := x.sampled && !ignored }

theorem Outline.faded_false (x : Outline) : x.faded false = x := by
  unfold faded
  rw [Bool.not_false, Bool.and_true]

namespace Site

variable {s : Site} {x x' : Outline} {now : UInt64}

theorem active_of_outline? (h : s.outline? = some x) :
    ∃ o, s.strand.active = some o ∧ o.outline = x := Option.map_eq_some_iff.mp h

/-- A span that is opened in the open segment. -/
theorem outline?_openSpan (h : s.outline? = some x) (kind : SpanKind) (name : String)
    (inbound : Inbound) (now : UInt64) :
    (s.openSpan kind name inbound now).value.2.outline? =
      some (x.opened s.tracer.config.capacity kind now) := by
  obtain ⟨o, hactive, rfl⟩ := active_of_outline? h
  unfold openSpan
  simp only [Logged.bind_value, Logged.pure_value, segmentFor_of_active _ _ _ hactive]
  rw [outline?_withActive, OpenSegment.outline_openSpan]

theorem outline?_exit (h : s.outline? = some x) (name peer : String) (k : Option Carrier)
    (now : UInt64) :
    (s.exit name peer k now).value.2.2.outline? =
      some (x.opened s.tracer.config.capacity .exit now) := by
  obtain ⟨o, hactive, rfl⟩ := active_of_outline? h
  unfold exit
  simp only [Logged.bind_value, Logged.pure_value, segmentFor_of_active _ _ _ hactive]
  rw [outline?_withActive, OpenSegment.outline_openExit]

/-- Of the snapshots that are continued, only an ignored one changes the decision. -/
theorem outline?_continued (h : s.outline? = some x) (snapshot : Snapshot) :
    (s.continued snapshot).value.outline? = some (x.faded snapshot.isIgnored) := by
  obtain ⟨o, ho, rfl⟩ := active_of_outline? h
  have hcontinued := s.continued_spec snapshot
  generalize (s.continued snapshot).value = s' at hcontinued ⊢
  cases hcontinued with
  | invalid hvalid =>
    cases snapshot with
    | ignored id => contradiction
    | sampled c => exact h.trans (congrArg some (Outline.faded_false _).symm)
  | pending hidle hvalid =>
    rw [ho] at hidle
    contradiction
  | ignored hactive id =>
    obtain rfl := Option.some.inj (ho.symm.trans hactive)
    rw [outline?_withActive]
    unfold OpenSegment.ignore Outline.faded OpenSegment.outline Snapshot.isIgnored
    simp only [Logged.bind_value, Logged.pure_value, Bool.not_true, Bool.and_false]
  | own hactive hvalid hown => exact h.trans (congrArg some (Outline.faded_false _).symm)
  | joined hactive hvalid hother =>
    obtain rfl := Option.some.inj (ho.symm.trans hactive)
    rw [outline?_withActive, OpenSegment.outline_continueFrom]
    exact congrArg some (Outline.faded_false _).symm

theorem outline?_discard (s : Site) : s.discard.value.2.outline? = s.outline? := by
  unfold discard
  split
  · rfl
  · rfl

theorem outline?_receive {inbound : Inbound} {step : Logged Site}
    (h : s.receive inbound now = .ok step) : step.value.outline? = s.outline? := by
  rcases receive_eq_ok h with hsame | ⟨c, o, f, rest, -, hactive, hstack, happlied⟩
  · rw [hsame]
  · rw [happlied, outline?_of_active hactive]
    exact congrArg some (OpenSegment.outline_received hstack rfl)

theorem outline?_edit {edits : List Edit} {step : Logged (List EditAnswer × Frame × Site)}
    (h : s.edit edits now = .ok step) : step.value.2.2.outline? = s.outline? := by
  obtain ⟨o, f, rest, hactive, hstack, hedited⟩ := edit_eq_ok h
  rw [hedited, outline?_of_active hactive]
  exact congrArg some (OpenSegment.outline_edited hstack now edits)

theorem outline?_putCorrelation (s : Site) (key value : String) :
    (s.putCorrelation key value).value.2.outline? = s.outline? := by
  unfold putCorrelation
  split
  · next o hactive =>
    rw [outline?_of_active hactive]
    exact congrArg some (OpenSegment.outline_putCorrelation _ _ _ _)
  · rfl

/-- Stopping or preparing a span changes neither the id nor the decision. -/
theorem decision_of_effect {op : StrandOp} {outcome : Outcome Site} (h : s.outline? = some x)
    (hop : (∃ expected, op = .stop expected) ∨ op = .prepareAsync)
    (heffect : Effect now s op outcome) (h' : outcome.state.outline? = some x') :
    x'.id = x.id ∧ x'.sampled = x.sampled := by
  cases heffect with
  | refused e hnone =>
    obtain rfl := Option.some.inj (h.symm.trans h')
    exact ⟨rfl, rfl⟩
  | touched hnone hstop hprepare htouch =>
    rcases hop with ⟨expected, rfl⟩ | rfl
    · exact absurd rfl (hstop expected)
    · exact absurd rfl hprepare
  | opened hopens =>
    rcases hop with ⟨expected, rfl⟩ | rfl
    · contradiction
    · contradiction
  | sent => simp at hop
  | prepared hactive hprepare =>
    next o o' t a =>
    obtain rfl := Option.some.inj ((outline?_of_active hactive).symm.trans h)
    obtain rfl : o'.outline = x' := Option.some.inj h'
    rcases OpenSegment.prepareAsync_eq_ok hprepare with ⟨-, rfl, -⟩ |
      ⟨y, rest, n, t₁, -, -, -, -, rfl, -⟩
    · exact ⟨rfl, rfl⟩
    · exact ⟨rfl, rfl⟩
  | stopped hactive hpop hretire hopen =>
    next expected o o₁ o' f t =>
    obtain rfl := Option.some.inj ((outline?_of_active hactive).symm.trans h)
    obtain rfl : o'.outline = x' := Option.some.inj h'
    have hretired := o₁.retired_retire s.tracer f now
    rw [hretire] at hretired
    obtain ⟨⟨spans, hout⟩, -, -⟩ := hretired.spares
    obtain ⟨rest, -, rfl, -⟩ := OpenSegment.pop_eq_ok hpop
    rw [hout]
    exact ⟨rfl, rfl⟩
  | ended => contradiction

/-- What an operation that opens a span leaves of the decision. -/
theorem decision_of_opened {capacity : Nat} {kind : SpanKind} {ignored : Bool}
    (h' : some ((x.faded ignored).opened capacity kind now) = some x') :
    x'.id = x.id ∧ x'.sampled = (x.sampled && !ignored) := by
  obtain rfl := Option.some.inj h'
  exact ⟨Outline.id_opened _ _ _ _, (Outline.opened_fields _ _ _ _).2.1⟩

/-- **The decision after a step** is the one before, unless an ignored snapshot was
    continued. -/
theorem decision_step (h : s.outline? = some x) (now : UInt64) (op : StrandOp)
    (h' : (s.step now op).value.state.outline? = some x') :
    x'.id = x.id ∧ x'.sampled = (x.sampled && !op.continuesIgnored) := by
  have hsame : (s.step now op).value.state.outline? = s.outline? →
      op.continuesIgnored = false →
      x'.id = x.id ∧ x'.sampled = (x.sampled && !op.continuesIgnored) := by
    intro hout hop
    obtain rfl := Option.some.inj (h.symm.trans (hout.symm.trans h'))
    rw [hop, Bool.not_false, Bool.and_true]
    exact ⟨rfl, rfl⟩
  have hopened : ∀ kind, (s.step now op).value.state.outline? =
      some (x.opened s.tracer.config.capacity kind now) → op.continuesIgnored = false →
      x'.id = x.id ∧ x'.sampled = (x.sampled && !op.continuesIgnored) := by
    intro kind hout hop
    have hfaded : some ((x.faded false).opened s.tracer.config.capacity kind now) = some x' := by
      rw [Outline.faded_false]
      exact hout.symm.trans h'
    rw [hop]
    exact decision_of_opened hfaded
  have heffect := s.effect_of_step now op
  cases op with
  | entry name k =>
    refine hopened .entry ?_ rfl
    show (s.entry name k now).value.2.outline? = _
    rw [entry_value]
    exact outline?_openSpan h _ _ _ _
  | entryFrom name headers =>
    refine hopened .entry ?_ rfl
    show (s.entry name (some (Carrier.readFrom headers s.label)) now).value.2.outline? = _
    rw [entry_value]
    exact outline?_openSpan h _ _ _ _
  | exit name peer k => exact hopened .exit (outline?_exit h name peer k now) rfl
  | inner name => exact hopened .inner (outline?_openSpan h .inner name .absent now) rfl
  | innerWith name snapshot =>
    obtain ⟨o, hactive, -⟩ := active_of_outline? h
    have hcontinued := outline?_continued h snapshot
    have hout : (s.step now (.innerWith name snapshot)).value.state.outline? =
        some ((x.faded snapshot.isIgnored).opened
          (s.continued snapshot).value.tracer.config.capacity .inner now) := by
      show (s.innerWith name snapshot now).value.2.outline? = _
      rw [innerWith_of_active hactive]
      exact outline?_openSpan hcontinued _ _ _ _
    exact decision_of_opened (hout.symm.trans h')
  | stop expected =>
    rw [show StrandOp.continuesIgnored (.stop expected) = false from rfl, Bool.not_false,
      Bool.and_true]
    exact decision_of_effect h (.inl ⟨expected, rfl⟩) heffect h'
  | prepareAsync =>
    rw [show StrandOp.continuesIgnored .prepareAsync = false from rfl, Bool.not_false,
      Bool.and_true]
    exact decision_of_effect h (.inr rfl) heffect h'
  | capture => exact hsame rfl rfl
  | continued snapshot =>
    obtain rfl := Option.some.inj ((outline?_continued h snapshot).symm.trans h')
    exact ⟨rfl, rfl⟩
  | discard => exact hsame (outline?_discard s) rfl
  | inject k => exact hsame (congrArg outline? (s.state_inject now k)) rfl
  | extract k =>
    exact hsame (Outcome.state_ofAttempt outline? (s.atomic_receive now _)
      fun _ hreceive => outline?_receive hreceive) rfl
  | active => exact hsame (congrArg outline? (s.state_active now)) rfl
  | edit edits =>
    exact hsame (Outcome.state_ofAttempt outline? (s.atomic_edit now edits)
      fun _ hedit => outline?_edit hedit) rfl
  | putCorrelation key value => exact hsame (outline?_putCorrelation s key value) rfl
  | scratch op => exact hsame rfl rfl
  | reset => exact hsame (outline?_discard _) rfl

end Site

/-! ### What an ignored segment answers -/

/-- The carrier of an ignored trace: it says so, and carries nothing else. -/
def Carrier.ignored (label : String) : Carrier := ⟨label, some "0", none, none⟩

/-- **Answers of an ignored segment** with the given id: every span is a placeholder,
    every carrier says that the trace is ignored, and so does every snapshot. -/
def StrandOp.whileIgnored (segment : String) : StrandOp → Option Reply
  | .entry name _ | .entryFrom name _ | .inner name | .innerWith name _ =>
    some (.frame (.placeholder name))
  | .exit name _ k => some (.sent (.placeholder name) (k.map fun k => .ignored k.label))
  | .inject k => some (.carrier (.ignored k.label))
  | .capture => some (.snapshot (some (.ignored segment)))
  | _ => none

namespace OpenSegment

variable {o : OpenSegment}

theorem newFrame_of_ignored (h : o.sampled = false) (limit : Nat) (kind : SpanKind)
    (name : String) (now : UInt64) :
    o.newFrame limit kind name now = pure (.placeholder name, o) := by
  unfold newFrame
  rw [h]
  rfl

theorem send_of_ignored (h : o.sampled = false) (f : Frame) (peer : String) (k : Carrier)
    (now : UInt64) : o.send f peer k now = pure (.ignored k.label) := by
  unfold send
  rw [h]
  rfl

/-- A placeholder stays one, whatever it is opened below. -/
theorem openSpan_of_ignored (h : o.sampled = false) (c : Config) (kind : SpanKind)
    (name : String) (now : UInt64) (inbound : Option RemoteContext) :
    (o.openSpan c kind name now inbound).value.1 = .placeholder name := by
  unfold openSpan
  rw [newFrame_of_ignored h]
  cases inbound with
  | none => rfl
  | some r => rfl

theorem openExit_of_ignored (h : o.sampled = false) (c : Config) (name peer : String)
    (k : Option Carrier) (now : UInt64) :
    (o.openExit c name peer k now).value.1 = .placeholder name ∧
    (o.openExit c name peer k now).value.2.1 = k.map fun k => .ignored k.label := by
  unfold openExit
  rw [newFrame_of_ignored h]
  cases k with
  | none => exact ⟨rfl, rfl⟩
  | some k =>
    simp only [Logged.bind_value, Logged.pure_value, send_of_ignored h, Option.map_some]
    exact ⟨rfl, trivial⟩

theorem segment_capture (o : OpenSegment) : o.capture.segment = o.segment.id := by
  unfold capture
  split
  · rfl
  · rfl

theorem isIgnored_capture (o : OpenSegment) : o.capture.isIgnored = !o.sampled := by
  unfold capture
  cases o.sampled with
  | true => rfl
  | false => rfl

theorem inject_of_ignored (h : o.sampled = false) (hstack : o.stack ≠ []) (k : Carrier)
    (now : UInt64) : o.inject k now = .ok (pure (.ignored k.label)) := by
  obtain ⟨f, rest, hcons⟩ := List.exists_cons_of_ne_nil hstack
  unfold inject active?
  rw [hcons, List.head?_cons]
  cases f with
  | placeholder name => exact congrArg Except.ok (send_of_ignored h _ _ k now)
  | recorded x =>
    simp only [h, Bool.false_and, Bool.false_eq_true, if_false, send_of_ignored h]

end OpenSegment

namespace Site

variable {s : Site} {o : OpenSegment} {now : UInt64}

theorem openSpan_of_ignored (hactive : s.strand.active = some o) (h : o.sampled = false)
    (kind : SpanKind) (name : String) (inbound : Inbound) (now : UInt64) :
    (s.openSpan kind name inbound now).value.1 = .placeholder name := by
  unfold openSpan
  simp only [Logged.bind_value, Logged.pure_value, segmentFor_of_active _ _ _ hactive]
  exact OpenSegment.openSpan_of_ignored h _ _ _ _ _

/-- An exit span of an ignored segment sends an ignored trace. -/
theorem exit_of_ignored (hactive : s.strand.active = some o) (h : o.sampled = false)
    (name peer : String) (k : Option Carrier) (now : UInt64) :
    (s.step now (.exit name peer k)).value.reply =
      .sent (.placeholder name) (k.map fun k => .ignored k.label) := by
  obtain ⟨hframe, hsent⟩ := OpenSegment.openExit_of_ignored h s.tracer.config name peer k now
  show Reply.sent (s.exit name peer k now).value.1 (s.exit name peer k now).value.2.1 = _
  unfold exit
  simp only [Logged.bind_value, Logged.pure_value, segmentFor_of_active _ _ _ hactive]
  rw [hframe, hsent]

/-- **An ignored segment answers** to each operation as it has to. -/
theorem reply_of_ignored (hactive : s.strand.active = some o) (h : o.sampled = false)
    (hstack : o.stack ≠ []) {op : StrandOp} {reply : Reply}
    (hop : op.whileIgnored o.segment.id = some reply) :
    (s.step now op).value.reply = reply := by
  cases op with
  | entry name k =>
    obtain rfl := Option.some.inj hop
    show Reply.frame (s.entry name k now).value.1 = _
    rw [entry_value, openSpan_of_ignored hactive h]
  | entryFrom name headers =>
    obtain rfl := Option.some.inj hop
    show Reply.frame (s.entry name (some (Carrier.readFrom headers s.label)) now).value.1 = _
    rw [entry_value, openSpan_of_ignored hactive h]
  | inner name =>
    obtain rfl := Option.some.inj hop
    show Reply.frame (s.openSpan .inner name .absent now).value.1 = _
    rw [openSpan_of_ignored hactive h]
  | innerWith name snapshot =>
    obtain rfl := Option.some.inj hop
    -- the snapshot is continued first, and leaves the segment ignored
    obtain ⟨o', hactive', hout⟩ := active_of_outline?
      (outline?_continued (outline?_of_active hactive) snapshot)
    have h' : o'.sampled = false := by
      refine (congrArg Outline.sampled hout).trans ?_
      show (o.sampled && !snapshot.isIgnored) = false
      rw [h, Bool.false_and]
    show Reply.frame (s.innerWith name snapshot now).value.1 = _
    rw [innerWith_of_active hactive, openSpan_of_ignored hactive' h']
  | exit name peer k =>
    obtain rfl := Option.some.inj hop
    exact exit_of_ignored hactive h name peer k now
  | inject k =>
    obtain rfl := Option.some.inj hop
    have hsent : s.inject k now = .ok (pure (.ignored k.label)) :=
      inject_eq_ok.mpr ⟨o, hactive, OpenSegment.inject_of_ignored h hstack k now⟩
    simp only [step, hsent]
    rfl
  | capture =>
    obtain rfl := Option.some.inj hop
    show Reply.snapshot s.capture = _
    unfold capture OpenSegment.capture
    rw [hactive, Option.map_some, h]
    rfl
  | _ => contradiction

end Site

/-! ### How an ignored segment begins -/

theorem RemoteContext.extract_ignored (limits : Correlation.Limits) (label : String) :
    extract limits (.ignored label) = pure .ignored := by
  have hcut : Text.cut '-' (Text.trim "0".toList) = (['0'], []) := by decide +kernel
  show readLink limits _ "0" = _
  unfold readLink
  rw [hcut]
  rfl

namespace OpenSegment

/-- The gate judges, but it has to follow what is inherited or continued. -/
theorem sampled_start (t : Tracer) (ordinal now : UInt64) (name : String)
    (inherited : Inherited) (continuation : Option Snapshot) :
    (start t ordinal now name inherited continuation).value.1.sampled =
      (t.gate.judge name (decision inherited continuation) now).value.1 := by
  unfold start
  cases continuation with
  | none => rfl
  | some snapshot =>
    cases snapshot with
    | ignored id => rfl
    | sampled c =>
      simp only [Logged.bind_value, Logged.pure_value]
      exact congrArg Outline.sampled (outline_continueFrom _ c)

/-- An ignored trace is ignored, whatever is pending. -/
theorem decision_ignored (continuation : Option Snapshot) :
    decision .ignored continuation = .ignored := by
  cases continuation with
  | none => rfl
  | some snapshot => cases snapshot <;> rfl

end OpenSegment

namespace Site

variable {s : Site} {now : UInt64}

/-- The open segment of the site is ignored. -/
def Ignores (s : Site) : Prop := ∃ o, s.strand.active = some o ∧ o.sampled = false

theorem sampled_segmentFor (hidle : s.strand.active = none) (name : String)
    (inherited : Inherited) (now : UInt64) :
    (s.segmentFor name inherited now).value.1.sampled = (s.tracer.gate.judge name
      (OpenSegment.decision inherited s.strand.continuation) now).value.1 := by
  rw [segmentFor_of_idle name inherited now hidle]
  exact OpenSegment.sampled_start s.tracer s.strand.ordinal now name inherited _

/-- The segment that begins with a span which is no exit span. -/
theorem begun_openSpan (hidle : s.strand.active = none) (kind : SpanKind) (name : String)
    (inbound : Inbound) (now : UInt64) :
    ∃ o, (s.openSpan kind name inbound now).value.2.strand.active = some o ∧
      o.sampled = (s.tracer.gate.judge name (OpenSegment.decision (inheritedFrom inbound).1
        s.strand.continuation) now).value.1 := by
  have hbegun := sampled_segmentFor hidle name (inheritedFrom inbound).1 now
  unfold openSpan
  simp only [Logged.bind_value, Logged.pure_value]
  refine ⟨_, rfl, ?_⟩
  refine (congrArg Outline.sampled (OpenSegment.outline_openSpan _ _ _ _ _ _)).trans ?_
  exact (Outline.opened_fields _ _ _ _).2.1.trans hbegun

theorem begun_exit (hidle : s.strand.active = none) (name peer : String) (k : Option Carrier)
    (now : UInt64) :
    ∃ o, (s.exit name peer k now).value.2.2.strand.active = some o ∧
      o.sampled = (s.tracer.gate.judge name
        (OpenSegment.decision .undecided s.strand.continuation) now).value.1 := by
  have hbegun := sampled_segmentFor hidle name .undecided now
  unfold exit
  simp only [Logged.bind_value, Logged.pure_value]
  refine ⟨_, rfl, ?_⟩
  refine (congrArg Outline.sampled (OpenSegment.outline_openExit _ _ _ _ _ _)).trans ?_
  exact (Outline.opened_fields _ _ _ _).2.1.trans hbegun

theorem ignores_openSpan (hidle : s.strand.active = none) {inbound : Inbound}
    (h : OpenSegment.decision (inheritedFrom inbound).1 s.strand.continuation = .ignored)
    (kind : SpanKind) (name : String) (now : UInt64) :
    (s.openSpan kind name inbound now).value.2.Ignores := by
  obtain ⟨o, hactive, hsampled⟩ := begun_openSpan hidle kind name inbound now
  rw [h] at hsampled
  exact ⟨o, hactive, hsampled⟩

/-- An idle strand that receives an ignored trace ignores it, whatever is pending. -/
theorem ignores_entry (hidle : s.strand.active = none) (name label : String) (now : UInt64) :
    (s.entry name (some (.ignored label)) now).value.2.Ignores := by
  have hread : s.inboundOf (some (.ignored label)) = .ignored := by
    show (RemoteContext.extract _ _).value = _
    rw [RemoteContext.extract_ignored, Logged.pure_value]
  have hdecision : OpenSegment.decision (inheritedFrom .ignored).1 s.strand.continuation =
      .ignored := OpenSegment.decision_ignored _
  rw [entry_value, hread]
  exact ignores_openSpan hidle hdecision .entry name now

/-- While an ignored snapshot is pending, every span begins an ignored segment. -/
theorem ignores_of_pending (hidle : s.strand.active = none) {id : String}
    (hpending : s.strand.continuation = some (.ignored id)) {op : StrandOp} {kind : SpanKind}
    (hop : op.opens? = some kind) (hother : ∀ name snapshot, op ≠ .innerWith name snapshot) :
    (s.step now op).value.state.Ignores := by
  have hdecision (inherited : Inherited) :
      OpenSegment.decision inherited s.strand.continuation = .ignored := by
    rw [hpending]
    rfl
  cases op with
  | entry name k =>
    show (s.entry name k now).value.2.Ignores
    rw [entry_value]
    exact ignores_openSpan hidle (hdecision _) .entry name now
  | entryFrom name headers =>
    show (s.entry name (some (Carrier.readFrom headers s.label)) now).value.2.Ignores
    rw [entry_value]
    exact ignores_openSpan hidle (hdecision _) .entry name now
  | inner name =>
    show (s.openSpan .inner name .absent now).value.2.Ignores
    exact ignores_openSpan hidle (hdecision _) .inner name now
  | exit name peer k =>
    show (s.exit name peer k now).value.2.2.Ignores
    obtain ⟨o, hactive, hsampled⟩ := begun_exit hidle name peer k now
    rw [hdecision] at hsampled
    exact ⟨o, hactive, hsampled⟩
  | innerWith name snapshot => exact absurd rfl (hother name snapshot)
  | _ => contradiction

theorem ignores_innerWith (hidle : s.strand.active = none) (name id : String) (now : UInt64) :
    (s.innerWith name (.ignored id) now).value.2.Ignores := by
  have hdecision : OpenSegment.decision (inheritedFrom .absent).1 (some (.ignored id)) =
      .ignored := rfl
  rw [innerWith_of_idle hidle, continued_of_idle (by exact hidle) rfl]
  refine ignores_openSpan ?_ ?_ .inner name now
  · exact hidle
  · exact hdecision

end Site

end TraceLink
