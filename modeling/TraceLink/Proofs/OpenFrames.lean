import TraceLink.Proofs.StockSteps

/-! # Open frames

    A span that stands on the stack has no end time yet: opening a span gives it none,
    and what is written into it while it is open gives it none either. The one exception
    is an edit that closes the active span. In a run without such edits, every end time
    comes from a stop, or from the handle of an async span. -/

namespace TraceLink

/-! ### Writing without closing -/

/-- The operation does not close a span by an edit. -/
def StrandOp.ClosesNone : StrandOp → Prop
  | .edit edits => ∀ time, Edit.close time ∉ edits
  | _ => True

/-- The operation does not close a span by an edit. -/
def Op.ClosesNone : Op → Prop
  | .strand _ op => op.ClosesNone
  | _ => True

namespace Span

theorem stop_whileOpen (action : String) {change : Span → Span}
    (h : ∀ s, (change s).stop = s.stop) (s : Span) :
    (whileOpen action change s).value.stop = s.stop := whileOpen_congr stop action h s

theorem stop_tag (key value : String) (s : Span) : (s.tag key value).value.stop = s.stop := by
  apply stop_whileOpen
  intro s
  rfl

theorem stop_tagWith (t : Tag) (value : String) (s : Span) :
    (s.tagWith t value).value.stop = s.stop := by
  apply stop_whileOpen
  intro s
  rfl

theorem stop_setPeer (peer : String) (s : Span) : (s.setPeer peer).value.stop = s.stop := by
  apply setPeer_congr stop
  intro s
  rfl

/-- Only one edit gives an end time. -/
theorem stop_edit {e : Edit} (h : ∀ time, e ≠ .close time) (now : UInt64) (s : Span) :
    (s.edit now e).value.2.stop = s.stop := by
  cases e with
  | close time => exact absurd rfl (h time)
  | setPeer peer => exact stop_setPeer peer s
  | tagValue key => rfl
  | _ =>
    apply stop_whileOpen
    intro s
    rfl

theorem stop_markInbound (c : RemoteContext) (now : UInt64) (s : Span) :
    (OpenSegment.markInbound c now s).value.stop = s.stop := by
  have hskip (s : Span) :
      (if c.extension.skipAnalysis then { s with skipAnalysis := true } else s).stop = s.stop := by
    split <;> rfl
  rw [OpenSegment.markInbound_value]
  refine (hskip _).trans ?_
  split
  · split
    · exact stop_tagWith _ _ _
    · rfl
  · rfl

end Span

/-! ### Frames -/

namespace Frame

/-- **Open frame**: a placeholder, or a span without an end time. -/
def IsOpen (f : Frame) : Prop := ∀ s, f.span? = some s → s.stop = none

theorem isOpen_placeholder (name : String) : (placeholder name).IsOpen :=
  fun s hs => by contradiction

theorem isOpen_recorded {s : Span} (h : s.stop = none) : (recorded s).IsOpen := by
  intro s' hs'
  obtain rfl := Option.some.inj hs'
  exact h

variable {f : Frame}

theorem IsOpen.modify (hf : f.IsOpen) {change : Span → Logged Span}
    (h : ∀ s, (change s).value.stop = s.stop) : (f.modify change).value.IsOpen := by
  cases f with
  | recorded s => exact isOpen_recorded ((h s).trans (hf s rfl))
  | placeholder name => exact isOpen_placeholder name

theorem IsOpen.editAll (hf : f.IsOpen) (now : UInt64) {edits : List Edit}
    (h : ∀ time, Edit.close time ∉ edits) : (f.editAll now edits).value.2.IsOpen := by
  induction edits generalizing f with
  | nil => exact hf
  | cons e edits ih =>
    have he : ∀ time, e ≠ .close time := fun time heq => h time (heq ▸ List.mem_cons_self)
    have hedit : (f.edit now e).value.2.IsOpen := by
      cases f with
      | recorded s => exact isOpen_recorded ((Span.stop_edit he now s).trans (hf s rfl))
      | placeholder name => exact isOpen_placeholder name
    exact ih hedit fun time hmem => h time (List.mem_cons_of_mem e hmem)

end Frame

/-! ### Open segments -/

namespace OpenSegment

/-- All frames on the stack are open. -/
def AllOpen (o : OpenSegment) : Prop := ∀ f ∈ o.stack, f.IsOpen

variable {o o' : OpenSegment} {f : Frame} {rest : List Frame}

theorem AllOpen.of_stack (h : o.AllOpen) (hstack : o'.stack = o.stack) : o'.AllOpen := by
  intro f hf
  exact h f (hstack ▸ hf)

theorem AllOpen.of_cons (h : o.AllOpen) (hstack : o'.stack = f :: o.stack) (hf : f.IsOpen) :
    o'.AllOpen := by
  intro f' hf'
  rw [hstack] at hf'
  cases List.mem_cons.mp hf' with
  | inl heq => exact heq ▸ hf
  | inr hold => exact h f' hold

theorem AllOpen.below (h : o.AllOpen) (hstack : o.stack = f :: rest) :
    AllOpen { o with stack := rest } :=
  fun f' hf' => h f' (hstack ▸ List.mem_cons_of_mem f hf')

theorem AllOpen.top (h : o.AllOpen) (hstack : o.stack = f :: rest) : f.IsOpen :=
  h f (hstack ▸ List.mem_cons_self)

/-- The active frame is written to. -/
theorem AllOpen.written (h : o.AllOpen) (hstack : o.stack = f :: rest) {f' : Frame}
    (hstack' : o'.stack = f' :: rest) (hf : f.IsOpen → f'.IsOpen) : o'.AllOpen :=
  AllOpen.of_cons (h.below hstack) hstack' (hf (h.top hstack))

theorem isOpen_newFrame (o : OpenSegment) (limit : Nat) (kind : SpanKind) (name : String)
    (now : UInt64) : (o.newFrame limit kind name now).value.1.IsOpen := by
  unfold newFrame
  split
  · exact Frame.isOpen_placeholder name
  · split
    · exact Frame.isOpen_placeholder name
    · exact Frame.isOpen_recorded rfl

theorem isOpen_autoTag (o : OpenSegment) (keys : List String) (hf : f.IsOpen) :
    (o.autoTag keys f).value.IsOpen := by
  refine hf.modify fun s => ?_
  -- one key after the other, none of them touches the end time
  rw [Logged.foldlM_value]
  induction keys generalizing s with
  | nil => rfl
  | cons key keys ih =>
    refine (ih _).trans ?_
    simp only
    cases o.correlation.get? key with
    | none => rfl
    | some value => exact Span.stop_tag key value s

theorem AllOpen.openSpan (h : o.AllOpen) (c : Config) (kind : SpanKind) (name : String)
    (now : UInt64) (inbound : Option RemoteContext) :
    (o.openSpan c kind name now inbound).value.2.AllOpen := by
  have hnew := o.isOpen_newFrame c.spanLimit kind name now
  have hrest := h.of_stack (o.stack_newFrame c.spanLimit kind name now)
  unfold OpenSegment.openSpan
  cases inbound with
  | none =>
    simp only [Logged.bind_value, Logged.pure_value]
    exact hrest.of_cons rfl (isOpen_autoTag _ _ hnew)
  | some r =>
    simp only [Logged.bind_value, Logged.pure_value]
    refine (hrest.of_stack (stack_applyInbound _ _ r now)).of_cons rfl (isOpen_autoTag _ _ ?_)
    exact hnew.modify (Span.stop_markInbound r now)

theorem AllOpen.openExit (h : o.AllOpen) (c : Config) (name peer : String) (k : Option Carrier)
    (now : UInt64) : (o.openExit c name peer k now).value.2.2.AllOpen := by
  have hnew := (o.isOpen_newFrame c.spanLimit .exit name now).modify (Span.stop_setPeer peer)
  have hrest := h.of_stack (o.stack_newFrame c.spanLimit .exit name now)
  unfold OpenSegment.openExit
  cases k with
  | none => exact hrest.of_cons rfl (isOpen_autoTag _ _ hnew)
  | some k => exact hrest.of_cons rfl (isOpen_autoTag _ _ hnew)

theorem AllOpen.received (h : o.AllOpen) (hstack : o.stack = f :: rest) (c : RemoteContext)
    (now : UInt64) :
    let applied := (applyInbound { o with stack := rest } f c now).value
    (applied.2.push applied.1).AllOpen := by
  intro applied
  have hrest := (h.below hstack).of_stack (stack_applyInbound { o with stack := rest } f c now)
  exact hrest.of_cons rfl ((h.top hstack).modify (Span.stop_markInbound c now))

theorem AllOpen.putCorrelation (h : o.AllOpen) (keys : List String) (key value : String) :
    (o.putCorrelation keys key value).value.2.AllOpen := by
  unfold OpenSegment.putCorrelation
  simp only [Logged.bind_value]
  split
  · split
    · next f rest hstack =>
      exact h.written hstack rfl fun hf => hf.modify (Span.stop_tag key value)
    · exact h
  · exact h

theorem AllOpen.prepareAsync (h : o.AllOpen) {t t' : Tracer} {a : AsyncHandle}
    (hprepare : o.prepareAsync t = .ok (a, o', t')) : o'.AllOpen := by
  rcases prepareAsync_eq_ok hprepare with ⟨-, rfl, -⟩ | ⟨s, rest, n, t₁, hstack, -, -, -, rfl, -⟩
  · exact h
  · refine h.written hstack rfl fun hf => Frame.isOpen_recorded ?_
    exact hf s rfl

theorem Retired.stack {t t' : Tracer} {now : UInt64} (h : Retired o t now f o' t') :
    o'.stack = o.stack := by
  cases h with
  | dropped name => rfl
  | archived hplain => rfl
  | deferred hasync hledger => rfl
  | stray hasync hledger => rfl

end OpenSegment

/-! ### Sites -/

namespace Site

/-- All frames of the open segment are open. -/
def AllOpen (s : Site) : Prop := ∀ o, s.strand.active = some o → o.AllOpen

variable {s s' : Site}

theorem AllOpen.of_active (h : s.AllOpen) (hsame : s'.strand.active = s.strand.active) :
    s'.AllOpen := fun o ho => h o (hsame.symm.trans ho)

theorem allOpen_withActive {o : OpenSegment} (s : Site) (h : o.AllOpen) :
    (s.withActive o).AllOpen := by
  intro o' ho'
  obtain rfl := Option.some.inj ho'
  exact h

/-- A segment that begins has an empty stack. -/
theorem AllOpen.segmentFor (h : s.AllOpen) {name : String} {inherited : Inherited} {now : UInt64}
    {o : OpenSegment} (hsegment : (s.segmentFor name inherited now).value = (o, s')) :
    o.AllOpen := by
  rcases segmentFor_cases hsegment with ⟨hactive, -⟩ | ⟨-, rfl, -⟩
  · exact h o hactive
  · obtain ⟨⟨id, sampled, hout⟩, -⟩ := OpenSegment.outline_start s.tracer s.strand.ordinal now name
      inherited s.strand.continuation
    have hstack := List.map_eq_nil_iff.mp (congrArg Outline.frames hout)
    intro f hf
    rw [hstack] at hf
    contradiction

theorem AllOpen.openSpan (h : s.AllOpen) (kind : SpanKind) (name : String) (inbound : Inbound)
    (now : UInt64) : (s.openSpan kind name inbound now).value.2.AllOpen := by
  obtain ⟨o, s₂, hsegment, hvalue⟩ := s.openSpan_value name now kind inbound
  rw [hvalue]
  exact allOpen_withActive s₂ ((h.segmentFor hsegment).openSpan _ kind name now _)

theorem AllOpen.exit (h : s.AllOpen) (name peer : String) (k : Option Carrier) (now : UInt64) :
    (s.exit name peer k now).value.2.2.AllOpen := by
  obtain ⟨o, s₂, hsegment, hvalue⟩ := s.exit_value name now peer k
  rw [hvalue]
  exact allOpen_withActive s₂ ((h.segmentFor hsegment).openExit _ name peer k now)

theorem AllOpen.continued (h : s.AllOpen) (snapshot : Snapshot) :
    (s.continued snapshot).value.AllOpen := by
  have hskip (o : OpenSegment) (skip : Bool) : (o.skipIf skip).stack = o.stack := by
    cases skip <;> rfl
  have hcontinued := s.continued_spec snapshot
  generalize (s.continued snapshot).value = s' at hcontinued ⊢
  cases hcontinued with
  | invalid hvalid => exact h
  | pending hidle hvalid => exact h.of_active rfl
  | ignored hactive id => exact allOpen_withActive s ((h _ hactive).of_stack rfl)
  | own hactive hvalid hown => exact h
  | joined hactive hvalid hother =>
    refine allOpen_withActive s ((h _ hactive).of_stack ?_)
    unfold OpenSegment.continueFrom
    simp only [Logged.bind_value, Logged.pure_value, hskip, OpenSegment.link_value]

theorem AllOpen.receive (h : s.AllOpen) {inbound : Inbound} {now : UInt64} {step : Logged Site}
    (hreceive : s.receive inbound now = .ok step) : step.value.AllOpen := by
  rcases receive_eq_ok hreceive with hsame | ⟨c, o, f, rest, -, hactive, hstack, happlied⟩
  · rw [hsame]
    exact h
  · rw [happlied]
    exact allOpen_withActive s ((h o hactive).received hstack c now)

/-- What is left of the stack when the active span is stopped was open before. -/
theorem AllOpen.stopped (h : s.AllOpen) {now : UInt64} {expected : Option Int}
    {outcome : Outcome Site} (heffect : Effect now s (.stop expected) outcome) :
    outcome.state.AllOpen := by
  cases heffect with
  | refused e hop => exact h
  | touched hop hstop => exact absurd rfl (hstop _)
  | opened hop => contradiction
  | stopped hactive hpop hretire hopen =>
    next o o₁ o' f t =>
    obtain ⟨rest, hstack, rfl, -⟩ := OpenSegment.pop_eq_ok hpop
    have hretired := OpenSegment.retired_retire { o with stack := rest } s.tracer f now
    rw [hretire] at hretired
    exact allOpen_withActive _ (((h o hactive).below hstack).of_stack hretired.stack)
  | ended hactive hpop hretire hlast hfinish =>
    intro o ho
    contradiction

theorem AllOpen.prepareAsync (h : s.AllOpen) {r : AsyncHandle × Site}
    (hprepare : s.prepareAsync = .ok r) : r.2.AllOpen := by
  unfold Site.prepareAsync at hprepare
  obtain ⟨o, hactive, hprepare⟩ := Attempt.bind_eq_ok.mp hprepare
  rw [active_eq_ok] at hactive
  obtain ⟨⟨a, o', t⟩, hprepared, hprepare⟩ := Attempt.bind_eq_ok.mp hprepare
  rw [Attempt.raised_eq_ok, Attempt.within_eq_ok] at hprepared
  obtain rfl := Except.ok.inj hprepare
  exact allOpen_withActive _ ((h o hactive).prepareAsync hprepared)

/-- **A step keeps the frames open**, if it is no edit that closes a span. -/
theorem AllOpen.step (h : s.AllOpen) (now : UInt64) {op : StrandOp} (hop : op.ClosesNone) :
    (s.step now op).value.state.AllOpen := by
  cases op with
  | entry name k =>
    show (s.entry name k now).value.2.AllOpen
    rw [entry_value]
    exact h.openSpan .entry name _ now
  | entryFrom name headers =>
    show (s.entry name (some (.readFrom headers s.label)) now).value.2.AllOpen
    rw [entry_value]
    exact h.openSpan .entry name _ now
  | exit name peer k => exact h.exit name peer k now
  | inner name => exact h.openSpan .inner name .absent now
  | innerWith name snapshot =>
    show (s.innerWith name snapshot now).value.2.AllOpen
    rw [innerWith_value]
    refine (AllOpen.continued ?_ snapshot).openSpan .inner name .absent now
    split
    · exact h
    · rw [discard_value]
      exact h.of_active rfl
  | stop expected => exact h.stopped (s.effect_of_step now (.stop expected))
  | capture => exact h
  | continued snapshot => exact h.continued snapshot
  | discard =>
    show s.discard.value.2.AllOpen
    rw [discard_value]
    exact h.of_active rfl
  | inject k =>
    rw [state_inject]
    exact h
  | extract k =>
    exact Outcome.keeps_ofAttempt (s.atomic_receive now _) h fun step hreceive =>
      h.receive hreceive
  | active =>
    rw [state_active]
    exact h
  | edit edits =>
    refine Outcome.keeps_ofAttempt (s.atomic_edit now edits) h fun step hedit => ?_
    obtain ⟨o, f, rest, hactive, hstack, hedited⟩ := edit_eq_ok hedit
    show step.value.2.2.AllOpen
    rw [hedited]
    exact allOpen_withActive s ((h o hactive).written hstack rfl fun hf => hf.editAll now hop)
  | prepareAsync =>
    exact Outcome.keeps_ofAttempt s.atomic_prepareAsync h fun r hprepare =>
      h.prepareAsync hprepare
  | putCorrelation key value =>
    show (s.putCorrelation key value).value.2.AllOpen
    unfold Site.putCorrelation
    cases hactive : s.strand.active with
    | none => exact h
    | some o => exact allOpen_withActive s ((h o hactive).putCorrelation _ key value)
  | scratch op => exact h.of_active rfl
  | reset =>
    show (discard _).value.2.AllOpen
    rw [discard_value]
    exact h.of_active rfl

end Site

end TraceLink
