import TraceLink.Proofs.Chronicle
import TraceLink.Proofs.Guises

/-! # What the owner of a segment sees

    Async handles work on the ledgers. What is in a ledger decides which spans are in
    the archive when, and what is handed over to the reporter; but none of this comes
    back to the strand that owns the segment.

    The *view* of the owner is the engine without the archives of the open segments,
    without what is in the ledgers, and without the reporter. The view after a step of
    a strand depends on the view before it only, and a step of a handle leaves it as it
    is. -/

namespace TraceLink

/-! ### Views -/

/-- What a segment tells besides its spans. -/
def Segment.cover (g : Segment) : Segment := { g with spans := [] }

/-- The view of an open segment. -/
def OpenSegment.view (o : OpenSegment) : OpenSegment := { o with segment := o.segment.cover }

/-- The view of a tracer: there are ledgers, but nothing is in them. -/
def Tracer.view (t : Tracer) : Tracer :=
  { t with ledgers := t.ledgers.map fun _ => {}, reporter := .discarding }

/-- The view of a strand. -/
def Strand.view (s : Strand) : Strand := { s with active := s.active.map OpenSegment.view }

/-- The view of a site. -/
def Site.view (s : Site) : Site := ⟨s.tracer.view, s.strand.view⟩

namespace Tracer

theorem view_setLedger (t : Tracer) (n : Nat) (l : Ledger) : (t.setLedger n l).view = t.view := by
  unfold setLedger view
  have hset : (t.ledgers.set n l).map (fun _ => ({} : Ledger)) = t.ledgers.map fun _ => {} := by
    apply List.ext_getElem
    · simp
    · intro i h₁ h₂
      simp
  rw [hset]

@[simp] theorem view_view (t : Tracer) : t.view.view = t.view := by
  unfold view
  rw [List.map_map]
  rfl

/-- A new ledger has the next number, and the view counts the ledgers. -/
theorem openLedger_view (t : Tracer) :
    t.view.openLedger.1 = t.openLedger.1 ∧ t.view.openLedger.2.view = t.openLedger.2.view := by
  unfold openLedger view
  simp only [List.length_map, List.map_append, List.map_map]
  exact ⟨trivial, rfl⟩

theorem view_reportDue (t : Tracer) (due : Option Segment) :
    (t.reportDue due).value.view = t.view := by
  cases due with
  | none => rfl
  | some g => rfl

end Tracer

/-! ### Open segments -/

namespace OpenSegment

/-- The view as a guise. -/
def viewing : Guise where
  segment := Segment.cover
  ledger := id
  service _ := rfl
  instanceName _ := rfl
  linked g ref := by
    obtain ⟨id, trace, service, instanceName, spans, parent, skip, limited⟩ := g
    cases parent with
    | none => rfl
    | some parent => rfl
  skipped _ := rfl
  limited _ := rfl

theorem view_continueFrom (o : OpenSegment) (c : Captured) :
    (o.view.continueFrom c).value = (o.continueFrom c).value.view :=
  viewing.on_continueFrom o c

theorem view_openSpan (c : Config) (o : OpenSegment) (kind : SpanKind) (name : String)
    (now : UInt64) (inbound : Option RemoteContext) :
    (o.view.openSpan c kind name now inbound).value =
      ((o.openSpan c kind name now inbound).value.1,
        (o.openSpan c kind name now inbound).value.2.view) :=
  viewing.on_openSpan o c kind name now inbound

/-- What is sent may differ, since the endpoint is looked up in the archive, but the
    segment after it does not. -/
theorem view_openExit (c : Config) (o : OpenSegment) (name peer : String) (k : Option Carrier)
    (now : UInt64) :
    (o.view.openExit c name peer k now).value.2.2 =
      (o.openExit c name peer k now).value.2.2.view :=
  (viewing.on_openExit o c name peer k now).2

theorem view_putCorrelation (o : OpenSegment) (keys : List String) (key value : String) :
    (o.view.putCorrelation keys key value).value =
      ((o.putCorrelation keys key value).value.1,
        (o.putCorrelation keys key value).value.2.view) :=
  viewing.on_putCorrelation o keys key value

/-- A segment that begins has an empty archive. -/
theorem view_start (t : Tracer) (ordinal now : UInt64) (name : String) (inherited : Inherited)
    (continuation : Option Snapshot) :
    (start t.view ordinal now name inherited continuation).value =
      ((start t ordinal now name inherited continuation).value.1.view,
        (start t ordinal now name inherited continuation).value.2.view) := by
  unfold start
  cases continuation with
  | none => rfl
  | some snapshot =>
    cases snapshot with
    | ignored id => rfl
    | sampled c =>
      simp only [Logged.bind_value, Logged.pure_value, ← view_continueFrom]
      rfl

theorem view_pop (o : OpenSegment) (expected : Option Int) :
    o.view.pop expected =
      ((o.pop expected).within view).map fun popped => (popped.1, popped.2.view) :=
  viewing.on_pop o expected

theorem view_receive (o : OpenSegment) (c : RemoteContext) (now : UInt64) :
    Attempt.Rel (fun step step' => step'.value = step.value.view) (o.receive c now)
      (o.view.receive c now) :=
  viewing.on_receive o c now

/-- Retiring changes what is not in the view only. -/
theorem view_retire (o : OpenSegment) (t : Tracer) (f : Frame) (now : UInt64) :
    (o.retire t f now).value.1.view = o.view ∧ (o.retire t f now).value.2.view = t.view := by
  have hretired := o.retired_retire t f now
  generalize (o.retire t f now).value = after at hretired
  obtain ⟨o', t'⟩ := after
  cases hretired with
  | dropped name => exact ⟨rfl, rfl⟩
  | archived hplain => exact ⟨rfl, rfl⟩
  | stray hasync hledger => exact ⟨rfl, rfl⟩
  | deferred hasync hledger => exact ⟨rfl, t.view_setLedger _ _⟩

theorem view_finish (o : OpenSegment) (t : Tracer) :
    (o.finish t).value.2.view =
      { t.view with counters := t.view.counters.finish (!o.view.sampled) } := by
  rw [show o.view.sampled = o.sampled from rfl]
  unfold finish
  cases o.sampled with
  | false => rfl
  | true =>
    cases o.ledger with
    | none => rfl
    | some n => exact Tracer.view_setLedger _ _ _

/-- The answer of an attempt to prepare the active span, as far as it is in the view. -/
theorem view_prepareAsync (o : OpenSegment) (t : Tracer) :
    Attempt.Rel
      (fun after after' => (after'.1, after'.2.1.view, after'.2.2.view) =
        (after.1, after.2.1.view, after.2.2.view))
      (o.prepareAsync t) (o.view.prepareAsync t.view) := by
  have hledger : o.view.ledger = o.ledger := rfl
  unfold prepareAsync
  rw [show o.view.stack = o.stack from rfl]
  cases o.stack with
  | nil => exact .fail _ _ _
  | cons f rest =>
    cases f with
    | placeholder name => exact .ok (congrArg (AsyncHandle.idle, o.view, ·) t.view_view)
    | recorded s =>
      obtain ⟨hnumber, hopened⟩ := t.openLedger_view
      refine ((Attempt.Rel.self s.markAsync).within _ _).bind ?_
      rintro _ s' rfl
      rw [hledger]
      cases hn : o.ledger with
      | some n =>
        refine .ok ?_
        simp only [Tracer.view_setLedger, Tracer.view_view]
        rfl
      | none =>
        refine .ok ?_
        simp only [Tracer.view_setLedger]
        show (AsyncHandle.span t.view.openLedger.1 s'.id,
          { o.view with stack := .recorded s' :: rest, ledger := some t.view.openLedger.1 },
          t.view.openLedger.2.view) = _
        rw [hnumber, hopened]
        rfl

end OpenSegment

/-! ### Sites -/

namespace Site

@[simp] theorem view_view (s : Site) : s.view.view = s.view := by
  unfold view Strand.view
  rw [Tracer.view_view, Option.map_map]
  rfl

/-- The open segment in the view. -/
theorem strand_active_view (s : Site) :
    s.view.strand.active = s.strand.active.map OpenSegment.view := rfl

theorem view_withActive (s : Site) (o : OpenSegment) :
    s.view.withActive o.view = (s.withActive o).view := rfl

theorem active_view (s : Site) :
    Attempt.Rel (fun o o' => o' = o.view) s.active s.view.active := by
  unfold active
  rw [strand_active_view]
  cases s.strand.active with
  | none => exact (Attempt.Rel.fail _ _ _).raised
  | some o => exact .ok rfl

theorem view_segmentFor (s : Site) (name : String) (inherited : Inherited) (now : UInt64) :
    (s.view.segmentFor name inherited now).value =
      ((s.segmentFor name inherited now).value.1.view,
        (s.segmentFor name inherited now).value.2.view) := by
  unfold segmentFor
  rw [strand_active_view]
  cases hactive : s.strand.active with
  | some o => rfl
  | none =>
    have hstart := OpenSegment.view_start s.tracer s.strand.ordinal now name inherited
      s.strand.continuation
    simp only [Option.map_none, Logged.bind_value, Logged.pure_value]
    rw [show OpenSegment.start s.view.tracer s.view.strand.ordinal now name inherited
      s.view.strand.continuation = OpenSegment.start s.tracer.view s.strand.ordinal now name
        inherited s.strand.continuation from rfl, hstart]
    simp only [view, Strand.view, hactive, Option.map_none]

theorem view_openSpan (s : Site) (kind : SpanKind) (name : String) (inbound : Inbound)
    (now : UInt64) :
    (s.view.openSpan kind name inbound now).value =
      ((s.openSpan kind name inbound now).value.1,
        (s.openSpan kind name inbound now).value.2.view) := by
  unfold openSpan
  simp only [Logged.bind_value, Logged.pure_value, view_segmentFor]
  rw [show (Site.view _).tracer.config = _ from rfl]
  simp only [OpenSegment.view_openSpan]
  rfl

theorem view_entry (s : Site) (name : String) (k : Option Carrier) (now : UInt64) :
    (s.view.entry name k now).value =
      ((s.entry name k now).value.1, (s.entry name k now).value.2.view) := by
  rw [entry_value, entry_value, ← view_openSpan]
  cases k with
  | none => rfl
  | some k => rfl

theorem view_exit (s : Site) (name peer : String) (k : Option Carrier) (now : UInt64) :
    (s.view.exit name peer k now).value.2.2 = (s.exit name peer k now).value.2.2.view := by
  unfold exit
  simp only [Logged.bind_value, Logged.pure_value, view_segmentFor]
  rw [← view_withActive, ← OpenSegment.view_openExit]
  rfl

theorem view_discard (s : Site) : s.view.discard.value.2 = s.discard.value.2.view := by
  unfold discard
  rw [show s.view.strand.continuation = s.strand.continuation from rfl]
  cases s.strand.continuation with
  | none => rfl
  | some snapshot => rfl

theorem view_continued (s : Site) (snapshot : Snapshot) :
    (s.view.continued snapshot).value = (s.continued snapshot).value.view := by
  unfold continued
  rw [strand_active_view]
  split
  · rfl
  · cases hactive : s.strand.active with
    | none => simp only [view, Strand.view, hactive, Option.map_none, Logged.pure_value]
    | some o =>
      cases snapshot with
      | ignored id => rfl
      | sampled c =>
        have hcurrent : s.view.strand.isCurrent (.sampled c) = s.strand.isCurrent (.sampled c) := by
          unfold Strand.isCurrent Strand.segmentId?
          rw [strand_active_view, hactive]
          rfl
        simp only [Option.map_some, hcurrent]
        split
        · rfl
        · simp only [Logged.bind_value, Logged.pure_value, OpenSegment.view_continueFrom]
          rfl

theorem view_innerWith (s : Site) (name : String) (snapshot : Snapshot) (now : UInt64) :
    (s.view.innerWith name snapshot now).value.2 =
      (s.innerWith name snapshot now).value.2.view := by
  have hactive : s.view.strand.isActive = s.strand.isActive := by
    unfold Strand.isActive
    rw [strand_active_view, Option.isSome_map]
  rw [innerWith_value, innerWith_value, hactive, view_discard]
  split
  · rw [view_continued, view_openSpan]
  · rw [view_continued, view_openSpan]

theorem view_receive (s : Site) (inbound : Inbound) (now : UInt64) :
    Attempt.Rel (fun step step' => step'.value.view = step.value.view) (s.receive inbound now)
      (s.view.receive inbound now) := by
  refine s.active_view.bind ?_
  rintro o _ rfl
  cases inbound with
  | absent => exact .ok s.view_view
  | ignored => exact .ok s.view_view
  | remote c =>
    refine ((o.view_receive c now).within _ _).raised.bind fun {step step'} hvalue => .ok ?_
    simp only [Logged.map_value, hvalue, view_withActive, view_view]

theorem view_putCorrelation (s : Site) (key value : String) :
    (s.view.putCorrelation key value).value.2 = (s.putCorrelation key value).value.2.view := by
  unfold putCorrelation
  rw [strand_active_view]
  cases s.strand.active with
  | none => rfl
  | some o =>
    simp only [Option.map_some, Logged.bind_value, Logged.pure_value]
    rw [show s.view.tracer.config = s.tracer.config from rfl, OpenSegment.view_putCorrelation]
    rfl

theorem view_edit (s : Site) (edits : List Edit) (now : UInt64) :
    Attempt.Rel (fun step step' => step'.value.2.2.view = step.value.2.2.view)
      (s.edit edits now) (s.view.edit edits now) := by
  refine s.active_view.bind ?_
  rintro o _ rfl
  rw [show o.view.stack = o.stack from rfl]
  cases o.stack with
  | nil => exact (Attempt.Rel.fail _ _ _).raised
  | cons f rest =>
    refine .ok ?_
    show Site.mk s.tracer.view.view _ = Site.mk s.tracer.view _
    rw [Tracer.view_view]
    rfl

/-- A stop that is not refused: the segment ends if its stack is empty. -/
theorem stop_of_pop {s : Site} {o o₁ : OpenSegment} {f : Frame} {expected : Option Int}
    (hactive : s.strand.active = some o) (hpop : o.pop expected = .ok (f, o₁)) (now : UInt64) :
    ∃ step, s.stop expected now = .ok step ∧ step.value =
      let after := (o₁.retire s.tracer f now).value
      if after.1.stack.isEmpty then
        (true, (after.1.finish after.2).value.1,
          ⟨(after.1.finish after.2).value.2, { s.strand with active := none }⟩)
      else (false, none, { s with tracer := after.2 }.withActive after.1) := by
  have hretire : o.stop s.tracer expected now = .ok (o₁.retire s.tracer f now) := by
    unfold OpenSegment.stop
    rw [hpop]
    rfl
  refine ⟨_, Attempt.bind_eq_ok.mpr ⟨o, active_eq_ok.mpr hactive, Attempt.bind_eq_ok.mpr
    ⟨_, Attempt.raised_eq_ok.mpr (Attempt.within_eq_ok.mpr hretire), rfl⟩⟩, ?_⟩
  simp only [Logged.bind_value]
  split
  · rfl
  · rfl

/-- What is answered to a stop, and the view after it. -/
theorem view_stop (s : Site) (expected : Option Int) (now : UInt64) :
    Attempt.Rel
      (fun x x' => (Reply.flag x'.value.1, x'.value.2.2.view) =
        (Reply.flag x.value.1, x.value.2.2.view))
      (s.stop expected now) (s.view.stop expected now) := by
  refine s.active_view.bind ?_
  rintro o _ rfl
  have hstop : Attempt.Rel
      (fun x x' => x'.value.1.view = x.value.1.view ∧ x'.value.2.view = x.value.2.view)
      (o.stop s.tracer expected now) (o.view.stop s.view.tracer expected now) := by
    refine ((Attempt.Rel.of_map (o.view_pop expected)).within _ _).map ?_
    rintro ⟨f, o₁⟩ _ rfl
    obtain ⟨hopen, htracer⟩ := o₁.view_retire s.tracer f now
    obtain ⟨hopen', htracer'⟩ := o₁.view.view_retire s.view.tracer f now
    exact ⟨hopen'.trans hopen.symm, (htracer'.trans s.tracer.view_view).trans htracer.symm⟩
  refine (hstop.within _ _).raised.bind fun {x x'} hx => .ok ?_
  obtain ⟨⟨o₂, t₂⟩, notes⟩ := x
  obtain ⟨⟨o₂', t₂'⟩, notes'⟩ := x'
  obtain ⟨hsame, htsame⟩ : o₂'.view = o₂.view ∧ t₂'.view = t₂.view := hx
  have hstacks : o₂'.view.stack = o₂.view.stack := congrArg OpenSegment.stack hsame
  have hstack : o₂'.stack = o₂.stack := hstacks
  simp only [Logged.bind_value, hstack]
  -- the strand keeps the segment or loses it, whatever the ledgers and the reporter do
  split
  · have hfinish : (o₂'.finish t₂').value.2.view = (o₂.finish t₂).value.2.view := by
      rw [OpenSegment.view_finish, OpenSegment.view_finish, hsame, htsame]
    show (Reply.flag true, Site.mk (o₂'.finish t₂').value.2.view _) =
      (Reply.flag true, Site.mk (o₂.finish t₂).value.2.view _)
    rw [hfinish]
    rfl
  · show (Reply.flag false, Site.mk t₂'.view { s.strand with active := some o₂'.view }) =
      (Reply.flag false, Site.mk t₂.view { s.strand with active := some o₂.view })
    rw [hsame, htsame]

theorem view_prepareAsync (s : Site) :
    Attempt.Rel
      (fun after after' => (Reply.handle after'.1, after'.2.view) =
        (Reply.handle after.1, after.2.view))
      s.prepareAsync s.view.prepareAsync := by
  refine s.active_view.bind ?_
  rintro o _ rfl
  refine ((o.view_prepareAsync s.tracer).within _ _).raised.bind fun {after after'} hsame =>
    .ok ?_
  obtain ⟨h, o₁, t⟩ := after
  obtain ⟨h', o₁', t'⟩ := after'
  obtain ⟨rfl, hboth⟩ := Prod.mk.inj hsame
  obtain ⟨hopen, htracer⟩ := Prod.mk.inj hboth
  show (Reply.handle h', Site.mk t'.view { s.strand with active := some o₁'.view }) =
    (Reply.handle h', Site.mk t.view { s.strand with active := some o₁.view })
  rw [hopen, htracer]

/-! ### Steps -/

/-- What is seen of two attempts is the same if it is the same of what they do. -/
theorem ofAttempt_view {s : Site} {β γ : Type} (seen : Outcome Site → γ) (P : β → γ)
    {F : β → Logged (Outcome Site)}
    (hrefused : ∀ e, seen (.of (.usage e) s.view) = seen (.of (.usage e) s))
    (hseen : ∀ x, seen (F x).value = P x) {a a' : Attempt UsageError Site β}
    (ha : a.Atomic Attempt.once s) (ha' : a'.Atomic Attempt.once s.view)
    (h : Attempt.Rel (fun x x' => P x' = P x) a a') :
    seen (Outcome.ofAttempt .usage (a'.map F)).value =
      seen (Outcome.ofAttempt .usage (a.map F)).value :=
  Outcome.rel_ofAttempt (R := fun x x' => seen x' = seen x) (ha.map F) (ha'.map F) hrefused
    (h.map fun {x x'} hsame => ((hseen x').trans hsame).trans (hseen x).symm)

/-- What is answered to a stop or a preparation, and the view after it. -/
theorem view_answer (s : Site) (now : UInt64) {op : StrandOp}
    (hop : (∃ expected, op = .stop expected) ∨ op = .prepareAsync) :
    ((s.view.step now op).value.reply, (s.view.step now op).value.state.view) =
      ((s.step now op).value.reply, (s.step now op).value.state.view) := by
  have hrefused : ∀ e, ((Outcome.of (.usage e) s.view).reply,
      (Outcome.of (.usage e) s.view).state.view) =
      ((Outcome.of (.usage e) s).reply, (Outcome.of (.usage e) s).state.view) :=
    fun e => congrArg (Reply.usage e, ·) s.view_view
  rcases hop with ⟨expected, rfl⟩ | rfl
  · refine ofAttempt_view (fun o => (o.reply, o.state.view))
      (fun x => (Reply.flag x.value.1, x.value.2.2.view)) hrefused (fun x => ?_)
      (s.atomic_stop now expected) (s.view.atomic_stop now expected) (s.view_stop expected now)
    obtain ⟨⟨last, due, s'⟩, notes⟩ := x
    show (Reply.flag last, Site.mk (s'.tracer.reportDue due).value.view s'.strand.view) = _
    rw [Tracer.view_reportDue]
    rfl
  · exact ofAttempt_view (fun o => (o.reply, o.state.view))
      (fun x => (Reply.handle x.1, x.2.view)) hrefused (fun x => rfl)
      s.atomic_prepareAsync s.view.atomic_prepareAsync s.view_prepareAsync

/-- **The view after a step** depends on the view before it. -/
theorem view_step (s : Site) (now : UInt64) (op : StrandOp) :
    (s.view.step now op).value.state.view = (s.step now op).value.state.view := by
  cases op with
  | entry name k =>
    show (s.view.entry name k now).value.2.view = (s.entry name k now).value.2.view
    rw [view_entry, view_view]
  | entryFrom name headers =>
    show (s.view.entry name (some (Carrier.readFrom headers s.label)) now).value.2.view =
      (s.entry name (some (Carrier.readFrom headers s.label)) now).value.2.view
    rw [view_entry, view_view]
  | exit name peer k =>
    show (s.view.exit name peer k now).value.2.2.view = (s.exit name peer k now).value.2.2.view
    rw [view_exit, view_view]
  | inner name =>
    show (s.view.openSpan .inner name .absent now).value.2.view =
      (s.openSpan .inner name .absent now).value.2.view
    rw [view_openSpan, view_view]
  | innerWith name snapshot =>
    show (s.view.innerWith name snapshot now).value.2.view =
      (s.innerWith name snapshot now).value.2.view
    rw [view_innerWith, view_view]
  | stop expected => exact congrArg Prod.snd (s.view_answer now (.inl ⟨expected, rfl⟩))
  | capture => exact s.view_view
  | continued snapshot =>
    show (s.view.continued snapshot).value.view = (s.continued snapshot).value.view
    rw [view_continued, view_view]
  | discard =>
    show s.view.discard.value.2.view = s.discard.value.2.view
    rw [view_discard, view_view]
  | inject k => rw [state_inject, state_inject, view_view]
  | extract k =>
    exact ofAttempt_view (fun o => o.state.view) (fun x => x.value.view) (fun _ => s.view_view)
      (fun _ => rfl) (s.atomic_receive now _) (s.view.atomic_receive now _)
      (s.view_receive (s.readCarrier k).value now)
  | active => rw [state_active, state_active, view_view]
  | edit edits =>
    exact ofAttempt_view (fun o => o.state.view) (fun x => x.value.2.2.view)
      (fun _ => s.view_view) (fun _ => rfl) (s.atomic_edit now edits)
      (s.view.atomic_edit now edits) (s.view_edit edits now)
  | prepareAsync => exact congrArg Prod.snd (s.view_answer now (.inr rfl))
  | putCorrelation key value =>
    show (s.view.putCorrelation key value).value.2.view =
      (s.putCorrelation key value).value.2.view
    rw [view_putCorrelation, view_view]
  | scratch op =>
    exact view_view { s with strand := { s.strand with scratch := (s.strand.scratch.apply op).2 } }
  | reset =>
    have hdiscard := view_discard { s with strand := { s.strand with scratch := {} } }
    show s.view.reset.value.view = s.reset.value.view
    exact (congrArg Site.view hdiscard).trans (view_view _)

end Site

end TraceLink
