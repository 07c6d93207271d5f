import TraceLink.Proofs.Contents

/-! # Steps of an owner and its handles

    A segment on the way from its first span to the reporter: it is open on its strand,
    then it is reported, or parked until the last handle has finished. By each step of
    the owner and of the handles its contents stay what the stops and the handles made
    of them. -/

namespace TraceLink

/-- The recorded span that was stopped, with the time. -/
def Stop.span? (x : Stop) : Option (UInt64 × Span) := x.frame.span?.map fun s => (x.time, s)

/-! ### Retired spans -/

namespace OpenSegment

variable {capacity : Nat} {l : Life} {said : AsyncHandle → List HandleOp}
  {left : List (UInt64 × Span)}

theorem Retired.cover {o o' : OpenSegment} {t t' : Tracer} {f : Frame} {now : UInt64}
    (h : Retired o t now f o' t') : o'.segment.cover = o.segment.cover := by
  cases h <;> rfl

/-- Stopping the active span of a sampled segment keeps the contents. -/
theorem Retired.contents {o o₁ o' : OpenSegment} {t t' : Tracer} {expected : Option Int}
    {f : Frame} {now : UInt64} (h : Retired o₁ t now f o' t')
    (hpop : o.pop expected = .ok (f, o₁)) (hbound : ∀ n, o.ledger = some n → n < t.ledgers.length)
    (hcustody : Custody capacity o.outline (t.ledgerOf o.ledger) l)
    (c : (t.ledgerOf o.ledger).Contents o.segment.spans l said left) :
    (t'.ledgerOf o.ledger).Contents o'.segment.spans l said
      (left ++ (f.span?.map fun s => (now, s)).toList) := by
  obtain ⟨rest, hstack, rfl, -⟩ := pop_eq_ok hpop
  have hrecord (s : Span) (hf : f = .recorded s) (hasync : s.isAsync = true) :
      ∃ d, (t.ledgerOf o.ledger).records.get? s.id = some d ∧ d.span = none := by
    refine hcustody.async s.mark ?_ hasync
    unfold Outline.marks outline
    rw [hstack, hf]
    exact List.mem_cons_self
  cases h with
  | dropped name =>
    show (t.ledgerOf o.ledger).Contents o.segment.spans l said (left ++ [])
    rw [List.append_nil]
    exact c
  | archived hplain =>
    next s =>
    refine c.joined (y := s.closedAt now) ?_ (fun _ => rfl) ?_
    · intro z
      rw [← s.closeOr_eq_closedAt now .closedBeforeStop, ← closeNow]
      simp only [Segment.archive, List.mem_append, List.mem_singleton]
      tauto
    · intro hasync
      rw [hplain] at hasync
      contradiction
  | stray hasync hledger =>
    -- an async span has a record, and without a ledger there is none
    obtain ⟨d, hget, -⟩ := hrecord _ rfl hasync
    rw [show o.ledger = none from hledger] at hget
    contradiction
  | deferred hasync hledger =>
    next s n =>
    have hledger' : o.ledger = some n := hledger
    obtain ⟨d, hget, hspan⟩ := hrecord s rfl hasync
    rw [ledgerOf_of_ledger hledger'] at hcustody c hget ⊢
    rw [Tracer.ledger_setLedger_self (hbound n hledger')]
    exact c.popped hcustody hasync hget hspan now

end OpenSegment

/-- The spans that are done have distinct ids. -/
theorem Custody.nodup_done {capacity : Nat} {x : Outline} {led : Ledger} {l : Life}
    (h : Custody capacity x led l) : ((x.spans ++ led.completed).map (·.id)).Nodup := by
  have hnodup := h.nodup_ids
  unfold Outline.origins at hnodup
  rw [List.map_append] at hnodup
  have hids := List.Nodup.of_append_right hnodup
  rw [List.map_map, List.append_assoc] at hids
  exact hids.sublist (((List.sublist_append_right _ _).append_left x.spans).map _)

/-! ### Steps that stop no span -/

theorem Outline.spans_opened (x : Outline) (capacity : Nat) (kind : SpanKind) (now : UInt64) :
    (x.opened capacity kind now).spans = x.spans := by
  unfold opened
  split
  · rfl
  · split
    · rfl
    · rfl

namespace Life

variable {capacity : Nat} {now : UInt64} {s : Site} {l : Life} {x : Outline}
  {said : AsyncHandle → List HandleOp} {left : List (UInt64 × Span)}

/-- The contents of a segment that is open at a site. -/
def ContentsAt (l : Life) (s : Site) (said : AsyncHandle → List HandleOp)
    (left : List (UInt64 × Span)) : Prop :=
  ∃ x, s.outline? = some x ∧
    (x.sampled = true → (s.tracer.ledgerOf l.ledger?).Contents x.spans l said left)

/-- The active span is prepared. -/
theorem Runs.contents_prepared (h : l.Runs capacity s x) (hgrounded : l.Grounded s.tracer)
    (c : x.sampled = true → (s.tracer.ledgerOf l.ledger?).Contents x.spans l said left)
    {o o' : OpenSegment} {t : Tracer} {a : AsyncHandle} (hactive : s.strand.active = some o)
    (hpreparing : o.Preparing s.tracer a o' t) (now : UInt64) :
    (l.afterStrandOp (some o) now .prepareAsync (.handle a)).ContentsAt
      ({ s with tracer := t }.withActive o') said left := by
  obtain rfl := h.outline_eq hactive
  cases hpreparing with
  | idle => exact ⟨o.outline, rfl, c⟩
  | recorded hstack hplain hledger hlt hspares hprepare =>
    next span rest n =>
    obtain ⟨-, -, -, hof⟩ := h.append_ledger hgrounded.linked hledger hprepare
    refine ⟨_, rfl, fun hsampled => ?_⟩
    -- the handle is new, since the span was not prepared before
    have hnew : ¬ l.Prepared span.id := by
      refine (h.custody hsampled).plain span.mark ?_ hplain
      unfold Outline.marks OpenSegment.outline
      rw [hstack]
      exact List.mem_cons_self
    show (t.ledgerOf (ledger? { l with handles := l.handles ++ [.span n span.id] })).Contents
      o.segment.spans { l with handles := l.handles ++ [.span n span.id] } said left
    rw [hof]
    exact (c hsampled).prepared hgrounded.linked hnew n

/-- A step that stops no span keeps the contents. -/
theorem Runs.contents_step (h : l.Runs capacity s x) (hgrounded : l.Grounded s.tracer)
    (c : x.sampled = true → (s.tracer.ledgerOf l.ledger?).Contents x.spans l said left)
    {op : StrandOp} (hstop : ∀ expected, op ≠ .stop expected) {outcome : Outcome Site}
    (heffect : Site.Effect now s op outcome) :
    outcome.handed = none ∧
      (l.afterStrandOp s.strand.active now op outcome.reply).stage = l.stage ∧
      (l.afterStrandOp s.strand.active now op outcome.reply).ContentsAt outcome.state
        said left := by
  cases hop : op.opens? with
  | some kind =>
    obtain ⟨hhanded, -, hledgers, hout⟩ := opens_of_effect heffect hop
    rw [afterStrandOp_opened _ _ _ hop]
    refine ⟨hhanded, rfl, ?_⟩
    rcases hout with ⟨x₀, b, hx₀, hout⟩ | ⟨hnone, -⟩
    · obtain rfl := Option.some.inj (hx₀.symm.trans h.outline)
      refine ⟨_, hout, fun hsampled => ?_⟩
      rw [Outline.spans_opened, Tracer.ledgerOf_congr hledgers]
      rw [(Outline.opened_fields _ _ _ _).2.1] at hsampled
      have hcontents := c (Bool.and_eq_true_iff.mp hsampled).1
      exact { hcontents with }
    · rw [h.outline] at hnone
      contradiction
  | none =>
    cases heffect with
    | refused e hnone =>
      rw [l.afterStrandOp_refused _ now hop e]
      exact ⟨rfl, rfl, x, h.outline, c⟩
    | touched hnone hother hprepare htouch =>
      obtain ⟨htracer, b, hout⟩ := Site.outline?_touches htouch
      rw [h.outline, Option.map_some] at hout
      rw [l.afterStrandOp_touched _ now hop hstop hprepare]
      refine ⟨rfl, rfl, _, hout, fun hsampled => ?_⟩
      rw [htracer]
      exact c (Bool.and_eq_true_iff.mp hsampled).1
    | opened hkind =>
      rw [hkind] at hop
      contradiction
    | sent => contradiction
    | prepared hactive hprepare =>
      next o o' t a =>
      have hbound : ∀ n, o.ledger = some n → n < s.tracer.ledgers.length := fun n hn =>
        hgrounded.bound n (h.ledger ▸ h.outline_eq hactive ▸ hn)
      have hkeeps := h.contents_prepared hgrounded c hactive
        (OpenSegment.preparing_prepareAsync hbound hprepare) now
      rw [hactive]
      refine ⟨rfl, ?_, hkeeps⟩
      cases a <;> rfl
    | stopped => exact absurd rfl (hstop _)
    | ended => exact absurd rfl (hstop _)

/-- What was in a segment is in it when its active span was retired. -/
theorem Runs.contents_retired {stops : List Stop} (h : l.Runs capacity s x)
    (hgrounded : l.Grounded s.tracer) {o o₁ o' : OpenSegment} {f : Frame} {t : Tracer}
    {expected : Option Int} (hactive : s.strand.active = some o)
    (hpop : o.pop expected = .ok (f, o₁)) (hretire : (o₁.retire s.tracer f now).value = (o', t))
    (hcontents : l.ContentsAt s said (stops.filterMap Stop.span?)) :
    o'.sampled = true → (t.ledgerOf l.ledger?).Contents o'.segment.spans l said
      ((stops ++ [Stop.mk now f o.segment.cover]).filterMap Stop.span?) := by
  obtain rfl := h.outline_eq hactive
  obtain ⟨x, hout, c⟩ := hcontents
  obtain rfl := Option.some.inj ((Site.outline?_of_active hactive).symm.trans hout)
  obtain ⟨-, -, hsampled, -, -⟩ := h.retired hgrounded hactive hpop hretire
  have hledger : o.ledger = l.ledger? := h.ledger
  have hretired := o₁.retired_retire s.tracer f now
  rw [hretire] at hretired
  intro hs
  rw [hsampled] at hs
  have hbefore := c hs
  have hcustody := h.custody hs
  rw [← hledger] at hbefore hcustody ⊢
  rw [List.filterMap_append]
  have hafter := hretired.contents hpop (fun n hn => hgrounded.bound n (hledger ▸ hn)) hcustody
    hbefore
  cases f with
  | recorded s => exact hafter
  | placeholder name => exact hafter

end Life

/-! ### The stop of a span -/

/-- A stop that is refused changes nothing. -/
theorem Site.step_stop_of_error {s : Site} {o : OpenSegment} {expected : Option Int}
    {e : UsageError} (hactive : s.strand.active = some o) (hpop : o.pop expected = .fail e o)
    (now : UInt64) : (s.step now (.stop expected)).value = ⟨.usage e, none, s⟩ := by
  have hstop : s.stop expected now = (Attempt.fail e (s.withActive o)).raised := by
    unfold stop
    rw [active_eq_ok.mpr hactive]
    simp only [bind, Except.bind, OpenSegment.stop_of_fail hpop]
    rfl
  show (Outcome.ofAttempt .usage _).value = _
  rw [hstop, withActive_self hactive]
  rfl

/-- A stop that is not refused retires the span, and ends the segment if it was the
    last one. -/
theorem Site.step_stop_of_pop {s : Site} {o o₁ : OpenSegment} {f : Frame}
    {expected : Option Int} (hactive : s.strand.active = some o)
    (hpop : o.pop expected = .ok (f, o₁)) (now : UInt64) :
    (s.step now (.stop expected)).value =
      let after := (o₁.retire s.tracer f now).value
      if after.1.stack.isEmpty then
        let ended := (after.1.finish after.2).value
        ⟨.flag true, ended.1, ⟨(ended.2.reportDue ended.1).value, { s.strand with active := none }⟩⟩
      else ⟨.flag false, none, { s with tracer := after.2 }.withActive after.1⟩ := by
  obtain ⟨step, hstop, hvalue⟩ := stop_of_pop hactive hpop now
  show (Outcome.ofAttempt .usage _).value = _
  rw [hstop]
  show (step.value.2.2.handOver (.flag step.value.1) step.value.2.1).value = _
  rw [hvalue]
  dsimp only
  split
  · rfl
  · rfl

/-! ### The way of a segment -/

/-- **Owned** segment: where it is on the way from the strand at place `k` to the
    reporter when the handles have said `said`, its spans had the stops in `stops`, and
    the segments in the last argument were handed over. -/
inductive Owned (e : Engine) (k : Nat) (l : Life) (said : AsyncHandle → List HandleOp)
    (stops : List Stop) : List Segment → Prop where
  | running {s : Site} (hstage : l.stage = .running k) (hsite : e.site? k = some s)
      (hcontents : l.ContentsAt s said (stops.filterMap Stop.span?)) :
      Owned e k l said stops []
  | parked {g : Segment} (hstage : l.stage = .emptied true) (hidle : e.open? k = none)
      (hparked : (e.tracer.ledgerOf l.ledger?).parked = some g)
      (hcover : stops.getLast?.map Stop.cover = some g.cover)
      (hcontents : (e.tracer.ledgerOf l.ledger?).Contents g.spans l said
        (stops.filterMap Stop.span?)) :
      Owned e k l said stops []
  | reported {g : Segment} (hdue : l.IsDue) (hidle : e.open? k = none)
      (hcover : stops.getLast?.map Stop.cover = some g.cover)
      (hnodup : (g.spans.map (·.id)).Nodup)
      (hcontents : Contents g.spans [] l said (stops.filterMap Stop.span?)) :
      Owned e k l said stops [g]
  | ignored {handed : List Segment} (hstage : l.stage = .emptied false)
      (hidle : e.open? k = none) : Owned e k l said stops handed

namespace Engine

variable {capacity : Nat} {e : Engine} {ls : List Life} {l : Life} {k : Nat}
  {said : AsyncHandle → List HandleOp} {stops : List Stop} {handed : List Segment}
  {now : UInt64}

theorem stop?_of_ne {op : StrandOp} (h : ∀ expected, op ≠ .stop expected) :
    e.stop? k now (.strand k op) = none := by
  cases op with
  | stop expected => exact absurd rfl (h expected)
  | _ => rfl

theorem stop?_of_idle (hidle : e.open? k = none) (op : Op) : e.stop? k now op = none := by
  unfold stop?
  split
  · rw [hidle]
    split
    · rfl
    · rfl
  · rfl

theorem stop?_of_open {o : OpenSegment} (hopen : e.open? k = some o) (expected : Option Int) :
    e.stop? k now (.strand k (.stop expected)) = o.stop? expected now := by
  show (if k = k then (e.open? k).bind fun o => o.stop? expected now else none) = _
  rw [if_pos rfl, hopen]
  rfl

/-- A parked segment is in custody, and some handle has not finished. -/
theorem Tells.parked_custody (h : e.Tells capacity ls) (hl : l ∈ ls)
    (hstage : l.stage = .emptied true) {g : Segment}
    (hparked : (e.tracer.ledgerOf l.ledger?).parked = some g) :
    ∃ o : OpenSegment, o.segment = g ∧
      Custody capacity o.outline (e.tracer.ledgerOf l.ledger?) l ∧
      ¬ ∀ a ∈ l.handles, a ∈ l.finished := by
  cases h.status l hl with
  | running hrunning =>
    rw [hstage] at hrunning
    contradiction
  | resting hrests =>
    cases hrests with
    | waiting hstage' hledger hpending hbegun hreports hparked' hstack hcustody =>
      rw [hledger] at hparked ⊢
      exact ⟨_, Option.some.inj (hparked'.symm.trans hparked), hcustody, hpending⟩
    | reported hdue hreports hid htree hnone =>
      rw [hnone] at hparked
      contradiction
    | gone hgone hreports hnone =>
      rw [hnone] at hparked
      contradiction

/-- A step of an idle strand by which no segment begins. -/
theorem idle_step (hidle : e.open? k = none) {op : StrandOp}
    (hbegun : e.begun now (.strand k op) = none) :
    (e.step now (.strand k op)).value.handed = none ∧
      (e.step now (.strand k op)).value.state.open? k = none ∧
      (e.step now (.strand k op)).value.state.tracer = e.tracer := by
  cases hsite : e.site? k with
  | none =>
    simp only [step, hsite, Logged.pure_value]
    exact ⟨rfl, hidle, rfl⟩
  | some s =>
    have hactive : s.strand.active = none := (open?_of_site? hsite).symm.trans hidle
    have heffect := s.effect_of_step now op
    rw [step_strand hsite]
    cases hop : op.opens? with
    | none =>
      obtain ⟨hhanded, hactive', htracer⟩ := idle_of_effect hactive hop heffect
      refine ⟨hhanded, ?_, htracer.trans (tracer_of_site? hsite)⟩
      exact (open?_of_site? (site?_setSite hsite _)).trans hactive'
    | some kind =>
      have hafter : ∃ x, (s.step now op).value.state.outline? = some x := by
        obtain ⟨-, -, -, ⟨x, b, hsome, -⟩ | ⟨-, id, sampled, hout⟩⟩ :=
          Life.opens_of_effect heffect hop
        · rw [Site.outline?, hactive] at hsome
          contradiction
        · exact ⟨_, hout⟩
      obtain ⟨x, hout⟩ := hafter
      obtain ⟨o, hopen, -⟩ := Option.map_eq_some_iff.mp hout
      have hstate : (e.setSite k (s.step now op).value.state).open? k = some o :=
        (open?_of_site? (site?_setSite hsite _)).trans hopen
      simp only [begun, hidle, step_strand hsite, Outcome.map, hstate] at hbegun
      contradiction

end Engine

namespace Owned

variable {capacity : Nat} {e e' : Engine} {ls : List Life} {l l' : Life} {k : Nat}
  {said : AsyncHandle → List HandleOp} {stops : List Stop} {handed : List Segment}
  {now : UInt64}

/-- A segment ends: it is dropped, handed over or parked. -/
theorem of_ending {o : OpenSegment} {t t' : Tracer} {due : Option Segment}
    (hending : o.Ending t due t') (hidle : e.open? k = none)
    (hledgers : e.tracer.ledgers = t'.ledgers) (hstage : l.stage = .emptied o.sampled)
    (hlinked : l.Linked) (hledger : o.ledger = l.ledger?)
    (hcover : stops.getLast?.map Stop.cover = some o.segment.cover)
    (hcustody : o.sampled = true → Custody capacity o.outline (t.ledgerOf l.ledger?) l)
    (hcontents : o.sampled = true →
      (t.ledgerOf l.ledger?).Contents o.segment.spans l said (stops.filterMap Stop.span?)) :
    Owned e k l said stops due.toList := by
  cases hending with
  | ignored hignored => exact .ignored (hignored ▸ hstage) hidle
  | plain hsampled hnone =>
    have hdue := hcustody hsampled
    have hdone := hcontents hsampled
    have hnone' : l.ledger? = none := hledger.symm.trans hnone
    rw [hnone'] at hdue hdone
    -- without a ledger nothing is left to handles
    have hnodup : ((o.segment.spans ++ []).map Span.id).Nodup := hdue.nodup_done
    have hall : Contents (o.segment.spans ++ []) [] l said (stops.filterMap Stop.span?) := hdone
    rw [List.append_nil] at hnodup hall
    refine .reported ⟨hsampled ▸ hstage, ?_⟩ hidle hcover hnodup hall
    exact (hdue.pending_eq_zero_iff hlinked).mp rfl
  | settled hsampled hsome hpending hspares hafter =>
    next n =>
    have hdue := hcustody hsampled
    have hdone := hcontents hsampled
    have hsome' : l.ledger? = some n := hledger.symm.trans hsome
    rw [hsome'] at hdue hdone
    refine .reported (g := o.segment.archiveAll (t.ledger n).completed) ⟨hsampled ▸ hstage, ?_⟩
      hidle hcover hdue.nodup_done (hdone.settled hdue.wellKept hpending)
    exact (hdue.pending_eq_zero_iff hlinked).mp hpending
  | parked hsampled hsome hpending hspares hafter =>
    next n =>
    have hdone := hcontents hsampled
    have hsome' : l.ledger? = some n := hledger.symm.trans hsome
    -- the archive stays as it is and waits in the ledger
    have hof : e.tracer.ledgerOf l.ledger? = { t.ledger n with parked := some o.segment } := by
      rw [Tracer.ledgerOf_congr hledgers, hsome']
      exact hafter
    rw [hsome'] at hdone
    refine .parked (g := o.segment) (hsampled ▸ hstage) hidle ?_ hcover ?_
    · rw [hof]
    · rw [hof]
      exact hdone

/-- The stop of a span, which may be the last one. -/
theorem stopped (h : e.Tells capacity ls) (hl : l ∈ ls) (hstage : l.stage = .running k) {s : Site}
    (hsite : e.site? k = some s) {o o₁ : OpenSegment} {f : Frame} {expected : Option Int}
    (hactive : s.strand.active = some o) (hpop : o.pop expected = .ok (f, o₁))
    (hcontents : l.ContentsAt s said (stops.filterMap Stop.span?)) :
    Owned (e.step now (.strand k (.stop expected))).value.state k
      (e.live now (.strand k (.stop expected)) l) said (stops ++ [⟨now, f, o.segment.cover⟩])
      (e.step now (.strand k (.stop expected))).value.handed.toList := by
  obtain ⟨x, hruns, hgrounded⟩ := h.runs hl hstage hsite
  have hstep := Engine.step_strand hsite now (.stop expected)
  have hvalue := Site.step_stop_of_pop hactive hpop now
  have hretired := o₁.retired_retire s.tracer f now
  cases hretire : (o₁.retire s.tracer f now).value with
  | mk o' t =>
  rw [hretire] at hretired hvalue
  obtain ⟨hspares, hledger, hsampled, hparked, hcustody⟩ :=
    hruns.retired hgrounded hactive hpop hretire
  have hcontents' := hruns.contents_retired hgrounded hactive hpop hretire hcontents
  have hcover : (stops ++ [Stop.mk now f o.segment.cover]).getLast?.map Stop.cover =
      some o'.segment.cover := by
    obtain ⟨rest, hstack, rfl, -⟩ := OpenSegment.pop_eq_ok hpop
    rw [List.getLast?_concat, hretired.cover]
    rfl
  rw [Engine.live_strand, if_pos hstage, hstep, Engine.open?_of_site? hsite, hactive, hvalue]
  have hopen := Engine.open?_of_site? (Engine.site?_setSite hsite
    ⟨((o'.finish t).value.2.reportDue (o'.finish t).value.1).value,
      { s.strand with active := none }⟩)
  dsimp only
  split
  · next hlast =>
    have hbound : ∀ n, o'.ledger = some n → n < t.ledgers.length := fun n hn =>
      Nat.lt_of_lt_of_le (hgrounded.bound n (hledger ▸ hn)) hspares.length
    have hledgers := ((o'.finish t).value.2.reportDue_value (o'.finish t).value.1).2
    have hkept : o'.sampled = true → Custody capacity o'.outline (t.ledgerOf l.ledger?)
        { l with
          stage := .emptied o.sampled
          reports := l.reports ++ (o'.finish t).value.1.toList } := by
      intro hs
      have hkept := hcustody (hsampled ▸ hs)
      exact { hkept with }
    refine of_ending (o'.ending_finish hbound) hopen hledgers ?_ ?_ hledger hcover hkept ?_
    · rw [hsampled]
      rfl
    · exact ⟨hgrounded.linked.handles, hgrounded.linked.finished⟩
    · intro hs
      have hkept := hcontents' hs
      exact { hkept with }
  · have hsame : (l.afterStrandOp (some o) now (.stop expected) (.flag false)).report none = l :=
      Life.report_none _
    show Owned _ _ ((l.afterStrandOp (some o) now (.stop expected) (.flag false)).report none) _ _ _
    rw [hsame]
    exact .running hstage (Engine.site?_setSite hsite _) ⟨o'.outline, rfl, hcontents'⟩

/-- The first span of a segment. -/
theorem begun (hidle : e.open? k = none) {op : StrandOp} {l : Life}
    (hbegun : e.begun now (.strand k op) = some l) (hsaid : ∀ n id, said (.span n id) = []) :
    Owned (e.step now (.strand k op)).value.state k (e.live now (.strand k op) l) said []
      (e.step now (.strand k op)).value.handed.toList := by
  cases hsite : e.site? k with
  | none =>
    simp only [Engine.begun, Engine.step, hsite, Logged.pure_value, Outcome.of, hidle] at hbegun
    contradiction
  | some s =>
  have hactive : s.strand.active = none := (Engine.open?_of_site? hsite).symm.trans hidle
  have heffect := s.effect_of_step now op
  have hstep := Engine.step_strand hsite now op
  have hafter : (e.setSite k (s.step now op).value.state).open? k =
      (s.step now op).value.state.strand.active :=
    Engine.open?_of_site? (Engine.site?_setSite hsite _)
  simp only [Engine.begun, hidle, hstep, Outcome.map, hafter] at hbegun
  -- on an idle strand only an operation that opens a span begins a life
  cases hop : op.opens? with
  | none =>
    obtain ⟨-, hnone, -⟩ := Engine.idle_of_effect hactive hop heffect
    rw [hnone] at hbegun
    contradiction
  | some kind =>
    obtain ⟨hhanded, -, -, ⟨x, b, hsome, -⟩ | ⟨-, id, sampled, hout⟩⟩ :=
      Life.opens_of_effect heffect hop
    · rw [Site.outline?, hactive] at hsome
      contradiction
    obtain ⟨o, hopen, -⟩ := Option.map_eq_some_iff.mp hout
    rw [hopen] at hbegun
    obtain rfl := Option.some.inj hbegun
    rw [Engine.live_strand, if_pos rfl, hstep]
    simp only [Outcome.map, hhanded, Life.report_none, Option.toList_none,
      Life.afterStrandOp_opened _ _ _ hop]
    refine .running rfl (Engine.site?_setSite hsite _) ⟨_, hout, fun _ => ?_⟩
    rw [Outline.spans_opened]
    exact Contents.new rfl hsaid

/-- A step of its strand that stops no span of an open segment. -/
theorem unstopped (h : e.Tells capacity ls) (hl : l ∈ ls) (hstage : l.stage = .running k) {s : Site}
    (hsite : e.site? k = some s) (hcontents : l.ContentsAt s said (stops.filterMap Stop.span?))
    {op : StrandOp} (hstop : ∀ expected, op ≠ .stop expected) :
    Owned (e.step now (.strand k op)).value.state k (e.live now (.strand k op) l) said stops
      (e.step now (.strand k op)).value.handed.toList := by
  obtain ⟨x, hruns, hgrounded⟩ := h.runs hl hstage hsite
  obtain ⟨x₀, hx₀, c⟩ := hcontents
  obtain rfl := Option.some.inj (hruns.outline.symm.trans hx₀)
  obtain ⟨hhanded, hsame, hcontents'⟩ :=
    hruns.contents_step hgrounded c hstop (s.effect_of_step now op)
  rw [Engine.live_strand, if_pos hstage, Engine.step_strand hsite, Engine.open?_of_site? hsite]
  simp only [Outcome.map, hhanded, Life.report_none, Option.toList_none]
  exact .running (hsame.trans hstage) (Engine.site?_setSite hsite _) hcontents'

/-- A stop that is refused. -/
theorem refused (hstage : l.stage = .running k) {s : Site} (hsite : e.site? k = some s)
    (hcontents : l.ContentsAt s said (stops.filterMap Stop.span?)) {o : OpenSegment}
    {expected : Option Int} {err : UsageError} (hactive : s.strand.active = some o)
    (hpop : o.pop expected = .fail err o) :
    Owned (e.step now (.strand k (.stop expected))).value.state k
      (e.live now (.strand k (.stop expected)) l) said stops
      (e.step now (.strand k (.stop expected))).value.handed.toList := by
  rw [Engine.live_strand, if_pos hstage, Engine.step_strand hsite,
    Site.step_stop_of_error hactive hpop]
  simp only [Outcome.map, Life.report_none, Option.toList_none]
  rw [Life.afterStrandOp_refused _ _ now rfl]
  exact .running hstage (Engine.site?_setSite hsite _) hcontents

/-- A step of its strand while the segment is open. -/
theorem strand_running (h : e.Tells capacity ls) (hl : l ∈ ls) (hstage : l.stage = .running k)
    {s : Site} (hsite : e.site? k = some s)
    (hcontents : l.ContentsAt s said (stops.filterMap Stop.span?)) (op : StrandOp) :
    Owned (e.step now (.strand k op)).value.state k (e.live now (.strand k op) l) said
      (stops ++ (e.stop? k now (.strand k op)).toList)
      (e.step now (.strand k op)).value.handed.toList := by
  by_cases hstop : ∀ expected, op ≠ .stop expected
  · rw [Engine.stop?_of_ne hstop, Option.toList_none, List.append_nil]
    exact unstopped h hl hstage hsite hcontents hstop
  obtain ⟨expected, rfl⟩ := not_forall_not.mp hstop
  obtain ⟨x, hruns, -⟩ := h.runs hl hstage hsite
  obtain ⟨o, hactive, -⟩ := Option.map_eq_some_iff.mp hruns.outline
  rw [Engine.stop?_of_open ((Engine.open?_of_site? hsite).trans hactive), OpenSegment.stop?]
  cases hpop : o.pop expected with
  | error x =>
    obtain ⟨err, rfl⟩ := o.atomic_pop expected x hpop
    simp only [Option.toList_none, List.append_nil]
    exact refused hstage hsite hcontents hactive hpop
  | ok popped => exact stopped h hl hstage hsite hactive hpop hcontents

/-- **Steps of the owner**: a step of its strand on the way of a segment, by which no
    other segment begins. -/
theorem strand (h : e.Tells capacity ls) (hl : l ∈ ls) (ho : Owned e k l said stops handed)
    {op : StrandOp} (hbegun : e.begun now (.strand k op) = none) :
    Owned (e.step now (.strand k op)).value.state k (e.live now (.strand k op) l) said
      (stops ++ (e.stop? k now (.strand k op)).toList)
      (handed ++ (e.step now (.strand k op)).value.handed.toList) := by
  -- after its end the segment is not concerned
  have hclosed (hidle : e.open? k = none)
      (hstays : ∀ e' : Engine, e'.open? k = none → e'.tracer = e.tracer →
        Owned e' k l said stops handed) :
      Owned (e.step now (.strand k op)).value.state k (e.live now (.strand k op) l) said
        (stops ++ (e.stop? k now (.strand k op)).toList)
        (handed ++ (e.step now (.strand k op)).value.handed.toList) := by
    obtain ⟨hhanded, hidle', htracer⟩ := Engine.idle_step hidle hbegun
    rw [Engine.stop?_of_idle hidle, hhanded, Option.toList_none, Option.toList_none,
      List.append_nil, List.append_nil, Engine.live_of_ne (h.stage_ne hidle hl)]
    exact hstays _ hidle' htracer
  cases ho with
  | running hstage hsite hcontents => exact strand_running h hl hstage hsite hcontents op
  | parked hstage hidle hparked hcover hcontents =>
    refine hclosed hidle fun e' hidle' htracer => ?_
    rw [← htracer] at hparked hcontents
    exact .parked hstage hidle' hparked hcover hcontents
  | reported hdue hidle hcover hnodup hcontents =>
    exact hclosed hidle fun e' hidle' htracer => .reported hdue hidle' hcover hnodup hcontents
  | ignored hstage hidle =>
    exact hclosed hidle fun e' hidle' htracer => .ignored hstage hidle'

/-- What a handle says while the segment is open. -/
theorem handle_running (h : e.Tells capacity ls) (hl : l ∈ ls) (hstage : l.stage = .running k)
    {s : Site} (hsite : e.site? k = some s)
    (hcontents : l.ContentsAt s said (stops.filterMap Stop.span?)) {n id : Nat}
    (hmem : AsyncHandle.span n id ∈ l.handles) (hopen : AsyncHandle.span n id ∉ l.finished)
    {op : HandleOp} (htime : op ≠ .finish none) {said' : AsyncHandle → List HandleOp}
    (hself : said' (.span n id) = said (.span n id) ++ [op])
    (hothers : ∀ h, h ≠ .span n id → said' h = said h) :
    Owned (e.step now (.handle (.span n id) op)).value.state k
      (e.live now (.handle (.span n id) op) l) said' stops
      (e.step now (.handle (.span n id) op)).value.handed.toList := by
  obtain ⟨x, hruns, hgrounded⟩ := h.runs hl hstage hsite
  have hn := hgrounded.linked.ledger?_eq hmem
  have hlt := hgrounded.bound n hn
  obtain ⟨hnone, -⟩ := hruns.handled hgrounded.linked hn hlt id now op
  obtain ⟨x₀, hx₀, c⟩ := hcontents
  obtain rfl := Option.some.inj (hruns.outline.symm.trans hx₀)
  have hparked := hruns.parked
  rw [hn] at hparked
  have hcontents' : (l.afterHandle (.span n id) op none).ContentsAt
      { s with tracer := s.tracer.setLedger n ((s.tracer.ledger n).handle id now op).value.2 }
      said' (stops.filterMap Stop.span?) := by
    refine ⟨x, hruns.outline, fun hsampled => ?_⟩
    have hbefore := c hsampled
    have hcustody := hruns.custody hsampled
    rw [hn] at hbefore hcustody
    obtain ⟨led', htold, hvalue⟩ :=
      hbefore.handled hcustody hgrounded.linked hmem hopen now htime hself hothers
    -- nothing is parked, so there is nothing to release
    have hafter : ((s.tracer.ledger n).handle id now op).value = (none, led') := by
      rcases hvalue with hvalue | ⟨hvalue, -⟩
      · exact hvalue
      · exact hvalue.trans (Ledger.release_of_not_parked (htold.parked.trans hparked))
    rw [Life.ledger?_afterHandle, hn, hafter]
    show ((s.tracer.setLedger n led').ledger n).Contents _ _ _ _
    rw [Tracer.ledger_setLedger_self hlt]
    exact htold.contents
  rw [Engine.tracer_of_site? hsite] at hnone hcontents'
  rw [Engine.live_handle_span, Engine.step_handle]
  simp only [hnone]
  refine .running ((l.stage_afterHandle _ _ _).trans hstage) ?_ hcontents'
  exact congrArg (Option.map (Site.mk _)) (Engine.strand?_of_site? hsite)

/-- What a handle says while the segment is parked: the last one releases it. -/
theorem handle_parked (h : e.Tells capacity ls) (hl : l ∈ ls) (hstage : l.stage = .emptied true)
    (hidle : e.open? k = none) {g : Segment}
    (hparked : (e.tracer.ledgerOf l.ledger?).parked = some g)
    (hcover : stops.getLast?.map Stop.cover = some g.cover)
    (hcontents : (e.tracer.ledgerOf l.ledger?).Contents g.spans l said
      (stops.filterMap Stop.span?)) {n id : Nat}
    (hmem : AsyncHandle.span n id ∈ l.handles) (hopen : AsyncHandle.span n id ∉ l.finished)
    {op : HandleOp} (htime : op ≠ .finish none) {said' : AsyncHandle → List HandleOp}
    (hself : said' (.span n id) = said (.span n id) ++ [op])
    (hothers : ∀ h, h ≠ .span n id → said' h = said h) :
    Owned (e.step now (.handle (.span n id) op)).value.state k
      (e.live now (.handle (.span n id) op) l) said' stops
      (e.step now (.handle (.span n id) op)).value.handed.toList := by
  have hgrounded := h.grounded l hl
  have hn := hgrounded.linked.ledger?_eq hmem
  have hlt := hgrounded.bound n hn
  obtain ⟨o, rfl, hcustody, -⟩ := h.parked_custody hl hstage hparked
  rw [hn] at hparked hcontents hcustody
  have hcontents₀ : (e.tracer.ledger n).Contents o.segment.spans l said _ := hcontents
  obtain ⟨led', htold, hvalue⟩ :=
    hcontents₀.handled hcustody hgrounded.linked hmem hopen now htime hself hothers
  have hlinked' := hgrounded.linked.afterHandle (.span n id) op none
  have hparked' : led'.parked = some o.segment := htold.parked.trans hparked
  have hstage' (due : Option Segment) :
      (l.afterHandle (.span n id) op due).stage = .emptied true :=
    (l.stage_afterHandle _ _ _).trans hstage
  rw [Engine.live_handle_span, Engine.step_handle]
  -- while a handle is pending, the segment stays in the ledger
  have hstays (hafter : ((e.tracer.ledger n).handle id now op).value = (none, led')) :
      Owned { e with tracer := ((e.tracer.setLedger n
          ((e.tracer.ledger n).handle id now op).value.2).reportDue
          ((e.tracer.ledger n).handle id now op).value.1).value } k
        (l.afterHandle (.span n id) op ((e.tracer.ledger n).handle id now op).value.1) said' stops
        ((e.tracer.ledger n).handle id now op).value.1.toList := by
    have hof : (e.tracer.setLedger n led').ledgerOf
        (l.afterHandle (.span n id) op none).ledger? = led' := by
      rw [Life.ledger?_afterHandle, hn]
      exact Tracer.ledger_setLedger_self hlt led'
    rw [hafter]
    refine .parked (g := o.segment) (hstage' none) hidle ?_ hcover ?_
    · exact (congrArg Ledger.parked hof).trans hparked'
    · show ((e.tracer.setLedger n led').ledgerOf _).Contents _ _ _ _
      rw [hof]
      exact htold.contents
  rcases hvalue with hvalue | ⟨hvalue, time, rfl⟩
  · exact hstays hvalue
  by_cases hpending : led'.pending = 0
  · have hreleased : ((e.tracer.ledger n).handle id now (.finish time)).value =
        (some (o.segment.archiveAll led'.completed),
          { led' with parked := none, completed := [] }) := by
      rw [hvalue]
      simp only [Ledger.release, hparked', if_pos hpending]
    have hdone := htold.contents.settled htold.custody.wellKept hpending
    have hall := (htold.custody.pending_eq_zero_iff hlinked').mp hpending
    rw [hreleased]
    refine .reported (g := o.segment.archiveAll led'.completed) ⟨hstage' _, ?_⟩ hidle hcover
      htold.custody.nodup_done ?_
    · rw [Life.afterHandle_of_finish l _ _ hmem]
      exact hall
    · rw [Life.afterHandle_of_finish l _ _ hmem]
      exact { hdone with }
  · refine hstays (hvalue.trans ?_)
    simp only [Ledger.release, hparked', if_neg hpending]

/-- **Steps of the handles**: what a handle says on the way of its segment. -/
theorem handle (h : e.Tells capacity ls) (hl : l ∈ ls) (ho : Owned e k l said stops handed)
    {n id : Nat} (hmem : AsyncHandle.span n id ∈ l.handles)
    (hopen : AsyncHandle.span n id ∉ l.finished) {op : HandleOp} (htime : op ≠ .finish none)
    {said' : AsyncHandle → List HandleOp}
    (hself : said' (.span n id) = said (.span n id) ++ [op])
    (hothers : ∀ h, h ≠ .span n id → said' h = said h) :
    Owned (e.step now (.handle (.span n id) op)).value.state k
      (e.live now (.handle (.span n id) op) l) said' stops
      (handed ++ (e.step now (.handle (.span n id) op)).value.handed.toList) := by
  cases ho with
  | running hstage hsite hcontents =>
    exact handle_running h hl hstage hsite hcontents hmem hopen htime hself hothers
  | parked hstage hidle hparked hcover hcontents =>
    exact handle_parked h hl hstage hidle hparked hcover hcontents hmem hopen htime hself hothers
  | reported hdue => exact absurd (hdue.2 _ hmem) hopen
  | ignored hstage hidle =>
    refine .ignored ?_ ?_
    · rw [Engine.live_handle, Life.stage_afterHandle]
      exact hstage
    · rw [Engine.step_handle]
      exact hidle

/-- An idle handle does nothing. -/
theorem handle_idle (ho : Owned e k l said stops handed) {said' : AsyncHandle → List HandleOp}
    (hothers : ∀ h, h ≠ .idle → said' h = said h) : Owned e k l said' stops handed := by
  have hspans (n id : Nat) : said' (.span n id) = said (.span n id) :=
    hothers _ fun heq => by contradiction
  cases ho with
  | running hstage hsite hcontents =>
    obtain ⟨x, hout, c⟩ := hcontents
    exact .running hstage hsite ⟨x, hout, fun hsampled => (c hsampled).congr hspans⟩
  | parked hstage hidle hparked hcover hcontents =>
    exact .parked hstage hidle hparked hcover (hcontents.congr hspans)
  | reported hdue hidle hcover hnodup hcontents =>
    exact .reported hdue hidle hcover hnodup (hcontents.congr hspans)
  | ignored hstage hidle => exact .ignored hstage hidle

end Owned

end TraceLink
