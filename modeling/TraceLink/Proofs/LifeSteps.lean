import TraceLink.Proofs.CustodySteps

/-! # Steps in the life of a segment

    While a segment is open, its life says what the site of its strand holds; once
    it has ended, what its ledger holds. Every step of the strand and every handle
    operation keeps this so. -/

namespace TraceLink

namespace Life

/-! ### What an operation adds -/

theorem afterStrandOp_refused (l : Life) (before : Option OpenSegment) (now : UInt64)
    {op : StrandOp} (hop : op.opens? = none) (e : UsageError) :
    l.afterStrandOp before now op (.usage e) = l := by
  unfold afterStrandOp
  split
  · contradiction
  · contradiction
  · simp only [hop]

theorem afterStrandOp_touched (l : Life) (before : Option OpenSegment) (now : UInt64)
    {op : StrandOp} (hop : op.opens? = none) (hstop : ∀ expected, op ≠ .stop expected)
    (hprepare : op ≠ .prepareAsync) (reply : Reply) :
    l.afterStrandOp before now op reply = l := by
  unfold afterStrandOp
  split
  · next expected => exact absurd rfl (hstop expected)
  · exact absurd rfl hprepare
  · simp only [hop]

theorem afterStrandOp_opened (l : Life) (before : Option OpenSegment) (now : UInt64)
    {op : StrandOp} {kind : SpanKind} (hop : op.opens? = some kind) (reply : Reply) :
    l.afterStrandOp before now op reply =
      { l with openings := l.openings ++
          [⟨now, kind, (before.map OpenSegment.outline).bind Outline.nearest?⟩] } := by
  have hinside : (before.bind (·.nearestRecorded?)).map (·.id) =
      (before.map OpenSegment.outline).bind Outline.nearest? := by
    cases before with
    | none => rfl
    | some o => exact (OpenSegment.nearest?_outline o).symm
  unfold afterStrandOp
  split
  · contradiction
  · contradiction
  · simp only [hop, hinside]

/-! ### Lives and sites -/

/-- The ledger that the handles name is there. -/
structure Grounded (t : Tracer) (l : Life) : Prop where
  linked : l.Linked
  bound : ∀ n, l.ledger? = some n → n < t.ledgers.length

/-- The segment is open at the site. -/
structure Runs (capacity : Nat) (s : Site) (l : Life) (x : Outline) : Prop where
  outline : s.outline? = some x
  ledger : x.ledger = l.ledger?
  frames : x.frames ≠ []
  begun : l.openings ≠ []
  reports : l.reports = []
  parked : (s.tracer.ledgerOf l.ledger?).parked = none
  custody : x.sampled = true → Custody capacity x (s.tracer.ledgerOf l.ledger?) l

/-- The segment has ended. -/
inductive Rests (capacity : Nat) (t : Tracer) (l : Life) : Prop where
  /-- It is parked in its ledger until all handles have finished. -/
  | waiting {o : OpenSegment} {n : Nat} (hstage : l.stage = .emptied true)
      (hledger : l.ledger? = some n) (hpending : ¬ ∀ h ∈ l.handles, h ∈ l.finished)
      (hbegun : l.openings ≠ []) (hreports : l.reports = [])
      (hparked : (t.ledger n).parked = some o.segment) (hstack : o.stack = [])
      (hcustody : Custody capacity o.outline (t.ledger n) l)
  | reported {g : Segment} (hdue : l.IsDue) (hreports : l.reports = [g])
      (hid : g.id = l.segment) (htree : 1 ≤ capacity → g.IsTree capacity l.openings)
      (hparked : (t.ledgerOf l.ledger?).parked = none)
  | gone (hstage : l.stage = .emptied false ∨ l.stage = .lost) (hreports : l.reports = [])
      (hparked : (t.ledgerOf l.ledger?).parked = none)

/-- How the ledger of a life evolves: once there is one it stays, and a new one is
    opened for it. -/
structure Moves (t t' : Tracer) (l l' : Life) : Prop where
  grounded : l'.Grounded t'
  spares : t.Spares l'.ledger? t'
  kept : ∀ n, l.ledger? = some n → l'.ledger? = some n
  fresh : ∀ n, l'.ledger? = some n → l.ledger? = some n ∨ n = t.ledgers.length

theorem moves_of_ledger?_eq {t t' : Tracer} {l l' : Life} (h : l.Grounded t) (hlinked : l'.Linked)
    (hledger : l'.ledger? = l.ledger?) (hspares : t.Spares l.ledger? t') : Moves t t' l l' where
  grounded := ⟨hlinked, fun n hn =>
    Nat.lt_of_lt_of_le (h.bound n (hledger ▸ hn)) hspares.length⟩
  spares := hledger ▸ hspares
  kept := fun _ hn => hledger.trans hn
  fresh := fun _ hn => .inl (hledger.symm.trans hn)

/-! ### Steps of the strand -/

variable {capacity : Nat} {now : UInt64} {s : Site} {l : Life} {x : Outline}

theorem Runs.outline_eq (h : l.Runs capacity s x) {o : OpenSegment}
    (hactive : s.strand.active = some o) : o.outline = x :=
  Option.some.inj ((Site.outline?_of_active hactive).symm.trans h.outline)

theorem Runs.ledger_eq (h : l.Runs capacity s x) {o : OpenSegment}
    (hactive : s.strand.active = some o) : o.ledger = l.ledger? :=
  (congrArg Outline.ledger (h.outline_eq hactive)).trans h.ledger

theorem Runs.touched (h : l.Runs capacity s x) {s' : Site} (htouch : Site.Touches now s s') :
    ∃ x', l.Runs capacity s' x' ∧ (x'.sampled = true → x.sampled = true) := by
  obtain ⟨htracer, b, hout⟩ := Site.outline?_touches htouch
  rw [h.outline, Option.map_some] at hout
  refine ⟨{ x with sampled := x.sampled && b }, ?_, fun hs => (Bool.and_eq_true_iff.mp hs).1⟩
  -- custody of a sampled segment does not depend on whether it is sampled
  refine { h with outline := hout, parked := ?_, custody := ?_ }
  · rw [htracer]
    exact h.parked
  · intro hsampled
    rw [htracer]
    have hboth := Bool.and_eq_true_iff.mp hsampled
    have hcustody := h.custody hboth.1
    exact { hcustody with }

/-- What an operation that opens a span does to the outline of its site. -/
theorem opens_of_effect {op : StrandOp} {outcome : Outcome Site} {kind : SpanKind}
    (heffect : Site.Effect now s op outcome) (hop : op.opens? = some kind) :
    outcome.handed = none ∧ outcome.state.tracer.config = s.tracer.config ∧
    outcome.state.tracer.ledgers = s.tracer.ledgers ∧
    ((∃ x b, s.outline? = some x ∧ outcome.state.outline? =
        some (Outline.opened { x with sampled := x.sampled && b } s.tracer.config.capacity
          kind now)) ∨
      (s.outline? = none ∧ ∃ id sampled, outcome.state.outline? =
        some ((Outline.new id sampled).opened s.tracer.config.capacity kind now))) := by
  cases heffect with
  | refused e hnone =>
    rw [hnone] at hop
    contradiction
  | touched hnone =>
    rw [hnone] at hop
    contradiction
  | prepared => contradiction
  | stopped => contradiction
  | ended => contradiction
  | opened hkind hread htouch hsegment hopen =>
    next kind' name inbound s₁ s₂ o o' f =>
    obtain rfl := Option.some.inj (hkind.symm.trans hop)
    obtain ⟨htracer, b, hout⟩ := Site.outline?_touches htouch
    obtain ⟨hbefore, hledgers, hconfig⟩ := Site.outline_segmentFor hsegment
    have hopened := OpenSegment.outline_openSpan s₂.tracer.config o kind' name now
      (Site.inheritedFrom inbound).2
    rw [hopen, hconfig, htracer] at hopened
    rw [htracer] at hledgers hconfig
    refine ⟨rfl, hconfig, hledgers, ?_⟩
    rw [show (s₂.withActive o').outline? = some o'.outline from rfl, hopened]
    -- the segment was open before, or it begins here
    rcases hbefore with hsome | ⟨hnone, id, sampled, hnew⟩
    · left
      rw [hout, Option.map_eq_some_iff] at hsome
      obtain ⟨x, hx, heq⟩ := hsome
      exact ⟨x, b, hx, by rw [heq]⟩
    · right
      rw [hout, Option.map_eq_none_iff] at hnone
      exact ⟨hnone, id, sampled, by rw [hnew]⟩
  | sent hsegment hopen =>
    next name peer k k' s₂ o o' f =>
    obtain rfl := Option.some.inj hop
    obtain ⟨hbefore, hledgers, hconfig⟩ := Site.outline_segmentFor hsegment
    have hopened := OpenSegment.outline_openExit s₂.tracer.config o name peer k now
    rw [hopen, hconfig] at hopened
    refine ⟨rfl, hconfig, hledgers, ?_⟩
    rw [show (s₂.withActive o').outline? = some o'.outline from rfl, hopened]
    rcases hbefore with hsome | ⟨hnone, id, sampled, hnew⟩
    · exact .inl ⟨_, true, hsome, by rw [Bool.and_true]⟩
    · exact .inr ⟨hnone, id, sampled, by rw [hnew]⟩

/-- A span that is opened at the site. -/
theorem Runs.opened (h : l.Runs capacity s x) {s' : Site} {kind : SpanKind}
    {b : Bool} (hledgers : s'.tracer.ledgers = s.tracer.ledgers)
    (hout : s'.outline? =
      some (Outline.opened { x with sampled := x.sampled && b } capacity kind now)) :
    Runs capacity s' { l with openings := l.openings ++ [⟨now, kind, x.nearest?⟩] }
      (Outline.opened { x with sampled := x.sampled && b } capacity kind now) := by
  obtain ⟨hledger, hsampled, hframes⟩ := Outline.opened_fields
    { x with sampled := x.sampled && b } capacity kind now
  refine ⟨hout, hledger.trans h.ledger, hframes, by simp, h.reports, ?_, ?_⟩
  · rw [Tracer.ledgerOf_congr hledgers]
    exact h.parked
  · intro hsampled'
    have hboth := Bool.and_eq_true_iff.mp (hsampled.symm.trans hsampled')
    have hfaded : Custody capacity { x with sampled := x.sampled && b }
        (s.tracer.ledgerOf l.ledger?) l := { h.custody hboth.1 with }
    rw [Tracer.ledgerOf_congr hledgers]
    exact hfaded.opened (hsampled.symm.trans hsampled') (fun hnil => absurd hnil h.frames)
      kind now

/-- The first span of a segment. -/
theorem runs_first {s' : Site} {kind : SpanKind} {id : String}
    {sampled : Bool} (k : Nat)
    (hout : s'.outline? = some ((Outline.new id sampled).opened capacity kind now)) :
    Runs capacity s' { segment := id, stage := .running k, openings := [⟨now, kind, none⟩] }
      ((Outline.new id sampled).opened capacity kind now) := by
  obtain ⟨hledger, hsampled, hframes⟩ := Outline.opened_fields
    (.new id sampled) capacity kind now
  refine ⟨hout, hledger, hframes, List.cons_ne_nil _ _, rfl, rfl, ?_⟩
  intro hsampled'
  obtain rfl : sampled = true := hsampled.symm.trans hsampled'
  exact (Custody.new capacity id (.running k)).opened rfl (fun _ => rfl) kind now

/-! ### Preparing -/

theorem ledger?_append (l : Life) (n id : Nat) :
    ledger? { l with handles := l.handles ++ [.span n id] } =
      if l.handles = [] then some n else l.ledger? := by
  unfold ledger?
  cases l.handles with
  | nil => rfl
  | cons h rest => rfl

theorem Linked.handles_eq_nil (h : l.Linked) (hnone : l.ledger? = none) : l.handles = [] := by
  cases hhandles : l.handles with
  | nil => rfl
  | cons a rest =>
    obtain ⟨n, id, -, hsome⟩ := h.handles a (hhandles ▸ List.mem_cons_self)
    rw [hnone] at hsome
    contradiction

/-- A handle in the ledger of the life, or in a new one if it has none yet. -/
theorem Linked.append (h : l.Linked) {n : Nat} {m : Nat} (hn : n = l.ledger?.getD m) (id : Nat) :
    Linked { l with handles := l.handles ++ [.span n id] } ∧
      ledger? { l with handles := l.handles ++ [.span n id] } = some n := by
  have hledger : ledger? { l with handles := l.handles ++ [.span n id] } = some n := by
    rw [ledger?_append]
    split
    · rfl
    · next hsome =>
      cases hold : l.ledger? with
      | none => exact absurd (h.handles_eq_nil hold) hsome
      | some n' => rw [hn, hold, Option.getD_some]
  refine ⟨⟨?_, fun a ha => List.mem_append_left _ (h.finished a ha)⟩, hledger⟩
  intro a ha
  rw [hledger]
  rcases List.mem_append.mp ha with hold | hnew
  · obtain ⟨n', id', rfl, hn'⟩ := h.handles a hold
    exact ⟨n', id', rfl, by rw [hn, hn', Option.getD_some]⟩
  · exact ⟨n, id, List.mem_singleton.mp hnew, rfl⟩

/-- The ledger of a life with a new handle. The first handle of a life opens one, the
    others are prepared in the same one. -/
theorem Runs.append_ledger (h : l.Runs capacity s x) (hlinked : l.Linked) {t : Tracer}
    {n id : Nat} (hledger : n = x.ledger.getD s.tracer.ledgers.length)
    (hprepare : t.ledger n = (s.tracer.ledgerOf x.ledger).prepare id) :
    n = l.ledger?.getD s.tracer.ledgers.length ∧
      Linked { l with handles := l.handles ++ [.span n id] } ∧
      ledger? { l with handles := l.handles ++ [.span n id] } = some n ∧
      t.ledgerOf (ledger? { l with handles := l.handles ++ [.span n id] }) =
        (s.tracer.ledgerOf l.ledger?).prepare id := by
  rw [h.ledger] at hledger hprepare
  obtain ⟨hlinked', hsome⟩ := hlinked.append hledger id
  refine ⟨hledger, hlinked', hsome, ?_⟩
  rw [hsome]
  exact hprepare

/-- The active span is prepared at the site. -/
theorem Runs.prepared (h : l.Runs capacity s x) (hgrounded : l.Grounded s.tracer)
    {o o' : OpenSegment} {t : Tracer} {a : AsyncHandle} (hactive : s.strand.active = some o)
    (hpreparing : o.Preparing s.tracer a o' t) (now : UInt64) :
    let l' := l.afterStrandOp (some o) now .prepareAsync (.handle a)
    Moves s.tracer t l l' ∧ ∃ x', l'.Runs capacity ({ s with tracer := t }.withActive o') x' ∧
      x'.sampled = x.sampled := by
  obtain rfl := h.outline_eq hactive
  cases hpreparing with
  | idle =>
    refine ⟨moves_of_ledger?_eq hgrounded hgrounded.linked rfl
      (Tracer.spares_of_ledgers_eq rfl rfl _), o.outline, ?_, rfl⟩
    exact { h with outline := rfl }
  | recorded hstack hplain hledger hlt hspares hprepare =>
    next span rest n =>
    obtain ⟨hn, hlinked, hsome, hof⟩ := h.append_ledger hgrounded.linked hledger hprepare
    have hframes := OpenSegment.frames_of_stack hstack
    refine ⟨⟨⟨hlinked, ?_⟩, ?_, ?_, ?_⟩, _,
      ⟨rfl, hsome.symm, List.cons_ne_nil _ _, h.begun, h.reports, ?_, ?_⟩, rfl⟩
    · intro m hm
      rw [← Option.some.inj (hsome.symm.trans hm)]
      exact hlt
    · show s.tracer.Spares (ledger? { l with handles := l.handles ++ [.span n span.id] }) t
      rw [hsome]
      exact hspares
    · intro m hm
      rw [hm, Option.getD_some] at hn
      exact hn ▸ hsome
    · intro m hm
      obtain rfl := Option.some.inj (hsome.symm.trans hm)
      cases hold : l.ledger? with
      | none => exact .inr (by rw [hn, hold, Option.getD_none])
      | some n' => exact .inl (by rw [hn, hold, Option.getD_some])
    · exact (congrArg Ledger.parked hof).trans h.parked
    · intro hsampled
      have hcustody := (h.custody hsampled).prepared hgrounded.linked hframes hplain n
      exact hof.symm ▸ hcustody

/-! ### Stopping -/

/-- What is left of the active segment when its active span was retired. -/
theorem Runs.retired (h : l.Runs capacity s x) (hgrounded : l.Grounded s.tracer)
    {o o₁ o' : OpenSegment} {f : Frame} {t : Tracer} {expected : Option Int}
    (hactive : s.strand.active = some o) (hpop : o.pop expected = .ok (f, o₁))
    (hretire : (o₁.retire s.tracer f now).value = (o', t)) :
    s.tracer.Spares l.ledger? t ∧ o'.ledger = l.ledger? ∧ o'.sampled = o.sampled ∧
    (t.ledgerOf l.ledger?).parked = none ∧
    (o.sampled = true → Custody capacity o'.outline (t.ledgerOf l.ledger?) l) := by
  obtain rfl := h.outline_eq hactive
  have hretired := o₁.retired_retire s.tracer f now
  rw [hretire] at hretired
  obtain ⟨⟨spans, hout⟩, hspares, hparked⟩ := hretired.spares
  obtain ⟨rest, hstack, rfl, -⟩ := OpenSegment.pop_eq_ok hpop
  have hledger : o.ledger = l.ledger? := h.ledger
  have hof : OpenSegment.ledger { o with stack := rest } = l.ledger? := hledger
  rw [hof] at hspares hparked
  refine ⟨hspares, (congrArg Outline.ledger hout).trans hledger, congrArg Outline.sampled hout,
    hparked.trans h.parked, ?_⟩
  intro hsampled
  have hcustody := h.custody hsampled
  rw [← hledger] at hcustody ⊢
  exact hretired.custody hpop (fun n hn => hgrounded.bound n (hledger ▸ hn)) hcustody

/-- The active span is stopped at the site, and others stay open. -/
theorem Runs.stopped (h : l.Runs capacity s x) (hgrounded : l.Grounded s.tracer)
    {o o₁ o' : OpenSegment} {f : Frame} {t : Tracer} {expected : Option Int}
    (hactive : s.strand.active = some o) (hpop : o.pop expected = .ok (f, o₁))
    (hretire : (o₁.retire s.tracer f now).value = (o', t)) (hopen : o'.stack ≠ []) :
    Moves s.tracer t l l ∧ ∃ x', l.Runs capacity ({ s with tracer := t }.withActive o') x' ∧
      x'.sampled = x.sampled := by
  obtain ⟨hspares, hledger, hsampled, hparked, hcustody⟩ :=
    h.retired hgrounded hactive hpop hretire
  refine ⟨moves_of_ledger?_eq hgrounded hgrounded.linked rfl hspares, o'.outline, ?_,
    hsampled.trans (congrArg Outline.sampled (h.outline_eq hactive))⟩
  refine ⟨rfl, hledger, ?_, h.begun, h.reports, hparked, ?_⟩
  · exact fun hnil => hopen (List.map_eq_nil_iff.mp hnil)
  · exact fun hs => hcustody (hsampled.symm.trans hs)

/-- The last span is stopped at the site, and the segment is reported, parked or
    dropped. -/
theorem Runs.ended (h : l.Runs capacity s x) (hgrounded : l.Grounded s.tracer)
    {o o₁ o' : OpenSegment} {f : Frame} {t t' : Tracer} {expected : Option Int}
    {due : Option Segment} (hactive : s.strand.active = some o)
    (hpop : o.pop expected = .ok (f, o₁))
    (hretire : (o₁.retire s.tracer f now).value = (o', t)) (hlast : o'.stack = [])
    (hfinish : (o'.finish t).value = (due, t')) :
    let l' := { l with stage := .emptied o.sampled, reports := l.reports ++ due.toList }
    Moves s.tracer t' l l' ∧ l'.Rests capacity t' := by
  obtain ⟨hspares, hledger, hsampled, hparked, hcustody⟩ :=
    h.retired hgrounded hactive hpop hretire
  have hbound : ∀ n, o'.ledger = some n → n < t.ledgers.length := fun n hn =>
    Nat.lt_of_lt_of_le (hgrounded.bound n (hledger ▸ hn)) hspares.length
  have hframes : o'.outline.frames = [] := by
    simp only [OpenSegment.outline, hlast, List.map_nil]
  have hending := o'.ending_finish hbound
  rw [hfinish] at hending
  intro l'
  have hlinked : l'.Linked := ⟨hgrounded.linked.handles, hgrounded.linked.finished⟩
  have hstage {b : Bool} (hb : o'.sampled = b) : l'.stage = .emptied b :=
    congrArg Stage.emptied (hsampled.symm.trans hb)
  have hmoves (hspares' : t.Spares l.ledger? t') : Moves s.tracer t' l l' :=
    moves_of_ledger?_eq hgrounded hlinked rfl (hspares.trans hspares')
  -- what becomes of the segment is decided by its sampling, its ledger and what is pending
  cases hending with
  | ignored hignored hconfig hledgers =>
    refine ⟨hmoves (Tracer.spares_of_ledgers_eq hconfig hledgers _),
      .gone (.inl (hstage hignored)) ?_ ?_⟩
    · simp [l', h.reports]
    · rw [Tracer.ledgerOf_congr hledgers]
      exact hparked
  | plain hsampled' hnone hconfig hledgers =>
    have hcustody := hcustody (hsampled.symm.trans hsampled')
    have hnone' : l.ledger? = none := hledger.symm.trans hnone
    refine ⟨hmoves (Tracer.spares_of_ledgers_eq hconfig hledgers _),
      .reported ⟨hstage hsampled', ?_⟩ ?_ hcustody.id ?_ ?_⟩
    · intro a ha
      rw [hgrounded.linked.handles_eq_nil hnone'] at ha
      contradiction
    · simp [l', h.reports]
    · rw [hnone'] at hcustody
      exact fun hpos => hcustody.isTree hpos hframes rfl h.begun (List.append_nil _).symm rfl
    · rw [Tracer.ledgerOf_congr hledgers]
      exact hparked
  | settled hsampled' hsome hpending hspares' hafter =>
    next n =>
    have hcustody := hcustody (hsampled.symm.trans hsampled')
    have hsome' : l.ledger? = some n := hledger.symm.trans hsome
    rw [hsome'] at hcustody hparked
    refine ⟨hmoves (hsome' ▸ hspares'),
      .reported (g := o'.segment.archiveAll (t.ledger n).completed)
        ⟨hstage hsampled', ?_⟩ ?_ hcustody.id ?_ ?_⟩
    · exact (hcustody.pending_eq_zero_iff hgrounded.linked).mp hpending
    · simp [l', h.reports]
    · exact fun hpos => hcustody.isTree hpos hframes hpending h.begun rfl rfl
    · rw [show l'.ledger? = some n from hsome']
      exact (congrArg Ledger.parked hafter).trans hparked
  | parked hsampled' hsome hpending hspares' hafter =>
    next n =>
    have hcustody := hcustody (hsampled.symm.trans hsampled')
    have hsome' : l.ledger? = some n := hledger.symm.trans hsome
    rw [hsome'] at hcustody hparked
    refine ⟨hmoves (hsome' ▸ hspares'),
      .waiting (o := o') (hstage hsampled') hsome' ?_ h.begun ?_ ?_ hlast ?_⟩
    · exact fun hall => hpending ((hcustody.pending_eq_zero_iff hgrounded.linked).mpr hall)
    · simp [l', h.reports]
    · rw [hafter]
    · rw [hafter]
      exact { hcustody.park _ with }

theorem report_none (l : Life) : l.report none = l := by
  unfold report
  rw [Option.toList_none, List.append_nil]

/-- A life at rest depends on its ledger only. -/
theorem Rests.frame {t t' : Tracer} (h : l.Rests capacity t)
    (hledger : t'.ledgerOf l.ledger? = t.ledgerOf l.ledger?) : l.Rests capacity t' := by
  cases h with
  | waiting hstage hsome hpending hbegun hreports hparked hstack hcustody =>
    rw [hsome] at hledger
    rw [show t.ledger _ = t'.ledger _ from hledger.symm] at hparked hcustody
    exact .waiting hstage hsome hpending hbegun hreports hparked hstack hcustody
  | reported hdue hreports hid htree hparked =>
    exact .reported hdue hreports hid htree (hledger ▸ hparked)
  | gone hstage hreports hparked => exact .gone hstage hreports (hledger ▸ hparked)

/-- The life of an open segment depends on its outline and its ledger only. -/
theorem Runs.frame (h : l.Runs capacity s x) {s' : Site} (hout : s'.outline? = s.outline?)
    (hledger : s'.tracer.ledgerOf l.ledger? = s.tracer.ledgerOf l.ledger?) :
    l.Runs capacity s' x where
  outline := hout.trans h.outline
  ledger := h.ledger
  frames := h.frames
  begun := h.begun
  reports := h.reports
  parked := hledger ▸ h.parked
  custody := hledger ▸ h.custody

/-- A step that opens a span. -/
theorem Runs.step_opens (h : l.Runs capacity s x)
    (hcapacity : s.tracer.config.capacity = capacity) (hgrounded : l.Grounded s.tracer)
    {op : StrandOp} {kind : SpanKind} (hop : op.opens? = some kind) {outcome : Outcome Site}
    (heffect : Site.Effect now s op outcome) :
    let l' := (l.afterStrandOp s.strand.active now op outcome.reply).report outcome.handed
    Moves s.tracer outcome.state.tracer l l' ∧ l'.stage = l.stage ∧
      ∃ x', l'.Runs capacity outcome.state x' ∧ (x'.sampled = true → x.sampled = true) := by
  obtain ⟨hhanded, hconfig, hledgers, hout⟩ := opens_of_effect heffect hop
  intro l'
  have hl' : l' = { l with openings := l.openings ++ [⟨now, kind, x.nearest?⟩] } := by
    show (l.afterStrandOp _ now op outcome.reply).report outcome.handed = _
    rw [hhanded, report_none, afterStrandOp_opened l s.strand.active now hop]
    rw [show s.strand.active.map OpenSegment.outline = some x from h.outline, Option.bind_some]
  rw [hcapacity] at hout
  rcases hout with ⟨x₀, b, hx₀, hout⟩ | ⟨hnone, -⟩
  · obtain rfl := Option.some.inj (hx₀.symm.trans h.outline)
    rw [hl']
    refine ⟨moves_of_ledger?_eq hgrounded ?_ rfl
      (Tracer.spares_of_ledgers_eq hconfig hledgers _), rfl, _, h.opened hledgers hout, ?_⟩
    · exact ⟨hgrounded.linked.handles, hgrounded.linked.finished⟩
    · intro hs
      rw [(Outline.opened_fields _ _ _ _).2.1] at hs
      exact (Bool.and_eq_true_iff.mp hs).1
  · rw [h.outline] at hnone
    contradiction

/-- What one step of its strand does to the life of the open segment. -/
theorem Runs.step (h : l.Runs capacity s x)
    (hcapacity : s.tracer.config.capacity = capacity) (hgrounded : l.Grounded s.tracer)
    {op : StrandOp} {outcome : Outcome Site} (heffect : Site.Effect now s op outcome) :
    let l' := (l.afterStrandOp s.strand.active now op outcome.reply).report outcome.handed
    Moves s.tracer outcome.state.tracer l l' ∧
    ((l'.stage = l.stage ∧
        ∃ x', l'.Runs capacity outcome.state x' ∧ (x'.sampled = true → x.sampled = true)) ∨
      (l'.stage = .emptied x.sampled ∧ outcome.state.outline? = none ∧
        l'.Rests capacity outcome.state.tracer)) := by
  intro l'
  cases hop : op.opens? with
  | some kind =>
    obtain ⟨hmoves, hstays⟩ := h.step_opens hcapacity hgrounded hop heffect
    exact ⟨hmoves, .inl hstays⟩
  | none =>
    cases heffect with
    | refused e hnone =>
      have hl' : l' = l := (report_none _).trans (l.afterStrandOp_refused _ now hop e)
      rw [hl']
      exact ⟨moves_of_ledger?_eq hgrounded hgrounded.linked rfl
        (Tracer.spares_of_ledgers_eq rfl rfl _), .inl ⟨rfl, x, h, fun hs => hs⟩⟩
    | touched hnone hstop hprepare htouch =>
      have hl' : l' = l :=
        (report_none _).trans (l.afterStrandOp_touched _ now hop hstop hprepare _)
      obtain ⟨htracer, -⟩ := Site.outline?_touches htouch
      rw [hl']
      exact ⟨moves_of_ledger?_eq hgrounded hgrounded.linked rfl
        (Tracer.spares_of_ledgers_eq (congrArg _ htracer) (congrArg _ htracer) _),
        .inl ⟨rfl, h.touched htouch⟩⟩
    | opened hkind =>
      rw [hkind] at hop
      contradiction
    | sent => contradiction
    | prepared hactive hprepare =>
      next o o' t a =>
      have hbound : ∀ n, o.ledger = some n → n < s.tracer.ledgers.length := fun n hn =>
        hgrounded.bound n (h.ledger ▸ h.outline_eq hactive ▸ hn)
      obtain ⟨hmoves, x', hruns, hsame⟩ := h.prepared hgrounded hactive
        (OpenSegment.preparing_prepareAsync hbound hprepare) now
      have hl' : l' = l.afterStrandOp (some o) now .prepareAsync (.handle a) := by
        rw [← hactive]
        exact report_none _
      rw [hl']
      refine ⟨hmoves, .inl ⟨?_, x', hruns, fun hs => hsame ▸ hs⟩⟩
      cases a <;> rfl
    | stopped hactive hpop hretire hopen =>
      have hl' : l' = l := report_none _
      rw [hl']
      obtain ⟨hmoves, x', hruns, hsame⟩ := h.stopped hgrounded hactive hpop hretire hopen
      exact ⟨hmoves, .inl ⟨rfl, x', hruns, fun hs => hsame ▸ hs⟩⟩
    | ended hactive hpop hretire hlast hfinish =>
      next expected o o₁ o' f t t' due =>
      obtain ⟨hmoves, hrests⟩ := h.ended hgrounded hactive hpop hretire hlast hfinish
      obtain ⟨hconfig, hledgers⟩ := t'.reportDue_value due
      have hl' : l' = { l with
          stage := .emptied o.sampled, reports := l.reports ++ due.toList } := by
        show (l.afterStrandOp s.strand.active now (.stop expected) (.flag true)).report due = _
        rw [hactive]
        rfl
      rw [hl']
      have hstage : Stage.emptied o.sampled = .emptied x.sampled := by
        rw [← h.outline_eq hactive]
        rfl
      refine ⟨?_, .inr ⟨hstage, rfl, hrests.frame (Tracer.ledgerOf_congr hledgers _)⟩⟩
      exact moves_of_ledger?_eq hgrounded hmoves.grounded.linked rfl
        (hmoves.spares.trans (Tracer.spares_of_ledgers_eq hconfig hledgers _))

/-- The strand of an open segment goes away. -/
theorem Runs.left (h : l.Runs capacity s x) {t : Tracer}
    (hledgers : t.ledgers = s.tracer.ledgers) : Rests capacity t { l with stage := .lost } := by
  refine .gone (.inr rfl) h.reports ?_
  rw [Tracer.ledgerOf_congr hledgers]
  exact h.parked

/-! ### Handle operations -/

section handles

variable (l) (a : AsyncHandle) (op : HandleOp) (due : Option Segment)

@[simp] theorem stage_afterHandle : (l.afterHandle a op due).stage = l.stage := by
  unfold afterHandle
  split
  · split <;> rfl
  · rfl

@[simp] theorem openings_afterHandle : (l.afterHandle a op due).openings = l.openings := by
  unfold afterHandle
  split
  · split <;> rfl
  · rfl

@[simp] theorem segment_afterHandle : (l.afterHandle a op due).segment = l.segment := by
  unfold afterHandle
  split
  · split <;> rfl
  · rfl

@[simp] theorem handles_afterHandle : (l.afterHandle a op due).handles = l.handles := by
  unfold afterHandle
  split
  · split <;> rfl
  · rfl

@[simp] theorem ledger?_afterHandle : (l.afterHandle a op due).ledger? = l.ledger? := by
  unfold ledger?
  rw [handles_afterHandle]

theorem mem_finished_afterHandle {b : AsyncHandle} (hb : b ∈ l.finished) :
    b ∈ (l.afterHandle a op due).finished := by
  unfold afterHandle
  split
  · split
    · exact List.mem_append_left _ hb
    · exact hb
  · exact hb

theorem reports_afterHandle_none : (l.afterHandle a op none).reports = l.reports := by
  unfold afterHandle
  split
  · split
    · exact List.append_nil _
    · rfl
  · rfl

/-- Only a handle of the life that finishes has something to report. -/
theorem afterHandle_of_finish {time : Option UInt64} (ha : a ∈ l.handles) :
    l.afterHandle a (.finish time) due = (l.afterHandle a (.finish time) none).report due := by
  unfold afterHandle
  simp only [if_pos ha, report, Option.toList_none, List.append_nil]

end handles

theorem Linked.afterHandle (h : l.Linked) (a : AsyncHandle) (op : HandleOp)
    (due : Option Segment) : (l.afterHandle a op due).Linked where
  handles := by
    rw [handles_afterHandle, ledger?_afterHandle]
    exact h.handles
  finished := by
    rw [handles_afterHandle]
    unfold Life.afterHandle
    split
    · split
      · next ha =>
        intro b hb
        rcases List.mem_append.mp hb with hold | hnew
        · exact h.finished b hold
        · exact List.mem_singleton.mp hnew ▸ ha
      · exact h.finished
    · exact h.finished

/-- Handle operations while the segment is open hand over nothing. -/
theorem Runs.handled (h : l.Runs capacity s x) (hlinked : l.Linked) {n : Nat}
    (hn : l.ledger? = some n) (hlt : n < s.tracer.ledgers.length) (id : Nat) (now : UInt64)
    (op : HandleOp) :
    ((s.tracer.ledger n).handle id now op).value.1 = none ∧
    (l.afterHandle (.span n id) op none).Runs capacity
      { s with tracer := s.tracer.setLedger n ((s.tracer.ledger n).handle id now op).value.2 }
      x := by
  have hparked := h.parked
  rw [hn] at hparked
  obtain ⟨hnone, hparked'⟩ := Ledger.handle_of_not_parked hparked id now op
  have hafter : ∀ led, (s.tracer.setLedger n led).ledgerOf
      (l.afterHandle (.span n id) op none).ledger? = led := by
    intro led
    rw [ledger?_afterHandle, hn]
    exact Tracer.ledger_setLedger_self hlt led
  refine ⟨hnone, h.outline, ?_, h.frames, ?_, ?_, ?_, ?_⟩
  · rw [ledger?_afterHandle]
    exact h.ledger
  · rw [openings_afterHandle]
    exact h.begun
  · rw [reports_afterHandle_none]
    exact h.reports
  · rw [hafter]
    exact hparked'
  · intro hsampled
    rw [hafter]
    have hcustody := h.custody hsampled
    rw [hn] at hcustody
    obtain ⟨led', hcustody', hsame, ⟨hvalue, -⟩ | ⟨hvalue, -⟩⟩ :=
      hcustody.handled hlinked hn id now op
    · rw [show ((s.tracer.ledger n).handle id now op).value = _ from hvalue]
      exact hcustody'
    · rw [Ledger.release_of_not_parked (hsame.trans hparked)] at hvalue
      rw [show ((s.tracer.ledger n).handle id now op).value = _ from hvalue]
      exact hcustody'

/-- Where no segment is parked, handle operations change nothing about a life at
    rest. -/
theorem Rests.handled_of_not_parked {t : Tracer} (h : l.Rests capacity t) {n : Nat}
    (hn : l.ledger? = some n) (hlt : n < t.ledgers.length)
    (hidle : (t.ledger n).parked = none) (id : Nat) (now : UInt64) (op : HandleOp) :
    ((t.ledger n).handle id now op).value.1 = none ∧
    (l.afterHandle (.span n id) op none).Rests capacity
      (t.setLedger n ((t.ledger n).handle id now op).value.2) := by
  obtain ⟨hnone, hidle'⟩ := Ledger.handle_of_not_parked hidle id now op
  have hafter : ((t.setLedger n ((t.ledger n).handle id now op).value.2).ledgerOf
      (l.afterHandle (.span n id) op none).ledger?).parked = none := by
    rw [ledger?_afterHandle, hn]
    exact (congrArg Ledger.parked (Tracer.ledger_setLedger_self hlt _)).trans hidle'
  refine ⟨hnone, ?_⟩
  cases h with
  | waiting hstage hsome hpending hbegun hreports hparked =>
    obtain rfl := Option.some.inj (hsome.symm.trans hn)
    rw [hidle] at hparked
    contradiction
  | reported hdue hreports hid htree =>
    next g _ =>
    refine .reported (g := g) ⟨?_, ?_⟩ ?_ ?_ ?_ hafter
    · rw [stage_afterHandle]
      exact hdue.1
    · intro a ha
      rw [handles_afterHandle] at ha
      exact l.mem_finished_afterHandle _ _ _ (hdue.2 a ha)
    · rw [reports_afterHandle_none]
      exact hreports
    · rw [segment_afterHandle]
      exact hid
    · rw [openings_afterHandle]
      exact htree
  | gone hstage hreports =>
    refine .gone ?_ ?_ hafter
    · rw [stage_afterHandle]
      exact hstage
    · rw [reports_afterHandle_none]
      exact hreports

/-- The segment stays parked as long as a handle is pending. -/
theorem rests_of_pending {t : Tracer} {n id : Nat} {op : HandleOp} {o : OpenSegment}
    {led : Ledger} (hlinked : (l.afterHandle (.span n id) op none).Linked)
    (hn : l.ledger? = some n) (hlt : n < t.ledgers.length) (hstage : l.stage = .emptied true)
    (hbegun : l.openings ≠ []) (hreports : l.reports = []) (hstack : o.stack = [])
    (hparked : led.parked = some o.segment) (hpending : led.pending ≠ 0)
    (hcustody : Custody capacity o.outline led (l.afterHandle (.span n id) op none)) :
    (l.afterHandle (.span n id) op none).Rests capacity (t.setLedger n led) := by
  refine .waiting (o := o) ?_ (n := n) ?_ ?_ ?_ ?_ ?_ hstack ?_
  · rw [stage_afterHandle]
    exact hstage
  · rw [ledger?_afterHandle]
    exact hn
  · exact mt (hcustody.pending_eq_zero_iff hlinked).mpr hpending
  · rw [openings_afterHandle]
    exact hbegun
  · rw [reports_afterHandle_none]
    exact hreports
  · rw [Tracer.ledger_setLedger_self hlt]
    exact hparked
  · rw [Tracer.ledger_setLedger_self hlt]
    exact hcustody

/-- With the last handle the segment is released, and it is a tree. -/
theorem rests_of_released {t : Tracer} {n id : Nat} {op : HandleOp} {o : OpenSegment}
    {led : Ledger} (hlinked : (l.afterHandle (.span n id) op none).Linked)
    (hn : l.ledger? = some n) (hlt : n < t.ledgers.length) (hstage : l.stage = .emptied true)
    (hbegun : l.openings ≠ []) (hreports : l.reports = []) (hstack : o.stack = [])
    (hpending : led.pending = 0)
    (hcustody : Custody capacity o.outline led (l.afterHandle (.span n id) op none)) :
    ((l.afterHandle (.span n id) op none).report
        (some (o.segment.archiveAll led.completed))).Rests capacity
      (t.setLedger n { led with parked := none, completed := [] }) := by
  refine .reported (g := o.segment.archiveAll led.completed) ⟨?_, ?_⟩ ?_ ?_ ?_ ?_
  · rw [report, stage_afterHandle]
    exact hstage
  · exact (hcustody.pending_eq_zero_iff hlinked).mp hpending
  · rw [report, reports_afterHandle_none, hreports]
    rfl
  · exact hcustody.id
  · have hframes : o.outline.frames = [] := by
      simp only [OpenSegment.outline, hstack, List.map_nil]
    rw [← openings_afterHandle l (.span n id) op none] at hbegun
    exact fun hpos => hcustody.isTree hpos hframes hpending hbegun rfl rfl
  · rw [show ledger? (report _ _) = _ from l.ledger?_afterHandle _ _ none, hn]
    exact congrArg Ledger.parked (Tracer.ledger_setLedger_self hlt _)

/-- Handle operations after the end of the segment: the handle that finishes last
    hands the segment over. -/
theorem Rests.handled {t : Tracer} (h : l.Rests capacity t) (hlinked : l.Linked) {n : Nat}
    (hn : l.ledger? = some n) (hlt : n < t.ledgers.length) (id : Nat) (now : UInt64)
    (op : HandleOp) :
    let step := ((t.ledger n).handle id now op).value
    (l.afterHandle (.span n id) op step.1).Rests capacity (t.setLedger n step.2) ∧
    (step.1.isSome → ∃ time, op = .finish time ∧ AsyncHandle.span n id ∈ l.handles) := by
  intro step
  by_cases hidle : (t.ledger n).parked = none
  · obtain ⟨hnone, hrests⟩ := h.handled_of_not_parked hn hlt hidle id now op
    rw [show step.1 = none from hnone]
    exact ⟨hrests, fun hsome => by contradiction⟩
  cases h with
  | reported hdue hreports hid htree hparked =>
    rw [hn] at hparked
    exact absurd hparked hidle
  | gone hstage hreports hparked =>
    rw [hn] at hparked
    exact absurd hparked hidle
  | waiting hstage hsome hpending hbegun hreports hparked hstack hcustody =>
    next o n' =>
    obtain rfl := Option.some.inj (hsome.symm.trans hn)
    obtain ⟨led', hcustody', hsame, hvalue⟩ := hcustody.handled hlinked hn id now op
    have hlinked' := hlinked.afterHandle (.span n' id) op none
    rw [hparked] at hsame
    -- Either no handle finished, or one did and the ledger tries to release the segment.
    rcases hvalue with ⟨hvalue, hkept⟩ | ⟨hvalue, time, rfl, hmem⟩
    · have hledpending := mt (hcustody.pending_eq_zero_iff hlinked).mp hpending
      rw [show step = (none, led') from hvalue]
      exact ⟨rests_of_pending hlinked' hn hlt hstage hbegun hreports hstack hsame
        (hkept ▸ hledpending) hcustody', fun hdue => by contradiction⟩
    refine ⟨?_, fun _ => ⟨time, rfl, hmem⟩⟩
    by_cases hpending' : led'.pending = 0
    · have hstep : step = (some (o.segment.archiveAll led'.completed),
          { led' with parked := none, completed := [] }) := by
        show ((t.ledger n').handle id now (.finish time)).value = _
        rw [hvalue]
        simp only [Ledger.release, hsame, if_pos hpending']
      rw [hstep, afterHandle_of_finish l _ _ hmem]
      exact rests_of_released hlinked' hn hlt hstage hbegun hreports hstack hpending' hcustody'
    · have hstep : step = (none, led') := by
        show ((t.ledger n').handle id now (.finish time)).value = _
        rw [hvalue]
        simp only [Ledger.release, hsame, if_neg hpending']
      rw [hstep]
      exact rests_of_pending hlinked' hn hlt hstage hbegun hreports hstack hsame hpending'
        hcustody'

end Life

end TraceLink
