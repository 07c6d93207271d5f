import TraceLink.Proofs.CounterBalance
import TraceLink.Proofs.PrimarySpans

/-! # Aspects of segments

    An *aspect* is what is looked at of a segment, while it is open, and after it was
    parked or handed over. An aspect *evolves* by a relation if every step relates what it
    shows before to what it shows after, for the operations of the strand on the open
    segment, for the end of the segment, and for the operations of its handles.

    Then every step of an engine relates what the aspect shows of any segment, wherever the
    segment is: what happens elsewhere does not concern it. -/

namespace TraceLink

/-! ### Operations that hand nothing over -/

/-- Segments are handed over, and ledgers change, only when a span is stopped or
    prepared. -/
theorem Site.ledgers_step (s : Site) (now : UInt64) {op : StrandOp}
    (hstop : ∀ expected, op ≠ .stop expected) (hprepare : op ≠ .prepareAsync) :
    (s.step now op).value.handed = none ∧
      (s.step now op).value.state.tracer.ledgers = s.tracer.ledgers := by
  have heffect := s.effect_of_step now op
  generalize (s.step now op).value = outcome at heffect
  cases hop : op.opens? with
  | some kind =>
    obtain ⟨hhanded, -, hledgers, -⟩ := Life.opens_of_effect heffect hop
    exact ⟨hhanded, hledgers⟩
  | none =>
    cases heffect with
    | refused e hnone => exact ⟨rfl, rfl⟩
    | touched hnone hother hother' htouch =>
      exact ⟨rfl, congrArg Tracer.ledgers (outline?_touches htouch).1⟩
    | opened hkind =>
      rw [hkind] at hop
      contradiction
    | sent => contradiction
    | prepared => exact absurd rfl hprepare
    | stopped => exact absurd rfl (hstop _)
    | ended => exact absurd rfl (hstop _)

/-- Only an operation that opens a span begins a segment. -/
theorem Site.opens_of_idle {s : Site} {now : UInt64} {op : StrandOp} {o : OpenSegment}
    (hidle : s.strand.active = none)
    (hactive : (s.step now op).value.state.strand.active = some o) :
    ∃ kind, op.opens? = some kind := by
  by_contra hnone
  have hop : op.opens? = none :=
    Option.eq_none_iff_forall_ne_some.mpr fun kind hkind => hnone ⟨kind, hkind⟩
  rw [(Engine.idle_of_effect hidle hop (s.effect_of_step now op)).2.1] at hactive
  contradiction

namespace Engine

variable {capacity : Nat} {e e' : Engine} {now : UInt64} {op : Op} {ls : List Life} {l : Life}

/-- Ledgers change by what strands and handles do. -/
theorem ledgers_step (e : Engine) (now : UInt64) {op : Op} (hstrand : ∀ k sop, op ≠ .strand k sop)
    (hhandle : ∀ a hop, op ≠ .handle a hop) :
    (e.step now op).value.state.tracer.ledgers = e.tracer.ledgers := by
  cases op with
  | strand k sop => exact absurd rfl (hstrand k sop)
  | handle a hop => exact absurd rfl (hhandle a hop)
  | closeStrand k =>
    simp only [step, closeStrand]
    cases hsite : e.site? k with
    | none => rfl
    | some s =>
      rw [← tracer_of_site? hsite]
      exact s.leave_value.2
  | setSuffixes value =>
    obtain ⟨reply, suffixes, hvalue⟩ := e.setSuffixes_value now value
    rw [hvalue]
    rfl
  | _ => rfl

theorem ledger?_live_strand {k : Nat} (hstage : l.stage = .running k) (now : UInt64)
    {sop : StrandOp} (hprepare : sop ≠ .prepareAsync) :
    (e.live now (.strand k sop) l).ledger? = l.ledger? := by
  rw [live_strand, if_pos hstage]
  show Life.ledger? (Life.afterStrandOp _ _ _ _ _) = _
  unfold Life.afterStrandOp
  split
  · rfl
  · exact absurd rfl hprepare
  · split
    · rfl
    · rfl

/-- A segment ends only when a span is stopped. -/
theorem stage_live_strand {k : Nat} (hstage : l.stage = .running k) (now : UInt64)
    {sop : StrandOp} (hstop : ∀ expected, sop ≠ .stop expected) :
    (e.live now (.strand k sop) l).stage = l.stage := by
  rw [live_strand, if_pos hstage]
  show Life.stage (Life.afterStrandOp _ _ _ _ _) = _
  unfold Life.afterStrandOp
  split
  · exact absurd rfl (hstop _)
  · rfl
  · split
    · rfl
    · rfl

/-- Only a stop can leave the stack empty. -/
theorem exists_stop_of_emptied {k : Nat} (hstage : l.stage = .running k) {sop : StrandOp}
    {sampled : Bool} (hemptied : (e.live now (.strand k sop) l).stage = .emptied sampled) :
    ∃ expected, sop = .stop expected := by
  by_contra hstop
  rw [stage_live_strand hstage now fun expected heq => hstop ⟨expected, heq⟩, hstage] at hemptied
  contradiction

theorem mem_reports_afterHandle {a : AsyncHandle} {hop : HandleOp} {due : Option Segment}
    {g : Segment} (h : g ∈ (l.afterHandle a hop due).reports) : g ∈ l.reports ∨ due = some g := by
  unfold Life.afterHandle at h
  split at h
  · split at h
    · rcases List.mem_append.mp h with hold | hnew
      · exact .inl hold
      · exact .inr (Option.mem_toList.mp hnew)
    · exact .inl h
  · exact .inl h

/-- What happens on other strands does not concern the ledger of a life. -/
theorem Tells.ledgerOf_other (h : e.Tells capacity ls) (hl : l ∈ ls) {k : Nat}
    (hstage : l.stage ≠ .running k) (now : UInt64) (sop : StrandOp) :
    (e.step now (.strand k sop)).value.state.tracer.ledgerOf l.ledger? =
      e.tracer.ledgerOf l.ledger? := by
  cases hsite : e.site? k with
  | none =>
    simp only [Engine.step, hsite, Logged.pure_value]
    rfl
  | some s =>
    cases hactive : s.strand.active with
    | none =>
      rw [step_strand hsite, ← tracer_of_site? hsite]
      cases hop : sop.opens? with
      | none =>
        exact congrArg (Tracer.ledgerOf · _)
          (idle_of_effect hactive hop (s.effect_of_step now sop)).2.2
      | some kind =>
        exact Tracer.ledgerOf_congr
          (Life.opens_of_effect (s.effect_of_step now sop) hop).2.2.1 _
    | some o =>
      obtain ⟨l₁, hl₁, hstage₁⟩ := h.told k o ((open?_of_site? hsite).trans hactive)
      obtain ⟨x, hruns, -⟩ := h.runs hl₁ hstage₁ hsite
      obtain ⟨hmoves, -⟩ := h.step_running hl₁ hsite hstage₁ hruns now sop
      have hapart : l₁.Apart l := by
        obtain ⟨ls₁, ls₂, rfl, hothers⟩ := h.split hl₁
        refine hothers l ?_
        simp only [List.mem_append, List.mem_cons] at hl ⊢
        rcases hl with hl | rfl | hl
        · exact .inl hl
        · exact absurd hstage₁ hstage
        · exact .inr hl
      cases hn : l.ledger? with
      | none => rfl
      | some n =>
        -- the ledger of the other segment is its old one, or it is new
        refine hmoves.spares.ledger n fun hn₁ => ?_
        rcases hmoves.fresh n hn₁ with hold | hnew
        · exact hapart.ledger n hold hn
        · have hlt := (h.grounded l hl).bound n hn
          omega

end Engine

/-! ### Aspects -/

/-- **Aspect** of a segment: what is looked at while it is open, and when it is not open any
    more, each with its ledger. -/
structure Aspect (α : Type) where
  running : OpenSegment → Ledger → α
  ended : Segment → Ledger → α
  /-- What is shown of a segment that is about to begin. -/
  first : Site → UInt64 → α

variable {α ρ : Type}

/-- **Evolution** of an aspect by a relation. Each operation of the strand *brings*
    something to the segment, from outside, that the relation tells of. -/
structure Aspect.Evolves (v : Aspect α) (brings : Site → StrandOp → List ρ)
    (R : List ρ → α → α → Prop) : Prop where
  refl : ∀ a, R [] a a
  /-- A segment begins. -/
  begun : ∀ (s : Site) (now : UInt64) (op : StrandOp) (o : OpenSegment),
    s.strand.active = none → (∀ expected, op ≠ .stop expected) → op ≠ .prepareAsync →
    (s.step now op).value.state.strand.active = some o →
    R (brings s op) (v.first s now) (v.running o {})
  /-- The segment is open before the operation and after it. -/
  stepped : ∀ (s : Site) (now : UInt64) (op : StrandOp) (o o' : OpenSegment) (led : Ledger),
    s.strand.active = some o → o.stack ≠ [] → (∀ expected, op ≠ .stop expected) →
    op ≠ .prepareAsync → (s.step now op).value.state.strand.active = some o' →
    R (brings s op) (v.running o led) (v.running o' led)
  prepared : ∀ (s : Site) (now : UInt64) (o o' : OpenSegment), s.strand.active = some o →
    (∀ n, o.ledger = some n → n < s.tracer.ledgers.length) →
    (s.step now .prepareAsync).value.state.strand.active = some o' →
    R (brings s .prepareAsync) (v.running o (s.tracer.ledgerOf o.ledger))
      (v.running o' ((s.step now .prepareAsync).value.state.tracer.ledgerOf o'.ledger))
  /-- A span is stopped, and the segment stays open, or is handed over, or is parked. -/
  stopped : ∀ (s : Site) (now : UInt64) (expected : Option Int) (o : OpenSegment),
    s.strand.active = some o → (∀ n, o.ledger = some n → n < s.tracer.ledgers.length) →
    (s.tracer.ledgerOf o.ledger).parked = none →
    let before := v.running o (s.tracer.ledgerOf o.ledger)
    let outcome := (s.step now (.stop expected)).value
    let led := outcome.state.tracer.ledgerOf o.ledger
    (∀ o', outcome.state.strand.active = some o' →
      R (brings s (.stop expected)) before (v.running o' led)) ∧
    (outcome.state.strand.active = none →
      (∀ g, outcome.handed = some g → R (brings s (.stop expected)) before (v.ended g {})) ∧
      ∀ g, led.parked = some g → R (brings s (.stop expected)) before (v.ended g led))
  /-- A handle does something, and the segment stays where it is, or is handed over. -/
  handled : ∀ (led : Ledger) (id : Nat) (now : UInt64) (op : HandleOp),
    let after := (led.handle id now op).value
    (led.parked = none → ∀ o, R [] (v.running o led) (v.running o after.2)) ∧
    (∀ g, after.2.parked = some g →
      led.parked = some g ∧ R [] (v.ended g led) (v.ended g after.2)) ∧
    ∀ g, after.1 = some g → ∃ g', led.parked = some g' ∧ R [] (v.ended g' led) (v.ended g {})

/-- **When a span is prepared**, it is enough to look at a preparation that succeeds. -/
theorem Aspect.prepared_of_ok {v : Aspect α} {R : α → α → Prop} (hrefl : ∀ a, R a a)
    (hprepared : ∀ {o o' : OpenSegment} {t t' : Tracer} {a : AsyncHandle},
      o.prepareAsync t = .ok (a, o', t') → (∀ n, o.ledger = some n → n < t.ledgers.length) →
      R (v.running o (t.ledgerOf o.ledger)) (v.running o' (t'.ledgerOf o'.ledger)))
    (s : Site) (now : UInt64) (o o' : OpenSegment) (hactive : s.strand.active = some o)
    (hbound : ∀ n, o.ledger = some n → n < s.tracer.ledgers.length)
    (hafter : (s.step now .prepareAsync).value.state.strand.active = some o') :
    R (v.running o (s.tracer.ledgerOf o.ledger))
      (v.running o' ((s.step now .prepareAsync).value.state.tracer.ledgerOf o'.ledger)) := by
  have heffect := s.effect_of_step now .prepareAsync
  generalize (s.step now .prepareAsync).value = outcome at heffect hafter
  cases heffect with
  | refused e hop =>
    obtain rfl := Option.some.inj (hactive.symm.trans hafter)
    exact hrefl _
  | touched hop hstop hprepare => exact absurd rfl hprepare
  | opened hop => contradiction
  | prepared hactive' hprepare =>
    obtain rfl := Option.some.inj (hactive.symm.trans hactive')
    obtain rfl := Option.some.inj hafter
    exact hprepared hprepare hbound

/-- **When a span is stopped**, it is enough to look at the span, which leaves the stack, and
    at the segment, if it ends. -/
theorem Aspect.stopped_of_retired {v : Aspect α} {R : α → α → Prop} (hrefl : ∀ a, R a a)
    (htrans : ∀ {a b c}, R a b → R b c → R a c)
    (hretired : ∀ {o o' : OpenSegment} {t t' : Tracer} {f : Frame} {rest : List Frame}
      {now : UInt64}, OpenSegment.Retired { o with stack := rest } t now f o' t' →
      o.stack = f :: rest → (∀ n, o.ledger = some n → n < t.ledgers.length) →
      R (v.running o (t.ledgerOf o.ledger)) (v.running o' (t'.ledgerOf o.ledger)))
    (hended : ∀ {o : OpenSegment} {t t' : Tracer} {due : Option Segment},
      OpenSegment.Ending o t due t' → o.stack = [] → (t.ledgerOf o.ledger).parked = none →
      (∀ g, due = some g → R (v.running o (t.ledgerOf o.ledger)) (v.ended g {})) ∧
      ∀ g, (t'.ledgerOf o.ledger).parked = some g →
        R (v.running o (t.ledgerOf o.ledger)) (v.ended g (t'.ledgerOf o.ledger)))
    (s : Site) (now : UInt64) (expected : Option Int) (o : OpenSegment)
    (hactive : s.strand.active = some o)
    (hbound : ∀ n, o.ledger = some n → n < s.tracer.ledgers.length)
    (hparked : (s.tracer.ledgerOf o.ledger).parked = none) :
    let before := v.running o (s.tracer.ledgerOf o.ledger)
    let outcome := (s.step now (.stop expected)).value
    let led := outcome.state.tracer.ledgerOf o.ledger
    (∀ o', outcome.state.strand.active = some o' → R before (v.running o' led)) ∧
    (outcome.state.strand.active = none →
      (∀ g, outcome.handed = some g → R before (v.ended g {})) ∧
      ∀ g, led.parked = some g → R before (v.ended g led)) := by
  intro before outcome
  have heffect : Site.Effect now s (.stop expected) outcome := s.effect_of_step now (.stop expected)
  generalize outcome = outcome at heffect
  intro led
  cases heffect with
  | refused e hop =>
    constructor
    · intro o' hafter
      obtain rfl := Option.some.inj (hactive.symm.trans hafter)
      exact hrefl _
    · intro hnone
      rw [hactive] at hnone
      contradiction
  | touched hop hstop => exact absurd rfl (hstop _)
  | opened hop => contradiction
  | stopped hactive' hpop hretire hopen =>
    next o₀ o₁ o' f t =>
    obtain rfl := Option.some.inj (hactive.symm.trans hactive')
    obtain ⟨rest, hstack, rfl, -⟩ := OpenSegment.pop_eq_ok hpop
    have hgone := OpenSegment.retired_retire { o with stack := rest } s.tracer f now
    rw [hretire] at hgone
    constructor
    · intro o'' hafter
      obtain rfl := Option.some.inj hafter
      exact hretired hgone hstack hbound
    · intro hnone
      contradiction
  | ended hactive' hpop hretire hlast hfinish =>
    next o₀ o₁ o' f t t' due =>
    obtain rfl := Option.some.inj (hactive.symm.trans hactive')
    obtain ⟨rest, hstack, rfl, -⟩ := OpenSegment.pop_eq_ok hpop
    have hgone := OpenSegment.retired_retire { o with stack := rest } s.tracer f now
    rw [hretire] at hgone
    have hbefore := hretired hgone hstack hbound
    obtain ⟨⟨spans, hout⟩, hspares, hparked'⟩ := hgone.spares
    -- the segment that ends has the ledger of the open one
    have hledger : o'.ledger = o.ledger := congrArg Outline.ledger hout
    have hending := o'.ending_finish (t := t) fun n hn =>
      Nat.lt_of_lt_of_le (hbound n (hledger.symm.trans hn)) hspares.length
    rw [hfinish] at hending
    obtain ⟨hhanded, hleft⟩ := hended hending hlast (by
      rw [hledger]
      exact hparked'.trans hparked)
    rw [hledger] at hhanded hleft
    have hled : led = t'.ledgerOf o.ledger :=
      Tracer.ledgerOf_congr (t'.reportDue_value due).2 o.ledger
    constructor
    · intro o'' hafter
      contradiction
    · intro _
      rw [hled]
      exact ⟨fun g hg => htrans hbefore (hhanded g hg), fun g hg => htrans hbefore (hleft g hg)⟩

/-- A segment that stays open. Only when a span is prepared may it get a ledger. -/
theorem Aspect.Evolves.open_step {v : Aspect α} {b : Site → StrandOp → List ρ}
    {R : List ρ → α → α → Prop} (hv : v.Evolves b R) {s : Site} {now : UInt64} {sop : StrandOp}
    {o o' : OpenSegment}
    (hactive : s.strand.active = some o) (hstack : o.stack ≠ [])
    (hbound : ∀ n, o.ledger = some n → n < s.tracer.ledgers.length)
    (hparked : (s.tracer.ledgerOf o.ledger).parked = none)
    (hafter : (s.step now sop).value.state.strand.active = some o')
    (hkept : sop ≠ .prepareAsync → o'.ledger = o.ledger) :
    R (b s sop) (v.running o (s.tracer.ledgerOf o.ledger))
      (v.running o' ((s.step now sop).value.state.tracer.ledgerOf o'.ledger)) := by
  by_cases hprepare : sop = .prepareAsync
  · subst hprepare
    exact hv.prepared s now o o' hactive hbound hafter
  rw [hkept hprepare]
  by_cases hstop : ∃ expected, sop = .stop expected
  · obtain ⟨expected, rfl⟩ := hstop
    exact (hv.stopped s now expected o hactive hbound hparked).1 o' hafter
  · have hstop : ∀ expected, sop ≠ .stop expected := fun expected heq => hstop ⟨expected, heq⟩
    rw [Tracer.ledgerOf_congr (s.ledgers_step now hstop hprepare).2]
    exact hv.stepped s now sop o o' _ hactive hstack hstop hprepare hafter

namespace Engine

/-- **Showing**: what an aspect shows of the segment of a life that the engine has. The
    segment is open on its strand, parked in its ledger, or was handed over. -/
inductive Shows (e : Engine) (v : Aspect α) (l : Life) : α → Prop where
  | running {k : Nat} {o : OpenSegment} (hstage : l.stage = .running k)
      (hopen : e.open? k = some o) : Shows e v l (v.running o (e.tracer.ledgerOf l.ledger?))
  | parked {g : Segment} (hparked : (e.tracer.ledgerOf l.ledger?).parked = some g) :
      Shows e v l (v.ended g (e.tracer.ledgerOf l.ledger?))
  | handed {g : Segment} (hreport : g ∈ l.reports) : Shows e v l (v.ended g {})

/-- What an operation brings to the segment of a life. -/
def brings (e : Engine) (brings : Site → StrandOp → List ρ) (op : Op) (l : Life) : List ρ :=
  match op with
  | .strand k sop =>
    if l.stage = .running k then ((e.site? k).map (brings · sop)).getD [] else []
  | _ => []

variable {capacity : Nat} {e e' : Engine} {now : UInt64} {op : Op} {ls : List Life} {l : Life}
  {v : Aspect α} {a a' : α} {b : Site → StrandOp → List ρ} {R : List ρ → α → α → Prop}

/-- What is shown of a segment depends on its strand and its ledger only. -/
theorem Shows.frame (h : e'.Shows v l a)
    (hopen : ∀ k, l.stage = .running k → e'.open? k = e.open? k)
    (hledger : e'.tracer.ledgerOf l.ledger? = e.tracer.ledgerOf l.ledger?) : e.Shows v l a := by
  cases h with
  | running hstage ho =>
    rw [hledger]
    exact .running hstage ((hopen _ hstage).symm.trans ho)
  | parked hparked =>
    rw [hledger] at hparked ⊢
    exact .parked hparked
  | handed hreport => exact .handed hreport

/-- Of a running life the open segment is shown. -/
theorem Shows.of_runs (h : e.Shows v l a) {k : Nat} {s : Site} {x : Outline}
    (hstage : l.stage = .running k) (hsite : e.site? k = some s) (hruns : l.Runs capacity s x) :
    ∃ o, s.strand.active = some o ∧ o.ledger = l.ledger? ∧
      a = v.running o (s.tracer.ledgerOf o.ledger) := by
  rw [tracer_of_site? hsite]
  cases h with
  | running hstage' hopen =>
    next k' o =>
    obtain rfl := Stage.running.inj (hstage.symm.trans hstage')
    have hactive := (open?_of_site? hsite).symm.trans hopen
    have hledger := hruns.ledger_eq hactive
    exact ⟨o, hactive, hledger, by rw [hledger]⟩
  | parked hparked =>
    rw [← tracer_of_site? hsite, hruns.parked] at hparked
    contradiction
  | handed hreport =>
    rw [hruns.reports] at hreport
    contradiction

/-- A life at rest is shown only if its segment was sampled when it ended. -/
theorem Shows.of_rests (h : e.Shows v l a) (hrests : l.Rests capacity e.tracer) :
    l.stage = .emptied true := by
  cases hrests with
  | waiting hstage => exact hstage
  | reported hdue => exact hdue.1
  | gone hstage hreports hparked =>
    cases h with
    | running hrunning =>
      rw [hrunning] at hstage
      simp at hstage
    | parked hsome =>
      rw [hparked] at hsome
      contradiction
    | handed hreport =>
      rw [hreports] at hreport
      contradiction

/-- A segment is in one place only. -/
theorem Tells.shows_unique (h : e.Tells capacity ls) (hl : l ∈ ls) (ha : e.Shows v l a)
    (ha' : e.Shows v l a') : a' = a := by
  cases h.status l hl with
  | running hstage hsite hruns =>
    obtain ⟨o, hactive, -, rfl⟩ := ha.of_runs hstage hsite hruns
    obtain ⟨o', hactive', -, rfl⟩ := ha'.of_runs hstage hsite hruns
    rw [Option.some.inj (hactive.symm.trans hactive')]
  | resting hrests =>
    have hstage (k : Nat) : l.stage ≠ .running k := hrests.stage_ne k
    have hemptied := ha.of_rests hrests
    cases hrests with
    | gone hended =>
      rw [hemptied] at hended
      simp at hended
    | waiting _ _ _ _ hreports =>
      cases ha with
      | running hrunning => exact absurd hrunning (hstage _)
      | handed hreport =>
        rw [hreports] at hreport
        contradiction
      | parked hparked =>
        cases ha' with
        | running hrunning => exact absurd hrunning (hstage _)
        | handed hreport =>
          rw [hreports] at hreport
          contradiction
        | parked hparked' => rw [Option.some.inj (hparked.symm.trans hparked')]
    | reported _ hreports _ _ hnone =>
      cases ha with
      | running hrunning => exact absurd hrunning (hstage _)
      | parked hparked =>
        rw [hnone] at hparked
        contradiction
      | handed hreport =>
        cases ha' with
        | running hrunning => exact absurd hrunning (hstage _)
        | parked hparked =>
          rw [hnone] at hparked
          contradiction
        | handed hreport' =>
          rw [hreports] at hreport hreport'
          rw [List.mem_singleton.mp hreport, List.mem_singleton.mp hreport']

/-! ### Steps of its own strand -/

theorem Tells.shows_own (h : e.Tells capacity ls) (hv : v.Evolves b R) (hl : l ∈ ls) {k : Nat}
    (hstage : l.stage = .running k) {s : Site} (hsite : e.site? k = some s) {sop : StrandOp}
    (hshows : (e.step now (.strand k sop)).value.state.Shows v (e.live now (.strand k sop) l) a') :
    ∃ a, e.Shows v l a ∧ R (b s sop) a a' := by
  obtain ⟨x, hruns, hgrounded⟩ := h.runs hl hstage hsite
  obtain ⟨o, hactive, hout⟩ := Option.map_eq_some_iff.mp hruns.outline
  have hledger := hruns.ledger_eq hactive
  have hbound : ∀ n, o.ledger = some n → n < s.tracer.ledgers.length :=
    fun n hn => hgrounded.bound n (hledger.symm.trans hn)
  have hparked : (s.tracer.ledgerOf o.ledger).parked = none := hledger ▸ hruns.parked
  have hbefore : e.Shows v l (v.running o (s.tracer.ledgerOf o.ledger)) := by
    rw [hledger, tracer_of_site? hsite]
    exact .running hstage ((open?_of_site? hsite).trans hactive)
  refine ⟨_, hbefore, ?_⟩
  have hstate := site?_step_strand hsite now sop
  obtain ⟨-, ⟨hsame, s', x', hsite', hruns', -⟩ | ⟨hemptied, hnone, -⟩⟩ :=
    h.step_running hl hsite hstage hruns now sop
  -- the segment is still open
  · obtain ⟨o', hactive', hledger', rfl⟩ := hshows.of_runs (hsame.trans hstage) hsite' hruns'
    obtain rfl := Option.some.inj (hstate.symm.trans hsite')
    refine hv.open_step hactive (fun hnil => hruns.frames ?_) hbound hparked hactive'
      fun hprepare => ?_
    · rw [← hout]
      exact List.map_eq_nil_iff.mpr hnil
    · exact hledger'.trans ((ledger?_live_strand hstage now hprepare).trans hledger.symm)
  -- the segment has ended
  · obtain ⟨expected, rfl⟩ := exists_stop_of_emptied hstage hemptied
    have hidle : (s.step now (.stop expected)).value.state.strand.active = none :=
      (open?_of_site? hstate).symm.trans hnone
    obtain ⟨hhanded, hleft⟩ := (hv.stopped s now expected o hactive hbound hparked).2 hidle
    have hkept : (e.live now (.strand k (.stop expected)) l).ledger? = o.ledger :=
      (ledger?_live_strand hstage now (by simp)).trans hledger.symm
    cases hshows with
    | running hrunning =>
      rw [hemptied] at hrunning
      contradiction
    | parked hsome =>
      rw [hkept, ← tracer_of_site? hstate] at hsome ⊢
      exact hleft _ hsome
    | handed hreport =>
      rw [reports_live_strand hstage hsite, hruns.reports, List.nil_append,
        Option.mem_toList] at hreport
      exact hhanded _ hreport

/-! ### Steps of its handles -/

/-- What a handle leaves in the ledger of its life. -/
theorem Tells.ledgerOf_handle (h : e.Tells capacity ls) (hl : l ∈ ls) {n : Nat}
    (hn : l.ledger? = some n) (now : UInt64) (id : Nat) (hop : HandleOp) :
    (e.step now (.handle (.span n id) hop)).value.state.tracer.ledgerOf l.ledger? =
      ((e.tracer.ledger n).handle id now hop).value.2 := by
  rw [step_handle, Tracer.ledgerOf_congr (Tracer.reportDue_value _ _).2, hn]
  exact Tracer.ledger_setLedger_self ((h.grounded l hl).bound n hn) _

theorem Tells.shows_handle (h : e.Tells capacity ls) (hv : v.Evolves b R) (hl : l ∈ ls) {n id : Nat}
    {hop : HandleOp} (hn : l.ledger? = some n)
    (hshows : (e.step now (.handle (.span n id) hop)).value.state.Shows v
      (e.live now (.handle (.span n id) hop) l) a') :
    ∃ a, e.Shows v l a ∧ R [] a a' := by
  obtain ⟨hrunning, hparked, hhanded⟩ := hv.handled (e.tracer.ledger n) id now hop
  have hof := h.ledgerOf_handle hl hn now id hop
  rw [← Life.ledger?_afterHandle l (.span n id) hop ((e.tracer.ledger n).handle id now hop).value.1,
    step_handle] at hof
  rw [live_handle_span, step_handle] at hshows
  generalize ((e.tracer.ledger n).handle id now hop).value = after
    at hrunning hparked hhanded hshows hof
  have hbefore : e.tracer.ledgerOf l.ledger? = e.tracer.ledger n := by
    rw [hn]
    rfl
  cases hshows with
  | running hstage hopen =>
    next k o =>
    rw [Life.stage_afterHandle] at hstage
    have hopen : e.open? k = some o := hopen
    obtain ⟨s, hsite, -⟩ := site?_of_open? hopen
    obtain ⟨x, hruns, -⟩ := h.runs hl hstage hsite
    have hidle : (e.tracer.ledger n).parked = none := by
      rw [← hbefore, ← tracer_of_site? hsite]
      exact hruns.parked
    refine ⟨_, .running hstage hopen, ?_⟩
    rw [hof, hbefore]
    exact hrunning hidle o
  | parked hsome =>
    next g =>
    rw [hof] at hsome ⊢
    obtain ⟨hsame, hended⟩ := hparked g hsome
    refine ⟨_, .parked (hbefore ▸ hsame), ?_⟩
    rw [hbefore]
    exact hended
  | handed hreport =>
    next g =>
    rcases mem_reports_afterHandle hreport with hold | hdue
    · exact ⟨_, .handed hold, hv.refl _⟩
    -- the segment was parked, and goes with the spans that waited for it
    · obtain ⟨g', hsome, hended⟩ := hhanded g hdue
      refine ⟨_, .parked (hbefore ▸ hsome), ?_⟩
      rw [hbefore]
      exact hended

/-! ### Every step -/

/-- **Concern**: what a step has to do with a life. It is a step of the strand of its
    segment, or that strand goes away, or a handle of its ledger does something. Any other
    step leaves the life, its open segment and its ledger as they are. -/
inductive Concern (e : Engine) (now : UInt64) (l : Life) : Op → Prop where
  | strand {k : Nat} {s : Site} {sop : StrandOp} (hstage : l.stage = .running k)
      (hsite : e.site? k = some s) : Concern e now l (.strand k sop)
  | left {k : Nat} {s : Site} (hstage : l.stage = .running k) (hsite : e.site? k = some s)
      (hledgers : (e.step now (.closeStrand k)).value.state.tracer.ledgers = e.tracer.ledgers) :
      Concern e now l (.closeStrand k)
  | handle {n id : Nat} {hop : HandleOp} (hn : l.ledger? = some n) :
      Concern e now l (.handle (.span n id) hop)
  | other {op : Op} (hlive : e.live now op l = l)
      (hstrand : ∀ k sop, op = .strand k sop → l.stage ≠ .running k)
      (hhandle : ∀ a hop, op = .handle a hop → a ∉ l.handles)
      (hopen : ∀ k, l.stage = .running k → (e.step now op).value.state.open? k = e.open? k)
      (hledger : (e.step now op).value.state.tracer.ledgerOf l.ledger? =
        e.tracer.ledgerOf l.ledger?) : Concern e now l op

/-- Every step is of one of these kinds for every life. -/
theorem Tells.concern (h : e.Tells capacity ls) (hl : l ∈ ls) (now : UInt64) (op : Op) :
    e.Concern now l op := by
  cases op with
  | strand k sop =>
    by_cases hstage : l.stage = .running k
    · cases h.status l hl with
      | resting hrests => exact absurd hstage (hrests.stage_ne k)
      | running hstage' hsite hruns =>
        obtain rfl := Stage.running.inj (hstage.symm.trans hstage')
        exact .strand hstage hsite
    · refine .other (live_of_ne hstage) (fun k' sop' heq => ?_) (by simp) (fun k' hk' => ?_)
        (h.ledgerOf_other hl hstage now sop)
      · obtain ⟨rfl, -⟩ := Op.strand.inj heq
        exact hstage
      · refine open?_step e now (fun sop' heq => ?_) (by simp)
        obtain ⟨rfl, -⟩ := Op.strand.inj heq
        exact hstage hk'
  | closeStrand k =>
    have hledgers : (e.step now (.closeStrand k)).value.state.tracer.ledgers = e.tracer.ledgers :=
      e.ledgers_step now (by simp) (by simp)
    by_cases hstage : l.stage = .running k
    · cases h.status l hl with
      | resting hrests => exact absurd hstage (hrests.stage_ne k)
      | running hstage' hsite hruns =>
        obtain rfl := Stage.running.inj (hstage.symm.trans hstage')
        exact .left hstage hsite hledgers
    · refine .other (if_neg hstage) (by simp) (by simp) (fun k' hk' => ?_)
        (Tracer.ledgerOf_congr hledgers _)
      refine open?_step e now (by simp) fun heq => ?_
      exact hstage (Op.closeStrand.inj heq ▸ hk')
  | handle a hop =>
    have hopen (k : Nat) : (e.step now (.handle a hop)).value.state.open? k = e.open? k :=
      open?_step e now (by simp) (by simp)
    have hlinked := (h.grounded l hl).linked
    -- a handle that is not one of the life leaves the life, and finds another ledger
    have hother (hnot : a ∉ l.handles)
        (hledger : (e.step now (.handle a hop)).value.state.tracer.ledgerOf l.ledger? =
          e.tracer.ledgerOf l.ledger?) : e.Concern now l (.handle a hop) := by
      refine .other (afterHandle_of_not_mem hnot hop _) (by simp) (fun a' hop' heq => ?_)
        (fun k _ => hopen k) hledger
      obtain ⟨rfl, -⟩ := Op.handle.inj heq
      exact hnot
    cases a with
    | idle =>
      refine hother (fun hmem => ?_) rfl
      obtain ⟨n, id, heq, -⟩ := hlinked.handles _ hmem
      contradiction
    | span n id =>
      by_cases hn : l.ledger? = some n
      · exact .handle hn
      · refine hother (not_mem_handles hlinked hn id) ?_
        rw [step_handle]
        cases hm : l.ledger? with
        | none => rfl
        | some m => exact (spares_reportDue _ n _ _).ledger m fun heq => hn (hm.trans heq.symm)
  | _ =>
    refine .other rfl (by simp) (by simp) (fun k hk => open?_step e now (by simp) (by simp)) ?_
    exact Tracer.ledgerOf_congr (e.ledgers_step now (by simp) (by simp)) _

/-- **Every step** relates what the aspect shows of a segment, with what the step brings
    to it. -/
theorem Tells.shows_step (h : e.Tells capacity ls) (hv : v.Evolves b R) (hl : l ∈ ls)
    (hshows : (e.step now op).value.state.Shows v (e.live now op l) a') :
    ∃ a, e.Shows v l a ∧ R (e.brings b op l) a a' := by
  cases h.concern hl now op with
  | strand hstage hsite =>
    rw [brings, if_pos hstage, hsite]
    exact h.shows_own hv hl hstage hsite hshows
  | left hstage hsite hledgers =>
    -- a segment that is lost is nowhere
    obtain ⟨x, hruns, -⟩ := h.runs hl hstage hsite
    rw [live_closeStrand, if_pos hstage] at hshows
    have hlost := hshows.of_rests (hruns.left (tracer_of_site? hsite ▸ hledgers))
    contradiction
  | handle hn => exact h.shows_handle hv hl hn hshows
  | other hlive hstrand hhandle hopen hledger =>
    have hbrings : e.brings b op l = [] := by
      unfold brings
      split
      · next k sop => exact if_neg (hstrand k sop rfl)
      · rfl
    rw [hlive] at hshows
    rw [hbrings]
    exact ⟨a', hshows.frame hopen hledger, hv.refl a'⟩

/-- A segment begins with what is shown first, and with what the first step brings. -/
theorem Tells.shows_begun (h : e.Tells capacity ls) (hv : v.Evolves b R)
    (hbegun : e.begun now op = some l)
    (hshows : (e.step now op).value.state.Shows v (e.live now op l) a') :
    ∃ k sop s, op = .strand k sop ∧ e.site? k = some s ∧
      R (e.brings b op l) (v.first s now) a' := by
  have hmem : e.live now op l ∈ e.chronicle now op ls :=
    List.mem_map_of_mem (List.mem_append_right _ (Option.mem_toList.mpr hbegun))
  obtain ⟨k, sop, s, id, rfl, hsite, hidle, rfl⟩ := begun_eq_some hbegun
  cases (h.step now (.strand k sop)).1.status _ hmem with
  | resting hrests => exact absurd (hshows.of_rests hrests) (stage_live_begun hbegun)
  | running hstage hsite' hruns =>
    next k' s' x =>
    obtain ⟨o, hactive, hledger, rfl⟩ := hshows.of_runs hstage hsite' hruns
    obtain rfl := Stage.running.inj (stage_of_live hstage)
    obtain rfl : (s.step now sop).value.state = s' := by
      rw [site?_step_strand hsite] at hsite'
      exact Option.some.inj hsite'
    obtain ⟨kind, hop⟩ := s.opens_of_idle hidle hactive
    have hprepare : sop ≠ .prepareAsync := by
      rintro rfl
      contradiction
    have hstop : ∀ expected, sop ≠ .stop expected := by
      rintro expected rfl
      contradiction
    have hnone : o.ledger = none := hledger.trans (ledger?_live_strand rfl now hprepare)
    refine ⟨_, _, s, rfl, hsite, ?_⟩
    rw [hnone, brings, if_pos rfl, hsite]
    exact hv.begun s now sop o hidle hstop hprepare hactive

end Engine

end TraceLink
