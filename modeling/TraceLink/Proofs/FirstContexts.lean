import TraceLink.Proofs.Descents
import TraceLink.Proofs.OutboundCarriers

/-! # The first context wins

    Contexts from outside come to a segment in four ways, in any order, and any number of
    times. The first one gives the segment its parent and its trace, for good. Until then
    the segment has the trace id that was generated for it, and none of its spans refers to
    a parent.

    What is sent from a segment, or captured of it, names the trace and the segment as they
    are at that moment. -/

namespace TraceLink

/-! ### What names a segment -/

/-- **Naming**: a carrier says that its trace is ignored, or it names the segment and the
    trace that it belongs to. -/
inductive Segment.NamedIn (g : Segment) : Carrier → Prop where
  | ignored (k : Carrier) : g.NamedIn (RemoteContext.injectIgnored k)
  | remote (c : RemoteContext) (k : Carrier) (htrace : c.trace = g.trace)
      (hsegment : c.segment = g.id) : g.NamedIn (c.inject k)

/-- The carrier or the snapshot in a reply, if it has one that is not ignored, names the
    open segment. -/
def Reply.Names (active : Option OpenSegment) : Reply → Prop
  | .snapshot (some (.sampled c)) =>
    ∃ o, active = some o ∧ c.trace = o.segment.trace ∧ c.segment = o.segment.id
  | .carrier k | .sent _ (some k) => ∃ o, active = some o ∧ o.segment.NamedIn k
  | _ => True

theorem Reply.IsSilent.names {r : Reply} (h : r.IsSilent) (active : Option OpenSegment) :
    r.Names active := by
  cases r with
  | sent f k => exact h.elim
  | carrier k => exact h.elim
  | snapshot captured => exact h.elim
  | _ => exact trivial

/-- What is sent from a segment names it. -/
theorem OpenSegment.Sent.namedIn {o : OpenSegment} {now : UInt64} {filled : Carrier}
    (h : o.Sent now filled) : o.segment.NamedIn filled := by
  cases h with
  | ignored k => exact .ignored k
  | recorded hx fresh peer k => exact .remote (o.remoteContext _ fresh peer now) k rfl rfl

namespace Site

theorem names_capture (s : Site) : (Reply.snapshot s.capture).Names s.strand.active := by
  unfold capture
  cases hactive : s.strand.active with
  | none => exact trivial
  | some o =>
    rw [Option.map_some, OpenSegment.capture]
    split
    · exact trivial
    · exact ⟨o, rfl, rfl, rfl⟩

/-- **What a step replies** names the segment that is open after it. -/
theorem names_step (s : Site) (now : UInt64) (op : StrandOp) :
    (s.step now op).value.reply.Names (s.step now op).value.state.strand.active := by
  have hsent (k : Carrier) (hfilled : (s.step now op).value.reply.filled? = some k) :
      ∃ o, (s.step now op).value.state.strand.active = some o ∧ o.segment.NamedIn k := by
    obtain ⟨o, hactive, hsent⟩ := sent_step hfilled
    exact ⟨o, hactive, hsent.namedIn⟩
  rcases s.isSilent_cases now op with hsilent | ⟨name, peer, k, rfl⟩ | ⟨k, rfl⟩ | rfl
  · exact hsilent.names _
  · show (Reply.sent (s.exit name peer k now).value.1 (s.exit name peer k now).value.2.1).Names _
    cases hfilled : (s.exit name peer k now).value.2.1 with
    | none => exact trivial
    | some filled => exact hsent filled hfilled
  · cases hinject : s.inject k now with
    | error e =>
      simp only [step, hinject]
      exact trivial
    | ok filled =>
      have hreply : (s.step now (.inject k)).value.reply = .carrier filled.value := by
        simp only [step, hinject]
        rfl
      rw [hreply]
      exact hsent filled.value (by rw [hreply]; rfl)
  · exact s.names_capture

end Site

/-! ### Where descents lead -/

theorem Kinship.Descends.continues {κ κ' : Kinship} {d d' : Descent}
    (h : κ.Descends d.own d.offers) (h' : κ'.Descends d'.own d'.offers)
    (hcontinues : d.Continues d') {ref : ParentRef} (hparent : κ.parent = some ref) :
    κ'.parent = some ref ∧ κ'.trace = ref.trace := by
  obtain ⟨more, hoffers⟩ := hcontinues.offers
  have hfirst : d'.offers.head? = some ref := by
    rw [← hoffers, List.head?_append, ← h.parent, hparent]
    rfl
  refine ⟨h'.parent.trans hfirst, h'.trace.trans ?_⟩
  rw [hfirst]
  rfl

namespace Engine

variable {capacity : Nat} {e : Engine} {ls : List Life}

theorem names_step (e : Engine) (now : UInt64) (k : Nat) (op : StrandOp) :
    (e.step now (.strand k op)).value.reply.Names
      ((e.step now (.strand k op)).value.state.open? k) := by
  cases hsite : e.site? k with
  | none =>
    simp only [step, hsite, Logged.pure_value]
    exact trivial
  | some s =>
    rw [reply_of_site hsite, open?_step_strand hsite]
    exact s.names_step now op

/-- **Covering**: each segment that is open, parked, or was handed over is that of a
    descent. -/
structure Covers (e : Engine) (ds : List Descent) (handed : List Segment) : Prop where
  opened : ∀ k o, e.open? k = some o → ∃ d ∈ ds, d.life.stage = .running k ∧
    e.Holds d.life (o.kinship (e.tracer.ledgerOf o.ledger))
  parked : ∀ n g, (e.tracer.ledger n).parked = some g → ∃ d ∈ ds, d.life.ledger? = some n ∧
    e.Holds d.life (g.kinship (e.tracer.ledger n))
  handed : ∀ g ∈ handed, ∃ d ∈ ds, d.life.segment = g.id ∧ e.Holds d.life (g.kinship {})

/-- Lives that tell of an engine tell of all segments that it holds. -/
theorem Tells.covers {ds : List Descent} (h : e.Tells capacity (ds.map Descent.life))
    {handed : List Segment}
    (hreports : ∀ g ∈ handed, ∃ l ∈ ds.map Descent.life, g ∈ l.reports) :
    e.Covers ds handed where
  opened := by
    intro k o hopen
    obtain ⟨l, hl, hstage⟩ := h.told k o hopen
    obtain ⟨d, hd, rfl⟩ := List.mem_map.mp hl
    refine ⟨d, hd, hstage, ?_⟩
    cases h.status _ hl with
    | resting hrests => exact absurd hstage (hrests.stage_ne k)
    | running hstage' hsite hruns =>
      obtain rfl := Stage.running.inj (hstage.symm.trans hstage')
      rw [hruns.ledger_eq ((open?_of_site? hsite).symm.trans hopen)]
      exact .running hstage hopen
  parked := by
    intro n g hparked
    obtain ⟨l, hl, -, hledger⟩ := h.of_parked (by rw [hparked]; rfl)
    obtain ⟨d, hd, rfl⟩ := List.mem_map.mp hl
    have hof : e.tracer.ledgerOf d.life.ledger? = e.tracer.ledger n := by
      rw [hledger]
      rfl
    refine ⟨d, hd, hledger, ?_⟩
    rw [← hof] at hparked ⊢
    exact .parked hparked
  handed := by
    intro g hg
    obtain ⟨l, hl, hreport⟩ := hreports g hg
    obtain ⟨d, hd, rfl⟩ := List.mem_map.mp hl
    obtain ⟨-, -, hid, -⟩ := (h.status _ hl).of_mem_reports hreport
    exact ⟨d, hd, hid.symm, .handed hreport⟩

/-- **The first context wins**, in every run: the kinship of every segment is as its descent
    tells. The first of the contexts that came to it is its parent and gives it its trace,
    for good, and what is sent from it or captured of it names this trace. -/
theorem first_context_wins (config : Config) (reporter : Reporter) (process : String)
    (start : UInt64) (ops : List (UInt64 × Op)) :
    let e₀ := ofTracer (.start config reporter process start)
    let e := e₀.run ops
    let ds := e₀.descents ops
    ds.map Descent.life = e₀.lives ops ∧ e.Covers ds (e₀.handed ops) ∧
    (∀ d ∈ ds, ∀ κ, e.Holds d.life κ → κ.Descends d.own d.offers) ∧
    (∀ (more : List (UInt64 × Op)) (i : Nat) (d : Descent), ds[i]? = some d →
      ∃ d', (e₀.descents (ops ++ more))[i]? = some d' ∧ d.Continues d' ∧
        ∀ κ κ' ref, e.Holds d.life κ → (e.run more).Holds d'.life κ' →
          κ.parent = some ref → κ'.parent = some ref ∧ κ'.trace = ref.trace) ∧
    ∀ now k op, (e.step now (.strand k op)).value.reply.Names
      ((e.step now (.strand k op)).value.state.open? k) := by
  intro e₀ e ds
  have hdescending := descending_descents config reporter process start
  have hlives : ds.map Descent.life = e₀.lives ops := e₀.map_life_descentsFrom [] ops
  have hreports := ((tells_start config reporter process start).run ops).2
  refine ⟨hlives, ?_, hdescending ops, fun more i d hd => ?_, e.names_step⟩
  · refine (tells_descents config reporter process start ops).covers fun g hg => ?_
    rw [show (e₀.descents ops).map Descent.life = e₀.lives ops from hlives]
    exact List.mem_flatMap.mp (hreports.mem_iff.mpr hg)
  · have hmore : e₀.descents (ops ++ more) = e.descentsFrom ds more :=
      e₀.descentsFrom_append [] ops more
    obtain ⟨d', hd', hcontinues⟩ := continues_descentsFrom (e := e) hd more
    refine ⟨d', hmore ▸ hd', hcontinues, fun κ κ' ref hholds hholds' hparent => ?_⟩
    have hafter := hdescending (ops ++ more) d' (hmore ▸ List.mem_of_getElem? hd') κ'
      (run_append e₀ ops more ▸ hholds')
    exact (hdescending ops d (List.mem_of_getElem? hd) κ hholds).continues hafter hcontinues hparent

/-- A segment that continues a snapshot, is called from another process, reads the context of
    a third, and ends. -/
def crossroads : List (UInt64 × Op) :=
  let other (trace : String) : Carrier := RemoteContext.inject
    ⟨trace, "s", 4, "app", "a-1", "/pay", "b:80", .empty .standard, .none⟩ (.empty "")
  [(1, .openStrand), (2, .strand 0 (.continued (.sampled
      ⟨"waiting", "s", 0, none, .empty .standard, .none⟩))),
    (3, .strand 0 (.entry "/cart" (some (other "caller")))),
    (4, .strand 0 (.extract (other "message"))), (5, .strand 0 (.stop none))]

/-- The snapshot came first, so the segment is reported in its trace. -/
example : ((ofTracer (.start (.standard "b-1") .collecting "p" 0)).descents crossroads).map
    (fun d => (d.own, d.offers.map (·.trace), d.life.reports.map (·.trace))) =
      [("p.0.30001", ["waiting", "caller", "message"], ["waiting"])] := by
  decide +kernel

end Engine

end TraceLink
