import TraceLink.Proofs.StockSteps

/-! # Closed spans

    A span that has its end time, whoever gave it, keeps all of its fields in every run,
    wherever it is and up to the report of its segment. What changes a closed span is a
    context that is read while the span is still on top of the stack, and then only the
    reference and the request to skip the analysis change. -/

namespace TraceLink

open Stock (Passes)

namespace Engine

/-! ### Lives along a run -/

/-- The life after a run, from the one before it. -/
def liveFrom (e : Engine) (l : Life) : List (UInt64 × Op) → Life
  | [] => l
  | (now, op) :: ops => (e.step now op).value.state.liveFrom (e.live now op l) ops

variable {capacity : Nat} {e : Engine} {ls : List Life} {l : Life} {i : Nat}

/-- A life keeps its place along a run. -/
theorem getElem?_livesFrom (h : ls[i]? = some l) (ops : List (UInt64 × Op)) :
    (e.livesFrom ls ops)[i]? = some (e.liveFrom l ops) := by
  induction ops generalizing e ls l with
  | nil => exact h
  | cons timed ops ih =>
    obtain ⟨now, op⟩ := timed
    exact ih (getElem?_chronicle h now op)

theorem openings_prefix_live (e : Engine) (now : UInt64) (op : Op) (l : Life) :
    l.openings <+: (e.live now op l).openings := by
  cases op with
  | strand k sop =>
    rw [live_strand]
    split
    · show _ <+: (Life.afterStrandOp _ _ _ _ _).openings
      unfold Life.afterStrandOp
      split
      · exact List.prefix_rfl
      · exact List.prefix_rfl
      · split
        · exact List.prefix_append _ _
        · exact List.prefix_rfl
    · exact List.prefix_rfl
  | closeStrand k =>
    rw [live_closeStrand]
    split
    · exact List.prefix_rfl
    · exact List.prefix_rfl
  | handle a hop =>
    have hsame : (e.live now (.handle a hop) l).openings = l.openings := by
      rw [live_handle, Life.openings_afterHandle]
    exact hsame ▸ List.prefix_rfl
  | _ => exact List.prefix_rfl

/-- A life keeps the openings and the reports that it tells of. -/
theorem prefix_liveFrom (e : Engine) (l : Life) (ops : List (UInt64 × Op)) :
    l.openings <+: (e.liveFrom l ops).openings ∧ l.reports <+: (e.liveFrom l ops).reports := by
  induction ops generalizing e l with
  | nil => exact ⟨List.prefix_rfl, List.prefix_rfl⟩
  | cons timed ops ih =>
    obtain ⟨now, op⟩ := timed
    obtain ⟨hopenings, hreports⟩ := ih (e.step now op).value.state (e.live now op l)
    have hstep : l.reports <+: (e.live now op l).reports := by
      rcases e.reports_live now op l with hsame | hmore
      · exact hsame ▸ List.prefix_rfl
      · exact hmore ▸ List.prefix_append _ _
    exact ⟨(e.openings_prefix_live now op l).trans hopenings, hstep.trans hreports⟩

/-! ### Stocks along a run -/

/-- The receipts of the spans of a segment in a run, in order. -/
def receiptsFrom (e : Engine) (l : Life) : List (UInt64 × Op) → List Receipt
  | [] => []
  | (now, op) :: ops =>
    e.brings Site.receipts op l ++ (e.step now op).value.state.receiptsFrom (e.live now op l) ops

/-- **Every run** passes the stock of a segment with its receipts. -/
theorem Tells.restocks_run (h : e.Tells capacity ls) (hl : ls[i]? = some l)
    {ops : List (UInt64 × Op)} {σ' : Stock}
    (hshows : (e.run ops).Shows Stock.aspect (e.liveFrom l ops) σ') :
    ∃ σ, e.Shows Stock.aspect l σ ∧ Passes (e.receiptsFrom l ops) σ σ' := by
  -- by induction on the run; the stock at its end is traced back step by step
  induction ops generalizing e ls l with
  | nil => exact ⟨σ', hshows, .refl σ'⟩
  | cons timed ops ih =>
    obtain ⟨now, op⟩ := timed
    obtain ⟨σ₁, hσ₁, hpasses⟩ := ih (h.step now op).1 (getElem?_chronicle hl now op) hshows
    obtain ⟨σ, hσ, hfirst⟩ := h.shows_step Stock.evolves_aspect (List.mem_of_getElem? hl) hσ₁
    exact ⟨σ, hσ, hfirst.trans hpasses⟩

/-- The stocks of all segments are sound. -/
def Stocked (e : Engine) (ls : List Life) : Prop :=
  ∀ l ∈ ls, ∀ σ, e.Shows Stock.aspect l σ → σ.Sound

theorem Tells.stocked_step (h : e.Tells capacity ls) (hstocked : e.Stocked ls) (now : UInt64)
    (op : Op) : (e.step now op).value.state.Stocked (e.chronicle now op ls) := by
  intro l' hl' σ' hσ'
  obtain ⟨l, hl, rfl⟩ := List.mem_map.mp hl'
  rcases List.mem_append.mp hl with hold | hnew
  · obtain ⟨σ, hσ, hpasses⟩ := h.shows_step Stock.evolves_aspect hold hσ'
    exact hpasses.sound (hstocked l hold σ hσ)
  · have hbegun := Option.mem_toList.mp hnew
    obtain ⟨k, sop, s, -, -, hpasses⟩ := h.shows_begun Stock.evolves_aspect hbegun hσ'
    refine hpasses.sound ⟨List.nodup_nil, fun n hn x hx => ?_⟩
    contradiction

theorem Tells.stocked_run (h : e.Tells capacity ls) (hstocked : e.Stocked ls)
    (ops : List (UInt64 × Op)) : (e.run ops).Stocked (e.livesFrom ls ops) := by
  induction ops generalizing e ls with
  | nil => exact hstocked
  | cons timed ops ih =>
    obtain ⟨now, op⟩ := timed
    exact ih (h.step now op).1 (h.stocked_step hstocked now op)

/-! ### Spans of a report -/

/-- The ids of the spans of a segment that can still be reported are those of its
    openings. -/
theorem Custody.id_lt {capacity : Nat} {o : OpenSegment} {led : Ledger} {l : Life}
    (h : Custody capacity o.outline led l) {x : Span} (hx : x ∈ (o.stock led).spans) :
    x.id < min l.openings.length capacity := by
  have hids := h.ids
  rw [o.origins_outline, List.map_map] at hids
  have hmem := hids.mem_iff.mp (List.mem_map_of_mem hx)
  have hlt : x.id < o.outline.nextSpan := List.mem_range.mp hmem
  rwa [h.count] at hlt

/-- A report is a tree, so it has a span for each opening that is recorded. -/
theorem Tells.exists_of_id_lt (h : e.Tells capacity ls) (hl : ls[i]? = some l)
    {more : List (UInt64 × Op)} {g : Segment} (hg : g ∈ (e.liveFrom l more).reports) {id : Nat}
    (hlt : id < min l.openings.length capacity) : ∃ y ∈ g.spans, y.id = id := by
  have hl' := List.mem_of_getElem? (getElem?_livesFrom (e := e) hl more)
  obtain ⟨-, -, -, htree⟩ := ((h.run more).1.status _ hl').of_mem_reports hg
  have hids := (htree (by omega)).ids
  have hlength := (e.prefix_liveFrom l more).1.length_le
  have hrange : id ∈ List.range (min (e.liveFrom l more).openings.length capacity) := by
    rw [List.mem_range]
    omega
  exact List.mem_map.mp (hids.mem_iff.mpr hrange)

/-- A segment that is reported later is not ignored. -/
theorem Tells.sampled_of_reported (h : e.Tells capacity ls) (hl : ls[i]? = some l) {k : Nat}
    (hstage : l.stage = .running k) {o : OpenSegment} (ho : e.open? k = some o)
    {more : List (UInt64 × Op)} {g : Segment} (hg : g ∈ (e.liveFrom l more).reports) :
    o.sampled = true := by
  cases hsampled : o.sampled with
  | true => rfl
  | false =>
    have hforced : l.Forsaken e more := .forced hstage ho hsampled
    obtain ⟨l', hsome, hnone⟩ := h.forsaken_run hl hforced
    obtain rfl := Option.some.inj (hsome.symm.trans (getElem?_livesFrom hl more))
    rw [hnone] at hg
    contradiction

/-- A span that a segment holds at some time is in the report of the segment. -/
theorem Tells.exists_reported (h : e.Tells capacity ls) (hl : ls[i]? = some l) {σ : Stock}
    (hσ : e.Shows Stock.aspect l σ) {x : Span} (hx : x ∈ σ.spans) {more : List (UInt64 × Op)}
    {g : Segment} (hg : g ∈ (e.liveFrom l more).reports) : ∃ y ∈ g.spans, y.id = x.id := by
  cases h.status l (List.mem_of_getElem? hl) with
  | running hstage hsite hruns =>
    next k s out =>
    obtain ⟨o, hactive, hledger, rfl⟩ := hσ.of_runs hstage hsite hruns
    have hsampled :=
      h.sampled_of_reported hl hstage ((open?_of_site? hsite).trans hactive) hg
    have hcustody := hruns.custody (hruns.outline_eq hactive ▸ hsampled)
    rw [← hruns.outline_eq hactive, ← hledger] at hcustody
    exact h.exists_of_id_lt hl hg (Custody.id_lt hcustody hx)
  | resting hrests =>
    have hstage := hσ.of_rests hrests
    cases hrests with
    | gone hended =>
      rw [hstage] at hended
      simp at hended
    | waiting _ hledger _ _ hnone hparked hstack hcustody =>
      next o n =>
      refine h.exists_of_id_lt hl hg ?_
      cases hσ with
      | running hrunning =>
        rw [hstage] at hrunning
        contradiction
      | handed hreport =>
        rw [hnone] at hreport
        contradiction
      | parked hsome =>
        rw [hledger] at hsome hx
        obtain rfl := Option.some.inj (hparked.symm.trans hsome)
        refine Custody.id_lt hcustody ?_
        unfold OpenSegment.stock OpenSegment.ownSpans
        rw [hstack]
        exact hx
    | reported _ hreported _ _ hparked =>
      cases hσ with
      | running hrunning =>
        rw [hstage] at hrunning
        contradiction
      | parked hsome =>
        rw [hparked] at hsome
        contradiction
      | handed hreport =>
        next g' =>
        -- it was handed over already, and a segment is handed over once
        have hl' := List.mem_of_getElem? (getElem?_livesFrom (e := e) hl more)
        obtain ⟨-, honce, -, -⟩ := ((h.run more).1.status _ hl').of_mem_reports hg
        have hkept := (e.prefix_liveFrom l more).2.subset hreport
        rw [honce] at hkept
        rw [← List.mem_singleton.mp hkept]
        have hspans : x ∈ g'.spans ++ [] := hx
        rw [List.append_nil] at hspans
        exact ⟨x, hspans, rfl⟩

/-! ### Closed spans -/

/-- **A closed span keeps its fields**: take a span with an end time in any segment at any
    moment of a run, open, parked or handed over. However the run goes on, the segment has
    under its id only the span with what its receipts left on it: the span itself if there
    are none, and else one with another reference or another request to skip the analysis.
    If the segment is reported, this is the span in the report. -/
theorem closed_span_kept (config : Config) (reporter : Reporter) (process : String)
    (start : UInt64) (ops more : List (UInt64 × Op)) {i : Nat} {l : Life} {σ : Stock} {x : Span} :
    let e := ofTracer (.start config reporter process start)
    (e.lives ops)[i]? = some l → (e.run ops).Shows Stock.aspect l σ → x ∈ σ.spans → x.isClosed →
    let l' := (e.run ops).liveFrom l more
    let later := x.receiveAll ((e.run ops).receiptsFrom l more)
    (e.lives (ops ++ more))[i]? = some l' ∧
    (∃ ref skip, later = { x with ref := ref, skipAnalysis := skip }) ∧
    (∀ σ', (e.run (ops ++ more)).Shows Stock.aspect l' σ' →
      ∀ y ∈ σ'.spans, y.id = x.id → y = later) ∧
    ∀ g ∈ l'.reports, later ∈ g.spans := by
  intro e hl hσ hx hclosed l' later
  have htells := ((tells_start config reporter process start).run ops).1
  have hstocked := (tells_start config reporter process start).stocked_run
    (fun l hl => by contradiction) ops
  have hkept : ∀ σ', (e.run (ops ++ more)).Shows Stock.aspect l' σ' →
      ∀ y ∈ σ'.spans, y.id = x.id → y = later := by
    intro σ' hσ' y hy hid
    rw [run_append] at hσ'
    obtain ⟨σ₁, hσ₁, hpasses⟩ := htells.restocks_run hl hσ'
    obtain rfl := htells.shows_unique (List.mem_of_getElem? hl) hσ hσ₁
    exact hpasses.kept (hstocked l (List.mem_of_getElem? hl) σ₁ hσ₁) hx hclosed hy hid
  refine ⟨?_, x.exists_receiveAll _, hkept, fun g hg => ?_⟩
  · rw [lives, livesFrom_append]
    exact getElem?_livesFrom hl more
  · obtain ⟨y, hy, hid⟩ := htells.exists_reported hl hσ hx hg
    have hstock : y ∈ (g.stock {}).spans := List.mem_append_left _ hy
    rw [← hkept _ (.handed hg) y hstock hid]
    exact hy

/-- An entry span is closed while it is on top of the stack. -/
def ordersClosed : List (UInt64 × Op) :=
  [(0, .openStrand), (1, .strand 0 (.entry "/orders" none)), (2, .strand 0 (.edit [.close 5]))]

/-- The closed span. -/
def closedOrders : Span where
  id := 0
  parent := none
  kind := .entry
  name := "/orders"
  start := 1
  stop := some 5

/-- The life of its segment. -/
def closedLife : Life where
  segment := "p.0.10000"
  stage := .running 0
  openings := [⟨1, .entry, none⟩]

/-- What is tried on the closed span before it is stopped. -/
def closedAttempts : List (UInt64 × Op) :=
  [(6, .strand 0 (.edit [.rename "/cart", .tag "user" "ann", .markFailed, .close 6])),
    (7, .strand 0 (.putCorrelation "user" "ann")), (8, .strand 0 .prepareAsync),
    (9, .strand 0 (.continued (.sampled ⟨"t", "s", 0, none, .empty .standard, .none⟩))),
    (10, .strand 0 (.stop none))]

theorem closed_span_kept_orders :
    let e := ofTracer (.start (Config.standard "i") .collecting "p" 0)
    ∃ l' : Life, (e.lives (ordersClosed ++ closedAttempts))[0]? = some l' ∧
      l'.reports.length = 1 ∧ ∀ g ∈ l'.reports, closedOrders ∈ g.spans := by
  intro e
  have hlife : (e.lives ordersClosed)[0]? = some closedLife := by decide +kernel
  have hopen : ((e.run ordersClosed).open? 0).any
      (fun o => o.stack = [.recorded closedOrders]) = true := by decide +kernel
  have hnone : (e.run ordersClosed).receiptsFrom closedLife closedAttempts = [] := by decide +kernel
  have hreported :
      ((e.run ordersClosed).liveFrom closedLife closedAttempts).reports.length = 1 := by
    decide +kernel
  obtain ⟨o, ho, hstack⟩ := (Option.any_eq_true _ _).mp hopen
  have hmem : closedOrders ∈
      (o.stock ((e.run ordersClosed).tracer.ledgerOf closedLife.ledger?)).spans := by
    simp [OpenSegment.stock, OpenSegment.ownSpans, of_decide_eq_true hstack, Frame.span?]
  obtain ⟨hlater, -, -, hkept⟩ := closed_span_kept _ _ _ _ ordersClosed closedAttempts hlife
    (.running rfl ho) hmem rfl
  rw [hnone] at hkept
  exact ⟨_, hlater, hreported, hkept⟩

/-- A context that is read while the closed span is on top of the stack. -/
def lateContext : RemoteContext where
  trace := "trace-1"
  segment := "parent-1"
  span := 0
  service := "shop"
  instanceName := "shop-1"
  endpoint := "/cart"
  address := "orders:80"
  correlation := .empty .standard
  extension := { skipAnalysis := true, sentAt := none }

/-- **A closed span that changes**: it gets the reference and the request to skip the
    analysis, and is reported with them. -/
theorem closed_span_referred :
    let e := ofTracer (.start (Config.standard "i") .collecting "p" 0)
    let extract : UInt64 × Op := (6, .strand 0 (.extract (lateContext.inject (.empty "sw8"))))
    let later : Span :=
      { closedOrders with ref := some (OpenSegment.remoteRef lateContext), skipAnalysis := true }
    ((e.run ordersClosed).open? 0).map (·.stack) = some [.recorded closedOrders] ∧
    closedOrders.isClosed ∧ later ≠ closedOrders ∧
    ((e.run (ordersClosed ++ [extract])).open? 0).map (·.stack) = some [.recorded later] ∧
    (e.handed (ordersClosed ++ [extract, (7, .strand 0 (.stop none))])).map (·.spans)
      = [[later]] := by
  decide +kernel

end Engine

end TraceLink
