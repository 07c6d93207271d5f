import TraceLink.Proofs.PrimarySpans

/-! # Endpoints

    What a segment sends, and what is captured of it, shows its endpoint: the name that
    its primary span has at this moment.

    The primary span is looked up among the spans that the segment itself holds, the
    open ones and the archived ones. A span that was taken off the stack and left to
    its async handle is in the ledger instead, and is not found: then the endpoint is
    absent, until the segment ends. -/

namespace TraceLink

open Ledger (heldIn)

/-! ### Where spans are -/

/-- The recorded spans that the segment itself holds: open ones and archived ones. -/
def OpenSegment.ownSpans (o : OpenSegment) : List Span :=
  o.stack.filterMap Frame.span? ++ o.segment.spans

/-- The spans that were taken off the stack and left to their handles, finished or
    not. -/
def Ledger.deferredSpans (l : Ledger) : List Span := heldIn l.records ++ l.completed

namespace OpenSegment

variable {o : OpenSegment}

theorem marks_outline (o : OpenSegment) :
    o.outline.marks = (o.stack.filterMap Frame.span?).map Span.mark := by
  show (o.stack.map Frame.mark).reduceOption = _
  induction o.stack with
  | nil => rfl
  | cons f rest ih =>
    cases f with
    | recorded s => exact congrArg (s.mark :: ·) ih
    | placeholder name => exact ih

/-- All recorded spans of the segment, by their origins. -/
theorem origins_outline (o : OpenSegment) (led : Ledger) :
    o.outline.origins led = (o.ownSpans ++ led.deferredSpans).map Span.origin := by
  unfold Outline.origins ownSpans Ledger.deferredSpans
  rw [marks_outline]
  simp only [List.map_append, List.map_map, List.append_assoc]
  rfl

/-! ### Looking up the primary span -/

/-- The span `fresh` is looked at first, then those that the segment holds. -/
theorem endpoint?_eq {p : Primary} (hprimary : o.primary = some p) (fresh : Option Span) :
    o.endpoint? fresh = ((fresh.filter fun s => s.id = p.span).or
      (o.ownSpans.find? fun s => s.id = p.span)).map Span.name := by
  unfold endpoint? openSpan? Segment.span? ownSpans
  rw [hprimary, List.find?_append, Option.map_eq_bind]
  rfl

/-- The endpoint is the name of the primary span if the segment holds it. -/
theorem endpoint?_of_mem {p : Primary} {x : Span} (hprimary : o.primary = some p)
    (hid : x.id = p.span) (hmem : x ∈ o.ownSpans)
    (hunique : ∀ y ∈ o.ownSpans, y.id = x.id → y = x) : o.endpoint? none = some x.name := by
  rw [endpoint?_eq hprimary, Option.filter_none, Option.none_or, ← hid,
    Span.find?_of_unique hmem hunique, Option.map_some]

/-- There is none if the primary span is somewhere else. -/
theorem endpoint?_of_not_mem {p : Primary} (hprimary : o.primary = some p)
    (hnone : ∀ y ∈ o.ownSpans, y.id ≠ p.span) : o.endpoint? none = none := by
  have hfind : (o.ownSpans.find? fun s => s.id = p.span) = none := by
    rw [List.find?_eq_none]
    intro y hy
    simpa using hnone y hy
  rw [endpoint?_eq hprimary, Option.filter_none, Option.none_or, hfind, Option.map_none]

theorem endpoint?_of_no_primary (hprimary : o.primary = none) (fresh : Option Span) :
    o.endpoint? fresh = none := by
  unfold endpoint?
  rw [hprimary]
  rfl

/-- Of the spans that stand above `below`, the active one is found first. -/
theorem find?_ownSpans {f : Frame} {rest : List Frame} (hstack : o.stack = f :: rest) (id : Nat) :
    (o.ownSpans.find? fun s => s.id = id) = (f.span?.filter fun s => s.id = id).or
      (({ o with stack := rest } : OpenSegment).ownSpans.find? fun s => s.id = id) := by
  unfold ownSpans
  rw [hstack, List.filterMap_cons]
  cases f with
  | placeholder name => rfl
  | recorded s =>
    show (s :: _).find? _ = _
    rw [List.find?_cons]
    by_cases hs : s.id = id
    · simp [Frame.span?, Option.filter_some, hs]
    · simp [Frame.span?, Option.filter_some, hs]

/-- It makes no difference that the active span is looked at first. -/
theorem endpoint?_active {f : Frame} {rest : List Frame} (hstack : o.stack = f :: rest) :
    o.endpoint? f.span? = o.endpoint? none := by
  cases hprimary : o.primary with
  | none => rw [endpoint?_of_no_primary hprimary, endpoint?_of_no_primary hprimary]
  | some p =>
    rw [endpoint?_eq hprimary, endpoint?_eq hprimary, find?_ownSpans hstack, Option.filter_none,
      Option.none_or, ← Option.or_assoc, Option.or_self]

/-- A new span is looked at as if it stood on the stack. -/
theorem endpoint?_push (o : OpenSegment) (f : Frame) :
    (o.push f).endpoint? none = o.endpoint? f.span? := by
  cases hprimary : o.primary with
  | none => rw [endpoint?_of_no_primary hprimary, endpoint?_of_no_primary (o := o.push f) hprimary]
  | some p =>
    rw [endpoint?_eq hprimary, endpoint?_eq (o := o.push f) hprimary, Option.filter_none,
      Option.none_or, find?_ownSpans (o := o.push f) rfl]
    rfl

end OpenSegment

/-! ### Titles -/

/-- The id and the name of a span. -/
def Span.title (s : Span) : Nat × String := (s.id, s.name)

/-- The title of a frame, none for a placeholder. -/
def Frame.title? (f : Frame) : Option (Nat × String) := f.span?.map Span.title

theorem Span.title_tag (key value : String) (s : Span) :
    (s.tag key value).value.title = s.title := by
  apply whileOpen_congr title
  intro s
  rfl

theorem Span.title_setPeer (peer : String) (s : Span) : (s.setPeer peer).value.title = s.title := by
  apply setPeer_congr title
  intro s
  rfl

theorem Frame.title?_modify {change : Span → Logged Span}
    (h : ∀ s, (change s).value.title = s.title) (f : Frame) :
    (f.modify change).value.title? = f.title? := modify_congr Span.title h f

namespace OpenSegment

variable {o : OpenSegment}

theorem title?_autoTag (o : OpenSegment) (keys : List String) (f : Frame) :
    (o.autoTag keys f).value.title? = f.title? := autoTag_congr Span.title Span.title_tag o keys f

/-- Of a new span only the title counts. -/
theorem endpoint?_congr {f f' : Frame} (h : f'.title? = f.title?) :
    o.endpoint? f'.span? = o.endpoint? f.span? := by
  cases hprimary : o.primary with
  | none => rw [endpoint?_of_no_primary hprimary, endpoint?_of_no_primary hprimary]
  | some p =>
    rw [endpoint?_eq hprimary, endpoint?_eq hprimary]
    cases f with
    | placeholder name =>
      have hnone : f'.span? = none := Option.map_eq_none_iff.mp h
      rw [hnone]
      rfl
    | recorded s =>
      obtain ⟨s', hs', htitle⟩ := Option.map_eq_some_iff.mp h
      obtain ⟨hid, hname⟩ := Prod.mk.inj htitle
      rw [hs']
      by_cases hp : s.id = p.span
      · simp [Frame.span?, Option.filter_some, hid, hname, hp]
      · simp [Frame.span?, Option.filter_some, hid, hp]

theorem span?_eq_none_of_title? {f f' : Frame} (h : f'.title? = f.title?) (hnone : f.span? = none) :
    f'.span? = none := by
  unfold Frame.title? at h
  rw [hnone] at h
  exact Option.map_eq_none_iff.mp h

theorem nearestRecorded?_push (o : OpenSegment) (f : Frame) :
    (o.push f).nearestRecorded? = f.span?.or o.nearestRecorded? := by
  unfold nearestRecorded? push
  rw [List.findSome?_cons]
  cases f with
  | recorded s => rfl
  | placeholder name => rfl

/-! ### What is sent -/

/-- What a sampled segment sends from a frame shows its endpoint, provided that there is
    a recorded span. -/
theorem send_of_sampled (hsampled : o.sampled = true) {f : Frame}
    (hnearest : f.span? = none → o.nearestRecorded? ≠ none) (peer : String) (k : Carrier)
    (now : UInt64) :
    ∃ r : RemoteContext, (o.send f peer k now).value = r.inject k ∧
      r.segment = o.segment.id ∧ r.endpoint = (o.endpoint? f.span?).getD "" := by
  unfold send
  rw [hsampled]
  cases f with
  | recorded s => exact ⟨o.remoteContext s.id (some s) peer now, rfl, rfl, rfl⟩
  | placeholder name =>
    cases hnear : o.nearestRecorded? with
    | none => exact absurd hnear (hnearest rfl)
    | some s => exact ⟨o.remoteContext s.id none peer now, rfl, rfl, rfl⟩

/-- An exit span that is opened with a carrier. -/
theorem openExit_of_sampled {c : Config} {name peer : String} {k : Carrier} {now : UInt64}
    {f : Frame} {k' : Option Carrier} {o' : OpenSegment}
    (h : (o.openExit c name peer (some k) now).value = (f, k', o')) (hsampled : o'.sampled = true)
    (hnearest : o'.nearestRecorded? ≠ none) :
    ∃ r : RemoteContext, k' = some (r.inject k) ∧
      r.segment = o'.segment.id ∧ r.endpoint = (o'.endpoint? none).getD "" := by
  unfold openExit at h
  cases hnew : (o.newFrame c.spanLimit .exit name now).value with
  | mk f₁ o₁ =>
    simp only [Logged.bind_value, Logged.pure_value, hnew, Prod.mk.injEq] at h
    obtain ⟨rfl, rfl, rfl⟩ := h
    -- the peer and the tags do not change the title
    have hpeer := Frame.title?_modify (Span.title_setPeer peer) f₁
    have htag := o₁.title?_autoTag c.autoTagKeys (f₁.modify (Span.setPeer peer)).value
    have hbelow : (f₁.modify (Span.setPeer peer)).value.span? = none →
        o₁.nearestRecorded? ≠ none := by
      intro hnone
      rw [nearestRecorded?_push, span?_eq_none_of_title? htag hnone] at hnearest
      exact hnearest
    have hsampled' : o₁.sampled = true := hsampled
    obtain ⟨r, hr, hsegment, hendpoint⟩ := send_of_sampled hsampled' hbelow peer k now
    refine ⟨r, by rw [hr], hsegment, ?_⟩
    rw [hendpoint, endpoint?_push, endpoint?_congr htag]

end OpenSegment

/-! ### What is shown -/

/-- The operation shares the context of the open segment: it sends it, or captures
    it. -/
def StrandOp.shares : StrandOp → Bool
  | .exit _ _ (some _) | .capture | .inject _ => true
  | _ => false

/-- **Shown**: the reply to the operation has the context of the segment with this id,
    and this endpoint in it. -/
inductive Reply.Shows (id : String) (endpoint : Option String) : StrandOp → Reply → Prop where
  | captured {c : Captured} (hsegment : c.segment = id) (hendpoint : c.endpoint = endpoint) :
      Shows id endpoint .capture (.snapshot (some (.sampled c)))
  | injected {r : RemoteContext} {k : Carrier} (hsegment : r.segment = id)
      (hendpoint : r.endpoint = endpoint.getD "") :
      Shows id endpoint (.inject k) (.carrier (r.inject k))
  | sent {name peer : String} {r : RemoteContext} {k : Carrier} {f : Frame}
      (hsegment : r.segment = id) (hendpoint : r.endpoint = endpoint.getD "") :
      Shows id endpoint (.exit name peer (some k)) (.sent f (some (r.inject k)))

/-- The context in a snapshot. -/
def Reply.captured? : Reply → Option Captured
  | .snapshot (some (.sampled c)) => some c
  | _ => none

namespace Site

variable {s : Site} {now : UInt64} {o : OpenSegment}

theorem inject_shows {k : Carrier} (hactive : s.strand.active = some o)
    (hsampled : o.sampled = true) (hnearest : o.nearestRecorded? ≠ none) {step : Logged Carrier}
    (h : s.inject k now = .ok step) :
    Reply.Shows o.segment.id (o.endpoint? none) (.inject k) (.carrier step.value) := by
  obtain ⟨o', hactive', h⟩ := inject_eq_ok.mp h
  obtain rfl : o' = o := Option.some.inj (hactive'.symm.trans hactive)
  unfold OpenSegment.inject at h
  cases hstack : o'.stack with
  | nil =>
    simp only [OpenSegment.active?, hstack] at h
    contradiction
  | cons f rest =>
    obtain ⟨r, hr, hsegment, hendpoint⟩ := OpenSegment.send_of_sampled (f := f) hsampled
      (fun _ => hnearest) (OpenSegment.peerOf f) k now
    rw [OpenSegment.endpoint?_active hstack] at hendpoint
    have hstep : step = o'.send f (OpenSegment.peerOf f) k now := by
      simp only [OpenSegment.active?, hstack, List.head?_cons] at h
      cases f with
      | placeholder name => exact (Except.ok.inj h).symm
      | recorded x =>
        simp only at h
        split at h
        · contradiction
        · exact (Except.ok.inj h).symm
    rw [hstep, hr]
    exact .injected hsegment hendpoint

theorem exit_shows {s' : Site} {name peer : String} {k : Carrier} {f : Frame}
    {k' : Option Carrier} (h : (s.exit name peer (some k) now).value = (f, k', s'))
    (hafter : s'.strand.active = some o) (hsampled : o.sampled = true)
    (hnearest : o.nearestRecorded? ≠ none) :
    ∃ r : RemoteContext, k' = some (r.inject k) ∧
      r.segment = o.segment.id ∧ r.endpoint = (o.endpoint? none).getD "" := by
  unfold exit at h
  simp only [Logged.bind_value, Logged.pure_value, Prod.mk.injEq] at h
  obtain ⟨-, hcarrier, rfl⟩ := h
  obtain rfl := Option.some.inj hafter
  rw [← hcarrier]
  exact OpenSegment.openExit_of_sampled rfl hsampled hnearest

/-- **What is shared shows the endpoint**, as the segment knows it after the operation. -/
theorem shows_step {op : StrandOp} (hop : op.shares = true)
    (hafter : (s.step now op).value.state.strand.active = some o) (hsampled : o.sampled = true)
    (hnearest : o.nearestRecorded? ≠ none) :
    (∃ e, (s.step now op).value.reply = .usage e) ∨
      Reply.Shows o.segment.id (o.endpoint? none) op (s.step now op).value.reply := by
  cases op with
  | capture =>
    have hactive : s.strand.active = some o := hafter
    have hcaptured : (s.step now .capture).value.reply = .snapshot (some o.capture) := by
      show Reply.snapshot s.capture = _
      rw [capture, hactive, Option.map_some]
    right
    rw [hcaptured, OpenSegment.capture, hsampled]
    exact .captured rfl rfl
  | inject k =>
    have hstep : s.step now (.inject k) = Outcome.ofAttempt .usage
        (((s.inject k now).within Prod.fst).map fun step => do
          return .of (.carrier (← step)) s) := rfl
    rw [hstep] at hafter ⊢
    cases hinject : s.inject k now with
    | error x => exact .inl ⟨x.value.error, rfl⟩
    | ok step =>
      rw [hinject] at hafter
      exact .inr (inject_shows hafter hsampled hnearest hinject)
  | exit name peer k =>
    cases k with
    | none => contradiction
    | some k =>
      cases hexit : (s.exit name peer (some k) now).value with
      | mk f rest =>
        obtain ⟨k', s'⟩ := rest
        have hvalue : (s.step now (.exit name peer (some k))).value = .of (.sent f k') s' := by
          simp only [step, Logged.bind_value, Logged.pure_value, hexit]
        rw [hvalue] at hafter ⊢
        obtain ⟨r, rfl, hsegment, hendpoint⟩ := exit_shows hexit hafter hsampled hnearest
        exact .inr (.sent hsegment hendpoint)
  | _ => contradiction

end Site

namespace Engine

variable {capacity : Nat} {e : Engine} {ls : List Life}

/-- While a recorded segment is open, one of its open spans is recorded. -/
theorem Tells.exists_nearest (h : e.Tells capacity ls) (hpos : 1 ≤ capacity) {k : Nat}
    {o : OpenSegment} (hopen : e.open? k = some o) (hsampled : o.sampled = true) :
    ∃ x, o.nearestRecorded? = some x := by
  obtain ⟨s, hsite, hactive⟩ := site?_of_open? hopen
  obtain ⟨ls₁, l, ls₂, z, rfl, hstage, hruns, -⟩ := h.running hsite hactive
  obtain rfl := hruns.outline_eq hactive
  have hmarks := (hruns.custody hsampled).marks_ne_nil hpos hruns.frames
  refine Option.ne_none_iff_exists'.mp fun hnone => ?_
  have hnearest := o.nearest?_outline
  rw [hnone, Option.map_none, Outline.nearest?, Option.map_eq_none_iff,
    List.head?_eq_none_iff] at hnearest
  exact hmarks hnearest

/-- **The primary span has one place**: it is one of the spans of the segment, and no
    other has its id. -/
theorem Tells.primary_placed (h : e.Tells capacity ls) (hregistered : e.Registered ls) {k : Nat}
    {o : OpenSegment} (hopen : e.open? k = some o) (hsampled : o.sampled = true)
    (hrecorded : 0 < o.nextSpan) :
    ∃ l ∈ ls, l.stage = .running k ∧ o.nearestRecorded? ≠ none ∧
      ∃ isEntry, o.primary = some ⟨primaryId (l.openings.take o.nextSpan), isEntry⟩ ∧
        ∃ x ∈ o.ownSpans ++ (e.tracer.ledgerOf o.ledger).deferredSpans,
          x.id = primaryId (l.openings.take o.nextSpan) ∧
          ∀ y ∈ o.ownSpans ++ (e.tracer.ledgerOf o.ledger).deferredSpans, y.id = x.id → y = x := by
  obtain ⟨s, hsite, hactive⟩ := site?_of_open? hopen
  obtain ⟨ls₁, l, ls₂, z, rfl, hstage, hruns, -⟩ := h.running hsite hactive
  have hl : l ∈ ls₁ ++ l :: ls₂ := List.mem_append_right _ List.mem_cons_self
  obtain rfl := hruns.outline_eq hactive
  have hcustody := hruns.custody hsampled
  rw [tracer_of_site? hsite, ← hruns.ledger] at hcustody
  have hpos : 1 ≤ capacity := by
    have hcount : o.nextSpan = min l.openings.length capacity := hcustody.count
    omega
  refine ⟨l, hl, hstage, ?_, ?_⟩
  · exact Option.ne_none_iff_exists'.mpr (h.exists_nearest hpos hopen hsampled)
  · have hprimary : o.primary = Primary.of? (l.openings.take o.nextSpan) :=
      (hregistered l hl k o hstage hopen).primary
    have hle : o.nextSpan ≤ l.openings.length := hcustody.nextSpan_le
    have hlength : (l.openings.take o.nextSpan).length = o.nextSpan := by
      rw [List.length_take, Nat.min_eq_left hle]
    have hcons : l.openings.take o.nextSpan ≠ [] := by
      rw [← List.length_pos_iff, hlength]
      exact hrecorded
    unfold Primary.of? at hprimary
    rw [if_neg hcons] at hprimary
    have hlt : primaryId (l.openings.take o.nextSpan) < o.nextSpan :=
      Nat.lt_of_lt_of_eq (primaryId_lt hcons) hlength
    have hids := hcustody.ids
    have hnodup := hcustody.nodup_ids
    rw [OpenSegment.origins_outline, List.map_map] at hids hnodup
    obtain ⟨x, hx, hid⟩ := List.mem_map.mp (hids.mem_iff.mpr (List.mem_range.mpr hlt))
    refine ⟨_, hprimary, x, hx, hid, ?_⟩
    intro y hy hsame
    exact List.inj_on_of_nodup_map hnodup hy hx hsame

/-- **The endpoint that is shared** is the name of the primary span, if the segment
    itself holds it. While the primary span is left to its handle there is none, although
    the span is still there. -/
theorem endpoint_shared (config : Config) (reporter : Reporter) (process : String)
    (start : UInt64) (ops : List (UInt64 × Op)) (k : Nat) (now : UInt64) {op : StrandOp}
    (hop : op.shares = true) {o : OpenSegment} :
    let before := (ofTracer (.start config reporter process start)).run ops
    let after := (before.step now (.strand k op)).value
    let spans := o.ownSpans ++ (after.state.tracer.ledgerOf o.ledger).deferredSpans
    after.state.open? k = some o → o.sampled = true → 0 < o.nextSpan →
    ∃ l ∈ (ofTracer (.start config reporter process start)).lives (ops ++ [(now, .strand k op)]),
      l.stage = .running k ∧
      ∃ x ∈ spans, x.id = primaryId (l.openings.take o.nextSpan) ∧
        (∀ y ∈ spans, y.id = x.id → y = x) ∧
        ((∃ err, after.reply = .usage err) ∨
          Reply.Shows o.segment.id (if x ∈ o.ownSpans then some x.name else none) op
            after.reply) := by
  intro before after spans hopen hsampled hrecorded
  have hstart := tells_start config reporter process start
  have htells := (hstart.run (ops ++ [(now, .strand k op)])).1
  have hregistered := hstart.registered_run (fun l hl => by contradiction)
    (ops ++ [(now, .strand k op)])
  rw [run_append] at htells hregistered
  obtain ⟨l, hl, hstage, hnearest, isEntry, hprimary, x, hx, hid, hunique⟩ :=
    Tells.primary_placed (e := after.state) htells hregistered hopen hsampled hrecorded
  refine ⟨l, hl, hstage, x, hx, hid, hunique, ?_⟩
  have hendpoint : o.endpoint? none = if x ∈ o.ownSpans then some x.name else none := by
    by_cases hown : x ∈ o.ownSpans
    · rw [if_pos hown]
      exact OpenSegment.endpoint?_of_mem hprimary hid hown fun y hy =>
        hunique y (List.mem_append_left _ hy)
    -- no span of the segment has the id of the one that is in the ledger
    · rw [if_neg hown]
      refine OpenSegment.endpoint?_of_not_mem hprimary fun y hy hsame => hown ?_
      rw [← hunique y (List.mem_append_left _ hy) (hsame.trans hid.symm)]
      exact hy
  rw [← hendpoint]
  cases hsite : before.site? k with
  | none =>
    have hidle : before.open? k = none := by rw [open?_eq, hsite, Option.bind_none]
    have hmissing : after.state = before := by
      show ((before.step now (.strand k op)).value).state = _
      simp only [step, hsite, Logged.pure_value]
      rfl
    rw [hmissing, hidle] at hopen
    contradiction
  | some s =>
    have hactive : (s.step now op).value.state.strand.active = some o := by
      rw [← open?_step_strand hsite]
      exact hopen
    rw [show after.reply = _ from reply_of_site hsite now op]
    exact Site.shows_step hop hactive hsampled hnearest

/-- A segment whose primary span was renamed and stopped. -/
def ordersRun : List (UInt64 × Op) :=
  [(0, .openStrand), (1, .strand 0 (.inner "root")), (2, .strand 0 (.entry "/orders" none)),
    (3, .strand 0 (.edit [.rename "/orders/7"])), (4, .strand 0 (.stop none))]

theorem endpoint_shared_orders :
    let before := (ofTracer (.start (Config.standard "i") .collecting "p" 0)).run ordersRun
    let after := (before.step 5 (.strand 0 .capture)).value
    ∃ o, after.state.open? 0 = some o ∧ o.sampled = true ∧ 0 < o.nextSpan ∧
      ∃ x ∈ o.ownSpans, x.id = 1 ∧ x.name = "/orders/7" ∧
        ((∃ err, after.reply = .usage err) ∨
          Reply.Shows o.segment.id (some x.name) .capture after.reply) := by
  intro before after
  have hopen : (after.state.open? 0).any (fun o => o.sampled && o.nextSpan == 2 &&
      o.ledger == none && o.ownSpans.map Span.title == [(0, "root"), (1, "/orders/7")]) = true := by
    decide +kernel
  obtain ⟨o, ho, hopen⟩ := (Option.any_eq_true _ _).mp hopen
  simp only [Bool.and_eq_true, beq_iff_eq] at hopen
  obtain ⟨⟨⟨hsampled, hnext⟩, hledger⟩, hown⟩ := hopen
  have hrecorded : 0 < o.nextSpan := hnext ▸ Nat.zero_lt_two
  refine ⟨o, ho, hsampled, hrecorded, ?_⟩
  obtain ⟨l, hl, -, x, hx, hid, -, hshown⟩ := endpoint_shared (Config.standard "i") .collecting
    "p" 0 ordersRun 0 5 rfl ho hsampled hrecorded
  have hprimary : ∀ l ∈ (ofTracer (.start (Config.standard "i") .collecting "p" 0)).lives
      (ordersRun ++ [(5, .strand 0 .capture)]), primaryId (l.openings.take 2) = 1 := by
    decide +kernel
  rw [hnext, hprimary l hl] at hid
  rw [hledger] at hx
  have hmem : x ∈ o.ownSpans := (List.mem_append.mp hx).resolve_right (List.not_mem_nil)
  rw [if_pos hmem] at hshown
  refine ⟨x, hmem, hid, ?_, hshown⟩
  have htitle : x.title ∈ [(0, "root"), (1, "/orders/7")] := hown ▸ List.mem_map_of_mem hmem
  unfold Span.title at htitle
  rw [hid] at htitle
  simpa using htitle

/-- A segment whose primary span is left to its handle. -/
def deferredRun : List (UInt64 × Op) :=
  [(0, .openStrand), (1, .strand 0 (.inner "root")), (2, .strand 0 (.entry "/orders" none)),
    (3, .strand 0 .prepareAsync), (4, .strand 0 (.stop none))]

theorem endpoint_absent_deferred :
    let before := (ofTracer (.start (Config.standard "i") .collecting "p" 0)).run deferredRun
    let after := (before.step 5 (.strand 0 .capture)).value
    (after.state.open? 0).map (fun o => (o.sampled, o.primary, o.ledger)) =
      some (true, some ⟨1, true⟩, some 0) ∧
    (after.state.tracer.ledger 0).deferredSpans.map Span.title = [(1, "/orders")] ∧
    after.reply.captured?.map Captured.endpoint = some none := by
  decide +kernel

end Engine

end TraceLink
