import TraceLink.Proofs.PendingContinuations

/-! # Several snapshots for one segment

    Continuing an ignored snapshot stops the recording of an open segment, and what is
    continued before or after it makes no difference. On an idle strand the snapshots wait in
    one place, so the last valid one decides for the segment that begins, and an ignored
    snapshot before it is forgotten.

    The two ways agree if the last valid snapshot is the ignored one, or if the span that
    begins the segment is ignored for its own reasons. -/

namespace TraceLink

/-- The decision that comes with the span which an operation opens. -/
def StrandOp.inherited (config : Config) : StrandOp → Inherited
  | .entry _ (some k) => decided k
  | .entryFrom _ headers => decided (Carrier.readFrom headers config.headerLabel)
  | _ => .undecided
where
  /-- The decision that a carrier brings. -/
  decided (k : Carrier) : Inherited :=
    (Site.inheritedFrom (RemoteContext.extract config.correlationLimits k).value).1

namespace Snapshot

theorem isValid_of_ignored {x : Snapshot} (h : x.isIgnored = true) : x.isValid = true := by
  cases x with
  | ignored id => rfl
  | sampled c => contradiction

theorem exists_lastValid {xs : List Snapshot} (h : xs.any (·.isIgnored) = true) :
    ∃ last, lastValid xs = some last := by
  obtain ⟨x, hx, hignored⟩ := List.any_eq_true.mp h
  have hmem : x ∈ xs.filter (·.isValid) :=
    List.mem_filter.mpr ⟨hx, isValid_of_ignored hignored⟩
  exact ⟨_, List.getLast?_eq_some_getLast (List.ne_nil_of_mem hmem)⟩

end Snapshot

namespace Site

variable {s : Site}

/-- **The segment that begins** is recorded if the gate says so, which has to follow what is
    inherited or pending. -/
theorem begun_step (hidle : s.strand.active = none) {op : StrandOp}
    (hop : op.takesPending = true) (now : UInt64) :
    ∃ o name, (s.step now op).value.state.strand.active = some o ∧
      o.sampled = (s.tracer.gate.judge name (OpenSegment.decision (op.inherited s.tracer.config)
        s.strand.continuation) now).value.1 := by
  cases op with
  | entry name k =>
    obtain ⟨o, hactive, hsampled⟩ := begun_openSpan hidle .entry name (s.inboundOf k) now
    rw [← entry_value] at hactive
    refine ⟨o, name, hactive, hsampled.trans ?_⟩
    cases k with
    | none => rfl
    | some k => rfl
  | entryFrom name headers =>
    obtain ⟨o, hactive, hsampled⟩ := begun_openSpan hidle .entry name
      (s.inboundOf (some (Carrier.readFrom headers s.label))) now
    rw [← entry_value] at hactive
    exact ⟨o, name, hactive, hsampled⟩
  | inner name =>
    obtain ⟨o, hactive, hsampled⟩ := begun_openSpan hidle .inner name .absent now
    exact ⟨o, name, hactive, hsampled⟩
  | exit name peer k =>
    obtain ⟨o, hactive, hsampled⟩ := begun_exit hidle name peer k now
    exact ⟨o, name, hactive, hsampled⟩
  | _ => contradiction

/-- While a snapshot is pending, the gate is not asked. -/
theorem ignores_step_iff {last : Snapshot} (hidle : s.strand.active = none)
    (hpending : s.strand.continuation = some last) {op : StrandOp}
    (hop : op.takesPending = true) (now : UInt64) :
    ∃ o, (s.step now op).value.state.strand.active = some o ∧ (o.sampled = false ↔
      last.isIgnored = true ∨ op.inherited s.tracer.config = .ignored) := by
  obtain ⟨o, name, hactive, hsampled⟩ := begun_step hidle hop now
  refine ⟨o, hactive, ?_⟩
  rw [hsampled, hpending]
  cases last with
  | ignored id => simp [OpenSegment.decision, Gate.judge, Snapshot.isIgnored]
  | sampled c =>
    cases op.inherited s.tracer.config <;>
      simp [OpenSegment.decision, Gate.judge, Snapshot.isIgnored]

end Site

namespace Engine

variable {e : Engine} {k : Nat} {o : OpenSegment}

/-- **Continuing while a segment is open**: one ignored snapshot is enough, in any order. -/
theorem sampled_run_continues (hopen : e.open? k = some o) {more : List (UInt64 × Op)}
    (hmore : ∀ timed ∈ more, timed.2.onlyContinues k = true) :
    ∃ o', (e.run more).open? k = some o' ∧
      o'.sampled = (o.sampled && !(continuedOn k more).any (·.isIgnored)) := by
  induction more generalizing e o with
  | nil => exact ⟨o, hopen, (Bool.and_true _).symm⟩
  | cons timed more ih =>
    obtain ⟨now, op⟩ := timed
    obtain ⟨honly, hrest⟩ := List.forall_mem_cons.mp hmore
    rcases Op.elsewhere_or_continued honly with ⟨hop, hnone⟩ | ⟨snapshot, rfl⟩
    · have hstays : (e.step now op).value.state.open? k = some o := by
        obtain ⟨s, hsite, hactive⟩ := site?_of_open? hopen
        have hstrand := strand?_step_elsewhere (strand?_of_site? hsite) now hop
        exact (open?_of_site? (site?_of_strand? hstrand)).trans hactive
      rw [continuedOn_cons now more hnone]
      exact ih hstays hrest
    · obtain ⟨s, hsite, hactive⟩ := site?_of_open? hopen
      obtain ⟨o₁, hactive₁, hout⟩ := Site.active_of_outline?
        (Site.outline?_continued (Site.outline?_of_active hactive) snapshot)
      have hopen₁ : (e.step now (.strand k (.continued snapshot))).value.state.open? k = some o₁ :=
        (open?_step_strand hsite now _).trans hactive₁
      have hsampled : o₁.sampled = (o.sampled && !snapshot.isIgnored) :=
        congrArg Outline.sampled hout
      obtain ⟨o', hopen', hsampled'⟩ := ih hopen₁ hrest
      -- each snapshot adds its own part to the conjunction, so the order does not matter
      refine ⟨o', hopen', ?_⟩
      rw [hsampled', hsampled, continuedOn_continued, List.any_cons, Bool.not_or, Bool.and_assoc]

/-- **The last snapshot decides**: of the snapshots that an idle strand continues, with an
    ignored one among them, the last valid one is all that is left when the next segment
    begins. This segment is ignored if that one is ignored, or if its first span inherits that
    the trace is ignored, and in no other case. If the segment is begun first, and then the
    same snapshots are continued, it is ignored in every case. -/
theorem last_snapshot_decides (config : Config) (reporter : Reporter) (process : String)
    (start t : UInt64) (ops more : List (UInt64 × Op)) {k : Nat} {s : Strand} (op : StrandOp) :
    let e := ofTracer (.start config reporter process start)
    (e.run ops).strand? k = some s → s.active = none →
    (∀ timed ∈ more, timed.2.onlyContinues k = true) →
    (continuedOn k more).any (·.isIgnored) = true → op.takesPending = true →
    (∃ last, Snapshot.lastValid (continuedOn k more) = some last ∧
      e.run (ops ++ more) =
        (e.run (ops ++ besides k more)).setStrand k { s with continuation := some last } ∧
      ∃ o, (e.run (ops ++ more ++ [(t, .strand k op)])).open? k = some o ∧
        (o.sampled = false ↔ last.isIgnored = true ∨ op.inherited config = .ignored)) ∧
    ∃ o, (e.run (ops ++ (t, .strand k op) :: more)).open? k = some o ∧ o.sampled = false := by
  intro e hs hidle hmore hignored hop
  obtain ⟨last, hlast⟩ := Snapshot.exists_lastValid hignored
  have hwaiting : e.run (ops ++ more) =
      (e.run (ops ++ besides k more)).setStrand k { s with continuation := some last } := by
    rw [run_append, run_append, run_onlyContinues hs hidle hmore, hlast, Option.some_or]
  refine ⟨⟨last, hlast, hwaiting, ?_⟩, ?_⟩
  · have hleft : (e.run (ops ++ besides k more)).strand? k = some s := by
      rw [run_append]
      exact strand?_run hs (elsewhere_of_besides k more)
    let waiting : Site :=
      ⟨(e.run (ops ++ besides k more)).tracer, { s with continuation := some last }⟩
    have hsite : (e.run (ops ++ more)).site? k = some waiting := by
      rw [hwaiting]
      exact site?_setSite (site?_of_strand? hleft) waiting
    obtain ⟨hconfig, -⟩ :=
      (Strand.pendsIdle_invariant config).of_run reporter process start _ hsite
    obtain ⟨o, hactive, hiff⟩ := Site.ignores_step_iff (s := waiting) hidle rfl hop t
    rw [hconfig] at hiff
    refine ⟨o, ?_, hiff⟩
    rw [run_append]
    exact (open?_step_strand hsite t op).trans hactive
  · obtain ⟨o, name, hactive, -⟩ := Site.begun_step (s := ⟨(e.run ops).tracer, s⟩) hidle hop t
    have hbegun := (open?_step_strand (site?_of_strand? hs) t op).trans hactive
    obtain ⟨o', hopen', hsampled⟩ := sampled_run_continues hbegun hmore
    refine ⟨o', ?_, ?_⟩
    · rw [run_append]
      exact hopen'
    · rw [hsampled, hignored, Bool.not_true, Bool.and_false]

/-- A worker continues a request for a static file, and then a job. -/
def fileThenJob : List (UInt64 × Op) :=
  [(1, .strand 0 (.continued (.ignored "file-1"))),
    (2, .strand 0 (.continued (.sampled jobContext)))]

theorem last_snapshot_decides_job :
    let e := ofTracer (.start (Config.standard "i") .collecting "p" 0)
    (∃ last, Snapshot.lastValid (continuedOn 0 fileThenJob) = some last ∧
      ∃ o, (e.run ((0, .openStrand) :: fileThenJob ++ [(3, .strand 0 (.inner "run"))])).open? 0 =
        some o ∧ o.sampled = true) ∧
    ∃ o, (e.run ((0, .openStrand) :: (3, .strand 0 (.inner "run")) :: fileThenJob)).open? 0 =
      some o ∧ o.sampled = false := by
  intro e
  have hfresh : ((e.run [(0, .openStrand)]).strand? 0).any (fun s => s.active.isNone) = true := by
    decide +kernel
  obtain ⟨s, hs, hidle⟩ := (Option.any_eq_true _ _).mp hfresh
  obtain ⟨⟨last, hlast, -, o, hopen, hiff⟩, hfirst⟩ :=
    last_snapshot_decides (Config.standard "i") .collecting "p" 0 3 [(0, .openStrand)] fileThenJob
      (.inner "run") hs (Option.isNone_iff_eq_none.mp hidle) (by decide) (by decide) rfl
  obtain rfl : Snapshot.sampled jobContext = last := Option.some.inj hlast
  refine ⟨⟨_, hlast, o, hopen, ?_⟩, hfirst⟩
  rw [← Bool.not_eq_false, hiff]
  decide

/-- **An ignored snapshot is forgotten** when another one is continued after it: the segment
    that begins is recorded and continues the other one. In the other order it is ignored,
    and so is a segment that is open already, in both orders. -/
theorem ignored_snapshot_forgotten :
    let e := ofTracer (.start (Config.standard "i") .collecting "p" 0)
    let opened : UInt64 × Op := (0, .openStrand)
    let begins : UInt64 × Op := (3, .strand 0 (.entry "/orders" none))
    let decided (ops : List (UInt64 × Op)) :=
      ((e.run ops).open? 0).map fun o => (o.sampled, o.segment.parent)
    ((e.run [opened]).strand? 0).map (fun s => (s.active, s.continuation)) = some (none, none) ∧
    decided (opened :: fileThenJob ++ [begins]) = some (true, some jobRef) ∧
    decided (opened :: fileThenJob.reverse ++ [begins]) = some (false, none) ∧
    decided (opened :: begins :: fileThenJob) = some (false, some jobRef) ∧
    decided (opened :: begins :: fileThenJob.reverse) = some (false, some jobRef) := by
  decide +kernel

end Engine

end TraceLink
