import TraceLink.Proofs.IgnoredSegments

/-! # Ignored traces

    An ignored segment stays ignored until it ends, and so does everything that begins
    below it: whoever receives one of its carriers or snapshots ignores the trace too,
    whatever the configuration and whatever was pending before.

    So from any ignored segment on, a chain of segments is ignored, each of them begun
    with what the one before it handed out. -/

namespace TraceLink

/-! ### Pending snapshots -/

/-- The operation opens no span and does not touch the pending continuation. -/
def StrandOp.keepsPending : StrandOp → Bool
  | .continued _ | .discard | .reset => false
  | op => op.opens?.isNone

/-- The operation leaves the strand at place `k` idle, with what is pending. -/
def Op.KeepsPending (k : Nat) : Op → Prop
  | .strand k' op => k' = k → op.keepsPending = true
  | .closeStrand k' => k' ≠ k
  | _ => True

/-- **Waiting**: the strand is idle, and the snapshot is pending. -/
structure Strand.Waits (s : Strand) (snapshot : Snapshot) : Prop where
  idle : s.active = none
  pending : s.continuation = some snapshot

theorem Strand.Waits.step {s : Site} {snapshot : Snapshot} (h : s.strand.Waits snapshot)
    (now : UInt64) {op : StrandOp} (hop : op.keepsPending = true) :
    (s.step now op).value.state.strand.Waits snapshot := by
  have hrefused := Site.active_of_idle h.idle
  cases op with
  | stop expected =>
    simp only [Site.step, Site.stop, hrefused]
    exact h
  | inject k =>
    simp only [Site.step, Site.inject, hrefused]
    exact h
  | extract k =>
    simp only [Site.step, Site.receive, hrefused]
    exact h
  | active =>
    simp only [Site.step, Site.activeFrame, hrefused]
    exact h
  | edit edits =>
    simp only [Site.step, Site.edit, hrefused]
    exact h
  | prepareAsync =>
    simp only [Site.step, Site.prepareAsync, hrefused]
    exact h
  | capture => exact h
  | putCorrelation key value =>
    simp only [Site.step, Site.putCorrelation, h.idle]
    exact h
  | scratch op => exact ⟨h.idle, h.pending⟩
  | _ => contradiction

namespace Engine

variable {e : Engine}

/-- A strand that waits goes on waiting until it is asked for something else. -/
theorem waits_run {k : Nat} {s : Strand} {snapshot : Snapshot} (h : e.strand? k = some s)
    (hwaits : s.Waits snapshot) {more : List (UInt64 × Op)}
    (hmore : ∀ timed ∈ more, timed.2.KeepsPending k) :
    ∃ s', (e.run more).site? k = some s' ∧ s'.strand.Waits snapshot := by
  induction more generalizing e s with
  | nil => exact ⟨⟨e.tracer, s⟩, site?_of_strand? h, hwaits⟩
  | cons timed more ih =>
    obtain ⟨now, op⟩ := timed
    obtain ⟨hkeeps, hrest⟩ : op.KeepsPending k ∧ ∀ timed ∈ more, timed.2.KeepsPending k :=
      List.forall_mem_cons.mp hmore
    by_cases hown : ∃ sop, op = .strand k sop
    · obtain ⟨sop, rfl⟩ := hown
      exact ih (strand?_of_site? (site?_step_strand (site?_of_strand? h) now sop))
        (hwaits.step (s := ⟨e.tracer, s⟩) now (hkeeps rfl)) hrest
    · refine ih (strand?_step h now (fun sop hop => hown ⟨sop, hop⟩) ?_) hwaits hrest
      rintro rfl
      exact hkeeps rfl

/-- A snapshot that an idle strand continues takes the place of what was pending, and waits
    for the next span. -/
theorem waits_continued {k : Nat} {s : Site} {snapshot : Snapshot} (hsite : e.site? k = some s)
    (hidle : s.strand.active = none) (hvalid : snapshot.isValid = true) (now : UInt64)
    {more : List (UInt64 × Op)} (hmore : ∀ timed ∈ more, timed.2.KeepsPending k) :
    ∃ s', ((e.step now (.strand k (.continued snapshot))).value.state.run more).site? k = some s' ∧
      s'.strand.Waits snapshot := by
  have hpending := Site.continued_of_idle hidle hvalid
  have hafter : ((e.step now (.strand k (.continued snapshot))).value.state).strand? k =
      some { s.strand with continuation := some snapshot } := by
    refine (strand?_of_site? (site?_step_strand hsite now _)).trans (congrArg some ?_)
    exact congrArg Site.strand hpending
  exact waits_run hafter ⟨hidle, rfl⟩ hmore

/-! ### Runs -/

/-- The strand at place `k` is active before and after each operation. -/
def ActiveThrough (e : Engine) (k : Nat) : List (UInt64 × Op) → Prop
  | [] => (e.open? k).isSome
  | (now, op) :: ops => (e.open? k).isSome ∧ (e.step now op).value.state.ActiveThrough k ops

instance decidableActiveThrough (k : Nat) :
    ∀ (e : Engine) (ops : List (UInt64 × Op)), Decidable (e.ActiveThrough k ops)
  | e, [] => inferInstanceAs (Decidable ((e.open? k).isSome = true))
  | e, (now, op) :: ops =>
    have := decidableActiveThrough k (e.step now op).value.state ops
    inferInstanceAs (Decidable ((e.open? k).isSome = true ∧ _))

/-- A segment that is open after a step of anything else was open before. -/
theorem open?_of_step {k : Nat} {o' : OpenSegment} {now : UInt64} {op : Op}
    (hstrand : ∀ sop, op ≠ .strand k sop)
    (hafter : (e.step now op).value.state.open? k = some o') : e.open? k = some o' := by
  by_cases hclose : op = .closeStrand k
  · subst hclose
    simp only [step, closeStrand] at hafter
    cases hsite : e.site? k with
    | none =>
      rw [hsite] at hafter
      exact hafter
    | some s =>
      -- the place is empty when the strand has gone
      rw [hsite] at hafter
      have hnone := open?_left hsite k
      rw [if_pos rfl] at hnone
      exact absurd (hnone.symm.trans hafter) (by simp)
  · rw [← open?_step e now hstrand hclose]
    exact hafter

/-- **The decision of an open segment** changes when an ignored snapshot is continued in
    it, and at no other step of the engine. -/
theorem decision_step {k : Nat} {o o' : OpenSegment} (hopen : e.open? k = some o) (now : UInt64)
    (op : Op) (hafter : (e.step now op).value.state.open? k = some o') :
    o'.segment.id = o.segment.id ∧ o'.sampled = (o.sampled && !op.continuesIgnored k) := by
  by_cases hown : ∃ sop, op = .strand k sop
  · obtain ⟨sop, rfl⟩ := hown
    obtain ⟨s, hsite, hactive⟩ := site?_of_open? hopen
    have hstate := open?_step_strand hsite now sop
    have hdecision := Site.decision_step (Site.outline?_of_active hactive) now sop
      (Site.outline?_of_active (hstate.symm.trans hafter))
    rw [show Op.continuesIgnored k (.strand k sop) = sop.continuesIgnored by
      rw [Op.continuesIgnored, beq_self_eq_true, Bool.true_and]]
    exact hdecision
  · have hbefore := open?_of_step (fun sop hop => hown ⟨sop, hop⟩) hafter
    obtain rfl := Option.some.inj (hopen.symm.trans hbefore)
    have hother : op.continuesIgnored k = false := by
      cases op with
      | strand k' sop =>
        have hk : k' ≠ k := fun hk => hown ⟨sop, hk ▸ rfl⟩
        rw [Op.continuesIgnored, beq_eq_false_iff_ne.mpr hk, Bool.false_and]
      | _ => rfl
    rw [hother, Bool.not_false, Bool.and_true]
    exact ⟨rfl, rfl⟩

/-- As long as a segment is open it keeps its id, and its decision only fades. -/
theorem decision_through {k : Nat} {o : OpenSegment} (hopen : e.open? k = some o)
    {more : List (UInt64 × Op)} (h : e.ActiveThrough k more) :
    ∃ o', (e.run more).open? k = some o' ∧ o'.segment.id = o.segment.id ∧
      (o.sampled = false → o'.sampled = false) := by
  induction more generalizing e o with
  | nil => exact ⟨o, hopen, rfl, id⟩
  | cons timed more ih =>
    obtain ⟨now, op⟩ := timed
    have hstays : ((e.step now op).value.state.open? k).isSome := by
      cases more with
      | nil => exact h.2
      | cons next more => exact h.2.1
    obtain ⟨o', hafter⟩ := Option.isSome_iff_exists.mp hstays
    obtain ⟨hid, hsampled⟩ := decision_step hopen now op hafter
    obtain ⟨o'', hopen'', hid'', hfades⟩ := ih hafter h.2
    refine ⟨o'', hopen'', hid''.trans hid, fun hignored => hfades ?_⟩
    rw [hsampled, hignored, Bool.false_and]

/-- An ignored segment is ignored as long as it is open. -/
theorem ignored_through {k : Nat} {o : OpenSegment} (hopen : e.open? k = some o)
    (hignored : o.sampled = false) {more : List (UInt64 × Op)} (h : e.ActiveThrough k more) :
    ∃ o', (e.run more).open? k = some o' ∧ o'.segment.id = o.segment.id ∧
      o'.sampled = false := by
  obtain ⟨o', hopen', hid, hfades⟩ := decision_through hopen h
  exact ⟨o', hopen', hid, hfades hignored⟩

/-! ### Chains -/

/-- **Sending**: the strand at place `k` fills a carrier, from its active span or for a
    new exit span. -/
inductive Sends (e : Engine) (k : Nat) (now : UInt64) (c : Carrier) : Prop where
  | inject {k₀ : Carrier} (h : (e.step now (.strand k (.inject k₀))).value.reply = .carrier c)
  | exit {name peer : String} {k₀ : Option Carrier} {f : Frame}
      (h : (e.step now (.strand k (.exit name peer k₀))).value.reply = .sent f (some c))

/-- **Downstream** of an ignored segment: at the strand at place `k` of the engine, a
    segment is open that is ignored itself, or that was begun while the strand was idle,
    with a carrier or a snapshot of one that is downstream. The strands of a chain may
    belong to engines with any configurations, in any states. -/
inductive Downstream : Engine → Nat → Prop where
  | source {e : Engine} {k : Nat} {o : OpenSegment} (hopen : e.open? k = some o)
      (hignored : o.sampled = false) : Downstream e k
  /-- Anything may happen as long as the segment is open. -/
  | later {e : Engine} {k : Nat} {now : UInt64} {op : Op} (h : Downstream e k)
      (hstays : ((e.step now op).value.state.open? k).isSome) :
      Downstream (e.step now op).value.state k
  /-- An entry span is opened with a carrier that the segment filled, whatever is
      pending. -/
  | carried {e e' : Engine} {k k' : Nat} {now now' : UInt64} {s' : Site} {c : Carrier}
      (h : Downstream e k) (hsent : e.Sends k now c)
      (hsite : e'.site? k' = some s') (hidle : s'.strand.active = none) (name : String) :
      Downstream (e'.step now' (.strand k' (.entry name (some c)))).value.state k'
  /-- The carrier is written into the headers of a message, and read from them. -/
  | written {e e' : Engine} {k k' : Nat} {now now' : UInt64} {s' : Site} {c : Carrier}
      {t : Transport} (h : Downstream e k) (hsent : e.Sends k now c)
      (hempty : t = .table [] ∨ t = .document (.object [])) (hsite : e'.site? k' = some s')
      (hidle : s'.strand.active = none) (hlabel : s'.label = c.label)
      (hascii : Text.IsAscii c.label) (name : String) :
      Downstream (e'.step now' (.strand k' (.entryFrom name (c.writeTo t)))).value.state k'
  /-- A snapshot that was taken of the segment is continued, whatever is pending; then
      the next span is opened in any way. -/
  | continued {e e' : Engine} {k k' : Nat} {now now' now'' : UInt64} {s' : Site}
      {snapshot : Snapshot} {more : List (UInt64 × Op)} {op : StrandOp} {kind : SpanKind}
      (h : Downstream e k)
      (hcaptured : (e.step now (.strand k .capture)).value.reply = .snapshot (some snapshot))
      (hsite : e'.site? k' = some s') (hidle : s'.strand.active = none)
      (hmore : ∀ timed ∈ more, timed.2.KeepsPending k') (hop : op.opens? = some kind)
      (hother : ∀ name other, op ≠ .innerWith name other) :
      Downstream
        (((e'.step now' (.strand k' (.continued snapshot))).value.state.run more).step now''
          (.strand k' op)).value.state k'
  /-- A span is opened that continues the snapshot itself. -/
  | continuedWith {e e' : Engine} {k k' : Nat} {now now' : UInt64} {s' : Site}
      {snapshot : Snapshot} (h : Downstream e k)
      (hcaptured : (e.step now (.strand k .capture)).value.reply = .snapshot (some snapshot))
      (hsite : e'.site? k' = some s') (hidle : s'.strand.active = none) (name : String) :
      Downstream (e'.step now' (.strand k' (.innerWith name snapshot))).value.state k'

/-- The open segment of the strand at place `k` is ignored. -/
def Ignores (e : Engine) (k : Nat) : Prop := ∃ o, e.open? k = some o ∧ o.sampled = false

theorem ignores_of_site {k : Nat} {s : Site} (hsite : e.site? k = some s) (now : UInt64)
    {op : StrandOp} (h : (s.step now op).value.state.Ignores) :
    (e.step now (.strand k op)).value.state.Ignores k := by
  obtain ⟨o, hactive, hignored⟩ := h
  exact ⟨o, (open?_step_strand hsite now op).trans hactive, hignored⟩

/-- Whatever an ignored segment sends says that the trace is ignored. -/
theorem Sends.eq_ignored {k : Nat} {now : UInt64} {c : Carrier} (hsent : e.Sends k now c)
    (h : e.Ignores k) : ∃ label, c = .ignored label := by
  obtain ⟨o, hopen, hignored⟩ := h
  obtain ⟨s, hsite, hactive⟩ := site?_of_open? hopen
  cases hsent with
  | exit hreply =>
    next name peer k₀ f =>
    rw [reply_of_site hsite] at hreply
    have hsent := Site.exit_of_ignored hactive hignored name peer k₀ now
    cases k₀ with
    | none =>
      rw [hsent] at hreply
      injection hreply with hf hc
      contradiction
    | some k₀ =>
      rw [hsent] at hreply
      injection hreply with hf hc
      exact ⟨k₀.label, (Option.some.inj hc).symm⟩
  | inject hreply =>
    next k₀ =>
    rw [reply_of_site hsite] at hreply
    obtain ⟨o', step, hactive', hinject, rfl⟩ := Site.inject_of_reply hreply
    obtain rfl := Option.some.inj (hactive.symm.trans hactive')
    by_cases hstack : o.stack = []
    -- nothing is sent while the stack is empty
    · rw [OpenSegment.inject, OpenSegment.active?, hstack] at hinject
      contradiction
    · rw [OpenSegment.inject_of_ignored hignored hstack] at hinject
      obtain rfl := Except.ok.inj hinject
      exact ⟨k₀.label, rfl⟩

/-- A snapshot is taken of the open segment. -/
theorem capture_of_reply {k : Nat} {o : OpenSegment} (hopen : e.open? k = some o) {now : UInt64}
    {snapshot : Snapshot}
    (hcaptured : (e.step now (.strand k .capture)).value.reply = .snapshot (some snapshot)) :
    o.capture = snapshot := by
  obtain ⟨s, hsite, hactive⟩ := site?_of_open? hopen
  rw [reply_of_site hsite] at hcaptured
  injection hcaptured with hsome
  rw [Site.capture, hactive] at hsome
  exact Option.some.inj hsome

/-- What is captured of an ignored segment says that it is ignored. -/
theorem captured_of_ignores {k : Nat} (h : e.Ignores k) {now : UInt64} {snapshot : Snapshot}
    (hcaptured : (e.step now (.strand k .capture)).value.reply = .snapshot (some snapshot)) :
    ∃ id, snapshot = .ignored id := by
  obtain ⟨o, hopen, hignored⟩ := h
  have hsays := o.isIgnored_capture
  rw [capture_of_reply hopen hcaptured, hignored] at hsays
  cases snapshot with
  | ignored id => exact ⟨id, rfl⟩
  | sampled c => contradiction

/-- **Contagion**: what is downstream of an ignored segment is ignored. -/
theorem Downstream.ignores {k : Nat} (h : Downstream e k) : e.Ignores k := by
  induction h with
  | source hopen hignored => exact ⟨_, hopen, hignored⟩
  | later h hstays ih =>
    obtain ⟨o, hopen, hignored⟩ := ih
    obtain ⟨o', hafter⟩ := Option.isSome_iff_exists.mp hstays
    obtain ⟨-, hsampled⟩ := decision_step hopen _ _ hafter
    rw [hignored, Bool.false_and] at hsampled
    exact ⟨o', hafter, hsampled⟩
  | carried h hsent hsite hidle name ih =>
    obtain ⟨label, rfl⟩ := hsent.eq_ignored ih
    exact ignores_of_site hsite _ (Site.ignores_entry hidle name label _)
  | written h hsent hempty hsite hidle hlabel hascii name ih =>
    obtain ⟨label, rfl⟩ := hsent.eq_ignored ih
    refine ignores_of_site hsite _ ?_
    show (Site.entry _ name (some (Carrier.readFrom _ _)) _).value.2.Ignores
    rw [hlabel, Carrier.readFrom_writeTo hascii hempty]
    exact Site.ignores_entry hidle name label _
  | continued h hcaptured hsite hidle hmore hop hother ih =>
    obtain ⟨id, rfl⟩ := captured_of_ignores ih hcaptured
    have hvalid : (Snapshot.ignored id).isValid = true := rfl
    obtain ⟨s'', hsite'', hwaits⟩ := waits_continued hsite hidle hvalid _ hmore
    exact ignores_of_site hsite'' _ (Site.ignores_of_pending hwaits.idle hwaits.pending hop hother)
  | continuedWith h hcaptured hsite hidle name ih =>
    obtain ⟨id, rfl⟩ := captured_of_ignores ih hcaptured
    exact ignores_of_site hsite _ (Site.ignores_innerWith hidle name id _)

/-! ### Ignored for good -/

/-- A life of an ignored segment reports nothing, however the run goes on. -/
theorem unreported_of_ignored (config : Config) (reporter : Reporter) (process : String)
    (start : UInt64) (ops : List (UInt64 × Op)) {k : Nat} {o : OpenSegment}
    (hopen : ((ofTracer (.start config reporter process start)).run ops).open? k = some o)
    (hignored : o.sampled = false) :
    let e := ofTracer (.start config reporter process start)
    ∃ (i : Nat) (l : Life), (e.lives ops)[i]? = some l ∧ l.stage = .running k ∧
      ∀ more, ∃ l' : Life, (e.lives (ops ++ more))[i]? = some l' ∧ l'.reports = [] := by
  intro e
  have htells := ((tells_start config reporter process start).run ops).1
  obtain ⟨l, hl, hstage⟩ := htells.told k o hopen
  obtain ⟨i, hi⟩ := List.mem_iff_getElem?.mp hl
  refine ⟨i, l, hi, hstage, fun more => ?_⟩
  have hforsaken : l.Forsaken (e.run ops) more := .forced hstage hopen hignored
  obtain ⟨l', hl', hnone⟩ := htells.forsaken_run hi hforsaken
  refine ⟨l', ?_, hnone⟩
  rw [lives, livesFrom_append]
  exact hl'

/-- **Ignored for good**: in every run the decision of an open segment changes only from
    recorded to ignored, and only when an ignored snapshot is continued. As long as an
    ignored segment is open it is ignored, it answers as one, and it is never reported.
    And every segment downstream of it is ignored too. -/
theorem ignored_for_good (config : Config) (reporter : Reporter) (process : String)
    (start : UInt64) (ops : List (UInt64 × Op)) :
    let e := ofTracer (.start config reporter process start)
    (∀ (k : Nat) (o o' : OpenSegment) (now : UInt64) (op : Op),
      (e.run ops).open? k = some o → ((e.run ops).step now op).value.state.open? k = some o' →
        o'.segment.id = o.segment.id ∧ o'.sampled = (o.sampled && !op.continuesIgnored k)) ∧
    (∀ (k : Nat) (o : OpenSegment), (e.run ops).open? k = some o → o.sampled = false →
      (∀ more, (e.run ops).ActiveThrough k more →
        ∃ o', (e.run (ops ++ more)).open? k = some o' ∧ o'.segment.id = o.segment.id ∧
          o'.sampled = false) ∧
      (∀ (now : UInt64) (op : StrandOp) (reply : Reply),
        op.whileIgnored o.segment.id = some reply →
          ((e.run ops).step now (.strand k op)).value.reply = reply) ∧
      ∃ (i : Nat) (l : Life), (e.lives ops)[i]? = some l ∧ l.stage = .running k ∧
        ∀ more, ∃ l' : Life, (e.lives (ops ++ more))[i]? = some l' ∧ l'.reports = []) ∧
    ∀ (e' : Engine) (k' : Nat), Downstream e' k' →
      ∃ o', e'.open? k' = some o' ∧ o'.sampled = false := by
  intro e
  have htells := ((tells_start config reporter process start).run ops).1
  refine ⟨?_, ?_, ?_⟩
  · intro k o o' now op hopen hafter
    exact decision_step hopen now op hafter
  · intro k o hopen hignored
    refine ⟨?_, ?_, unreported_of_ignored config reporter process start ops hopen hignored⟩
    · intro more hactive
      rw [run_append]
      exact ignored_through hopen hignored hactive
    · intro now op reply hop
      obtain ⟨s, hsite, hactive⟩ := site?_of_open? hopen
      rw [reply_of_site hsite]
      exact Site.reply_of_ignored hactive hignored (htells.standing hsite o hactive) hop
  · exact fun e' k' h => h.ignores

/-- A request for a static file, which is not recorded. -/
def imageRun : List (UInt64 × Op) := [(1, .openStrand), (2, .strand 0 (.entry "/logo.png" none))]

/-- A server on an idle strand, with a recorded trace pending. -/
def pendingRun : List (UInt64 × Op) :=
  [(1, .openStrand), (2, .strand 0 (.continued (.sampled
    { trace := "t", segment := "s", span := 3, endpoint := none, correlation := .empty .standard,
      extension := .none })))]

theorem ignored_for_good_image :
    let e := ofTracer (.start (Config.standard "i") .collecting "p" 0)
    let e' := ofTracer (.start (Config.standard "j") .collecting "q" 0)
    ((e.run imageRun).step 3 (.strand 0 (.inject ⟨"", some "1-x", some "y", none⟩))).value.reply =
        .carrier (.ignored "") ∧
      let after := (e'.run pendingRun).step 4 (.strand 0 (.entry "/pay" (some (.ignored ""))))
      ∃ o', after.value.state.open? 0 = some o' ∧ o'.sampled = false := by
  intro e e'
  have hrun : ((e.run imageRun).open? 0).any (fun o => !o.sampled) = true := by decide +kernel
  obtain ⟨o, hopen, hrun⟩ := (Option.any_eq_true _ _).mp hrun
  have hignored : o.sampled = false := by simpa using hrun
  have hrun' : ((e'.run pendingRun).site? 0).any (fun s => s.strand.active.isNone) = true := by
    decide +kernel
  obtain ⟨s', hsite', hrun'⟩ := (Option.any_eq_true _ _).mp hrun'
  obtain ⟨-, hanswers, hchain⟩ := ignored_for_good (Config.standard "i") .collecting "p" 0 imageRun
  have hsent := (hanswers 0 o hopen hignored).2.1 3 (.inject ⟨"", some "1-x", some "y", none⟩) _ rfl
  refine ⟨hsent, hchain _ 0 ?_⟩
  exact .carried (.source hopen hignored) (.inject hsent) hsite'
    (Option.isNone_iff_eq_none.mp hrun') "/pay"

end Engine

end TraceLink
