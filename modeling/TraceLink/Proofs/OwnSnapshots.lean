import TraceLink.Proofs.AwaitedReferences

/-! # Snapshots of the open segment itself

    A snapshot that comes back to the segment which it was taken of is skipped. The order
    of the checks makes this true of a recorded one only: one that says that the segment is
    ignored stops the recording before anybody asks whose it is. But then nothing was
    recorded any more when it was taken, and an ignored segment stays ignored. -/

namespace TraceLink

namespace OpenSegment

/-- Nothing is left to be stopped. -/
theorem ignore_of_ignored {o : OpenSegment} (h : o.sampled = false) : o.ignore.value = o := by
  show { o with sampled := false } = o
  rw [← h]

end OpenSegment

namespace Site

variable {s : Site} {o : OpenSegment}

/-- **A snapshot with the id of the open segment** is skipped, unless it says that the
    segment is ignored while it is not. -/
theorem continued_own (hactive : s.strand.active = some o) {snapshot : Snapshot}
    (hid : snapshot.segment = o.segment.id)
    (hignored : snapshot.isIgnored = true → o.sampled = false) :
    (s.continued snapshot).value = s := by
  have hcurrent : s.strand.isCurrent snapshot = true := by
    rw [Strand.isCurrent, Strand.segmentId?, hactive, Option.map_some, hid, beq_self_eq_true]
  have h := s.continued_spec snapshot
  generalize (s.continued snapshot).value = s' at h ⊢
  cases h with
  | invalid hvalid => rfl
  | pending hidle hvalid =>
    rw [hactive] at hidle
    contradiction
  -- the recording is stopped again, without asking whose snapshot it is
  | ignored ho id =>
    obtain rfl := Option.some.inj (hactive.symm.trans ho)
    rw [OpenSegment.ignore_of_ignored (hignored rfl), withActive_self hactive]
  | own ho hvalid hown => rfl
  | joined ho hvalid hother =>
    rw [hcurrent] at hother
    contradiction

end Site

namespace Engine

/-- **Continuing one's own segment** has no effect. A snapshot is taken of the open segment of
    a strand, and anything happens as long as this segment is open. To continue the snapshot
    on the strand then leaves the whole engine as it is, with nothing pending, and a span that
    is opened with the snapshot is opened as without it. -/
theorem own_snapshot_skipped (config : Config) (reporter : Reporter) (process : String)
    (start t : UInt64) (ops more : List (UInt64 × Op)) {k : Nat} {snapshot : Snapshot} :
    let e := ofTracer (.start config reporter process start)
    let capture : UInt64 × Op := (t, .strand k .capture)
    let later := e.run (ops ++ capture :: more)
    ((e.run ops).step t (.strand k .capture)).value.reply = .snapshot (some snapshot) →
    (e.run ops).ActiveThrough k (capture :: more) →
    (∃ s o, later.site? k = some s ∧ s.strand.active = some o ∧
      o.segment.id = snapshot.segment ∧ s.strand.continuation = none) ∧
    ∀ now, (later.step now (.strand k (.continued snapshot))).value = .of .done later ∧
      ∀ name, (later.step now (.strand k (.innerWith name snapshot))).value =
        (later.step now (.strand k (.inner name))).value := by
  intro e capture later hcaptured hthrough
  obtain ⟨o, hopen⟩ := Option.isSome_iff_exists.mp hthrough.1
  have hsnapshot := capture_of_reply hopen hcaptured
  obtain ⟨o', hopen', hid, hfades⟩ := decision_through hopen hthrough
  rw [← run_append] at hopen'
  obtain ⟨s', hsite', hactive'⟩ := site?_of_open? hopen'
  have hown : o'.segment.id = snapshot.segment := by
    rw [hid, ← hsnapshot, o.segment_capture]
  have hskipped : (s'.continued snapshot).value = s' := by
    -- if the snapshot says that the segment is ignored, it was ignored already then
    refine Site.continued_own hactive' hown.symm fun hignored => hfades ?_
    rwa [← hsnapshot, o.isIgnored_capture, Bool.not_eq_true'] at hignored
  have hpends := ((Strand.pendsIdle_invariant config).of_run reporter process start _ hsite').2
  refine ⟨⟨s', o', hsite', hactive', hown, hpends ?_⟩, fun now => ⟨?_, fun name => ?_⟩⟩
  · rw [hactive']
    rfl
  · rw [step_strand hsite']
    show Outcome.of .done (later.setSite k (s'.continued snapshot).value) = _
    rw [hskipped, setSite_self hsite']
  · rw [step_strand hsite', step_strand hsite']
    show Outcome.map _ (Outcome.of (.frame (s'.innerWith name snapshot now).value.1)
      (s'.innerWith name snapshot now).value.2) = _
    rw [Site.innerWith_of_active hactive', hskipped]
    rfl

/-- A request is linked to a job, renamed, and then ignored, with a span in it that is still
    open. -/
def ordersIgnored : List (UInt64 × Op) :=
  [(3, .strand 0 (.continued (.sampled jobContext))), (4, .strand 0 (.edit [.rename "/pay"])),
    (5, .strand 0 (.inner "run")), (6, .strand 0 (.continued (.ignored "elsewhere")))]

theorem own_snapshot_skipped_ignored :
    let e := ofTracer (.start (Config.standard "i") .collecting "p" 0)
    let later := e.run (ordersOpen ++ (2, .strand 0 .capture) :: ordersIgnored)
    ∃ snapshot, snapshot.isIgnored = false ∧
      ((e.run ordersOpen).step 2 (.strand 0 .capture)).value.reply = .snapshot (some snapshot) ∧
      (later.open? 0).map (fun o => (o.sampled, o.segment.parent)) = some (false, some jobRef) ∧
      (later.step 7 (.strand 0 (.continued snapshot))).value = .of .done later := by
  intro e later
  have hcapture : ((e.run ordersOpen).open? 0).any (fun o => !o.capture.isIgnored) = true := by
    decide +kernel
  obtain ⟨o, hopen, hrecorded⟩ := (Option.any_eq_true _ _).mp hcapture
  obtain ⟨s, hsite, hactive⟩ := site?_of_open? hopen
  have hreply : ((e.run ordersOpen).step 2 (.strand 0 .capture)).value.reply =
      .snapshot (some o.capture) := by
    rw [step_capture hsite, Site.capture, hactive]
    rfl
  have hthrough : (e.run ordersOpen).ActiveThrough 0
      ((2, .strand 0 .capture) :: ordersIgnored) := by decide +kernel
  obtain ⟨-, hskipped⟩ := own_snapshot_skipped (Config.standard "i") .collecting "p" 0 2
    ordersOpen ordersIgnored hreply hthrough
  refine ⟨o.capture, by simpa using hrecorded, hreply, ?_, (hskipped 7).1⟩
  decide +kernel

end Engine

end TraceLink
