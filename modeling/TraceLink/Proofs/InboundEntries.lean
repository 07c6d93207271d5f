import TraceLink.Proofs.AwaitedReferences

/-! # Two ways to read an inbound carrier

    An entry span is opened below the context in a carrier, or it is opened by itself and the
    context is extracted while it is the active span. In the first way the context is applied
    before the frame comes onto the stack, in the second way the frame is taken off for it and
    put back.

    While a segment is open the two ways leave the same state, whatever the carrier says and
    whatever the segment has been through. Correlation entries that become tags of the span
    are the exception: they are put on when it is opened, so the second way misses those that
    come with the context. -/

namespace TraceLink

namespace OpenSegment

/-- Without tag keys, no correlation entry becomes a tag. -/
theorem autoTag_nil (o : OpenSegment) (f : Frame) : (o.autoTag [] f).value = f := by
  cases f with
  | recorded s => rfl
  | placeholder name => rfl

theorem receive_push (o : OpenSegment) (f : Frame) (r : RemoteContext) (now : UInt64) :
    ∃ step, (o.push f).receive r now = .ok step ∧
      step.value = (o.applyInbound f r now).value.2.push (o.applyInbound f r now).value.1 :=
  ⟨_, rfl, rfl⟩

/-- **A context that is received by a new span** leaves what it leaves when the span is opened
    below it. -/
theorem receive_openSpan {c : Config} (hkeys : c.autoTagKeys = []) (o : OpenSegment)
    (kind : SpanKind) (name : String) (now : UInt64) (r : RemoteContext) :
    ∃ step, (o.openSpan c kind name now none).value.2.receive r now = .ok step ∧
      step.value = (o.openSpan c kind name now (some r)).value.2 := by
  unfold openSpan
  simp only [Logged.bind_value, Logged.pure_value, hkeys, autoTag_nil]
  -- the frame is new in both ways, and the segment below it is the same
  exact receive_push _ _ r now

theorem active?_openSpan (c : Config) (o : OpenSegment) (kind : SpanKind) (name : String)
    (now : UInt64) (inbound : Option RemoteContext) :
    (o.openSpan c kind name now inbound).value.2.active? =
      some (o.openSpan c kind name now inbound).value.1 := by
  unfold openSpan
  cases inbound with
  | none => rfl
  | some r => rfl

end OpenSegment

namespace Site

variable {s : Site} {o : OpenSegment}

/-- An entry span that is opened in the open segment. -/
theorem entry_of_active (hactive : s.strand.active = some o) (name : String)
    (k : Option Carrier) (now : UInt64) :
    let opened := (o.openSpan s.tracer.config .entry name now
      (inheritedFrom (s.inboundOf k)).2).value
    (s.entry name k now).value = (opened.1, s.withActive opened.2) := by
  rw [entry_value]
  unfold openSpan
  simp only [Logged.bind_value, Logged.pure_value, segmentFor_of_active _ _ _ hactive]

theorem active?_entry (hactive : s.strand.active = some o) (name : String) (k : Option Carrier)
    (now : UInt64) :
    ∃ o', (s.entry name k now).value.2.strand.active = some o' ∧
      o'.active? = some (s.entry name k now).value.1 := by
  rw [entry_of_active hactive]
  exact ⟨_, rfl, OpenSegment.active?_openSpan _ o .entry name now _⟩

/-- **Extracting from the carrier** once the entry span is open is never refused, and leaves
    what opening the span with the carrier leaves. -/
theorem receive_entry (hactive : s.strand.active = some o)
    (hkeys : s.tracer.config.autoTagKeys = []) (name : String) (k : Carrier) (now : UInt64) :
    let opened := (s.entry name none now).value.2
    ∃ step, opened.receive (opened.readCarrier k).value now = .ok step ∧
      step.value = (s.entry name (some k) now).value.2 := by
  have hread : (s.withActive (o.openSpan s.tracer.config .entry name now none).value.2).readCarrier
      k = s.readCarrier k := rfl
  rw [entry_of_active hactive, entry_of_active hactive]
  simp only [inboundOf, inheritedFrom, hread]
  cases (s.readCarrier k).value with
  | absent => exact ⟨_, rfl, rfl⟩
  | ignored => exact ⟨_, rfl, rfl⟩
  | remote r =>
    obtain ⟨step, hreceive, hvalue⟩ := o.receive_openSpan hkeys .entry name now r
    refine ⟨(s.withActive o).withActive <$> step, ?_, ?_⟩
    · exact receive_remote_eq_ok.mpr ⟨_, rfl, step, hreceive, rfl⟩
    · rw [Logged.map_value, hvalue]
      rfl

end Site

namespace Engine

/-- **Two ways to receive**: on a strand with an open segment, of a tracer that makes no tags
    of correlation entries, an entry span that is opened with a carrier and one that is opened
    without and then extracts from the carrier leave the same state of the whole engine.
    Neither is refused, and the span that is answered first is the active one after both. -/
theorem entry_then_extract (e : Engine) {k : Nat} {s : Site} (hsite : e.site? k = some s)
    (hactive : s.strand.isActive) (hkeys : s.tracer.config.autoTagKeys = []) (now : UInt64)
    (name : String) (c : Carrier) :
    let one := (e.step now (.strand k (.entry name (some c)))).value
    let opened := (e.step now (.strand k (.entry name none))).value
    let two := (opened.state.step now (.strand k (.extract c))).value
    two.state = one.state ∧ two.reply = .flag true ∧
    one.handed = none ∧ opened.handed = none ∧ two.handed = none ∧
    ∃ f o, one.reply = .frame f ∧ one.state.open? k = some o ∧ o.active? = some f := by
  obtain ⟨o, ho⟩ := Option.isSome_iff_exists.mp hactive
  intro one opened two
  let s₁ := (s.entry name (some c) now).value.2
  let s₂ := (s.entry name none now).value.2
  have hone : one = (Outcome.of (.frame (s.entry name (some c) now).value.1) s₁).map
      (e.setSite k) := step_strand hsite now _
  have hopened : opened = (Outcome.of (.frame (s.entry name none now).value.1) s₂).map
      (e.setSite k) := step_strand hsite now _
  obtain ⟨step, hreceive, hvalue⟩ := Site.receive_entry ho hkeys name c now
  have hextracted : (s₂.step now (.extract c)).value = .of (.flag true) s₁ := by
    show (Outcome.ofAttempt .usage ((s₂.receive (s₂.readCarrier c).value now).map _)).value = _
    rw [hreceive]
    exact congrArg (Outcome.of (.flag true)) hvalue
  have hsite₂ : opened.state.site? k = some s₂ := by
    rw [hopened]
    exact site?_setSite hsite s₂
  have htwo : two = (Outcome.of (.flag true) s₁).map (opened.state.setSite k) := by
    rw [← hextracted]
    exact step_strand hsite₂ now _
  refine ⟨?_, congrArg Outcome.reply htwo, congrArg Outcome.handed hone,
    congrArg Outcome.handed hopened, congrArg Outcome.handed htwo, ?_⟩
  · rw [htwo, hone, hopened]
    exact e.setSite_setSite k s₂ s₁
  · obtain ⟨o', hactive', htop⟩ := Site.active?_entry ho name (some c) now
    refine ⟨_, o', congrArg Outcome.reply hone, ?_, htop⟩
    rw [hone]
    exact (open?_of_site? (site?_setSite hsite s₁)).trans hactive'

/-- A request that continues a job of another strand: its segment has a parent already, and a
    reference waits for the next span. -/
def jobContinued : List (UInt64 × Op) :=
  ordersOpen ++ [(2, .strand 0 (.continued (.sampled jobContext)))]

theorem entry_then_extract_linked :
    let e := (ofTracer (.start (Config.standard "i") .collecting "p" 0)).run jobContinued
    let c := lateContext.inject (.empty "")
    let opened := (e.step 3 (.strand 0 (.entry "/pay" none))).value
    let two := (opened.state.step 3 (.strand 0 (.extract c))).value
    two.reply = .flag true ∧
    (two.state.open? 0).map (fun o => (o.segment.parent, o.pendingRef)) = some (some jobRef, none) ∧
    (two.state.open? 0).map (fun o => o.active?.bind fun f => f.span?.map fun x =>
      (x.id, x.ref, x.skipAnalysis)) =
        some (some (1, some (OpenSegment.remoteRef lateContext), true)) := by
  intro e c opened two
  have hthere : (e.site? 0).any (fun s =>
      s.strand.isActive && s.tracer.config.autoTagKeys == []) = true := by decide +kernel
  obtain ⟨s, hsite, hs⟩ := (Option.any_eq_true _ _).mp hthere
  obtain ⟨hactive, hkeys⟩ := Bool.and_eq_true_iff.mp hs
  obtain ⟨hstate, hreply, -⟩ :=
    entry_then_extract e hsite hactive (beq_iff_eq.mp hkeys) 3 "/pay" c
  refine ⟨hreply, ?_⟩
  rw [show two.state = _ from hstate]
  decide +kernel

end Engine

end TraceLink
