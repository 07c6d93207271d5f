import TraceLink.Proofs.Bearings
import TraceLink.Proofs.HeaderRoundTrip
import TraceLink.Proofs.StrandInvariants

/-! # What every open segment keeps

    An open segment can always be linked to: its ids are not empty, and the ids of its
    spans are natural numbers of 31 bits. It names the service and the instance of
    its tracer, its correlation entries keep the limits, and it is marked for the
    analysis exactly as what it sends is.

    These facts hold in every run, whatever carriers and snapshots come from outside,
    since what is read from a carrier can be linked, and what is continued is valid.

    A continuation is pending only while its strand is idle, since the segment that begins
    uses it up. -/

namespace TraceLink

/-! ### Sound segments -/

/-- **Sound bearings** under a configuration. -/
structure Bearings.Sound (c : Config) (b : Bearings) : Prop where
  trace_ne : b.trace ≠ ""
  service : b.service = c.serviceName
  instanceName : b.instanceName = c.instanceName
  correlation : b.correlation.Fits c.correlationLimits
  /-- The segment is marked if and only if what it sends is. -/
  skip : b.skipAnalysis = b.extension.skipAnalysis
  /-- A message gets its time when it is sent. -/
  sentAt : b.extension.sentAt = none

/-- **Sound outline**: the ids are usable in a link header. -/
structure Outline.Sound (x : Outline) : Prop where
  id_ne : x.id ≠ ""
  nextSpan_le : x.nextSpan ≤ OpenSegment.idBound
  id_lt : ∀ m ∈ x.marks, m.origin.id < x.nextSpan

/-- **Sound segment**. -/
structure OpenSegment.Sound (c : Config) (o : OpenSegment) : Prop where
  bearings : o.bearings.Sound c
  outline : o.outline.Sound

/-- **Sound strand**: its open segment is sound, and its pending continuation valid. -/
structure Strand.Sound (c : Config) (s : Strand) : Prop where
  active : ∀ o, s.active = some o → o.Sound c
  continuation : ∀ snapshot, s.continuation = some snapshot → snapshot.isValid = true

namespace Bearings

theorem sound_new (c : Config) {trace : String} (h : trace ≠ "") : (new c trace).Sound c where
  trace_ne := h
  service := rfl
  instanceName := rfl
  correlation := ⟨rfl, Correlation.wellFormed_empty c.correlationLimits⟩
  skip := rfl
  sentAt := rfl

/-- A context from outside may hold any entries, but it has to name a trace. -/
theorem Sound.joined {c : Config} {b : Bearings} (h : b.Sound c) {ref : ParentRef}
    (href : ref.trace ≠ "") (correlation : Correlation) (skip : Bool) :
    (b.joined ref correlation skip).Sound c where
  trace_ne := by
    show (if b.parent.isSome then b.trace else ref.trace) ≠ ""
    split
    · exact h.trace_ne
    · exact href
  service := h.service
  instanceName := h.instanceName
  correlation := Correlation.fits_merge h.correlation correlation
  skip := by
    show (b.skipAnalysis || skip) = (b.extension.skipAnalysis || skip)
    rw [h.skip]
  sentAt := h.sentAt

end Bearings

namespace Outline

variable {x x' : Outline}

theorem sound_new {id : String} (h : id ≠ "") (sampled : Bool) : (new id sampled).Sound where
  id_ne := h
  nextSpan_le := Nat.zero_le _
  id_lt := fun m hm => by contradiction

/-- An outline stays sound if no other span comes onto the stack. -/
theorem Sound.of_marks (h : x.Sound) (hid : x'.id = x.id) (hnext : x'.nextSpan = x.nextSpan)
    (hmarks : ∀ m ∈ x'.marks, ∃ m' ∈ x.marks, m'.origin.id = m.origin.id) : x'.Sound where
  id_ne := by
    rw [hid]
    exact h.id_ne
  nextSpan_le := by
    rw [hnext]
    exact h.nextSpan_le
  id_lt := by
    intro m hm
    obtain ⟨m', hm', heq⟩ := hmarks m hm
    rw [hnext, ← heq]
    exact h.id_lt m' hm'

/-- A recorded span gets the next id, which is below the bound. -/
theorem Sound.opened (h : x.Sound) (c : Config) (kind : SpanKind) (now : UInt64) :
    (x.opened c.capacity kind now).Sound := by
  have hcapacity : c.capacity ≤ OpenSegment.idBound := Nat.min_le_right _ _
  unfold Outline.opened
  split
  · exact h.of_marks rfl rfl fun m hm => ⟨m, hm, rfl⟩
  · split
    · exact h.of_marks rfl rfl fun m hm => ⟨m, hm, rfl⟩
    · next hroom =>
      -- there is room, so the next id is below the bound
      refine ⟨h.id_ne, ?_, ?_⟩
      · show x.nextSpan + 1 ≤ OpenSegment.idBound
        omega
      · intro m hm
        show m.origin.id < x.nextSpan + 1
        rcases List.mem_cons.mp hm with rfl | hm
        · exact Nat.lt_succ_self _
        · have := h.id_lt m hm
          omega

end Outline

namespace OpenSegment

theorem mem_marks_of_stack {o : OpenSegment} {f : Frame} {rest : List Frame} {m : Mark}
    (h : o.stack = f :: rest) (hm : m ∈ (rest.map Frame.mark).reduceOption) :
    m ∈ o.outline.marks := by
  unfold Outline.marks outline
  rw [h]
  rw [List.reduceOption_mem_iff] at hm ⊢
  exact List.mem_cons_of_mem _ hm

/-- Opening a span keeps a segment sound. -/
theorem Sound.openSpan {c : Config} {o : OpenSegment} (h : o.Sound c) (kind : SpanKind)
    (name : String) (now : UInt64) {inbound : Option RemoteContext}
    (htrace : ∀ r, inbound = some r → r.trace ≠ "") :
    (o.openSpan c kind name now inbound).value.2.Sound c where
  bearings := by
    rw [bearings_openSpan]
    cases inbound with
    | none => exact h.bearings
    | some r => exact h.bearings.joined (htrace r rfl) _ _
  outline := by
    rw [outline_openSpan]
    exact h.outline.opened c kind now

theorem Sound.openExit {c : Config} {o : OpenSegment} (h : o.Sound c) (name peer : String)
    (k : Option Carrier) (now : UInt64) : (o.openExit c name peer k now).value.2.2.Sound c where
  bearings := by
    rw [bearings_openExit]
    exact h.bearings
  outline := by
    rw [outline_openExit]
    exact h.outline.opened c .exit now

/-- Preparing the active span changes its mark, but not its id. -/
theorem Sound.prepareAsync {c : Config} {o o' : OpenSegment} (h : o.Sound c) {t t' : Tracer}
    {a : AsyncHandle} (hprepare : o.prepareAsync t = .ok (a, o', t')) : o'.Sound c := by
  rcases prepareAsync_eq_ok hprepare with ⟨-, rfl, -⟩ | ⟨x, rest, n, t₁, hstack, -, -, -, rfl, -⟩
  · exact h
  · refine ⟨h.bearings, h.outline.of_marks rfl rfl ?_⟩
    intro m hm
    rw [marks_of_stack hstack]
    rcases List.mem_cons.mp hm with rfl | hm
    · exact ⟨x.mark, List.mem_cons_self, rfl⟩
    · exact ⟨m, List.mem_cons_of_mem _ hm, rfl⟩

theorem Sound.pop {c : Config} {o o' : OpenSegment} (h : o.Sound c) {expected : Option Int}
    {f : Frame} (hpop : o.pop expected = .ok (f, o')) : o'.Sound c := by
  obtain ⟨rest, hstack, rfl, -⟩ := pop_eq_ok hpop
  refine ⟨h.bearings, h.outline.of_marks rfl rfl ?_⟩
  intro m hm
  exact ⟨m, mem_marks_of_stack hstack hm, rfl⟩

/-- Retiring a span concerns the archive and the ledger only. -/
theorem Retired.sound {c : Config} {o o' : OpenSegment} {t t' : Tracer} {f : Frame}
    {now : UInt64} (h : Retired o t now f o' t') (ho : o.Sound c) : o'.Sound c := by
  cases h with
  | dropped name => exact ho
  | archived hplain => exact ⟨ho.bearings, ho.outline.of_marks rfl rfl fun m hm => ⟨m, hm, rfl⟩⟩
  | deferred hasync hledger =>
    exact ⟨ho.bearings, ho.outline.of_marks rfl rfl fun m hm => ⟨m, hm, rfl⟩⟩
  | stray hasync hledger =>
    exact ⟨ho.bearings, ho.outline.of_marks rfl rfl fun m hm => ⟨m, hm, rfl⟩⟩

end OpenSegment

/-! ### Steps of a strand -/

namespace Site

variable {s s' : Site} {now : UInt64}

/-- Another segment in the place of the open one. -/
theorem sound_withActive {c : Config} (h : s.strand.Sound c) {o : OpenSegment}
    (ho : o.Sound c) : (s.withActive o).strand.Sound c where
  active := fun _ ho' => Option.some.inj ho' ▸ ho
  continuation := h.continuation

/-- What is read from a carrier names a trace. -/
theorem trace_ne_of_readCarrier {k : Carrier} {c : RemoteContext}
    (h : (s.readCarrier k).value = .remote c) : c.trace ≠ "" :=
  (RemoteContext.extract_remote h).1.1

/-- A valid snapshot names a trace. -/
theorem trace_ne_of_isValid {c : Captured} (h : (Snapshot.sampled c).isValid = true) :
    c.trace ≠ "" := by
  unfold Snapshot.isValid at h
  simp only [Bool.and_eq_true, bne_iff_ne] at h
  exact h.1.1

theorem sound_touch (h : s.strand.Sound s.tracer.config) (htouch : Touch now s s') :
    s'.strand.Sound s'.tracer.config := by
  cases htouch with
  | pend snapshot hidle hvalid =>
    refine ⟨h.active, ?_⟩
    intro snapshot' hpending
    obtain rfl := Option.some.inj hpending
    exact hvalid
  | discard => exact ⟨h.active, fun snapshot hnone => by contradiction⟩
  | scratch x => exact ⟨h.active, h.continuation⟩
  | ignore hactive =>
    have ho := h.active _ hactive
    refine sound_withActive h ⟨ho.bearings, ?_⟩
    exact ho.outline.of_marks rfl rfl fun m hm => ⟨m, hm, rfl⟩
  | continueFrom hactive hvalid hother =>
    next o c =>
    have ho := h.active _ hactive
    refine sound_withActive h ⟨?_, ?_⟩
    · rw [OpenSegment.bearings_continueFrom]
      exact ho.bearings.joined (trace_ne_of_isValid hvalid) _ _
    · rw [OpenSegment.outline_continueFrom]
      exact ho.outline
  | receive hactive hread hstack happly =>
    next o o' f f' rest k c =>
    have ho := h.active _ hactive
    have hbearings := OpenSegment.bearings_applyInbound { o with stack := rest } f c now
    rw [happly] at hbearings
    refine sound_withActive h ⟨?_, ?_⟩
    · show o'.bearings.Sound s.tracer.config
      rw [hbearings]
      exact ho.bearings.joined (trace_ne_of_readCarrier hread) _ _
    · rw [OpenSegment.outline_received hstack happly]
      exact ho.outline
  | edit edits hactive hstack =>
    have ho := h.active _ hactive
    refine sound_withActive h ⟨ho.bearings, ?_⟩
    rw [OpenSegment.outline_edited hstack now edits]
    exact ho.outline
  | putCorrelation key value hactive =>
    have ho := h.active _ hactive
    refine sound_withActive h ⟨?_, ?_⟩
    · rw [OpenSegment.bearings_putCorrelation]
      exact { ho.bearings with
        correlation := Correlation.fits_put _ key value ho.bearings.correlation }
    · rw [OpenSegment.outline_putCorrelation]
      exact ho.outline

theorem sound_touches (h : s.strand.Sound s.tracer.config) (htouch : Touches now s s') :
    s'.strand.Sound s'.tracer.config := by
  induction htouch with
  | refl => exact h
  | tail _ hstep ih => exact sound_touch ih hstep

/-- The segment for a new span is sound, whether it is open or begins now. -/
theorem sound_segmentFor {s₂ : Site} {o : OpenSegment} {name : String} {inherited : Inherited}
    (h : s.strand.Sound s.tracer.config)
    (hsegment : (s.segmentFor name inherited now).value = (o, s₂)) :
    o.Sound s.tracer.config ∧ s₂.tracer.config = s.tracer.config ∧
      s₂.strand.Sound s.tracer.config := by
  rcases segmentFor_cases hsegment with ⟨hactive, rfl⟩ | ⟨hidle, rfl, rfl⟩
  · exact ⟨h.active o hactive, rfl, h⟩
  · obtain ⟨hid, trace, htrace, hbearings⟩ := OpenSegment.bearings_start s.tracer
      s.strand.ordinal now name inherited s.strand.continuation
    obtain ⟨⟨id, sampled, hout⟩, -, hconfig⟩ := OpenSegment.outline_start s.tracer
      s.strand.ordinal now name inherited s.strand.continuation
    -- a pending continuation is joined at once, and it is valid
    have hnew := Bearings.sound_new s.tracer.config htrace
    refine ⟨⟨?_, ?_⟩, hconfig, ⟨h.active, fun snapshot hnone => by contradiction⟩⟩
    · rw [hbearings]
      split
      · next c hpending =>
        exact hnew.joined (trace_ne_of_isValid (h.continuation _ hpending)) _ _
      · exact hnew
    · rw [hout]
      refine Outline.sound_new ?_ sampled
      intro hempty
      exact hid ((congrArg Outline.id hout).trans hempty)

/-- Every operation of a strand keeps it sound. -/
theorem sound_effect {op : StrandOp} {outcome : Outcome Site}
    (h : s.strand.Sound s.tracer.config) (heffect : Effect now s op outcome) :
    outcome.state.strand.Sound s.tracer.config := by
  cases heffect with
  | refused e hop => exact h
  | touched hop hstop hprepare htouch =>
    have hsound := sound_touches h htouch
    rwa [(outline?_touches htouch).1] at hsound
  | opened hop hread htouch hsegment hopen =>
    next kind name inbound s₁ s₂ o o' f =>
    obtain ⟨ho, hconfig, hs₂⟩ := sound_segmentFor (sound_touches h htouch) hsegment
    rw [(outline?_touches htouch).1] at ho hconfig hs₂
    -- a context that is joined was read from a carrier, so it names a trace
    have htrace : ∀ r, (inheritedFrom inbound).2 = some r → r.trace ≠ "" := by
      intro r hr
      cases inbound with
      | absent => contradiction
      | ignored => contradiction
      | remote c =>
        obtain rfl := Option.some.inj hr
        obtain ⟨k, hk⟩ := hread c rfl
        exact trace_ne_of_readCarrier hk
    have ho' := ho.openSpan kind name now htrace
    rw [← hconfig, hopen] at ho'
    exact sound_withActive hs₂ (hconfig ▸ ho')
  | sent hsegment hopen =>
    next name peer k k' s₂ o o' f =>
    obtain ⟨ho, hconfig, hs₂⟩ := sound_segmentFor h hsegment
    have ho' := ho.openExit name peer k now
    rw [← hconfig, hopen] at ho'
    exact sound_withActive hs₂ (hconfig ▸ ho')
  | prepared hactive hprepare =>
    exact sound_withActive h ((h.active _ hactive).prepareAsync hprepare)
  | stopped hactive hpop hretire hopen =>
    next expected o o₁ o' f t =>
    have hretired := OpenSegment.retired_retire o₁ s.tracer f now
    rw [hretire] at hretired
    exact sound_withActive h (hretired.sound ((h.active _ hactive).pop hpop))
  | ended hactive hpop hretire hlast hfinish =>
    exact ⟨fun o hnone => by contradiction, h.continuation⟩

end Site

/-- **Soundness** is an invariant of strands. -/
theorem Strand.sound_invariant (c : Config) : Strand.Invariant c (Strand.Sound c) where
  new := fun n => ⟨fun o hnone => by contradiction, fun snapshot hnone => by contradiction⟩
  step := by
    intro s now op hconfig hsound
    subst hconfig
    exact Site.sound_effect hsound (s.effect_of_step now op)

/-! ### Pending continuations -/

/-- A continuation is pending only while the strand is idle. -/
def Strand.PendsIdle (s : Strand) : Prop := s.active.isSome → s.continuation = none

namespace Site

variable {s s' : Site} {now : UInt64}

theorem pendsIdle_touch (h : s.strand.PendsIdle) (htouch : Touch now s s') :
    s'.strand.PendsIdle := by
  cases htouch with
  | pend snapshot hidle hvalid =>
    intro hactive
    rw [show s.strand.active = none from hidle] at hactive
    contradiction
  | discard => exact fun _ => rfl
  | scratch x => exact h
  | ignore hactive => exact fun _ => h (Option.isSome_of_mem hactive)
  | continueFrom hactive hvalid hother => exact fun _ => h (Option.isSome_of_mem hactive)
  | receive hactive hread hstack happly => exact fun _ => h (Option.isSome_of_mem hactive)
  | edit edits hactive hstack => exact fun _ => h (Option.isSome_of_mem hactive)
  | putCorrelation key value hactive => exact fun _ => h (Option.isSome_of_mem hactive)

theorem pendsIdle_touches (h : s.strand.PendsIdle) (htouch : Touches now s s') :
    s'.strand.PendsIdle := by
  induction htouch with
  | refl => exact h
  | tail _ hstep ih => exact pendsIdle_touch ih hstep

/-- Nothing is pending any more when a span is opened. -/
theorem continuation_segmentFor {s₂ : Site} {o : OpenSegment} {name : String}
    {inherited : Inherited} (h : s.strand.PendsIdle)
    (hsegment : (s.segmentFor name inherited now).value = (o, s₂)) :
    s₂.strand.continuation = none := by
  rcases segmentFor_cases hsegment with ⟨hactive, rfl⟩ | ⟨-, -, rfl⟩
  · exact h (Option.isSome_of_mem hactive)
  · rfl

theorem pendsIdle_effect {op : StrandOp} {outcome : Outcome Site} (h : s.strand.PendsIdle)
    (heffect : Effect now s op outcome) : outcome.state.strand.PendsIdle := by
  cases heffect with
  | refused e hop => exact h
  | touched hop hstop hprepare htouch => exact pendsIdle_touches h htouch
  | opened hop hread htouch hsegment hopen =>
    have hnone := continuation_segmentFor (pendsIdle_touches h htouch) hsegment
    exact fun _ => hnone
  | sent hsegment hopen =>
    have hnone := continuation_segmentFor h hsegment
    exact fun _ => hnone
  | prepared hactive hprepare => exact fun _ => h (Option.isSome_of_mem hactive)
  | stopped hactive hpop hretire hopen => exact fun _ => h (Option.isSome_of_mem hactive)
  | ended hactive hpop hretire hlast hfinish => exact fun hnone => by contradiction

end Site

/-- **Pending only while idle** is an invariant of strands. -/
theorem Strand.pendsIdle_invariant (c : Config) : Strand.Invariant c Strand.PendsIdle where
  new := fun _ _ => rfl
  step := fun s now op _ h => Site.pendsIdle_effect h (s.effect_of_step now op)

end TraceLink
