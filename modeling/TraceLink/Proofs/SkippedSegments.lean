import TraceLink.Proofs.AwaitedReferences

/-! # Segments that are left out of the analysis

    A segment is left out of the analysis as soon as a context is applied to it that asks
    for this: one that comes with an entry span, one that is extracted, a snapshot that is
    continued, or the continuation that is pending when the segment begins. The request is
    granted even if the segment has another parent already, and it is never taken back.

    From then on the request stands in all that the segment hands on: in the spans that it
    records, in the carriers that it fills, and in the snapshots that are taken of it. -/

namespace TraceLink

/-! ### Requests -/

/-- The extension that comes with an inbound context. -/
def Inbound.extension? : Inbound → Option Extension
  | .remote c => some c.extension
  | _ => none

/-- The extension that comes with a snapshot. There is none in an ignored one. -/
def Snapshot.extension? : Snapshot → Option Extension
  | .sampled c => some c.extension
  | .ignored _ => none

namespace Extension

/-- **Latching**: a flag before and after contexts with these extensions were applied. Each
    of them can set it, and none takes it back. -/
def Latches (es : List Extension) (before after : Bool) : Prop :=
  after = (before || es.any (·.skipAnalysis))

variable {es es' : List Extension} {x : Extension} {b b' b'' : Bool}

theorem Latches.refl (b : Bool) : Latches [] b b := (Bool.or_false b).symm

theorem Latches.of_eq (h : b' = b) : Latches [] b b' := h ▸ .refl b

theorem Latches.one (b : Bool) (x : Extension) : Latches [x] b (b || x.skipAnalysis) := by
  unfold Latches
  rw [List.any_cons, List.any_nil, Bool.or_false]

theorem Latches.trans (h : Latches es b b') (h' : Latches es' b' b'') :
    Latches (es ++ es') b b'' := by
  unfold Latches at h h' ⊢
  rw [h', h, List.any_append, Bool.or_assoc]

theorem Latches.kept (h : Latches es b b') (hb : b = true) : b' = true := by
  unfold Latches at h
  rw [h, hb, Bool.true_or]

theorem Latches.set (h : Latches es b b') (hx : x ∈ es) (hskip : x.skipAnalysis = true) :
    b' = true := by
  unfold Latches at h
  rw [h, List.any_eq_true.mpr ⟨x, hx, hskip⟩, Bool.or_true]

end Extension

open Extension (Latches)

namespace Site

/-- The extension in the pending continuation, which a segment takes when it begins. -/
def pendingExtension? (s : Site) : Option Extension :=
  if s.strand.isActive then none else s.strand.continuation.bind Snapshot.extension?

/-- The extension in a snapshot that is continued in the open segment. One that is invalid
    or of the segment itself is skipped. -/
def continuedExtension? (s : Site) (snapshot : Snapshot) : Option Extension :=
  if s.strand.isActive && snapshot.isValid && !s.strand.isCurrent snapshot then
    snapshot.extension?
  else none

/-- The extensions in the contexts that an operation applies to the segment of the strand,
    in order. -/
def extensions (s : Site) : StrandOp → List Extension
  | .entry _ k => s.pendingExtension?.toList ++ (s.inboundOf k).extension?.toList
  | .entryFrom _ headers =>
    s.pendingExtension?.toList ++
      (s.inboundOf (some (.readFrom headers s.label))).extension?.toList
  | .exit .. | .inner _ => s.pendingExtension?.toList
  | .innerWith _ snapshot =>
    if s.strand.isActive then (s.continuedExtension? snapshot).toList
    else if snapshot.isValid then snapshot.extension?.toList
    else []
  | .continued snapshot => (s.continuedExtension? snapshot).toList
  | .extract k => if s.strand.isActive then (s.readCarrier k).value.extension?.toList else []
  | _ => []

/-- The segment of the strand is left out of the analysis. One that is still to begin is
    not. -/
def skips (s : Site) : Bool := s.strand.active.any (·.segment.skipAnalysis)

variable {s s' : Site} {now : UInt64} {o : OpenSegment}

theorem skips_of_active (h : s.strand.active = some o) : s.skips = o.segment.skipAnalysis := by
  rw [skips, h, Option.any_some]

theorem skips_of_idle (h : s.strand.active = none) : s.skips = false := by
  rw [skips, h, Option.any_none]

theorem skips_congr (h : s'.strand.active = s.strand.active) : s'.skips = s.skips := by
  rw [skips, skips, h]

theorem pendingExtension?_of_active (h : s.strand.active = some o) :
    s.pendingExtension? = none := by
  rw [pendingExtension?, Strand.isActive, h, Option.isSome_some, if_pos rfl]

theorem pendingExtension?_of_idle (h : s.strand.active = none) :
    s.pendingExtension? = s.strand.continuation.bind Snapshot.extension? := by
  rw [pendingExtension?, Strand.isActive, h, Option.isSome_none, if_neg Bool.false_ne_true]

end Site

/-! ### What contexts do to the flag of a segment -/

namespace OpenSegment

variable {o o' : OpenSegment}

/-- The flag depends on the bearings only. -/
theorem latches_of_same (h : o'.bearings = o.bearings) :
    Latches [] o.segment.skipAnalysis o'.segment.skipAnalysis := by
  exact .of_eq (congrArg Bearings.skipAnalysis h)

/-- The context may be refused as a parent, but its flag is taken. -/
theorem latches_of_joined {b : Bearings} {ref : ParentRef} {correlation : Correlation}
    {x : Extension} (h : o.bearings = b.joined ref correlation x.skipAnalysis) :
    Latches [x] b.skipAnalysis o.segment.skipAnalysis := by
  have hflag : o.segment.skipAnalysis = (b.skipAnalysis || x.skipAnalysis) :=
    congrArg Bearings.skipAnalysis h
  rw [hflag]
  exact .one _ x

theorem latches_start (t : Tracer) (ordinal now : UInt64) (name : String)
    (inherited : Inherited) (continuation : Option Snapshot) :
    Latches (continuation.bind Snapshot.extension?).toList false
      (start t ordinal now name inherited continuation).value.1.segment.skipAnalysis := by
  obtain ⟨-, trace, -, hbearings⟩ := bearings_start t ordinal now name inherited continuation
  have hnew (h : (start t ordinal now name inherited continuation).value.1.bearings =
      Bearings.new t.config trace) :
      (start t ordinal now name inherited continuation).value.1.segment.skipAnalysis = false :=
    congrArg Bearings.skipAnalysis h
  cases continuation with
  | none =>
    rw [hnew hbearings]
    exact .refl _
  | some snapshot =>
    cases snapshot with
    | ignored segment =>
      rw [hnew hbearings]
      exact .refl _
    | sampled c => exact latches_of_joined hbearings

theorem latches_openSpan (c : Config) (o : OpenSegment) (kind : SpanKind) (name : String)
    (now : UInt64) (inbound : Option RemoteContext) :
    Latches (inbound.map (·.extension)).toList o.segment.skipAnalysis
      (o.openSpan c kind name now inbound).value.2.segment.skipAnalysis := by
  have hbearings := bearings_openSpan c o kind name now inbound
  cases inbound with
  | none => exact latches_of_same hbearings
  | some r => exact latches_of_joined hbearings

/-- A span that is retired leaves the flag. -/
theorem Retired.skipAnalysis {t t' : Tracer} {now : UInt64} {f : Frame}
    (h : Retired o t now f o' t') : o'.segment.skipAnalysis = o.segment.skipAnalysis := by
  cases h with
  | dropped name => rfl
  | archived hplain => rfl
  | deferred hasync hledger => rfl
  | stray hasync hledger => rfl

end OpenSegment

namespace Site

variable {s s' : Site} {now : UInt64} {o : OpenSegment}

/-! ### Opening spans -/

theorem latches_segmentFor {s₂ : Site} {name : String} {inherited : Inherited}
    (h : (s.segmentFor name inherited now).value = (o, s₂)) :
    Latches s.pendingExtension?.toList s.skips o.segment.skipAnalysis := by
  rcases segmentFor_cases h with ⟨hactive, -⟩ | ⟨hidle, rfl, -⟩
  · rw [pendingExtension?_of_active hactive, skips_of_active hactive]
    exact .refl _
  · rw [pendingExtension?_of_idle hidle, skips_of_idle hidle]
    exact OpenSegment.latches_start s.tracer s.strand.ordinal now name inherited _

theorem latches_openSpan (s : Site) (kind : SpanKind) (name : String) (inbound : Inbound)
    (now : UInt64) :
    Latches (s.pendingExtension?.toList ++ inbound.extension?.toList) s.skips
      (s.openSpan kind name inbound now).value.2.skips := by
  obtain ⟨o, s₂, hsegment, hvalue⟩ := s.openSpan_value name now kind inbound
  rw [hvalue]
  have hopen := OpenSegment.latches_openSpan s₂.tracer.config o kind name now
    (inheritedFrom inbound).2
  have hextension : (inheritedFrom inbound).2.map (·.extension) = inbound.extension? := by
    cases inbound <;> rfl
  rw [hextension] at hopen
  exact (latches_segmentFor hsegment).trans hopen

theorem latches_inner (s : Site) (name : String) (now : UInt64) :
    Latches s.pendingExtension?.toList s.skips
      (s.openSpan .inner name .absent now).value.2.skips := by
  have hopen := s.latches_openSpan .inner name .absent now
  rw [show Inbound.extension? .absent = none from rfl, Option.toList_none,
    List.append_nil] at hopen
  exact hopen

theorem latches_exit (s : Site) (name peer : String) (k : Option Carrier) (now : UInt64) :
    Latches s.pendingExtension?.toList s.skips (s.exit name peer k now).value.2.2.skips := by
  obtain ⟨o, s₂, hsegment, hvalue⟩ := s.exit_value name now peer k
  rw [hvalue]
  have hopen := OpenSegment.latches_of_same
    (OpenSegment.bearings_openExit s₂.tracer.config o name peer k now)
  have htrans := (latches_segmentFor hsegment).trans hopen
  rw [List.append_nil] at htrans
  exact htrans

/-! ### Contexts for the open segment -/

theorem latches_continued (s : Site) (snapshot : Snapshot) :
    Latches (s.continuedExtension? snapshot).toList s.skips (s.continued snapshot).value.skips := by
  have hskipped (h : (s.strand.isActive && snapshot.isValid && !s.strand.isCurrent snapshot) =
      false) : s.continuedExtension? snapshot = none := by
    rw [continuedExtension?, h, if_neg Bool.false_ne_true]
  have h := s.continued_spec snapshot
  generalize (s.continued snapshot).value = s' at h ⊢
  cases h with
  | invalid hvalid =>
    rw [hskipped (by rw [hvalid, Bool.and_false, Bool.false_and])]
    exact .refl _
  | pending hidle hvalid =>
    -- the snapshot waits for the segment that begins next
    rw [hskipped (by rw [Strand.isActive, hidle]; rfl), skips_congr (s := s) (by rfl)]
    exact .refl _
  | ignored hactive id =>
    have hnone : s.continuedExtension? (.ignored id) = none := ite_self _
    rw [hnone, skips_of_active hactive]
    exact .refl _
  | own hactive hvalid hown =>
    rw [hskipped (by rw [hown, Bool.not_true, Bool.and_false])]
    exact .refl _
  | joined hactive hvalid hother =>
    next o c =>
    rw [continuedExtension?, Strand.isActive, hactive, hvalid, hother, skips_of_active hactive]
    exact OpenSegment.latches_of_joined (OpenSegment.bearings_continueFrom o c)

theorem latches_innerWith (s : Site) (name : String) (snapshot : Snapshot) (now : UInt64) :
    Latches (s.extensions (.innerWith name snapshot)) s.skips
      (s.innerWith name snapshot now).value.2.skips := by
  rw [extensions, Strand.isActive]
  cases hactive : s.strand.active with
  | some o =>
    rw [innerWith_of_active hactive, Option.isSome_some, if_pos rfl]
    have hnext := (s.continued snapshot).value.latches_inner name now
    -- the segment stays open, so nothing is pending for the span
    obtain ⟨o', hactive'⟩ := Option.ne_none_iff_exists'.mp fun hidle =>
      absurd ((s.isActive_continued snapshot).mp hidle) (by rw [hactive]; simp)
    rw [pendingExtension?_of_active hactive'] at hnext
    have htrans := (s.latches_continued snapshot).trans hnext
    rw [Option.toList_none, List.append_nil] at htrans
    exact htrans
  | none =>
    rw [innerWith_of_idle hactive, Option.isSome_none, if_neg Bool.false_ne_true]
    -- only the snapshot itself is pending when the segment begins
    have hbegun (s' : Site) (hidle : s'.strand.active = none) :
        Latches (s'.strand.continuation.bind Snapshot.extension?).toList s.skips
          (s'.openSpan .inner name .absent now).value.2.skips := by
      have hnext := s'.latches_inner name now
      rw [pendingExtension?_of_idle hidle, skips_of_idle hidle] at hnext
      rw [skips_of_idle hactive]
      exact hnext
    cases hvalid : snapshot.isValid with
    | false =>
      rw [continued_of_invalid hvalid]
      exact hbegun { s with strand := { s.strand with continuation := none } } hactive
    | true =>
      rw [continued_of_idle (by exact hactive) hvalid]
      exact hbegun { s with strand := { s.strand with continuation := some snapshot } } hactive

/-- A context is read from the carrier as long as a span is open. -/
theorem latches_extract (s : Site) (k : Carrier) (now : UInt64) (hstanding : s.strand.Standing) :
    Latches (s.extensions (.extract k)) s.skips
      (s.step now (.extract k)).value.state.skips := by
  show Latches _ _ (Site.skips (Outcome.ofAttempt .usage _).value.state)
  rw [extensions, Strand.isActive]
  cases hactive : s.strand.active with
  | none =>
    rw [receive_of_idle hactive]
    exact .refl _
  | some o =>
    obtain ⟨f, rest, hframes⟩ := List.exists_cons_of_ne_nil (hstanding o hactive)
    rw [Option.isSome_some, if_pos rfl]
    cases hread : (s.readCarrier k).value with
    | absent =>
      rw [receive, active_eq_ok.mpr hactive]
      exact .refl _
    | ignored =>
      rw [receive, active_eq_ok.mpr hactive]
      exact .refl _
    | remote c =>
      obtain ⟨step, hreceive, hvalue⟩ := receive_of_stack hframes c now
      have hbearings := OpenSegment.bearings_applyInbound { o with stack := rest } f c now
      have hjoined : step.value.bearings = o.bearings.joined
          (OpenSegment.remoteRef c) c.correlation c.extension.skipAnalysis := by
        rw [hvalue]
        exact hbearings
      have hlatches := OpenSegment.latches_of_joined hjoined
      rw [receive_remote_eq_ok.mpr ⟨o, hactive, _, hreceive, rfl⟩, skips_of_active hactive]
      exact hlatches

/-! ### Every step -/

theorem latches_of_active (h : s'.strand.active = s.strand.active) :
    Latches [] s.skips s'.skips := .of_eq (skips_congr h)

/-- A span is stopped, and others stay open. -/
theorem latches_stop (s : Site) (now : UInt64) (expected : Option Int) {o' : OpenSegment}
    (hafter : (s.step now (.stop expected)).value.state.strand.active = some o') :
    Latches [] s.skips o'.segment.skipAnalysis := by
  have heffect := s.effect_of_step now (.stop expected)
  generalize (s.step now (.stop expected)).value = outcome at heffect hafter
  cases heffect with
  | refused e hop =>
    rw [skips_of_active hafter]
    exact .refl _
  | touched hop hstop => exact absurd rfl (hstop expected)
  | opened hop => contradiction
  | stopped hactive hpop hretire hopen =>
    next o o₁ o₂ f t =>
    obtain ⟨rest, -, rfl, -⟩ := OpenSegment.pop_eq_ok hpop
    have hretired := OpenSegment.retired_retire { o with stack := rest } s.tracer f now
    rw [hretire] at hretired
    obtain rfl := Option.some.inj hafter
    rw [skips_of_active hactive, hretired.skipAnalysis]
    exact .refl _
  | ended hactive hpop hretire hlast hfinish => contradiction

theorem latches_prepareAsync (s : Site) (now : UInt64) :
    Latches [] s.skips (s.step now .prepareAsync).value.state.skips := by
  have heffect := s.effect_of_step now .prepareAsync
  generalize (s.step now .prepareAsync).value = outcome at heffect
  cases heffect with
  | refused e hop => exact .refl _
  | touched hop hstop hprepare => exact absurd rfl hprepare
  | opened hop => contradiction
  | prepared hactive hprepare =>
    rw [skips_of_active hactive]
    rcases OpenSegment.prepareAsync_eq_ok hprepare with
      ⟨-, rfl, -⟩ | ⟨-, -, -, -, -, -, -, -, rfl, -⟩
    · exact .refl _
    · exact .refl _

/-- **A step of a strand** sets the flag of its segment if one of the contexts asks for it,
    and changes it in no other way. -/
theorem latches_step (s : Site) (now : UInt64) (op : StrandOp) (hstanding : s.strand.Standing)
    {o' : OpenSegment} (hafter : (s.step now op).value.state.strand.active = some o') :
    Latches (s.extensions op) s.skips o'.segment.skipAnalysis := by
  -- only a stop can leave no segment open
  by_cases hstop : ∃ expected, op = .stop expected
  · obtain ⟨expected, rfl⟩ := hstop
    exact s.latches_stop now expected hafter
  rw [← skips_of_active hafter]
  cases op with
  | entry name k =>
    have hopen := s.latches_openSpan .entry name (s.inboundOf k) now
    rw [← entry_value] at hopen
    exact hopen
  | entryFrom name headers =>
    have hopen := s.latches_openSpan .entry name
      (s.inboundOf (some (.readFrom headers s.label))) now
    rw [← entry_value] at hopen
    exact hopen
  | exit name peer k => exact s.latches_exit name peer k now
  | inner name => exact s.latches_inner name now
  | innerWith name snapshot => exact s.latches_innerWith name snapshot now
  | stop expected => exact absurd ⟨expected, rfl⟩ hstop
  | capture => exact latches_of_active rfl
  | continued snapshot => exact s.latches_continued snapshot
  | discard =>
    apply latches_of_active
    show s.discard.value.2.strand.active = _
    rw [discard_value]
  | inject k => exact latches_of_active (congrArg (·.strand.active) (s.state_inject now k))
  | extract k => exact s.latches_extract k now hstanding
  | active => exact latches_of_active (congrArg (·.strand.active) (s.state_active now))
  | edit edits =>
    rw [show (s.step now (.edit edits)).value.state.skips = s.skips from
      Outcome.state_ofAttempt skips (s.atomic_edit now edits) fun step hstep => by
        obtain ⟨o, f, rest, hactive, -, hedited⟩ := edit_eq_ok hstep
        refine (congrArg skips hedited).trans ?_
        rw [skips_of_active hactive]
        rfl]
    exact .refl _
  | prepareAsync => exact s.latches_prepareAsync now
  | putCorrelation key value =>
    show Latches [] s.skips (s.putCorrelation key value).value.2.skips
    unfold putCorrelation
    cases hactive : s.strand.active with
    | none => exact .refl _
    | some o =>
      have hflag : (o.putCorrelation s.tracer.config.autoTagKeys key
          value).value.2.segment.skipAnalysis = o.segment.skipAnalysis :=
        congrArg Bearings.skipAnalysis (o.bearings_putCorrelation _ key value)
      rw [skips_of_active hactive, ← hflag]
      exact .refl _
  | scratch op => exact latches_of_active rfl
  | reset =>
    apply latches_of_active
    show (discard _).value.2.strand.active = _
    rw [discard_value]

end Site

/-! ### The flag as an aspect -/

/-- The aspect that shows whether a segment is left out of the analysis. -/
def Segment.skipAspect : Aspect Bool where
  running := fun o _ => o.segment.skipAnalysis
  ended := fun g _ => g.skipAnalysis
  first := fun _ _ => false

theorem Segment.evolves_skipAspect : skipAspect.Evolves Site.extensions Latches where
  refl := .refl
  begun := by
    intro s now op o hidle hstop hprepare hafter
    have hlatches := s.latches_step now op (fun o ho => by rw [hidle] at ho; contradiction) hafter
    rw [Site.skips_of_idle hidle] at hlatches
    exact hlatches
  stepped := by
    intro s now op o o' led hactive hstack hstop hprepare hafter
    have hlatches := s.latches_step now op
      (fun o₁ ho₁ => Option.some.inj (hactive.symm.trans ho₁) ▸ hstack) hafter
    rw [Site.skips_of_active hactive] at hlatches
    exact hlatches
  prepared := by
    intro s now o o' hactive hbound hafter
    have hlatches := s.latches_prepareAsync now
    rw [Site.skips_of_active hactive, Site.skips_of_active hafter] at hlatches
    exact hlatches
  stopped := by
    apply Aspect.stopped_of_retired (R := Latches []) .refl .trans
    · intro o o' t t' f rest now hretired hstack hbound
      exact .of_eq hretired.skipAnalysis
    · intro o t t' due hending hlast hparked
      refine ⟨fun g hg => ?_, fun g hg => ?_⟩
      · obtain rfl := hending.handed_eq hg
        exact .refl _
      · obtain ⟨rfl, -⟩ := hending.parked_eq hparked hg
        exact .refl _
  handled := by
    intro led id now op
    have hrelayed := led.relayed_handle id now op
    generalize (led.handle id now op).value = after at hrelayed
    obtain ⟨due, led'⟩ := after
    refine ⟨fun _ o => .refl _, fun g hg => ?_, fun g hg => ?_⟩
    · cases hrelayed with
      | kept hsame hbadges => exact ⟨hsame.symm.trans hg, .refl _⟩
      | handed _ hempty =>
        rw [show led'.parked = some g from hg] at hempty
        contradiction
    -- the segment was parked, and goes with the spans that waited for it
    · rw [show due = some g from hg] at hrelayed
      cases hrelayed with
      | handed hparked hempty hdone hbadges =>
        next g' done => exact ⟨g', hparked, .refl _⟩

namespace Engine

variable {capacity : Nat} {e : Engine} {ls : List Life} {l : Life} {i : Nat}

/-- **A request is kept** along every run, wherever the segment is then. -/
theorem Tells.skips_run (h : e.Tells capacity ls) (hl : ls[i]? = some l)
    (hskips : e.Shows Segment.skipAspect l true) {ops : List (UInt64 × Op)} {b : Bool}
    (hshows : (e.run ops).Shows Segment.skipAspect (e.liveFrom l ops) b) : b = true := by
  -- by induction on the run; the flag at its end is traced back step by step
  suffices ∃ b₀, e.Shows Segment.skipAspect l b₀ ∧ (b₀ = true → b = true) by
    obtain ⟨b₀, hb₀, hkept⟩ := this
    exact hkept (h.shows_unique (List.mem_of_getElem? hl) hb₀ hskips).symm
  clear hskips
  induction ops generalizing e ls l with
  | nil => exact ⟨b, hshows, id⟩
  | cons timed ops ih =>
    obtain ⟨now, op⟩ := timed
    obtain ⟨b₁, hb₁, hkept⟩ := ih (h.step now op).1 (getElem?_chronicle hl now op) hshows
    obtain ⟨b₀, hb₀, hlatches⟩ :=
      h.shows_step Segment.evolves_skipAspect (List.mem_of_getElem? hl) hb₁
    exact ⟨b₀, hb₀, fun hset => hkept (hlatches.kept hset)⟩

end Engine

end TraceLink
