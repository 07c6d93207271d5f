import TraceLink.Proofs.PendingContinuations
import TraceLink.Proofs.SkippedSegments
import TraceLink.Proofs.StackHeights

/-! # Traces that are left out of the analysis

    The request to leave a segment out of the analysis stands in all that the segment hands
    on: in the spans that it records, in the carriers that it fills, and in the snapshots
    that are taken of it. So it spreads to every segment to which one of these carriers or
    snapshots comes, and from there on, along chains of any length.

    What is sent from a segment can be linked to by whoever reads it. So the request does not
    get lost on the way, whatever the configurations are. -/

namespace TraceLink

open Extension (Latches)

/-! ### Recorded spans -/

/-- The span in the frame, if it is recorded, has the flag `b`. -/
def Frame.Flagged (f : Frame) (b : Bool) : Prop := ∀ x, f.span? = some x → x.skipAnalysis = b

namespace Frame

variable {f f' : Frame} {b b' : Bool}

theorem flagged_placeholder (name : String) (b : Bool) : (placeholder name).Flagged b :=
  fun x hx => by contradiction

theorem flagged_recorded {x : Span} (h : x.skipAnalysis = b) : (recorded x).Flagged b := by
  intro y hy
  obtain rfl := Option.some.inj hy
  exact h

theorem Flagged.modify (h : f.Flagged b) {change : Span → Logged Span}
    (hchange : ∀ s, s.skipAnalysis = b → (change s).value.skipAnalysis = b') :
    (f.modify change).value.Flagged b' := by
  cases f with
  | recorded s => exact flagged_recorded (hchange s (h s rfl))
  | placeholder name => exact flagged_placeholder name b'

/-- Only the flag of the span counts. -/
theorem Flagged.congr (h : f.Flagged b)
    (hsame : f'.span?.map (·.skipAnalysis) = f.span?.map (·.skipAnalysis)) : f'.Flagged b := by
  intro y hy
  rw [hy, Option.map_some] at hsame
  obtain ⟨x, hx, heq⟩ := Option.map_eq_some_iff.mp hsame.symm
  rw [← heq]
  exact h x hx

end Frame

namespace OpenSegment

theorem skipAnalysis_markInbound (c : RemoteContext) (now : UInt64) (s : Span) :
    (markInbound c now s).value.skipAnalysis = (s.skipAnalysis || c.extension.skipAnalysis) := by
  have hskip (s' : Span) (h : s'.skipAnalysis = s.skipAnalysis) :
      (if c.extension.skipAnalysis then { s' with skipAnalysis := true } else s').skipAnalysis =
        (s.skipAnalysis || c.extension.skipAnalysis) := by
    cases c.extension.skipAnalysis with
    | true => rw [if_pos rfl, Bool.or_true]
    | false => rw [if_neg Bool.false_ne_true, Bool.or_false, h]
  rw [markInbound_value]
  apply hskip
  -- neither the reference nor the tag for the latency shows in the flag
  split
  · split
    · apply Span.whileOpen_congr Span.skipAnalysis
      intro s
      rfl
    · rfl
  · rfl

theorem flagged_newFrame (o : OpenSegment) (limit : Nat) (kind : SpanKind) (name : String)
    (now : UInt64) :
    (o.newFrame limit kind name now).value.1.Flagged o.extension.skipAnalysis := by
  unfold newFrame
  split
  · exact Frame.flagged_placeholder name _
  · split
    · exact Frame.flagged_placeholder name _
    · exact Frame.flagged_recorded rfl

theorem flagged_autoTag {f : Frame} {b : Bool} (h : f.Flagged b) (o : OpenSegment)
    (keys : List String) : (o.autoTag keys f).value.Flagged b := by
  apply h.congr
  apply autoTag_congr
  intro key value s
  apply Span.whileOpen_congr Span.skipAnalysis
  intro s
  rfl

/-- A span that is opened has the flag that the segment has then. -/
theorem flagged_openSpan (c : Config) (o : OpenSegment) (kind : SpanKind) (name : String)
    (now : UInt64) (inbound : Option RemoteContext) :
    let opened := (o.openSpan c kind name now inbound).value
    opened.1.Flagged opened.2.extension.skipAnalysis := by
  intro opened
  have hextension := congrArg Bearings.extension (bearings_openSpan c o kind name now inbound)
  have hnew := o.flagged_newFrame c.spanLimit kind name now
  cases inbound with
  | none =>
    rw [show opened.2.extension = o.extension from hextension]
    exact flagged_autoTag hnew _ _
  | some r =>
    have hflag : opened.2.extension.skipAnalysis =
        (o.extension.skipAnalysis || r.extension.skipAnalysis) :=
      congrArg Extension.skipAnalysis hextension
    rw [hflag]
    apply flagged_autoTag
    apply hnew.modify
    intro s hs
    rw [skipAnalysis_markInbound, hs]

theorem flagged_openExit (c : Config) (o : OpenSegment) (name peer : String) (k : Option Carrier)
    (now : UInt64) :
    let opened := (o.openExit c name peer k now).value
    opened.1.Flagged opened.2.2.extension.skipAnalysis := by
  intro opened
  have hextension : opened.2.2.extension = o.extension :=
    congrArg Bearings.extension (bearings_openExit c o name peer k now)
  have hopened : opened.1 = ((o.exitFrame c.spanLimit name peer now).2.autoTag c.autoTagKeys
      (o.exitFrame c.spanLimit name peer now).1).value :=
    congrArg Prod.fst (openExit_value c o name peer k now)
  rw [hextension, hopened]
  apply flagged_autoTag
  apply (o.flagged_newFrame c.spanLimit .exit name now).modify
  intro s hs
  rw [Span.setPeer_congr Span.skipAnalysis peer (fun _ => rfl), hs]

/-! ### Carriers and snapshots -/

variable {o : OpenSegment} {filled : Carrier} {now : UInt64}

/-- A carrier for a recorded trace has the flag of the segment, and the time. -/
theorem Sent.extension_eq (h : o.Sent now filled) (hrecorded : filled.link ≠ some "0") :
    filled.extension = some { o.extension with sentAt := some now }.encode := by
  cases h with
  | ignored k => exact absurd rfl hrecorded
  | recorded hx fresh peer k => rfl

/-- A carrier for a recorded trace is read as a context with the flag of the segment. -/
theorem Sent.read {c : Config} (h : o.Sent now filled) (ho : o.Sound c)
    (hrecorded : filled.link ≠ some "0") (limits : Correlation.Limits) :
    ∃ r, (RemoteContext.extract limits filled).value = .remote r ∧
      r.extension.skipAnalysis = o.extension.skipAnalysis := by
  cases h with
  | ignored k => exact absurd rfl hrecorded
  | recorded hx fresh peer k =>
    next x =>
    obtain ⟨hlinkable, hspan⟩ := ho.isLinkable hx fresh peer now
    let sent := o.remoteContext x.id fresh peer now
    have hread : (RemoteContext.extract limits (sent.inject k)).value =
        .remote (sent.within limits) :=
      RemoteContext.extract_inject_of_isLinkable hlinkable hspan ho.bearings.correlation.2 k
    exact ⟨_, hread, rfl⟩

/-- What is captured of the segment has its extension. -/
theorem extension_capture {c : Captured} (h : o.capture = .sampled c) :
    c.extension = o.extension := by
  unfold capture at h
  split at h
  · contradiction
  · obtain rfl := Snapshot.sampled.inj h
    rfl

/-- In a sound segment the extension is told by the flag. -/
theorem Sound.extension_eq {c : Config} (h : o.Sound c) :
    o.extension = ⟨o.segment.skipAnalysis, none⟩ := by
  have hskip : o.segment.skipAnalysis = o.extension.skipAnalysis := h.bearings.skip
  have hsent : o.extension.sentAt = none := h.bearings.sentAt
  rw [hskip, ← hsent]

end OpenSegment

namespace Site

variable {s : Site} {now : UInt64} {op : StrandOp} {o : OpenSegment}

/-- A span that an operation records has the flag that the segment has then. -/
theorem skipAnalysis_recorded {x : Span}
    (hx : op.recorded? (s.step now op).value.reply = some x)
    (hafter : (s.step now op).value.state.strand.active = some o) :
    x.skipAnalysis = o.extension.skipAnalysis := by
  have hopened {kind : SpanKind} {name : String} {inbound : Inbound} (s₁ : Site)
      (hx : (s₁.openSpan kind name inbound now).value.1.span? = some x)
      (hafter : (s₁.openSpan kind name inbound now).value.2.strand.active = some o) :
      x.skipAnalysis = o.extension.skipAnalysis := by
    unfold openSpan at hx hafter
    simp only [Logged.bind_value, Logged.pure_value] at hx hafter
    obtain rfl := Option.some.inj hafter
    exact OpenSegment.flagged_openSpan _ _ kind name now _ x hx
  cases op with
  | entry name k =>
    simp only [step, Logged.bind_value, Logged.pure_value, entry_value] at hx hafter
    exact hopened s hx hafter
  | entryFrom name headers =>
    simp only [step, entryFrom, Logged.bind_value, Logged.pure_value, entry_value] at hx hafter
    exact hopened s hx hafter
  | exit name peer k =>
    simp only [step, exit, Logged.bind_value, Logged.pure_value] at hx hafter
    obtain rfl := Option.some.inj hafter
    exact OpenSegment.flagged_openExit _ _ name peer k now x hx
  | inner name =>
    simp only [step, inner, Logged.bind_value, Logged.pure_value] at hx hafter
    exact hopened s hx hafter
  | innerWith name snapshot =>
    simp only [step, Logged.bind_value, Logged.pure_value, innerWith_value] at hx hafter
    exact hopened _ hx hafter
  | _ => contradiction

/-! ### Applied contexts -/

/-- **Receiving** a carrier: it is handed over as it is, or written into the headers of a
    message and read from them. -/
inductive Receives (s : Site) (c : Carrier) : Carrier → Prop where
  | handed : Receives s c c
  | written {t : Transport} (hempty : t = .table [] ∨ t = .document (.object []))
      (hlabel : s.label = c.label) (hascii : Text.IsAscii c.label) :
      Receives s c (.readFrom (c.writeTo t) s.label)

/-- The headers come through the message unchanged. -/
theorem Receives.eq {c received : Carrier} (h : s.Receives c received) : received = c := by
  cases h with
  | handed => rfl
  | written hempty hlabel hascii =>
    rw [hlabel]
    exact Carrier.readFrom_writeTo hascii hempty

theorem mem_extension?_of_remote {k : Carrier} {r : RemoteContext}
    (hread : (s.readCarrier k).value = .remote r) :
    r.extension ∈ (s.readCarrier k).value.extension?.toList := by
  rw [hread]
  exact List.mem_singleton_self _

/-- A snapshot is continued in an open segment, unless it is its own. -/
theorem continuedExtension?_of_active {c : Captured} (hactive : s.strand.isActive = true)
    (hvalid : (Snapshot.sampled c).isValid = true)
    (hother : s.strand.isCurrent (.sampled c) = false) :
    s.continuedExtension? (.sampled c) = some c.extension := by
  rw [continuedExtension?, hactive, hvalid, hother]
  rfl

/-- What is pending is taken by the segment that begins, whatever else comes to it. -/
theorem mem_extensions_of_pending {x : Extension} {kind : SpanKind}
    (hpending : s.pendingExtension? = some x) (hop : op.opens? = some kind)
    (hother : ∀ name snapshot, op ≠ .innerWith name snapshot) : x ∈ s.extensions op := by
  have hmem : x ∈ s.pendingExtension?.toList := Option.mem_toList.mpr hpending
  cases op with
  | entry name k => exact List.mem_append_left _ hmem
  | entryFrom name headers => exact List.mem_append_left _ hmem
  | exit name peer k => exact hmem
  | inner name => exact hmem
  | innerWith name snapshot => exact absurd rfl (hother name snapshot)
  | _ => contradiction

/-- An operation that applies a context leaves a segment open. -/
theorem exists_active_of_extensions (now : UInt64) {x : Extension} (hx : x ∈ s.extensions op) :
    ∃ o, (s.step now op).value.state.strand.active = some o := by
  apply Option.isSome_iff_exists.mp
  -- an operation that opens no span applies contexts to the open segment only
  cases op with
  | continued snapshot =>
    have hactive : s.strand.isActive = true := by
      by_contra hidle
      rw [extensions, continuedExtension?, eq_false_of_ne_true hidle] at hx
      contradiction
    show (s.continued snapshot).value.strand.isActive = true
    unfold Strand.isActive at hactive ⊢
    rw [Option.isSome_iff_ne_none] at hactive ⊢
    intro hidle
    exact hactive ((s.isActive_continued snapshot).mp hidle)
  | extract k =>
    have hactive : s.strand.isActive = true := by
      by_contra hidle
      rw [extensions, if_neg hidle] at hx
      contradiction
    have hsame : (s.step now (.extract k)).value.state.strand.isActive = s.strand.isActive := by
      refine Outcome.state_ofAttempt (·.strand.isActive) (s.atomic_receive now _)
        fun step hstep => ?_
      rcases receive_eq_ok hstep with hsame | ⟨c, o, f, rest, -, -, -, happlied⟩
      · exact congrArg (·.strand.isActive) hsame
      · rw [hactive]
        exact congrArg (·.strand.isActive) happlied
    exact hsame.trans hactive
  | entry name k => exact isActive_of_opens rfl
  | entryFrom name headers => exact isActive_of_opens rfl
  | exit name peer k => exact isActive_of_opens rfl
  | inner name => exact isActive_of_opens rfl
  | innerWith name snapshot => exact isActive_of_opens rfl
  | _ => contradiction

end Site

namespace Engine

variable {e e' : Engine} {k k' : Nat} {now now' : UInt64}

/-! ### Reachable engines -/

theorem Reachable.step (h : e.Reachable) (now : UInt64) (op : Op) :
    (e.step now op).value.state.Reachable := by
  obtain ⟨config, reporter, process, start, ops, rfl⟩ := h
  refine ⟨config, reporter, process, start, ops ++ [(now, op)], ?_⟩
  rw [run_append]
  rfl

theorem Reachable.run (h : e.Reachable) (ops : List (UInt64 × Op)) : (e.run ops).Reachable := by
  induction ops generalizing e with
  | nil => exact h
  | cons timed ops ih => exact ih (h.step timed.1 timed.2)

theorem Reachable.standing (h : e.Reachable) {s : Site} (hsite : e.site? k = some s) :
    s.strand.Standing := by
  obtain ⟨capacity, ls, htells⟩ := h.tells
  exact htells.standing hsite

/-- Every open segment is sound. -/
theorem Reachable.sound (h : e.Reachable) {o : OpenSegment} (hopen : e.open? k = some o) :
    ∃ c, o.Sound c := by
  obtain ⟨config, reporter, process, start, ops, rfl⟩ := h
  obtain ⟨s, hsite, hactive⟩ := site?_of_open? hopen
  obtain ⟨-, hsound⟩ := (Strand.sound_invariant config).of_run reporter process start ops hsite
  exact ⟨config, hsound.active o hactive⟩

/-! ### Steps of an engine -/

/-- The extensions in the contexts that an operation applies to the segment at place `k`. -/
def extensions (e : Engine) (k : Nat) : Op → List Extension
  | .strand k' sop => if k' = k then ((e.site? k).map (·.extensions sop)).getD [] else []
  | _ => []

/-- The segment at place `k`, if one is open, is left out of the analysis. -/
def skips (e : Engine) (k : Nat) : Bool := (e.open? k).any (·.segment.skipAnalysis)

theorem skips_of_open? {o : OpenSegment} (hopen : e.open? k = some o) :
    e.skips k = o.segment.skipAnalysis := by
  rw [skips, hopen, Option.any_some]

/-- The place of an open segment is that of a strand. -/
theorem exists_site_of_step {sop : StrandOp} {o : OpenSegment}
    (hafter : (e.step now (.strand k sop)).value.state.open? k = some o) :
    ∃ s, e.site? k = some s ∧ (s.step now sop).value.state.strand.active = some o := by
  cases hsite : e.site? k with
  | none =>
    simp only [Engine.step, hsite, Logged.pure_value] at hafter
    rw [show Outcome.state (Outcome.of Reply.missing e) = e from rfl, open?_eq, hsite] at hafter
    contradiction
  | some s =>
    rw [open?_step_strand hsite] at hafter
    exact ⟨s, rfl, hafter⟩

/-- **Every step** sets the flag of an open segment if one of the contexts asks for it, and
    changes it in no other way. -/
theorem Reachable.latches_step (h : e.Reachable) (now : UInt64) (op : Op) {o : OpenSegment}
    (hafter : (e.step now op).value.state.open? k = some o) :
    Latches (e.extensions k op) (e.skips k) o.segment.skipAnalysis := by
  by_cases hown : ∃ sop, op = .strand k sop
  · obtain ⟨sop, rfl⟩ := hown
    obtain ⟨s, hsite, hactive⟩ := exists_site_of_step hafter
    have hlatches := s.latches_step now sop (h.standing hsite) hactive
    rw [extensions, if_pos rfl, hsite, skips, open?_of_site? hsite]
    exact hlatches
  · have hnone : e.extensions k op = [] := by
      unfold extensions
      split
      · next k' sop =>
        apply if_neg
        rintro rfl
        exact hown ⟨sop, rfl⟩
      · rfl
    have hbefore := open?_of_step (fun sop hop => hown ⟨sop, hop⟩) hafter
    rw [hnone, skips_of_open? hbefore]
    exact .refl _

/-! ### What a segment hands on -/

/-- **Handing on**: what an operation with this reply has handed on of the segment that is
    open after it. Recorded spans and carriers for a recorded trace have the flag of the
    segment, and a carrier has the time beside it. -/
structure HandsOn (o : OpenSegment) (now : UInt64) (op : StrandOp) (reply : Reply) : Prop where
  span : ∀ x, op.recorded? reply = some x → x.skipAnalysis = o.segment.skipAnalysis
  carrier : ∀ c, reply.filled? = some c → c.link ≠ some "0" → c.extension = some
    (String.ofList ((if o.segment.skipAnalysis then '1' else '0') :: '-' ::
      Text.digits now.toNat))

/-- **Every operation** hands on the flag of its segment. -/
theorem Reachable.handsOn (h : e.Reachable) (now : UInt64) (op : StrandOp) {o : OpenSegment}
    (hafter : (e.step now (.strand k op)).value.state.open? k = some o) :
    HandsOn o now op (e.step now (.strand k op)).value.reply := by
  obtain ⟨c, hsound⟩ := (h.step now (.strand k op)).sound hafter
  have hextension := hsound.extension_eq
  obtain ⟨s, hsite, hactive⟩ := exists_site_of_step hafter
  rw [reply_of_site hsite]
  refine ⟨?_, ?_⟩
  · intro x hx
    rw [Site.skipAnalysis_recorded hx hactive, hextension]
  · intro filled hfilled hrecorded
    rw [(Site.sent_of_filled hfilled hactive).extension_eq hrecorded, hextension]
    rfl

theorem Reachable.extension_captured (h : e.Reachable) {o : OpenSegment}
    (hopen : e.open? k = some o) {c : Captured}
    (hcaptured : (e.step now (.strand k .capture)).value.reply = .snapshot (some (.sampled c))) :
    c.extension = ⟨o.segment.skipAnalysis, none⟩ := by
  obtain ⟨config, hsound⟩ := h.sound hopen
  rw [OpenSegment.extension_capture (capture_of_reply hopen hcaptured), hsound.extension_eq]

/-! ### Chains -/

/-- The segment that is open at place `k` is left out of the analysis. -/
def LeavesOut (e : Engine) (k : Nat) : Prop :=
  ∃ o, e.open? k = some o ∧ o.segment.skipAnalysis = true

/-- **Downstream of a request**: at the strand at place `k` of the engine, a segment is open
    that is left out of the analysis itself, or to which a carrier or a snapshot came from
    one that is downstream. The trace is recorded on the way. The strands of a chain may
    belong to engines with any configurations, in any states that they come to, and a
    segment may be open already when the carrier or the snapshot comes. -/
inductive RequestReaches : Engine → Nat → Prop where
  | source {e : Engine} {k : Nat} {o : OpenSegment} (hreach : e.Reachable)
      (hopen : e.open? k = some o) (hskips : o.segment.skipAnalysis = true) : RequestReaches e k
  /-- Anything may happen as long as the segment is open. -/
  | later {e : Engine} {k : Nat} {now : UInt64} {op : Op} (h : RequestReaches e k)
      (hstays : ((e.step now op).value.state.open? k).isSome) :
      RequestReaches (e.step now op).value.state k
  /-- An entry span is opened with a carrier that the segment has filled. -/
  | carried {e e' : Engine} {k k' : Nat} {now now' : UInt64} {op : StrandOp}
      {c received : Carrier} {s' : Site}
      (h : RequestReaches (e.step now (.strand k op)).value.state k)
      (hfilled : (e.step now (.strand k op)).value.reply.filled? = some c)
      (hrecorded : c.link ≠ some "0") (hreach : e'.Reachable) (hsite : e'.site? k' = some s')
      (hreceives : s'.Receives c received) (name : String) :
      RequestReaches (e'.step now' (.strand k' (.entry name (some received)))).value.state k'
  /-- An entry span is opened with the headers of a message, which the carrier is read from. -/
  | written {e e' : Engine} {k k' : Nat} {now now' : UInt64} {op : StrandOp} {c : Carrier}
      {s' : Site} {headers : Transport}
      (h : RequestReaches (e.step now (.strand k op)).value.state k)
      (hfilled : (e.step now (.strand k op)).value.reply.filled? = some c)
      (hrecorded : c.link ≠ some "0") (hreach : e'.Reachable) (hsite : e'.site? k' = some s')
      (hreceives : s'.Receives c (.readFrom headers s'.label)) (name : String) :
      RequestReaches (e'.step now' (.strand k' (.entryFrom name headers))).value.state k'
  /-- The carrier is read while a span is open. -/
  | extracted {e e' : Engine} {k k' : Nat} {now now' : UInt64} {op : StrandOp}
      {c received : Carrier} {s' : Site}
      (h : RequestReaches (e.step now (.strand k op)).value.state k)
      (hfilled : (e.step now (.strand k op)).value.reply.filled? = some c)
      (hrecorded : c.link ≠ some "0") (hreach : e'.Reachable) (hsite : e'.site? k' = some s')
      (hactive : s'.strand.isActive = true) (hreceives : s'.Receives c received) :
      RequestReaches (e'.step now' (.strand k' (.extract received))).value.state k'
  /-- A snapshot of the segment is continued in another one that is open. -/
  | continued {e e' : Engine} {k k' : Nat} {now now' : UInt64} {c : Captured} {s' : Site}
      (h : RequestReaches e k)
      (hcaptured : (e.step now (.strand k .capture)).value.reply = .snapshot (some (.sampled c)))
      (hvalid : (Snapshot.sampled c).isValid = true) (hreach : e'.Reachable)
      (hsite : e'.site? k' = some s') (hactive : s'.strand.isActive = true)
      (hother : s'.strand.isCurrent (.sampled c) = false) :
      RequestReaches (e'.step now' (.strand k' (.continued (.sampled c)))).value.state k'
  /-- The snapshot is continued by an idle strand, and the next span is opened in any way. -/
  | awaited {e e' : Engine} {k k' : Nat} {now now' now'' : UInt64} {c : Captured} {s' : Site}
      {more : List (UInt64 × Op)} {op : StrandOp} {kind : SpanKind} (h : RequestReaches e k)
      (hcaptured : (e.step now (.strand k .capture)).value.reply = .snapshot (some (.sampled c)))
      (hvalid : (Snapshot.sampled c).isValid = true) (hreach : e'.Reachable)
      (hsite : e'.site? k' = some s') (hidle : s'.strand.active = none)
      (hmore : ∀ timed ∈ more, timed.2.KeepsPending k') (hop : op.opens? = some kind)
      (hother : ∀ name snapshot, op ≠ .innerWith name snapshot) :
      RequestReaches
        (((e'.step now' (.strand k' (.continued (.sampled c)))).value.state.run more).step now''
          (.strand k' op)).value.state k'
  /-- A span is opened that continues the snapshot itself. -/
  | continuedWith {e e' : Engine} {k k' : Nat} {now now' : UInt64} {c : Captured} {s' : Site}
      (h : RequestReaches e k)
      (hcaptured : (e.step now (.strand k .capture)).value.reply = .snapshot (some (.sampled c)))
      (hvalid : (Snapshot.sampled c).isValid = true) (hreach : e'.Reachable)
      (hsite : e'.site? k' = some s') (hother : s'.strand.isCurrent (.sampled c) = false)
      (name : String) :
      RequestReaches (e'.step now' (.strand k' (.innerWith name (.sampled c)))).value.state k'

theorem RequestReaches.reachable (h : RequestReaches e k) : e.Reachable := by
  induction h with
  | source hreach hopen hskips => exact hreach
  | later h hstays ih => exact ih.step _ _
  | carried h hfilled hrecorded hreach hsite hreceives name ih => exact hreach.step _ _
  | written h hfilled hrecorded hreach hsite hreceives name ih => exact hreach.step _ _
  | extracted h hfilled hrecorded hreach hsite hactive hreceives ih => exact hreach.step _ _
  | continued h hcaptured hvalid hreach hsite hactive hother ih => exact hreach.step _ _
  | awaited h hcaptured hvalid hreach hsite hidle hmore hop hother ih =>
    exact ((hreach.step _ _).run _).step _ _
  | continuedWith h hcaptured hvalid hreach hsite hother name ih => exact hreach.step _ _

/-- A request that an operation applies leaves the segment out of the analysis. -/
theorem Reachable.leavesOut_of_request (h : e.Reachable) {s : Site} (hsite : e.site? k = some s)
    {op : StrandOp} {x : Extension} (hx : x ∈ s.extensions op) (hskip : x.skipAnalysis = true)
    (now : UInt64) : (e.step now (.strand k op)).value.state.LeavesOut k := by
  obtain ⟨o, hactive⟩ := Site.exists_active_of_extensions now hx
  have hafter := (open?_step_strand hsite now op).trans hactive
  refine ⟨o, hafter, (h.latches_step now (.strand k op) hafter).set ?_ hskip⟩
  rw [extensions, if_pos rfl, hsite]
  exact hx

/-- What is read from a carrier of such a segment asks for the same. -/
theorem LeavesOut.read {op : StrandOp} {c : Carrier}
    (h : (e.step now (.strand k op)).value.state.LeavesOut k)
    (hreach : (e.step now (.strand k op)).value.state.Reachable)
    (hfilled : (e.step now (.strand k op)).value.reply.filled? = some c)
    (hrecorded : c.link ≠ some "0") (s' : Site) :
    ∃ r, (s'.readCarrier c).value = .remote r ∧ r.extension.skipAnalysis = true := by
  obtain ⟨o, hafter, hskips⟩ := h
  obtain ⟨config, hsound⟩ := hreach.sound hafter
  obtain ⟨s, hsite, hactive⟩ := exists_site_of_step hafter
  rw [reply_of_site hsite] at hfilled
  obtain ⟨r, hread, hflag⟩ := (Site.sent_of_filled hfilled hactive).read hsound hrecorded
    s'.tracer.config.correlationLimits
  refine ⟨r, hread, ?_⟩
  rw [hflag, hsound.extension_eq]
  exact hskips

theorem LeavesOut.captured (h : e.LeavesOut k) (hreach : e.Reachable) {c : Captured}
    (hcaptured : (e.step now (.strand k .capture)).value.reply = .snapshot (some (.sampled c))) :
    c.extension.skipAnalysis = true := by
  obtain ⟨o, hopen, hskips⟩ := h
  rw [hreach.extension_captured hopen hcaptured]
  exact hskips

/-- **Contagion**: what is downstream of a request is left out of the analysis. -/
theorem RequestReaches.leavesOut (h : RequestReaches e k) : e.LeavesOut k := by
  induction h with
  | source hreach hopen hskips => exact ⟨_, hopen, hskips⟩
  | later h hstays ih =>
    obtain ⟨o, hopen, hskips⟩ := ih
    obtain ⟨o', hafter⟩ := Option.isSome_iff_exists.mp hstays
    refine ⟨o', hafter, (h.reachable.latches_step _ _ hafter).kept ?_⟩
    rw [skips_of_open? hopen, hskips]
  | carried h hfilled hrecorded hreach hsite hreceives name ih =>
    next s' =>
    obtain ⟨r, hread, hskip⟩ := ih.read h.reachable hfilled hrecorded s'
    apply hreach.leavesOut_of_request hsite _ hskip
    apply List.mem_append_right
    rw [hreceives.eq]
    exact Site.mem_extension?_of_remote hread
  | written h hfilled hrecorded hreach hsite hreceives name ih =>
    next s' headers =>
    obtain ⟨r, hread, hskip⟩ := ih.read h.reachable hfilled hrecorded s'
    apply hreach.leavesOut_of_request hsite _ hskip
    apply List.mem_append_right
    rw [hreceives.eq]
    exact Site.mem_extension?_of_remote hread
  | extracted h hfilled hrecorded hreach hsite hactive hreceives ih =>
    next s' =>
    obtain ⟨r, hread, hskip⟩ := ih.read h.reachable hfilled hrecorded s'
    apply hreach.leavesOut_of_request hsite _ hskip
    rw [Site.extensions, if_pos hactive, hreceives.eq]
    exact Site.mem_extension?_of_remote hread
  | continued h hcaptured hvalid hreach hsite hactive hother ih =>
    apply hreach.leavesOut_of_request hsite _ (ih.captured h.reachable hcaptured)
    rw [Site.extensions, Site.continuedExtension?_of_active hactive hvalid hother]
    exact List.mem_singleton_self _
  | awaited h hcaptured hvalid hreach hsite hidle hmore hop hother ih =>
    obtain ⟨s'', hsite'', hwaits⟩ := waits_continued hsite hidle hvalid _ hmore
    apply ((hreach.step _ _).run _).leavesOut_of_request hsite'' _
      (ih.captured h.reachable hcaptured)
    apply Site.mem_extensions_of_pending _ hop hother
    rw [Site.pendingExtension?_of_idle hwaits.idle, hwaits.pending]
    rfl
  | continuedWith h hcaptured hvalid hreach hsite hother name ih =>
    next s' =>
    apply hreach.leavesOut_of_request hsite _ (ih.captured h.reachable hcaptured)
    rw [Site.extensions]
    -- an open segment continues the snapshot, and an idle strand begins with it
    by_cases hactive : s'.strand.isActive = true
    · rw [if_pos hactive, Site.continuedExtension?_of_active hactive hvalid hother]
      exact List.mem_singleton_self _
    · rw [if_neg hactive, if_pos hvalid]
      exact List.mem_singleton_self _

/-! ### Left out for good -/

/-- A segment that is left out of the analysis is open as one, and is reported as one,
    however the run goes on. -/
theorem reported_of_leftOut (config : Config) (reporter : Reporter) (process : String)
    (start : UInt64) (ops : List (UInt64 × Op)) {k : Nat} {o : OpenSegment}
    (hopen : ((ofTracer (.start config reporter process start)).run ops).open? k = some o)
    (hskips : o.segment.skipAnalysis = true) :
    let e := ofTracer (.start config reporter process start)
    ∃ (i : Nat) (l : Life), (e.lives ops)[i]? = some l ∧ l.stage = .running k ∧
      ∀ more, ∃ l' : Life, (e.lives (ops ++ more))[i]? = some l' ∧
        (∀ k' o', l'.stage = .running k' → (e.run (ops ++ more)).open? k' = some o' →
          o'.segment.skipAnalysis = true) ∧
        ∀ g ∈ l'.reports, g.skipAnalysis = true := by
  intro e
  have htells := ((tells_start config reporter process start).run ops).1
  obtain ⟨l, hl, hstage⟩ := htells.told k o hopen
  obtain ⟨i, hi⟩ := List.mem_iff_getElem?.mp hl
  have hshows : (e.run ops).Shows Segment.skipAspect l o.segment.skipAnalysis :=
    .running hstage hopen
  rw [hskips] at hshows
  refine ⟨i, l, hi, hstage, ?_⟩
  intro more
  refine ⟨(e.run ops).liveFrom l more, ?_, ?_, ?_⟩
  · rw [lives, livesFrom_append]
    exact getElem?_livesFrom hi more
  · intro k' o' hstage' hopen'
    rw [run_append] at hopen'
    exact htells.skips_run hi hshows (.running hstage' hopen')
  · intro g hg
    exact htells.skips_run hi hshows (.handed hg)

/-- **Left out for good**: in every run the extension of an open segment is told by its flag,
    without a time. A step sets the flag of a segment exactly if one of the contexts that are
    applied asks for it, and nothing takes it back, up to the report of the segment. What is
    recorded in a segment, sent from it or captured of it has the flag that the segment has
    then. So every segment that a request reaches, by carriers and snapshots for a recorded
    trace, is left out of the analysis. -/
theorem left_out_for_good (config : Config) (reporter : Reporter) (process : String)
    (start : UInt64) (ops : List (UInt64 × Op)) :
    let e₀ := ofTracer (.start config reporter process start)
    let e := e₀.run ops
    (∀ (k : Nat) (o : OpenSegment), e.open? k = some o →
      o.extension = ⟨o.segment.skipAnalysis, none⟩) ∧
    (∀ (now : UInt64) (op : Op) (k : Nat) (o : OpenSegment),
      (e.step now op).value.state.open? k = some o →
        o.segment.skipAnalysis = (e.skips k || (e.extensions k op).any (·.skipAnalysis))) ∧
    (∀ (k : Nat) (o : OpenSegment), e.open? k = some o → o.segment.skipAnalysis = true →
      ∃ (i : Nat) (l : Life), (e₀.lives ops)[i]? = some l ∧ l.stage = .running k ∧
        ∀ more, ∃ l' : Life, (e₀.lives (ops ++ more))[i]? = some l' ∧
          (∀ k' o', l'.stage = .running k' → (e₀.run (ops ++ more)).open? k' = some o' →
            o'.segment.skipAnalysis = true) ∧
          ∀ g ∈ l'.reports, g.skipAnalysis = true) ∧
    (∀ (now : UInt64) (k : Nat) (op : StrandOp) (o : OpenSegment),
      (e.step now (.strand k op)).value.state.open? k = some o →
        HandsOn o now op (e.step now (.strand k op)).value.reply) ∧
    (∀ (now : UInt64) (k : Nat) (o : OpenSegment) (c : Captured), e.open? k = some o →
      (e.step now (.strand k .capture)).value.reply = .snapshot (some (.sampled c)) →
        c.extension = ⟨o.segment.skipAnalysis, none⟩) ∧
    ∀ (e' : Engine) (k' : Nat), RequestReaches e' k' →
      ∃ o, e'.open? k' = some o ∧ o.segment.skipAnalysis = true := by
  intro e₀ e
  have hreach : e.Reachable := ⟨config, reporter, process, start, ops, rfl⟩
  refine ⟨?_, ?_, ?_, ?_, ?_, ?_⟩
  · intro k o hopen
    obtain ⟨c, hsound⟩ := hreach.sound hopen
    exact hsound.extension_eq
  · intro now op k o hafter
    exact hreach.latches_step now op hafter
  · intro k o hopen hskips
    exact reported_of_leftOut config reporter process start ops hopen hskips
  · intro now k op o hafter
    exact hreach.handsOn now op hafter
  · intro now k o c hopen hcaptured
    exact hreach.extension_captured hopen hcaptured
  · intro e' k' hreaches
    exact hreaches.leavesOut

/-- A load test marks its traces, and calls a shop. -/
def loadTest : List (UInt64 × Op) :=
  let request : RemoteContext :=
    ⟨"t", "s", 0, "load", "l-1", "/run", "shop:80", .empty .standard, ⟨true, some 1⟩⟩
  [(1, .openStrand), (2, .strand 0 (.entry "/cart" (some (request.inject (.empty "")))))]

/-- A job in another process that has a parent already, and a strand that is idle. -/
def stockJob : List (UInt64 × Op) :=
  [(1, .openStrand), (2, .openStrand), (3, .strand 0 (.continued (.sampled
    ⟨"job", "j", 0, none, .empty .standard, .none⟩))), (4, .strand 0 (.inner "stock"))]

/-- The job reads the carrier of the shop too late to belong to its trace, and is left out of
    the analysis nevertheless. -/
theorem left_out_for_good_job :
    let e := (ofTracer (.start (Config.standard "a") .collecting "p" 0)).run loadTest
    let e' := (ofTracer (.start (Config.standard "b") .collecting "q" 0)).run stockJob
    ∃ c, (e.step 7 (.strand 0 (.exit "get" "stock:80" (some (.empty ""))))).value.reply.filled? =
        some c ∧ c.extension = some "1-7" ∧
      ∃ o, (e'.step 9 (.strand 0 (.extract c))).value.state.open? 0 = some o ∧
        o.segment.trace = "job" ∧ o.segment.skipAnalysis = true := by
  intro e e'
  let call : StrandOp := .exit "get" "stock:80" (some (.empty ""))
  have hsource : (e.open? 0).any (·.segment.skipAnalysis) = true := by decide +kernel
  have hafter : ((e.step 7 (.strand 0 call)).value.state.open? 0).any
      (·.segment.skipAnalysis) = true := by decide +kernel
  have hsent : (e.step 7 (.strand 0 call)).value.reply.filled?.any (fun c =>
      c.link != some "0" && ((e'.step 9 (.strand 0 (.extract c))).value.state.open? 0).any
        (·.segment.trace == "job")) = true := by decide +kernel
  have hjob : (e'.site? 0).any (·.strand.isActive) = true := by decide +kernel
  obtain ⟨o, hopen, hskips⟩ := (Option.any_eq_true _ _).mp hsource
  obtain ⟨o₁, hopen₁, hskips₁⟩ := (Option.any_eq_true _ _).mp hafter
  obtain ⟨c, hfilled, hsent⟩ := (Option.any_eq_true _ _).mp hsent
  obtain ⟨hrecorded, htrace⟩ := Bool.and_eq_true_iff.mp hsent
  obtain ⟨s', hsite, hactive⟩ := (Option.any_eq_true _ _).mp hjob
  have hlink : c.link ≠ some "0" := bne_iff_ne.mp hrecorded
  obtain ⟨-, -, -, hhands, -⟩ :=
    left_out_for_good (Config.standard "a") .collecting "p" 0 loadTest
  obtain ⟨-, -, -, -, -, hchain⟩ :=
    left_out_for_good (Config.standard "b") .collecting "q" 0 stockJob
  have hreaches : RequestReaches (e.step 7 (.strand 0 call)).value.state 0 :=
    .later (.source ⟨_, _, _, _, _, rfl⟩ hopen hskips) (Option.isSome_of_mem hopen₁)
  obtain ⟨o', hopen', hskips'⟩ :=
    hchain _ 0 (.extracted hreaches hfilled hlink ⟨_, _, _, _, _, rfl⟩ hsite hactive .handed)
  refine ⟨c, hfilled, ?_, o', hopen', ?_, hskips'⟩
  · rw [(hhands 7 0 call o₁ hopen₁).carrier c hfilled hlink, hskips₁]
    decide
  · rw [hopen', Option.any_some] at htrace
    exact beq_iff_eq.mp htrace

end Engine

end TraceLink
