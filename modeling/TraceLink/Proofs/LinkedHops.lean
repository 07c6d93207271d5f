import TraceLink.Proofs.EntrySpans
import TraceLink.Proofs.SoundStrands
import TraceLink.Proofs.Transports

/-! # Links between processes

    A client sends a message from an exit span, and a server opens an entry span for
    it. In between, the context of the client is written into three headers, and the
    headers into a message.

    Whatever the client did before, and whatever the configuration of the server is:
    if both use the same ASCII label, the segment of the server is recorded below the
    exit span of the client, in the same trace. -/

namespace TraceLink

namespace OpenSegment

/-! ### The sender -/

/-- The reference to an exit span to `peer`, as it is kept on the other side. -/
def exitRef (c : Config) (o : OpenSegment) (x : Span) (peer : String) : ParentRef where
  crossing := .process peer
  trace := o.segment.trace
  segment := o.segment.id
  span := x.id
  service := c.serviceName
  instanceName := c.instanceName
  endpoint := (o.endpoint? (some x)).getD ""

/-- An active exit span fills every carrier. -/
theorem inject_of_exit {o : OpenSegment} {x : Span} {peer : String} (hsampled : o.sampled = true)
    (htop : o.active? = some (.recorded x)) (hexit : x.kind = .exit) (hpeer : x.peer = some peer)
    (k : Carrier) (now : UInt64) :
    o.inject k now = .ok (pure ((o.remoteContext x.id (some x) peer now).inject k)) := by
  have hdropped : ¬ (!o.sampled) = true := by simp [hsampled]
  have hallowed : ¬ (o.sampled && decide (x.kind ≠ .exit)) = true := by simp [hexit]
  have hname : peerOf (.recorded x) = peer := by
    show (x.peer).getD "" = peer
    rw [hpeer, Option.getD_some]
  unfold inject
  rw [htop]
  simp only
  rw [if_neg hallowed, hname, send, if_neg hdropped]

/-- The context of a sound segment can be linked to from any of its open spans. -/
theorem Sound.isLinkable {c : Config} {o : OpenSegment} (h : o.Sound c) {x : Span}
    (hx : .recorded x ∈ o.stack) (fresh : Option Span) (peer : String) (now : UInt64) :
    (o.remoteContext x.id fresh peer now).IsLinkable ∧ (x.id : Int) < 2 ^ 31 := by
  have hmark : x.mark ∈ o.outline.marks := mark_mem_marks_of_mem hx
  have hlt : x.id < o.nextSpan := h.outline.id_lt x.mark hmark
  have hbound : o.nextSpan ≤ 2 ^ 31 := h.outline.nextSpan_le
  refine ⟨⟨h.bearings.trace_ne, h.outline.id_ne, Int.natCast_nonneg x.id⟩, ?_⟩
  omega

/-! ### The receiver -/

/-- A recorded segment as it begins, below no other. -/
def fresh (c : Config) (id trace : String) : OpenSegment where
  segment := { id, trace, service := c.serviceName, instanceName := c.instanceName }
  stack := []
  sampled := true
  nextSpan := 0
  primary := none
  correlation := .empty c.correlationLimits
  extension := .none
  pendingRef := none
  ledger := none

/-- The decision that comes with a trace overrides the gate. -/
theorem start_sampled (t : Tracer) (ordinal now : UInt64) (name : String) :
    ∃ id trace, (start t ordinal now name .sampled none).value.1 = fresh t.config id trace :=
  ⟨_, _, rfl⟩

end OpenSegment

namespace Site

/-- An idle strand that receives a recorded context begins a recorded segment, with an
    entry span as its first span. -/
theorem entry_of_remote {s : Site} (hidle : s.strand.active = none)
    (hpending : s.strand.continuation = none) (hlimit : 1 ≤ s.tracer.config.spanLimit)
    {k : Carrier} {r : RemoteContext} (hread : (s.readCarrier k).value = .remote r)
    (name : String) (now : UInt64) :
    ∃ x s' o trace, (s.entry name (some k) now).value = (.recorded x, s') ∧
      s'.strand.active = some o ∧
      s'.tracer.counters = s.tracer.counters.created true false ∧
      o.stack = [.recorded x] ∧ o.sampled = true ∧
      o.bearings = (Bearings.new s.tracer.config trace).joined (OpenSegment.remoteRef r)
        r.correlation r.extension.skipAnalysis ∧
      x.id = 0 ∧ x.kind = .entry ∧ x.ref = some (OpenSegment.remoteRef r) ∧
      x.tags = OpenSegment.latencyTags r now ++ o.entryTags s.tracer.config.autoTagKeys ∧
      x.skipAnalysis = r.extension.skipAnalysis := by
  obtain ⟨id, trace, hstart⟩ := OpenSegment.start_sampled s.tracer s.strand.ordinal now name
  have hconfig := (OpenSegment.outline_start s.tracer s.strand.ordinal now name .sampled none).2.2
  obtain ⟨x, o, hvalue, hstack, hx⟩ := OpenSegment.openSpan_of_remote
    (o := OpenSegment.fresh s.tracer.config id trace) rfl (OpenSegment.room_of_begun rfl hlimit)
    name now r
  have hbearings := OpenSegment.bearings_openSpan s.tracer.config
    (OpenSegment.fresh s.tracer.config id trace) .entry name now (some r)
  have hout := OpenSegment.outline_openSpan s.tracer.config
    (OpenSegment.fresh s.tracer.config id trace) .entry name now (some r)
  rw [hvalue] at hbearings hout
  have hsampled : o.sampled = true := by
    have hfields := Outline.opened_fields
      (OpenSegment.fresh s.tracer.config id trace).outline s.tracer.config.capacity .entry now
    rw [← hout] at hfields
    exact hfields.2.1
  have hentry : (s.entry name (some k) now).value = (.recorded x,
      withActive ⟨(OpenSegment.start s.tracer s.strand.ordinal now name .sampled none).value.2,
        { s.strand with continuation := none }⟩ o) := by
    rw [entry_value]
    unfold inboundOf openSpan segmentFor
    simp only [hread, inheritedFrom, hidle, hpending, Logged.bind_value, Logged.pure_value]
    rw [hstart, hconfig, hvalue]
  subst hx
  exact ⟨_, _, o, trace, hentry, rfl, rfl, hstack, hsampled, hbearings, rfl, rfl, rfl, rfl, rfl⟩

end Site

/-! ### End to end -/

namespace OpenSegment

/-- **Following**: the segment `o'` of a server was begun with the entry span `y`, below
    the parent `ref` in the segment `o` of a client, and the message was `elapsed`
    milliseconds on its way. -/
structure Follows (limits : Correlation.Limits) (o : OpenSegment) (ref : ParentRef)
    (elapsed : Nat) (o' : OpenSegment) (y : Span) : Prop where
  stack : o'.stack = [.recorded y]
  first : y.id = 0
  kind : y.kind = .entry
  sampled : o'.sampled = true
  trace : o'.segment.trace = o.segment.trace
  parent : o'.segment.parent = some ref
  ref : y.ref = some ref
  latency : y.tagValue? Tag.transmissionLatency.key = some (toString elapsed)
  /-- The server takes the entries in order, as far as its own limits go. -/
  correlation : o'.correlation = ⟨limits, Correlation.admitted limits o.correlation.entries⟩
  segmentSkip : o'.segment.skipAnalysis = o.extension.skipAnalysis
  extensionSkip : o'.extension.skipAnalysis = o.extension.skipAnalysis
  spanSkip : y.skipAnalysis = o.extension.skipAnalysis

theorem Sound.remoteRef_eq {c : Config} {o : OpenSegment} (h : o.Sound c) (x : Span)
    (peer : String) (now : UInt64) :
    remoteRef (o.remoteContext x.id (some x) peer now) = o.exitRef c x peer := by
  have hservice : o.segment.service = c.serviceName := h.bearings.service
  have hinstance : o.segment.instanceName = c.instanceName := h.bearings.instanceName
  unfold remoteRef remoteContext exitRef
  rw [hservice, hinstance]

end OpenSegment

/-- An idle server that reads what was sent from a sound segment follows it. -/
theorem Site.entry_follows {c : Config} {o : OpenSegment} (ho : o.Sound c) {x : Span}
    {peer : String} {sentAt : UInt64} {server : Site} (hidle : server.strand.active = none)
    (hpending : server.strand.continuation = none)
    (hlimit : 1 ≤ server.tracer.config.spanLimit) {k : Carrier}
    (hread : (server.readCarrier k).value = .remote
      ((o.remoteContext x.id (some x) peer sentAt).within server.tracer.config.correlationLimits))
    (name : String) (arrivedAt : UInt64) :
    ∃ y server' o', (server.entry name (some k) arrivedAt).value = (.recorded y, server') ∧
      server'.strand.active = some o' ∧
      server'.tracer.counters = server.tracer.counters.created true false ∧
      o.Follows server.tracer.config.correlationLimits (o.exitRef c x peer)
        (arrivedAt.toNat - sentAt.toNat) o' y := by
  obtain ⟨-, -, -, hadmitted⟩ := RemoteContext.extract_remote hread
  obtain ⟨y, server', o', trace, hentry, hactive, hcounters, hstack, hsampled, hbearings, hid,
    hkind, href, htags, hskip⟩ := entry_of_remote hidle hpending hlimit hread name arrivedAt
  have hexit := ho.remoteRef_eq x peer sentAt
  have hparent := congrArg Bearings.parent hbearings
  have hmerged := congrArg Bearings.correlation hbearings
  have hsegment := congrArg Bearings.skipAnalysis hbearings
  have hextension := congrArg (fun b => b.extension.skipAnalysis) hbearings
  refine ⟨y, server', o', hentry, hactive, hcounters, ?_⟩
  refine
    { stack := hstack
      first := hid
      kind := hkind
      sampled := hsampled
      trace := congrArg Bearings.trace hbearings
      parent := hparent.trans (congrArg some hexit)
      ref := href.trans (congrArg some hexit)
      latency := ?_
      correlation := ?_
      segmentSkip := hsegment.trans (Bool.false_or _)
      extensionSkip := hextension.trans (Bool.false_or _)
      spanSkip := hskip }
  · -- tags for correlation entries come behind the one for the time on the way
    unfold Span.tagValue?
    rw [htags]
    exact Entries.get?_cons _ _ _
  · -- the entries were admitted when they were read, and are admitted again
    refine hmerged.trans ((Correlation.merge_empty_value hadmitted _).trans ?_)
    exact congrArg (Correlation.mk _) (Correlation.admitted_admitted _ _)

namespace Engine

/-- **Link between processes**: from any recorded exit span that a client comes to, by
    any carrier under its label and any empty transport, to any idle server under the
    same label that records spans at all. -/
theorem server_follows_client (config : Config) (reporter : Reporter) (process : String)
    (start : UInt64) (ops : List (UInt64 × Op)) {i : Nat} {client : Site} {o : OpenSegment}
    {x : Span} {peer : String}
    (hclient : ((ofTracer (.start config reporter process start)).run ops).site? i = some client)
    (hopen : client.strand.active = some o) (hsampled : o.sampled = true)
    (htop : o.active? = some (.recorded x)) (hexit : x.kind = .exit) (hpeer : x.peer = some peer)
    (server : Site) (hidle : server.strand.active = none)
    (hpending : server.strand.continuation = none)
    (hlimit : 1 ≤ server.tracer.config.spanLimit) (hlabel : server.label = client.label)
    (hascii : Text.IsAscii client.label) (k : Carrier) (hcarrier : k.label = client.label)
    {t : Transport} (hempty : t = .table [] ∨ t = .document (.object []))
    (name : String) (sentAt arrivedAt : UInt64) :
    ∃ sent, client.inject k sentAt = .ok sent ∧
    ∃ y server' o', (server.entryFrom name (sent.value.writeTo t) arrivedAt).value =
        (.recorded y, server') ∧
      server'.strand.active = some o' ∧
      server'.tracer.counters = server.tracer.counters.created true false ∧
      o.Follows server.tracer.config.correlationLimits (o.exitRef config x peer)
        (arrivedAt.toNat - sentAt.toNat) o' y := by
  -- whatever the client did before, its segment is sound
  obtain ⟨-, hsound⟩ := (Strand.sound_invariant config).of_run reporter process start ops hclient
  have ho := hsound.active o hopen
  obtain ⟨hlinkable, hspan⟩ := ho.isLinkable (List.mem_of_head? htop) (some x) peer sentAt
  have hsent : client.inject k sentAt =
      .ok (pure ((o.remoteContext x.id (some x) peer sentAt).inject k)) := by
    exact Site.inject_eq_ok.mpr
      ⟨o, hopen, OpenSegment.inject_of_exit hsampled htop hexit hpeer k sentAt⟩
  refine ⟨_, hsent, ?_⟩
  generalize hk : (o.remoteContext x.id (some x) peer sentAt).inject k = filled
  have hfilled : filled.label = client.label := by
    rw [← hk]
    exact hcarrier
  -- the headers come through the transport unchanged
  have hround : Carrier.readFrom (filled.writeTo t) server.label = filled := by
    rw [hlabel, ← hfilled]
    rw [← hfilled] at hascii
    exact Carrier.readFrom_writeTo hascii hempty
  -- and the context is read from them, with the entries that the server admits
  have hread : (server.readCarrier filled).value = .remote
      ((o.remoteContext x.id (some x) peer sentAt).within
        server.tracer.config.correlationLimits) := by
    rw [← hk]
    exact RemoteContext.extract_inject_of_isLinkable hlinkable hspan ho.bearings.correlation.2 k
  unfold Site.entryFrom
  rw [Logged.pure_value, hround]
  exact Site.entry_follows ho hidle hpending hlimit hread name arrivedAt

/-- A client whose header names have a label with a capital. -/
def shop : Config := { Config.standard "shop-1" with label := some "Shop" }

/-- The client serves a request, stores two entries, and calls a server from inside. -/
def shopRun : List (UInt64 × Op) :=
  [(1, .openStrand), (2, .strand 0 (.entry "/cart" none)),
    (3, .strand 0 (.putCorrelation "note" "longer than the bank allows")),
    (4, .strand 0 (.putCorrelation "user" "ann")), (5, .strand 0 (.exit "POST" "bank:80" none))]

/-- An idle server with room for one span, and for one short entry. -/
def bank : Site where
  tracer := .start { Config.standard "bank-1" with
    label := some "Shop", spanLimit := 1, correlationLimits := ⟨1, 8⟩ } .collecting "b" 100
  strand := { ordinal := 0 }

theorem server_follows_client_shop :
    ∃ client o x, ((ofTracer (.start shop .collecting "a" 0)).run shopRun).site? 0 = some client ∧
      client.strand.active = some o ∧ o.active? = some (.recorded x) ∧ x.id = 1 ∧
      o.correlation.entries.length = 2 ∧
      ∃ sent, client.inject (.empty "Shop") 110 = .ok sent ∧
      ∃ y server' o',
        (bank.entryFrom "/pay" (sent.value.writeTo (.document (.object []))) 117).value =
          (.recorded y, server') ∧
        server'.strand.active = some o' ∧
        server'.tracer.counters = bank.tracer.counters.created true false ∧
        o.Follows ⟨1, 8⟩ (o.exitRef shop x "bank:80") 7 o' y := by
  have hrun : (((ofTracer (.start shop .collecting "a" 0)).run shopRun).site? 0).any (fun s =>
      s.label == "Shop" && s.strand.active.any fun o =>
        o.sampled && o.correlation.entries.length == 2 && (o.active?.bind Frame.span?).any fun x =>
          x.id == 1 && x.kind == .exit && x.peer == some "bank:80") = true := by decide +kernel
  obtain ⟨client, hclient, hrun⟩ := (Option.any_eq_true _ _).mp hrun
  obtain ⟨hlabel, hrun⟩ := Bool.and_eq_true_iff.mp hrun
  obtain ⟨o, hopen, hrun⟩ := (Option.any_eq_true _ _).mp hrun
  obtain ⟨hrun, htop⟩ := Bool.and_eq_true_iff.mp hrun
  obtain ⟨hsampled, hentries⟩ := Bool.and_eq_true_iff.mp hrun
  obtain ⟨x, htop, hspan⟩ := (Option.any_eq_true _ _).mp htop
  obtain ⟨f, hframe, hx⟩ := Option.bind_eq_some_iff.mp htop
  obtain rfl := Frame.eq_recorded hx
  simp only [Bool.and_eq_true, beq_iff_eq] at hlabel hentries hspan
  obtain ⟨⟨hid, hexit⟩, hpeer⟩ := hspan
  refine ⟨client, o, x, hclient, hopen, hframe, hid, hentries, ?_⟩
  exact server_follows_client shop .collecting "a" 0 shopRun hclient hopen hsampled hframe hexit
    hpeer bank rfl rfl (by decide) (by rw [hlabel]; decide) (by rw [hlabel]; decide)
    (.empty "Shop") hlabel.symm (.inr rfl) "/pay" 110 117

end Engine

end TraceLink
