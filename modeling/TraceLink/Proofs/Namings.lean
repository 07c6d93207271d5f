import TraceLink.Proofs.CustodySteps
import TraceLink.Proofs.Guises

/-! # Names of segments

    The source of ids names a segment when it begins: it gives an id to the segment, and
    one to its trace, which counts until a parent brings another one.

    No operation looks at these names. So a segment under other names does the same, and
    what it sends, captures and reports differs in the names only. -/

namespace TraceLink

/-- **Names** that the source of ids gives to a segment. -/
structure Names where
  segment : String
  trace : String
  deriving Repr, DecidableEq

/-- The names of a segment that begins on the strand with the given ordinal. -/
def IdSource.names (i : IdSource) (ordinal now : UInt64) : Names :=
  let (segment, i) := i.generate ordinal now
  ⟨segment, (i.generate ordinal now).1⟩

/-- The trace of a segment with these names: the one that came with its parent, if any. -/
def Names.traceOf (ν : Names) (inherited : Option String) : String := inherited.getD ν.trace

/-! ### The same under other names -/

/-- The trace that came with the parent. -/
def Segment.inherited (g : Segment) : Option String := g.parent.map (·.trace)

/-- The segment under other names. -/
def Segment.named (ν : Names) (g : Segment) : Segment :=
  { g with id := ν.segment, trace := ν.traceOf g.inherited }

/-- The context that is sent from a segment under other names. -/
def RemoteContext.named (ν : Names) (inherited : Option String) (c : RemoteContext) :
    RemoteContext :=
  { c with segment := ν.segment, trace := ν.traceOf inherited }

/-- The snapshot of a segment under other names. -/
def Snapshot.named (ν : Names) (inherited : Option String) : Snapshot → Snapshot
  | .ignored _ => .ignored ν.segment
  | .sampled c => .sampled { c with segment := ν.segment, trace := ν.traceOf inherited }

/-- The ledger of a segment under other names. -/
def Ledger.named (ν : Names) (l : Ledger) : Ledger :=
  { l with parked := l.parked.map (Segment.named ν) }

namespace OpenSegment

/-- The open segment under other names, and with another ledger. -/
def named (ν : Names) (n : Option Nat) (o : OpenSegment) : OpenSegment :=
  { o with segment := o.segment.named ν, ledger := n }

/-- Other names and another ledger as a guise. -/
def naming (ν : Names) (n : Option Nat) : Guise where
  segment := Segment.named ν
  ledger _ := n
  service _ := rfl
  instanceName _ := rfl
  linked g ref := by
    obtain ⟨id, trace, service, instanceName, spans, parent, skip, limited⟩ := g
    cases parent with
    | none => rfl
    | some parent => rfl
  skipped _ := rfl
  limited _ := rfl

variable (o : OpenSegment) (ν : Names) (n : Option Nat)

/-! ### What is sent and captured -/

/-- The context that is sent from a frame, none if the trace is sent as ignored. -/
def sent? (o : OpenSegment) (f : Frame) (peer : String) (now : UInt64) : Option RemoteContext :=
  if !o.sampled then none
  else match f with
    | .recorded s => some (o.remoteContext s.id (some s) peer now)
    | .placeholder _ => o.nearestRecorded?.map fun s => o.remoteContext s.id none peer now

/-- A carrier filled with what is sent. -/
def filled (sent : Option RemoteContext) (k : Carrier) : Carrier :=
  match sent with
  | some c => c.inject k
  | none => RemoteContext.injectIgnored k

theorem send_value (f : Frame) (peer : String) (k : Carrier) (now : UInt64) :
    (o.send f peer k now).value = filled (o.sent? f peer now) k := by
  unfold send sent?
  cases o.sampled with
  | false => rfl
  | true =>
    cases f with
    | recorded s => rfl
    | placeholder name =>
      generalize o.nearestRecorded? = nearest
      cases nearest with
      | none => rfl
      | some s => rfl

theorem sent?_named (f : Frame) (peer : String) (now : UInt64) :
    (o.named ν n).sent? f peer now =
      (o.sent? f peer now).map (RemoteContext.named ν o.segment.inherited) := by
  unfold sent?
  rw [show (o.named ν n).sampled = o.sampled from rfl]
  cases o.sampled with
  | false => rfl
  | true =>
    cases f with
    | recorded s => rfl
    | placeholder name =>
      show Option.map _ o.nearestRecorded? = Option.map _ (Option.map _ o.nearestRecorded?)
      rw [Option.map_map]
      rfl

theorem capture_named : (o.named ν n).capture = o.capture.named ν o.segment.inherited := by
  unfold capture
  rw [show (o.named ν n).sampled = o.sampled from rfl]
  cases o.sampled with
  | false => rfl
  | true => rfl

/-- What an exit span fills its carrier with. -/
theorem openExit_named (c : Config) (name peer : String) (k : Option Carrier) (now : UInt64) :
    ∃ sent inherited, ∀ ν n, ((o.named ν n).openExit c name peer k now).value.2.1 =
      k.map (filled (Option.map (RemoteContext.named ν inherited) sent)) := by
  let fresh := (o.newFrame c.spanLimit .exit name now).value
  let f := (fresh.1.modify (Span.setPeer peer)).value
  refine ⟨fresh.2.sent? f peer now, fresh.2.segment.inherited, fun ν n => ?_⟩
  have hfresh : ((o.named ν n).newFrame c.spanLimit .exit name now).value =
      (fresh.1, fresh.2.named ν n) := (naming ν n).on_newFrame o _ _ _ _
  unfold openExit
  cases k with
  | none => rfl
  | some k =>
    simp only [Logged.bind_value, Logged.pure_value, hfresh, send_value, sent?_named]
    rfl

/-- Whether a carrier can be filled from the active span does not depend on names. -/
theorem inject_named (k : Carrier) (now : UInt64) :
    (∃ e, ∀ ν n, (o.named ν n).inject k now = .fail e k) ∨
      ∃ f, ∀ ν n, (o.named ν n).inject k now = .ok ((o.named ν n).send f (peerOf f) k now) := by
  unfold inject
  cases hactive : o.active? with
  | none =>
    refine .inl ⟨.stackEmpty, fun ν n => ?_⟩
    rw [show (o.named ν n).active? = none from hactive]
  | some f =>
    have hactive (ν : Names) (n : Option Nat) : (o.named ν n).active? = some f := hactive
    cases f with
    | placeholder name =>
      refine .inr ⟨.placeholder name, fun ν n => ?_⟩
      rw [hactive ν n]
    | recorded s =>
      by_cases hrefused : (o.sampled && s.kind ≠ .exit) = true
      · refine .inl ⟨.notExitSpan s.id, fun ν n => ?_⟩
        rw [hactive ν n]
        exact if_pos hrefused
      · refine .inr ⟨.recorded s, fun ν n => ?_⟩
        rw [hactive ν n]
        exact if_neg hrefused

end OpenSegment

/-! ### Ledgers -/

namespace Ledger

variable (l : Ledger) (ν : Names)

theorem pop_named (s : Span) :
    ((l.named ν).pop s).value = ((l.pop s).value.1, (l.pop s).value.2.named ν) := by
  unfold pop
  rw [show (l.named ν).records = l.records from rfl]
  cases l.records.get? s.id with
  | none => rfl
  | some d =>
    obtain ⟨span, stop, tags, logs, failed⟩ := d
    cases stop with
    | none => rfl
    | some time => rfl

theorem update_named (id : Nat) (change : Deferral → Deferral) :
    (l.named ν).update id change = (l.update id change).named ν := by
  unfold update
  rw [show (l.named ν).open? id = l.open? id from rfl]
  cases l.open? id with
  | none => rfl
  | some d => rfl

theorem release_named :
    (l.named ν).release = (l.release.1.map (Segment.named ν), l.release.2.named ν) := by
  unfold release
  rw [show (l.named ν).parked = l.parked.map (Segment.named ν) from rfl]
  cases hparked : l.parked with
  | none =>
    show (none, l.named ν) = (none, l.named ν)
    rfl
  | some g =>
    by_cases hpending : l.pending = 0
    · simp only [Option.map_some, if_pos hpending, show (l.named ν).pending = l.pending from rfl]
      rfl
    · simp only [Option.map_some, if_neg hpending, show (l.named ν).pending = l.pending from rfl]
      rfl

theorem finish_named (id : Nat) (time : UInt64) :
    ((l.named ν).finish id time).value =
      ((l.finish id time).value.1.map (Segment.named ν), (l.finish id time).value.2.named ν) := by
  unfold finish
  rw [show (l.named ν).open? id = l.open? id from rfl]
  cases l.open? id with
  | none => rfl
  | some d =>
    obtain ⟨span, stop, tags, logs, failed⟩ := d
    let released (records : Entries Nat Deferral) (completed : List Span) : Ledger :=
      { l with records, completed, pending := l.pending - 1 }
    cases span with
    | none => exact release_named (released _ l.completed) ν
    | some s => exact release_named (released _ (l.completed ++ [_])) ν

/-- What a handle does to a ledger does not depend on the names of its segment. -/
theorem handle_named (id : Nat) (now : UInt64) (op : HandleOp) :
    ((l.named ν).handle id now op).value =
      ((l.handle id now op).value.1.map (Segment.named ν),
        (l.handle id now op).value.2.named ν) := by
  cases op with
  | tag key value => exact congrArg (none, ·) (l.update_named ν id _)
  | log event => exact congrArg (none, ·) (l.update_named ν id _)
  | markFailed => exact congrArg (none, ·) (l.update_named ν id _)
  | finish time => exact l.finish_named ν id _

theorem settle_value (g : Segment) :
    (l.settle g).value =
      if l.pending = 0 then (some (g.archiveAll l.completed), { l with completed := [] })
      else (none, { l with parked := some g }) := by
  unfold settle
  split
  · rfl
  · rfl

end Ledger

/-! ### Segments that begin -/

/-- What a gate without a limit decides. -/
def Gate.admits (g : Gate) (name : String) : Inherited → Bool
  | .sampled => true
  | .ignored => false
  | .undecided => !g.ignoresName name

/-- The suffixes and the rate of a gate. -/
def Gate.setting (g : Gate) : List String × Int := (g.suffixes, g.window.rate)

theorem RateWindow.rate_roll (w : RateWindow) (now : UInt64) : (w.roll now).rate = w.rate := by
  unfold roll
  split
  · rfl
  · rfl

/-- A gate keeps its suffixes and its rate. -/
theorem Gate.setting_judge (g : Gate) (name : String) (inherited : Inherited) (now : UInt64) :
    (g.judge name inherited now).value.2.setting = g.setting := by
  unfold judge
  cases inherited with
  | sampled => exact congrArg (g.suffixes, ·) (g.window.rate_roll now)
  | ignored => rfl
  | undecided =>
    simp only
    split
    · rfl
    · show (g.suffixes, (g.window.attempt now).2.rate) = _
      unfold RateWindow.attempt
      split
      · rfl
      · exact congrArg (g.suffixes, ·) (g.window.rate_roll now)

/-- Without a limit, what others did does not count. -/
theorem Gate.judge_of_unlimited {g : Gate} (h : g.window.rate ≤ 0) (name : String)
    (inherited : Inherited) (now : UInt64) :
    (g.judge name inherited now).value.1 = g.admits name inherited := by
  unfold judge admits
  cases inherited with
  | sampled => rfl
  | ignored => rfl
  | undecided =>
    simp only
    by_cases hname : g.ignoresName name = true
    · rw [if_pos hname, hname]
      rfl
    · rw [if_neg hname, Bool.eq_false_iff.mpr hname]
      show (g.window.attempt now).1 = true
      unfold RateWindow.attempt
      rw [if_pos h]

namespace OpenSegment

/-- A segment that begins, before it continues a snapshot. -/
def blank (c : Config) (ν : Names) (sampled : Bool) : OpenSegment where
  segment := ⟨ν.segment, ν.trace, c.serviceName, c.instanceName, [], none, false, false⟩
  stack := []
  sampled := sampled
  nextSpan := 0
  primary := none
  correlation := .empty c.correlationLimits
  extension := .none
  pendingRef := none
  ledger := none

theorem start_value (t : Tracer) (ordinal now : UInt64) (name : String) (inherited : Inherited)
    (continuation : Option Snapshot) :
    let sampled := (t.gate.judge name (decision inherited continuation) now).value.1
    (start t ordinal now name inherited continuation).value.1 =
      match continuation with
      | some (.sampled c) =>
        ((blank t.config (t.ids.names ordinal now) sampled).continueFrom c).value
      | _ => blank t.config (t.ids.names ordinal now) sampled := by
  unfold start
  cases continuation with
  | none => rfl
  | some snapshot =>
    cases snapshot with
    | ignored id => rfl
    | sampled c => rfl

/-- The tracer after a segment began. -/
theorem start_tracer (t : Tracer) (ordinal now : UInt64) (name : String) (inherited : Inherited)
    (continuation : Option Snapshot) :
    (start t ordinal now name inherited continuation).value.2 =
      { t with
        gate := (t.gate.judge name (decision inherited continuation) now).value.2
        ids := ((t.ids.generate ordinal now).2.generate ordinal now).2
        counters := (start t ordinal now name inherited continuation).value.2.counters } := by
  unfold start
  cases continuation with
  | none => rfl
  | some snapshot =>
    cases snapshot with
    | ignored id => rfl
    | sampled c => rfl

/-- **A segment that begins** in another tracer with the same settings is the same but for
    its names. -/
theorem start_named {t t' : Tracer} (hconfig : t'.config = t.config)
    (hsuffixes : t'.gate.suffixes = t.gate.suffixes) (hrate : t.gate.window.rate ≤ 0)
    (hrate' : t'.gate.window.rate ≤ 0) (ordinal now : UInt64) (name : String)
    (inherited : Inherited) (continuation : Option Snapshot) :
    (start t' ordinal now name inherited continuation).value.1 =
      (start t ordinal now name inherited continuation).value.1.named
        (t'.ids.names ordinal now) none := by
  have hdecision : (t'.gate.judge name (decision inherited continuation) now).value.1 =
      (t.gate.judge name (decision inherited continuation) now).value.1 := by
    rw [Gate.judge_of_unlimited hrate, Gate.judge_of_unlimited hrate']
    unfold Gate.admits Gate.ignoresName
    rw [hsuffixes]
  have hnaming := (naming (t'.ids.names ordinal now) none).on_continueFrom
    (blank t.config (t.ids.names ordinal now)
      (t.gate.judge name (decision inherited continuation) now).value.1)
  rw [start_value, start_value, hdecision, hconfig]
  cases continuation with
  | none => rfl
  | some snapshot =>
    cases snapshot with
    | ignored id => rfl
    | sampled c => exact hnaming c

/-- The open segment bears these names, and has no ledger. Its trace is another one only if it
    came with a parent. -/
def Bears (ν : Names) (o : OpenSegment) : Prop := o.named ν none = o

/-- **A segment that begins** bears the names that are generated for it. -/
theorem start_bears (t : Tracer) (ordinal now : UInt64) (name : String) (inherited : Inherited)
    (continuation : Option Snapshot) :
    (start t ordinal now name inherited continuation).value.1.Bears (t.ids.names ordinal now) := by
  have hnaming := (naming (t.ids.names ordinal now) none).on_continueFrom
    (blank t.config (t.ids.names ordinal now)
      (t.gate.judge name (decision inherited continuation) now).value.1)
  unfold Bears
  rw [start_value]
  cases continuation with
  | none => rfl
  | some snapshot =>
    cases snapshot with
    | ignored id => rfl
    | sampled c => exact (hnaming c).symm

namespace Bears

variable {o o' : OpenSegment} {ν : Names} {c : Config} {name : String} {now : UInt64} {f : Frame}

theorem openSpan (h : o.Bears ν) {kind : SpanKind} {inbound : Option RemoteContext}
    (hopen : (o.openSpan c kind name now inbound).value = (f, o')) : o'.Bears ν := by
  have hopened := (naming ν none).on_openSpan o c kind name now inbound
  rw [show (naming ν none).on o = o from h, hopen] at hopened
  exact (congrArg Prod.snd hopened).symm

theorem openExit (h : o.Bears ν) {peer : String} {k k' : Option Carrier}
    (hopen : (o.openExit c name peer k now).value = (f, k', o')) : o'.Bears ν := by
  have hopened := ((naming ν none).on_openExit o c name peer k now).2
  rw [show (naming ν none).on o = o from h, hopen] at hopened
  exact hopened.symm

end Bears

end OpenSegment

end TraceLink
