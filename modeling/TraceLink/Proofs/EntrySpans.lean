import TraceLink.Proofs.Bearings

/-! # Entry spans below a remote context

    While a segment is sampled and has room, the next span is recorded, and this is
    all that happens to it when it is opened below a remote context: an entry span
    gets the reference to its parent and the tag for the time on the way, and then
    the tags for the correlation entries that the configuration names. -/

namespace TraceLink

namespace OpenSegment

/-! ### The next span -/

/-- The segment after its next span was recorded. -/
def afterFresh (o : OpenSegment) (kind : SpanKind) (name : String) (now : UInt64) :
    OpenSegment :=
  { o with
    nextSpan := o.nextSpan + 1
    pendingRef := none
    primary := some (promote o.primary (o.freshSpan kind name now)) }

theorem newFrame_of_room {o : OpenSegment} (hsampled : o.sampled = true) {limit : Nat}
    (hroom : o.isFull limit = false) (kind : SpanKind) (name : String) (now : UInt64) :
    (o.newFrame limit kind name now).value =
      (.recorded (o.freshSpan kind name now), o.afterFresh kind name now) := by
  have hdropped : ¬ (!o.sampled) = true := by simp [hsampled]
  have hfull : ¬ o.isFull limit = true := by simp [hroom]
  unfold newFrame
  rw [if_neg hdropped, if_neg hfull]
  rfl

/-- A segment that begins has room, if the limit lets it record a span. -/
theorem room_of_begun {o : OpenSegment} (hnext : o.nextSpan = 0) {limit : Nat}
    (hlimit : 1 ≤ limit) : o.isFull limit = false := by
  unfold isFull idBound
  rw [hnext]
  simp only [Bool.or_eq_false_iff, decide_eq_false_iff_not]
  omega

/-! ### What is written into it -/

/-- The tag for the time that a message was on its way, if it is known. -/
def latencyTags (c : RemoteContext) (now : UInt64) : Entries String String :=
  match c.extension.sentAt with
  | some sent => [(Tag.transmissionLatency.key, toString (latency sent now))]
  | none => []

theorem tagWith_latency {s : Span} (hopen : s.isClosed = false) (value : String) :
    (s.tagWith Tag.transmissionLatency value).value =
      { s with tags := s.tags ++ [(Tag.transmissionLatency.key, value)] } := by
  rw [Span.tagWith, Span.whileOpen_of_open hopen]
  rfl

/-- What a remote context leaves on an open entry span. -/
theorem markInbound_entry {s : Span} (hkind : s.kind = .entry) (hopen : s.isClosed = false)
    (c : RemoteContext) (now : UInt64) :
    (markInbound c now s).value =
      { s with
        ref := some (remoteRef c)
        tags := s.tags ++ latencyTags c now
        skipAnalysis := s.skipAnalysis || c.extension.skipAnalysis } := by
  have hskip (s : Span) (skip : Bool) :
      (if skip = true then { s with skipAnalysis := true } else s) =
        { s with skipAnalysis := s.skipAnalysis || skip } := by
    cases skip with
    | true => rw [if_pos rfl, Bool.or_true]
    | false => rw [if_neg Bool.false_ne_true, Bool.or_false]
  have hlinked : ({ s with ref := some (remoteRef c) } : Span).isClosed = false := hopen
  rw [markInbound_value]
  unfold latencyTags
  simp only [if_pos hkind, hskip]
  cases c.extension.sentAt with
  | none => simp only [List.append_nil]
  | some sent => simp only [tagWith_latency hlinked]

/-- The tags for the correlation entries under the given keys. -/
def entryTags (o : OpenSegment) (keys : List String) : Entries String String :=
  keys.filterMap fun key => (o.correlation.get? key).map fun value => (key, value)

theorem autoTag_recorded (o : OpenSegment) (keys : List String) {s : Span}
    (hopen : s.isClosed = false) :
    (o.autoTag keys (.recorded s)).value =
      .recorded { s with tags := s.tags ++ o.entryTags keys } := by
  simp only [autoTag, Frame.modify, Logged.bind_value, Logged.pure_value, Logged.foldlM_value]
  congr 1
  unfold entryTags
  -- each key that has an entry adds one tag, in the order of the keys
  induction keys generalizing s with
  | nil => simp only [List.foldl_nil, List.filterMap_nil, List.append_nil]
  | cons key keys ih =>
    rw [List.foldl_cons]
    cases hget : o.correlation.get? key with
    | none =>
      rw [List.filterMap_cons_none (by rw [hget]; rfl)]
      exact ih hopen
    | some value =>
      rw [List.filterMap_cons_some (b := (key, value)) (by rw [hget]; rfl)]
      have htag : (s.tag key value).value = { s with tags := s.tags ++ [(key, value)] } := by
        rw [Span.tag, Span.whileOpen_of_open hopen]
        rfl
      have hopen' : ({ s with tags := s.tags ++ [(key, value)] } : Span).isClosed = false := hopen
      rw [htag, ih hopen', List.append_assoc, List.singleton_append]

/-! ### Entry spans below a remote context -/

theorem stack_applyInbound (o : OpenSegment) (f : Frame) (c : RemoteContext) (now : UInt64) :
    (o.applyInbound f c now).value.2.stack = o.stack := by
  have hskip (o : OpenSegment) (skip : Bool) : (o.skipIf skip).stack = o.stack := by
    cases skip <;> rfl
  unfold applyInbound
  simp only [Logged.bind_value, Logged.pure_value, hskip, link_value]

/-- An entry span that is opened below a remote context in a segment with room. -/
theorem openSpan_of_remote {c : Config} {o : OpenSegment} (hsampled : o.sampled = true)
    (hroom : o.isFull c.spanLimit = false) (name : String) (now : UInt64) (r : RemoteContext) :
    ∃ s o', (o.openSpan c .entry name now (some r)).value = (.recorded s, o') ∧
      o'.stack = .recorded s :: o.stack ∧
      s = { o.freshSpan .entry name now with
        ref := some (remoteRef r)
        tags := latencyTags r now ++ o'.entryTags c.autoTagKeys
        skipAnalysis := o.extension.skipAnalysis || r.extension.skipAnalysis } := by
  have hstack := stack_applyInbound (o.afterFresh .entry name now)
    (.recorded (o.freshSpan .entry name now)) r now
  -- the new span is an entry span and open, so it takes the reference and the tag
  have hmark : ((o.afterFresh .entry name now).applyInbound
      (.recorded (o.freshSpan .entry name now)) r now).value.1 =
      .recorded { o.freshSpan .entry name now with
        ref := some (remoteRef r)
        tags := latencyTags r now
        skipAnalysis := o.extension.skipAnalysis || r.extension.skipAnalysis } :=
    congrArg Frame.recorded (markInbound_entry (s := o.freshSpan .entry name now) rfl rfl r now)
  unfold openSpan
  simp only [Logged.bind_value, Logged.pure_value, newFrame_of_room hsampled hroom]
  generalize ((o.afterFresh .entry name now).applyInbound
    (.recorded (o.freshSpan .entry name now)) r now).value = applied at hstack hmark ⊢
  obtain ⟨f, o'⟩ := applied
  obtain rfl : f = _ := hmark
  rw [autoTag_recorded o' c.autoTagKeys rfl]
  refine ⟨_, _, rfl, ?_, rfl⟩
  show _ :: o'.stack = _ :: o.stack
  rw [show o'.stack = o.stack from hstack]

end OpenSegment

end TraceLink
