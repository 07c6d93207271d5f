import Mathlib.Data.List.ReduceOption
import TraceLink.Proofs.Effects

/-! # Outlines of open segments

    Of an open segment, its *outline* keeps what decides where its spans belong: the
    frames on the stack by the origin of their spans, the archive, how many spans
    were recorded, and the ledger. What is written into a span and what travels with
    the trace is left out.

    Touching a site leaves the outline of its segment as it is. Opening a span
    changes it by `Outline.opened`, whatever kind of span it is and whatever comes
    with it. -/

namespace TraceLink

/-- The span with an id of its own is the one that is found under it. -/
theorem Span.find?_of_unique {ss : List Span} {x : Span} (hmem : x ∈ ss)
    (hunique : ∀ y ∈ ss, y.id = x.id → y = x) :
    (ss.find? fun s => s.id = x.id) = some x := by
  cases hfind : ss.find? fun s => s.id = x.id with
  | none =>
    have hnot := List.find?_eq_none.mp hfind x hmem
    exact absurd (decide_eq_true rfl) hnot
  | some y =>
    have hid : y.id = x.id := by simpa using List.find?_some hfind
    rw [hunique y (List.mem_of_find?_eq_some hfind) hid]

/-! ### Origins -/

/-- **Origin** of a span: what it is born with and never loses. -/
structure Origin where
  id : Nat
  parent : Option Nat
  kind : SpanKind
  start : UInt64
  deriving Repr, DecidableEq

/-- The origin of a span. -/
def Span.origin (s : Span) : Origin := ⟨s.id, s.parent, s.kind, s.start⟩

/-- **Mark** of an open span: its origin, and whether its end is left to a handle. -/
structure Mark where
  origin : Origin
  isAsync : Bool
  deriving Repr, DecidableEq

/-- The mark of a span. -/
def Span.mark (s : Span) : Mark := ⟨s.origin, s.isAsync⟩

/-- The mark of a frame, none for a placeholder. -/
def Frame.mark (f : Frame) : Option Mark := f.span?.map Span.mark

theorem Frame.eq_recorded {f : Frame} {s : Span} (h : f.span? = some s) : f = .recorded s := by
  cases f with
  | recorded s' => exact congrArg recorded (Option.some.inj h)
  | placeholder name => contradiction

namespace Span

/-! What is seen of a span, whatever it is, stays if the change that is made does not show in
    it. It stays also if the span is closed, and the change not made. -/

variable {γ : Type}

theorem whileOpen_congr (seen : Span → γ) (action : String) {change : Span → Span}
    (h : ∀ s, seen (change s) = seen s) (s : Span) :
    seen (whileOpen action change s).value = seen s := by
  unfold whileOpen
  split
  · rfl
  · exact h s

theorem setPeer_congr (seen : Span → γ) (peer : String)
    (h : ∀ s : Span, seen { s with peer := some peer } = seen s) (s : Span) :
    seen (s.setPeer peer).value = seen s := by
  unfold setPeer
  split
  · exact whileOpen_congr seen _ h s
  · rfl

theorem mark_whileOpen (action : String) {change : Span → Span}
    (h : ∀ s, (change s).mark = s.mark) (s : Span) :
    (whileOpen action change s).value.mark = s.mark := whileOpen_congr mark action h s

@[simp] theorem mark_rename (name : String) (s : Span) :
    (s.rename name).value.mark = s.mark := by
  apply mark_whileOpen
  intro s
  rfl

@[simp] theorem mark_setComponent (component : UInt16) (s : Span) :
    (s.setComponent component).value.mark = s.mark := by
  apply mark_whileOpen
  intro s
  rfl

@[simp] theorem mark_setLayer (layer : SpanLayer) (s : Span) :
    (s.setLayer layer).value.mark = s.mark := by
  apply mark_whileOpen
  intro s
  rfl

@[simp] theorem mark_tag (key value : String) (s : Span) :
    (s.tag key value).value.mark = s.mark := by
  apply mark_whileOpen
  intro s
  rfl

@[simp] theorem mark_tagWith (t : Tag) (value : String) (s : Span) :
    (s.tagWith t value).value.mark = s.mark := by
  apply mark_whileOpen
  intro s
  rfl

@[simp] theorem mark_log (event : LogEvent) (s : Span) : (s.log event).value.mark = s.mark := by
  apply mark_whileOpen
  intro s
  rfl

@[simp] theorem mark_markFailed (s : Span) : s.markFailed.value.mark = s.mark := by
  apply mark_whileOpen
  intro s
  rfl

@[simp] theorem mark_setPeer (peer : String) (s : Span) :
    (s.setPeer peer).value.mark = s.mark := by
  apply setPeer_congr mark
  intro s
  rfl

theorem mark_foldlM {α : Type} {change : Span → α → Logged Span}
    (h : ∀ s x, (change s x).value.mark = s.mark) (xs : List α) (s : Span) :
    (xs.foldlM change s).value.mark = s.mark := by
  rw [Logged.foldlM_value]
  induction xs generalizing s with
  | nil => rfl
  | cons x xs ih => exact (ih _).trans (h s x)

theorem mark_edit (now : UInt64) (s : Span) (e : Edit) :
    (s.edit now e).value.2.mark = s.mark := by
  cases e with
  | rename name => exact mark_rename name s
  | tag key value => exact mark_tag key value s
  | tagWith t value => exact mark_tagWith t value s
  | log event => exact mark_log event s
  | logError kind message => exact mark_log _ s
  | markFailed => exact mark_markFailed s
  | setPeer peer => exact mark_setPeer peer s
  | setComponent component => exact mark_setComponent component s
  | setLayer layer => exact mark_setLayer layer s
  | close time =>
    simp only [edit]
    cases h : s.close time with
    | ok s' => rw [close_eq_ok h]; rfl
    | error x => rw [(close_eq_error h).2]; rfl
  | tagValue key => rfl

end Span

namespace Frame

theorem modify_congr {γ : Type} (seen : Span → γ) {change : Span → Logged Span}
    (h : ∀ s, seen (change s).value = seen s) (f : Frame) :
    (f.modify change).value.span?.map seen = f.span?.map seen := by
  cases f with
  | recorded s => exact congrArg some (h s)
  | placeholder name => rfl

theorem mark_modify {change : Span → Logged Span} (h : ∀ s, (change s).value.mark = s.mark)
    (f : Frame) : (f.modify change).value.mark = f.mark := modify_congr Span.mark h f

theorem mark_edit (now : UInt64) (f : Frame) (e : Edit) :
    (f.edit now e).value.2.mark = f.mark := by
  cases f with
  | recorded s => exact congrArg some (Span.mark_edit now s e)
  | placeholder name => rfl

theorem mark_editAll (now : UInt64) (f : Frame) (edits : List Edit) :
    (f.editAll now edits).value.2.mark = f.mark := by
  induction edits generalizing f with
  | nil => rfl
  | cons e edits ih => exact (ih _).trans (mark_edit now f e)

end Frame

/-! ### Outlines -/

/-- **Outline** of an open segment. -/
structure Outline where
  id : String
  sampled : Bool
  /-- The marks of the open spans, the active one first, none for a placeholder. -/
  frames : List (Option Mark)
  /-- The archived spans. -/
  spans : List Span
  sizeLimited : Bool
  nextSpan : Nat
  ledger : Option Nat

/-- The outline of an open segment. -/
def OpenSegment.outline (o : OpenSegment) : Outline where
  id := o.segment.id
  sampled := o.sampled
  frames := o.stack.map Frame.mark
  spans := o.segment.spans
  sizeLimited := o.segment.sizeLimited
  nextSpan := o.nextSpan
  ledger := o.ledger

/-- How many spans of a segment can be recorded. -/
def Config.capacity (c : Config) : Nat := min c.spanLimit OpenSegment.idBound

namespace Outline

/-- The marks of the open spans that are recorded. -/
def marks (x : Outline) : List Mark := x.frames.reduceOption

/-- The marks of an outline with a recorded span on top. -/
theorem marks_of_frames {x : Outline} {m : Mark} {rest : List (Option Mark)}
    (h : x.frames = some m :: rest) : x.marks = m :: rest.reduceOption := by
  rw [marks, h, List.reduceOption_cons_of_some]

/-- The id of the innermost open span that is recorded. -/
def nearest? (x : Outline) : Option Nat := x.marks.head?.map (·.origin.id)

/-- The outline of a segment without spans. -/
def new (id : String) (sampled : Bool) : Outline := ⟨id, sampled, [], [], false, 0, none⟩

/-- The outline after a span was opened in a segment with room for `capacity`
    spans. -/
def opened (x : Outline) (capacity : Nat) (kind : SpanKind) (now : UInt64) : Outline :=
  if !x.sampled then { x with frames := none :: x.frames }
  else if capacity ≤ x.nextSpan then { x with frames := none :: x.frames, sizeLimited := true }
  else
    { x with
      frames := some ⟨⟨x.nextSpan, x.nearest?, kind, now⟩, false⟩ :: x.frames
      nextSpan := x.nextSpan + 1 }

theorem opened_fields (x : Outline) (capacity : Nat) (kind : SpanKind) (now : UInt64) :
    (x.opened capacity kind now).ledger = x.ledger ∧
    (x.opened capacity kind now).sampled = x.sampled ∧
    (x.opened capacity kind now).frames ≠ [] := by
  unfold opened
  split
  · exact ⟨rfl, rfl, List.cons_ne_nil _ _⟩
  · split
    · exact ⟨rfl, rfl, List.cons_ne_nil _ _⟩
    · exact ⟨rfl, rfl, List.cons_ne_nil _ _⟩

theorem id_opened (x : Outline) (capacity : Nat) (kind : SpanKind) (now : UInt64) :
    (x.opened capacity kind now).id = x.id := by
  unfold opened
  split
  · rfl
  · split
    · rfl
    · rfl

end Outline

namespace OpenSegment

@[simp] theorem outline_skipIf (o : OpenSegment) (skip : Bool) :
    (o.skipIf skip).outline = o.outline := by
  cases skip <;> rfl

@[simp] theorem outline_link (o : OpenSegment) (ref : ParentRef) (d : Diagnostic) :
    (o.link ref d).value.outline = o.outline := by
  simp only [link, Segment.link, Logged.bind_value, Logged.pure_value]
  cases o.segment.parent <;> rfl

theorem outline_continueFrom (o : OpenSegment) (c : Captured) :
    (o.continueFrom c).value.outline = o.outline := by
  unfold continueFrom
  simp only [Logged.bind_value, Logged.pure_value, outline_skipIf]
  exact outline_link o (o.strandRef c) (.secondContinuation o.segment.id c.segment)

/-- What a remote context leaves on a span, without the diagnostics. -/
theorem markInbound_value (c : RemoteContext) (now : UInt64) (s : Span) :
    (markInbound c now s).value =
      let linked :=
        if s.kind = .entry then
          match c.extension.sentAt with
          | some sent =>
            (({ s with ref := some (remoteRef c) } : Span).tagWith Tag.transmissionLatency
              (toString (latency sent now))).value
          | none => { s with ref := some (remoteRef c) }
        else s
      if c.extension.skipAnalysis then { linked with skipAnalysis := true } else linked := by
  unfold markInbound
  by_cases hkind : s.kind = .entry
  · cases c.extension.sentAt <;> cases c.extension.skipAnalysis <;> simp [hkind]
  · cases c.extension.skipAnalysis <;> simp [hkind]

theorem mark_markInbound (c : RemoteContext) (now : UInt64) (s : Span) :
    (markInbound c now s).value.mark = s.mark := by
  have hskip (s : Span) :
      (if c.extension.skipAnalysis then { s with skipAnalysis := true } else s).mark = s.mark := by
    split <;> rfl
  rw [markInbound_value]
  -- the flag of the context changes no mark, so only the link and the latency are left
  refine (hskip _).trans ?_
  split
  · split
    · exact Span.mark_tagWith _ _ _
    · rfl
  · rfl

/-- A context that is applied leaves the outline of the segment and the mark of the
    span. -/
theorem outline_applyInbound (o : OpenSegment) (f : Frame) (c : RemoteContext) (now : UInt64) :
    (o.applyInbound f c now).value.1.mark = f.mark ∧
    (o.applyInbound f c now).value.2.outline = o.outline := by
  unfold applyInbound
  simp only [Logged.bind_value, Logged.pure_value, outline_skipIf]
  refine ⟨Frame.mark_modify (mark_markInbound c now) f, ?_⟩
  exact outline_link o (remoteRef c) (.secondParent o.segment.id c.segment)

theorem outline_putCorrelation (o : OpenSegment) (keys : List String) (key value : String) :
    (o.putCorrelation keys key value).value.2.outline = o.outline := by
  unfold putCorrelation
  simp only [Logged.bind_value]
  split
  · split
    · next f rest hstack =>
      have hmark := Frame.mark_modify (fun s => Span.mark_tag key value s) f
      simp only [Logged.bind_value, Logged.pure_value, outline, List.map_cons, hmark, hstack]
    · rfl
  · rfl

/-! ### Stacks -/

theorem frames_of_stack {o : OpenSegment} {f : Frame} {rest : List Frame}
    (h : o.stack = f :: rest) : o.outline.frames = f.mark :: rest.map Frame.mark :=
  congrArg (List.map Frame.mark) h

theorem marks_of_stack {o : OpenSegment} {s : Span} {rest : List Frame}
    (h : o.stack = .recorded s :: rest) :
    o.outline.marks = s.mark :: (rest.map Frame.mark).reduceOption :=
  congrArg List.reduceOption (frames_of_stack h)

theorem mark_mem_marks_of_mem {o : OpenSegment} {s : Span} (h : .recorded s ∈ o.stack) :
    s.mark ∈ o.outline.marks :=
  List.reduceOption_mem_iff.mpr (List.mem_map.mpr ⟨.recorded s, h, rfl⟩)

theorem mark_mem_marks {o : OpenSegment} {s : Span} {rest : List Frame}
    (h : o.stack = .recorded s :: rest) : s.mark ∈ o.outline.marks := by
  apply mark_mem_marks_of_mem
  rw [h]
  exact List.mem_cons_self

/-! ### Opening -/

theorem outline_push (o : OpenSegment) (f : Frame) :
    (o.push f).outline = { o.outline with frames := f.mark :: o.outline.frames } := rfl

theorem nearest?_outline (o : OpenSegment) :
    o.outline.nearest? = o.nearestRecorded?.map (·.id) := by
  unfold Outline.nearest? Outline.marks outline nearestRecorded?
  simp only
  -- both skip the placeholders on top of the first recorded frame
  induction o.stack with
  | nil => rfl
  | cons f rest ih =>
    cases f with
    | recorded s => rfl
    | placeholder name => exact ih

theorem isFull_eq (o : OpenSegment) (c : Config) :
    o.isFull c.spanLimit = decide (c.capacity ≤ o.nextSpan) := by
  unfold isFull Config.capacity
  rw [Bool.eq_iff_iff]
  simp only [Bool.or_eq_true, decide_eq_true_eq]
  omega

/-- A new frame that is pushed opens the outline. -/
theorem outline_newFrame (o : OpenSegment) (c : Config) (kind : SpanKind) (name : String)
    (now : UInt64) :
    ((o.newFrame c.spanLimit kind name now).value.2.push
      (o.newFrame c.spanLimit kind name now).value.1).outline =
      o.outline.opened c.capacity kind now := by
  have hsampled : o.outline.sampled = o.sampled := rfl
  have hnext : o.outline.nextSpan = o.nextSpan := rfl
  unfold newFrame Outline.opened
  -- the two definitions ask the same questions in the same order
  rw [isFull_eq, hsampled, hnext, nearest?_outline]
  by_cases hdropped : (!o.sampled) = true
  · rw [if_pos hdropped, if_pos hdropped]
    rfl
  rw [if_neg hdropped, if_neg hdropped]
  by_cases hfull : c.capacity ≤ o.nextSpan
  · rw [if_pos (decide_eq_true hfull), if_pos hfull]
    rfl
  · rw [if_neg (by simpa using hfull), if_neg hfull]
    rfl

/-- What tags do not show in stays when entries are written as tags. -/
theorem autoTag_congr {γ : Type} (seen : Span → γ)
    (h : ∀ key value s, seen (Span.tag key value s).value = seen s) (o : OpenSegment)
    (keys : List String) (f : Frame) :
    (o.autoTag keys f).value.span?.map seen = f.span?.map seen := by
  apply Frame.modify_congr seen
  intro s
  rw [Logged.foldlM_value]
  induction keys generalizing s with
  | nil => rfl
  | cons key keys ih =>
    refine (ih _).trans ?_
    dsimp only
    cases o.correlation.get? key with
    | none => rfl
    | some value => exact h key value s

theorem mark_autoTag (o : OpenSegment) (keys : List String) (f : Frame) :
    (o.autoTag keys f).value.mark = f.mark := autoTag_congr Span.mark Span.mark_tag o keys f

/-- Only the mark of a frame counts when it is pushed. -/
theorem outline_push_congr {o o' : OpenSegment} {f f' : Frame} (ho : o'.outline = o.outline)
    (hf : f'.mark = f.mark) : (o'.push f').outline = (o.push f).outline := by
  rw [outline_push, outline_push, ho, hf]

/-- A context that is applied to the active span. -/
theorem outline_received {o o' : OpenSegment} {f f' : Frame} {rest : List Frame}
    {c : RemoteContext} {now : UInt64} (hstack : o.stack = f :: rest)
    (happly : ({ o with stack := rest }.applyInbound f c now).value = (f', o')) :
    (o'.push f').outline = o.outline := by
  obtain ⟨hmark, hout⟩ := outline_applyInbound { o with stack := rest } f c now
  rw [happly] at hmark hout
  -- the frame is taken off for the change and put back
  have hpush : ({ o with stack := rest }.push f).outline = o.outline := by
    rw [push, ← hstack]
  exact (outline_push_congr hout hmark).trans hpush

/-- Edits of the active span. -/
theorem outline_edited {o : OpenSegment} {f : Frame} {rest : List Frame}
    (hstack : o.stack = f :: rest) (now : UInt64) (edits : List Edit) :
    ({ o with stack := (f.editAll now edits).value.2 :: rest } : OpenSegment).outline =
      o.outline := by
  simp only [outline, hstack, List.map_cons, Frame.mark_editAll]

/-- Opening an entry span or an inner span opens the outline. -/
theorem outline_openSpan (c : Config) (o : OpenSegment) (kind : SpanKind) (name : String)
    (now : UInt64) (inbound : Option RemoteContext) :
    (o.openSpan c kind name now inbound).value.2.outline =
      o.outline.opened c.capacity kind now := by
  have hnew := outline_newFrame o c kind name now
  unfold openSpan
  cases inbound with
  | none =>
    simp only [Logged.bind_value, Logged.pure_value]
    exact (outline_push_congr rfl (mark_autoTag _ _ _)).trans hnew
  | some r =>
    simp only [Logged.bind_value, Logged.pure_value]
    -- the context is applied before the frame is pushed
    obtain ⟨hmark, hout⟩ := outline_applyInbound
      (o.newFrame c.spanLimit kind name now).value.2
      (o.newFrame c.spanLimit kind name now).value.1 r now
    exact (outline_push_congr hout ((mark_autoTag _ _ _).trans hmark)).trans hnew

/-- Opening an exit span opens the outline. -/
theorem outline_openExit (c : Config) (o : OpenSegment) (name peer : String)
    (k : Option Carrier) (now : UInt64) :
    (o.openExit c name peer k now).value.2.2.outline =
      o.outline.opened c.capacity .exit now := by
  have hnew := outline_newFrame o c .exit name now
  have hpeer := Frame.mark_modify (Span.mark_setPeer peer)
    (o.newFrame c.spanLimit .exit name now).value.1
  unfold openExit
  cases k with
  | none =>
    simp only [Logged.bind_value, Logged.pure_value]
    exact (outline_push_congr rfl ((mark_autoTag _ _ _).trans hpeer)).trans hnew
  | some k =>
    simp only [Logged.bind_value, Logged.pure_value]
    exact (outline_push_congr rfl ((mark_autoTag _ _ _).trans hpeer)).trans hnew

/-- A segment that begins has no spans yet, and the ledgers stay as they are. -/
theorem outline_start (t : Tracer) (ordinal now : UInt64) (name : String)
    (inherited : Inherited) (continuation : Option Snapshot) :
    (∃ id sampled, (start t ordinal now name inherited continuation).value.1.outline =
      .new id sampled) ∧
    (start t ordinal now name inherited continuation).value.2.ledgers = t.ledgers ∧
    (start t ordinal now name inherited continuation).value.2.config = t.config := by
  unfold start
  cases continuation with
  | none => exact ⟨⟨_, _, rfl⟩, rfl, rfl⟩
  | some snapshot =>
    cases snapshot with
    | ignored segment => exact ⟨⟨_, _, rfl⟩, rfl, rfl⟩
    | sampled c =>
      refine ⟨?_, rfl, rfl⟩
      simp only [Logged.bind_value, Logged.pure_value, outline_continueFrom]
      exact ⟨_, _, rfl⟩

end OpenSegment

/-! ### Sites -/

namespace Site

/-- The outline of the open segment. -/
def outline? (s : Site) : Option Outline := s.strand.active.map OpenSegment.outline

theorem outline?_withActive (s : Site) (o : OpenSegment) :
    (s.withActive o).outline? = some o.outline := rfl

theorem outline?_of_active {s : Site} {o : OpenSegment} (h : s.strand.active = some o) :
    s.outline? = some o.outline := by
  rw [outline?, h, Option.map_some]

/-- A touch leaves the tracer as it is and the outline too, but recording may stop. -/
theorem outline?_touch {now : UInt64} {s s' : Site} (h : Touch now s s') :
    s'.tracer = s.tracer ∧
    ∃ b, s'.outline? = s.outline?.map fun x => { x with sampled := x.sampled && b } := by
  have hsame {o : OpenSegment} (hactive : s.strand.active = some o) {o' : OpenSegment}
      (ho : o'.outline = o.outline) : ∃ b, (s.withActive o').outline? =
        s.outline?.map fun x => { x with sampled := x.sampled && b } := by
    refine ⟨true, ?_⟩
    simp only [outline?_withActive, outline?_of_active hactive, ho, Option.map_some, Bool.and_true]
  have hidle : ∃ b, s.outline? = s.outline?.map fun x => { x with sampled := x.sampled && b } := by
    refine ⟨true, ?_⟩
    simp only [Bool.and_true, Option.map_id']
  cases h with
  | pend snapshot hidle' hvalid => exact ⟨rfl, hidle⟩
  | discard => exact ⟨rfl, hidle⟩
  | scratch x => exact ⟨rfl, hidle⟩
  | ignore hactive =>
    refine ⟨rfl, false, ?_⟩
    rw [outline?_withActive, outline?_of_active hactive]
    simp only [Option.map_some, Bool.and_false]
    rfl
  | continueFrom hactive hvalid hother =>
    exact ⟨rfl, hsame hactive (OpenSegment.outline_continueFrom _ _)⟩
  | receive hactive hread hstack happly =>
    exact ⟨rfl, hsame hactive (OpenSegment.outline_received hstack happly)⟩
  | edit edits hactive hstack =>
    exact ⟨rfl, hsame hactive (OpenSegment.outline_edited hstack now edits)⟩
  | putCorrelation key value hactive =>
    exact ⟨rfl, hsame hactive (OpenSegment.outline_putCorrelation _ _ _ _)⟩

theorem outline?_touches {now : UInt64} {s s' : Site} (h : Touches now s s') :
    s'.tracer = s.tracer ∧
    ∃ b, s'.outline? = s.outline?.map fun x => { x with sampled := x.sampled && b } := by
  -- recording stops for the whole run of touches when one of them stops it
  induction h with
  | refl =>
    refine ⟨rfl, true, ?_⟩
    simp only [Bool.and_true, Option.map_id']
  | tail _ hstep ih =>
    obtain ⟨htracer, b, hout⟩ := ih
    obtain ⟨htracer', b', hout'⟩ := outline?_touch hstep
    refine ⟨htracer'.trans htracer, b && b', ?_⟩
    rw [hout', hout, Option.map_map]
    congr 1
    funext x
    simp only [Function.comp, Bool.and_assoc]

/-- A touch neither begins a segment nor ends one. -/
theorem idle_touches {now : UInt64} {s s' : Site} (h : Touches now s s') :
    s'.strand.active = none ↔ s.strand.active = none := by
  obtain ⟨-, b, hout⟩ := outline?_touches h
  have hnone := congrArg (· = none) hout
  simp only [outline?, Option.map_eq_none_iff, eq_iff_iff] at hnone
  exact hnone

theorem isActive_continued (s : Site) (snapshot : Snapshot) :
    (s.continued snapshot).value.strand.active = none ↔ s.strand.active = none :=
  idle_touches (s.touches_continued 0 snapshot)

/-- The segment for a new span is the open one, or one without spans. -/
theorem outline_segmentFor {s s₂ : Site} {o : OpenSegment} {name : String}
    {inherited : Inherited} {now : UInt64}
    (h : (s.segmentFor name inherited now).value = (o, s₂)) :
    (s.outline? = some o.outline ∨
      s.outline? = none ∧ ∃ id sampled, o.outline = .new id sampled) ∧
    s₂.tracer.ledgers = s.tracer.ledgers ∧ s₂.tracer.config = s.tracer.config := by
  rcases segmentFor_cases h with ⟨hactive, rfl⟩ | ⟨hidle, rfl, rfl⟩
  · exact ⟨.inl (outline?_of_active hactive), rfl, rfl⟩
  · obtain ⟨hnew, hledgers, hconfig⟩ := OpenSegment.outline_start s.tracer s.strand.ordinal now
      name inherited s.strand.continuation
    refine ⟨.inr ⟨?_, hnew⟩, hledgers, hconfig⟩
    rw [outline?, hidle, Option.map_none]

end Site

end TraceLink
