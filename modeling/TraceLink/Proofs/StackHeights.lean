import TraceLink.Proofs.IgnoredTraces
import TraceLink.Proofs.UsageErrors

/-! # Heights of stacks

    Instrumented code opens and stops spans without asking whether its trace is
    recorded. So what it sees of the stack, which is whether a segment is open and
    what a stop answers, has to depend on its own calls alone.

    `Engine.stacks_alike` compares two runs that share nothing but the moves of one
    strand: how often it opened and stopped spans, and in which order. Sampling, the
    span limit, ignored segments, async spans, carriers and snapshots do not show. -/

namespace TraceLink

/-! ### Moves -/

/-- **Move**: what an operation asks of the stack of its strand. -/
inductive Move where
  | opens
  | stops
  | stays
  deriving Repr, DecidableEq

namespace Move

/-- The height of the stack after a move. Nothing is stopped while it is empty. -/
def after (height : Nat) : Move → Nat
  | .opens => height + 1
  | .stops => height - 1
  | .stays => height

/-- The answer to a stop. -/
def answer? (height : Nat) : Move → Option Reply
  | .stops => some (if height = 0 then .usage .notActive else .flag (height = 1))
  | _ => none

end Move

/-- The move of an operation. -/
def StrandOp.move : StrandOp → Move
  | .entry .. | .entryFrom .. | .exit .. | .inner _ | .innerWith .. => .opens
  | .stop _ => .stops
  | _ => .stays

/-- The move of the strand at place `k`. -/
def Op.moveOf? (k : Nat) : Op → Option Move
  | .strand k' op => if k' = k then some op.move else none
  | _ => none

/-- The moves of the strand at place `k`. -/
def moves (k : Nat) (ops : List (UInt64 × Op)) : List Move := ops.filterMap (·.2.moveOf? k)

theorem moves_cons (k : Nat) (timed : UInt64 × Op) (ops : List (UInt64 × Op)) :
    moves k (timed :: ops) = (timed.2.moveOf? k).toList ++ moves k ops := by
  rw [moves, List.filterMap_cons]
  cases timed.2.moveOf? k with
  | none => rfl
  | some m => rfl

/-- The strand at place `k` does not go away, and stops its spans without naming them. -/
def Op.IsPlain (k : Nat) : Op → Prop
  | .closeStrand k' => k' ≠ k
  | .strand k' (.stop (some _)) => k' ≠ k
  | _ => True

/-! ### Sights -/

/-- **Sight**: what instrumented code sees of the stack after an operation. -/
structure Sight where
  isActive : Bool
  /-- The reply, if the operation was a stop. -/
  answer? : Option Reply

/-- What is to be seen of a stack that is moved. -/
def Sight.expected (height : Nat) : List Move → List Sight
  | [] => []
  | m :: ms => ⟨0 < m.after height, m.answer? height⟩ :: expected (m.after height) ms

/-- What the code on the strand at place `k` sees in a run. -/
def Engine.sights (e : Engine) (k : Nat) : List (UInt64 × Op) → List Sight
  | [] => []
  | (now, op) :: ops =>
    let outcome := (e.step now op).value
    let seen : Move → Sight := fun m =>
      ⟨(outcome.state.open? k).isSome, if m = .stops then some outcome.reply else none⟩
    ((op.moveOf? k).map seen).toList ++ outcome.state.sights k ops

/-! ### The height of a stack -/

/-- The number of open spans. -/
def Strand.height (s : Strand) : Nat :=
  match s.active with
  | some o => o.stack.length
  | none => 0

namespace Strand

variable {s : Strand}

theorem height_of_idle (h : s.active = none) : s.height = 0 := by
  rw [height, h]

theorem height_of_active {o : OpenSegment} (h : s.active = some o) :
    s.height = o.stack.length := by
  rw [height, h]

/-- A strand is active if and only if spans are open. -/
theorem Standing.isSome_active (h : s.Standing) : s.active.isSome = decide (0 < s.height) := by
  cases hactive : s.active with
  | none =>
    rw [height_of_idle hactive]
    rfl
  | some o =>
    have hpos := List.length_pos_iff.mpr (h o hactive)
    rw [height_of_active hactive, decide_eq_true hpos, Option.isSome_some]

end Strand

namespace Outline

/-- Every span that is opened has a place on the stack, recorded or not. -/
theorem length_frames_opened (x : Outline) (capacity : Nat) (kind : SpanKind) (now : UInt64) :
    (x.opened capacity kind now).frames.length = x.frames.length + 1 := by
  unfold opened
  by_cases hsampled : (!x.sampled) = true
  · rw [if_pos hsampled, List.length_cons]
  · rw [if_neg hsampled]
    by_cases hfull : capacity ≤ x.nextSpan
    · rw [if_pos hfull, List.length_cons]
    · rw [if_neg hfull, List.length_cons]

end Outline

namespace OpenSegment

theorem length_stack (o : OpenSegment) : o.stack.length = o.outline.frames.length :=
  (List.length_map _).symm

/-- A span that is retired is off the stack already. -/
theorem stack_retire (o : OpenSegment) (t : Tracer) (f : Frame) (now : UInt64) :
    (o.retire t f now).value.1.stack = o.stack := by
  have hretired := retired_retire o t f now
  generalize (o.retire t f now).value = retired at hretired ⊢
  obtain ⟨o', t'⟩ := retired
  cases hretired with
  | dropped name => rfl
  | archived hplain => rfl
  | deferred hasync hledger => rfl
  | stray hasync hledger => rfl

theorem stack_prepareAsync {o o' : OpenSegment} {t t' : Tracer} {h : AsyncHandle}
    (hprepare : o.prepareAsync t = .ok (h, o', t')) : o'.stack.length = o.stack.length := by
  rcases prepareAsync_eq_ok hprepare with ⟨-, rfl, -⟩ | ⟨s, rest, n, t₁, hstack, -, -, -, rfl, -⟩
  · rfl
  · rw [hstack, List.length_cons, List.length_cons]

end OpenSegment

/-! ### One step -/

namespace Site

variable {now : UInt64} {s s' s₂ : Site} {op : StrandOp}

theorem height_eq (s : Site) : s.strand.height = (s.outline?.map (·.frames.length)).getD 0 := by
  unfold outline? Strand.height
  cases s.strand.active with
  | none => rfl
  | some o => exact o.length_stack

theorem height_touches (h : Touches now s s') : s'.strand.height = s.strand.height := by
  obtain ⟨-, b, hout⟩ := outline?_touches h
  rw [height_eq, height_eq, hout, Option.map_map]
  rfl

/-- The segment for a new span has the spans of the strand on its stack. -/
theorem height_segmentFor {name : String} {inherited : Inherited} {o : OpenSegment}
    (h : (s.segmentFor name inherited now).value = (o, s₂)) :
    o.outline.frames.length = s.strand.height := by
  rw [height_eq]
  rcases (outline_segmentFor h).1 with hopen | ⟨hidle, id, sampled, hnew⟩
  · rw [hopen]
    rfl
  · rw [hidle, hnew]
    rfl

/-- What one step makes of the height of the stack, and what a stop answers. -/
structure Moved (s : Site) (m : Move) (outcome : Outcome Site) : Prop where
  height : outcome.state.strand.height = m.after s.strand.height
  answer : ∀ reply, m.answer? s.strand.height = some reply → outcome.reply = reply

theorem moved_of_opens {outcome : Outcome Site} (hop : op.move = .opens)
    (h : outcome.state.strand.height = s.strand.height + 1) : Moved s op.move outcome := by
  rw [hop]
  exact ⟨h, fun reply hreply => by contradiction⟩

theorem moved_of_stays {outcome : Outcome Site} (hop : op.move = .stays)
    (h : outcome.state.strand.height = s.strand.height) : Moved s op.move outcome := by
  rw [hop]
  exact ⟨h, fun reply hreply => by contradiction⟩

theorem move_of_opens {kind : SpanKind} (h : op.opens? = some kind) : op.move = .opens := by
  cases op <;> first | rfl | contradiction

theorem move_of_stays (h : op.opens? = none) (hstop : ∀ expected, op ≠ .stop expected) :
    op.move = .stays := by
  cases op with
  | stop expected => exact absurd rfl (hstop expected)
  | _ => first | rfl | contradiction

/-- A stop that names no span is refused only while no span is open. -/
theorem moved_of_refused {e : UsageError} (hstanding : s.strand.Standing)
    (hreply : (s.step now (.stop none)).value.reply = .usage e) :
    Moved s .stops ⟨.usage e, none, s⟩ := by
  cases (reply_step hstanding).mp hreply with
  | idle hidle hop =>
    have hheight := Strand.height_of_idle hidle
    refine ⟨by rw [hheight]; rfl, fun reply hanswer => ?_⟩
    rw [hheight] at hanswer
    exact Option.some.inj hanswer
  | active hactive hstack hrefuses => cases hrefuses

/-- A stop takes one span off the stack, and tells whether it was the last one. -/
theorem moved_of_popped {o o₁ : OpenSegment} {f : Frame} {due : Option Segment}
    (hactive : s.strand.active = some o) (hpop : o.pop none = .ok (f, o₁))
    (hheight : s'.strand.height = o₁.stack.length) :
    Moved s .stops ⟨.flag o₁.stack.isEmpty, due, s'⟩ := by
  obtain ⟨rest, hstack, rfl, -⟩ := OpenSegment.pop_eq_ok hpop
  have hbefore : s.strand.height = rest.length + 1 := by
    rw [Strand.height_of_active hactive, hstack, List.length_cons]
  refine ⟨hheight.trans (by rw [hbefore]; rfl), fun reply hanswer => ?_⟩
  rw [hbefore] at hanswer
  rw [← Option.some.inj hanswer, if_neg (Nat.succ_ne_zero _)]
  cases rest with
  | nil => rfl
  | cons g rest => exact congrArg Reply.flag (decide_eq_false (by simp)).symm

/-- **A step moves the stack** as its operation says, whatever is recorded. -/
theorem moved_step (hstanding : s.strand.Standing) (hplain : ∀ id, op ≠ .stop (some id)) :
    Moved s op.move (s.step now op).value := by
  have heffect := s.effect_of_step now op
  generalize houtcome : (s.step now op).value = outcome at heffect
  cases heffect with
  | refused e hop =>
    by_cases hstop : op = .stop none
    · subst hstop
      exact moved_of_refused hstanding (congrArg Outcome.reply houtcome)
    · refine moved_of_stays (move_of_stays hop ?_) rfl
      rintro (_ | id) rfl
      · exact hstop rfl
      · exact hplain id rfl
  | touched hop hstop hprepare htouch =>
    exact moved_of_stays (move_of_stays hop hstop) (height_touches htouch)
  | opened hop hread htouch hsegment hopen =>
    next kind name inbound s₁ s₂ o o' f =>
    apply moved_of_opens (move_of_opens hop)
    have hout := OpenSegment.outline_openSpan s₂.tracer.config o kind name now
      (inheritedFrom inbound).2
    rw [hopen] at hout
    show o'.stack.length = _
    rw [o'.length_stack, hout, Outline.length_frames_opened, height_segmentFor hsegment,
      height_touches htouch]
  | sent hsegment hopen =>
    next name peer k k' s₂ o o' f =>
    apply moved_of_opens rfl
    have hout := OpenSegment.outline_openExit s₂.tracer.config o name peer k now
    rw [hopen] at hout
    show o'.stack.length = _
    rw [o'.length_stack, hout, Outline.length_frames_opened, height_segmentFor hsegment]
  | prepared hactive hprepare =>
    apply moved_of_stays rfl
    rw [Strand.height_of_active hactive]
    exact OpenSegment.stack_prepareAsync hprepare
  | stopped hactive hpop hretire hopen =>
    next expected o o₁ o' f t =>
    have hstack : o'.stack = o₁.stack := by rw [← o₁.stack_retire s.tracer f now, hretire]
    have hfull : o₁.stack.isEmpty = false := by
      rw [← hstack, List.isEmpty_eq_false_iff]
      exact hopen
    cases expected with
    | some id => exact absurd rfl (hplain id)
    | none =>
      rw [← hfull]
      exact moved_of_popped hactive hpop (congrArg List.length hstack)
  | ended hactive hpop hretire hlast hfinish =>
    next expected o o₁ o' f t t' due =>
    have hstack : o₁.stack = [] := by
      rw [← o₁.stack_retire s.tracer f now, hretire]
      exact hlast
    have hempty : o₁.stack.isEmpty = true := by rw [hstack, List.isEmpty_nil]
    cases expected with
    | some id => exact absurd rfl (hplain id)
    | none =>
      rw [← hempty]
      exact moved_of_popped hactive hpop (by rw [hstack]; rfl)

end Site

/-! ### Runs -/

namespace Engine

variable {e : Engine} {k : Nat}

/-- What a strand sees after an operation of its own, and the height that is left. -/
theorem Tells.sight_eq {capacity : Nat} {ls : List Life} (h : e.Tells capacity ls) {s : Site}
    (hsite : e.site? k = some s) (now : UInt64) {sop : StrandOp}
    (hunnamed : ∀ id, sop ≠ .stop (some id)) :
    let outcome := (e.step now (.strand k sop)).value
    outcome.state.site? k = some (s.step now sop).value.state ∧
    (s.step now sop).value.state.strand.height = sop.move.after s.strand.height ∧
    (outcome.state.open? k).isSome = decide (0 < sop.move.after s.strand.height) ∧
    (if sop.move = .stops then some outcome.reply else none) =
      sop.move.answer? s.strand.height := by
  intro outcome
  have hmoved : Site.Moved s sop.move (s.step now sop).value :=
    Site.moved_step (h.standing hsite) hunnamed
  have hsite' : outcome.state.site? k = some (s.step now sop).value.state :=
    site?_step_strand hsite now sop
  have hactive := ((h.step now (.strand k sop)).1.standing hsite').isSome_active
  rw [hmoved.height] at hactive
  refine ⟨hsite', hmoved.height, by rw [open?_of_site? hsite', hactive], ?_⟩
  show (if sop.move = .stops then some (e.step now (.strand k sop)).value.reply else none) = _
  rw [reply_of_site hsite]
  cases hmove : sop.move with
  | stops => exact congrArg some (hmoved.answer _ (by rw [hmove]; rfl))
  | opens => rfl
  | stays => rfl

/-- **What a strand sees** in a run is what its moves make of the height it starts at. -/
theorem Tells.sights_eq {capacity : Nat} {ls : List Life} (h : e.Tells capacity ls) {s : Site}
    (hsite : e.site? k = some s) {ops : List (UInt64 × Op)}
    (hplain : ∀ timed ∈ ops, timed.2.IsPlain k) :
    e.sights k ops = Sight.expected s.strand.height (moves k ops) := by
  -- by induction on the run: the strand stays in its place, and its stack has the height
  -- that the moves so far made of it
  induction ops generalizing e ls s with
  | nil => rfl
  | cons timed ops ih =>
    obtain ⟨now, op⟩ := timed
    have hnext := (h.step now op).1
    have hhead : op.IsPlain k := hplain _ List.mem_cons_self
    have hrest : ∀ timed ∈ ops, timed.2.IsPlain k :=
      fun timed htimed => hplain timed (List.mem_cons_of_mem _ htimed)
    by_cases hown : ∃ sop, op = .strand k sop
    · obtain ⟨sop, rfl⟩ := hown
      have hunnamed : ∀ id, sop ≠ .stop (some id) := by
        rintro id rfl
        exact hhead rfl
      obtain ⟨hsite', hheight, hactive, hanswer⟩ := h.sight_eq hsite now hunnamed
      have hmove : (Op.strand k sop).moveOf? k = some sop.move := if_pos rfl
      rw [moves_cons, sights, ih hnext hsite' hrest, hmove, hheight]
      simp only [Option.map_some, Option.toList_some, List.singleton_append]
      rw [Sight.expected, hactive, hanswer]
    · have hclose : op ≠ .closeStrand k := by
        rintro rfl
        exact hhead rfl
      have hmove : op.moveOf? k = none := by
        cases op with
        | strand k' sop => exact if_neg fun hk => hown ⟨sop, by rw [hk]⟩
        | _ => rfl
      have hstrand := strand?_step (strand?_of_site? hsite) now
        (fun sop hop => hown ⟨sop, hop⟩) hclose
      have hsite' : (e.step now op).value.state.site? k =
          some ⟨(e.step now op).value.state.tracer, s.strand⟩ := by
        rw [site?, hstrand, Option.map_some]
      rw [moves_cons, sights, ih hnext hsite' hrest, hmove]
      simp only [Option.map_none, Option.toList_none, List.nil_append]

/-- **Reachable**: a tracer that was started comes to this state. -/
def Reachable (e : Engine) : Prop :=
  ∃ config reporter process start ops,
    e = (ofTracer (.start config reporter process start)).run ops

theorem Reachable.tells (h : e.Reachable) : ∃ capacity ls, e.Tells capacity ls := by
  obtain ⟨config, reporter, process, start, ops, rfl⟩ := h
  exact ⟨config.capacity, _, ((tells_start config reporter process start).run ops).1⟩

/-- The strand at place `k` has no open span. -/
def IsIdle (e : Engine) (k : Nat) : Prop := ∃ s, e.site? k = some s ∧ s.strand.active = none

theorem Reachable.sights_of_idle (h : e.Reachable) (hidle : e.IsIdle k)
    {ops : List (UInt64 × Op)} (hplain : ∀ timed ∈ ops, timed.2.IsPlain k) :
    e.sights k ops = Sight.expected 0 (moves k ops) := by
  obtain ⟨capacity, ls, htells⟩ := h.tells
  obtain ⟨s, hsite, hactive⟩ := hidle
  rw [htells.sights_eq hsite hplain, Strand.height_of_idle hactive]

/-- **Stacks are alike**: take two tracers in any states, of any configurations, with
    an idle strand each, and two runs that go on from there. If the two strands open
    and stop spans in the same order, then after each of their operations they are both
    active or both idle, and each stop has the same answer: a usage error while no span
    is open, and otherwise whether the span was the last one. -/
theorem stacks_alike {e₁ e₂ : Engine} (hreach₁ : e₁.Reachable) (hreach₂ : e₂.Reachable)
    {k₁ k₂ : Nat} (hidle₁ : e₁.IsIdle k₁) (hidle₂ : e₂.IsIdle k₂)
    {ops₁ ops₂ : List (UInt64 × Op)} (hplain₁ : ∀ timed ∈ ops₁, timed.2.IsPlain k₁)
    (hplain₂ : ∀ timed ∈ ops₂, timed.2.IsPlain k₂) (hmoves : moves k₁ ops₁ = moves k₂ ops₂) :
    e₁.sights k₁ ops₁ = Sight.expected 0 (moves k₁ ops₁) ∧
      e₂.sights k₂ ops₂ = e₁.sights k₁ ops₁ := by
  have hseen₁ := hreach₁.sights_of_idle hidle₁ hplain₁
  have hseen₂ := hreach₂.sights_of_idle hidle₂ hplain₂
  refine ⟨hseen₁, ?_⟩
  rw [hseen₁, hseen₂, hmoves]

/-- Two spans are opened, the inner one is closed by hand, and three are stopped. -/
def tracedCalls : List (UInt64 × Op) :=
  [(1, .strand 0 (.entry "/cart" none)), (2, .strand 0 (.inner "load")),
    (3, .strand 0 (.edit [.close 3])), (4, .strand 0 (.stop none)), (5, .strand 0 (.stop none)),
    (6, .strand 0 (.stop none))]

/-- The same calls where no span is recorded, while the settings change. -/
def untracedCalls : List (UInt64 × Op) :=
  [(1, .strand 0 (.entry "/icon.png" (some (.empty "sw8")))), (1, .setRate (some 1)),
    (7, .strand 0 (.exit "GET" "db:1" none)), (7, .strand 0 .capture),
    (7, .strand 0 (.stop none)), (7, .strand 0 (.stop none)), (7, .strand 0 (.stop none))]

theorem stacks_alike_untraced :
    let e₁ := (ofTracer (.start (Config.standard "i") .collecting "p" 0)).run [(0, .openStrand)]
    let e₂ := (ofTracer (.start { Config.standard "j" with spanLimit := 0 } .collecting "q"
      9)).run [(9, .openStrand)]
    e₁.sights 0 tracedCalls =
      [⟨true, none⟩, ⟨true, none⟩, ⟨true, none⟩, ⟨true, some (.flag false)⟩,
        ⟨false, some (.flag true)⟩, ⟨false, some (.usage .notActive)⟩] ∧
    e₂.sights 0 untracedCalls = e₁.sights 0 tracedCalls := by
  intro e₁ e₂
  have hreach₁ : e₁.Reachable := ⟨_, _, _, _, _, rfl⟩
  have hreach₂ : e₂.Reachable := ⟨_, _, _, _, _, rfl⟩
  exact stacks_alike hreach₁ hreach₂ ⟨_, rfl, rfl⟩ ⟨_, rfl, rfl⟩
    (by simp [tracedCalls, Op.IsPlain]) (by simp [untracedCalls, Op.IsPlain]) (by decide)

end Engine

end TraceLink
