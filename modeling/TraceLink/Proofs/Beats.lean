import TraceLink.Proofs.Reporting

/-! # Beats

    A step of an engine is an operation as a whole. The stop of a last span has two parts:
    the span is left to its handle, and then the segment ends. Each part has the ledger to
    itself, but between them a handle may work on another thread.

    A *beat* is what nothing can come between. An engine is played in beats, and every run
    of operations is played so too. A strand that is about to end its segment does nothing
    else before; this is not asked for, since nothing depends on it. -/

namespace TraceLink

/-! ### The two parts of a stop -/

namespace Site

/-- The active span is stopped, and the segment stays open even if this was the last one.
    After a usage error it is as the failed attempt leaves it. -/
def stopActive (s : Site) (expected : Option Int) (now : UInt64) : Site :=
  match s.strand.active with
  | none => s
  | some o =>
    match o.stop s.tracer expected now with
    | .error x => { s with tracer := x.value.state.2 }.withActive x.value.state.1
    | .ok step => { s with tracer := step.value.2 }.withActive step.value.1

/-- The segment ends if its stack is empty. -/
def endSegment (s : Site) : Outcome Site :=
  match s.strand.active with
  | none => .of .done s
  | some o =>
    if o.stack.isEmpty then
      let (due, t) := (o.finish s.tracer).value
      ⟨.done, due, ⟨(t.reportDue due).value, { s.strand with active := none }⟩⟩
    else .of .done s

theorem stopActive_of_pop {s : Site} {o o₁ : OpenSegment} {f : Frame} {expected : Option Int}
    (hactive : s.strand.active = some o) (hpop : o.pop expected = .ok (f, o₁)) (now : UInt64) :
    s.stopActive expected now =
      { s with tracer := (o₁.retire s.tracer f now).value.2 }.withActive
        (o₁.retire s.tracer f now).value.1 := by
  have hstop : o.stop s.tracer expected now = .ok (o₁.retire s.tracer f now) := by
    rw [OpenSegment.stop, hpop]
    rfl
  simp only [stopActive, hactive, hstop]

/-- What is stopped is an active span, or nothing changes. -/
theorem stopActive_cases (s : Site) (expected : Option Int) (now : UInt64) :
    (∃ o f o₁, s.strand.active = some o ∧ o.pop expected = .ok (f, o₁)) ∨
      s.stopActive expected now = s ∧
        ∀ o f o₁, s.strand.active = some o → o.pop expected ≠ .ok (f, o₁) := by
  cases hactive : s.strand.active with
  | none =>
    refine .inr ⟨by simp only [stopActive, hactive], fun o f o₁ ho => ?_⟩
    contradiction
  | some o =>
    cases hpop : o.pop expected with
    | ok popped => exact .inl ⟨o, popped.1, popped.2, rfl, hpop⟩
    | error x =>
      have hkept : s.stopActive expected now = s := by
        obtain ⟨err, hx⟩ := o.atomic_pop expected x hpop
        have hstop := OpenSegment.stop_of_fail (hx ▸ hpop) s.tracer now
        simp only [stopActive, hactive, hstop]
        exact withActive_self hactive
      refine .inr ⟨hkept, ?_⟩
      intro o' f o₁ ho hok
      rw [← Option.some.inj ho, hpop] at hok
      contradiction

theorem endSegment_of_open {s : Site} (h : ∀ o, s.strand.active = some o → o.stack ≠ []) :
    s.endSegment = .of .done s := by
  unfold endSegment
  split
  · rfl
  · next o hactive =>
    rw [if_neg]
    simpa using h o hactive

theorem endSegment_of_empty {s : Site} {o : OpenSegment} (hactive : s.strand.active = some o)
    (hlast : o.stack = []) {due : Option Segment} {t : Tracer}
    (hfinish : (o.finish s.tracer).value = (due, t)) :
    s.endSegment = ⟨.done, due, ⟨(t.reportDue due).value, { s.strand with active := none }⟩⟩ := by
  simp only [endSegment, hactive, hlast, List.isEmpty_nil, if_true, hfinish]

/-- **A stop in two parts**: a stop that is no usage error stops the active span and then
    ends the segment, unless others are open. -/
theorem stop_in_parts {s : Site} {expected : Option Int} {now : UInt64}
    (h : ∀ error, (s.step now (.stop expected)).value.reply ≠ .usage error) :
    let parts := (s.stopActive expected now).endSegment
    (s.step now (.stop expected)).value.state = parts.state ∧
      (s.step now (.stop expected)).value.handed = parts.handed := by
  intro parts
  have heffect := s.effect_of_step now (.stop expected)
  generalize (s.step now (.stop expected)).value = whole at h heffect ⊢
  cases heffect with
  | refused error hop => exact absurd rfl (h error)
  | touched hop hstop => exact absurd rfl (hstop expected)
  | opened hop => contradiction
  | stopped hactive hpop hretire hopen =>
    have hparts : parts = _ :=
      endSegment_of_open (s := s.stopActive expected now) fun o' ho' => by
        rw [stopActive_of_pop hactive hpop, hretire] at ho'
        exact Option.some.inj ho' ▸ hopen
    rw [hparts, stopActive_of_pop hactive hpop, hretire]
    exact ⟨rfl, rfl⟩
  | ended hactive hpop hretire hlast hfinish =>
    have hfirst := stopActive_of_pop hactive hpop now
    rw [hretire] at hfirst
    have hparts : parts = _ := congrArg endSegment hfirst
    rw [hparts, endSegment_of_empty rfl hlast hfinish]
    exact ⟨rfl, rfl⟩

end Site

/-! ### Beats of an engine -/

/-- **Beat** of an engine: what is done with nothing in between. -/
inductive Beat where
  /-- An operation as a whole. -/
  | whole (op : Op)
  /-- A strand stops its active span. Its segment stays open even if this was the last one. -/
  | stop (k : Nat) (expected : Option Int)
  /-- A strand ends its segment, the stack of which has to be empty. -/
  | finish (k : Nat)
  deriving Repr

namespace Engine

/-- A beat of the engine at the given time. -/
def beat (e : Engine) (now : UInt64) : Beat → Outcome Engine
  | .whole op => (e.step now op).value
  | .stop k expected =>
    match e.site? k with
    | some s => .of .done (e.setSite k (s.stopActive expected now))
    | none => .of .missing e
  | .finish k =>
    match e.site? k with
    | some s => s.endSegment.map (e.setSite k)
    | none => .of .missing e

/-- The engine after a list of timed beats. -/
def play (e : Engine) : List (UInt64 × Beat) → Engine
  | [] => e
  | (now, b) :: bs => (e.beat now b).state.play bs

variable {e : Engine}

theorem beat_stop {k : Nat} {s : Site} (hsite : e.site? k = some s) (expected : Option Int)
    (now : UInt64) :
    e.beat now (.stop k expected) = .of .done (e.setSite k (s.stopActive expected now)) := by
  simp only [beat, hsite]

theorem beat_finish {k : Nat} {s : Site} (hsite : e.site? k = some s) (now : UInt64) :
    e.beat now (.finish k) = s.endSegment.map (e.setSite k) := by
  simp only [beat, hsite]

/-- Every run is played in beats. -/
theorem play_whole (e : Engine) (ops : List (UInt64 × Op)) :
    e.play (ops.map fun timed => (timed.1, .whole timed.2)) = e.run ops := by
  induction ops generalizing e with
  | nil => rfl
  | cons timed ops ih => exact ih _

/-- **The stop of a strand is two beats** if nothing comes between them. -/
theorem stop_in_beats {k : Nat} {s : Site} (hsite : e.site? k = some s) {expected : Option Int}
    {now : UInt64} (h : ∀ error, (s.step now (.stop expected)).value.reply ≠ .usage error) :
    (e.step now (.strand k (.stop expected))).value.state =
      e.play [(now, .stop k expected), (now, .finish k)] := by
  have hmiddle := site?_setSite hsite (s.stopActive expected now)
  simp only [play, beat_stop hsite, Outcome.of, beat_finish hmiddle, step_strand hsite]
  simp only [Outcome.map, setSite_setSite, (Site.stop_in_parts h).1]

end Engine

end TraceLink
