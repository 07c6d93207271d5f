import TraceLink.Proofs.OwnerViews
import TraceLink.Proofs.Reporting

/-! # Runs as their owner sees them

    A strand takes spans off its stack in the same state, and the lives of its segments
    have the same course, wherever the operations of the handles stand between its own
    ones. -/

namespace TraceLink

/-! ### Views of engines -/

namespace Engine

/-- The view of an engine. -/
def view (e : Engine) : Engine := ⟨e.tracer.view, e.strands.map (Option.map Strand.view)⟩

variable {e e' : Engine} {now : UInt64} {k : Nat}

@[simp] theorem view_view (e : Engine) : e.view.view = e.view := by
  unfold view
  rw [Tracer.view_view, List.map_map]
  congr 1
  apply List.map_congr_left
  intro s _
  cases s with
  | none => rfl
  | some s => exact congrArg some (congrArg Site.strand (Site.view_view ⟨e.tracer, s⟩))

theorem site?_view (e : Engine) (k : Nat) : e.view.site? k = (e.site? k).map Site.view := by
  unfold site? strand? view
  rw [List.getElem?_map]
  cases e.strands[k]? with
  | none => rfl
  | some s =>
    cases s with
    | none => rfl
    | some s => rfl

theorem open?_view (e : Engine) (k : Nat) : e.view.open? k = (e.open? k).map OpenSegment.view := by
  rw [open?_eq, open?_eq, site?_view]
  cases e.site? k with
  | none => rfl
  | some s => rfl

theorem view_setSite (e : Engine) (k : Nat) (s : Site) :
    (e.setSite k s).view = e.view.setSite k s.view := by
  unfold setSite view
  rw [List.map_set]
  rfl

/-- A step of a strand answers to the view as to the engine, if it stops or prepares a
    span, and the view after it depends on the view before it. -/
theorem view_strand (e : Engine) (now : UInt64) (k : Nat) (op : StrandOp) :
    (e.view.step now (.strand k op)).value.state.view =
      (e.step now (.strand k op)).value.state.view := by
  cases hsite : e.site? k with
  | none =>
    have hsite' : e.view.site? k = none := by rw [site?_view, hsite, Option.map_none]
    simp only [step, hsite, hsite', Logged.pure_value]
    exact e.view_view
  | some s =>
    have hsite' : e.view.site? k = some s.view := by rw [site?_view, hsite, Option.map_some]
    rw [step_strand hsite, step_strand hsite']
    show (e.view.setSite k _).view = (e.setSite k _).view
    rw [view_setSite, view_setSite, view_view, Site.view_step]

theorem reply_view (e : Engine) (now : UInt64) (k : Nat) {op : StrandOp}
    (hop : (∃ expected, op = .stop expected) ∨ op = .prepareAsync) :
    (e.view.step now (.strand k op)).value.reply = (e.step now (.strand k op)).value.reply := by
  cases hsite : e.site? k with
  | none =>
    have hsite' : e.view.site? k = none := by rw [site?_view, hsite, Option.map_none]
    simp only [step, hsite, hsite', Logged.pure_value]
    rfl
  | some s =>
    have hsite' : e.view.site? k = some s.view := by rw [site?_view, hsite, Option.map_some]
    rw [reply_of_site hsite, reply_of_site hsite']
    exact congrArg Prod.fst (s.view_answer now hop)

/-- A handle does nothing that its owner sees. -/
theorem view_handle (e : Engine) (now : UInt64) (a : AsyncHandle) (op : HandleOp) :
    (e.step now (.handle a op)).value.state.view = e.view := by
  cases a with
  | idle => rfl
  | span n id =>
    rw [step_handle]
    show Engine.mk (Tracer.view _) _ = Engine.mk _ _
    rw [Tracer.view_reportDue, Tracer.view_setLedger]

/-- Engines with the same view have the same view after a step of a strand. -/
theorem view_strand_congr (h : e'.view = e.view) (now : UInt64) (k : Nat) (op : StrandOp) :
    (e'.step now (.strand k op)).value.state.view =
      (e.step now (.strand k op)).value.state.view := by
  rw [← e'.view_strand, h, e.view_strand]

end Engine

/-! ### Stops -/

/-- **Stop** of the active span of a segment: the frame as it was taken off the stack,
    and the cover of the segment then. -/
structure Stop where
  time : UInt64
  frame : Frame
  cover : Segment
  deriving Repr, DecidableEq

/-- The stop of the active span, unless it is refused. -/
def OpenSegment.stop? (o : OpenSegment) (expected : Option Int) (now : UInt64) : Option Stop :=
  match o.pop expected with
  | .ok (f, _) => some ⟨now, f, o.segment.cover⟩
  | .error _ => none

theorem OpenSegment.stop?_view (o : OpenSegment) (expected : Option Int) (now : UInt64) :
    o.view.stop? expected now = o.stop? expected now := by
  unfold stop?
  rw [view_pop]
  cases o.pop expected with
  | error e => rfl
  | ok popped => rfl

namespace Engine

/-- The stop of a span of the strand at place `k` by a step, if there is one. -/
def stop? (e : Engine) (k : Nat) (now : UInt64) : Op → Option Stop
  | .strand k' (.stop expected) =>
    if k' = k then (e.open? k).bind fun o => o.stop? expected now else none
  | _ => none

/-- The stops of the spans of the strand at place `k` in a run, in order. -/
def stops (e : Engine) (k : Nat) : List (UInt64 × Op) → List Stop
  | [] => []
  | (now, op) :: ops => (e.stop? k now op).toList ++ (e.step now op).value.state.stops k ops

theorem stops_append (e : Engine) (k : Nat) (ops more : List (UInt64 × Op)) :
    e.stops k (ops ++ more) = e.stops k ops ++ (e.run ops).stops k more := by
  induction ops generalizing e with
  | nil => rfl
  | cons timed ops ih =>
    obtain ⟨now, op⟩ := timed
    rw [List.cons_append, stops, stops, ih, List.append_assoc]
    rfl

theorem stop?_view (e : Engine) (k : Nat) (now : UInt64) (op : Op) :
    e.view.stop? k now op = e.stop? k now op := by
  unfold stop?
  split
  · split
    · rw [open?_view]
      cases e.open? k with
      | none => rfl
      | some o => exact o.stop?_view _ now
    · rfl
  · rfl

end Engine

/-! ### The course of a life -/

/-- The course of a life is what its owner sees of it: not which handles finished, and
    not what was reported. -/
def Life.course (l : Life) : Life := { l with finished := [], reports := [] }

namespace Life

theorem course_report (l : Life) (handed : Option Segment) : (l.report handed).course = l.course :=
  rfl

theorem course_afterHandle (l : Life) (a : AsyncHandle) (op : HandleOp) (due : Option Segment) :
    (l.afterHandle a op due).course = l.course := by
  unfold afterHandle
  split
  · split
    · rfl
    · rfl
  · rfl

/-- The course after an operation depends on the course and the view before it. -/
theorem course_afterStrandOp (l : Life) (before : Option OpenSegment) (now : UInt64)
    (op : StrandOp) (reply : Reply) :
    (l.course.afterStrandOp (before.map OpenSegment.view) now op reply).course =
      (l.afterStrandOp before now op reply).course := by
  unfold afterStrandOp
  split
  · cases before with
    | none => rfl
    | some o => rfl
  · rfl
  · cases op.opens? with
    | none => rfl
    | some kind =>
      cases before with
      | none => rfl
      | some o => rfl

/-- Only of a stop and a preparation the answer counts. -/
theorem afterStrandOp_congr (l : Life) (before : Option OpenSegment) (now : UInt64)
    {op : StrandOp} {reply reply' : Reply}
    (h : (∃ expected, op = .stop expected) ∨ op = .prepareAsync → reply' = reply) :
    l.afterStrandOp before now op reply' = l.afterStrandOp before now op reply := by
  by_cases hop : (∃ expected, op = .stop expected) ∨ op = .prepareAsync
  · rw [h hop]
  · rw [not_or, not_exists] at hop
    obtain ⟨hstop, hprepare⟩ := hop
    cases hopens : op.opens? with
    | none =>
      rw [afterStrandOp_touched l before now hopens hstop hprepare,
        afterStrandOp_touched l before now hopens hstop hprepare]
    | some kind =>
      rw [afterStrandOp_opened l before now hopens, afterStrandOp_opened l before now hopens]

end Life

namespace Engine

variable {e e' : Engine} {ls ls' : List Life}

theorem course_live (e : Engine) (now : UInt64) (k : Nat) (op : StrandOp) (l : Life) :
    (e.view.live now (.strand k op) l.course).course = (e.live now (.strand k op) l).course := by
  rw [live_strand, live_strand, show l.course.stage = l.stage from rfl]
  split
  · rw [Life.course_report, Life.course_report, open?_view,
      Life.afterStrandOp_congr _ _ now (e.reply_view now k), Life.course_afterStrandOp]
  · rfl

/-- A life begins in the view as in the engine. -/
theorem begun_view (e : Engine) (now : UInt64) (k : Nat) (op : StrandOp) :
    e.view.begun now (.strand k op) = e.begun now (.strand k op) := by
  have hafter := congrArg (open? · k) (e.view_strand now k op)
  simp only [open?_view] at hafter
  simp only [begun, open?_view]
  cases e.open? k with
  | some o => rfl
  | none =>
    generalize (e.step now (.strand k op)).value.state.open? k = after at hafter ⊢
    generalize (e.view.step now (.strand k op)).value.state.open? k = after' at hafter ⊢
    cases after with
    | none =>
      rw [Option.map_none, Option.map_eq_none_iff] at hafter
      rw [hafter]
      rfl
    | some o =>
      rw [Option.map_some, Option.map_eq_some_iff] at hafter
      obtain ⟨o', rfl, hsame⟩ := hafter
      have hid : o'.view.segment.id = o.view.segment.id := by rw [hsame]
      show some _ = some _
      rw [show o'.segment.id = o.segment.id from hid]

theorem course_begun {now : UInt64} {op : Op} {l : Life} (h : e.begun now op = some l) :
    l.course = l := by
  unfold begun at h
  split at h
  · split at h
    · obtain rfl := Option.some.inj h
      rfl
    · contradiction
  · contradiction

/-- The courses of the lives after a step of a strand depend on those before it. -/
theorem course_chronicle (e : Engine) (now : UInt64) (k : Nat) (op : StrandOp) (ls : List Life) :
    (e.view.chronicle now (.strand k op) (ls.map Life.course)).map Life.course =
      (e.chronicle now (.strand k op) ls).map Life.course := by
  have hbegun : (e.begun now (.strand k op)).toList.map Life.course =
      (e.begun now (.strand k op)).toList := by
    cases hnew : e.begun now (.strand k op) with
    | none => rfl
    | some l => exact congrArg (fun l => [l]) (course_begun hnew)
  unfold chronicle
  rw [begun_view, ← hbegun, ← List.map_append, List.map_map, List.map_map, List.map_map, hbegun]
  apply List.map_congr_left
  intro l _
  exact course_live e now k op l

/-- The operations of the strands in a run. -/
def strandOps (ops : List (UInt64 × Op)) : List (UInt64 × Op) :=
  ops.filter fun timed => timed.2 matches .strand _ _

/-- What the owner of a segment sees of a run. -/
structure SameCourse (e e' : Engine) (ls ls' : List Life) : Prop where
  view : e'.view = e.view
  course : ls'.map Life.course = ls.map Life.course

theorem SameCourse.strand (h : SameCourse e e' ls ls') (now : UInt64) (k : Nat) (op : StrandOp) :
    SameCourse (e.step now (.strand k op)).value.state (e'.step now (.strand k op)).value.state
      (e.chronicle now (.strand k op) ls) (e'.chronicle now (.strand k op) ls') where
  view := view_strand_congr h.view now k op
  course := by rw [← course_chronicle, h.view, h.course, course_chronicle]

theorem SameCourse.handle (h : SameCourse e e' ls ls') (now : UInt64) (a : AsyncHandle)
    (op : HandleOp) :
    SameCourse e (e'.step now (.handle a op)).value.state ls
      (e'.chronicle now (.handle a op) ls') where
  view := (e'.view_handle now a op).trans h.view
  course := by
    rw [← h.course, chronicle, show e'.begun now (.handle a op) = none from rfl,
      Option.toList_none, List.append_nil, List.map_map]
    apply List.map_congr_left
    intro l _
    exact l.course_afterHandle a op _

/-- **Handles are not seen**: the lives have the same course and the spans are stopped in
    the same state as in the run of the strands alone. -/
theorem SameCourse.run (h : SameCourse e e' ls ls') {ops : List (UInt64 × Op)}
    (hops : ∀ timed ∈ ops, (∃ k op, timed.2 = .strand k op) ∨ ∃ a op, timed.2 = .handle a op)
    (k : Nat) :
    SameCourse (e.run (strandOps ops)) (e'.run ops) (e.livesFrom ls (strandOps ops))
      (e'.livesFrom ls' ops) ∧ e'.stops k ops = e.stops k (strandOps ops) := by
  induction ops generalizing e e' ls ls' with
  | nil => exact ⟨h, rfl⟩
  | cons timed ops ih =>
    obtain ⟨now, op⟩ := timed
    have hrest := fun timed htimed => hops timed (List.mem_cons_of_mem _ htimed)
    have hstop : e'.stop? k now op = e.stop? k now op := by
      rw [← e'.stop?_view, h.view, e.stop?_view]
    rcases hops (now, op) List.mem_cons_self with ⟨k', sop, rfl⟩ | ⟨a, hop, rfl⟩
    · obtain ⟨hsame, hstops⟩ := ih (h.strand now k' sop) hrest
      refine ⟨hsame, ?_⟩
      show _ ++ _ = _ ++ _
      rw [hstop, hstops]
      rfl
    · obtain ⟨hsame, hstops⟩ := ih (h.handle now a hop) hrest
      exact ⟨hsame, hstops⟩

end Engine

end TraceLink
