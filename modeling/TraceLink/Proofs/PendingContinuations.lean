import TraceLink.Proofs.AwaitedReferences
import TraceLink.Proofs.IdleContinuations

/-! # Pending continuations

    A snapshot that is continued on an idle strand waits for the next segment of this strand.
    The segment that begins takes it, a span that is opened with a snapshot of its own takes
    that one instead, and discarding or resetting leaves the strand as it was before anything
    was continued.

    So what is applied to a segment when it begins was continued on the same strand since the
    segment before it, and is applied to no other segment. A snapshot that is applied to no
    segment has no effect at all: nobody could tell it from another one. -/

namespace TraceLink

/-! ### The place -/

/-- What is pending after an operation, if nothing is pending while a segment is open. -/
def Site.pendingAfter (s : Site) : StrandOp → Option Snapshot
  | .continued snapshot =>
    if s.strand.isActive || !snapshot.isValid then s.strand.continuation else some snapshot
  | .discard | .reset => none
  | op => if op.opens?.isSome then none else s.strand.continuation

namespace Site

variable {s : Site} {now : UInt64}

theorem isActive_of_opens {op : StrandOp} {kind : SpanKind} (hop : op.opens? = some kind) :
    (s.step now op).value.state.strand.isActive = true := by
  have heffect := s.effect_of_step now op
  generalize (s.step now op).value = outcome at heffect ⊢
  cases heffect with
  | opened => rfl
  | sent => rfl
  | refused e hnone => simp [hnone] at hop
  | touched hnone => simp [hnone] at hop
  | _ => contradiction

/-- Stopping or preparing a span changes nothing of what is pending. -/
theorem continuation_of_effect {op : StrandOp} {outcome : Outcome Site}
    (hop : (∃ expected, op = .stop expected) ∨ op = .prepareAsync)
    (heffect : Effect now s op outcome) :
    outcome.state.strand.continuation = s.strand.continuation := by
  cases heffect with
  | touched hnone hstop hprepare =>
    rcases hop with ⟨expected, rfl⟩ | rfl
    · exact absurd rfl (hstop expected)
    · exact absurd rfl hprepare
  | opened hopens =>
    rcases hop with ⟨expected, rfl⟩ | rfl
    · contradiction
    · contradiction
  | sent => simp at hop
  | _ => rfl

theorem continuation_continued (s : Site) (snapshot : Snapshot) :
    (s.continued snapshot).value.strand.continuation = s.pendingAfter (.continued snapshot) := by
  show _ = if s.strand.isActive || !snapshot.isValid then s.strand.continuation else some snapshot
  have h := s.continued_spec snapshot
  generalize (s.continued snapshot).value = s' at h ⊢
  cases h with
  | invalid hvalid => rw [hvalid, Bool.not_false, Bool.or_true, if_pos rfl]
  | pending hidle hvalid =>
    rw [Strand.isActive, hidle, hvalid]
    rfl
  | ignored hactive id =>
    rw [Strand.isActive, hactive]
    rfl
  | own hactive hvalid hown =>
    rw [Strand.isActive, hactive]
    rfl
  | joined hactive hvalid hother =>
    rw [Strand.isActive, hactive]
    rfl

/-- **The pending continuation after a step**. -/
theorem continuation_step (h : s.strand.PendsIdle) (now : UInt64) (op : StrandOp) :
    (s.step now op).value.state.strand.continuation = s.pendingAfter op := by
  have heffect := s.effect_of_step now op
  cases hopens : op.opens? with
  | some kind =>
    have hnone : s.pendingAfter op = none := by
      cases op <;> first | rfl | contradiction
    rw [hnone]
    exact pendsIdle_effect h heffect (isActive_of_opens hopens)
  | none =>
    cases op with
    | continued snapshot => exact s.continuation_continued snapshot
    | discard => exact congrArg (·.strand.continuation) s.discard_value
    | reset => exact congrArg (·.strand.continuation) (discard_value _)
    | stop expected => exact continuation_of_effect (.inl ⟨expected, rfl⟩) heffect
    | prepareAsync => exact continuation_of_effect (.inr rfl) heffect
    | inject k => exact congrArg (·.strand.continuation) (s.state_inject now k)
    | active => exact congrArg (·.strand.continuation) (s.state_active now)
    | extract k =>
      refine Outcome.state_ofAttempt (·.strand.continuation) (s.atomic_receive now _)
        fun step hreceive => ?_
      rcases receive_eq_ok hreceive with hsame | ⟨c, o, f, rest, -, -, -, happlied⟩
      · exact congrArg (·.strand.continuation) hsame
      · exact congrArg (·.strand.continuation) happlied
    | edit edits =>
      refine Outcome.state_ofAttempt (·.strand.continuation) (s.atomic_edit now edits)
        fun step hedit => ?_
      obtain ⟨o, f, rest, -, -, hedited⟩ := edit_eq_ok hedit
      exact congrArg (·.strand.continuation) hedited
    | putCorrelation key value =>
      show (s.putCorrelation key value).value.2.strand.continuation = _
      unfold putCorrelation
      split
      · rfl
      · rfl
    | capture => rfl
    | scratch op => rfl
    | _ => contradiction

end Site

/-! ### Where it came from -/

namespace Engine

variable {e : Engine} {k : Nat} {x : Snapshot}

/-- What is pending on the strand at place `k`. -/
def pending? (e : Engine) (k : Nat) : Option Snapshot := (e.strand? k).bind (·.continuation)

theorem pending?_of_site? {s : Site} (h : e.site? k = some s) :
    e.pending? k = s.strand.continuation := by
  rw [pending?, strand?_of_site? h, Option.bind_some]

/-- What is pending was pending before, or is continued now. -/
theorem pending?_step (hpends : ∀ s, e.strand? k = some s → s.PendsIdle) {now : UInt64} {op : Op}
    (h : (e.step now op).value.state.pending? k = some x) :
    e.pending? k = some x ∨ op = .strand k (.continued x) := by
  obtain ⟨s', hs', hx⟩ := Option.bind_eq_some_iff.mp h
  cases strides_of_step hs' with
  | still hsame => exact .inl (Option.bind_eq_some_iff.mpr ⟨s', hsame, hx⟩)
  | new n => contradiction
  | stepped hsite hop =>
    next s sop =>
    subst hop
    rw [Site.continuation_step (hpends _ (strand?_of_site? hsite))] at hx
    rw [pending?_of_site? hsite]
    cases sop with
    | continued snapshot =>
      simp only [Site.pendingAfter] at hx
      split at hx
      · exact .inl hx
      · obtain rfl := Option.some.inj hx
        exact .inr rfl
    | discard => contradiction
    | reset => contradiction
    | _ => first | exact .inl hx | contradiction

/-- Nothing is pending once a span was opened. -/
theorem pending?_of_opens (hpends : ∀ s, e.strand? k = some s → s.PendsIdle) {op : StrandOp}
    (hop : op.opens?.isSome) (now : UInt64) :
    (e.step now (.strand k op)).value.state.pending? k = none := by
  cases hsite : e.site? k with
  | none =>
    simp only [step, hsite, Logged.pure_value]
    rw [site?, Option.map_eq_none_iff] at hsite
    show (e.strand? k).bind _ = none
    rw [hsite, Option.bind_none]
  | some s =>
    rw [pending?_of_site? (site?_step_strand hsite now op),
      Site.continuation_step (hpends _ (strand?_of_site? hsite))]
    cases op <;> first | rfl | contradiction

end Engine

/-- The operation opens a span and brings no snapshot of its own: the segment that it begins
    takes what is pending. -/
def StrandOp.takesPending (op : StrandOp) : Bool :=
  op.opens?.isSome && !(op matches .innerWith _ _)

namespace Engine

/-- **Applying**: operation `i` continues the snapshot on the idle strand at place `k`, and
    operation `j` begins the segment which it is applied to. In between it is pending. -/
structure Applies (e : Engine) (ops : List (UInt64 × Op)) (k i j : Nat) (x : Snapshot) :
    Prop where
  before : i < j
  continued : ∃ t, ops[i]? = some (t, .strand k (.continued x))
  begins : ∃ t op, ops[j]? = some (t, .strand k op) ∧ op.takesPending = true
  pending : ∀ n, i < n → n ≤ j → (e.run (ops.take n)).pending? k = some x

variable {e : Engine} {k : Nat} {x : Snapshot}

theorem run_take_succ {ops : List (UInt64 × Op)} {n : Nat} {t : UInt64} {op : Op}
    (h : ops[n]? = some (t, op)) :
    e.run (ops.take (n + 1)) = ((e.run (ops.take n)).step t op).value.state := by
  rw [List.take_add_one, h, run_append]
  rfl

/-- Whatever is pending was continued on the same strand, and has been pending since. -/
theorem exists_continued (hnew : e.strands = [])
    (hpends : ∀ ops s, (e.run ops).strand? k = some s → s.PendsIdle)
    {ops : List (UInt64 × Op)} {j : Nat} (hj : j ≤ ops.length)
    (h : (e.run (ops.take j)).pending? k = some x) :
    ∃ i, i < j ∧ (∃ t, ops[i]? = some (t, .strand k (.continued x))) ∧
      ∀ n, i < n → n ≤ j → (e.run (ops.take n)).pending? k = some x := by
  induction j with
  | zero =>
    have hnone : (e.run (ops.take 0)).pending? k = none := by
      rw [List.take_zero, run, pending?, strand?, hnew]
      rfl
    rw [hnone] at h
    contradiction
  | succ j ih =>
    obtain ⟨⟨t, op⟩, hop⟩ : ∃ timed, ops[j]? = some timed :=
      ⟨_, List.getElem?_eq_getElem (Nat.lt_of_succ_le hj)⟩
    rw [run_take_succ hop] at h
    rcases pending?_step (hpends _) h with hkept | rfl
    -- it was pending before this operation, so it was continued earlier
    · obtain ⟨i, hi, hcontinued, hsince⟩ := ih (Nat.le_of_succ_le hj) hkept
      refine ⟨i, Nat.lt_succ_of_lt hi, hcontinued, fun n hn hle => ?_⟩
      rcases Nat.le_succ_iff.mp hle with hle | rfl
      · exact hsince n hn hle
      · rw [run_take_succ hop]
        exact h
    -- it is continued by this operation, and there is no moment in between
    · refine ⟨j, Nat.lt_succ_self j, ⟨t, hop⟩, fun n hn hle => ?_⟩
      obtain rfl := Nat.le_antisymm hle hn
      rw [run_take_succ hop]
      exact h

/-- Until the segment begins, no span is opened on the strand. -/
theorem Applies.next {ops : List (UInt64 × Op)} {i j : Nat} (h : e.Applies ops k i j x)
    (hpends : ∀ ops s, (e.run ops).strand? k = some s → s.PendsIdle) {n : Nat} {t : UInt64}
    {op : StrandOp} (hi : i < n) (hj : n < j) (hop : ops[n]? = some (t, .strand k op)) :
    op.opens? = none := by
  have hpending := h.pending (n + 1) (Nat.lt_succ_of_lt hi) hj
  rw [run_take_succ hop] at hpending
  refine Option.not_isSome_iff_eq_none.mp fun hopens => ?_
  rw [pending?_of_opens (hpends _) hopens] at hpending
  contradiction

/-- The segment which a snapshot is applied to is the next one that begins. -/
theorem Applies.unique {ops : List (UInt64 × Op)} {i j j' : Nat} {x' : Snapshot}
    (h : e.Applies ops k i j x) (h' : e.Applies ops k i j' x')
    (hpends : ∀ ops s, (e.run ops).strand? k = some s → s.PendsIdle) : j' = j := by
  obtain ⟨t, op, hop, htakes⟩ := h.begins
  obtain ⟨t', op', hop', htakes'⟩ := h'.begins
  rcases Nat.lt_trichotomy j j' with hlt | heq | hgt
  · have hnone := h'.next hpends h.before hlt hop
    simp [StrandOp.takesPending, hnone] at htakes
  · exact heq.symm
  · have hnone := h.next hpends h'.before hgt hop'
    simp [StrandOp.takesPending, hnone] at htakes'

end Engine

/-! ### Snapshots that are not applied -/

/-- The strand with another snapshot pending. -/
def Strand.pend (s : Strand) (y : Snapshot) : Strand := { s with continuation := some y }

/-- The site with another snapshot pending. -/
def Site.pend (s : Site) (y : Snapshot) : Site := { s with strand := s.strand.pend y }

/-- Which snapshot waits makes no difference to an operation that does not take it: the
    operation forgets it, or leaves it waiting. -/
theorem Site.step_pend {s : Site} {x : Snapshot} (h : s.strand.Waits x) (y : Snapshot)
    (now : UInt64) {op : StrandOp} (hop : op.takesPending = false) :
    ((s.pend y).step now op).value = (s.step now op).value ∨
    (s.step now op).value.state.strand.Waits x ∧
      ((s.pend y).step now op).value = (s.step now op).value.map (·.pend y) := by
  have hrefused := active_of_idle h.idle
  have hrefused' := active_of_idle (s := s.pend y) h.idle
  cases op with
  | innerWith name snapshot =>
    refine .inl ?_
    show Outcome.of (.frame ((s.pend y).innerWith name snapshot now).value.1)
      ((s.pend y).innerWith name snapshot now).value.2 = _
    rw [innerWith_of_idle (s := s.pend y) h.idle]
    exact congrArg (fun r => Outcome.of (.frame r.1) r.2)
      (innerWith_of_idle h.idle name snapshot now).symm
  | continued snapshot =>
    show Outcome.of .done ((s.pend y).continued snapshot).value = _ ∨ _ ∧
      Outcome.of .done ((s.pend y).continued snapshot).value = _
    cases hvalid : snapshot.isValid with
    | true =>
      rw [continued_of_idle (s := s.pend y) h.idle hvalid]
      exact .inl (congrArg (Outcome.of .done) (continued_of_idle h.idle hvalid).symm)
    | false =>
      refine .inr ⟨?_, ?_⟩
      · show (s.continued snapshot).value.strand.Waits x
        rw [continued_of_invalid hvalid]
        exact h
      · rw [continued_of_invalid hvalid]
        exact congrArg (fun s' => Outcome.of .done (s'.pend y)) (continued_of_invalid hvalid).symm
  | discard =>
    have hdiscard : s.discard.value =
        (true, { s with strand := { s.strand with continuation := none } }) := by
      unfold discard
      rw [h.pending]
      rfl
    refine .inl ?_
    show _ = Outcome.of (.flag s.discard.value.1) s.discard.value.2
    rw [hdiscard]
    rfl
  | reset =>
    refine .inl (congrArg (Outcome.of .done) ?_)
    show (discard _).value.2 = (discard _).value.2
    rw [discard_value, discard_value]
    rfl
  | stop expected =>
    simp only [step, stop, hrefused, hrefused']
    exact .inr ⟨h, rfl⟩
  | inject k =>
    simp only [step, inject, hrefused, hrefused']
    exact .inr ⟨h, rfl⟩
  | extract k =>
    simp only [step, receive, hrefused, hrefused']
    exact .inr ⟨h, rfl⟩
  | active =>
    simp only [step, activeFrame, hrefused, hrefused']
    exact .inr ⟨h, rfl⟩
  | edit edits =>
    simp only [step, edit, hrefused, hrefused']
    exact .inr ⟨h, rfl⟩
  | prepareAsync =>
    simp only [step, prepareAsync, hrefused, hrefused']
    exact .inr ⟨h, rfl⟩
  | putCorrelation key value =>
    simp only [step, putCorrelation, h.idle, show (s.pend y).strand.active = none from h.idle]
    exact .inr ⟨h, rfl⟩
  | capture => exact .inr ⟨h, rfl⟩
  | scratch op => exact .inr ⟨⟨h.idle, h.pending⟩, rfl⟩
  | _ => contradiction

namespace Engine

variable {e : Engine} {k : Nat} {x : Snapshot}

/-- **Exchanged**: the engines are the same, or they are the same but for the snapshot that
    waits on the strand at place `k`, which is `x` in the first one and `y` in the second. -/
inductive Exchanged (k : Nat) (x y : Snapshot) (a b : Engine) : Prop where
  | same (h : b = a)
  | waiting {s : Strand} (hs : a.strand? k = some s) (hwaits : s.Waits x)
      (h : b = a.setStrand k (s.pend y))

variable {y : Snapshot} {s : Strand}

/-- Nothing is lost with an idle strand, and its snapshot goes with it. -/
theorem close_of_idle (hs : e.strand? k = some s) (hidle : s.active = none) (now : UInt64) :
    (e.step now (.closeStrand k)).value = .of .done ⟨e.tracer, e.strands.set k none⟩ := by
  have hleave : (Site.leave ⟨e.tracer, s⟩).value = e.tracer := by
    unfold Site.leave
    rw [hidle]
    rfl
  simp only [step, closeStrand, site?_of_strand? hs, Logged.bind_value, Logged.pure_value, hleave]

/-- **A step that does not take the snapshot** has the same outcome for another one. -/
theorem exchanged_step (hs : e.strand? k = some s) (hwaits : s.Waits x) (y : Snapshot)
    (now : UInt64) {op : Op} (hop : ∀ sop, op = .strand k sop → sop.takesPending = false) :
    let one := (e.step now op).value
    let other := ((e.setStrand k (s.pend y)).step now op).value
    other.reply = one.reply ∧ other.handed = one.handed ∧
      Exchanged k x y one.state other.state := by
  intro one other
  by_cases helsewhere : op.elsewhere k = true
  · have hother : other = one.map (·.setStrand k (s.pend y)) :=
      step_setStrand hs helsewhere _ now
    rw [hother]
    exact ⟨rfl, rfl, .waiting (strand?_step_elsewhere hs now helsewhere) hwaits rfl⟩
  cases op with
  | strand k' sop =>
    obtain rfl : k' = k := by simpa [Op.elsewhere] using helsewhere
    let site : Site := ⟨e.tracer, s⟩
    have hone : one = (site.step now sop).value.map (e.setSite k') :=
      step_strand (site?_of_strand? hs) now sop
    have hother : other = ((site.pend y).step now sop).value.map (e.setSite k') :=
      step_strand_setStrand hs _ now sop
    rw [hone, hother]
    rcases site.step_pend hwaits y now (hop sop rfl) with hsame | ⟨hstill, hpend⟩
    · rw [hsame]
      exact ⟨rfl, rfl, .same rfl⟩
    · rw [hpend]
      refine ⟨rfl, rfl,
        .waiting (strand?_of_site? (site?_setSite (site?_of_strand? hs) _)) hstill ?_⟩
      exact (e.setSite_setSite k' _ _).symm
  | closeStrand k' =>
    obtain rfl : k' = k := by simpa [Op.elsewhere] using helsewhere
    have hsame : other = one := by
      have hidle : (s.pend y).active = none := hwaits.idle
      refine (close_of_idle (strand?_setStrand hs (s.pend y)) hidle now).trans
        (Eq.trans ?_ (close_of_idle hs hwaits.idle now).symm)
      exact congrArg (fun strands => Outcome.of .done (Engine.mk e.tracer strands))
        (List.set_set _)
    rw [hsame]
    exact ⟨rfl, rfl, .same rfl⟩
  | _ => exact absurd rfl helsewhere

/-- **A run in which the snapshot is not taken** goes the same way with another one. -/
theorem exchanged_run (hs : e.strand? k = some s) (hwaits : s.Waits x) (y : Snapshot)
    {more : List (UInt64 × Op)}
    (hmore : ∀ j t op, more[j]? = some (t, .strand k op) → op.takesPending = true →
      ∃ n, n ≤ j ∧ (e.run (more.take n)).pending? k ≠ some x) :
    let other := e.setStrand k (s.pend y)
    other.replies more = e.replies more ∧ other.handed more = e.handed more ∧
      Exchanged k x y (e.run more) (other.run more) := by
  induction more generalizing e s with
  | nil => exact ⟨rfl, rfl, .waiting hs hwaits rfl⟩
  | cons timed more ih =>
    obtain ⟨now, op⟩ := timed
    have hpending : e.pending? k = some x := Option.bind_eq_some_iff.mpr ⟨s, hs, hwaits.pending⟩
    -- the snapshot is pending now, so this operation is not one that takes it
    have hop : ∀ sop, op = .strand k sop → sop.takesPending = false := by
      rintro sop rfl
      refine Bool.eq_false_iff.mpr fun htakes => ?_
      obtain ⟨n, hn, hnot⟩ := hmore 0 now sop rfl htakes
      obtain rfl := Nat.le_zero.mp hn
      exact hnot hpending
    obtain ⟨hreply, hhanded, hstate⟩ := exchanged_step hs hwaits y now hop
    intro other
    simp only [replies, handed, run]
    rw [hreply, hhanded]
    cases hstate with
    -- once the snapshot is gone, the rest of the run is the same
    | same h =>
      rw [h]
      exact ⟨rfl, rfl, .same rfl⟩
    | waiting hs' hwaits' h =>
      have hrest : ∀ j t op', more[j]? = some (t, .strand k op') → op'.takesPending = true →
          ∃ n, n ≤ j ∧
            ((e.step now op).value.state.run (more.take n)).pending? k ≠ some x := by
        intro j t op' hj htakes
        obtain ⟨n, hn, hnot⟩ := hmore (j + 1) t op' hj htakes
        cases n with
        | zero => exact absurd hpending hnot
        | succ n => exact ⟨n, Nat.le_of_succ_le_succ hn, hnot⟩
      obtain ⟨hreplies, hrun⟩ := ih hs' hwaits' hrest
      rw [h]
      exact ⟨congrArg (_ :: ·) hreplies, congrArg (_ ++ ·) hrun.1, hrun.2⟩

/-- **A snapshot that is not applied** might as well have been another one. -/
theorem exchanged_unapplied {ops more : List (UInt64 × Op)} {t : UInt64}
    (hs : (e.run ops).strand? k = some s) (hidle : s.active = none) (hx : x.isValid = true)
    (hy : y.isValid = true)
    (hnever : ∀ j, ¬ e.Applies (ops ++ (t, .strand k (.continued x)) :: more) k ops.length j x) :
    let after (z : Snapshot) := (t, Op.strand k (.continued z)) :: more
    (e.run ops).replies (after y) = (e.run ops).replies (after x) ∧
    (e.run ops).handed (after y) = (e.run ops).handed (after x) ∧
      Exchanged k x y (e.run (ops ++ after x)) (e.run (ops ++ after y)) := by
  intro after
  have hcontinued (z : Snapshot) (hz : z.isValid = true) :
      ((e.run ops).step t (.strand k (.continued z))).value =
        .of .done ((e.run ops).setStrand k (s.pend z)) := by
    rw [step_strand (site?_of_strand? hs)]
    show Outcome.of .done ((e.run ops).setSite k (Site.continued ⟨_, s⟩ z).value) = _
    rw [Site.continued_of_idle hidle hz]
    rfl
  have hafter (n : Nat) : e.run ((ops ++ after x).take (ops.length + 1 + n)) =
      ((e.run ops).setStrand k (s.pend x)).run (more.take n) := by
    rw [Nat.add_assoc, List.take_length_add_append, Nat.add_comm 1 n, List.take_succ_cons,
      run_append, run, hcontinued x hx]
    rfl
  have huntaken : ∀ j t' op, more[j]? = some (t', .strand k op) → op.takesPending = true →
      ∃ n, n ≤ j ∧
        (((e.run ops).setStrand k (s.pend x)).run (more.take n)).pending? k ≠ some x := by
    intro j t' op hj htakes
    by_contra hall
    -- otherwise the snapshot was pending all the time, and is applied now
    refine hnever (ops.length + 1 + j)
      ⟨by omega, ⟨t, ?_⟩, ⟨t', op, ?_, htakes⟩, fun n hn hle => ?_⟩
    · rw [List.getElem?_append_right (Nat.le_refl _), Nat.sub_self, List.getElem?_cons_zero]
    · rw [List.getElem?_append_right (by omega), Nat.add_assoc, Nat.add_sub_cancel_left,
        Nat.add_comm 1 j, List.getElem?_cons_succ]
      exact hj
    · obtain ⟨m, rfl⟩ := Nat.exists_eq_add_of_le (Nat.succ_le_of_lt hn)
      by_contra hnot
      refine hall ⟨m, Nat.add_le_add_iff_left.mp hle, ?_⟩
      rw [← hafter]
      exact hnot
  obtain ⟨hreplies, hhanded, hstate⟩ :=
    exchanged_run (strand?_setStrand hs (s.pend x)) ⟨hidle, rfl⟩ y huntaken
  rw [setStrand_setStrand] at hreplies hhanded hstate
  rw [run_append, run_append]
  simp only [after, replies, handed, run, hcontinued x hx, hcontinued y hy]
  exact ⟨congrArg (_ :: ·) hreplies, hhanded, hstate⟩

/-! ### Tasks of a pool -/

/-- **A span that brings its own snapshot** is opened on an idle strand as if nothing was
    pending; with an invalid one it is opened without any. -/
theorem innerWith_forgets {s : Strand} (h : e.strand? k = some s) (hidle : s.active = none)
    (now : UInt64) (name : String) (snapshot : Snapshot) :
    let cleared := e.setStrand k { s with continuation := none }
    let begun := (e.step now (.strand k (.innerWith name snapshot))).value
    begun = (cleared.step now (.strand k (.innerWith name snapshot))).value ∧
    (snapshot.isValid = false → begun = (cleared.step now (.strand k (.inner name))).value) := by
  let site : Site := ⟨e.tracer, s⟩
  let fresh : Site := ⟨e.tracer, { s with continuation := none }⟩
  -- what was pending is forgotten before the snapshot is looked at
  have hinner : (site.innerWith name snapshot now).value =
      ((fresh.continued snapshot).value.openSpan .inner name .absent now).value :=
    Site.innerWith_of_idle (s := site) hidle name snapshot now
  have hinner' : (fresh.innerWith name snapshot now).value =
      ((fresh.continued snapshot).value.openSpan .inner name .absent now).value :=
    Site.innerWith_of_idle (s := fresh) hidle name snapshot now
  intro cleared begun
  have hbegun : begun = (Outcome.of (.frame (site.innerWith name snapshot now).value.1)
      (site.innerWith name snapshot now).value.2).map (e.setSite k) :=
    step_strand (site?_of_strand? h) now _
  refine ⟨?_, fun hinvalid => ?_⟩
  · rw [hbegun, hinner, ← hinner']
    exact (step_strand_setStrand h _ now (.innerWith name snapshot)).symm
  · rw [hbegun, hinner, Site.continued_of_invalid hinvalid]
    exact (step_strand_setStrand h _ now (.inner name)).symm

/-- **Continuations never leak** into another task. In every run a continuation is pending on
    idle strands only. Where nothing is pending, whatever snapshots an idle strand continues,
    to discard or to reset leaves the engine as if it had continued none. What is applied to
    a segment that begins was continued on this strand before, and is applied to no other
    segment: no span is opened there in between. A snapshot that is applied to no segment has
    no effect: with another one in its place the replies and the segments that are handed over
    are the same, and so is the engine, but for the snapshot itself while it is pending. And a
    span that is opened with a snapshot of its own is opened as if nothing was pending, also
    when its snapshot is invalid. -/
theorem continuations_never_leak (config : Config) (reporter : Reporter) (process : String)
    (start : UInt64) (ops : List (UInt64 × Op)) (k : Nat) :
    let e := ofTracer (.start config reporter process start)
    (∀ s, (e.run ops).strand? k = some s → s.active.isSome → s.continuation = none) ∧
    (∀ s more now, (e.run ops).strand? k = some s → s.active = none → s.continuation = none →
      (∀ timed ∈ more, timed.2.onlyContinues k = true) →
      let after := e.run (ops ++ more)
      let alone := e.run (ops ++ besides k more)
      (after.step now (.strand k .discard)).value.state = alone ∧
      (after.step now (.strand k .reset)).value.state =
        alone.setStrand k { s with scratch := {} }) ∧
    (∀ j t op x, ops[j]? = some (t, .strand k op) → op.takesPending = true →
      (e.run (ops.take j)).pending? k = some x → ∃ i, e.Applies ops k i j x) ∧
    (∀ i j x, e.Applies ops k i j x →
      (∀ n t op, i < n → n < j → ops[n]? = some (t, .strand k op) → op.opens? = none) ∧
      ∀ j' x', e.Applies ops k i j' x' → j' = j) ∧
    (∀ s t x y more, (e.run ops).strand? k = some s → s.active = none →
      x.isValid = true → y.isValid = true →
      (∀ j, ¬ e.Applies (ops ++ (t, .strand k (.continued x)) :: more) k ops.length j x) →
      let after (z : Snapshot) := (t, Op.strand k (.continued z)) :: more
      (e.run ops).replies (after y) = (e.run ops).replies (after x) ∧
      (e.run ops).handed (after y) = (e.run ops).handed (after x) ∧
      Exchanged k x y (e.run (ops ++ after x)) (e.run (ops ++ after y))) ∧
    ∀ s now name snapshot, (e.run ops).strand? k = some s → s.active = none →
      let cleared := (e.run ops).setStrand k { s with continuation := none }
      let begun := ((e.run ops).step now (.strand k (.innerWith name snapshot))).value
      begun = (cleared.step now (.strand k (.innerWith name snapshot))).value ∧
      (snapshot.isValid = false → begun = (cleared.step now (.strand k (.inner name))).value) ∧
      (begun.state.open? k).isSome ∧ begun.state.pending? k = none := by
  intro e
  have hpends : ∀ ops s, (e.run ops).strand? k = some s → s.PendsIdle := fun ops s hs =>
    ((Strand.pendsIdle_invariant config).of_run reporter process start ops
      (site?_of_strand? hs)).2
  refine ⟨fun s hs => hpends ops s hs, ?_, ?_, ?_, ?_, ?_⟩
  · intro s more now hs hidle hnone hmore after alone
    have hafter : after = (e.run ops).run more := run_append e ops more
    have halone : alone = (e.run ops).run (besides k more) := run_append e ops _
    rw [hafter, halone]
    exact ⟨discard_continued hs hidle hnone hmore now, reset_continued hs hidle hnone hmore now⟩
  · intro j t op x hop htakes hpending
    obtain ⟨hj, -⟩ := List.getElem?_eq_some_iff.mp hop
    obtain ⟨i, hi, hcontinued, hsince⟩ := exists_continued rfl hpends (Nat.le_of_lt hj) hpending
    exact ⟨i, hi, hcontinued, ⟨t, op, hop, htakes⟩, hsince⟩
  · intro i j x happlies
    exact ⟨fun n t op hi hj hop => happlies.next hpends hi hj hop,
      fun j' x' happlies' => happlies.unique happlies' hpends⟩
  · exact fun s t x y more hs hidle hx hy hnever => exchanged_unapplied hs hidle hx hy hnever
  · intro s now name snapshot hs hidle cleared begun
    obtain ⟨hforgets, hinvalid⟩ := innerWith_forgets hs hidle now name snapshot
    refine ⟨hforgets, hinvalid, ?_, pending?_of_opens (hpends ops) rfl now⟩
    rw [open?_step_strand (site?_of_strand? hs)]
    exact Site.isActive_of_opens rfl

/-- What a worker does: the snapshot of one task is discarded, the next task continues
    another one, and a third task continues none. -/
def workerRun : List (UInt64 × Op) :=
  [(0, .openStrand), (1, .strand 0 (.continued (.ignored "dropped"))), (2, .strand 0 .discard),
    (3, .strand 0 (.continued (.sampled jobContext))), (4, .strand 0 (.inner "run")),
    (5, .strand 0 (.stop none)), (6, .strand 0 (.inner "rest"))]

theorem continuations_never_leak_worker :
    let e := ofTracer (.start (Config.standard "i") .collecting "p" 0)
    let opened := workerRun.take 1
    let more : List (UInt64 × Op) := [(1, .strand 0 (.continued (.ignored "dropped"))),
      (2, .openStrand), (3, .strand 0 (.continued (.sampled jobContext)))]
    ((e.run (opened ++ more)).step 4 (.strand 0 .discard)).value.state =
      e.run (opened ++ [(2, .openStrand)]) ∧
    (∃ i, e.Applies workerRun 0 i 4 (.sampled jobContext) ∧
      ∀ j x, e.Applies workerRun 0 i j x → j = 4) ∧
    (e.run opened).handed ((1, .strand 0 (.continued (.sampled jobContext))) :: workerRun.drop 2) =
      (e.run opened).handed (workerRun.drop 1) ∧
    ∃ s, (e.run (opened ++ more)).strand? 0 = some s ∧
      s.continuation = some (.sampled jobContext) ∧
      ((e.run (opened ++ more)).step 4 (.strand 0 (.innerWith "run" (.sampled ⟨"", "", -1, none,
        .empty .standard, .none⟩)))).value =
      (((e.run (opened ++ more)).setStrand 0 { s with continuation := none }).step 4
        (.strand 0 (.inner "run"))).value := by
  intro e opened more
  have hfresh : ((e.run opened).strand? 0).any (fun s =>
      decide (s.active = none ∧ s.continuation = none)) = true := by decide +kernel
  obtain ⟨s, hs, hstrand⟩ := (Option.any_eq_true _ _).mp hfresh
  obtain ⟨hidle, hnone⟩ := of_decide_eq_true hstrand
  have hwaits : ((e.run (opened ++ more)).strand? 0).any (fun s =>
      decide (s.active = none ∧ s.continuation = some (.sampled jobContext))) = true := by
    decide +kernel
  obtain ⟨s', hs', hstrand'⟩ := (Option.any_eq_true _ _).mp hwaits
  obtain ⟨hidle', hpending⟩ := of_decide_eq_true hstrand'
  refine ⟨?_, ?_, ?_, ?_⟩
  · obtain ⟨-, hforgotten, -⟩ :=
      continuations_never_leak (Config.standard "i") .collecting "p" 0 opened 0
    exact (hforgotten s more 4 hs hidle hnone (by decide)).1
  · obtain ⟨-, -, happlied, honce, -⟩ :=
      continuations_never_leak (Config.standard "i") .collecting "p" 0 workerRun 0
    obtain ⟨i, happlies⟩ := happlied 4 4 (.inner "run") (.sampled jobContext) rfl rfl
      (by decide +kernel)
    exact ⟨i, happlies, (honce i 4 _ happlies).2⟩
  · obtain ⟨-, -, -, -, hexchanged, -⟩ :=
      continuations_never_leak (Config.standard "i") .collecting "p" 0 opened 0
    refine (hexchanged s 1 (.ignored "dropped") (.sampled jobContext) (workerRun.drop 2) hs hidle
      rfl (by decide) ?_).2.1
    rintro j ⟨hlt, -, ⟨t, op, hop, htakes⟩, hsince⟩
    -- the snapshot is discarded next, so nothing later finds it
    have hdiscarded : (e.run (workerRun.take 3)).pending? 0 = none := by decide +kernel
    rcases Nat.eq_or_lt_of_le (show 2 ≤ j from hlt) with rfl | hlater
    · obtain rfl : op = .discard := (Op.strand.inj (Prod.mk.inj (Option.some.inj hop)).2).2.symm
      contradiction
    · have hfound : (e.run (workerRun.take 3)).pending? 0 = some (.ignored "dropped") :=
        hsince 3 (by decide) hlater
      rw [hdiscarded] at hfound
      contradiction
  · obtain ⟨-, -, -, -, -, hinner⟩ :=
      continuations_never_leak (Config.standard "i") .collecting "p" 0 (opened ++ more) 0
    exact ⟨s', hs', hpending, (hinner s' 4 "run" _ hs' hidle').2.1 (by decide)⟩

end Engine

end TraceLink
