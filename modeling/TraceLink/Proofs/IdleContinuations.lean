import TraceLink.Proofs.Offers

/-! # Continuing while idle

    Operations that are not about a strand neither read nor change it: they have the same
    outcome whatever stands at its place.

    So when an idle strand continues snapshots, everything else goes on as if it did not. The
    last valid snapshot is the one that is pending, and once it is discarded there is nothing
    left that could tell that anything was continued. -/

namespace TraceLink

/-! ### Operations elsewhere -/

/-- The operation is not about the strand at place `k`. -/
def Op.elsewhere (k : Nat) : Op → Bool
  | .strand k' _ | .closeStrand k' => k' != k
  | _ => true

namespace Engine

/-- The engine with another strand at place `k`. -/
def setStrand (e : Engine) (k : Nat) (s : Strand) : Engine :=
  { e with strands := e.strands.set k (some s) }

variable {e : Engine} {k : Nat} {s : Strand}

theorem setStrand_self (h : e.strand? k = some s) : e.setStrand k s = e :=
  setSite_self (site?_of_strand? h)

theorem setStrand_setStrand (e : Engine) (k : Nat) (s s' : Strand) :
    (e.setStrand k s).setStrand k s' = e.setStrand k s' :=
  congrArg (Engine.mk e.tracer) (List.set_set _)

/-- A step of a strand that was put at its place. -/
theorem step_strand_setStrand (h : e.strand? k = some s) (s₁ : Strand) (now : UInt64)
    (op : StrandOp) :
    ((e.setStrand k s₁).step now (.strand k op)).value =
      (Site.step ⟨e.tracer, s₁⟩ now op).value.map (e.setSite k) := by
  have hsite : (e.setStrand k s₁).site? k = some ⟨e.tracer, s₁⟩ :=
    site?_setSite (site?_of_strand? h) ⟨e.tracer, s₁⟩
  rw [step_strand hsite]
  exact congrArg (Outcome.map · _) (funext fun s₂ => e.setSite_setSite k ⟨e.tracer, s₁⟩ s₂)

theorem strand?_setStrand (h : e.strand? k = some s) (s₁ : Strand) :
    (e.setStrand k s₁).strand? k = some s₁ :=
  strand?_of_site? (site?_setSite (site?_of_strand? h) ⟨e.tracer, s₁⟩)

theorem site?_setStrand (h : e.strand? k = some s) (s₁ : Strand) {k' : Nat} (hk : k' ≠ k) :
    (e.setStrand k s₁).site? k' = e.site? k' := by
  unfold site? setStrand
  rw [strand?_set e _ h, if_neg (Ne.symm hk)]

/-- **Frame**: an operation elsewhere neither reads nor changes the strand. -/
theorem step_setStrand (h : e.strand? k = some s) {op : Op} (hop : op.elsewhere k = true)
    (s₁ : Strand) (now : UInt64) :
    ((e.setStrand k s₁).step now op).value = (e.step now op).value.map (·.setStrand k s₁) := by
  cases op with
  | openStrand =>
    -- the place is within the list already, so the new one comes after it
    have hlength : (e.setStrand k s₁).strands.length = e.strands.length := List.length_set
    have hstrands (new : Option Strand) :
        (e.setStrand k s₁).strands ++ [new] = (e.strands ++ [new]).set k (some s₁) :=
      (List.set_append_left k _ (lt_length_of_strand? h)).symm
    simp only [step, openStrand, hlength, hstrands]
    rfl
  | closeStrand k' =>
    have hk : k' ≠ k := bne_iff_ne.mp hop
    simp only [step, closeStrand, site?_setStrand h s₁ hk]
    cases hsite : e.site? k' with
    | none => rfl
    | some s' =>
      exact congrArg (fun strands => Outcome.of .done (Engine.mk s'.leave.value strands))
        (List.set_comm _ _ (Ne.symm hk))
  | strand k' sop =>
    have hk : k' ≠ k := bne_iff_ne.mp hop
    cases hsite : e.site? k' with
    | none => simp only [step, site?_setStrand h s₁ hk, hsite]; rfl
    | some s' =>
      -- the step is the same, and two places can be set in either order
      rw [step_strand hsite, step_strand ((site?_setStrand h s₁ hk).trans hsite)]
      exact congrArg (fun strands => Outcome.mk _ _ (Engine.mk _ strands))
        (List.set_comm _ _ (Ne.symm hk))
  | setSuffixes value =>
    simp only [step, show (e.setStrand k s₁).tracer = e.tracer from rfl]
    cases e.tracer.setSuffixes value with
    | error err => rfl
    | ok next => rfl
  | _ => rfl

/-- A strand is left alone by what happens elsewhere. -/
theorem strand?_step_elsewhere (h : e.strand? k = some s) (now : UInt64) {op : Op}
    (hop : op.elsewhere k = true) : (e.step now op).value.state.strand? k = some s := by
  refine strand?_step h now (fun sop => ?_) ?_
  · rintro rfl
    simp [Op.elsewhere] at hop
  · rintro rfl
    simp [Op.elsewhere] at hop

theorem run_setStrand (h : e.strand? k = some s) {ops : List (UInt64 × Op)}
    (hops : ∀ timed ∈ ops, timed.2.elsewhere k = true) (s₁ : Strand) :
    (e.setStrand k s₁).run ops = (e.run ops).setStrand k s₁ := by
  induction ops generalizing e with
  | nil => rfl
  | cons timed ops ih =>
    obtain ⟨now, op⟩ := timed
    obtain ⟨hop, hrest⟩ := List.forall_mem_cons.mp hops
    rw [run, step_setStrand h hop]
    exact ih (strand?_step_elsewhere h now hop) hrest

theorem strand?_run (h : e.strand? k = some s) {ops : List (UInt64 × Op)}
    (hops : ∀ timed ∈ ops, timed.2.elsewhere k = true) : (e.run ops).strand? k = some s := by
  induction ops generalizing e with
  | nil => exact h
  | cons timed ops ih =>
    obtain ⟨now, op⟩ := timed
    obtain ⟨hop, hrest⟩ := List.forall_mem_cons.mp hops
    exact ih (strand?_step_elsewhere h now hop) hrest

end Engine

/-! ### Continuing while idle -/

/-- The snapshot that the operation continues on the strand at place `k`. -/
def Op.continued? (k : Nat) : Op → Option Snapshot
  | .strand k' (.continued snapshot) => if k' = k then some snapshot else none
  | _ => none

/-- The strand at place `k` is asked for nothing but to continue a snapshot. -/
def Op.onlyContinues (k : Nat) (op : Op) : Bool := op.elsewhere k || (op.continued? k).isSome

/-- The snapshots that are continued on the strand at place `k`, in order. -/
def continuedOn (k : Nat) (ops : List (UInt64 × Op)) : List Snapshot :=
  ops.filterMap fun timed => timed.2.continued? k

/-- The operations that are not about the strand at place `k`. -/
def besides (k : Nat) (ops : List (UInt64 × Op)) : List (UInt64 × Op) :=
  ops.filter fun timed => timed.2.elsewhere k

theorem elsewhere_of_besides (k : Nat) (ops : List (UInt64 × Op)) :
    ∀ timed ∈ besides k ops, timed.2.elsewhere k = true :=
  fun _ htimed => (List.mem_filter.mp htimed).2

section cons

variable {k : Nat} {op : Op} (now : UInt64) (ops : List (UInt64 × Op))

theorem besides_cons (hop : op.elsewhere k = true) :
    besides k ((now, op) :: ops) = (now, op) :: besides k ops := List.filter_cons_of_pos hop

theorem continuedOn_cons (hop : op.continued? k = none) :
    continuedOn k ((now, op) :: ops) = continuedOn k ops := List.filterMap_cons_none hop

theorem besides_continued (snapshot : Snapshot) :
    besides k ((now, .strand k (.continued snapshot)) :: ops) = besides k ops :=
  List.filter_cons_of_neg (by simp [Op.elsewhere])

theorem continuedOn_continued (snapshot : Snapshot) :
    continuedOn k ((now, .strand k (.continued snapshot)) :: ops) =
      snapshot :: continuedOn k ops := List.filterMap_cons_some (if_pos rfl)

end cons

/-- The last valid one of some snapshots. -/
def Snapshot.lastValid (snapshots : List Snapshot) : Option Snapshot :=
  (snapshots.filter (·.isValid)).getLast?

theorem Snapshot.lastValid_cons (x : Snapshot) (xs : List Snapshot) :
    lastValid (x :: xs) = (lastValid xs).or (if x.isValid then some x else none) := by
  unfold lastValid
  rw [List.filter_cons]
  split
  · rw [List.getLast?_cons]
    cases (xs.filter (·.isValid)).getLast? with
    | none => rfl
    | some y => rfl
  · rw [Option.or_none]

theorem Op.elsewhere_or_continued {k : Nat} {op : Op} (h : op.onlyContinues k = true) :
    op.elsewhere k = true ∧ op.continued? k = none ∨
      ∃ snapshot, op = .strand k (.continued snapshot) := by
  unfold onlyContinues at h
  cases op with
  | strand k' sop =>
    by_cases hk : k' = k
    · subst hk
      cases sop with
      | continued snapshot => exact .inr ⟨snapshot, rfl⟩
      | _ => simp [elsewhere, continued?] at h
    · refine .inl ⟨bne_iff_ne.mpr hk, ?_⟩
      cases sop <;> first | rfl | exact if_neg hk
  | closeStrand k' => exact .inl ⟨by simpa [continued?] using h, rfl⟩
  | _ => exact .inl ⟨rfl, rfl⟩

namespace Engine

variable {e : Engine} {k : Nat} {s : Strand}

/-- An idle strand keeps a valid snapshot, and nothing else is changed. -/
theorem state_continued (h : e.strand? k = some s) (hidle : s.active = none) (now : UInt64)
    (snapshot : Snapshot) :
    (e.step now (.strand k (.continued snapshot))).value.state = e.setStrand k { s with
      continuation := (if snapshot.isValid then some snapshot else none).or s.continuation } := by
  rw [step_strand (site?_of_strand? h)]
  show e.setSite k (Site.continued ⟨e.tracer, s⟩ snapshot).value = _
  cases hvalid : snapshot.isValid with
  | true =>
    rw [Site.continued_of_idle hidle hvalid]
    rfl
  | false =>
    rw [Site.continued_of_invalid hvalid]
    rfl

/-- **Continuing while idle**: whatever happens elsewhere happens as if nothing was continued,
    and the last valid snapshot is pending. -/
theorem run_onlyContinues (h : e.strand? k = some s) (hidle : s.active = none)
    {more : List (UInt64 × Op)} (hmore : ∀ timed ∈ more, timed.2.onlyContinues k = true) :
    e.run more = (e.run (besides k more)).setStrand k { s with
      continuation := (Snapshot.lastValid (continuedOn k more)).or s.continuation } := by
  induction more generalizing e s with
  | nil => exact (setStrand_self h).symm
  | cons timed more ih =>
    obtain ⟨now, op⟩ := timed
    obtain ⟨honly, hrest⟩ := List.forall_mem_cons.mp hmore
    rcases Op.elsewhere_or_continued honly with ⟨hop, hnone⟩ | ⟨snapshot, rfl⟩
    · rw [besides_cons now more hop, continuedOn_cons now more hnone]
      exact ih (strand?_step_elsewhere h now hop) hidle hrest
    -- the others do not see what was put there, and the next snapshot is put over it
    · rw [run, state_continued h hidle, ih (strand?_setStrand h _) (by exact hidle) hrest,
        run_setStrand h (elsewhere_of_besides k more), setStrand_setStrand, besides_continued,
        continuedOn_continued, Snapshot.lastValid_cons, Option.or_assoc]

/-- **Discarding** leaves the engine as if nothing was continued, if nothing was pending
    before. -/
theorem discard_continued (h : e.strand? k = some s) (hidle : s.active = none)
    (hnone : s.continuation = none) {more : List (UInt64 × Op)}
    (hmore : ∀ timed ∈ more, timed.2.onlyContinues k = true) (now : UInt64) :
    ((e.run more).step now (.strand k .discard)).value.state = e.run (besides k more) := by
  have hleft := strand?_run h (elsewhere_of_besides k more)
  rw [run_onlyContinues h hidle hmore, step_strand_setStrand hleft]
  show setSite _ k (Site.discard _).value.2 = _
  rw [Site.discard_value, ← hnone]
  exact setStrand_self hleft

/-- **Resetting** clears the scratch values as well. -/
theorem reset_continued (h : e.strand? k = some s) (hidle : s.active = none)
    (hnone : s.continuation = none) {more : List (UInt64 × Op)}
    (hmore : ∀ timed ∈ more, timed.2.onlyContinues k = true) (now : UInt64) :
    ((e.run more).step now (.strand k .reset)).value.state =
      (e.run (besides k more)).setStrand k { s with scratch := {} } := by
  have hleft := strand?_run h (elsewhere_of_besides k more)
  rw [run_onlyContinues h hidle hmore, step_strand_setStrand hleft]
  show setSite _ k (Site.discard _).value.2 = _
  rw [Site.discard_value, ← hnone]
  rfl

end Engine

end TraceLink
