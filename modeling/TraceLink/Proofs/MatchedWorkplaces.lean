import TraceLink.Proofs.Workplaces

/-! # Matched workplaces

    Two workplaces are alike for a strand if its state in both and the tracers are, and the
    handles that it was given in the one are matched with those in the other.

    A turn of the strand has alike outcomes in both. A turn that another strand takes in
    only one of them leaves them alike, with another gap between the counters. -/

namespace TraceLink

namespace Workplace

/-- **Workplaces that are alike** for the strand at place `k`. -/
structure Alike (k : Nat) (m : Matching) (gap : Counters) (w w' : Workplace) : Prop where
  tracer : Tracer.Alike m gap w.engine.tracer w'.engine.tracer
  strand : Option.Rel (Strand.Alike m) (w.engine.strand? k) (w'.engine.strand? k)
  length : (w.handles k).length = (w'.handles k).length
  handles : m.handles = (w.handles k).zip (w'.handles k)

namespace Alike

variable {k : Nat} {m : Matching} {gap : Counters} {w w' : Workplace}

/-- Neither strand is there, or both are and their sites are alike. -/
theorem site_cases (h : Alike k m gap w w') :
    (w.engine.site? k = none ∧ w'.engine.site? k = none) ∨
      ∃ s s', w.engine.site? k = some s ∧ w'.engine.site? k = some s' ∧ s.Alike m gap s' := by
  have hstrand := h.strand
  unfold Engine.site?
  generalize w.engine.strand? k = s, w'.engine.strand? k = s' at hstrand
  cases hstrand with
  | none => exact .inl ⟨rfl, rfl⟩
  | some hs => exact .inr ⟨_, _, rfl, rfl, h.tracer, hs⟩

/-- The handles of the same number are matched, or do nothing. -/
theorem handle (h : Alike k m gap w w') (i : Nat) :
    (w.handle k i, w'.handle k i) ∈ m.handles ∨
      w.handle k i = .idle ∧ w'.handle k i = .idle := by
  by_cases hi : i < (w.handles k).length
  · have hi' : i < (w'.handles k).length := h.length ▸ hi
    unfold Workplace.handle
    rw [List.getD_eq_getElem?_getD, List.getD_eq_getElem?_getD, List.getElem?_eq_getElem hi,
      List.getElem?_eq_getElem hi', h.handles]
    refine .inl (List.mem_of_getElem? (i := i) ?_)
    rw [List.getElem?_zip_eq_some]
    exact ⟨List.getElem?_eq_getElem hi, List.getElem?_eq_getElem hi'⟩
  · have hi' : ¬i < (w'.handles k).length := h.length ▸ hi
    rw [handle_of_le (Nat.le_of_not_lt hi), handle_of_le (Nat.le_of_not_lt hi')]
    exact .inr ⟨rfl, rfl⟩

end Alike

/-- **Alike outcomes** of a turn, in which names and handles are given alike. -/
structure Turned (k : Nat) (m : Matching) (gap : Counters) (ν ν' : Option Names)
    (a a' : Option AsyncHandle) (o o' : Outcome Workplace) : Prop where
  outcome : Outcome.Alike (m.joined ν ν' a a') (Alike k (m.joined ν ν' a a') gap) o o'
  names : ν.isSome = ν'.isSome
  handles : a.isSome = a'.isSome

namespace Alike

variable {k : Nat} {m : Matching} {gap : Counters} {w w' : Workplace}

/-- A turn that gives nothing to the strand. -/
theorem quiet {o o' : Outcome Workplace} (h : Outcome.Alike m (Alike k m gap) o o') :
    Turned k m gap none none none none o o' where
  outcome := by rwa [Matching.joined_none]
  names := rfl
  handles := rfl

/-- The strand works with its own site. -/
theorem own (h : Alike k m gap w w') {s s' : Site} (hsite : w.engine.site? k = some s)
    (hsite' : w'.engine.site? k = some s') {ν ν' : Option Names} {a a' : Option AsyncHandle}
    {s₁ s₁' : Site} (halike : s₁.Alike (m.joined ν ν' a a') gap s₁')
    (hgiven : a.isSome = a'.isSome) :
    Alike k (m.joined ν ν' a a') gap ⟨w.engine.setSite k s₁, w.given ++ a.toList.map (k, ·)⟩
      ⟨w'.engine.setSite k s₁', w'.given ++ a'.toList.map (k, ·)⟩ where
  tracer := halike.tracer
  strand := by
    rw [Engine.strand?_setSite hsite, Engine.strand?_setSite hsite', if_pos rfl, if_pos rfl]
    exact .some halike.strand
  length := by
    rw [handles_given, handles_given, List.length_append, List.length_append]
    refine congrArg₂ (· + ·) h.length ?_
    rw [Option.length_toList, Option.length_toList, hgiven]
  handles := by
    rw [handles_given, handles_given]
    exact (congrArg (· ++ _) h.handles).trans (List.zip_append h.length).symm

/-! ### Turns of the strand -/

variable (now : UInt64)

theorem turn_own (h : Alike k m gap w w') (op : StrandOp)
    (hother : ∀ s ∈ op.snapshot?, ∀ ν ∈ m.names,
      s.segment ≠ ν.1.segment ∧ s.segment ≠ ν.2.segment) :
    let x : Turn := ⟨now, k, .own op⟩
    Turned k m gap (w.begins x) (w'.begins x) (op.given? (w.turn x).reply)
      (op.given? (w'.turn x).reply) (w.turn x) (w'.turn x) := by
  intro x
  rcases h.site_cases with ⟨hsite, hsite'⟩ | ⟨s, s', hsite, hsite', hs⟩
  · have hgiven : op.given? .missing = none := op.given?_of_not_handle fun a ha => by contradiction
    rw [begins_missing hsite, begins_missing hsite', turn_missing hsite, turn_missing hsite']
    show Turned k m gap none none (op.given? .missing) (op.given? .missing) _ _
    rw [hgiven]
    exact quiet ⟨.same _, .none, h⟩
  · have hstep := hs.step now op fun snapshot hsnapshot => hs.isCurrent_eq fun ν hν =>
      have ⟨hne, hne'⟩ := hother snapshot hsnapshot ν hν
      iff_of_false hne hne'
    have hgiven := hstep.reply.given?_isSome op
    rw [begins_own hsite, begins_own hsite', Workplace.turn_own hsite, Workplace.turn_own hsite']
    exact {
      outcome := ⟨hstep.reply, hstep.handed, h.own hsite hsite' hstep.state hgiven⟩
      names := hs.begins_isSome now op
      handles := hgiven }

theorem turn_handle (h : Alike k m gap w w') (i : Nat) (op : HandleOp) :
    let x : Turn := ⟨now, k, .handle i op⟩
    Turned k m gap none none none none (w.turn x) (w'.turn x) := by
  intro x
  rw [Workplace.turn_handle, Workplace.turn_handle]
  have hdone :
      Option.Rel (Segment.Alike m) (w.engine.tracer.handle (w.handle k i) now op).value.1
        (w'.engine.tracer.handle (w'.handle k i) now op).value.1 ∧
      Tracer.Alike m gap (w.engine.tracer.handle (w.handle k i) now op).value.2
        (w'.engine.tracer.handle (w'.handle k i) now op).value.2 := by
    rcases h.handle i with hmem | ⟨hidle, hidle'⟩
    · exact h.tracer.handle hmem now op
    · rw [hidle, hidle']
      exact ⟨.none, h.tracer⟩
  obtain ⟨hdue, htracer⟩ := hdone
  exact quiet ⟨.same _, hdue, { h with tracer := htracer.reportDue _ _ }⟩

theorem turn_leave (h : Alike k m gap w w') :
    let x : Turn := ⟨now, k, .leave⟩
    Turned k m gap none none none none (w.turn x) (w'.turn x) := by
  intro x
  rcases h.site_cases with ⟨hsite, hsite'⟩ | ⟨s, s', hsite, hsite', hs⟩
  · rw [turn_leave_missing hsite, turn_leave_missing hsite']
    exact quiet ⟨.same _, .none, h⟩
  · have hgone : Option.Rel (Strand.Alike m)
        (Engine.strand? ⟨s.leave.value, w.engine.strands.set k none⟩ k)
        (Engine.strand? ⟨s'.leave.value, w'.engine.strands.set k none⟩ k) := by
      rw [Engine.strand?_leave hsite, Engine.strand?_leave hsite', if_pos rfl, if_pos rfl]
      exact .none
    rw [Workplace.turn_leave hsite, Workplace.turn_leave hsite']
    exact quiet ⟨.same _, .none, { h with tracer := hs.leave, strand := hgone }⟩

/-- **A turn of the strand** has alike outcomes. -/
theorem turn (h : Alike k m gap w w') {x : Turn} (hx : x.place = k)
    (hother : ∀ s ∈ x.act.snapshot?, ∀ ν ∈ m.names,
      s.segment ≠ ν.1.segment ∧ s.segment ≠ ν.2.segment) :
    Turned k m gap (w.begins x) (w'.begins x) (x.act.given? (w.turn x).reply)
      (x.act.given? (w'.turn x).reply) (w.turn x) (w'.turn x) := by
  obtain ⟨now, place, act⟩ := x
  obtain rfl : place = k := hx
  cases act with
  | own op => exact h.turn_own now op hother
  | handle i op => exact h.turn_handle now i op
  | leave => exact h.turn_leave now

/-! ### Turns of other strands -/

/-- Matched ledgers belong to the strand. -/
theorem owns_of_pairs (h : Alike k m gap w w') {n n' : Nat} (hpairs : m.Pairs n n') :
    w.Owns k n := by
  obtain ⟨id, hmem⟩ := hpairs
  rw [h.handles] at hmem
  exact owns_of_mem (List.of_mem_zip hmem).1

/-- **A turn of another strand** changes the gap only. -/
theorem other (h : Alike k m gap w w') (hw : w.Tidy) {j : Nat} (hj : j ≠ k) {w₁ : Workplace}
    (hfoot : Footprint j w w₁) :
    Alike k m (w₁.engine.tracer.counters.since w'.engine.tracer.counters) w₁ w' where
  tracer := {
    config := h.tracer.config.trans hfoot.config.symm
    suffixes := h.tracer.suffixes.trans (congrArg Prod.fst hfoot.setting).symm
    rate := le_of_eq_of_le (congrArg Prod.snd hfoot.setting) h.tracer.rate
    rate' := h.tracer.rate'
    counters := (Counters.plus_since _ _).symm
    handles := by
      refine h.tracer.handles_of_ledgers fun n n' hpairs hledger => ?_
      -- the turn works on ledgers of its own strand only
      have hother : ¬w.Owns j n := fun hn => hj (hw.apart hn (h.owns_of_pairs hpairs))
      rwa [hfoot.ledger n (h.tracer.bound hpairs).1 hother]
    bound := fun hpairs =>
      (h.tracer.bound hpairs).imp_left fun hlt => Nat.lt_of_lt_of_le hlt hfoot.length
    oneToOne := h.tracer.oneToOne }
  strand := hfoot.strand k (Ne.symm hj) ▸ h.strand
  length := hfoot.handles (Ne.symm hj) ▸ h.length
  handles := hfoot.handles (Ne.symm hj) ▸ h.handles

end Alike

end Workplace

end TraceLink
