import TraceLink.Proofs.IgnoredTraces

/-! # Turnover of segments

    The counters of a tracer follow the segments of its strands. A step of a strand does
    one of four things to its segment and to the counters:

    * the segment stays, and so does the decision that it is sampled or not;
    * a sampled segment is forced to be ignored, which is not counted;
    * a segment begins, and is counted by its decision;
    * the segment ends, and is counted by the decision that it has then. -/

namespace TraceLink

/-! ### What is counted -/

namespace Counters

/-- The segments that were counted when they began, with this decision. -/
def begun (c : Counters) : Bool → Nat
  | true => c.createdInherited.toNat + c.createdHere.toNat
  | false => c.ignoredInherited.toNat + c.ignoredHere.toNat

/-- The segments that were counted when they ended or were lost, with this decision. -/
def gone (c : Counters) : Bool → Nat
  | true => c.finished.toNat + c.leaked.toNat
  | false => c.finishedIgnored.toNat + c.leakedIgnored.toNat

/-- **Growth**: no counter is smaller than before, so none has wrapped around. -/
def Grows (c c' : Counters) : Prop := ∀ p ∈ c.toList.zip c'.toList, p.1 ≤ p.2

instance (c c' : Counters) : Decidable (c.Grows c') := inferInstanceAs (Decidable (∀ p ∈ _, _))

theorem toNat_succ_of_le {x : UInt64} (h : x ≤ x + 1) : (x + 1).toNat = x.toNat + 1 := by
  have hlt := x.toNat_lt
  rw [UInt64.le_iff_toNat_le, UInt64.toNat_add] at h
  rw [UInt64.toNat_add]
  simp only [UInt64.toNat_one] at h ⊢
  omega

variable {c : Counters} (inherited sampled : Bool)

theorem begun_created (h : c.Grows (c.created inherited (!sampled))) (b : Bool) :
    (c.created inherited (!sampled)).begun b = c.begun b + if sampled = b then 1 else 0 := by
  cases inherited <;> cases sampled <;> cases b <;>
    simp [Grows, created, toList] at h <;>
    have hsucc := toNat_succ_of_le h <;>
    simp only [created, begun, Bool.not_true, Bool.not_false, if_true, reduceCtorEq, if_false] <;>
    omega

theorem gone_created (b : Bool) : (c.created inherited (!sampled)).gone b = c.gone b := by
  cases inherited <;> cases sampled <;> cases b <;> rfl

theorem begun_finish (b : Bool) : (c.finish (!sampled)).begun b = c.begun b := by
  cases sampled <;> cases b <;> rfl

theorem gone_finish (h : c.Grows (c.finish (!sampled))) (b : Bool) :
    (c.finish (!sampled)).gone b = c.gone b + if sampled = b then 1 else 0 := by
  cases sampled <;> cases b <;>
    simp [Grows, finish, toList] at h <;>
    have hsucc := toNat_succ_of_le h <;>
    simp only [finish, gone, Bool.not_true, Bool.not_false, if_true, reduceCtorEq, if_false] <;>
    omega

theorem begun_leak (b : Bool) : (c.leak (!sampled)).begun b = c.begun b := by
  cases sampled <;> cases b <;> rfl

theorem gone_leak (h : c.Grows (c.leak (!sampled))) (b : Bool) :
    (c.leak (!sampled)).gone b = c.gone b + if sampled = b then 1 else 0 := by
  cases sampled <;> cases b <;>
    simp [Grows, leak, toList] at h <;>
    have hsucc := toNat_succ_of_le h <;>
    simp only [leak, gone, Bool.not_true, Bool.not_false, if_true, reduceCtorEq, if_false] <;>
    omega

end Counters

/-- **Turnover** by a step that forces a segment to be ignored, or does not: the
    decision of the open segment, none while idle, and the counters, before the step
    and after it. -/
inductive Turnover : Bool → Option Bool → Counters → Option Bool → Counters → Prop where
  | still (d : Option Bool) (c : Counters) : Turnover false d c d c
  | forced (c : Counters) : Turnover true (some true) c (some false) c
  | begun (c : Counters) (inherited sampled : Bool) :
      Turnover false none c (some sampled) (c.created inherited (!sampled))
  | ended (c : Counters) (sampled : Bool) :
      Turnover false (some sampled) c none (c.finish (!sampled))

/-- A segment that stays keeps its decision, unless it is forced. -/
theorem turnover_of_kept {d d' : Option Bool} {ignored : Bool} (hsome : d'.isSome = d.isSome)
    (hdecision : ∀ b b', d = some b → d' = some b' → b' = (b && !ignored)) (c : Counters) :
    Turnover (d == some true && ignored) d c d' c := by
  cases d with
  | none =>
    obtain rfl : d' = none := Option.not_isSome_iff_eq_none.mp (by simp [hsome])
    exact .still none c
  | some b =>
    obtain ⟨b', rfl⟩ := Option.isSome_iff_exists.mp hsome
    obtain rfl := hdecision b b' rfl rfl
    cases b <;> cases ignored
    · exact .still _ c
    · exact .still _ c
    · exact .still _ c
    · exact .forced c

/-! ### Counters of the operations -/

namespace OpenSegment

theorem sampled_continueFrom (o : OpenSegment) (c : Captured) :
    (o.continueFrom c).value.sampled = o.sampled :=
  congrArg Outline.sampled (outline_continueFrom o c)

/-- A segment is counted when it begins, by its decision and by where that comes from. -/
theorem counters_start (t : Tracer) (ordinal now : UInt64) (name : String)
    (inherited : Inherited) (continuation : Option Snapshot) :
    let begun := (start t ordinal now name inherited continuation).value
    begun.2.counters =
      t.counters.created (decision inherited continuation ≠ .undecided) (!begun.1.sampled) := by
  unfold start
  cases continuation with
  | none => rfl
  | some snapshot =>
    cases snapshot with
    | ignored segment => rfl
    | sampled c =>
      simp only [Logged.bind_value, Logged.pure_value, sampled_continueFrom]

theorem counters_prepareAsync {o o' : OpenSegment} {t t' : Tracer} {h : AsyncHandle}
    (hprepare : o.prepareAsync t = .ok (h, o', t')) :
    t'.counters = t.counters ∧ o'.sampled = o.sampled := by
  rcases prepareAsync_eq_ok hprepare with ⟨-, rfl, rfl⟩ |
    ⟨s, rest, n, t₁, -, -, ⟨-, rfl⟩ | ⟨-, hopen⟩, -, rfl, rfl⟩
  · exact ⟨rfl, rfl⟩
  · exact ⟨rfl, rfl⟩
  · obtain ⟨rfl, rfl⟩ := Prod.mk.inj hopen
    exact ⟨rfl, rfl⟩

theorem Retired.counters {o o' : OpenSegment} {t t' : Tracer} {f : Frame} {now : UInt64}
    (h : Retired o t now f o' t') : t'.counters = t.counters ∧ o'.sampled = o.sampled := by
  cases h with
  | dropped name => exact ⟨rfl, rfl⟩
  | archived hplain => exact ⟨rfl, rfl⟩
  | deferred hasync hledger => exact ⟨rfl, rfl⟩
  | stray hasync hledger => exact ⟨rfl, rfl⟩

theorem counters_finish (o : OpenSegment) (t : Tracer) :
    (o.finish t).value.2.counters = t.counters.finish (!o.sampled) := by
  unfold finish
  split
  · rfl
  · split
    · rfl
    · rfl

end OpenSegment

theorem Tracer.counters_reportDue (t : Tracer) (due : Option Segment) :
    (t.reportDue due).value.counters = t.counters := by
  cases due with
  | none => rfl
  | some g => rfl

/-! ### Steps of a strand -/

namespace Site

/-- The decision of the open segment, none while idle. -/
def decision? (s : Site) : Option Bool := s.strand.active.map (·.sampled)

theorem decision?_eq (s : Site) : s.decision? = s.outline?.map Outline.sampled := by
  rw [decision?, outline?, Option.map_map]
  rfl

theorem decision?_of_active {s : Site} {o : OpenSegment} (h : s.strand.active = some o) :
    s.decision? = some o.sampled := by
  rw [decision?, h, Option.map_some]

theorem decision?_of_idle {s : Site} (h : s.strand.active = none) : s.decision? = none := by
  rw [decision?, h, Option.map_none]

/-- The segment for a new span is the open one, or one that is counted now. -/
theorem counters_segmentFor {s s₂ : Site} {o : OpenSegment} {name : String}
    {inherited : Inherited} {now : UInt64}
    (h : (s.segmentFor name inherited now).value = (o, s₂)) :
    (s.strand.active = some o ∧ s₂ = s) ∨
    (s.strand.active = none ∧ s₂.tracer.counters = s.tracer.counters.created
      (OpenSegment.decision inherited s.strand.continuation ≠ .undecided) (!o.sampled)) := by
  rcases segmentFor_cases h with hopen | ⟨hidle, rfl, rfl⟩
  · exact .inl hopen
  · exact .inr ⟨hidle, OpenSegment.counters_start _ _ _ _ _ _⟩

variable {s : Site} {now : UInt64} {op : StrandOp}

/-- What an operation does that opens a span, in the segment `o` at the site `s₂`, which
    is the open one or begins with it. -/
theorem turnover_of_segment {s₁ s₂ : Site} {o o' : OpenSegment} {name : String}
    {inherited : Inherited} (hsome : s₁.decision?.isSome = s.decision?.isSome)
    (htracer : s₁.tracer = s.tracer)
    (hsegment : (s₁.segmentFor name inherited now).value = (o, s₂))
    (hsampled : o'.sampled = o.sampled)
    (hdecision : ∀ b b', s.decision? = some b → (s₂.withActive o').decision? = some b' →
      b' = (b && !op.continuesIgnored)) :
    Turnover (s.decision? == some true && op.continuesIgnored) s.decision? s.tracer.counters
      (s₂.withActive o').decision? (s₂.withActive o').tracer.counters := by
  have hafter : (s₂.withActive o').decision? = some o'.sampled := rfl
  rcases counters_segmentFor hsegment with ⟨hactive, rfl⟩ | ⟨hidle, hcounters⟩
  · rw [show (s₂.withActive o').tracer = s.tracer from htracer]
    refine turnover_of_kept ?_ hdecision _
    rw [hafter, ← hsome, decision?_of_active hactive]
    rfl
  · rw [decision?_of_idle hidle] at hsome
    have hnone : s.decision? = none := Option.not_isSome_iff_eq_none.mp (by simp [← hsome])
    rw [hnone, hafter, hsampled,
      show (s₂.withActive o').tracer.counters = s₂.tracer.counters from rfl, hcounters, htracer]
    exact .begun _ _ _

theorem turnover_of_effect {outcome : Outcome Site} (heffect : Effect now s op outcome)
    (hdecision : ∀ b b', s.decision? = some b → outcome.state.decision? = some b' →
      b' = (b && !op.continuesIgnored)) :
    Turnover (s.decision? == some true && op.continuesIgnored) s.decision? s.tracer.counters
      outcome.state.decision? outcome.state.tracer.counters := by
  cases heffect with
  | refused e hop => exact turnover_of_kept rfl hdecision _
  | touched hop hstop hprepare htouch =>
    obtain ⟨htracer, b, hout⟩ := outline?_touches htouch
    rw [htracer]
    refine turnover_of_kept ?_ hdecision _
    rw [decision?_eq, decision?_eq, hout, Option.isSome_map, Option.isSome_map, Option.isSome_map]
  | opened hop hread htouch hsegment hopen =>
    next kind name inbound s₁ s₂ o o' f =>
    obtain ⟨htracer, b, hout⟩ := outline?_touches htouch
    have hsome : s₁.decision?.isSome = s.decision?.isSome := by
      rw [decision?_eq, decision?_eq, hout, Option.isSome_map, Option.isSome_map, Option.isSome_map]
    refine turnover_of_segment hsome htracer hsegment ?_ hdecision
    have hopened := OpenSegment.outline_openSpan s₂.tracer.config o kind name now
      (inheritedFrom inbound).2
    rw [hopen] at hopened
    exact (congrArg Outline.sampled hopened).trans (Outline.opened_fields _ _ _ _).2.1
  | sent hsegment hopen =>
    next name peer k k' s₂ o o' f =>
    refine turnover_of_segment rfl rfl hsegment ?_ hdecision
    have hopened := OpenSegment.outline_openExit s₂.tracer.config o name peer k now
    rw [hopen] at hopened
    exact (congrArg Outline.sampled hopened).trans (Outline.opened_fields _ _ _ _).2.1
  | prepared hactive hprepare =>
    next o o' t h =>
    rw [show (withActive { s with tracer := t } o').tracer.counters = s.tracer.counters from
      (OpenSegment.counters_prepareAsync hprepare).1]
    refine turnover_of_kept ?_ hdecision _
    rw [decision?_of_active hactive]
    rfl
  | stopped hactive hpop hretire hopen =>
    next expected o o₁ o' f t =>
    have hretired := o₁.retired_retire s.tracer f now
    rw [hretire] at hretired
    rw [show (withActive { s with tracer := t } o').tracer.counters = s.tracer.counters from
      hretired.counters.1]
    refine turnover_of_kept ?_ hdecision _
    rw [decision?_of_active hactive]
    rfl
  | ended hactive hpop hretire hlast hfinish =>
    next expected o o₁ o' f t t' due =>
    have hretired := o₁.retired_retire s.tracer f now
    rw [hretire] at hretired
    obtain ⟨hcounters, hsampled⟩ := hretired.counters
    obtain ⟨rest, -, rfl, -⟩ := OpenSegment.pop_eq_ok hpop
    have hfinished := o'.counters_finish t
    rw [hfinish, hcounters, hsampled] at hfinished
    have hcounted := (Tracer.counters_reportDue t' due).trans hfinished
    rw [decision?_of_active hactive, Bool.and_comm]
    show Turnover false (some o.sampled) s.tracer.counters none (t'.reportDue due).value.counters
    rw [hcounted]
    exact .ended _ _

/-- **A step of a strand** turns over its segment. -/
theorem turnover_step (s : Site) (now : UInt64) (op : StrandOp) :
    let s' := (s.step now op).value.state
    Turnover (s.decision? == some true && op.continuesIgnored) s.decision? s.tracer.counters
      s'.decision? s'.tracer.counters := by
  refine turnover_of_effect (s.effect_of_step now op) fun b b' hb hb' => ?_
  rw [decision?_eq] at hb hb'
  obtain ⟨x, hx, rfl⟩ := Option.map_eq_some_iff.mp hb
  obtain ⟨x', hx', rfl⟩ := Option.map_eq_some_iff.mp hb'
  exact (decision_step hx now op hx').2

end Site

end TraceLink
