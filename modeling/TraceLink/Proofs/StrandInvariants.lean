import TraceLink.Proofs.CustodySteps

/-! # Invariants of strands

    The configuration of a tracer never changes, and a strand changes by its own
    operations only: what happens on other strands, to handles and to the settings
    of the tracer leaves it as it is.

    So what holds of a new strand and is kept by every step of a strand holds of
    every strand in every run. -/

namespace TraceLink

/-! ### Looking up strands -/

namespace Engine

variable {e : Engine} {now : UInt64}

theorem open?_eq (e : Engine) (k : Nat) : e.open? k = (e.site? k).bind (·.strand.active) := by
  unfold open? site?
  cases e.strand? k <;> rfl

theorem open?_of_site? {k : Nat} {s : Site} (h : e.site? k = some s) :
    e.open? k = s.strand.active := by
  rw [open?_eq, h, Option.bind_some]

theorem tracer_of_site? {k : Nat} {s : Site} (h : e.site? k = some s) : s.tracer = e.tracer := by
  obtain ⟨strand, -, rfl⟩ := Option.map_eq_some_iff.mp h
  rfl

/-- The site at the place of an open segment. -/
theorem site?_of_open? {k : Nat} {o : OpenSegment} (h : e.open? k = some o) :
    ∃ s, e.site? k = some s ∧ s.strand.active = some o := by
  rw [open?_eq] at h
  exact Option.bind_eq_some_iff.mp h

theorem lt_length_of_strand? {k : Nat} {s : Strand} (h : e.strand? k = some s) :
    k < e.strands.length :=
  (List.getElem?_eq_some_iff.mp (Option.join_eq_some_iff.mp h)).1

theorem site?_of_strand? {k : Nat} {s : Strand} (h : e.strand? k = some s) :
    e.site? k = some ⟨e.tracer, s⟩ := congrArg (Option.map _) h

theorem strand?_set (e : Engine) (t : Tracer) {k : Nat} {s : Strand} (h : e.strand? k = some s)
    (s' : Option Strand) (k' : Nat) :
    strand? ⟨t, e.strands.set k s'⟩ k' = if k = k' then s' else e.strand? k' := by
  have hlt := lt_length_of_strand? h
  unfold strand?
  split
  · next hk =>
    rw [← hk, List.getElem?_set_self hlt, Option.join_some]
  · next hk => rw [List.getElem?_set_ne hk]

theorem strand?_of_site? {k : Nat} {s : Site} (h : e.site? k = some s) :
    e.strand? k = some s.strand := by
  obtain ⟨strand, hstrand, rfl⟩ := Option.map_eq_some_iff.mp h
  exact hstrand

/-- The strands after one of them worked with its site. -/
theorem strand?_setSite {k : Nat} {s : Site} (h : e.site? k = some s) (s' : Site) (k' : Nat) :
    (e.setSite k s').strand? k' = if k = k' then some s'.strand else e.strand? k' :=
  strand?_set e s'.tracer (strand?_of_site? h) _ k'

/-- The strands after one of them left. -/
theorem strand?_leave {k : Nat} {s : Site} (h : e.site? k = some s) (k' : Nat) :
    strand? ⟨s.leave.value, e.strands.set k none⟩ k' = if k = k' then none else e.strand? k' :=
  strand?_set e s.leave.value (strand?_of_site? h) none k'

theorem site?_setSite {k : Nat} {s : Site} (h : e.site? k = some s) (s' : Site) :
    (e.setSite k s').site? k = some s' := by
  rw [site?, strand?_setSite h, if_pos rfl]
  rfl

theorem open?_setSite {k : Nat} {s : Site} (h : e.site? k = some s) (s' : Site) {k' : Nat}
    (hk : k ≠ k') : (e.setSite k s').open? k' = e.open? k' := by
  rw [open?, strand?_setSite h, if_neg hk]
  rfl

theorem setSite_self {k : Nat} {s : Site} (hsite : e.site? k = some s) : e.setSite k s = e := by
  have hstrand := strand?_of_site? hsite
  have hget : e.strands[k]? = some (some s.strand) := Option.join_eq_some_iff.mp hstrand
  obtain ⟨hlt, hval⟩ := List.getElem?_eq_some_iff.mp hget
  unfold setSite
  rw [tracer_of_site? hsite, ← hval, List.set_getElem_self]

/-- Of two states that are put at the same place, the second counts. -/
theorem setSite_setSite (e : Engine) (k : Nat) (s s' : Site) :
    (e.setSite k s).setSite k s' = e.setSite k s' :=
  congrArg (Engine.mk s'.tracer) (List.set_set _)

end Engine

/-! ### The configuration -/

namespace OpenSegment

theorem config_prepareAsync {o o' : OpenSegment} {t t' : Tracer} {h : AsyncHandle}
    (hprepare : o.prepareAsync t = .ok (h, o', t')) : t'.config = t.config := by
  rcases prepareAsync_eq_ok hprepare with ⟨-, -, rfl⟩ |
    ⟨s, rest, n, t₁, -, -, ⟨-, rfl⟩ | ⟨-, hopen⟩, -, -, rfl⟩
  · rfl
  · rfl
  · obtain ⟨rfl, rfl⟩ := Prod.mk.inj hopen
    rfl

theorem config_finish (o : OpenSegment) (t : Tracer) : (o.finish t).value.2.config = t.config := by
  unfold finish
  split
  · rfl
  · split
    · rfl
    · rfl

end OpenSegment

namespace Site

/-- No operation of a strand changes the configuration. -/
theorem config_of_effect {now : UInt64} {s : Site} {op : StrandOp} {outcome : Outcome Site}
    (h : Effect now s op outcome) : outcome.state.tracer.config = s.tracer.config := by
  cases h with
  | refused e hop => rfl
  | touched hop hstop hprepare htouch => rw [(outline?_touches htouch).1]
  | opened hop hread htouch hsegment hopen =>
    have hconfig := (outline_segmentFor hsegment).2.2
    rw [(outline?_touches htouch).1] at hconfig
    exact hconfig
  | sent hsegment hopen => exact (outline_segmentFor hsegment).2.2
  | prepared hactive hprepare => exact OpenSegment.config_prepareAsync hprepare
  | stopped hactive hpop hretire hopen =>
    next expected o o₁ o' f t =>
    have hretired := OpenSegment.retired_retire o₁ s.tracer f now
    rw [hretire] at hretired
    exact hretired.spares.2.1.config
  | ended hactive hpop hretire hlast hfinish =>
    next expected o o₁ o' f t t' due =>
    have hretired := OpenSegment.retired_retire o₁ s.tracer f now
    rw [hretire] at hretired
    have hended := o'.config_finish t
    rw [hfinish] at hended
    exact (t'.reportDue_value due).1.trans (hended.trans hretired.spares.2.1.config)

theorem leave_value (s : Site) :
    s.leave.value.config = s.tracer.config ∧ s.leave.value.ledgers = s.tracer.ledgers := by
  unfold leave
  split
  · exact ⟨rfl, rfl⟩
  · exact ⟨rfl, rfl⟩

end Site

theorem Tracer.config_handle (t : Tracer) (a : AsyncHandle) (now : UInt64) (op : HandleOp) :
    (t.handle a now op).value.2.config = t.config := by
  cases a with
  | idle => rfl
  | span n id => rfl

/-! ### Steps of the engine -/

namespace Engine

variable {e : Engine} {now : UInt64}

/-- **A strand after a step** is the one before it, a new one, or what its own step
    made of it. The configuration stays. -/
inductive Strides (e : Engine) (now : UInt64) (op : Op) (k : Nat) : Strand → Prop where
  | still {s : Strand} (hsame : e.strand? k = some s) : Strides e now op k s
  | new (n : UInt64) (hop : op = .openStrand) (hplace : k = e.strands.length) :
      Strides e now op k { ordinal := n }
  | stepped {s : Site} {sop : StrandOp} (hsite : e.site? k = some s) (hop : op = .strand k sop) :
      Strides e now op k (s.step now sop).value.state.strand

theorem config_step (e : Engine) (now : UInt64) (op : Op) :
    (e.step now op).value.state.tracer.config = e.tracer.config := by
  cases op with
  | openStrand => rfl
  | closeStrand k =>
    simp only [step, closeStrand]
    cases hsite : e.site? k with
    | none => rfl
    | some s =>
      have hconfig := s.leave_value.1
      rw [tracer_of_site? hsite] at hconfig
      exact hconfig
  | strand k op =>
    simp only [step]
    cases hsite : e.site? k with
    | none => rfl
    | some s =>
      have hconfig := Site.config_of_effect (s.effect_of_step now op)
      rw [tracer_of_site? hsite] at hconfig
      exact hconfig
  | handle a op => exact (Tracer.reportDue_value _ _).1.trans (e.tracer.config_handle a now op)
  | setSuffixes value =>
    obtain ⟨reply, suffixes, hvalue⟩ := e.setSuffixes_value now value
    rw [hvalue]
    rfl
  | setRate value => rfl
  | receive => rfl
  | closeReceiver => rfl

theorem strides_of_step {op : Op} {k : Nat} {s' : Strand}
    (h : (e.step now op).value.state.strand? k = some s') : e.Strides now op k s' := by
  cases op with
  | openStrand =>
    have hlookup : (e.strands ++ [some { ordinal := e.tracer.ids.nextOrdinal.1 }])[k]?.join =
        some s' := h
    rw [List.getElem?_append] at hlookup
    split at hlookup
    · exact .still hlookup
    · next hlt =>
      rw [List.getElem?_singleton] at hlookup
      split at hlookup
      · next hzero =>
        obtain rfl := Option.some.inj hlookup
        exact .new _ rfl (by omega)
      · contradiction
  | closeStrand k' =>
    simp only [step, closeStrand] at h
    cases hsite : e.site? k' with
    | none =>
      rw [hsite] at h
      exact .still h
    | some s =>
      rw [hsite] at h
      have hset := strand?_leave hsite k
      rw [show strand? ⟨s.leave.value, e.strands.set k' none⟩ k = some s' from h] at hset
      split at hset
      · contradiction
      · exact .still hset.symm
  | strand k' op =>
    simp only [step] at h
    cases hsite : e.site? k' with
    | none =>
      rw [hsite] at h
      exact .still h
    | some s =>
      rw [hsite] at h
      have hset := strand?_setSite hsite (s.step now op).value.state k
      rw [show (e.setSite k' (s.step now op).value.state).strand? k = some s' from h] at hset
      split at hset
      · next hk =>
        subst hk
        obtain rfl := Option.some.inj hset
        exact .stepped hsite rfl
      · exact .still hset.symm
  | handle a op => exact .still h
  | setSuffixes value =>
    obtain ⟨reply, suffixes, hvalue⟩ := e.setSuffixes_value now value
    rw [hvalue] at h
    exact .still h
  | setRate value => exact .still h
  | receive => exact .still h
  | closeReceiver => exact .still h

end Engine

/-! ### Runs -/

/-- **Invariant of strands** under a configuration: it holds of new strands and is kept
    by every step of a strand. -/
structure Strand.Invariant (c : Config) (P : Strand → Prop) : Prop where
  new : ∀ n, P { ordinal := n }
  step : ∀ (s : Site) (now : UInt64) (op : StrandOp), s.tracer.config = c → P s.strand →
    P (s.step now op).value.state.strand

namespace Strand.Invariant

variable {c : Config} {P : Strand → Prop}

/-- An invariant that holds of all strands holds of all strands after a run. -/
theorem run (h : Strand.Invariant c P) {e : Engine} (hconfig : e.tracer.config = c)
    (hall : ∀ k s, e.strand? k = some s → P s) (ops : List (UInt64 × Op)) :
    (e.run ops).tracer.config = c ∧ ∀ k s, (e.run ops).strand? k = some s → P s := by
  induction ops generalizing e with
  | nil => exact ⟨hconfig, hall⟩
  | cons timed ops ih =>
    obtain ⟨now, op⟩ := timed
    -- after the step a strand is as before, or new, or made by a step of its own
    have hnext : ∀ k s, (e.step now op).value.state.strand? k = some s → P s := by
      intro k s' hs'
      cases Engine.strides_of_step hs' with
      | still hsame => exact hall k s' hsame
      | new n => exact h.new n
      | stepped hsite hop =>
        next s sop =>
        have htracer := Engine.tracer_of_site? hsite
        exact h.step s now sop (htracer ▸ hconfig) (hall k s.strand (Engine.strand?_of_site? hsite))
    exact ih ((e.config_step now op).trans hconfig) hnext

/-- An invariant holds at every site that a tracer comes to. -/
theorem of_run (h : Strand.Invariant c P) (reporter : Reporter) (process : String)
    (start : UInt64) (ops : List (UInt64 × Op)) {k : Nat} {s : Site}
    (hsite : ((Engine.ofTracer (.start c reporter process start)).run ops).site? k = some s) :
    s.tracer.config = c ∧ P s.strand := by
  have hnone : ∀ k s, (Engine.ofTracer (.start c reporter process start)).strand? k = some s →
      P s := fun k s hs => by contradiction
  obtain ⟨hconfig, hall⟩ := h.run rfl hnone ops
  rw [Engine.tracer_of_site? hsite]
  exact ⟨hconfig, hall k s.strand (Engine.strand?_of_site? hsite)⟩

end Strand.Invariant

end TraceLink
