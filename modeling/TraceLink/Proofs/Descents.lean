import TraceLink.Proofs.Offers

/-! # Descents of segments

    The *descent* of a segment is its life together with the trace id that was generated
    for it and all that was offered to it so far, in order.

    Every step of an engine passes the kinship of each segment by what the step offers to
    it, wherever the segment is: open on a strand, parked in a ledger, or handed over. So
    at every moment of a run the kinship of a segment can be told from its descent. -/

namespace TraceLink

open Kinship (Passes)

namespace Engine

/-! ### Where a segment is -/

/-- **Holding**: the engine holds the segment of the life, with this kinship. It is open on
    its strand, parked in its ledger, or was handed over. -/
inductive Holds (e : Engine) (l : Life) : Kinship → Prop where
  | running {k : Nat} {o : OpenSegment} (hstage : l.stage = .running k)
      (hopen : e.open? k = some o) : Holds e l (o.kinship (e.tracer.ledgerOf l.ledger?))
  | parked {g : Segment} (hparked : (e.tracer.ledgerOf l.ledger?).parked = some g) :
      Holds e l (g.kinship (e.tracer.ledgerOf l.ledger?))
  | handed {g : Segment} (hreport : g ∈ l.reports) : Holds e l (g.kinship {})

/-- What an operation offers to the segment of a life. -/
def offers (e : Engine) (op : Op) (l : Life) : List ParentRef :=
  match op with
  | .strand k sop =>
    if l.stage = .running k then ((e.site? k).map (·.offers sop)).getD [] else []
  | _ => []

/-- The trace id that is generated for a segment that begins with the operation. -/
def ownTrace (e : Engine) (now : UInt64) : Op → String
  | .strand k _ => ((e.site? k).map (·.ownTrace now)).getD ""
  | _ => ""

variable {capacity : Nat} {e e' : Engine} {now : UInt64} {op : Op} {ls : List Life} {l : Life}
  {κ κ' : Kinship}

/-- The kinship that is held is the one that its aspect shows. -/
theorem holds_iff : e.Holds l κ ↔ e.Shows Kinship.aspect l κ := by
  constructor
  · intro h
    cases h with
    | running hstage hopen => exact .running hstage hopen
    | parked hparked => exact .parked hparked
    | handed hreport => exact .handed hreport
  · intro h
    cases h with
    | running hstage hopen => exact .running hstage hopen
    | parked hparked => exact .parked hparked
    | handed hreport => exact .handed hreport

/-- Of a running life the engine holds the open segment. -/
theorem Holds.of_runs (h : e.Holds l κ) {k : Nat} {s : Site} {x : Outline}
    (hstage : l.stage = .running k) (hsite : e.site? k = some s) (hruns : l.Runs capacity s x) :
    ∃ o, s.strand.active = some o ∧ o.ledger = l.ledger? ∧
      κ = o.kinship (s.tracer.ledgerOf o.ledger) :=
  (holds_iff.mp h).of_runs hstage hsite hruns

/-! ### Every step -/

/-- **Every step** passes the kinship of a segment by what it offers to it. -/
theorem Tells.passes_step (h : e.Tells capacity ls) (hl : l ∈ ls)
    (hholds : (e.step now op).value.state.Holds (e.live now op l) κ') :
    ∃ κ, e.Holds l κ ∧ Passes (e.offers op l) κ κ' := by
  obtain ⟨κ, hshows, hpasses⟩ := h.shows_step Kinship.evolves_aspect hl (holds_iff.mp hholds)
  exact ⟨κ, holds_iff.mpr hshows, hpasses⟩

/-- A segment begins with a new kinship, which passes by what the first step offers. -/
theorem Tells.passes_begun (h : e.Tells capacity ls) (hbegun : e.begun now op = some l)
    (hholds : (e.step now op).value.state.Holds (e.live now op l) κ') :
    Passes (e.offers op l) (.new (e.ownTrace now op)) κ' := by
  obtain ⟨k, sop, s, rfl, hsite, hpasses⟩ :=
    h.shows_begun Kinship.evolves_aspect hbegun (holds_iff.mp hholds)
  rw [ownTrace, hsite]
  exact hpasses

end Engine

/-! ### Descents -/

/-- **Descent** of a segment. -/
structure Descent where
  life : Life
  /-- The trace id that was generated for the segment. -/
  own : String
  /-- What was offered to the segment so far, in order. -/
  offers : List ParentRef
  deriving DecidableEq

/-- The kinship of a segment as its descent tells it: the first offer is taken, and while
    there is none no span refers to a parent. -/
structure Kinship.Descends (κ : Kinship) (own : String) (offers : List ParentRef) : Prop where
  parent : κ.parent = offers.head?
  trace : κ.trace = (offers.head?.map (·.trace)).getD own
  pendingRef : offers = [] → κ.pendingRef = none
  badges : offers = [] → ∀ b ∈ κ.badges, b.2 = none

namespace Kinship

theorem descends_new (own : String) : (new own).Descends own [] where
  parent := rfl
  trace := rfl
  pendingRef := fun _ => rfl
  badges := fun _ b hb => by contradiction

theorem Descends.passes {κ κ' : Kinship} {own : String} {offers refs : List ParentRef}
    (h : κ.Descends own offers) (hpasses : Passes refs κ κ') :
    κ'.Descends own (offers ++ refs) := by
  induction hpasses generalizing offers with
  | still htrace hparent hpending hbegun hbadges =>
    rw [List.append_nil]
    refine ⟨hparent.trans h.parent, htrace.trans h.trace, fun hnone => ?_, fun hnone b hb => ?_⟩
    · refine Option.eq_none_iff_forall_ne_some.mpr fun ref href => ?_
      have hsome := hpending ref href
      rw [h.pendingRef hnone] at hsome
      contradiction
    · exact h.badges hnone b (hbadges hb)
  | opened hid =>
    rw [List.append_nil]
    refine ⟨h.parent, h.trace, fun _ => rfl, fun hnone b hb => ?_⟩
    rcases List.mem_cons.mp hb with rfl | hold
    · exact h.pendingRef hnone
    · exact h.badges hnone b hold
  | joined ref htrace hparent =>
    rw [h.parent] at htrace hparent
    refine ⟨?_, ?_, fun hnone => ?_, fun hnone => ?_⟩
    · rw [hparent, List.head?_append]
      rfl
    · rw [htrace, List.head?_append, h.trace]
      cases offers.head? <;> rfl
    · simp at hnone
    · simp at hnone
  | trans _ _ ih ih' =>
    rw [← List.append_assoc]
    exact ih' (ih h)

end Kinship

namespace Engine

/-- What a step adds to a descent. -/
def descend (e : Engine) (now : UInt64) (op : Op) (d : Descent) : Descent where
  life := e.live now op d.life
  own := d.own
  offers := d.offers ++ e.offers op d.life

/-- The descent that begins with a step. -/
def conceived (e : Engine) (now : UInt64) (op : Op) : Option Descent :=
  (e.begun now op).map fun l => ⟨l, e.ownTrace now op, []⟩

/-- The descents after a step. -/
def descentsAfter (e : Engine) (now : UInt64) (op : Op) (ds : List Descent) : List Descent :=
  (ds ++ (e.conceived now op).toList).map (e.descend now op)

/-- The descents after a run, from those before it. -/
def descentsFrom (e : Engine) (ds : List Descent) : List (UInt64 × Op) → List Descent
  | [] => ds
  | (now, op) :: ops =>
    (e.step now op).value.state.descentsFrom (e.descentsAfter now op ds) ops

/-- The descents of all segments that begin in a run. -/
def descents (e : Engine) (ops : List (UInt64 × Op)) : List Descent := e.descentsFrom [] ops

variable {capacity : Nat} {e : Engine} {now : UInt64} {op : Op} {ds : List Descent}

theorem map_life_descentsAfter (e : Engine) (now : UInt64) (op : Op) (ds : List Descent) :
    (e.descentsAfter now op ds).map Descent.life = e.chronicle now op (ds.map Descent.life) := by
  have hconceived : (e.conceived now op).toList.map Descent.life = (e.begun now op).toList := by
    unfold conceived
    cases e.begun now op <;> rfl
  unfold descentsAfter chronicle
  rw [List.map_map, ← hconceived, ← List.map_append, List.map_map]
  rfl

theorem map_life_descentsFrom (e : Engine) (ds : List Descent) (ops : List (UInt64 × Op)) :
    (e.descentsFrom ds ops).map Descent.life = e.livesFrom (ds.map Descent.life) ops := by
  induction ops generalizing e ds with
  | nil => rfl
  | cons timed ops ih =>
    obtain ⟨now, op⟩ := timed
    refine (ih _ _).trans ?_
    rw [map_life_descentsAfter]
    rfl

theorem descentsFrom_append (e : Engine) (ds : List Descent) (ops more : List (UInt64 × Op)) :
    e.descentsFrom ds (ops ++ more) = (e.run ops).descentsFrom (e.descentsFrom ds ops) more := by
  induction ops generalizing e ds with
  | nil => rfl
  | cons timed ops ih => exact ih _ _

/-! ### What descents tell -/

/-- The descents tell the kinship of all segments that the engine holds. -/
def Descending (e : Engine) (ds : List Descent) : Prop :=
  ∀ d ∈ ds, ∀ κ, e.Holds d.life κ → κ.Descends d.own d.offers

/-- Every step keeps the descents true. -/
theorem Tells.descending_step (h : e.Tells capacity (ds.map Descent.life))
    (hdescending : e.Descending ds) (now : UInt64) (op : Op) :
    (e.step now op).value.state.Descending (e.descentsAfter now op ds) := by
  intro d' hd' κ' hholds
  obtain ⟨d, hd, rfl⟩ := List.mem_map.mp hd'
  rcases List.mem_append.mp hd with hold | hnew
  · obtain ⟨κ, hbefore, hpasses⟩ := h.passes_step (List.mem_map_of_mem hold) hholds
    exact (hdescending d hold κ hbefore).passes hpasses
  · obtain ⟨l, hbegun, rfl⟩ := Option.map_eq_some_iff.mp (Option.mem_toList.mp hnew)
    exact (Kinship.descends_new _).passes (h.passes_begun hbegun hholds)

/-- Every run keeps the descents true. -/
theorem Tells.descending_run (h : e.Tells capacity (ds.map Descent.life))
    (hdescending : e.Descending ds) (ops : List (UInt64 × Op)) :
    (e.run ops).Descending (e.descentsFrom ds ops) := by
  induction ops generalizing e ds with
  | nil => exact hdescending
  | cons timed ops ih =>
    obtain ⟨now, op⟩ := timed
    refine ih ?_ (h.descending_step hdescending now op)
    rw [map_life_descentsAfter]
    exact (h.step now op).1

/-- In every run, the lives in the descents tell what the engine holds. -/
theorem tells_descents (config : Config) (reporter : Reporter) (process : String)
    (start : UInt64) (ops : List (UInt64 × Op)) :
    let e := ofTracer (.start config reporter process start)
    (e.run ops).Tells config.capacity ((e.descents ops).map Descent.life) := by
  intro e
  have hlives : (e.descents ops).map Descent.life = e.lives ops := e.map_life_descentsFrom [] ops
  rw [hlives]
  exact ((tells_start config reporter process start).run ops).1

/-- In every run, the descents tell the kinship of all segments. -/
theorem descending_descents (config : Config) (reporter : Reporter) (process : String)
    (start : UInt64) (ops : List (UInt64 × Op)) :
    let e := ofTracer (.start config reporter process start)
    (e.run ops).Descending (e.descents ops) := by
  intro e
  exact Tells.descending_run (tells_start config reporter process start)
    (fun d hd => by contradiction) ops

/-! ### Descents along a run -/

theorem segment_live (e : Engine) (now : UInt64) (op : Op) (l : Life) :
    (e.live now op l).segment = l.segment := by
  cases op with
  | strand k sop =>
    rw [live_strand]
    split
    · show (Life.afterStrandOp _ _ _ _ _).segment = _
      unfold Life.afterStrandOp
      split
      · rfl
      · rfl
      · split
        · rfl
        · rfl
    · rfl
  | closeStrand k =>
    rw [live_closeStrand]
    split
    · rfl
    · rfl
  | handle a hop => exact Life.segment_afterHandle _ _ _ _
  | _ => rfl

end Engine

/-- **Continuing** a descent: that of the same segment, with what was offered since. -/
structure Descent.Continues (d d' : Descent) : Prop where
  segment : d'.life.segment = d.life.segment
  own : d'.own = d.own
  offers : d.offers <+: d'.offers

namespace Engine

variable {e : Engine} {ds : List Descent} {d : Descent}

theorem continues_descend (e : Engine) (now : UInt64) (op : Op) (d : Descent) :
    d.Continues (e.descend now op d) where
  segment := e.segment_live now op d.life
  own := rfl
  offers := List.prefix_append _ _

/-- A descent keeps its place. -/
theorem getElem?_descentsAfter {i : Nat} (h : ds[i]? = some d) (now : UInt64) (op : Op) :
    (e.descentsAfter now op ds)[i]? = some (e.descend now op d) := by
  obtain ⟨hi, -⟩ := List.getElem?_eq_some_iff.mp h
  rw [descentsAfter, List.getElem?_map, List.getElem?_append_left hi, h, Option.map_some]

/-- The descent of a segment that begins. -/
theorem exists_descent_begun {k : Nat} {s : Site} (hsite : e.site? k = some s)
    (hidle : s.strand.active = none) {now : UInt64} {sop : StrandOp}
    (hstop : ∀ expected, sop ≠ .stop expected) {o : OpenSegment}
    (hopen : (e.step now (.strand k sop)).value.state.open? k = some o) (ds : List Descent) :
    ∃ d, (e.descentsAfter now (.strand k sop) ds)[ds.length]? = some d ∧
      d.life.stage = .running k ∧ d.life.segment = o.segment.id ∧ d.offers = s.offers sop := by
  let l : Life := { segment := o.segment.id, stage := .running k }
  have hbegun : e.begun now (.strand k sop) = some l := by
    simp only [begun, open?_of_site? hsite, hidle, hopen]
    rfl
  refine ⟨e.descend now (.strand k sop) ⟨l, e.ownTrace now (.strand k sop), []⟩, ?_,
    stage_live_strand rfl now hstop, e.segment_live now _ l, ?_⟩
  · rw [descentsAfter, conceived, hbegun, List.getElem?_map,
      List.getElem?_append_right (Nat.le_refl _), Nat.sub_self]
    rfl
  · rw [descend, offers, if_pos rfl, hsite]
    rfl

/-- Along a run the descent in each place is continued. -/
theorem continues_descentsFrom {i : Nat} (h : ds[i]? = some d) (ops : List (UInt64 × Op)) :
    ∃ d', (e.descentsFrom ds ops)[i]? = some d' ∧ d.Continues d' := by
  induction ops generalizing e ds d with
  | nil => exact ⟨d, h, rfl, rfl, List.prefix_rfl⟩
  | cons timed ops ih =>
    obtain ⟨now, op⟩ := timed
    have hstep := e.continues_descend now op d
    obtain ⟨d', hd', hrun⟩ := ih (getElem?_descentsAfter (e := e) h now op)
    exact ⟨d', hd', hrun.segment.trans hstep.segment, hrun.own.trans hstep.own,
      hstep.offers.trans hrun.offers⟩

/-- While nothing more is offered to a segment, its kinship keeps what passing keeps. -/
theorem Tells.kept_run {capacity : Nat} {P : Kinship → Prop}
    (hkept : ∀ κ κ', Passes [] κ κ' → P κ → P κ')
    (h : e.Tells capacity (ds.map Descent.life)) {i : Nat} (hd : ds[i]? = some d)
    (hholds : ∀ κ, e.Holds d.life κ → P κ) {ops : List (UInt64 × Op)} {d' : Descent}
    (hd' : (e.descentsFrom ds ops)[i]? = some d') (hsame : d'.offers = d.offers) :
    ∀ κ, (e.run ops).Holds d'.life κ → P κ := by
  induction ops generalizing e ds d with
  | nil =>
    obtain rfl := Option.some.inj (hd.symm.trans hd')
    exact hholds
  | cons timed ops ih =>
    obtain ⟨now, op⟩ := timed
    have hnext := getElem?_descentsAfter (e := e) hd now op
    obtain ⟨d'', hd'', hcontinues⟩ :=
      continues_descentsFrom (e := (e.step now op).value.state) hnext ops
    obtain rfl := Option.some.inj (hd''.symm.trans hd')
    -- what the step offers would still be there at the end
    have hnone : e.offers op d.life = [] := by
      have hlength := hcontinues.offers.length_le
      rw [hsame, descend, List.length_append] at hlength
      exact List.length_eq_zero_iff.mp (by omega)
    have htells : (e.step now op).value.state.Tells capacity
        ((e.descentsAfter now op ds).map Descent.life) := by
      rw [map_life_descentsAfter]
      exact (h.step now op).1
    refine ih htells hnext (fun κ' hκ' => ?_) hd' ?_
    · obtain ⟨κ, hκ, hpasses⟩ :=
        h.passes_step (List.mem_map_of_mem (List.mem_of_getElem? hd)) hκ'
      rw [hnone] at hpasses
      exact hkept κ κ' hpasses (hholds κ hκ)
    · rw [hsame, descend, hnone, List.append_nil]

end Engine

end TraceLink
