import Mathlib.Logic.Function.Basic
import TraceLink.Proofs.Dockets

/-! # Bookkeeping of async spans

    An engine is played in beats, and an observer notes what each does with async spans, for
    each ledger in a docket. The books of a tracer are in order if every ledger keeps its
    docket, and those of an open segment if its spans are placed in its ledger.

    What a strand does has a *sequel*: it changes the ledger and the docket of its segment
    only, and the books of both are in order again. -/

namespace TraceLink

/-! ### What is noted of a beat -/

namespace Site

/-- The async span that a stop takes off the stack, with the number of its ledger. -/
def taken? (s : Site) (expected : Option Int) : Option (Nat × Note) :=
  match s.strand.active with
  | none => none
  | some o =>
    match o.pop expected with
    | .ok (.recorded x, _) => if x.isAsync then o.ledger.map (·, .popped x) else none
    | _ => none

/-- What is noted of an operation of a strand with this reply. -/
def noted (s : Site) (op : StrandOp) (reply : Reply) : Option (Nat × Note) :=
  match op, reply with
  | .prepareAsync, .handle (.span n id) => some (n, .prepared id)
  | .stop expected, .flag _ => s.taken? expected
  | _, _ => none

theorem taken?_recorded {s : Site} {o o₁ : OpenSegment} {x : Span} {expected : Option Int}
    (hactive : s.strand.active = some o) (hpop : o.pop expected = .ok (.recorded x, o₁)) :
    s.taken? expected = if x.isAsync then o.ledger.map (·, .popped x) else none := by
  simp only [taken?, hactive, hpop]

theorem taken?_placeholder {s : Site} {o o₁ : OpenSegment} {name : String}
    {expected : Option Int} (hactive : s.strand.active = some o)
    (hpop : o.pop expected = .ok (.placeholder name, o₁)) : s.taken? expected = none := by
  simp only [taken?, hactive, hpop]

theorem taken?_of_refused {s : Site} {expected : Option Int}
    (h : ∀ o f o₁, s.strand.active = some o → o.pop expected ≠ .ok (f, o₁)) :
    s.taken? expected = none := by
  unfold taken?
  split
  · rfl
  · next o hactive =>
    split
    · next x o₁ hpop => exact absurd hpop (h o _ o₁ hactive)
    · rfl

theorem noted_of_touched (s : Site) {op : StrandOp} (hstop : ∀ expected, op ≠ .stop expected)
    (hprepare : op ≠ .prepareAsync) (reply : Reply) : s.noted op reply = none := by
  unfold noted
  split
  · exact absurd rfl hprepare
  · next expected b => exact absurd rfl (hstop expected)
  · rfl

/-- Nothing is noted of a usage error. -/
theorem noted_usage (s : Site) (op : StrandOp) (e : UsageError) : s.noted op (.usage e) = none := by
  cases op <;> rfl

end Site

namespace Engine

/-- What is noted of a beat. -/
def noted (e : Engine) (now : UInt64) : Beat → Option (Nat × Note)
  | .whole (.strand k op) =>
    (e.site? k).bind fun s => s.noted op (e.step now (.strand k op)).value.reply
  | .whole (.handle (.span n id) (.finish _)) => some (n, .finished id)
  | .stop k expected => (e.site? k).bind fun s => s.taken? expected
  | _ => none

end Engine

namespace Docket

/-- The dockets of all ledgers with one more note, if there is one. -/
def enter (d : Nat → Docket) : Option (Nat × Note) → Nat → Docket
  | none => d
  | some (n, note) => Function.update d n ((d n).note note)

/-- The docket of the ledger with the given number, empty if there is none yet. -/
def of (d : Nat → Docket) : Option Nat → Docket
  | some n => d n
  | none => {}

theorem enter_self (d : Nat → Docket) (n : Nat) (note : Note) :
    enter d (some (n, note)) n = (d n).note note := Function.update_self ..

theorem enter_of_ne (d : Nat → Docket) {n m : Nat} (h : n ≠ m) (note : Note) :
    enter d (some (n, note)) m = d m := Function.update_of_ne h.symm ..

end Docket

/-- The dockets after a list of timed beats, from those before. -/
def Engine.docketsFrom (e : Engine) (d : Nat → Docket) : List (UInt64 × Beat) → Nat → Docket
  | [] => d
  | (now, b) :: bs => (e.beat now b).state.docketsFrom (Docket.enter d (e.noted now b)) bs

/-- The dockets of all that is noted of a list of timed beats. -/
def Engine.dockets (e : Engine) (bs : List (UInt64 × Beat)) : Nat → Docket :=
  e.docketsFrom (fun _ => {}) bs

/-! ### Books in order -/

/-- Every ledger keeps its docket. -/
structure Tracer.Reconciled (t : Tracer) (d : Nat → Docket) : Prop where
  kept : ∀ n, (t.ledger n).Kept (d n)
  waits : ∀ n, (t.ledger n).Waits
  /-- Nothing was noted of a ledger that is not there yet. -/
  fresh : ∀ n, t.ledgers.length ≤ n → d n = {}

/-- The spans of the segment are placed in its ledger. -/
structure Outline.Reconciled (x : Outline) (t : Tracer) (d : Nat → Docket) : Prop where
  placed : x.Placed (t.ledgerOf x.ledger) (Docket.of d x.ledger)
  bound : ∀ n, x.ledger = some n → n < t.ledgers.length

namespace Tracer.Reconciled

variable {t t' : Tracer} {d : Nat → Docket}

theorem of_ledgers_eq (h : t.Reconciled d) (hledgers : t'.ledgers = t.ledgers) :
    t'.Reconciled d where
  kept := by
    intro n
    rw [ledger, hledgers]
    exact h.kept n
  waits := by
    intro n
    rw [ledger, hledgers]
    exact h.waits n
  fresh := by
    rw [hledgers]
    exact h.fresh

/-- One ledger changes, and its docket with it. -/
theorem setLedger (h : t.Reconciled d) {n : Nat} {l : Ledger} {c : Docket}
    (hself : (t.setLedger n l).ledger n = l) (hkept : l.Kept c) (hwaits : l.Waits)
    (hnew : d n = {} → c = {}) : (t.setLedger n l).Reconciled (Function.update d n c) where
  kept := by
    intro m
    by_cases hm : n = m
    · subst hm
      rwa [hself, Function.update_self]
    · rw [ledger_setLedger_of_ne hm, Function.update_of_ne (Ne.symm hm)]
      exact h.kept m
  waits := by
    intro m
    by_cases hm : n = m
    · subst hm
      rwa [hself]
    · rw [ledger_setLedger_of_ne hm]
      exact h.waits m
  fresh := by
    intro m hle
    rw [Tracer.setLedger, List.length_set] at hle
    by_cases hm : n = m
    · subst hm
      rw [Function.update_self]
      exact hnew (h.fresh n hle)
    · rw [Function.update_of_ne (Ne.symm hm)]
      exact h.fresh m hle

end Tracer.Reconciled

namespace Outline.Reconciled

variable {x : Outline} {t t' : Tracer} {d : Nat → Docket}

theorem of_ledgers_eq (h : x.Reconciled t d) (hledgers : t'.ledgers = t.ledgers) :
    x.Reconciled t' d where
  placed := by
    rw [Tracer.ledgerOf_congr hledgers]
    exact h.placed
  bound := by
    rw [hledgers]
    exact h.bound

/-- A ledger changes, be it that of the segment or another one. -/
theorem setLedger (h : x.Reconciled t d) {n : Nat} {l : Ledger} {c : Docket}
    (hself : (t.setLedger n l).ledger n = l)
    (hplaced : x.Placed (t.ledger n) (d n) → x.Placed l c) :
    x.Reconciled (t.setLedger n l) (Function.update d n c) where
  placed := by
    have hbefore := h.placed
    cases hledger : x.ledger with
    | none => rwa [hledger] at hbefore
    | some m =>
      rw [hledger] at hbefore
      rw [Tracer.ledgerOf, Docket.of]
      by_cases hm : n = m
      · subst hm
        rw [hself, Function.update_self]
        exact hplaced hbefore
      · rwa [Tracer.ledger_setLedger_of_ne hm, Function.update_of_ne (Ne.symm hm)]
  bound := by
    intro m hm
    rw [Tracer.setLedger, List.length_set]
    exact h.bound m hm

end Outline.Reconciled

/-- **Sequel** of an operation on one strand: its tracer, its open segment and the dockets
    after it. Of the ledgers and dockets only those of the segment are changed. -/
structure Sequel (t t' : Tracer) (x? x'? : Option Outline) (d d' : Nat → Docket)
    (n : Option Nat) : Prop where
  spares : t.Spares n t'
  dockets : ∀ m, n ≠ some m → d' m = d m
  /-- The ledger was that of the segment before, or it is new. -/
  claimed : ∀ m, n = some m → m < t'.ledgers.length ∧
    ((∃ x, x? = some x ∧ x.ledger = some m) ∨ m = t.ledgers.length)
  kept : ∀ m, n = some m → (t'.ledger m).Kept (d' m) ∧ (t'.ledger m).Waits
  placed : ∀ x', x'? = some x' → x'.ledger = n ∧ x'.Placed (t'.ledgerOf n) (Docket.of d' n)

namespace Sequel

variable {t t' t'' : Tracer} {x? x'? x''? : Option Outline} {d d' d'' : Nat → Docket}
  {n : Option Nat}

theorem tracer (h : Sequel t t' x? x'? d d' n) (ht : t.Reconciled d) : t'.Reconciled d' where
  kept := by
    intro m
    by_cases hm : n = some m
    · exact (h.kept m hm).1
    · rw [h.spares.ledger m hm, h.dockets m hm]
      exact ht.kept m
  waits := by
    intro m
    by_cases hm : n = some m
    · exact (h.kept m hm).2
    · rw [h.spares.ledger m hm]
      exact ht.waits m
  fresh := by
    intro m hm
    have hother : n ≠ some m := fun hn => Nat.not_lt_of_le hm (h.claimed m hn).1
    rw [h.dockets m hother]
    exact ht.fresh m (Nat.le_trans h.spares.length hm)

theorem outline (h : Sequel t t' x? x'? d d' n) {x' : Outline} (hx' : x'? = some x') :
    x'.Reconciled t' d' := by
  obtain ⟨rfl, hplaced⟩ := h.placed x' hx'
  exact ⟨hplaced, fun m hm => (h.claimed m hm).1⟩

theorem trans (h : Sequel t t' x? x'? d d' n) (h' : Sequel t' t'' x'? x''? d' d'' n) :
    Sequel t t'' x? x''? d d'' n where
  spares := h.spares.trans h'.spares
  dockets := fun m hm => (h'.dockets m hm).trans (h.dockets m hm)
  claimed := fun m hm => ⟨(h'.claimed m hm).1, (h.claimed m hm).2⟩
  kept := h'.kept
  placed := h'.placed

/-- What does not touch the ledgers does not matter. -/
theorem of_ledgers_eq (h : Sequel t t' x? x'? d d' n) (hconfig : t''.config = t'.config)
    (hledgers : t''.ledgers = t'.ledgers) : Sequel t t'' x? x'? d d' n where
  spares := h.spares.trans (Tracer.spares_of_ledgers_eq hconfig hledgers n)
  dockets := h.dockets
  claimed := by
    rw [hledgers]
    exact h.claimed
  kept := by
    intro m hm
    rw [Tracer.ledger, hledgers]
    exact h.kept m hm
  placed := by
    rw [Tracer.ledgerOf_congr hledgers]
    exact h.placed

/-- A strand without an open segment, now or any more. -/
theorem idle : Sequel t t x? none d d none where
  spares := Tracer.spares_of_ledgers_eq rfl rfl _
  dockets := fun _ _ => rfl
  claimed := fun m hm => by contradiction
  kept := fun m hm => by contradiction
  placed := fun y hy => by contradiction

/-- A segment whose ledger stays as it is. -/
theorem still {x x' : Outline} (ht : t.Reconciled d) (hx : x.Reconciled t d)
    (hledger : x'.ledger = x.ledger)
    (hplaced : x'.Placed (t.ledgerOf x.ledger) (Docket.of d x.ledger)) :
    Sequel t t (some x) (some x') d d x.ledger where
  spares := Tracer.spares_of_ledgers_eq rfl rfl _
  dockets := fun _ _ => rfl
  claimed := fun m hm => ⟨hx.bound m hm, .inl ⟨x, rfl, hm⟩⟩
  kept := fun m _ => ⟨ht.kept m, ht.waits m⟩
  placed := by
    intro y hy
    rw [← Option.some.inj hy]
    exact ⟨hledger, hplaced⟩

/-- What is noted of the spans of a segment goes to the docket of its ledger. -/
theorem entered {x' : Outline} {m : Nat} {note : Note} (hn : n = some m)
    (hspares : t.Spares n t') (hlt : m < t'.ledgers.length)
    (hclaimed : (∃ x, x? = some x ∧ x.ledger = some m) ∨ m = t.ledgers.length)
    (hkept : (t'.ledger m).Kept ((d m).note note)) (hparked : (t'.ledger m).parked = none)
    (hledger : x'.ledger = n) (hplaced : x'.Placed (t'.ledger m) ((d m).note note)) :
    Sequel t t' x? (some x') d (Docket.enter d (n.map (·, note))) n := by
  subst hn
  refine ⟨hspares, fun m' hm' => Docket.enter_of_ne d (fun heq => hm' (congrArg some heq)) note, ?_,
    ?_, ?_⟩
  · intro m' hm'
    rw [← Option.some.inj hm']
    exact ⟨hlt, hclaimed⟩
  · intro m' hm'
    rw [← Option.some.inj hm', Option.map_some, Docket.enter_self]
    exact ⟨hkept, Ledger.waits_of_not_parked hparked⟩
  · intro y hy
    rw [← Option.some.inj hy, Option.map_some, Docket.of, Docket.enter_self]
    exact ⟨hledger, hplaced⟩

/-- The segment of a strand stays in its ledger, if it has one. -/
theorem mapped (ht : t.Reconciled d) (hx : ∀ x, x? = some x → x.Reconciled t d)
    {f : Outline → Outline} (hledger : ∀ x, (f x).ledger = x.ledger)
    (hplaced : ∀ x l d, x.Placed l d → (f x).Placed l d) :
    ∃ n, Sequel t t x? (x?.map f) d d n := by
  cases x? with
  | none => exact ⟨none, .idle⟩
  | some x => exact ⟨x.ledger, .still ht (hx x rfl) (hledger x) (hplaced x _ _ (hx x rfl).placed)⟩

/-- A segment that begins has no ledger yet. -/
theorem begun {x' : Outline} (hledger : x'.ledger = none) (hplaced : x'.Placed {} {}) :
    Sequel t t none (some x') d d none where
  spares := Tracer.spares_of_ledgers_eq rfl rfl _
  dockets := fun _ _ => rfl
  claimed := fun m hm => by contradiction
  kept := fun m hm => by contradiction
  placed := by
    intro y hy
    rw [← Option.some.inj hy]
    exact ⟨hledger, hplaced⟩

/-- The segment is not open any more. -/
theorem gone (h : Sequel t t' x? x'? d d' n) : Sequel t t' x? none d d' n :=
  { h with placed := fun y hy => by contradiction }

/-- A segment ends, and its ledger stays for the handles that are pending. -/
theorem ended {x : Outline} {m : Nat} (hm : x.ledger = some m) (hspares : t.Spares (some m) t')
    (hlt : m < t.ledgers.length) (hkept : (t'.ledger m).Kept (d m))
    (hwaits : (t'.ledger m).Waits) : Sequel t t' (some x) none d d x.ledger where
  spares := hm ▸ hspares
  dockets := fun _ _ => rfl
  claimed := fun m' hm' => ⟨Nat.lt_of_lt_of_le (Option.some.inj (hm'.symm.trans hm) ▸ hlt)
    hspares.length, .inl ⟨x, rfl, hm'⟩⟩
  kept := by
    intro m' hm'
    obtain rfl := Option.some.inj (hm'.symm.trans hm)
    exact ⟨hkept, hwaits⟩
  placed := fun y hy => by contradiction

end Sequel

/-! ### Operations on an open segment -/

namespace OpenSegment

variable {t t' : Tracer} {d : Nat → Docket} {o o' : OpenSegment}

/-- The docket of the ledger that a segment is about to have, new or not. -/
theorem of_eq_ledger (ht : t.Reconciled d) (x : Outline) :
    Docket.of d x.ledger = d (x.ledger.getD t.ledgers.length) := by
  cases x.ledger with
  | some n => rfl
  | none => exact (ht.fresh _ (Nat.le_refl _)).symm

/-- The ledger of an open segment, if it has one yet, keeps its docket. -/
theorem kept_ledgerOf (ht : t.Reconciled d) (n : Option Nat) :
    (t.ledgerOf n).Kept (Docket.of d n) := by
  cases n with
  | some n => exact ht.kept n
  | none => exact Ledger.kept_empty

/-- **Preparing the active span** opens its record. -/
theorem Preparing.sequel {a : AsyncHandle} (h : o.Preparing t a o' t') (ht : t.Reconciled d)
    (ho : o.outline.Reconciled t d) (s : Site) :
    Sequel t t' (some o.outline) (some o'.outline) d
      (Docket.enter d (s.noted .prepareAsync (.handle a))) o'.ledger := by
  cases h with
  | idle => exact .still ht ho rfl ho.placed
  | recorded hstack hplain hledger hlt hspares hprepare =>
    next x rest n =>
    have hmem := mark_mem_marks hstack
    have hdocket : Docket.of d o.ledger = d n := by
      rw [hledger]
      exact of_eq_ledger ht o.outline
    -- no handle was prepared on the span, so it has no record and none waits for it
    have hkept := kept_ledgerOf ht o.ledger
    have hnone : (t.ledgerOf o.ledger).records.get? x.id = none :=
      ho.placed.unprepared hmem hplain
    have hopened : Ledger.Opened (t.ledgerOf o.ledger) x.id (t'.ledger n) := by
      rw [hprepare]
      exact Ledger.opened_prepare hkept.wellKept hnone
    have hnew : x.id ∉ (Docket.of d o.ledger).unfinished := by
      intro hunfinished
      obtain ⟨r, hget, -⟩ := hkept.get?_of_unfinished hunfinished
      rw [hnone] at hget
      contradiction
    rw [hdocket] at hkept hnew
    refine .entered (n := some n) rfl hspares hlt ?_ (hkept.opened ho.placed.parked hopened hnew)
      (hopened.parked.trans ho.placed.parked) rfl ?_
    · cases hled : o.ledger with
      | some m => exact .inl ⟨_, rfl, hled.trans (by rw [hledger, hled]; rfl)⟩
      | none => exact .inr (by rw [hledger, hled]; rfl)
    · rw [← hdocket]
      exact ho.placed.prepared (frames_of_stack hstack) n hopened

/-- **Stopping the active span** archives it, or leaves it to its record. -/
theorem Retired.sequel {o₁ : OpenSegment} {f : Frame} {now : UInt64} {expected : Option Int}
    (h : Retired o₁ t now f o' t') (hpop : o.pop expected = .ok (f, o₁)) (ht : t.Reconciled d)
    (ho : o.outline.Reconciled t d) {s : Site} (hactive : s.strand.active = some o) :
    Sequel t t' (some o.outline) (some o'.outline) d (Docket.enter d (s.taken? expected))
      o.ledger := by
  obtain ⟨rest, hstack, rfl, -⟩ := pop_eq_ok hpop
  have hframes := frames_of_stack hstack
  have hkept := kept_ledgerOf ht o.ledger
  have hplaced : o.outline.Placed (t.ledgerOf o.ledger) (Docket.of d o.ledger) := ho.placed
  cases h with
  | dropped name =>
    rw [Site.taken?_placeholder hactive hpop]
    refine .still ht ho rfl (hplaced.of_marks_eq ?_ rfl rfl)
    exact (congrArg List.reduceOption hframes).symm
  | archived hplain =>
    next x =>
    rw [Site.taken?_recorded hactive hpop, if_neg (by simp [hplain])]
    obtain ⟨horigin, hclosed⟩ := closeNow_value x now
    have hpopped := Ledger.popped_of_closed hkept.wellKept horigin hclosed
    exact .still ht ho rfl (hplaced.popped hframes hpopped rfl)
  | stray hasync hnone =>
    next x =>
    -- an async span has a record, and without a ledger there is none
    obtain ⟨r, hget, -⟩ := hplaced.async _ (mark_mem_marks hstack) hasync
    rw [show o.ledger = none from hnone] at hget
    contradiction
  | deferred hasync hledger =>
    next x n =>
    have hledger' : o.ledger = some n := hledger
    have hlt := ho.bound n hledger'
    rw [Site.taken?_recorded hactive hpop, if_pos hasync]
    rw [hledger'] at hkept hplaced
    -- its record is there and waits for the span
    obtain ⟨r, hget, hspan⟩ := hplaced.async _ (mark_mem_marks hstack) hasync
    have hpopped := Ledger.popped_pop hkept.wellKept hget hspan
    have hself := Tracer.ledger_setLedger_self hlt ((t.ledger n).pop x).value.2
    refine .entered hledger' (hledger' ▸ t.spares_setLedger n _) ?_ (.inl ⟨_, rfl, hledger'⟩) ?_ ?_
      rfl ?_
    · rw [Tracer.setLedger, List.length_set]
      exact hlt
    · rw [hself]
      exact hkept.popped hplaced.parked hpopped fun y hy => Ledger.mem_heldIn_pop hy
    · rw [hself]
      exact hpopped.parked.trans hplaced.parked
    · rw [hself]
      exact hplaced.popped hframes hpopped rfl

/-- **The end of a segment** leaves its async spans to its ledger. What is handed over has
    closed spans only. -/
theorem Ending.sequel {due : Option Segment} (h : Ending o t due t') (hlast : o.stack = [])
    (ht : t.Reconciled d) (ho : o.outline.Reconciled t d) :
    Sequel t t' (some o.outline) none d d o.ledger ∧
      ∀ g, due = some g → ∀ s ∈ g.spans, s.isClosed := by
  have hkept := kept_ledgerOf ht o.ledger
  have hplaced : o.outline.Placed (t.ledgerOf o.ledger) (Docket.of d o.ledger) := ho.placed
  have hclosed : ∀ g, due = some g → ∀ s ∈ g.spans, s.isClosed := by
    intro g hg s hs
    rw [h.handed_eq hg] at hs
    rcases List.mem_append.mp hs with harchived | hcompleted
    · exact hplaced.housed.archived s harchived
    · exact hkept.completed s hcompleted
  refine ⟨?_, hclosed⟩
  -- unless the segment is reported or parked, its ledger stays as it is
  have hstill := (Sequel.still ht ho rfl ho.placed).gone
  cases h with
  | ignored hignored hconfig hledgers => exact hstill.of_ledgers_eq hconfig hledgers
  | plain hsampled hledger hconfig hledgers => exact hstill.of_ledgers_eq hconfig hledgers
  | settled hsampled hledger hpending hspares hafter =>
    next n =>
    rw [hledger] at hkept hplaced
    refine .ended hledger hspares (ho.bound n hledger) ?_ ?_
    · rw [hafter]
      exact hkept.settled hplaced.parked
    · rw [hafter]
      exact Ledger.waits_of_not_parked hplaced.parked
  | parked hsampled hledger hpending hspares hafter =>
    next n =>
    rw [hledger] at hkept hplaced
    -- the stack is empty, so the segment has all spans that the ledger does not hold
    have hids : o.outline.ids = [] := by
      rw [Outline.ids, Outline.marks, OpenSegment.outline, hlast]
      rfl
    have hhoused := hplaced.housed
    rw [hids] at hhoused
    refine .ended hledger hspares (ho.bound n hledger) ?_ ?_
    · rw [hafter]
      exact hkept.park hhoused
    · intro g hg
      rw [hafter]
      exact Nat.pos_of_ne_zero hpending

end OpenSegment

/-! ### Steps of a strand -/

/-- The ledgers keep their dockets, and the spans of the open segment are placed. -/
structure Site.Reconciled (s : Site) (d : Nat → Docket) : Prop where
  tracer : s.tracer.Reconciled d
  outline : ∀ x, s.outline? = some x → x.Reconciled s.tracer d

namespace Site

variable {s : Site} {d : Nat → Docket} {now : UInt64}

theorem Reconciled.of_active (hs : s.Reconciled d) {o : OpenSegment}
    (hactive : s.strand.active = some o) :
    o.outline.Reconciled s.tracer d := hs.outline _ (outline?_of_active hactive)

/-- A site that stays as it is. -/
theorem Reconciled.unchanged (hs : s.Reconciled d) :
    ∃ n, Sequel s.tracer s.tracer s.outline? s.outline? d d n := by
  have hsame := Sequel.mapped hs.tracer hs.outline (f := id) (fun _ => rfl) fun _ _ _ h => h
  rwa [Option.map_id] at hsame

/-- **The active span is stopped.** -/
theorem Reconciled.stopActive (hs : s.Reconciled d) (expected : Option Int) (now : UInt64) :
    ∃ n, Sequel s.tracer (s.stopActive expected now).tracer s.outline?
      (s.stopActive expected now).outline? d (Docket.enter d (s.taken? expected)) n := by
  rcases s.stopActive_cases expected now with ⟨o, f, o₁, hactive, hpop⟩ | ⟨hsame, hrefused⟩
  · rw [stopActive_of_pop hactive hpop, outline?_of_active hactive]
    exact ⟨_, (OpenSegment.retired_retire o₁ s.tracer f now).sequel hpop hs.tracer
      (hs.of_active hactive) hactive⟩
  · rw [hsame, taken?_of_refused hrefused]
    exact hs.unchanged

/-- The segment ends with what is due. -/
theorem Reconciled.ended (hs : s.Reconciled d) {o : OpenSegment}
    (hactive : s.strand.active = some o) (hlast : o.stack = []) {due : Option Segment} {t : Tracer}
    (hfinish : (o.finish s.tracer).value = (due, t)) :
    Sequel s.tracer (t.reportDue due).value (some o.outline) none d d o.ledger ∧
      ∀ g, due = some g → ∀ x ∈ g.spans, x.isClosed := by
  have ho := hs.of_active hactive
  have hending := OpenSegment.ending_finish (o := o) ho.bound
  rw [hfinish] at hending
  obtain ⟨hsequel, hclosed⟩ := hending.sequel hlast hs.tracer ho
  obtain ⟨hconfig, hledgers⟩ := t.reportDue_value due
  exact ⟨hsequel.of_ledgers_eq hconfig hledgers, hclosed⟩

/-- **The segment ends** if its stack is empty. -/
theorem Reconciled.endSegment (hs : s.Reconciled d) :
    (∃ n, Sequel s.tracer s.endSegment.state.tracer s.outline? s.endSegment.state.outline? d d n) ∧
      ∀ g, s.endSegment.handed = some g → ∀ x ∈ g.spans, x.isClosed := by
  by_cases hend : ∃ o, s.strand.active = some o ∧ o.stack = []
  · obtain ⟨o, hactive, hlast⟩ := hend
    obtain ⟨hsequel, hclosed⟩ := hs.ended hactive hlast rfl
    rw [endSegment_of_empty hactive hlast rfl, outline?_of_active hactive]
    exact ⟨⟨_, hsequel⟩, hclosed⟩
  · rw [endSegment_of_open fun o hactive hlast => hend ⟨o, hactive, hlast⟩]
    exact ⟨hs.unchanged, fun g hg => by contradiction⟩

/-- A step that opens a span. -/
theorem Reconciled.opens (hs : s.Reconciled d) {op : StrandOp} {outcome : Outcome Site}
    {kind : SpanKind} (heffect : Effect now s op outcome) (hop : op.opens? = some kind) :
    (∃ n, Sequel s.tracer outcome.state.tracer s.outline? outcome.state.outline? d d n) ∧
      outcome.handed = none := by
  obtain ⟨hhanded, hconfig, hledgers, hout⟩ := Life.opens_of_effect heffect hop
  refine ⟨?_, hhanded⟩
  rcases hout with ⟨x, b, hx, hout⟩ | ⟨hnone, id, sampled, hout⟩
  · rw [hx, hout]
    have hreconciled := hs.outline x hx
    have hfaded := hreconciled.placed.faded (x.sampled && b)
    have hplaced := hfaded.opened s.tracer.config.capacity kind now
    refine ⟨_, (Sequel.still hs.tracer hreconciled ?_ hplaced).of_ledgers_eq hconfig hledgers⟩
    exact (Outline.opened_fields _ _ _ _).1
  · rw [hnone, hout]
    have hplaced := (Outline.placed_new id sampled).opened s.tracer.config.capacity kind now
    refine ⟨_, (Sequel.begun ?_ hplaced).of_ledgers_eq hconfig hledgers⟩
    exact (Outline.opened_fields _ _ _ _).1

/-- **Every step of a strand** has a sequel, with what is noted of it. -/
theorem Reconciled.effect (hs : s.Reconciled d) {op : StrandOp} {outcome : Outcome Site}
    (heffect : Effect now s op outcome) :
    (∃ n, Sequel s.tracer outcome.state.tracer s.outline? outcome.state.outline? d
      (Docket.enter d (s.noted op outcome.reply)) n) ∧
      ∀ g, outcome.handed = some g → ∀ x ∈ g.spans, x.isClosed := by
  cases hop : op.opens? with
  | some kind =>
    obtain ⟨hsequel, hhanded⟩ := hs.opens heffect hop
    rw [s.noted_of_touched (by rintro e rfl; contradiction) (by rintro rfl; contradiction)]
    refine ⟨hsequel, fun g hg => ?_⟩
    rw [hhanded] at hg
    contradiction
  | none =>
    cases heffect with
    | refused error hnone =>
      rw [s.noted_usage]
      exact ⟨hs.unchanged, fun g hg => by contradiction⟩
    | touched hnone hstop hprepare htouch =>
      obtain ⟨htracer, b, hout⟩ := outline?_touches htouch
      rw [s.noted_of_touched hstop hprepare, htracer, hout]
      have hsequel := Sequel.mapped hs.tracer hs.outline
        (f := fun x => { x with sampled := x.sampled && b }) (fun _ => rfl) fun _ _ _ h => h.faded _
      exact ⟨hsequel, fun g hg => by contradiction⟩
    | opened hkind =>
      rw [hkind] at hop
      contradiction
    | sent => contradiction
    | prepared hactive hprepare =>
      have ho := hs.of_active hactive
      rw [outline?_of_active hactive]
      have hpreparing := OpenSegment.preparing_prepareAsync ho.bound hprepare
      exact ⟨⟨_, hpreparing.sequel hs.tracer ho s⟩, fun g hg => by contradiction⟩
    | stopped hactive hpop hretire hopen =>
      next expected o o₁ o' f t =>
      have hretired := OpenSegment.retired_retire o₁ s.tracer f now
      rw [hretire] at hretired
      rw [outline?_of_active hactive]
      refine ⟨⟨_, hretired.sequel hpop hs.tracer (hs.of_active hactive) hactive⟩, fun g hg => ?_⟩
      contradiction
    | ended hactive hpop hretire hlast hfinish =>
      next expected o o₁ o' f t t' due =>
      -- the two parts of the stop, one after the other
      have hretired := OpenSegment.retired_retire o₁ s.tracer f now
      rw [hretire] at hretired
      have hstopped := hretired.sequel hpop hs.tracer (hs.of_active hactive) hactive
      have hmiddle : Reconciled ({ s with tracer := t }.withActive o')
          (Docket.enter d (s.taken? expected)) :=
        ⟨hstopped.tracer hs.tracer, fun x hx => hstopped.outline hx⟩
      obtain ⟨hended, hclosed⟩ := hmiddle.ended rfl hlast hfinish
      rw [show o'.ledger = o.ledger from (hstopped.placed _ rfl).1] at hended
      rw [outline?_of_active hactive]
      exact ⟨⟨_, hstopped.trans hended⟩, hclosed⟩

end Site

end TraceLink
