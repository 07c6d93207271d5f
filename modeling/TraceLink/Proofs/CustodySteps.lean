import TraceLink.Proofs.Custody

/-! # Custody in a tracer

    The ledgers of all segments are kept by the tracer. An operation on the active
    span changes no ledger but that of its segment, and it keeps the custody of a
    sampled segment. -/

namespace TraceLink

open Ledger (WellKept Updated Popped Finished heldIn)

/-! ### Ledgers of a tracer -/

namespace Tracer

/-- The ledger with the given number, empty if there is none yet. -/
def ledgerOf (t : Tracer) : Option Nat → Ledger
  | some n => t.ledger n
  | none => {}

theorem ledgerOf_congr {t t' : Tracer} (h : t'.ledgers = t.ledgers) (n : Option Nat) :
    t'.ledgerOf n = t.ledgerOf n := by
  cases n with
  | none => rfl
  | some n => rw [ledgerOf, ledgerOf, ledger, ledger, h]

theorem ledger_eq_empty {t : Tracer} {n : Nat} (h : t.ledgers.length ≤ n) : t.ledger n = {} := by
  rw [ledger, List.getD_eq_getElem?_getD, List.getElem?_eq_none h, Option.getD_none]

theorem ledger_setLedger_self {t : Tracer} {n : Nat} (h : n < t.ledgers.length) (l : Ledger) :
    (t.setLedger n l).ledger n = l := by
  rw [ledger, setLedger, List.getD_eq_getElem?_getD, List.getElem?_set_self h, Option.getD_some]

theorem ledger_setLedger_of_ne {t : Tracer} {n m : Nat} (h : n ≠ m) (l : Ledger) :
    (t.setLedger n l).ledger m = t.ledger m := by
  rw [ledger, ledger, setLedger, List.getD_eq_getElem?_getD, List.getElem?_set_ne h,
    List.getD_eq_getElem?_getD]

theorem ledger_openLedger (t : Tracer) (n : Nat) : t.openLedger.2.ledger n = t.ledger n := by
  unfold openLedger ledger
  rw [List.getD_eq_getElem?_getD, List.getD_eq_getElem?_getD, List.getElem?_append]
  split
  · rfl
  · next hn =>
    rw [List.getElem?_eq_none (Nat.le_of_not_lt hn), List.getElem?_singleton]
    split <;> rfl

/-- The configuration and all ledgers but that with the number `n` stay as they are,
    and ledgers only come to be. -/
structure Spares (n : Option Nat) (t t' : Tracer) : Prop where
  config : t'.config = t.config
  length : t.ledgers.length ≤ t'.ledgers.length
  ledger : ∀ m, n ≠ some m → t'.ledger m = t.ledger m

theorem spares_of_ledgers_eq {t t' : Tracer} (hconfig : t'.config = t.config)
    (hledgers : t'.ledgers = t.ledgers) (n : Option Nat) : Spares n t t' where
  config := hconfig
  length := Nat.le_of_eq (by rw [hledgers])
  ledger := fun m _ => by rw [ledger, ledger, hledgers]

theorem spares_setLedger (t : Tracer) (n : Nat) (l : Ledger) :
    Spares (some n) t (t.setLedger n l) where
  config := rfl
  length := Nat.le_of_eq (List.length_set ..).symm
  ledger := fun _ hm => ledger_setLedger_of_ne (fun h => hm (congrArg some h)) l

theorem Spares.trans {n : Option Nat} {t t' t'' : Tracer} (h : Spares n t t')
    (h' : Spares n t' t'') : Spares n t t'' where
  config := h'.config.trans h.config
  length := Nat.le_trans h.length h'.length
  ledger := fun m hm => (h'.ledger m hm).trans (h.ledger m hm)

theorem reportDue_value (t : Tracer) (due : Option Segment) :
    (t.reportDue due).value.config = t.config ∧ (t.reportDue due).value.ledgers = t.ledgers := by
  cases due with
  | none => exact ⟨rfl, rfl⟩
  | some g => exact ⟨rfl, rfl⟩

end Tracer

/-! ### Segments that are not parked -/

namespace Ledger

theorem parked_pop (l : Ledger) (s : Span) : (l.pop s).value.2.parked = l.parked := by
  unfold pop
  split
  · rfl
  · split <;> rfl

theorem parked_update (l : Ledger) (id : Nat) (change : Deferral → Deferral) :
    (l.update id change).parked = l.parked := by
  unfold update
  split <;> rfl

theorem release_of_not_parked {l : Ledger} (h : l.parked = none) : l.release = (none, l) := by
  unfold release
  rw [h]

/-- While no segment is parked, a handle hands over nothing, and parks nothing. -/
theorem handle_of_not_parked {l : Ledger} (h : l.parked = none) (id : Nat) (now : UInt64)
    (op : HandleOp) :
    (l.handle id now op).value.1 = none ∧ (l.handle id now op).value.2.parked = none := by
  cases op with
  | tag key value => exact ⟨rfl, (parked_update ..).trans h⟩
  | log event => exact ⟨rfl, (parked_update ..).trans h⟩
  | markFailed => exact ⟨rfl, (parked_update ..).trans h⟩
  | finish time =>
    simp only [handle, finish]
    split
    · exact ⟨rfl, h⟩
    · split
      · simp only [Logged.bind_value, Logged.pure_value]
        rw [release_of_not_parked (by exact h)]
        exact ⟨rfl, h⟩
      · simp only [Logged.pure_value]
        rw [release_of_not_parked (by exact h)]
        exact ⟨rfl, h⟩

end Ledger

/-! ### Operations on the active span -/

namespace OpenSegment

theorem ledgerOf_of_ledger {o : OpenSegment} {n : Nat} (h : o.ledger = some n) (t : Tracer) :
    t.ledgerOf o.ledger = t.ledger n := by
  rw [h]
  rfl

theorem closeNow_value (s : Span) (now : UInt64) :
    (closeNow s now).value.origin = s.origin ∧ (closeNow s now).value.isClosed :=
  s.closeOr_value now .closedBeforeStop

/-- **Retiring**: what happens to a span that was taken off the stack. -/
inductive Retired (o : OpenSegment) (t : Tracer) (now : UInt64) :
    Frame → OpenSegment → Tracer → Prop where
  | dropped (name : String) : Retired o t now (.placeholder name) o t
  | archived {s : Span} (hplain : s.isAsync = false) :
      Retired o t now (.recorded s)
        { o with segment := o.segment.archive (closeNow s now).value } t
  | deferred {s : Span} {n : Nat} (hasync : s.isAsync = true) (hledger : o.ledger = some n) :
      Retired o t now (.recorded s)
        { o with segment := o.segment.archiveAll ((t.ledger n).pop s).value.1.toList }
        (t.setLedger n ((t.ledger n).pop s).value.2)
  /-- This does not happen, since a span is prepared in a ledger. -/
  | stray {s : Span} (hasync : s.isAsync = true) (hledger : o.ledger = none) :
      Retired o t now (.recorded s) { o with segment := o.segment.archive s } t

theorem archiveAll_nil (g : Segment) : g.archiveAll [] = g := by
  unfold Segment.archiveAll
  rw [List.append_nil]

theorem retire_of_plain (o : OpenSegment) (t : Tracer) (now : UInt64) {s : Span}
    (hplain : s.isAsync = false) :
    (o.retire t (.recorded s) now).value =
      ({ o with segment := o.segment.archive (closeNow s now).value }, t) := by
  simp only [retire, hplain, Bool.false_eq_true, if_false, Logged.bind_value, Logged.pure_value]

theorem retire_of_ledger {o : OpenSegment} (t : Tracer) (now : UInt64) {s : Span} {n : Nat}
    (hasync : s.isAsync = true) (hledger : o.ledger = some n) :
    (o.retire t (.recorded s) now).value =
      ({ o with segment := o.segment.archiveAll ((t.ledger n).pop s).value.1.toList },
        t.setLedger n ((t.ledger n).pop s).value.2) := by
  simp only [retire, hasync, hledger, if_true, Logged.bind_value, Logged.pure_value]
  cases ((t.ledger n).pop s).value.1 with
  | none => rw [Option.toList_none, archiveAll_nil]
  | some s' => rfl

theorem retire_of_stray {o : OpenSegment} (t : Tracer) (now : UInt64) {s : Span}
    (hasync : s.isAsync = true) (hledger : o.ledger = none) :
    (o.retire t (.recorded s) now).value = ({ o with segment := o.segment.archive s }, t) := by
  simp only [retire, hasync, hledger, if_true, Logged.pure_value]

theorem retired_retire (o : OpenSegment) (t : Tracer) (f : Frame) (now : UInt64) :
    Retired o t now f (o.retire t f now).value.1 (o.retire t f now).value.2 := by
  cases f with
  | placeholder name => exact .dropped name
  | recorded s =>
    cases hasync : s.isAsync with
    | false =>
      rw [retire_of_plain o t now hasync]
      exact .archived hasync
    | true =>
      cases hledger : o.ledger with
      | none =>
        rw [retire_of_stray t now hasync hledger]
        exact .stray hasync hledger
      | some n =>
        rw [retire_of_ledger t now hasync hledger]
        exact .deferred hasync hledger

/-- Retiring a span changes the archive and the ledger of the segment only. -/
theorem Retired.spares {o o' : OpenSegment} {t t' : Tracer} {f : Frame} {now : UInt64}
    (h : Retired o t now f o' t') :
    (∃ spans, o'.outline = { o.outline with spans := spans }) ∧ t.Spares o.ledger t' ∧
      (t'.ledgerOf o.ledger).parked = (t.ledgerOf o.ledger).parked := by
  have hrefl := Tracer.spares_of_ledgers_eq (t := t) rfl rfl o.ledger
  cases h with
  | dropped name => exact ⟨⟨_, rfl⟩, hrefl, rfl⟩
  | archived hplain => exact ⟨⟨_, rfl⟩, hrefl, rfl⟩
  | stray hasync hledger => exact ⟨⟨_, rfl⟩, hrefl, rfl⟩
  | deferred hasync hledger =>
    next s n =>
    refine ⟨⟨_, rfl⟩, hledger ▸ t.spares_setLedger n _, ?_⟩
    rw [ledgerOf_of_ledger hledger, ledgerOf_of_ledger hledger]
    by_cases hn : n < t.ledgers.length
    · rw [Tracer.ledger_setLedger_self hn]
      exact Ledger.parked_pop _ s
    -- a ledger that is not there yet is empty, before and after
    · have hempty := Tracer.ledger_eq_empty (Nat.le_of_not_lt hn)
      rw [Tracer.ledger_eq_empty (by rw [Tracer.setLedger, List.length_set]; omega)]
      exact (congrArg Ledger.parked hempty).symm

variable {capacity : Nat} {l : Life}

/-- Stopping the active span of a sampled segment keeps custody. -/
theorem Retired.custody {o o₁ o' : OpenSegment} {t t' : Tracer} {expected : Option Int}
    {f : Frame} {now : UInt64} (h : Retired o₁ t now f o' t')
    (hpop : o.pop expected = .ok (f, o₁)) (hbound : ∀ n, o.ledger = some n → n < t.ledgers.length)
    (hcustody : Custody capacity o.outline (t.ledgerOf o.ledger) l) :
    Custody capacity o'.outline (t'.ledgerOf o.ledger) l := by
  obtain ⟨rest, hstack, rfl, -⟩ := pop_eq_ok hpop
  have hframes := frames_of_stack hstack
  cases h with
  | dropped name => exact hcustody.dropped hframes
  | archived hplain =>
    next s =>
    obtain ⟨horigin, hclosed⟩ := closeNow_value s now
    exact hcustody.popped hframes
      (Ledger.popped_of_closed hcustody.wellKept horigin hclosed)
  | stray hasync hledger =>
    next s =>
    have hmem := mark_mem_marks hstack
    -- an async span has a record, and without a ledger there is none
    obtain ⟨d, hget, -⟩ := hcustody.async _ hmem hasync
    rw [show o.ledger = none from hledger] at hget
    contradiction
  | deferred hasync hledger =>
    next s n =>
    have hledger' : o.ledger = some n := hledger
    have hmem := mark_mem_marks hstack
    rw [ledgerOf_of_ledger hledger'] at hcustody ⊢
    rw [Tracer.ledger_setLedger_self (hbound n hledger')]
    obtain ⟨d, hget, hspan⟩ := hcustody.async _ hmem hasync
    exact hcustody.popped hframes (Ledger.popped_pop hcustody.wellKept hget hspan)

/-- **Preparing**: a placeholder gets an idle handle, a recorded span one that names
    the ledger of the segment, which is opened now if there is none. -/
inductive Preparing (o : OpenSegment) (t : Tracer) :
    AsyncHandle → OpenSegment → Tracer → Prop where
  | idle : Preparing o t .idle o t
  | recorded {s : Span} {rest : List Frame} {n : Nat} {t' : Tracer}
      (hstack : o.stack = .recorded s :: rest) (hplain : s.isAsync = false)
      (hledger : n = o.ledger.getD t.ledgers.length) (hlt : n < t'.ledgers.length)
      (hspares : t.Spares (some n) t')
      (hprepare : t'.ledger n = (t.ledgerOf o.ledger).prepare s.id) :
      Preparing o t (.span n s.id)
        { o with stack := .recorded { s with isAsync := true } :: rest, ledger := some n } t'

/-- What the attempt to prepare the active span is answered with. -/
theorem prepareAsync_eq_ok {o o' : OpenSegment} {t t' : Tracer} {h : AsyncHandle}
    (hprepare : o.prepareAsync t = .ok (h, o', t')) :
    (h = .idle ∧ o' = o ∧ t' = t) ∨
    ∃ s rest n t₁, o.stack = .recorded s :: rest ∧ s.isAsync = false ∧
      (o.ledger = some n ∧ t₁ = t ∨ o.ledger = none ∧ (n, t₁) = t.openLedger) ∧
      h = .span n s.id ∧
      o' = { o with stack := .recorded { s with isAsync := true } :: rest, ledger := some n } ∧
      t' = t₁.setLedger n ((t₁.ledger n).prepare s.id) := by
  unfold prepareAsync at hprepare
  split at hprepare
  · contradiction
  · obtain ⟨rfl, rfl, rfl⟩ := Except.ok.inj hprepare
    exact .inl ⟨rfl, rfl, rfl⟩
  · next s rest hstack =>
    obtain ⟨s', hmark, hprepare⟩ := Attempt.bind_eq_ok.mp hprepare
    obtain ⟨hplain, rfl⟩ : s.isAsync = false ∧ s' = { s with isAsync := true } := by
      rw [Attempt.within_eq_ok] at hmark
      unfold Span.markAsync at hmark
      split at hmark
      · contradiction
      · next hplain =>
        split at hmark
        · contradiction
        · exact ⟨by simpa using hplain, (Except.ok.inj hmark).symm⟩
    cases hledger : o.ledger with
    | some n =>
      rw [hledger] at hprepare
      obtain ⟨rfl, rfl, rfl⟩ := Except.ok.inj hprepare
      exact .inr ⟨s, rest, n, t, hstack, hplain, .inl ⟨rfl, rfl⟩, rfl, rfl, rfl⟩
    | none =>
      rw [hledger] at hprepare
      obtain ⟨rfl, rfl, rfl⟩ := Except.ok.inj hprepare
      exact .inr ⟨s, rest, _, _, hstack, hplain, .inr ⟨rfl, rfl⟩, rfl, rfl, rfl⟩

theorem preparing_prepareAsync {o o' : OpenSegment} {t t' : Tracer} {h : AsyncHandle}
    (hbound : ∀ n, o.ledger = some n → n < t.ledgers.length)
    (hprepare : o.prepareAsync t = .ok (h, o', t')) : Preparing o t h o' t' := by
  rcases prepareAsync_eq_ok hprepare with ⟨rfl, rfl, rfl⟩ |
    ⟨s, rest, n, t₁, hstack, hplain, ⟨hledger, rfl⟩ | ⟨hledger, hopen⟩, rfl, rfl, rfl⟩
  · exact .idle
  -- the ledger of the segment is there already
  · have hn := hbound n hledger
    refine .recorded (s := s) hstack hplain (by rw [hledger]; rfl) ?_
      (t₁.spares_setLedger n _) ?_
    · rw [Tracer.setLedger, List.length_set]
      exact hn
    · rw [Tracer.ledger_setLedger_self hn, ledgerOf_of_ledger hledger]
  -- a new ledger is opened behind the others, and it is empty
  · obtain ⟨rfl, rfl⟩ := Prod.mk.inj hopen
    have hn : t.ledgers.length < t.openLedger.2.ledgers.length := by
      simp [Tracer.openLedger]
    have hspares : t.Spares (some t.ledgers.length) t.openLedger.2 :=
      ⟨rfl, Nat.le_of_lt hn, fun m _ => t.ledger_openLedger m⟩
    refine .recorded (s := s) hstack hplain (by rw [hledger]; rfl) ?_
      (hspares.trans (Tracer.spares_setLedger t.openLedger.2 _ _)) ?_
    · show _ < (t.openLedger.2.ledgers.set _ _).length
      rw [List.length_set]
      exact hn
    · refine (Tracer.ledger_setLedger_self hn _).trans ?_
      show (t.openLedger.2.ledger _).prepare s.id = _
      rw [Tracer.ledger_openLedger, Tracer.ledger_eq_empty (Nat.le_refl _), hledger]
      rfl

/-- **Ending** a segment whose stack is empty, with what is due. -/
inductive Ending (o : OpenSegment) (t : Tracer) : Option Segment → Tracer → Prop where
  | ignored {t' : Tracer} (hignored : o.sampled = false) (hconfig : t'.config = t.config)
      (hledgers : t'.ledgers = t.ledgers) : Ending o t none t'
  | plain {t' : Tracer} (hsampled : o.sampled = true) (hledger : o.ledger = none)
      (hconfig : t'.config = t.config) (hledgers : t'.ledgers = t.ledgers) :
      Ending o t (some o.segment) t'
  | settled {n : Nat} {t' : Tracer} (hsampled : o.sampled = true) (hledger : o.ledger = some n)
      (hpending : (t.ledger n).pending = 0) (hspares : t.Spares (some n) t')
      (hafter : t'.ledger n = { t.ledger n with completed := [] }) :
      Ending o t (some (o.segment.archiveAll (t.ledger n).completed)) t'
  | parked {n : Nat} {t' : Tracer} (hsampled : o.sampled = true) (hledger : o.ledger = some n)
      (hpending : (t.ledger n).pending ≠ 0) (hspares : t.Spares (some n) t')
      (hafter : t'.ledger n = { t.ledger n with parked := some o.segment }) : Ending o t none t'

theorem ending_finish {o : OpenSegment} {t : Tracer}
    (hbound : ∀ n, o.ledger = some n → n < t.ledgers.length) :
    Ending o t (o.finish t).value.1 (o.finish t).value.2 := by
  cases hsampled : o.sampled with
  | false =>
    have hvalue : (o.finish t).value = (none, { t with counters := t.counters.finish true }) := by
      simp only [finish, hsampled, Bool.not_false, if_true, Logged.bind_value, Logged.pure_value]
    rw [hvalue]
    exact .ignored hsampled rfl rfl
  | true =>
    cases hledger : o.ledger with
    | none =>
      have hvalue : (o.finish t).value =
          (some o.segment, { t with counters := t.counters.finish false }) := by
        simp only [finish, hsampled, hledger, Bool.not_true, Bool.false_eq_true, if_false,
          Logged.pure_value]
      rw [hvalue]
      exact .plain hsampled hledger rfl rfl
    | some n =>
      have hn : n < (Tracer.ledgers { t with counters := t.counters.finish false }).length :=
        hbound n hledger
      have hvalue : (o.finish t).value =
          (((t.ledger n).settle o.segment).value.1,
            { t with counters := t.counters.finish false }.setLedger n
              ((t.ledger n).settle o.segment).value.2) := by
        simp only [finish, hsampled, hledger, Bool.not_true, Bool.false_eq_true, if_false,
          Logged.bind_value, Logged.pure_value]
        rfl
      have hcounted : t.Spares (some n) { t with counters := t.counters.finish false } :=
        ⟨rfl, Nat.le_refl _, fun _ _ => rfl⟩
      have hspares (led : Ledger) := hcounted.trans (Tracer.spares_setLedger _ n led)
      rw [hvalue]
      -- counting the segment as finished touches no ledger; settling touches its own
      unfold Ledger.settle
      by_cases hpending : (t.ledger n).pending = 0
      · rw [if_pos hpending]
        exact .settled hsampled hledger hpending (hspares _) (Tracer.ledger_setLedger_self hn _)
      · rw [if_neg hpending]
        exact .parked hsampled hledger hpending (hspares _) (Tracer.ledger_setLedger_self hn _)

/-- What is handed over at the end has all spans that the ledger completed. -/
theorem Ending.handed_eq {o : OpenSegment} {t t' : Tracer} {due : Option Segment}
    (h : Ending o t due t') {g : Segment} (hg : due = some g) :
    g = o.segment.archiveAll (t.ledgerOf o.ledger).completed := by
  cases h with
  | ignored hignored hconfig hledgers => contradiction
  | plain hsampled hledger hconfig hledgers =>
    obtain rfl := Option.some.inj hg
    rw [hledger]
    exact (archiveAll_nil o.segment).symm
  | settled hsampled hledger hpending hspares hafter =>
    obtain rfl := Option.some.inj hg
    rw [ledgerOf_of_ledger hledger]
  | parked hsampled hledger hpending hspares hafter => contradiction

/-- What is parked at the end is the segment as it is, beside what its ledger holds. -/
theorem Ending.parked_eq {o : OpenSegment} {t t' : Tracer} {due : Option Segment}
    (h : Ending o t due t') (hparked : (t.ledgerOf o.ledger).parked = none) {g : Segment}
    (hg : (t'.ledgerOf o.ledger).parked = some g) : g = o.segment ∧
      t'.ledgerOf o.ledger = { t.ledgerOf o.ledger with parked := some o.segment } := by
  have hnothing (hsame : (t'.ledgerOf o.ledger).parked = (t.ledgerOf o.ledger).parked) : False := by
    rw [hg, hparked] at hsame
    contradiction
  cases h with
  | ignored hignored hconfig hledgers =>
    exact (hnothing (by rw [Tracer.ledgerOf_congr hledgers])).elim
  | plain hsampled hledger hconfig hledgers =>
    exact (hnothing (by rw [Tracer.ledgerOf_congr hledgers])).elim
  | settled hsampled hledger hpending hspares hafter =>
    apply (hnothing _).elim
    rw [ledgerOf_of_ledger hledger, ledgerOf_of_ledger hledger, hafter]
  | parked hsampled hledger hpending hspares hafter =>
    rw [ledgerOf_of_ledger hledger, hafter] at hg
    rw [ledgerOf_of_ledger hledger, ledgerOf_of_ledger hledger, hafter]
    exact ⟨(Option.some.inj hg).symm, rfl⟩

end OpenSegment

end TraceLink
