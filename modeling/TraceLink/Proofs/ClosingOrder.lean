import TraceLink.Proofs.Closings

/-! # The order of the spans in a report

    An observer notes the closings of the spans of a segment as they happen. The report of
    the segment has all of them, but not in this order: it has the spans that were closed
    by their stop, in order, and behind them the late ones, in order. The two orders are
    the same exactly if no span is closed by its stop after one was closed late. -/

namespace TraceLink

open Closing (prompt belated)

namespace Engine

/-- The recorded span with this id is on the stack of the segment. -/
def hasOpen (e : Engine) (l : Life) (id : Nat) : Bool :=
  match l.stage with
  | .running k => (e.open? k).any fun o => (o.openSpan? id).isSome
  | _ => false

/-- The closing that a step is for a segment. A stop closes the span unless its handle is
    awaited; then the handle closes it when it finishes. -/
def closing? (e : Engine) (now : UInt64) (op : Op) (l : Life) : Option Closing :=
  match op with
  | .strand k sop =>
    if l.stage = .running k then
      ((e.open? k).bind (·.taken? sop (e.step now op).value.reply)).bind l.closing?
    else none
  | .handle (.span n id) (.finish _) =>
    if AsyncHandle.span n id ∈ l.handles ∧ AsyncHandle.span n id ∉ l.finished ∧
        e.hasOpen l id = false then
      some ⟨id, true⟩
    else none
  | _ => none

/-- The closings of the spans of the segment at place `i` among the lives, in order. -/
def closingsFrom (e : Engine) (ls : List Life) (i : Nat) : List (UInt64 × Op) → List Closing
  | [] => []
  | (now, op) :: ops =>
    (ls[i]?.bind (e.closing? now op)).toList ++
      (e.step now op).value.state.closingsFrom (e.chronicle now op ls) i ops

/-- The closings of the spans of the `i`-th segment that begins in a run, in order. -/
def closings (e : Engine) (i : Nat) (ops : List (UInt64 × Op)) : List Closing :=
  e.closingsFrom [] i ops

/-- **Agreement** of a segment with the closings of its spans, wherever the segment is. -/
structure Agrees (e : Engine) (l : Life) (cs : List Closing) : Prop where
  running : ∀ k o, l.stage = .running k → e.open? k = some o → o.sampled = true →
    Listed o.outline.spans o.outline.openIds (e.tracer.ledgerOf l.ledger?) cs
  parked : ∀ g, (e.tracer.ledgerOf l.ledger?).parked = some g →
    Listed g.spans [] (e.tracer.ledgerOf l.ledger?) cs
  handed : ∀ g ∈ l.reports, g.spans.map Span.id = prompt cs ++ belated cs

variable {capacity : Nat} {e e' : Engine} {now : UInt64} {op : Op} {ls : List Life} {l : Life}
  {cs : List Closing}

/-- Agreement depends on the open segment and the ledger only. -/
theorem Agrees.frame (h : e.Agrees l cs)
    (hopen : ∀ k, l.stage = .running k → e'.open? k = e.open? k)
    (hledger : e'.tracer.ledgerOf l.ledger? = e.tracer.ledgerOf l.ledger?) : e'.Agrees l cs where
  running := by
    intro k o hstage ho hsampled
    rw [hledger]
    exact h.running k o hstage ((hopen k hstage).symm.trans ho) hsampled
  parked := by
    rw [hledger]
    exact h.parked
  handed := h.handed

/-- A segment that is lost, or dropped, agrees with anything. -/
theorem agrees_of_gone (hstage : ∀ k, l.stage ≠ .running k)
    (hparked : (e.tracer.ledgerOf l.ledger?).parked = none) (hreports : l.reports = []) :
    e.Agrees l cs where
  running := fun k _ hrunning => absurd hrunning (hstage k)
  parked := by
    intro g hg
    rw [hparked] at hg
    contradiction
  handed := by
    intro g hg
    rw [hreports] at hg
    contradiction

/-! ### Steps of the strand -/

/-- The closing that a step of its own strand is. -/
theorem closing?_strand {k : Nat} {s : Site} {sop : StrandOp} (hstage : l.stage = .running k)
    (hsite : e.site? k = some s) {o : OpenSegment} (hactive : s.strand.active = some o) :
    e.closing? now (.strand k sop) l =
      (o.taken? sop (s.step now sop).value.reply).bind l.closing? := by
  rw [closing?, if_pos hstage, open?_of_site? hsite, hactive, reply_of_site hsite]
  rfl

end Engine

namespace Site

variable {capacity : Nat} {now : UInt64} {s : Site} {l : Life} {x : Outline} {cs : List Closing}
  {op : StrandOp} {outcome : Outcome Site} {o o' : OpenSegment}

/-- A span is opened, which closes none. -/
theorem Effect.listed_opens (h : Effect now s op outcome) {kind : SpanKind}
    (hop : op.opens? = some kind) (hactive : s.strand.active = some o)
    (hlisted : o.Lists s.tracer cs)
    (hafter : outcome.state.strand.active = some o') : o'.Lists outcome.state.tracer cs := by
  intro hsampled
  obtain ⟨-, -, hledgers, hout⟩ := Life.opens_of_effect h hop
  rw [outline?_of_active hactive, outline?_of_active hafter] at hout
  rcases hout with ⟨x, b, hx, hout⟩ | ⟨hnone, -⟩
  · obtain rfl := Option.some.inj hx
    have hout := Option.some.inj hout
    obtain ⟨hledger, hsame, -⟩ := Outline.opened_fields
      { o.outline with sampled := o.outline.sampled && b } s.tracer.config.capacity kind now
    rw [← hout] at hledger hsame
    have hboth := Bool.and_eq_true_iff.mp (hsame.symm.trans hsampled)
    rw [show o'.ledger = o.ledger from hledger, Tracer.ledgerOf_congr hledgers, hout]
    exact Listed.opened (x := { o.outline with sampled := o.outline.sampled && b })
      (hlisted hboth.1) s.tracer.config.capacity kind now
  · contradiction

/-- What is left of a segment when its active span was stopped. -/
theorem listed_retired (hruns : l.Runs capacity s x) (hgrounded : l.Grounded s.tracer)
    (hactive : s.strand.active = some o) {expected : Option Int} {o₁ : OpenSegment} {f : Frame}
    {t : Tracer} (hpop : o.pop expected = .ok (f, o₁))
    (hretire : (o₁.retire s.tracer f now).value = (o', t))
    (hlisted : o.Lists s.tracer cs) (b : Bool) :
    o'.Lists t (cs ++ ((o.taken? (.stop expected) (.flag b)).bind l.closing?).toList) := by
  intro hsampled
  have hledger := hruns.ledger_eq hactive
  obtain ⟨-, hledger', hsame, -, -⟩ := hruns.retired hgrounded hactive hpop hretire
  have hretired := o₁.retired_retire s.tracer f now
  rw [hretire] at hretired
  have hwas := hsame.symm.trans hsampled
  have hcustody := hruns.custody (hruns.outline_eq hactive ▸ hwas)
  rw [← hruns.outline_eq hactive, ← hledger] at hcustody
  obtain ⟨rest, hstack, -, -⟩ := OpenSegment.pop_eq_ok hpop
  rw [OpenSegment.taken?_of_cons hstack, hledger'.trans hledger.symm]
  exact hretired.listed hpop (fun n hn => hgrounded.bound n (hledger.symm.trans hn)) hcustody
    (hlisted hwas)

/-- **The segment stays open**: it lists its closings, with the one that the operation is. -/
theorem Effect.listed (h : Effect now s op outcome) (hruns : l.Runs capacity s x)
    (hgrounded : l.Grounded s.tracer) (hactive : s.strand.active = some o)
    (hlisted : o.Lists s.tracer cs)
    (hafter : outcome.state.strand.active = some o') :
    o'.Lists outcome.state.tracer
      (cs ++ ((o.taken? op outcome.reply).bind l.closing?).toList) := by
  have hledger := hruns.ledger_eq hactive
  have hbound : ∀ n, o.ledger = some n → n < s.tracer.ledgers.length :=
    fun n hn => hgrounded.bound n (hledger.symm.trans hn)
  -- an operation that stops no span is no closing
  have hstill (hnone : o.taken? op outcome.reply = none) :
      cs ++ ((o.taken? op outcome.reply).bind l.closing?).toList = cs := by
    rw [hnone]
    exact List.append_nil cs
  cases hop : op.opens? with
  | some kind =>
    rw [hstill (o.taken?_of_ne (by rintro expected rfl; contradiction) _)]
    exact h.listed_opens hop hactive hlisted hafter
  | none =>
    cases h with
    | opened hkind =>
      rw [hkind] at hop
      contradiction
    | sent => contradiction
    | refused e hnone =>
      obtain rfl := Option.some.inj (hactive.symm.trans hafter)
      rw [hstill (o.taken?_usage op e)]
      exact hlisted
    | touched hnone hstop hprepare htouch =>
      intro hsampled
      obtain ⟨htracer, b, hout⟩ := outline?_touches htouch
      rw [outline?_of_active hactive, outline?_of_active hafter] at hout
      have hout : o'.outline = { o.outline with sampled := o.outline.sampled && b } :=
        Option.some.inj hout
      have hsame : o'.sampled = (o.outline.sampled && b) := congrArg Outline.sampled hout
      have hboth := Bool.and_eq_true_iff.mp (hsame.symm.trans hsampled)
      rw [hstill (o.taken?_of_ne hstop _), htracer, hout,
        show o'.ledger = o.ledger from congrArg Outline.ledger hout]
      exact hlisted hboth.1
    | prepared hactive' hprepare =>
      obtain rfl := Option.some.inj (hactive.symm.trans hactive')
      obtain rfl := Option.some.inj hafter
      have hpreparing := OpenSegment.preparing_prepareAsync hbound hprepare
      rw [hstill (o.taken?_of_ne (by simp) _)]
      exact fun hsampled => hpreparing.listed (hlisted (hpreparing.sampled.symm.trans hsampled))
    | stopped hactive' hpop hretire hopen =>
      obtain rfl := Option.some.inj (hactive.symm.trans hactive')
      obtain rfl := Option.some.inj hafter
      exact listed_retired hruns hgrounded hactive hpop hretire hlisted false
    | ended => contradiction

/-- **The segment ends**: what is handed over or parked lists its closings, with the one
    that the stop is. -/
theorem Effect.listed_ended {expected : Option Int} (h : Effect now s (.stop expected) outcome)
    (hruns : l.Runs capacity s x) (hgrounded : l.Grounded s.tracer)
    (hactive : s.strand.active = some o)
    (hlisted : o.Lists s.tracer cs)
    (hafter : outcome.state.strand.active = none) :
    let cs' := cs ++ ((o.taken? (.stop expected) outcome.reply).bind l.closing?).toList
    (∀ g, outcome.handed = some g → g.spans.map Span.id = prompt cs' ++ belated cs') ∧
    ∀ g, (outcome.state.tracer.ledgerOf o.ledger).parked = some g →
      Listed g.spans [] (outcome.state.tracer.ledgerOf o.ledger) cs' := by
  cases h with
  | refused => exact absurd (hactive.symm.trans hafter) (by simp)
  | touched hnone hstop => exact absurd rfl (hstop expected)
  | opened => contradiction
  | stopped => contradiction
  | ended hactive' hpop hretire hlast hfinish =>
    next o₀ o₁ o₂ f t t' due =>
    obtain rfl := Option.some.inj (hactive.symm.trans hactive')
    obtain ⟨hspares, hledger, -, hparked, -⟩ := hruns.retired hgrounded hactive hpop hretire
    have hkept : o₂.ledger = o.ledger := hledger.trans (hruns.ledger_eq hactive).symm
    have hending := o₂.ending_finish (t := t) fun n hn =>
      Nat.lt_of_lt_of_le (hgrounded.bound n (hledger ▸ hn)) hspares.length
    rw [hfinish] at hending
    rw [Tracer.ledgerOf_congr (t'.reportDue_value due).2, ← hkept]
    refine hending.listed (hledger ▸ hparked) fun hsampled => ?_
    rw [← OpenSegment.openIds_of_empty hlast]
    exact listed_retired hruns hgrounded hactive hpop hretire hlisted true hsampled

end Site

namespace Engine

variable {capacity : Nat} {e e' : Engine} {now : UInt64} {op : Op} {ls : List Life} {l : Life}
  {cs : List Closing}

theorem Tells.agrees_strand (h : e.Tells capacity ls) (hl : l ∈ ls) {k : Nat}
    (hstage : l.stage = .running k) {s : Site} (hsite : e.site? k = some s) {sop : StrandOp}
    (hagrees : e.Agrees l cs) :
    (e.step now (.strand k sop)).value.state.Agrees (e.live now (.strand k sop) l)
      (cs ++ (e.closing? now (.strand k sop) l).toList) := by
  obtain ⟨x, hruns, -⟩ := h.runs hl hstage hsite
  have hgrounded := h.grounded l hl
  have htracer := tracer_of_site? hsite
  rw [← htracer] at hgrounded
  obtain ⟨o, hactive, -⟩ := Option.map_eq_some_iff.mp hruns.outline
  have hledger := hruns.ledger_eq hactive
  have hlisted := hagrees.running k o hstage ((open?_of_site? hsite).trans hactive)
  rw [← htracer, ← hledger] at hlisted
  have hstate := site?_step_strand hsite now sop
  have heffect := s.effect_of_step now sop
  rw [closing?_strand hstage hsite hactive]
  obtain ⟨-, ⟨hsame, s', x', hsite', hruns', -⟩ | ⟨hemptied, hnone, -⟩⟩ :=
    h.step_running hl hsite hstage hruns now sop
  -- the segment is still open
  · obtain rfl := Option.some.inj (hstate.symm.trans hsite')
    refine ⟨fun k' o' hstage' hopen hsampled => ?_, fun g hg => ?_, fun g hg => ?_⟩
    · obtain rfl := Stage.running.inj (hstage.symm.trans (hsame.symm.trans hstage'))
      have hafter := (open?_of_site? hsite').symm.trans hopen
      rw [← tracer_of_site? hsite', ← hruns'.ledger_eq hafter]
      exact heffect.listed hruns hgrounded hactive hlisted hafter hsampled
    · rw [← tracer_of_site? hsite', hruns'.parked] at hg
      contradiction
    · rw [hruns'.reports] at hg
      contradiction
  -- the segment has ended
  · obtain ⟨expected, rfl⟩ := exists_stop_of_emptied hstage hemptied
    have hidle := (open?_of_site? hstate).symm.trans hnone
    obtain ⟨hhanded, hparked⟩ := heffect.listed_ended hruns hgrounded hactive hlisted hidle
    have hkept : (e.live now (.strand k (.stop expected)) l).ledger? = o.ledger :=
      (ledger?_live_strand hstage now (by simp)).trans hledger.symm
    refine ⟨fun k' o' hstage' => ?_, fun g hg => ?_, fun g hg => ?_⟩
    · rw [hemptied] at hstage'
      contradiction
    · rw [hkept, ← tracer_of_site? hstate] at hg ⊢
      exact hparked g hg
    · rw [reports_live_strand hstage hsite, hruns.reports, List.nil_append,
        Option.mem_toList] at hg
      exact hhanded g hg

/-! ### Steps of a handle -/

/-- A handle that finishes is a closing if it is awaited and its span is not on the stack. -/
theorem closing?_finish (hlinked : l.Linked) {n : Nat} (hn : l.ledger? = some n) (id : Nat)
    (time : Option UInt64) :
    e.closing? now (.handle (.span n id) (.finish time)) l =
      if l.Awaits id ∧ e.hasOpen l id = false then some ⟨id, true⟩ else none := by
  have hawaits := Custody.awaits_iff hlinked hn id
  simp only [closing?, hawaits, and_assoc]

theorem closing?_of_note {a : AsyncHandle} {hop : HandleOp} (hnote : ∀ time, hop ≠ .finish time) :
    e.closing? now (.handle a hop) l = none := by
  unfold closing?
  split
  · contradiction
  · next heq =>
    obtain ⟨-, rfl⟩ := Op.handle.inj heq
    exact absurd rfl (hnote _)
  · rfl

/-- **A handle does something**: the listing goes on, with the closing that the step is, and
    the ledger releases its segment if it can. -/
theorem listed_handled (now : UInt64) {x : Outline} {led : Ledger}
    (hlisted : Listed x.spans x.openIds led cs)
    (hcustody : Custody capacity x led l) (hlinked : l.Linked) {n : Nat} (hn : l.ledger? = some n)
    (id : Nat) (hopen : e.hasOpen l id = true ↔ id ∈ x.openIds) (hop : HandleOp) :
    ∃ led', Listed x.spans x.openIds led'
        (cs ++ (e.closing? now (.handle (.span n id) hop) l).toList) ∧
      led'.parked = led.parked ∧
      ((led.handle id now hop).value = (none, led') ∨
        (led.handle id now hop).value = led'.release) := by
  by_cases hfinish : ∃ time, hop = .finish time
  · obtain ⟨time, rfl⟩ := hfinish
    rw [closing?_finish hlinked hn id time]
    -- the handle is awaited exactly if the record is open
    cases hrecord : led.open? id with
    | none =>
      have hnone : ¬ l.Awaits id := by
        rw [← hcustody.awaits, hrecord]
        simp
      rw [if_neg fun hall => hnone hall.1, Option.toList_none, List.append_nil]
      refine ⟨led, hlisted, rfl, .inl ?_⟩
      simp only [Ledger.handle, Ledger.finish, hrecord, Logged.pure_value]
    | some d =>
      have hwaits : l.Awaits id := by
        rw [← hcustody.awaits, hrecord]
        rfl
      obtain ⟨hget, -⟩ := Ledger.open?_eq_some_iff.mp hrecord
      obtain ⟨led', hvalue, hparked, hafter⟩ := hlisted.finished hcustody.wellKept hrecord
        (hcustody.not_mem_openIds hget) (time.getD now)
      refine ⟨led', ?_, hparked, .inr hvalue⟩
      by_cases hid : id ∈ x.openIds
      · rw [if_neg fun hall => by simp [hopen.mpr hid] at hall]
        rwa [if_pos hid] at hafter
      · rw [if_pos ⟨hwaits, Bool.eq_false_iff.mpr (mt hopen.mp hid)⟩]
        rwa [if_neg hid] at hafter
  -- what is noted before the end is no closing
  · have hnote : ∀ time, hop ≠ .finish time := fun time heq => hfinish ⟨time, heq⟩
    obtain ⟨led', hupdated, hvalue⟩ := Ledger.updated_handle hcustody.wellKept id now hnote
    rw [closing?_of_note hnote, Option.toList_none, List.append_nil]
    exact ⟨led', hlisted.updated hupdated, hupdated.parked, .inl hvalue⟩

theorem hasOpen_running {k : Nat} (hstage : l.stage = .running k) {o : OpenSegment}
    (hopen : e.open? k = some o) (id : Nat) :
    e.hasOpen l id = true ↔ id ∈ o.outline.openIds := by
  rw [hasOpen, hstage, o.mem_openIds_iff]
  simp only [hopen, Option.any_some]

theorem hasOpen_of_ended (hstage : ∀ k, l.stage ≠ .running k) (id : Nat) :
    e.hasOpen l id = false := by
  unfold hasOpen
  split
  · next k hk => exact absurd hk (hstage k)
  · rfl

/-- Without a handle that is awaited, no handle is a closing. -/
theorem closing?_of_not_awaits (hlinked : l.Linked) {n : Nat} (hn : l.ledger? = some n) {id : Nat}
    (hnone : ¬ l.Awaits id) (hop : HandleOp) :
    e.closing? now (.handle (.span n id) hop) l = none := by
  cases hop with
  | finish time =>
    rw [closing?_finish hlinked hn id time]
    exact if_neg fun hall => hnone hall.1
  | _ => rfl

/-- While the segment is open, handles hand over nothing. -/
theorem Agrees.handled_running (hagrees : e.Agrees l cs) {k : Nat} {s : Site} {x : Outline}
    (hstage : l.stage = .running k) (hsite : e.site? k = some s) (hruns : l.Runs capacity s x)
    (hlinked : l.Linked) {n : Nat} (hn : l.ledger? = some n) (id : Nat) (hop : HandleOp)
    (hopen : ∀ k, e'.open? k = e.open? k)
    (hledger : e'.tracer.ledgerOf l.ledger? = ((e.tracer.ledger n).handle id now hop).value.2) :
    e'.Agrees (l.afterHandle (.span n id) hop ((e.tracer.ledger n).handle id now hop).value.1)
      (cs ++ (e.closing? now (.handle (.span n id) hop) l).toList) := by
  have hbefore : e.tracer.ledgerOf l.ledger? = e.tracer.ledger n := by
    rw [hn]
    rfl
  have hidle := hruns.parked
  rw [tracer_of_site? hsite, hbefore] at hidle
  obtain ⟨hdue, hstill⟩ := Ledger.handle_of_not_parked hidle id now hop
  rw [hdue]
  refine ⟨fun k' o hstage' ho hsampled => ?_, fun g hg => ?_, fun g hg => ?_⟩
  · rw [Life.stage_afterHandle] at hstage'
    obtain rfl := Stage.running.inj (hstage.symm.trans hstage')
    rw [hopen] at ho
    obtain rfl := hruns.outline_eq ((open?_of_site? hsite).symm.trans ho)
    have hcustody := hruns.custody hsampled
    have hlisted := hagrees.running k o hstage ho hsampled
    rw [tracer_of_site? hsite, hbefore] at hcustody
    rw [hbefore] at hlisted
    obtain ⟨led', hafter, hparked, hvalue⟩ := listed_handled now hlisted hcustody hlinked
      hn id (hasOpen_running hstage ho id) hop
    rw [Ledger.release_of_not_parked (hparked.trans hidle), or_self] at hvalue
    rw [Life.ledger?_afterHandle, hledger, hvalue]
    exact hafter
  · rw [Life.ledger?_afterHandle, hledger, hstill] at hg
    contradiction
  · rw [Life.reports_afterHandle_none, hruns.reports] at hg
    contradiction

/-- While the segment is parked, the last handle hands it over. -/
theorem Agrees.handled_parked (hagrees : e.Agrees l cs) (hstage : ∀ k, l.stage ≠ .running k)
    {o : OpenSegment} {n : Nat} (hn : l.ledger? = some n)
    (hreports : l.reports = []) (hparked : (e.tracer.ledger n).parked = some o.segment)
    (hstack : o.stack = []) (hcustody : Custody capacity o.outline (e.tracer.ledger n) l)
    (hlinked : l.Linked) (id : Nat) (hop : HandleOp)
    (hledger : e'.tracer.ledgerOf l.ledger? = ((e.tracer.ledger n).handle id now hop).value.2) :
    e'.Agrees (l.afterHandle (.span n id) hop ((e.tracer.ledger n).handle id now hop).value.1)
      (cs ++ (e.closing? now (.handle (.span n id) hop) l).toList) := by
  have hempty := OpenSegment.openIds_of_empty hstack
  have hlisted : Listed o.outline.spans o.outline.openIds (e.tracer.ledger n) cs := by
    have hparked' : (e.tracer.ledgerOf l.ledger?).parked = some o.segment := by
      rw [hn]
      exact hparked
    have hlisted := hagrees.parked _ hparked'
    rw [hn] at hlisted
    rw [hempty]
    exact hlisted
  have hopen : e.hasOpen l id = true ↔ id ∈ o.outline.openIds := by
    rw [hasOpen_of_ended hstage, hempty]
    simp
  obtain ⟨led', hafter, hsame, hvalue⟩ := listed_handled now hlisted hcustody hlinked hn
    id hopen hop
  rw [hempty] at hafter
  have hsome : led'.parked = some o.segment := hsame.trans hparked
  -- the ledger keeps the segment, or gives it back with the spans that wait for it
  have hcases : ((e.tracer.ledger n).handle id now hop).value = (none, led') ∨
      ((e.tracer.ledger n).handle id now hop).value =
        (some (o.segment.archiveAll led'.completed),
          { led' with parked := none, completed := [] }) := by
    rcases hvalue with hkept | hreleased
    · exact .inl hkept
    · rw [hreleased]
      simp only [Ledger.release, hsome]
      split
      · exact .inr rfl
      · exact .inl rfl
  refine ⟨fun k o' hrunning => ?_, fun g hg => ?_, fun g hg => ?_⟩
  · rw [Life.stage_afterHandle] at hrunning
    exact absurd hrunning (hstage k)
  · rw [Life.ledger?_afterHandle, hledger] at hg ⊢
    rcases hcases with hkept | hreleased
    · rw [hkept] at hg ⊢
      obtain rfl := Option.some.inj (hsome.symm.trans hg)
      exact hafter
    · rw [hreleased] at hg
      contradiction
  · rcases mem_reports_afterHandle hg with hold | hdue
    · rw [hreports] at hold
      contradiction
    · rcases hcases with hkept | hreleased
      · rw [hkept] at hdue
        contradiction
      · rw [hreleased] at hdue
        obtain rfl := Option.some.inj hdue
        exact hafter.all_closed

theorem Tells.agrees_handle (h : e.Tells capacity ls) (hl : l ∈ ls) {n : Nat}
    (hn : l.ledger? = some n) (id : Nat) (hop : HandleOp) (hagrees : e.Agrees l cs) :
    (e.step now (.handle (.span n id) hop)).value.state.Agrees
      (e.live now (.handle (.span n id) hop) l)
      (cs ++ (e.closing? now (.handle (.span n id) hop) l).toList) := by
  have hlinked := (h.grounded l hl).linked
  have hledger := h.ledgerOf_handle hl hn now id hop
  have hopen (k : Nat) :
      (e.step now (.handle (.span n id) hop)).value.state.open? k = e.open? k :=
    open?_step e now (by simp) (by simp)
  have hbefore : e.tracer.ledgerOf l.ledger? = e.tracer.ledger n := by
    rw [hn]
    rfl
  rw [live_handle_span]
  cases h.status l hl with
  | running hstage hsite hruns =>
    exact hagrees.handled_running hstage hsite hruns hlinked hn id hop hopen hledger
  | resting hrests =>
    have hstage := hrests.stage_ne
    cases hrests with
    | waiting _ hn' _ _ hreports hparked hstack hcustody =>
      obtain rfl := Option.some.inj (hn'.symm.trans hn)
      exact hagrees.handled_parked hstage hn hreports hparked hstack hcustody hlinked id hop hledger
    | reported hdue _ _ _ hidle =>
      rw [hbefore] at hidle
      obtain ⟨hdue', hstill⟩ := Ledger.handle_of_not_parked hidle id now hop
      have hnone := (Life.finished_iff hlinked).mp hdue.2 id
      rw [closing?_of_not_awaits hlinked hn hnone, hdue', Option.toList_none, List.append_nil]
      refine ⟨fun k o hrunning => ?_, fun g hg => ?_, fun g hg => ?_⟩
      · rw [Life.stage_afterHandle] at hrunning
        exact absurd hrunning (hstage k)
      · rw [Life.ledger?_afterHandle, hledger, hstill] at hg
        contradiction
      · rw [Life.reports_afterHandle_none] at hg
        exact hagrees.handed g hg
    | gone _ hreports hidle =>
      rw [hbefore] at hidle
      obtain ⟨hdue', hstill⟩ := Ledger.handle_of_not_parked hidle id now hop
      rw [hdue']
      refine agrees_of_gone (fun k => ?_) ?_ ?_
      · rw [Life.stage_afterHandle]
        exact hstage k
      · rw [Life.ledger?_afterHandle, hledger]
        exact hstill
      · rw [Life.reports_afterHandle_none]
        exact hreports

/-! ### Runs -/

/-- **Every step** keeps the agreement, with the closing that the step is. -/
theorem Tells.agrees_step (h : e.Tells capacity ls) (hl : l ∈ ls) (hagrees : e.Agrees l cs)
    (now : UInt64) (op : Op) :
    (e.step now op).value.state.Agrees (e.live now op l) (cs ++ (e.closing? now op l).toList) := by
  cases h.concern hl now op with
  | strand hstage hsite => exact h.agrees_strand hl hstage hsite hagrees
  | handle hn => exact h.agrees_handle hl hn _ _ hagrees
  | left hstage hsite hledgers =>
    obtain ⟨x, hruns, -⟩ := h.runs hl hstage hsite
    rw [live_closeStrand, if_pos hstage]
    refine agrees_of_gone (fun k => by simp) ?_ hruns.reports
    have hidle := hruns.parked
    rw [tracer_of_site? hsite] at hidle
    exact (congrArg Ledger.parked (Tracer.ledgerOf_congr hledgers _)).trans hidle
  | other hlive hstrand hhandle hopen hledger =>
    have hnone : e.closing? now op l = none := by
      unfold closing?
      split
      · next k sop => exact if_neg (hstrand k sop rfl)
      · next n id time => exact if_neg fun hall => hhandle _ _ rfl hall.1
      · rfl
    rw [hlive, hnone, Option.toList_none, List.append_nil]
    exact hagrees.frame hopen hledger

/-- A segment that begins has no closings yet. -/
theorem Tells.agrees_begun (h : e.Tells capacity ls) (hbegun : e.begun now op = some l) :
    (e.step now op).value.state.Agrees (e.live now op l) [] := by
  have hmem : e.live now op l ∈ e.chronicle now op ls :=
    List.mem_map_of_mem (List.mem_append_right _ (Option.mem_toList.mpr hbegun))
  obtain ⟨k, sop, s, id, rfl, hsite, hidle, rfl⟩ := begun_eq_some hbegun
  cases (h.step now (.strand k sop)).1.status _ hmem with
  | resting hrests =>
    have hstage := hrests.stage_ne
    cases hrests with
    | waiting hemptied => exact absurd hemptied (stage_live_begun hbegun)
    | reported hdue => exact absurd hdue.1 (stage_live_begun hbegun)
    | gone _ hreports hparked => exact agrees_of_gone hstage hparked hreports
  | running hstage hsite' hruns =>
    next k' s' x =>
    obtain rfl := Stage.running.inj (stage_of_live hstage)
    obtain rfl : (s.step now sop).value.state = s' := by
      rw [site?_step_strand hsite] at hsite'
      exact Option.some.inj hsite'
    refine ⟨fun k' o hstage' hopen _ => ?_, fun g hg => ?_, fun g hg => ?_⟩
    · obtain rfl := Stage.running.inj (hstage.symm.trans hstage')
      have hactive := (open?_of_site? hsite').symm.trans hopen
      obtain ⟨kind, hop⟩ := s.opens_of_idle hidle hactive
      obtain ⟨-, -, -, hout⟩ := Life.opens_of_effect (s.effect_of_step now sop) hop
      rw [Site.outline?_of_active hactive] at hout
      rcases hout with ⟨x', b, hsome, -⟩ | ⟨-, id', sampled, hout⟩
      · rw [Site.outline?, hidle] at hsome
        contradiction
      · have hout := Option.some.inj hout
        have hledger : o.ledger = none :=
          (congrArg Outline.ledger hout).trans (Outline.opened_fields _ _ _ _).1
        rw [← hruns.ledger_eq hactive, hledger, hout]
        exact Listed.opened (x := .new id' sampled) (.nil _) s.tracer.config.capacity kind now
    · rw [← tracer_of_site? hsite', hruns.parked] at hg
      contradiction
    · rw [hruns.reports] at hg
      contradiction

/-- The life at place `i` agrees with these closings, none if there is no life yet. -/
def Audited (e : Engine) (ls : List Life) (i : Nat) (cs : List Closing) : Prop :=
  (∀ l, ls[i]? = some l → e.Agrees l cs) ∧ (ls[i]? = none → cs = [])

theorem Tells.audited_step (h : e.Tells capacity ls) {i : Nat} (haudited : e.Audited ls i cs)
    (now : UInt64) (op : Op) :
    (e.step now op).value.state.Audited (e.chronicle now op ls) i
      (cs ++ (ls[i]?.bind (e.closing? now op)).toList) := by
  obtain ⟨hagrees, hnone⟩ := haudited
  cases hi : ls[i]? with
  | some l =>
    have hlive := getElem?_chronicle (e := e) hi now op
    refine ⟨fun l' hl' => ?_, fun hgone => by rw [hlive] at hgone; contradiction⟩
    obtain rfl := Option.some.inj (hlive.symm.trans hl')
    exact h.agrees_step (List.mem_of_getElem? hi) (hagrees l hi) now op
  | none =>
    obtain rfl := hnone hi
    refine ⟨fun l' hl' => ?_, fun _ => rfl⟩
    -- the life is new in the chronicle
    rw [chronicle, List.getElem?_map, List.getElem?_append_right (List.getElem?_eq_none_iff.mp hi),
      Option.map_eq_some_iff] at hl'
    obtain ⟨l, hl, rfl⟩ := hl'
    exact h.agrees_begun (Option.mem_toList.mp (List.mem_of_getElem? hl))

theorem Tells.audited_run (h : e.Tells capacity ls) {i : Nat} (haudited : e.Audited ls i cs)
    (ops : List (UInt64 × Op)) :
    (e.run ops).Audited (e.livesFrom ls ops) i (cs ++ e.closingsFrom ls i ops) := by
  induction ops generalizing e ls cs with
  | nil =>
    rw [closingsFrom, List.append_nil]
    exact haudited
  | cons timed ops ih =>
    obtain ⟨now, op⟩ := timed
    rw [closingsFrom, ← List.append_assoc]
    exact ih (h.step now op).1 (h.audited_step haudited now op)

/-- **The order of the spans**: every segment that is handed over in a run is the report of
    one of the segments that began in it, and has the spans that were closed by their stop
    in the order of closing, and behind them those that were closed late, in the order of
    closing. So its spans are in the order of closing exactly if every span that is closed
    after a late one is late as well. -/
theorem handed_spans_prompt_then_late (config : Config) (reporter : Reporter) (process : String)
    (start : UInt64) (ops : List (UInt64 × Op)) :
    let e := ofTracer (.start config reporter process start)
    (∀ g ∈ e.handed ops, ∃ (i : Nat) (l : Life), (e.lives ops)[i]? = some l ∧ g ∈ l.reports) ∧
    ∀ (i : Nat) (l : Life), (e.lives ops)[i]? = some l → ∀ g ∈ l.reports,
      let closings := e.closings i ops
      g.spans.map (·.id) = prompt closings ++ belated closings ∧
      (g.spans.map (·.id) = closings.map (·.span) ↔
        closings.Pairwise fun c d => c.late = true → d.late = true) := by
  intro e
  have hstart := tells_start config reporter process start
  obtain ⟨htells, hreports⟩ := hstart.run ops
  refine ⟨fun g hg => ?_, fun i l hl g hg => ?_⟩
  · obtain ⟨l, hl, hmem⟩ := List.mem_flatMap.mp (hreports.mem_iff.mpr hg)
    obtain ⟨i, hi⟩ := List.mem_iff_getElem?.mp hl
    exact ⟨i, l, hi, hmem⟩
  · have hnew : e.Audited [] i [] := ⟨fun l hl => by simp at hl, fun _ => rfl⟩
    have hlisted := ((hstart.audited_run hnew ops).1 l hl).handed g hg
    rw [List.nil_append] at hlisted
    refine ⟨hlisted, ?_⟩
    -- no span is in a report twice
    have hsound := hstart.stocked_run (fun l hl => by contradiction) ops l
      (List.mem_of_getElem? hl) _ (.handed hg)
    have hnodup : (g.spans.map Span.id).Nodup := by
      have hall := hsound.ids
      rw [show (Stock.aspect.ended g {}).spans = g.spans ++ [] from rfl, List.append_nil] at hall
      exact hall
    rw [show g.spans.map (·.id) = _ from hlisted] at hnodup ⊢
    exact Closing.prompt_append_belated_eq_iff hnodup

/-- Spans that close in every way: by a stop, by a stop after the handle has finished, by
    the handle while the segment is open, and by the handle after the last stop. -/
def closingRun : List (UInt64 × Op) :=
  [(0, .openStrand), (1, .strand 0 (.inner "root")),
    (2, .strand 0 (.inner "plain")), (3, .strand 0 (.stop none)),
    (4, .strand 0 (.inner "early")), (5, .strand 0 .prepareAsync),
    (6, .handle (.span 0 2) (.finish none)), (7, .strand 0 (.stop none)),
    (8, .strand 0 (.inner "late")), (9, .strand 0 .prepareAsync), (10, .strand 0 (.stop none)),
    (11, .handle (.span 0 3) (.finish none)),
    (12, .strand 0 (.inner "last")), (13, .strand 0 .prepareAsync), (14, .strand 0 (.stop none)),
    (15, .strand 0 (.stop none)), (16, .handle (.span 0 4) (.finish none))]

theorem handed_spans_prompt_then_late_closing :
    let e := ofTracer (.start (Config.standard "i") .collecting "p" 0)
    e.closings 0 closingRun = [⟨1, false⟩, ⟨2, false⟩, ⟨3, true⟩, ⟨0, false⟩, ⟨4, true⟩] ∧
    ∃ l : Life, (e.lives closingRun)[0]? = some l ∧ l.reports.length = 1 ∧
      ∀ g ∈ l.reports, g.spans.map (·.id) = [1, 2, 0, 3, 4] := by
  intro e
  have hclosings : e.closings 0 closingRun =
      [⟨1, false⟩, ⟨2, false⟩, ⟨3, true⟩, ⟨0, false⟩, ⟨4, true⟩] := by decide +kernel
  have hreported : ((e.lives closingRun)[0]?).any (·.reports.length = 1) = true := by decide +kernel
  obtain ⟨l, hl, hone⟩ := (Option.any_eq_true _ _).mp hreported
  refine ⟨hclosings, l, hl, of_decide_eq_true hone, fun g hg => ?_⟩
  obtain ⟨hids, -⟩ := (handed_spans_prompt_then_late _ _ _ _ closingRun).2 0 l hl g hg
  rw [hids, hclosings]
  rfl

/-- **A late span is listed last**: the child closes before the root, by its handle, and
    stands behind it in the report. -/
theorem late_child_behind_root :
    let e := ofTracer (.start (Config.standard "i") .collecting "p" 0)
    let ops : List (UInt64 × Op) :=
      [(0, .openStrand), (1, .strand 0 (.inner "root")), (2, .strand 0 (.inner "child")),
        (3, .strand 0 .prepareAsync), (4, .strand 0 (.stop none)),
        (5, .handle (.span 0 1) (.finish none)), (6, .strand 0 (.stop none))]
    e.closings 0 ops = [⟨1, true⟩, ⟨0, false⟩] ∧
    (e.handed ops).map (·.spans.map fun s => (s.id, s.stop)) =
      [[(0, some 6), (1, some 5)]] := by
  decide +kernel

end Engine

end TraceLink
