import TraceLink.Proofs.Stocks

/-! # Steps of a stock

    Each operation of a strand or of a handle passes the stock of its segment. Which
    receipts it passes with can be told from the operation and the state before it: a
    context is received by the active span if it is read by an operation of its own, and
    not while a span is opened with it. -/

namespace TraceLink

open Ledger (heldIn)
open Stock (Passes)

/-! ### Ledgers -/

namespace Ledger

theorem heldIn_erase_subperm (rs : Entries Nat Deferral) (id : Nat) :
    (heldIn (rs.erase id)).Subperm (heldIn rs) := by
  cases hget : rs.get? id with
  | none => rw [Entries.erase_of_get?_eq_none hget]
  | some d =>
    have hheld := heldIn_perm (Entries.perm_erase hget)
    exact (List.sublist_append_right _ _).subperm.trans hheld.symm.subperm

/-- A record begins without a span. -/
theorem deferredSpans_prepare (l : Ledger) (id : Nat) :
    (l.prepare id).deferredSpans.Subperm l.deferredSpans := by
  have hput := heldIn_perm (Entries.perm_put l.records id {})
  apply (List.subperm_append_right l.completed).mpr
  exact hput.subperm.trans (heldIn_erase_subperm l.records id)

theorem deferredSpans_update (l : Ledger) (id : Nat) {change : Deferral → Deferral}
    (h : ∀ d, (change d).span = d.span) :
    (l.update id change).deferredSpans.Subperm l.deferredSpans := by
  unfold update
  split
  · next d hopen =>
    have hput := heldIn_perm (Entries.perm_put l.records id (change d))
    have hheld := heldIn_perm (Entries.perm_erase (open?_eq_some_iff.mp hopen).1)
    rw [h d] at hput
    apply (List.subperm_append_right l.completed).mpr
    exact (hput.trans hheld.symm).subperm
  · exact List.Subperm.refl _

/-- What the strand takes off its stack is given back, or goes into the ledger. -/
theorem rewrites_pop (l : Ledger) (s : Span) :
    Rewrites (s :: l.deferredSpans)
      ((l.pop s).value.1.toList ++ (l.pop s).value.2.deferredSpans) := by
  unfold pop
  split
  · exact .refl _
  · next d hget =>
    have hleft := (List.subperm_append_right l.completed).mpr (heldIn_erase_subperm l.records s.id)
    split
    · next time hstop =>
      refine .written (R := l.deferredSpans) (.refl _) ?_ (d.follows_applyTo s time)
      exact (List.subperm_cons _).mpr hleft
    · have hput := heldIn_perm (Entries.perm_put l.records s.id { d with span := some s })
      apply Rewrites.moved
      exact (hput.append_right l.completed).subperm.trans ((List.subperm_cons s).mpr hleft)

/-- **Restocking**: what an operation of a handle does to the spans of a ledger. It leaves
    them there, or they go with the segment that was parked. -/
inductive Restocks (l : Ledger) : Option Segment → Ledger → Prop where
  | kept {l' : Ledger} (hparked : l'.parked = l.parked)
      (hspans : Rewrites l.deferredSpans l'.deferredSpans) : Restocks l none l'
  | handed {l' : Ledger} {g : Segment} {done : List Span} (hparked : l.parked = some g)
      (hempty : l'.parked = none) (hspans : Rewrites l.deferredSpans done) :
      Restocks l (some (g.archiveAll done)) l'

variable {l l₁ : Ledger}

/-- The ledger after a handle has finished, before it is released. -/
theorem restocks_release (hparked : l₁.parked = l.parked)
    (hspans : Rewrites l.deferredSpans l₁.deferredSpans) :
    Restocks l l₁.release.1 l₁.release.2 := by
  have hcompleted : l₁.completed.Subperm l₁.deferredSpans :=
    (List.sublist_append_right _ _).subperm
  unfold release
  split
  · next g hg =>
    split
    · exact .handed (hparked.symm.trans hg) rfl (hspans.mono hcompleted)
    · exact .kept hparked hspans
  · exact .kept hparked hspans

theorem restocks_finish (l : Ledger) (id : Nat) (time : UInt64) :
    Restocks l (l.finish id time).value.1 (l.finish id time).value.2 := by
  unfold finish
  split
  · exact .kept rfl (.refl _)
  · next d hopen =>
    have hheld := heldIn_perm (Entries.perm_erase (open?_eq_some_iff.mp hopen).1)
    split
    -- the span is held in the record, and is completed now
    · next s hspan =>
      rw [hspan] at hheld
      refine restocks_release rfl (.written (R := heldIn (l.records.erase id) ++ l.completed)
        (hheld.append_right l.completed) ?_ (d.follows_applyTo s time))
      apply List.Perm.subperm
      show (_ ++ (l.completed ++ [_])).Perm _
      rw [← List.append_assoc]
      exact List.perm_append_singleton _ _
    -- the span is on the stack, and its end is noted in the record
    · have hput := heldIn_perm (Entries.perm_put l.records id { d with stop := some time })
      have hsame := (hput.trans hheld.symm).append_right l.completed
      exact restocks_release rfl (.moved hsame.subperm)

theorem restocks_handle (l : Ledger) (id : Nat) (now : UInt64) (op : HandleOp) :
    Restocks l (l.handle id now op).value.1 (l.handle id now op).value.2 := by
  cases op with
  | tag key value =>
    exact .kept (parked_update ..) (.moved (l.deferredSpans_update id fun _ => rfl))
  | log event => exact .kept (parked_update ..) (.moved (l.deferredSpans_update id fun _ => rfl))
  | markFailed => exact .kept (parked_update ..) (.moved (l.deferredSpans_update id fun _ => rfl))
  | finish time => exact l.restocks_finish id (time.getD now)

end Ledger

/-! ### Open segments -/

/-- The receipts of what is read while a frame is the active one. -/
def Frame.receipts (f : Frame) : Inbound → List Receipt
  | .remote c => f.span?.toList.map fun s => ⟨s.id, c⟩
  | _ => []

/-- The stock of an open segment with its ledger. -/
def OpenSegment.stock (o : OpenSegment) (led : Ledger) : Stock where
  spans := o.ownSpans ++ led.deferredSpans
  next := some o.nextSpan

/-- The stock of a segment that is not open any more, with the ledger that it waits in. -/
def Segment.stock (g : Segment) (led : Ledger) : Stock where
  spans := g.spans ++ led.deferredSpans
  next := none

namespace OpenSegment

variable {o o' : OpenSegment} {f f' : Frame} {rest : List Frame} {led led' : Ledger}

theorem ownSpans_of_stack (hstack : o.stack = f :: rest) :
    o.ownSpans = f.span?.toList ++ OpenSegment.ownSpans { o with stack := rest } := by
  unfold ownSpans
  rw [hstack, List.filterMap_cons]
  cases f with
  | recorded s => rfl
  | placeholder name => rfl

theorem stock_congr (hstack : o'.stack = o.stack) (hspans : o'.segment.spans = o.segment.spans)
    (hnext : o'.nextSpan = o.nextSpan) (led : Ledger) : o'.stock led = o.stock led := by
  unfold stock ownSpans
  rw [hstack, hspans, hnext]

/-- The ledger may lose spans, and a handle may write to them. -/
theorem restocks_of_rewrites (o : OpenSegment) (h : Rewrites led.deferredSpans led'.deferredSpans) :
    Passes [] (o.stock led) (o.stock led') := .still (h.append_left _) fun _ hn => hn

/-- The active span is written to. -/
theorem restocks_written (o' : OpenSegment) (hstack : o.stack = f :: rest)
    (hstack' : o'.stack = f' :: rest) (hspans : o'.segment.spans = o.segment.spans)
    (hnext : o'.nextSpan = o.nextSpan) (hfollows : f.Follows f') (led : Ledger) :
    Passes [] (o.stock led) (o'.stock led) := by
  have hrest : OpenSegment.ownSpans { o' with stack := rest } =
      OpenSegment.ownSpans { o with stack := rest } := by
    unfold ownSpans
    rw [show OpenSegment.segment { o' with stack := rest } = o'.segment from rfl, hspans]
  have hbefore : (o.stock led).spans =
      f.span?.toList ++ OpenSegment.ownSpans { o with stack := rest } ++ led.deferredSpans :=
    congrArg (· ++ _) (ownSpans_of_stack hstack)
  have hafter : (o'.stock led).spans =
      f'.span?.toList ++ OpenSegment.ownSpans { o with stack := rest } ++ led.deferredSpans := by
    rw [← hrest]
    exact congrArg (· ++ _) (ownSpans_of_stack hstack')
  refine .still ?_ fun n hn => (congrArg some hnext.symm).trans hn
  rw [hbefore, hafter]
  cases hfollows with
  | placeholder name => exact .refl _
  | recorded hfollows =>
    exact .written (List.Perm.refl _) (List.Subperm.refl _) hfollows

/-- A span is opened, which is recorded under the next id, or not at all. -/
theorem restocks_opened {capacity : Nat} {kind : SpanKind} {now : UInt64}
    (hstack : o'.stack = f :: o.stack) (hout : o'.outline = o.outline.opened capacity kind now)
    (led : Ledger) : Passes [] (o.stock led) (o'.stock led) := by
  have hframes : f.mark :: o.outline.frames = (o.outline.opened capacity kind now).frames := by
    rw [← hout]
    show _ = o'.stack.map Frame.mark
    rw [hstack]
    rfl
  have hspans : o'.segment.spans = (o.outline.opened capacity kind now).spans :=
    congrArg Outline.spans hout
  have hnext : o'.nextSpan = (o.outline.opened capacity kind now).nextSpan :=
    congrArg Outline.nextSpan hout
  have hown : o'.ownSpans = f.span?.toList ++ (o.stack.filterMap Frame.span? ++ o'.segment.spans) :=
    ownSpans_of_stack hstack
  unfold Outline.opened at hframes hspans hnext
  -- a placeholder adds nothing to the stock
  have hdropped (hnone : f.mark = none) (hspans : o'.segment.spans = o.segment.spans)
      (hnext : o'.nextSpan = o.nextSpan) : Passes [] (o.stock led) (o'.stock led) := by
    have hspan : f.span? = none := Option.map_eq_none_iff.mp hnone
    have hsame : o'.stock led = o.stock led := by
      unfold stock
      rw [hown, hspan, hspans, hnext]
      rfl
    rw [hsame]
    exact .refl _
  split at hframes
  · next hsampled =>
    rw [if_pos hsampled] at hspans hnext
    exact hdropped (List.cons.inj hframes).1 hspans hnext
  · next hsampled =>
    rw [if_neg hsampled] at hspans hnext
    split at hframes
    · next hfull =>
      rw [if_pos hfull] at hspans hnext
      exact hdropped (List.cons.inj hframes).1 hspans hnext
    · next hfull =>
      rw [if_neg hfull] at hspans hnext
      obtain ⟨s, hspan, hmark⟩ := Option.map_eq_some_iff.mp (List.cons.inj hframes).1
      have hid : s.id = o.nextSpan := congrArg (·.origin.id) hmark
      have hopened := Passes.opened (σ := o.stock led) (x := s) (congrArg some hid.symm)
      have hafter : o'.stock led = ⟨s :: (o.stock led).spans, some (s.id + 1)⟩ := by
        unfold stock
        rw [hown, hspan, hspans, hnext, hid]
        rfl
      rw [hafter]
      exact hopened

theorem stack_newFrame (o : OpenSegment) (limit : Nat) (kind : SpanKind) (name : String)
    (now : UInt64) : (o.newFrame limit kind name now).value.2.stack = o.stack := by
  unfold newFrame
  split
  · rfl
  · split
    · rfl
    · rfl

theorem restocks_openSpan (c : Config) (o : OpenSegment) (kind : SpanKind) (name : String)
    (now : UInt64) (inbound : Option RemoteContext) (led : Ledger) :
    Passes [] (o.stock led) ((o.openSpan c kind name now inbound).value.2.stock led) := by
  have hout := outline_openSpan c o kind name now inbound
  have hstack : ∃ f, (o.openSpan c kind name now inbound).value.2.stack = f :: o.stack := by
    rw [← o.stack_newFrame c.spanLimit kind name now]
    unfold openSpan
    cases inbound with
    | none => exact ⟨_, rfl⟩
    | some r =>
      simp only [Logged.bind_value, Logged.pure_value, push, stack_applyInbound]
      exact ⟨_, rfl⟩
  obtain ⟨f, hstack⟩ := hstack
  exact restocks_opened hstack hout led

theorem restocks_openExit (c : Config) (o : OpenSegment) (name peer : String) (k : Option Carrier)
    (now : UInt64) (led : Ledger) :
    Passes [] (o.stock led) ((o.openExit c name peer k now).value.2.2.stock led) := by
  have hout := outline_openExit c o name peer k now
  have hstack : ∃ f, (o.openExit c name peer k now).value.2.2.stack = f :: o.stack := by
    rw [← o.stack_newFrame c.spanLimit .exit name now]
    unfold openExit
    cases k with
    | none => exact ⟨_, rfl⟩
    | some k => exact ⟨_, rfl⟩
  obtain ⟨f, hstack⟩ := hstack
  exact restocks_opened hstack hout led

/-- A captured context is continued without a change to a span. -/
theorem stock_continueFrom (o : OpenSegment) (c : Captured) (led : Ledger) :
    (o.continueFrom c).value.stock led = o.stock led := by
  have hout := o.outline_continueFrom c
  have hskip (o : OpenSegment) (skip : Bool) : (o.skipIf skip).stack = o.stack := by
    cases skip <;> rfl
  refine stock_congr ?_ (congrArg Outline.spans hout) (congrArg Outline.nextSpan hout) led
  unfold continueFrom
  simp only [Logged.bind_value, Logged.pure_value, hskip, link_value]

/-- **A context is read** while a span is active, which receives it. -/
theorem restocks_received (hstack : o.stack = f :: rest) (c : RemoteContext) (now : UInt64)
    (led : Ledger) :
    let applied := (OpenSegment.applyInbound { o with stack := rest } f c now).value
    Passes (f.receipts (.remote c)) (o.stock led) ((applied.2.push applied.1).stock led) := by
  intro applied
  have hout : (applied.2.push applied.1).outline = o.outline := outline_received hstack rfl
  have hrest : applied.2.stack = rest := stack_applyInbound { o with stack := rest } f c now
  have hspans : (applied.2.push applied.1).segment.spans = o.segment.spans :=
    congrArg Outline.spans hout
  have hnext : (applied.2.push applied.1).nextSpan = o.nextSpan := congrArg Outline.nextSpan hout
  have hframe : applied.1 = (f.modify (markInbound c now)).value := rfl
  have hstack' : (applied.2.push applied.1).stack = applied.1 :: rest := congrArg (_ :: ·) hrest
  cases f with
  | placeholder name => 
    exact restocks_written _ hstack hstack' hspans hnext (.placeholder name) led
  | recorded s =>
    let s' := (markInbound c now s).value
    have hown := ownSpans_of_stack hstack'
    have hsame : OpenSegment.ownSpans { applied.2.push applied.1 with stack := rest } =
        OpenSegment.ownSpans { o with stack := rest } := by
      unfold ownSpans
      exact congrArg (_ ++ ·) hspans
    rw [hsame] at hown
    refine .received (y := s') (R := OpenSegment.ownSpans { o with stack := rest } ++
      led.deferredSpans) ?_ ?_ (congrArg Mark.origin (mark_markInbound c now s))
      (Span.ref_markInbound c now s) (fun hclosed => ?_)
      fun n hn => (congrArg some hnext.symm).trans hn
    · show (o.ownSpans ++ _).Perm _
      rw [ownSpans_of_stack hstack]
      exact .refl _
    · show (ownSpans _ ++ _).Subperm _
      rw [hown]
      exact List.Subperm.refl _
    · exact Span.markInbound_of_isClosed hclosed c now

theorem restocks_putCorrelation (o : OpenSegment) (keys : List String) (key value : String)
    (led : Ledger) :
    Passes [] (o.stock led) ((o.putCorrelation keys key value).value.2.stock led) := by
  unfold putCorrelation
  simp only [Logged.bind_value]
  split
  · split
    · next f rest hstack =>
      have htag (s : Span) : s.Follows (s.tag key value).value := by
        apply Span.follows_whileOpen <;> exact fun _ => rfl
      have hframe := Frame.follows_modify htag f
      exact restocks_written { o with
        correlation := (o.correlation.put key value).value.2
        stack := (f.modify (·.tag key value)).value :: rest } hstack rfl rfl rfl hframe led
    · exact .refl _
  · exact .refl _

variable {t t' : Tracer}

/-- Only an open span is prepared for async finish. -/
theorem isClosed_of_prepareAsync {s : Span} (hstack : o.stack = .recorded s :: rest)
    {r : AsyncHandle × OpenSegment × Tracer} (h : o.prepareAsync t = .ok r) :
    s.isClosed = false := by
  unfold prepareAsync at h
  rw [hstack] at h
  obtain ⟨s', hmark, -⟩ := Attempt.bind_eq_ok.mp h
  rw [Attempt.within_eq_ok] at hmark
  unfold Span.markAsync at hmark
  split at hmark
  · contradiction
  · split at hmark
    · contradiction
    · next hopen => exact Bool.eq_false_iff.mpr hopen

theorem restocks_prepareAsync {a : AsyncHandle} (hprepare : o.prepareAsync t = .ok (a, o', t'))
    (hbound : ∀ n, o.ledger = some n → n < t.ledgers.length) :
    Passes [] (o.stock (t.ledgerOf o.ledger)) (o'.stock (t'.ledgerOf o'.ledger)) := by
  cases preparing_prepareAsync hbound hprepare with
  | idle => exact .refl _
  | recorded hstack hplain hledger hlt hspares hafter =>
    next s rest n =>
    have hopen := isClosed_of_prepareAsync hstack hprepare
    have hfollows : s.Follows { s with isAsync := true } := by
      refine ⟨rfl, rfl, fun hclosed => ?_⟩
      rw [hopen] at hclosed
      contradiction
    have hwritten := restocks_written { o with
      stack := .recorded { s with isAsync := true } :: rest
      ledger := some n } hstack rfl rfl rfl (.recorded hfollows) (t.ledgerOf o.ledger)
    apply hwritten.before
    apply restocks_of_rewrites
    show Rewrites _ (t'.ledger n).deferredSpans
    rw [hafter]
    exact .moved (Ledger.deferredSpans_prepare _ _)

/-- Spans are archived, in the place of a span that is taken off the stack. -/
theorem restocks_archiveAll (hstack : o.stack = f :: rest) {done : List Span}
    (h : Rewrites (f.span?.toList ++ led.deferredSpans) (done ++ led'.deferredSpans)) :
    Passes [] (o.stock led) (OpenSegment.stock
      { o with stack := rest, segment := o.segment.archiveAll done } led') := by
  have hown : OpenSegment.ownSpans { o with stack := rest, segment := o.segment.archiveAll done } =
      OpenSegment.ownSpans { o with stack := rest } ++ done := (List.append_assoc ..).symm
  have hrewrites := h.append_left (OpenSegment.ownSpans { o with stack := rest })
  have hbefore : (o.stock led).spans.Perm (OpenSegment.ownSpans { o with stack := rest } ++
      (f.span?.toList ++ led.deferredSpans)) := by
    show (o.ownSpans ++ _).Perm _
    rw [ownSpans_of_stack hstack, List.append_assoc]
    exact List.perm_append_comm_assoc ..
  refine .still ?_ fun n hn => hn
  show Rewrites _ (OpenSegment.ownSpans _ ++ _)
  rw [hown, List.append_assoc]
  exact hrewrites.of_perm hbefore

/-- A span that is taken off the stack goes into the archive or into the ledger. -/
theorem Retired.restocks {now : UInt64} (h : Retired { o with stack := rest } t now f o' t')
    (hstack : o.stack = f :: rest) (hbound : ∀ n, o.ledger = some n → n < t.ledgers.length) :
    Passes [] (o.stock (t.ledgerOf o.ledger)) (o'.stock (t'.ledgerOf o.ledger)) := by
  cases h with
  | dropped name =>
    rw [← archiveAll_nil o.segment]
    exact restocks_archiveAll hstack (.refl _)
  | archived hplain =>
    next s =>
    have hclosed : s.Follows (closeNow s now).value := by
      rw [show (closeNow s now).value = s.closedAt now from s.closeOr_eq_closedAt now _]
      exact s.follows_closedAt now
    exact restocks_archiveAll hstack (.written (List.Perm.refl _) (List.Subperm.refl _) hclosed)
  | stray hasync hledger =>
    next s =>
    have hsame : Rewrites (s :: (t.ledgerOf o.ledger).deferredSpans)
      ([s] ++ (t.ledgerOf o.ledger).deferredSpans) := .refl _
    exact restocks_archiveAll hstack hsame
  | deferred hasync hledger =>
    next s n =>
    have hledger' : o.ledger = some n := hledger
    rw [ledgerOf_of_ledger hledger', ledgerOf_of_ledger hledger',
      Tracer.ledger_setLedger_self (hbound n hledger')]
    exact restocks_archiveAll hstack ((t.ledger n).rewrites_pop s)

/-- A segment whose stack is empty holds the archived spans. -/
theorem restocks_segment (hlast : o.stack = []) {done : List Span}
    (h : (done ++ led'.deferredSpans).Subperm led.deferredSpans) :
    Passes [] (o.stock led) ((o.segment.archiveAll done).stock led') := by
  refine .still (.moved ?_) fun n hn => by contradiction
  have hown : o.ownSpans = o.segment.spans := by
    unfold ownSpans
    rw [hlast]
    rfl
  show (o.segment.spans ++ done ++ _).Subperm (o.ownSpans ++ _)
  rw [hown, List.append_assoc]
  exact (List.subperm_append_left _).mpr h

/-- What is handed over or parked at the end of a segment has its spans. -/
theorem Ending.restocks {due : Option Segment} (h : Ending o t due t') (hlast : o.stack = [])
    (hparked : (t.ledgerOf o.ledger).parked = none) :
    (∀ g, due = some g → Passes [] (o.stock (t.ledgerOf o.ledger)) (g.stock {})) ∧
    ∀ g, (t'.ledgerOf o.ledger).parked = some g →
      Passes [] (o.stock (t.ledgerOf o.ledger)) (g.stock (t'.ledgerOf o.ledger)) := by
  constructor
  · intro g hg
    obtain rfl := h.handed_eq hg
    apply restocks_segment hlast
    show ((t.ledgerOf o.ledger).completed ++ []).Subperm _
    rw [List.append_nil]
    exact (List.sublist_append_right _ _).subperm
  · intro g hg
    obtain ⟨rfl, hled⟩ := h.parked_eq hparked hg
    rw [hled, ← archiveAll_nil o.segment]
    exact restocks_segment hlast (List.Subperm.refl _)

end OpenSegment

/-! ### Sites -/

namespace Site

/-- **Receipts** of an operation: the active span receives the context that is read. -/
def receipts (s : Site) : StrandOp → List Receipt
  | .extract k =>
    match s.strand.active.bind (·.active?) with
    | some f => f.receipts (s.readCarrier k).value
    | none => []
  | _ => []

/-- The stock of the segment of the strand, which is empty while the strand is idle. -/
def stock (s : Site) (led : Ledger) : Stock :=
  match s.strand.active with
  | some o => o.stock led
  | none => ⟨[], some 0⟩

variable {s s' : Site} {now : UInt64} {led : Ledger}

theorem stock_of_active {o : OpenSegment} (h : s.strand.active = some o) (led : Ledger) :
    s.stock led = o.stock led := by
  rw [stock, h]

theorem stock_of_idle (h : s.strand.active = none) (led : Ledger) : s.stock led = ⟨[], some 0⟩ := by
  rw [stock, h]

theorem stock_of_active_eq (h : s'.strand.active = s.strand.active) (led : Ledger) :
    s'.stock led = s.stock led := by
  rw [stock, stock, h]

/-- A segment begins without spans. -/
theorem stock_segmentFor {s₂ : Site} {o : OpenSegment} {name : String} {inherited : Inherited}
    (h : (s.segmentFor name inherited now).value = (o, s₂))
    (hled : s.strand.active = none → led.deferredSpans = []) : o.stock led = s.stock led := by
  rcases segmentFor_cases h with ⟨hactive, -⟩ | ⟨hidle, rfl, -⟩
  · exact (stock_of_active hactive led).symm
  · obtain ⟨⟨id, sampled, hout⟩, -⟩ := OpenSegment.outline_start s.tracer s.strand.ordinal now name
      inherited s.strand.continuation
    have hstack := List.map_eq_nil_iff.mp (congrArg Outline.frames hout)
    have hspans := congrArg Outline.spans hout
    have hnext := congrArg Outline.nextSpan hout
    rw [stock_of_idle hidle, OpenSegment.stock, OpenSegment.ownSpans, hstack, hled hidle]
    exact congrArg₂ Stock.mk ((List.append_nil _).trans hspans) (congrArg some hnext)

theorem restocks_openSpan (s : Site) (kind : SpanKind) (name : String) (inbound : Inbound)
    (now : UInt64) (hled : s.strand.active = none → led.deferredSpans = []) :
    Passes [] (s.stock led) ((s.openSpan kind name inbound now).value.2.stock led) := by
  obtain ⟨o, s₂, hsegment, hvalue⟩ := s.openSpan_value name now kind inbound
  rw [hvalue]
  rw [← stock_segmentFor hsegment hled]
  exact OpenSegment.restocks_openSpan s₂.tracer.config o kind name now (inheritedFrom inbound).2
    led

theorem restocks_exit (s : Site) (name peer : String) (k : Option Carrier) (now : UInt64)
    (hled : s.strand.active = none → led.deferredSpans = []) :
    Passes [] (s.stock led) ((s.exit name peer k now).value.2.2.stock led) := by
  obtain ⟨o, s₂, hsegment, hvalue⟩ := s.exit_value name now peer k
  rw [hvalue]
  rw [← stock_segmentFor hsegment hled]
  exact OpenSegment.restocks_openExit s₂.tracer.config o name peer k now led

/-- A snapshot is continued without a change to a span. -/
theorem stock_continued (s : Site) (snapshot : Snapshot) (led : Ledger) :
    (s.continued snapshot).value.stock led = s.stock led := by
  have h := s.continued_spec snapshot
  generalize (s.continued snapshot).value = s' at h ⊢
  cases h with
  | invalid hvalid => rfl
  | pending hidle hvalid => exact stock_of_active_eq rfl led
  | ignored hactive id => exact (stock_of_active hactive led).symm
  | own hactive hvalid hown => rfl
  | joined hactive hvalid hother =>
    next o c =>
    rw [stock_of_active hactive]
    exact o.stock_continueFrom c led

theorem restocks_innerWith (s : Site) (name : String) (snapshot : Snapshot) (now : UInt64)
    (hled : s.strand.active = none → led.deferredSpans = []) :
    Passes [] (s.stock led) ((s.innerWith name snapshot now).value.2.stock led) := by
  -- what is discarded before is not in the segment
  have hinner (s₁ : Site) (hactive : s₁.strand.active = s.strand.active) :
      Passes [] (s.stock led)
        (((s₁.continued snapshot).value.openSpan .inner name .absent now).value.2.stock led) := by
    have hopen := (s₁.continued snapshot).value.restocks_openSpan .inner name .absent now
      fun hidle => hled (hactive.symm.trans ((s₁.isActive_continued snapshot).mp hidle))
    rw [stock_continued, stock_of_active_eq hactive] at hopen
    exact hopen
  rw [innerWith_value]
  apply hinner
  split
  · rfl
  · rw [discard_value]

/-- The active span receives what is read while it is open. -/
theorem restocks_receive (now : UInt64) {o : OpenSegment} {f : Frame} {rest : List Frame}
    (hactive : s.strand.active = some o) (hstack : o.stack = f :: rest) (inbound : Inbound)
    (led : Ledger) :
    ∃ step, s.receive inbound now = .ok step ∧
      Passes (f.receipts inbound) (s.stock led) (step.value.stock led) := by
  have hstill : Passes [] (s.stock led) (s.stock led) := .refl _
  cases inbound with
  | absent =>
    rw [receive, active_eq_ok.mpr hactive]
    exact ⟨_, rfl, hstill⟩
  | ignored =>
    rw [receive, active_eq_ok.mpr hactive]
    exact ⟨_, rfl, hstill⟩
  | remote c =>
    obtain ⟨step, hreceive, hvalue⟩ := receive_of_stack hstack c now
    have hpasses : Passes (f.receipts (.remote c)) (o.stock led) (step.value.stock led) := by
      rw [hvalue]
      exact OpenSegment.restocks_received hstack c now led
    rw [← stock_of_active hactive] at hpasses
    exact ⟨_, receive_remote_eq_ok.mpr ⟨o, hactive, _, hreceive, rfl⟩, hpasses⟩

theorem restocks_extract (k : Carrier) (hstack : ∀ o, s.strand.active = some o → o.stack ≠ []) :
    Passes (s.receipts (.extract k)) (s.stock led)
      ((s.step now (.extract k)).value.state.stock led) := by
  show Passes _ _ (Site.stock (Outcome.ofAttempt .usage _).value.state led)
  rw [receipts]
  cases hactive : s.strand.active with
  | none =>
    rw [receive_of_idle hactive]
    exact .refl _
  | some o =>
    obtain ⟨f, rest, hframes⟩ := List.exists_cons_of_ne_nil (hstack o hactive)
    obtain ⟨step, hreceive, hpasses⟩ := restocks_receive now hactive hframes
      (s.readCarrier k).value led
    rw [hreceive, Option.bind_some, OpenSegment.active?, hframes]
    exact hpasses

/-- **A step of a strand** passes the stock of its segment, if no span is stopped or
    prepared. -/
theorem restocks_step (s : Site) (led : Ledger) (now : UInt64) {op : StrandOp}
    (hstop : ∀ expected, op ≠ .stop expected) (hprepare : op ≠ .prepareAsync)
    (hstack : ∀ o, s.strand.active = some o → o.stack ≠ [])
    (hled : s.strand.active = none → led.deferredSpans = []) :
    Passes (s.receipts op) (s.stock led) ((s.step now op).value.state.stock led) := by
  have hsame {s' : Site} (h : s'.strand.active = s.strand.active) :
      Passes [] (s.stock led) (s'.stock led) := by
    rw [stock_of_active_eq h]
    exact .refl _
  cases op with
  | entry name k =>
    have hopen := s.restocks_openSpan .entry name (s.inboundOf k) now hled
    rw [← entry_value] at hopen
    exact hopen
  | entryFrom name headers =>
    have hopen := s.restocks_openSpan .entry name (s.inboundOf (some (.readFrom headers s.label)))
      now hled
    rw [← entry_value] at hopen
    exact hopen
  | exit name peer k => exact s.restocks_exit name peer k now hled
  | inner name => exact s.restocks_openSpan .inner name .absent now hled
  | innerWith name snapshot => exact s.restocks_innerWith name snapshot now hled
  | stop expected => exact absurd rfl (hstop expected)
  | capture => exact hsame rfl
  | continued snapshot =>
    show Passes [] _ ((s.continued snapshot).value.stock led)
    rw [stock_continued]
    exact .refl _
  | discard =>
    show Passes [] _ (s.discard.value.2.stock led)
    rw [discard_value]
    exact hsame rfl
  | inject k =>
    exact hsame (congrArg (·.strand.active) (s.state_inject now k))
  | extract k => exact restocks_extract k hstack
  | active =>
    exact hsame (congrArg (·.strand.active) (s.state_active now))
  | edit edits =>
    refine Outcome.keeps_ofAttempt (P := fun s' => Passes [] (s.stock led) (s'.stock led))
      (s.atomic_edit now edits) (hsame rfl) fun step hresult => ?_
    obtain ⟨o, f, rest, hactive, hframes, hedited⟩ := edit_eq_ok hresult
    show Passes [] _ (step.value.2.2.stock led)
    rw [hedited, stock_of_active hactive]
    exact OpenSegment.restocks_written { o with stack := (f.editAll now edits).value.2 :: rest }
      hframes rfl rfl rfl (f.follows_editAll now edits) led
  | prepareAsync => exact absurd rfl hprepare
  | putCorrelation key value =>
    show Passes [] _ ((s.putCorrelation key value).value.2.stock led)
    unfold putCorrelation
    cases hactive : s.strand.active with
    | none => exact hsame rfl
    | some o =>
      rw [stock_of_active hactive]
      exact o.restocks_putCorrelation s.tracer.config.autoTagKeys key value led
  | scratch op => exact hsame rfl
  | reset =>
    show Passes [] _ ((discard _).value.2.stock led)
    rw [discard_value]
    exact hsame rfl

end Site

/-! ### The stock as an aspect -/

/-- The aspect that shows the stock of a segment. -/
def Stock.aspect : Aspect Stock where
  running := OpenSegment.stock
  ended := Segment.stock
  first := fun _ _ => ⟨[], some 0⟩

/-- **Every step** passes the stock of each segment. -/
theorem Stock.evolves_aspect : aspect.Evolves Site.receipts Passes where
  refl := .refl
  begun := by
    intro s now op o hidle hstop hprepare hafter
    have hpasses := s.restocks_step {} now hstop hprepare
      (fun o ho => by rw [hidle] at ho; contradiction) fun _ => rfl
    rw [Site.stock_of_idle hidle, Site.stock_of_active hafter] at hpasses
    exact hpasses
  stepped := by
    intro s now op o o' led hactive hstack hstop hprepare hafter
    have hpasses := s.restocks_step led now hstop hprepare
      (fun o₁ ho₁ => Option.some.inj (hactive.symm.trans ho₁) ▸ hstack) fun hidle => by
        rw [hactive] at hidle
        contradiction
    rw [Site.stock_of_active hactive, Site.stock_of_active hafter] at hpasses
    exact hpasses
  prepared := Aspect.prepared_of_ok (R := Passes []) .refl OpenSegment.restocks_prepareAsync
  stopped := Aspect.stopped_of_retired (R := Passes []) .refl .before
    OpenSegment.Retired.restocks OpenSegment.Ending.restocks
  handled := by
    intro led id now op
    have hrestocks := led.restocks_handle id now op
    generalize (led.handle id now op).value = after at hrestocks
    obtain ⟨due, led'⟩ := after
    cases hrestocks with
    | kept hparked hspans =>
      refine ⟨fun _ o => o.restocks_of_rewrites hspans, fun g hg => ⟨hparked.symm.trans hg, ?_⟩,
        fun g hg => by contradiction⟩
      exact .still (hspans.append_left g.spans) fun n hn => by contradiction
    -- the segment was parked, and goes with the spans that waited for it
    | handed hparked hempty hspans =>
      next g done =>
      refine ⟨fun hidle => ?_, fun g' hg' => ?_, fun g' hg' => ⟨g, hparked, ?_⟩⟩
      · rw [hidle] at hparked
        contradiction
      · rw [show led'.parked = some g' from hg'] at hempty
        contradiction
      · obtain rfl := Option.some.inj hg'
        refine .still ?_ fun n hn => by contradiction
        show Rewrites (g.spans ++ _) (g.spans ++ done ++ [])
        rw [List.append_nil]
        exact hspans.append_left g.spans

end TraceLink
