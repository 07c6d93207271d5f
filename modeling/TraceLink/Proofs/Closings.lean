import TraceLink.Proofs.ClosedSpans

/-! # Closings

    A span closes when it is stopped, or when its handle finishes if that is later. A
    closing of the second kind is *late*: its span waits in the ledger and joins the
    segment at the end, behind all spans that were closed by their stop.

    The listing of a segment says this of its archive and its ledger. Each operation of
    the strand and of the handles keeps it, with the closing that the operation is. -/

namespace TraceLink

open Ledger (heldIn)

/-- **Closing** of a span. -/
structure Closing where
  span : Nat
  /-- The handle of the span finished after the span was stopped. -/
  late : Bool
  deriving Repr, DecidableEq

namespace Closing

/-- The spans that were closed by their stop, in order. -/
def prompt (cs : List Closing) : List Nat := (cs.filter fun c => !c.late).map (·.span)

/-- The spans that were closed late, in order. -/
def belated (cs : List Closing) : List Nat := (cs.filter (·.late)).map (·.span)

variable {cs : List Closing} {id : Nat}

@[simp] theorem prompt_append (cs ds : List Closing) :
    prompt (cs ++ ds) = prompt cs ++ prompt ds := by
  rw [prompt, List.filter_append, List.map_append, prompt, prompt]

@[simp] theorem belated_append (cs ds : List Closing) :
    belated (cs ++ ds) = belated cs ++ belated ds := by
  rw [belated, List.filter_append, List.map_append, belated, belated]

theorem prompt_eq_nil_iff : prompt cs = [] ↔ ∀ c ∈ cs, c.late = true := by
  simp [prompt]

theorem belated_of_all (h : ∀ c ∈ cs, c.late = true) : belated cs = cs.map (·.span) := by
  rw [belated, List.filter_eq_self.mpr h]

/-- The prompt closings followed by the late ones are in the order of closing exactly if
    no late closing comes before a prompt one. -/
theorem prompt_append_belated_eq_iff (hnodup : (prompt cs ++ belated cs).Nodup) :
    prompt cs ++ belated cs = cs.map (·.span) ↔
      cs.Pairwise fun c d => c.late = true → d.late = true := by
  induction cs with
  | nil => simp [prompt, belated]
  | cons c cs ih =>
    rw [List.pairwise_cons]
    cases hlate : c.late with
    | false =>
      have hprompt : prompt (c :: cs) = c.span :: prompt cs := by simp [prompt, hlate]
      have hbelated : belated (c :: cs) = belated cs := by simp [belated, hlate]
      rw [hprompt, hbelated, List.cons_append, List.nodup_cons] at hnodup
      rw [hprompt, hbelated, List.cons_append, List.map_cons, List.cons_inj_right, ih hnodup.2]
      simp
    | true =>
      have hprompt : prompt (c :: cs) = prompt cs := by simp [prompt, hlate]
      have hbelated : belated (c :: cs) = c.span :: belated cs := by simp [belated, hlate]
      rw [hprompt, hbelated] at hnodup ⊢
      constructor
      · intro heq
        -- a prompt closing would stand first, and so be the late one
        have hnone : prompt cs = [] := by
          cases hcons : prompt cs with
          | nil => rfl
          | cons id ids =>
            rw [hcons, List.map_cons] at heq
            obtain ⟨rfl, -⟩ := List.cons.inj heq
            rw [hcons, List.cons_append, List.nodup_cons] at hnodup
            exact absurd (List.mem_append_right _ List.mem_cons_self) hnodup.1
        have hall := prompt_eq_nil_iff.mp hnone
        exact ⟨fun d hd _ => hall d hd,
          List.pairwise_of_forall_mem_list fun _ _ d hd _ => hall d hd⟩
      · rintro ⟨hall, -⟩
        have hall : ∀ d ∈ cs, d.late = true := fun d hd => hall d hd rfl
        rw [prompt_eq_nil_iff.mpr hall, belated_of_all hall]
        rfl

end Closing

open Closing (prompt belated)

/-! ### Closings of a life -/

/-- Whether a handle of the span with this id is awaited can be told from the handles. -/
theorem Life.awaits_iff_exists_mem (l : Life) (id : Nat) :
    l.Awaits id ↔ ∃ a ∈ l.handles, a ∉ l.finished ∧ a.id = id := by
  constructor
  · rintro ⟨n, hmem, hopen⟩
    exact ⟨_, hmem, hopen, rfl⟩
  · rintro ⟨a, hmem, hopen, hid⟩
    cases a with
    | idle => exact absurd hid (by simp only [AsyncHandle.id]; omega)
    | span n id' =>
      obtain rfl := Int.ofNat.inj hid
      exact ⟨n, hmem, hopen⟩

instance (l : Life) (id : Nat) : Decidable (l.Awaits id) :=
  decidable_of_iff _ (l.awaits_iff_exists_mem id).symm

/-- The recorded span that an operation takes off the stack, as its reply tells. -/
def OpenSegment.taken? (o : OpenSegment) : StrandOp → Reply → Option Span
  | .stop _, .flag _ => o.active?.bind Frame.span?
  | _, _ => none

/-- The closing of a span that is taken off the stack, unless its handle is awaited. -/
def Life.closing? (l : Life) (s : Span) : Option Closing :=
  if l.Awaits s.id then none else some ⟨s.id, false⟩

theorem OpenSegment.taken?_of_ne (o : OpenSegment) {op : StrandOp}
    (hstop : ∀ expected, op ≠ .stop expected) (reply : Reply) : o.taken? op reply = none := by
  unfold taken?
  split
  · exact absurd rfl (hstop _)
  · rfl

theorem OpenSegment.taken?_usage (o : OpenSegment) (op : StrandOp) (e : UsageError) :
    o.taken? op (.usage e) = none := by
  cases op <;> rfl

theorem OpenSegment.taken?_of_cons {o : OpenSegment} {f : Frame} {rest : List Frame}
    (hstack : o.stack = f :: rest) (expected : Option Int) (b : Bool) :
    o.taken? (.stop expected) (.flag b) = f.span? := by
  rw [taken?, active?, hstack]
  rfl

/-! ### Listings -/

/-- The ids of the recorded spans on the stack. -/
def Outline.openIds (x : Outline) : List Nat := x.marks.map (·.origin.id)

/-- **Listing** of a segment: the archive has the spans that were closed by their stop, and
    the ledger those that were closed late. A record is without its span as long as the span
    is on the stack. -/
structure Listed (archive : List Span) (openIds : List Nat) (led : Ledger) (cs : List Closing) :
    Prop where
  archived : archive.map Span.id = prompt cs
  completed : led.completed.map Span.id = belated cs
  left : ∀ id d, led.records.get? id = some d → d.span = none → id ∈ openIds

namespace Listed

variable {capacity : Nat} {archive : List Span} {id : Nat} {ids ids' : List Nat}
  {led led' : Ledger} {cs : List Closing} {l : Life} {x : Outline} {s : Span} {d : Deferral}

theorem nil (ids : List Nat) : Listed [] ids {} [] :=
  ⟨rfl, rfl, fun _ _ hget => by contradiction⟩

theorem mono (h : Listed archive ids led cs) (hsub : ids ⊆ ids') : Listed archive ids' led cs :=
  ⟨h.archived, h.completed, fun id d hget hspan => hsub (h.left id d hget hspan)⟩

/-- A segment whose ledger holds nothing more lists all its closings. -/
theorem all_closed (h : Listed archive ids led cs) :
    (archive ++ led.completed).map Span.id = prompt cs ++ belated cs := by
  rw [List.map_append, h.archived, h.completed]

/-- Parking a segment does not touch its listing. -/
theorem parked (h : Listed archive ids led cs) (g : Option Segment) :
    Listed archive ids { led with parked := g } cs := ⟨h.archived, h.completed, h.left⟩

/-- A span that is opened. -/
theorem opened (h : Listed x.spans x.openIds led cs) (capacity : Nat) (kind : SpanKind)
    (now : UInt64) :
    Listed (x.opened capacity kind now).spans (x.opened capacity kind now).openIds led cs := by
  unfold Outline.opened
  split
  · exact h
  · split
    · exact h
    · exact h.mono fun id hid => List.mem_cons_of_mem _ hid

/-- The active span is prepared. -/
theorem prepared (h : Listed archive ids led cs) {id : Nat} (hid : id ∈ ids) :
    Listed archive ids (led.prepare id) cs := by
  refine ⟨h.archived, h.completed, fun id' d hget hspan => ?_⟩
  rw [Ledger.prepare, Entries.get?_put] at hget
  split at hget
  · next heq => exact heq ▸ hid
  · exact h.left id' d hget hspan

/-- A span is taken off the stack and closed by this. -/
theorem stopped (h : Listed archive (id :: ids) led cs) (hid : s.id = id)
    (hcompleted : led'.completed = led.completed)
    (hleft : ∀ id' d, led'.records.get? id' = some d → d.span = none →
      id' ≠ id ∧ led.records.get? id' = some d) :
    Listed (archive ++ [s]) ids led' (cs ++ [⟨id, false⟩]) where
  archived := by
    rw [Closing.prompt_append, List.map_append, h.archived, List.map_singleton, hid]
    rfl
  completed := by
    rw [Closing.belated_append, hcompleted, h.completed]
    exact (List.append_nil _).symm
  left := by
    intro id' d hget hspan
    obtain ⟨hne, hold⟩ := hleft id' d hget hspan
    exact List.mem_of_ne_of_mem hne (h.left id' d hold hspan)

/-- A plain span is closed by its stop. -/
theorem stopped_plain (h : Listed archive (s.id :: ids) led cs)
    (hknown : ∀ id, (led.records.get? id).isSome → l.Prepared id) (hnew : ¬ l.Prepared s.id)
    {s' : Span} (hid : s'.id = s.id) :
    Listed (archive ++ [s']) ids led (cs ++ (l.closing? s).toList) := by
  have hclosing : l.closing? s = some ⟨s.id, false⟩ := by
    refine if_neg ?_
    rintro ⟨n, hmem, -⟩
    exact hnew ⟨n, hmem⟩
  rw [hclosing]
  refine h.stopped hid rfl fun id' d hget _ => ⟨?_, hget⟩
  rintro rfl
  exact hnew (hknown _ (Option.isSome_iff_exists.mpr ⟨d, hget⟩))

/-- An async span is closed by its stop if its handle has finished. Else it waits in its
    record. -/
theorem stopped_async (h : Listed archive (s.id :: ids) led cs) (hw : led.WellKept)
    (hget : led.records.get? s.id = some d)
    (hawaits : (led.open? s.id).isSome ↔ l.Awaits s.id) :
    Listed (archive ++ (led.pop s).value.1.toList) ids (led.pop s).value.2
      (cs ++ (l.closing? s).toList) := by
  unfold Life.closing?
  cases hstop : d.stop with
  | some time =>
    have hpop : (led.pop s).value = (some (d.applyTo s time).value,
        { led with records := Entries.erase s.id led.records }) := by
      simp only [Ledger.pop, hget, hstop, Logged.bind_value, Logged.pure_value]
    have hnone : ¬ l.Awaits s.id := by
      rw [← hawaits, Ledger.open?_isSome_iff]
      rintro ⟨d', hget', hopen⟩
      obtain rfl := Option.some.inj (hget.symm.trans hget')
      rw [hstop] at hopen
      contradiction
    -- the record goes, and the span is archived
    rw [hpop, if_neg hnone]
    refine h.stopped (congrArg Origin.id (d.applyTo_value s time).1) rfl fun id' d' hget' _ => ?_
    have hne : id' ≠ s.id := by
      rintro rfl
      rw [Entries.get?_erase_self hw.keys] at hget'
      contradiction
    exact ⟨hne, (Entries.get?_erase_of_ne _ hne.symm).symm.trans hget'⟩
  | none =>
    have hpop : (led.pop s).value =
        (none, { led with records := Entries.put s.id { d with span := some s } led.records }) := by
      simp only [Ledger.pop, hget, hstop, Logged.pure_value]
    -- the record keeps the span, which is no closing yet
    rw [hpop, if_pos (hawaits.mp ((Ledger.open?_isSome_iff _ _).mpr ⟨d, hget, hstop⟩))]
    simp only [Option.toList_none, List.append_nil]
    refine ⟨h.archived, h.completed, fun id' d' hget' hspan' => ?_⟩
    rw [Entries.get?_put] at hget'
    split at hget'
    · obtain rfl := Option.some.inj hget'
      contradiction
    · next hne => exact List.mem_of_ne_of_mem (Ne.symm hne) (h.left id' d' hget' hspan')

/-- What a handle notes before it finishes. -/
theorem updated (h : Listed archive ids led cs) (hupdated : Ledger.Updated led led') :
    Listed archive ids led' cs := by
  refine ⟨h.archived, hupdated.completed ▸ h.completed, fun id d hget hspan => ?_⟩
  have hsame := hupdated.get? id
  rw [hget, Option.map_some, hspan] at hsame
  obtain ⟨d', hget', hspan'⟩ := Option.map_eq_some_iff.mp hsame.symm
  exact h.left id d' hget' hspan'

/-- A handle finishes. If the span was stopped before it is closed by this, else the end
    is noted in the record. -/
theorem finished (h : Listed archive ids led cs) (hw : led.WellKept)
    (hopen : led.open? id = some d) (hheld : d.span.isSome → id ∉ ids) (time : UInt64) :
    ∃ led', (led.finish id time).value = led'.release ∧ led'.parked = led.parked ∧
      Listed archive ids led' (cs ++ if id ∈ ids then [] else [⟨id, true⟩]) := by
  obtain ⟨hget, hstop⟩ := Ledger.open?_eq_some_iff.mp hopen
  cases hspan : d.span with
  | some s =>
    have hid : s.id = id := (hw.held id d s hget hspan).1
    have horigin := (d.applyTo_value s time).1
    -- the record held the span, so it was stopped before and closes late
    rw [if_neg (hheld (hspan ▸ rfl))]
    refine ⟨{ led with
      records := Entries.erase id led.records
      completed := led.completed ++ [(d.applyTo s time).value]
      pending := led.pending - 1 }, ?_, rfl, ?_, ?_, fun id' d' hget' hspan' => ?_⟩
    · simp only [Ledger.finish, hopen, hspan, Logged.bind_value, Logged.pure_value]
    · rw [Closing.prompt_append, h.archived]
      exact (List.append_nil _).symm
    · have hlast : (d.applyTo s time).value.id = id := (congrArg Origin.id horigin).trans hid
      rw [Closing.belated_append, List.map_append, h.completed, List.map_singleton, hlast]
      rfl
    · by_cases hne : id = id'
      · subst hne
        rw [Entries.get?_erase_self hw.keys] at hget'
        contradiction
      · rw [Entries.get?_erase_of_ne _ hne] at hget'
        exact h.left id' d' hget' hspan'
  | none =>
    -- the span is on the stack, and its stop will close it
    rw [if_pos (h.left id d hget hspan), List.append_nil]
    refine ⟨{ led with
      records := Entries.put id { d with stop := some time } led.records
      pending := led.pending - 1 }, ?_, rfl, h.archived, h.completed,
      fun id' d' hget' hspan' => ?_⟩
    · simp only [Ledger.finish, hopen, hspan, Logged.pure_value]
    · rw [Entries.get?_put] at hget'
      split at hget'
      · next heq => exact heq ▸ h.left id d hget hspan
      · exact h.left id' d' hget' hspan'

end Listed

/-! ### Open segments -/

namespace Custody

variable {capacity : Nat} {x : Outline} {led : Ledger} {l : Life}

/-- A span that a record holds is not on the stack. -/
theorem not_mem_openIds (h : Custody capacity x led l) {id : Nat} {d : Deferral}
    (hget : led.records.get? id = some d) (hspan : d.span.isSome) : id ∉ x.openIds := by
  obtain ⟨s, hs⟩ := Option.isSome_iff_exists.mp hspan
  have hid : s.id = id := (h.wellKept.held id d s hget hs).1
  have hheld : s ∈ heldIn led.records :=
    List.mem_filterMap.mpr ⟨(id, d), Entries.mem_of_get? hget, hs⟩
  have hnodup := h.nodup_ids
  rw [Outline.origins, List.map_append, List.nodup_append] at hnodup
  intro hmem
  obtain ⟨m, hm, hmid⟩ := List.mem_map.mp hmem
  refine hnodup.2.2 m.origin.id ?_ s.origin.id ?_ (hmid.trans hid.symm)
  · exact List.mem_map_of_mem (List.mem_map_of_mem hm)
  · refine List.mem_map_of_mem (List.mem_map_of_mem ?_)
    exact List.mem_append_left _ (List.mem_append_right _ hheld)

end Custody

namespace OpenSegment

variable {capacity : Nat} {cs : List Closing} {l : Life}

/-- The id of the active span stands first, if it is recorded. -/
theorem openIds_of_stack {o : OpenSegment} {f : Frame} {rest : List Frame}
    (hstack : o.stack = f :: rest) :
    o.outline.openIds = (f.span?.map Span.id).toList ++
      Outline.openIds { o.outline with frames := rest.map Frame.mark } := by
  unfold Outline.openIds Outline.marks
  rw [frames_of_stack hstack]
  cases f with
  | recorded s => rfl
  | placeholder name => rfl

theorem openIds_of_empty {o : OpenSegment} (hstack : o.stack = []) : o.outline.openIds = [] := by
  unfold Outline.openIds Outline.marks outline
  rw [hstack]
  rfl

theorem mem_openIds_iff (o : OpenSegment) (id : Nat) :
    id ∈ o.outline.openIds ↔ (o.openSpan? id).isSome := by
  have hids : o.outline.openIds = (o.stack.filterMap Frame.span?).map Span.id := by
    unfold Outline.openIds Outline.marks outline
    simp only
    induction o.stack with
    | nil => rfl
    | cons f rest ih =>
      cases f with
      | recorded s => exact congrArg (_ :: ·) ih
      | placeholder name => exact ih
  rw [hids, openSpan?, List.find?_isSome]
  simp

/-- As long as it is sampled, the open segment lists its closings. -/
def Lists (o : OpenSegment) (t : Tracer) (cs : List Closing) : Prop :=
  o.sampled = true → Listed o.outline.spans o.outline.openIds (t.ledgerOf o.ledger) cs

/-- **Retiring** a span keeps the listing, with the closing that it is. -/
theorem Retired.listed {o o₁ o' : OpenSegment} {t t' : Tracer} {expected : Option Int}
    {f : Frame} {now : UInt64} (h : Retired o₁ t now f o' t')
    (hpop : o.pop expected = .ok (f, o₁)) (hbound : ∀ n, o.ledger = some n → n < t.ledgers.length)
    (hcustody : Custody capacity o.outline (t.ledgerOf o.ledger) l)
    (hlisted : Listed o.outline.spans o.outline.openIds (t.ledgerOf o.ledger) cs) :
    Listed o'.outline.spans o'.outline.openIds (t'.ledgerOf o.ledger)
      (cs ++ (f.span?.bind l.closing?).toList) := by
  obtain ⟨rest, hstack, rfl, -⟩ := pop_eq_ok hpop
  rw [openIds_of_stack hstack] at hlisted
  cases h with
  | dropped name =>
    simp only [Frame.span?, Option.bind_none, Option.toList_none, List.append_nil]
    exact hlisted
  | archived hplain =>
    next s =>
    exact hlisted.stopped_plain hcustody.known (hcustody.plain _ (mark_mem_marks hstack) hplain)
      (congrArg Origin.id (closeNow_value s now).1)
  | stray hasync hledger =>
    next s =>
    -- an async span has a record, and without a ledger there is none
    obtain ⟨d, hget, -⟩ := hcustody.async _ (mark_mem_marks hstack) hasync
    rw [show o.ledger = none from hledger] at hget
    contradiction
  | deferred hasync hledger =>
    next s n =>
    have hledger' : o.ledger = some n := hledger
    rw [ledgerOf_of_ledger hledger'] at hcustody hlisted ⊢
    rw [Tracer.ledger_setLedger_self (hbound n hledger')]
    obtain ⟨d, hget, -⟩ := hcustody.async _ (mark_mem_marks hstack) hasync
    exact hlisted.stopped_async hcustody.wellKept hget (hcustody.awaits s.id)

theorem Preparing.sampled {o o' : OpenSegment} {t t' : Tracer} {a : AsyncHandle}
    (h : Preparing o t a o' t') : o'.sampled = o.sampled := by
  cases h with
  | idle => rfl
  | recorded => rfl

/-- **Preparing** a span keeps the listing. -/
theorem Preparing.listed {o o' : OpenSegment} {t t' : Tracer} {a : AsyncHandle}
    (h : Preparing o t a o' t')
    (hlisted : Listed o.outline.spans o.outline.openIds (t.ledgerOf o.ledger) cs) :
    Listed o'.outline.spans o'.outline.openIds (t'.ledgerOf o'.ledger) cs := by
  cases h with
  | idle => exact hlisted
  | recorded hstack hplain hledger hlt hspares hprepare =>
    next s rest n =>
    have hids := openIds_of_stack hstack
    have hmem : s.id ∈ o.outline.openIds := hids ▸ List.mem_cons_self
    have hprepared := hlisted.prepared hmem
    rw [← hprepare, hids] at hprepared
    exact hprepared

/-- **Ending** a segment hands over all that it lists, or parks it with its listing. -/
theorem Ending.listed {o : OpenSegment} {t t' : Tracer} {due : Option Segment}
    (h : Ending o t due t') (hparked : (t.ledgerOf o.ledger).parked = none)
    (hlisted : o.sampled = true → Listed o.outline.spans [] (t.ledgerOf o.ledger) cs) :
    (∀ g, due = some g → g.spans.map Span.id = prompt cs ++ belated cs) ∧
    ∀ g, (t'.ledgerOf o.ledger).parked = some g →
      Listed g.spans [] (t'.ledgerOf o.ledger) cs := by
  cases h with
  | ignored hignored hconfig hledgers =>
    refine ⟨fun g hg => by contradiction, fun g hg => ?_⟩
    rw [Tracer.ledgerOf_congr hledgers, hparked] at hg
    contradiction
  | plain hsampled hledger hconfig hledgers =>
    have hall := (hlisted hsampled).all_closed
    rw [Tracer.ledgerOf_congr hledgers, hparked]
    rw [hledger] at hall
    refine ⟨fun g hg => ?_, fun g hg => by contradiction⟩
    obtain rfl := Option.some.inj hg
    rw [← hall]
    exact congrArg (List.map _) (List.append_nil _).symm
  | settled hsampled hledger hpending hspares hafter =>
    next n =>
    have hall := (hlisted hsampled).all_closed
    rw [ledgerOf_of_ledger hledger] at hall hparked ⊢
    refine ⟨fun g hg => ?_, fun g hg => ?_⟩
    · obtain rfl := Option.some.inj hg
      exact hall
    · rw [hafter] at hg
      exact absurd (hparked.symm.trans hg) (by simp)
  | parked hsampled hledger hpending hspares hafter =>
    next n =>
    have hsame := (hlisted hsampled).parked (some o.segment)
    rw [ledgerOf_of_ledger hledger] at hsame ⊢
    rw [← hafter] at hsame
    refine ⟨fun g hg => by contradiction, fun g hg => ?_⟩
    rw [hafter] at hg
    obtain rfl := Option.some.inj hg
    exact hsame

end OpenSegment

end TraceLink
