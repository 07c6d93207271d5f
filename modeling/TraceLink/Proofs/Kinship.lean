import TraceLink.Proofs.Bearings
import TraceLink.Proofs.Contents
import TraceLink.Proofs.Endpoints

/-! # Kinship of a segment

    What ties a segment to others: its trace, its parent, and the parents that its
    recorded spans refer to, wherever these spans are.

    The kinship of a segment *passes* in few ways. What is done to the spans leaves it as
    it is, or loses a span. A new span gets the next id and the reference that is pending.
    And a context from outside that is applied to the segment is joined: its reference is
    taken as the parent, and its trace with it, if there is no parent yet. -/

namespace TraceLink

open Ledger (heldIn)

/-! ### Badges -/

/-- **Badge** of a span: its id, and the parent that it refers to. -/
def Span.badge (s : Span) : Nat × Option ParentRef := (s.id, s.ref)

/-- The badge of a frame, none for a placeholder. -/
def Frame.badge? (f : Frame) : Option (Nat × Option ParentRef) := f.span?.map Span.badge

namespace Span

theorem badge_whileOpen (action : String) {change : Span → Span}
    (h : ∀ s, (change s).badge = s.badge) (s : Span) :
    (whileOpen action change s).value.badge = s.badge := whileOpen_congr badge action h s

theorem badge_tag (key value : String) (s : Span) : (s.tag key value).value.badge = s.badge := by
  apply badge_whileOpen
  intro s
  rfl

theorem badge_setPeer (peer : String) (s : Span) : (s.setPeer peer).value.badge = s.badge := by
  apply setPeer_congr badge
  intro s
  rfl

/-- No edit gives a span another reference. -/
theorem badge_edit (now : UInt64) (s : Span) (e : Edit) :
    (s.edit now e).value.2.badge = s.badge := by
  cases e with
  | setPeer peer => exact badge_setPeer peer s
  | close time =>
    simp only [edit]
    cases h : s.close time with
    | ok s' => rw [close_eq_ok h]; rfl
    | error x => rw [(close_eq_error h).2]; rfl
  | tagValue key => rfl
  | _ =>
    apply badge_whileOpen
    intro s
    rfl

theorem badge_closedAt (s : Span) (time : UInt64) : (s.closedAt time).badge = s.badge := by
  unfold closedAt
  split
  · rfl
  · rfl

end Span

theorem Deferral.badge_applyTo (d : Deferral) (s : Span) (time : UInt64) :
    (d.applyTo s time).value.badge = s.badge := by
  rw [applyTo_eq]
  split
  · rfl
  · rfl

namespace Frame

theorem badge?_modify {change : Span → Logged Span} (h : ∀ s, (change s).value.badge = s.badge)
    (f : Frame) : (f.modify change).value.badge? = f.badge? := modify_congr Span.badge h f

theorem badge?_editAll (now : UInt64) (f : Frame) (edits : List Edit) :
    (f.editAll now edits).value.2.badge? = f.badge? := by
  induction edits generalizing f with
  | nil => rfl
  | cons e edits ih =>
    refine (ih _).trans ?_
    cases f with
    | recorded s => exact congrArg some (s.badge_edit now e)
    | placeholder name => rfl

end Frame

/-- The badges of the spans that the segment itself holds. -/
def OpenSegment.badges (o : OpenSegment) : List (Nat × Option ParentRef) :=
  o.ownSpans.map Span.badge

/-- The badges of the spans that were left to their handles. -/
def Ledger.badges (l : Ledger) : List (Nat × Option ParentRef) := l.deferredSpans.map Span.badge

namespace OpenSegment

theorem badge?_autoTag (o : OpenSegment) (keys : List String) (f : Frame) :
    (o.autoTag keys f).value.badge? = f.badge? := autoTag_congr Span.badge Span.badge_tag o keys f

theorem badges_push (o : OpenSegment) (f : Frame) :
    (o.push f).badges = f.badge?.toList ++ o.badges := by
  cases f <;> rfl

theorem badges_of_stack {o : OpenSegment} {f : Frame} {rest : List Frame}
    (h : o.stack = f :: rest) :
    o.badges = f.badge?.toList ++ OpenSegment.badges { o with stack := rest } := by
  rw [← badges_push, push, ← h]

end OpenSegment

namespace Ledger

theorem mem_heldIn_put {rs : Entries Nat Deferral} {id : Nat} {d : Deferral} {s : Span}
    (h : s ∈ heldIn (rs.put id d)) : s ∈ heldIn rs ∨ d.span = some s := by
  obtain ⟨e, he, hspan⟩ := List.mem_filterMap.mp h
  rcases Entries.mem_put he with hold | rfl
  · exact .inl (List.mem_filterMap.mpr ⟨e, hold, hspan⟩)
  · exact .inr hspan

theorem mem_heldIn_erase {rs : Entries Nat Deferral} {id : Nat} {s : Span}
    (h : s ∈ heldIn (rs.erase id)) : s ∈ heldIn rs := by
  obtain ⟨e, he, hspan⟩ := List.mem_filterMap.mp h
  exact List.mem_filterMap.mpr ⟨e, Entries.mem_of_mem_erase he, hspan⟩

theorem mem_heldIn_of_get? {rs : Entries Nat Deferral} {id : Nat} {d : Deferral} {s : Span}
    (hget : rs.get? id = some d) (hspan : d.span = some s) : s ∈ heldIn rs :=
  List.mem_filterMap.mpr ⟨_, Entries.mem_of_get? hget, hspan⟩

theorem mem_badges {l : Ledger} {b : Nat × Option ParentRef} :
    b ∈ l.badges ↔ ∃ s, (s ∈ heldIn l.records ∨ s ∈ l.completed) ∧ s.badge = b := by
  simp only [badges, deferredSpans, List.mem_map, List.mem_append]

/-- No span of the ledger is new, up to what is written into it. -/
theorem badges_subset {l l' : Ledger} (hheld : ∀ s ∈ heldIn l'.records, s ∈ heldIn l.records)
    (hcompleted : ∀ s ∈ l'.completed, s.badge ∈ l.badges) : l'.badges ⊆ l.badges := by
  intro b hb
  obtain ⟨s, hs | hs, rfl⟩ := mem_badges.mp hb
  · exact mem_badges.mpr ⟨s, .inl (hheld s hs), rfl⟩
  · exact hcompleted s hs

theorem badge_mem_of_completed {l : Ledger} {s : Span} (h : s ∈ l.completed) :
    s.badge ∈ l.badges := mem_badges.mpr ⟨s, .inr h, rfl⟩

theorem badges_prepare (l : Ledger) (id : Nat) : (l.prepare id).badges ⊆ l.badges := by
  refine badges_subset (fun s hs => ?_) fun s hs => badge_mem_of_completed hs
  -- a record begins without a span
  exact (mem_heldIn_put hs).resolve_right (by simp)

/-- What the strand takes off its stack is given back, or goes into the ledger. -/
theorem badges_pop (l : Ledger) (s : Span) :
    ∀ b ∈ (l.pop s).value.1.toList.map Span.badge ++ (l.pop s).value.2.badges,
      b = s.badge ∨ b ∈ l.badges := by
  unfold pop
  split
  · intro b hb
    simpa using hb
  · next d hget =>
    split
    · next time hstop =>
      intro b hb
      rcases List.mem_append.mp hb with hdone | hleft
      · left
        rw [← d.badge_applyTo s time]
        simpa using hdone
      · obtain ⟨s', hs' | hs', rfl⟩ := mem_badges.mp hleft
        · exact .inr (mem_badges.mpr ⟨s', .inl (mem_heldIn_erase hs'), rfl⟩)
        · exact .inr (badge_mem_of_completed hs')
    · intro b hb
      obtain ⟨s', hs' | hs', rfl⟩ := mem_badges.mp hb
      · rcases mem_heldIn_put hs' with hold | hnew
        · exact .inr (mem_badges.mpr ⟨s', .inl hold, rfl⟩)
        · exact .inl (congrArg Span.badge (Option.some.inj hnew).symm)
      · exact .inr (badge_mem_of_completed hs')

theorem badges_update (l : Ledger) (id : Nat) {change : Deferral → Deferral}
    (h : ∀ d, (change d).span = d.span) : (l.update id change).badges ⊆ l.badges := by
  unfold update
  split
  · next d hopen =>
    refine badges_subset (fun s hs => ?_) fun s hs => badge_mem_of_completed hs
    rcases mem_heldIn_put hs with hold | hnew
    · exact hold
    · exact mem_heldIn_of_get? (open?_eq_some_iff.mp hopen).1 ((h d).symm.trans hnew)
  · exact List.Subset.refl _

/-- **Relayed**: what an operation of a handle does to the spans of a ledger. It leaves
    them there, or they go with the segment that was parked. -/
inductive Relayed (l : Ledger) : Option Segment → Ledger → Prop where
  | kept {l' : Ledger} (hparked : l'.parked = l.parked) (hbadges : l'.badges ⊆ l.badges) :
      Relayed l none l'
  | handed {l' : Ledger} {g : Segment} {done : List Span} (hparked : l.parked = some g)
      (hempty : l'.parked = none) (hdone : done.map Span.badge ⊆ l.badges)
      (hbadges : l'.badges ⊆ l.badges) : Relayed l (some (g.archiveAll done)) l'

theorem Relayed.badges {l l' : Ledger} {due : Option Segment} (h : Relayed l due l') :
    l'.badges ⊆ l.badges := by
  cases h with
  | kept _ hbadges => exact hbadges
  | handed _ _ _ hbadges => exact hbadges

/-- The ledger after a handle has finished, before it is released. -/
theorem relayed_release {l l₁ : Ledger} (hparked : l₁.parked = l.parked)
    (hbadges : l₁.badges ⊆ l.badges) : Relayed l l₁.release.1 l₁.release.2 := by
  unfold release
  split
  · next g hg =>
    split
    · refine .handed (hparked.symm.trans hg) rfl (fun b hb => hbadges ?_) ?_
      · obtain ⟨s, hs, rfl⟩ := List.mem_map.mp hb
        exact badge_mem_of_completed hs
      · refine List.Subset.trans (badges_subset (l := l₁) (fun s hs => hs) fun s hs => ?_) hbadges
        contradiction
    · exact .kept hparked hbadges
  · exact .kept hparked hbadges

theorem relayed_handle (l : Ledger) (id : Nat) (now : UInt64) (op : HandleOp) :
    Relayed l (l.handle id now op).value.1 (l.handle id now op).value.2 := by
  have hsame : Relayed l none l := .kept rfl (List.Subset.refl _)
  cases op with
  | tag key value => exact .kept (parked_update ..) (l.badges_update id fun _ => rfl)
  | log event => exact .kept (parked_update ..) (l.badges_update id fun _ => rfl)
  | markFailed => exact .kept (parked_update ..) (l.badges_update id fun _ => rfl)
  | finish time =>
    simp only [handle, finish]
    split
    · exact hsame
    · next d hopen =>
      have hget := (open?_eq_some_iff.mp hopen).1
      split
      -- the span is held in the record, and is completed now
      · next s hspan =>
        refine relayed_release rfl (badges_subset (fun _ => mem_heldIn_erase) fun s' hs' => ?_)
        rcases List.mem_append.mp hs' with hold | hlast
        · exact badge_mem_of_completed hold
        · rw [List.mem_singleton.mp hlast]
          exact mem_badges.mpr ⟨s, .inl (mem_heldIn_of_get? hget hspan),
            (d.badge_applyTo s _).symm⟩
      · next hspan =>
        refine relayed_release rfl (badges_subset (fun s' hs' => ?_)
          fun s' hs' => badge_mem_of_completed hs')
        refine (mem_heldIn_put hs').resolve_right fun hnew => ?_
        rw [show d.span = some s' from hnew] at hspan
        contradiction

end Ledger

/-! ### Kinship -/

/-- **Kinship** of a segment. -/
structure Kinship where
  trace : String
  parent : Option ParentRef
  /-- The reference that the next recorded span gets. -/
  pendingRef : Option ParentRef
  /-- A span was recorded. -/
  begun : Bool
  badges : List (Nat × Option ParentRef)

/-- The kinship of an open segment with its ledger. -/
def OpenSegment.kinship (o : OpenSegment) (led : Ledger) : Kinship where
  trace := o.segment.trace
  parent := o.segment.parent
  pendingRef := o.pendingRef
  begun := decide (0 < o.nextSpan)
  badges := o.badges ++ led.badges

/-- The kinship of a segment that is not open any more, with the ledger that it waits in. -/
def Segment.kinship (g : Segment) (led : Ledger) : Kinship where
  trace := g.trace
  parent := g.parent
  pendingRef := none
  begun := true
  badges := g.spans.map Span.badge ++ led.badges

namespace Kinship

/-- The kinship of a segment that begins. -/
def new (trace : String) : Kinship := ⟨trace, none, none, false, []⟩

/-- **Passing** of kinship while the contexts with these references are applied to the
    segment, in this order. -/
inductive Passes : List ParentRef → Kinship → Kinship → Prop where
  /-- Spans are edited, moved or lost. -/
  | still {κ κ' : Kinship} (htrace : κ'.trace = κ.trace) (hparent : κ'.parent = κ.parent)
      (hpending : ∀ ref, κ'.pendingRef = some ref → κ.pendingRef = some ref)
      (hbegun : κ.begun → κ'.begun) (hbadges : κ'.badges ⊆ κ.badges) : Passes [] κ κ'
  /-- A span is recorded, under an id that is not that of the first one. -/
  | opened {κ : Kinship} {id : Nat} (hid : κ.begun → id ≠ 0) :
      Passes [] κ { κ with
        pendingRef := none
        begun := true
        badges := (id, κ.pendingRef) :: κ.badges }
  /-- A context is applied; the spans may refer to it. -/
  | joined {κ κ' : Kinship} (ref : ParentRef)
      (htrace : κ'.trace = if κ.parent.isSome then κ.trace else ref.trace)
      (hparent : κ'.parent = κ.parent.or (some ref)) : Passes [ref] κ κ'
  | trans {κ κ' κ'' : Kinship} {refs refs' : List ParentRef} (h : Passes refs κ κ')
      (h' : Passes refs' κ' κ'') : Passes (refs ++ refs') κ κ''

namespace Passes

variable {κ κ' κ'' : Kinship} {refs : List ParentRef}

theorem refl (κ : Kinship) : Passes [] κ κ :=
  .still rfl rfl (fun _ h => h) (fun h => h) (List.Subset.refl _)

theorem before (h : Passes [] κ κ') (h' : Passes refs κ' κ'') : Passes refs κ κ'' := h.trans h'

theorem after (h : Passes refs κ κ') (h' : Passes [] κ' κ'') : Passes refs κ κ'' := by
  have hboth := h.trans h'
  rwa [List.append_nil] at hboth

end Passes

end Kinship

open Kinship (Passes)

/-! ### Open segments -/

namespace OpenSegment

variable {o o' : OpenSegment} {led : Ledger}

theorem passes_of_bearings {ref : ParentRef} {correlation : Correlation} {skip : Bool}
    (h : o'.bearings = o.bearings.joined ref correlation skip) (led led' : Ledger) :
    Passes [ref] (o.kinship led) (o'.kinship led') :=
  .joined ref (congrArg Bearings.trace h) (congrArg Bearings.parent h)

theorem passes_of_badges {led' : Ledger} (h : led'.badges ⊆ led.badges) (o : OpenSegment) :
    Passes [] (o.kinship led) (o.kinship led') := by
  refine .still rfl rfl (fun _ h => h) (fun h => h) fun b hb => ?_
  rcases List.mem_append.mp hb with hown | hleft
  · exact List.mem_append_left _ hown
  · exact List.mem_append_right _ (h hleft)

/-- Only the badge of a frame counts. -/
theorem kinship_push_congr {f f' : Frame} (h : f'.badge? = f.badge?) (o : OpenSegment)
    (led : Ledger) : (o.push f').kinship led = (o.push f).kinship led := by
  unfold kinship
  rw [badges_push, badges_push, h]
  rfl

theorem kinship_of_stack {f f' : Frame} {rest : List Frame} (hstack : o.stack = f :: rest)
    (h : f'.badge? = f.badge?) (led : Ledger) :
    OpenSegment.kinship { o with stack := f' :: rest } led = o.kinship led := by
  have hsame := kinship_push_congr h { o with stack := rest } led
  rw [push, push, ← hstack] at hsame
  exact hsame

/-- A new frame is recorded under the next id, or it is a placeholder. -/
theorem passes_newFrame (o : OpenSegment) (limit : Nat) (kind : SpanKind) (name : String)
    (now : UInt64) (led : Ledger) :
    let new := (o.newFrame limit kind name now).value
    Passes [] (o.kinship led) ((new.2.push new.1).kinship led) := by
  unfold newFrame
  split
  · exact .refl _
  · split
    · exact .refl _
    · have hid : (o.kinship led).begun → o.nextSpan ≠ 0 := fun h =>
        Nat.ne_of_gt (of_decide_eq_true h)
      have hopened := Passes.opened hid
      rwa [show (true : Bool) = decide (0 < o.nextSpan + 1) from
        (decide_eq_true (Nat.succ_pos _)).symm] at hopened

/-- A span is opened that is no exit span: the context of another process is applied if
    one is given. -/
theorem passes_openSpan (c : Config) (o : OpenSegment) (kind : SpanKind) (name : String)
    (now : UInt64) (inbound : Option RemoteContext) (led : Ledger) :
    Passes (inbound.map remoteRef).toList (o.kinship led)
      ((o.openSpan c kind name now inbound).value.2.kinship led) := by
  have hnew := passes_newFrame o c.spanLimit kind name now led
  have hbearings := bearings_openSpan c o kind name now inbound
  cases inbound with
  | none =>
    refine hnew.after ?_
    unfold openSpan
    simp only [Logged.bind_value, Logged.pure_value]
    rw [kinship_push_congr (badge?_autoTag _ _ _)]
    exact .refl _
  | some r =>
    -- the frame that is pushed has no part in the bearings
    rw [← bearings_newFrame o c.spanLimit kind name now] at hbearings
    let new := (o.newFrame c.spanLimit kind name now).value
    have hpushed : (o.openSpan c kind name now (some r)).value.2.bearings =
        (new.2.push new.1).bearings.joined (remoteRef r) r.correlation
          r.extension.skipAnalysis := hbearings
    exact hnew.before (passes_of_bearings hpushed led led)

theorem passes_openExit (c : Config) (o : OpenSegment) (name peer : String) (k : Option Carrier)
    (now : UInt64) (led : Ledger) :
    Passes [] (o.kinship led) ((o.openExit c name peer k now).value.2.2.kinship led) := by
  have hnew := passes_newFrame o c.spanLimit .exit name now led
  have hpeer := Frame.badge?_modify (Span.badge_setPeer peer)
    (o.newFrame c.spanLimit .exit name now).value.1
  refine hnew.after ?_
  unfold openExit
  cases k with
  | none =>
    simp only [Logged.bind_value, Logged.pure_value]
    rw [kinship_push_congr ((badge?_autoTag _ _ _).trans hpeer)]
    exact .refl _
  | some k =>
    simp only [Logged.bind_value, Logged.pure_value]
    rw [kinship_push_congr ((badge?_autoTag _ _ _).trans hpeer)]
    exact .refl _

theorem kinship_putCorrelation (o : OpenSegment) (keys : List String) (key value : String)
    (led : Ledger) : (o.putCorrelation keys key value).value.2.kinship led = o.kinship led := by
  unfold putCorrelation
  simp only [Logged.bind_value]
  split
  · split
    · next f rest hstack =>
      exact kinship_of_stack (o := { o with correlation := _ }) hstack
        (Frame.badge?_modify (fun s => s.badge_tag key value) f) led
    · rfl
  · rfl

variable {t t' : Tracer}

theorem passes_prepareAsync {a : AsyncHandle} (h : Preparing o t a o' t') :
    Passes [] (o.kinship (t.ledgerOf o.ledger)) (o'.kinship (t'.ledgerOf o'.ledger)) := by
  cases h with
  | idle => exact .refl _
  | recorded hstack hplain hledger hlt hspares hprepare =>
    next s rest n =>
    have hbadge : (Frame.recorded { s with isAsync := true }).badge? =
      (Frame.recorded s).badge? := rfl
    have hsame := kinship_of_stack hstack hbadge (t.ledgerOf o.ledger)
    rw [← hsame]
    refine passes_of_badges (o := { o with
      stack := .recorded { s with isAsync := true } :: rest, ledger := some n }) ?_
    show (t'.ledger n).badges ⊆ _
    rw [hprepare]
    exact Ledger.badges_prepare _ _

/-- Spans are archived, in the place of a span that is taken off the stack. -/
theorem passes_archiveAll {f : Frame} {rest : List Frame} (hstack : o.stack = f :: rest)
    {done : List Span} {led' : Ledger}
    (h : ∀ b ∈ done.map Span.badge ++ led'.badges, b ∈ f.badge?.toList ++ led.badges) :
    Passes [] (o.kinship led) (OpenSegment.kinship
      { o with stack := rest, segment := o.segment.archiveAll done } led') := by
  refine .still rfl rfl (fun _ h => h) (fun h => h) fun b hb => ?_
  have hbefore : (o.kinship led).badges = f.badge?.toList ++
      OpenSegment.badges { o with stack := rest } ++ led.badges :=
    congrArg (· ++ _) (badges_of_stack hstack)
  have hafter : OpenSegment.badges
      { o with stack := rest, segment := o.segment.archiveAll done } =
        OpenSegment.badges { o with stack := rest } ++ done.map Span.badge := by
    simp only [badges, ownSpans, Segment.archiveAll, List.map_append, List.append_assoc]
  have hmem := h b
  rw [hbefore]
  simp only [kinship, hafter, List.mem_append] at hb hmem ⊢
  tauto

/-- A span that is taken off the stack goes into the archive or into the ledger. -/
theorem Retired.passes {f : Frame} {rest : List Frame} {now : UInt64}
    (h : Retired { o with stack := rest } t now f o' t') (hstack : o.stack = f :: rest)
    (hbound : ∀ n, o.ledger = some n → n < t.ledgers.length) :
    Passes [] (o.kinship (t.ledgerOf o.ledger)) (o'.kinship (t'.ledgerOf o.ledger)) := by
  have hone (s s' : Span) (hbadge : s'.badge = s.badge) :
      ∀ b ∈ [s'].map Span.badge ++ (t.ledgerOf o.ledger).badges,
        b ∈ (Frame.recorded s).badge?.toList ++ (t.ledgerOf o.ledger).badges := by
    intro b hb
    rw [List.map_singleton, hbadge] at hb
    exact hb
  cases h with
  | dropped name =>
    have hnone : Passes [] (o.kinship (t.ledgerOf o.ledger)) (OpenSegment.kinship
        { o with stack := rest, segment := o.segment.archiveAll [] } (t.ledgerOf o.ledger)) :=
      passes_archiveAll hstack fun b hb => hb
    rwa [archiveAll_nil] at hnone
  | archived hplain =>
    next s =>
    refine passes_archiveAll hstack (hone s _ ?_)
    exact (congrArg Span.badge (s.closeOr_eq_closedAt now _)).trans (s.badge_closedAt now)
  | stray hasync hledger =>
    next s => exact passes_archiveAll hstack (hone s s rfl)
  | deferred hasync hledger =>
    next s n =>
    have hledger' : o.ledger = some n := hledger
    rw [ledgerOf_of_ledger hledger', ledgerOf_of_ledger hledger',
      Tracer.ledger_setLedger_self (hbound n hledger')]
    refine passes_archiveAll hstack fun b hb => ?_
    rcases (t.ledger n).badges_pop s b hb with rfl | hold
    · exact List.mem_append_left _ (List.mem_singleton_self _)
    · exact List.mem_append_right _ hold

end OpenSegment

/-! ### Segments that have ended -/

theorem Segment.passes_archiveAll (g : Segment) {done : List Span} {led led' : Ledger}
    (hdone : done.map Span.badge ⊆ led.badges) (hleft : led'.badges ⊆ led.badges) :
    Passes [] (g.kinship led) ((g.archiveAll done).kinship led') := by
  refine .still rfl rfl (fun _ h => h) (fun h => h) fun b hb => ?_
  simp only [kinship, archiveAll, List.map_append, List.append_assoc, List.mem_append] at hb ⊢
  have hdone := @hdone b
  have hleft := @hleft b
  tauto

theorem Segment.passes_of_badges (g : Segment) {led led' : Ledger}
    (h : led'.badges ⊆ led.badges) : Passes [] (g.kinship led) (g.kinship led') := by
  have hnone : Passes [] (g.kinship led) ((g.archiveAll []).kinship led') :=
    g.passes_archiveAll (List.nil_subset _) h
  rwa [OpenSegment.archiveAll_nil] at hnone

namespace OpenSegment

variable {o : OpenSegment} {t t' : Tracer}

/-- A segment whose stack is empty. -/
theorem passes_segment (hlast : o.stack = []) (led : Ledger) :
    Passes [] (o.kinship led) (o.segment.kinship led) := by
  refine .still rfl rfl (fun _ h => by contradiction) (fun _ => rfl) fun b hb => ?_
  have hown : o.badges = o.segment.spans.map Span.badge := by
    unfold badges ownSpans
    rw [hlast]
    rfl
  simp only [kinship, hown]
  exact hb

/-- What is handed over or parked at the end of a segment has its kinship. -/
theorem Ending.passes {due : Option Segment} (h : Ending o t due t') (hlast : o.stack = [])
    (hparked : (t.ledgerOf o.ledger).parked = none) :
    (∀ g, due = some g → Passes [] (o.kinship (t.ledgerOf o.ledger)) (g.kinship {})) ∧
    ∀ g, (t'.ledgerOf o.ledger).parked = some g →
      Passes [] (o.kinship (t.ledgerOf o.ledger)) (g.kinship (t'.ledgerOf o.ledger)) := by
  have hsegment := passes_segment hlast (t.ledgerOf o.ledger)
  constructor
  · intro g hg
    obtain rfl := h.handed_eq hg
    apply hsegment.after
    apply o.segment.passes_archiveAll _ (List.nil_subset _)
    intro b hb
    obtain ⟨s, hs, rfl⟩ := List.mem_map.mp hb
    exact Ledger.badge_mem_of_completed hs
  · intro g hg
    obtain ⟨rfl, hled⟩ := h.parked_eq hparked hg
    rw [hled]
    exact hsegment

end OpenSegment

end TraceLink
