import TraceLink.Proofs.EntrySpans
import TraceLink.Proofs.Offers

/-! # Stocks of spans

    The *stock* of a segment is all of its recorded spans, wherever they are: open ones,
    archived ones, and those that were left to their handles.

    A stock passes from one operation to the next in few ways. Spans are moved or lost,
    one of them is written to, and a new one gets the next id. Whoever writes to a span
    keeps its id, and leaves a closed one as it is, with one exception. A context that is
    read is applied to the active span whether it is closed or not: an entry span gets the
    reference, and any span the request that the analysis skips it. The context is then
    the *receipt* of the span. -/

namespace TraceLink

open Ledger (heldIn)

/-! ### Writing to spans -/

/-- **Following**: what a span is after it was written to. It keeps its origin and its
    reference, and a closed one stays as it is. -/
structure Span.Follows (x y : Span) : Prop where
  origin : y.origin = x.origin
  ref : y.ref = x.ref
  same : x.isClosed → y = x

namespace Span

theorem Follows.id {x y : Span} (h : x.Follows y) : y.id = x.id := congrArg Origin.id h.origin

theorem Follows.kind {x y : Span} (h : x.Follows y) : y.kind = x.kind :=
  congrArg Origin.kind h.origin

theorem follows_refl (x : Span) : x.Follows x := ⟨rfl, rfl, fun _ => rfl⟩

theorem follows_whileOpen (action : String) {change : Span → Span}
    (hmark : ∀ s, (change s).mark = s.mark) (hbadge : ∀ s, (change s).badge = s.badge) (s : Span) :
    s.Follows (whileOpen action change s).value where
  origin := congrArg Mark.origin (mark_whileOpen action hmark s)
  ref := congrArg Prod.snd (badge_whileOpen action hbadge s)
  same := fun hclosed => whileOpen_of_isClosed hclosed action change

theorem follows_setPeer (peer : String) (s : Span) : s.Follows (s.setPeer peer).value := by
  unfold setPeer
  split
  · apply follows_whileOpen <;> exact fun _ => rfl
  · exact s.follows_refl

theorem follows_closedAt (s : Span) (time : UInt64) : s.Follows (s.closedAt time) where
  origin := by
    unfold closedAt
    split
    · rfl
    · rfl
  ref := congrArg Prod.snd (s.badge_closedAt time)
  same := fun hclosed => if_pos hclosed

/-- **Every edit** leaves a closed span as it is. -/
theorem follows_edit (now : UInt64) (s : Span) (e : Edit) : s.Follows (s.edit now e).value.2 := by
  cases e with
  | setPeer peer => exact s.follows_setPeer peer
  | close time =>
    simp only [edit]
    cases h : s.close time with
    | error x =>
      rw [(close_eq_error h).2]
      exact s.follows_refl
    | ok s' =>
      -- only an open span is closed
      rw [close_eq_ok h]
      refine ⟨rfl, rfl, fun hclosed => ?_⟩
      rw [close, if_pos hclosed] at h
      contradiction
  | tagValue key => exact s.follows_refl
  | _ => apply follows_whileOpen <;> exact fun _ => rfl

end Span

/-- What a handle recorded is not applied to a span that was closed already. -/
theorem Deferral.follows_applyTo (d : Deferral) (s : Span) (time : UInt64) :
    s.Follows (d.applyTo s time).value := by
  rw [applyTo_eq]
  by_cases hclosed : s.isClosed
  · rw [if_pos hclosed]
    exact s.follows_refl
  · rw [if_neg hclosed]
    exact ⟨rfl, rfl, fun h => absurd h hclosed⟩

/-- What a frame is after it was written to. -/
inductive Frame.Follows : Frame → Frame → Prop where
  | recorded {x y : Span} (h : x.Follows y) : Follows (.recorded x) (.recorded y)
  | placeholder (name : String) : Follows (.placeholder name) (.placeholder name)

namespace Frame

theorem follows_modify {change : Span → Logged Span} (h : ∀ s : Span, s.Follows (change s).value)
    (f : Frame) : f.Follows (f.modify change).value := by
  cases f with
  | recorded s => exact .recorded (h s)
  | placeholder name => exact .placeholder name

theorem Follows.trans {f g h : Frame} (hfg : f.Follows g) (hgh : g.Follows h) : f.Follows h := by
  cases hfg with
  | placeholder name => exact hgh
  | recorded hxy =>
    cases hgh with
    | recorded hyz =>
      refine .recorded ⟨hyz.origin.trans hxy.origin, hyz.ref.trans hxy.ref, fun hclosed => ?_⟩
      have hsame := hxy.same hclosed
      subst hsame
      exact hyz.same hclosed

theorem follows_editAll (now : UInt64) (f : Frame) (edits : List Edit) :
    f.Follows (f.editAll now edits).value.2 := by
  induction edits generalizing f with
  | nil =>
    cases f with
    | recorded s => exact .recorded s.follows_refl
    | placeholder name => exact .placeholder name
  | cons e edits ih =>
    have hedit : f.Follows (f.edit now e).value.2 := by
      cases f with
      | recorded s => exact .recorded (s.follows_edit now e)
      | placeholder name => exact .placeholder name
    exact hedit.trans (ih _)

end Frame

/-! ### Receipts -/

/-- **Receipt**: a context that was read while a span was the active one. -/
structure Receipt where
  span : Nat
  context : RemoteContext
  deriving DecidableEq

namespace Span

/-- What a context leaves on a closed span. -/
def referredTo (s : Span) (c : RemoteContext) : Span :=
  { s with
    ref := if s.kind = .entry then some (OpenSegment.remoteRef c) else s.ref
    skipAnalysis := s.skipAnalysis || c.extension.skipAnalysis }

/-- The span with what a receipt leaves on it, if it is the span of the receipt. -/
def receive (s : Span) (r : Receipt) : Span := if r.span = s.id then s.referredTo r.context else s

/-- The span with what all receipts leave on it, in order. -/
def receiveAll (s : Span) (rs : List Receipt) : Span := rs.foldl receive s

@[simp] theorem receiveAll_nil (s : Span) : s.receiveAll [] = s := rfl

theorem receiveAll_append (s : Span) (rs rs' : List Receipt) :
    s.receiveAll (rs ++ rs') = (s.receiveAll rs).receiveAll rs' := List.foldl_append ..

theorem stop_receive (s : Span) (r : Receipt) : (s.receive r).stop = s.stop := by
  unfold receive
  split
  · rfl
  · rfl

/-- Receipts do not open a span again. -/
theorem isClosed_receiveAll (s : Span) (rs : List Receipt) :
    (s.receiveAll rs).isClosed = s.isClosed := by
  induction rs generalizing s with
  | nil => rfl
  | cons r rs ih => exact (ih _).trans (congrArg Option.isSome (s.stop_receive r))

/-- Nothing but the reference and the request to skip the analysis changes by receipts. -/
theorem exists_receiveAll (s : Span) (rs : List Receipt) :
    ∃ ref skip, s.receiveAll rs = { s with ref := ref, skipAnalysis := skip } := by
  induction rs generalizing s with
  | nil => exact ⟨s.ref, s.skipAnalysis, rfl⟩
  | cons r rs ih =>
    obtain ⟨ref, skip, hrest⟩ := ih (s.receive r)
    refine ⟨ref, skip, hrest.trans ?_⟩
    unfold receive
    split
    · rfl
    · rfl

/-- A context gives the reference to an entry span only, closed or not. -/
theorem ref_markInbound (c : RemoteContext) (now : UInt64) (s : Span) :
    (OpenSegment.markInbound c now s).value.ref = (s.referredTo c).ref := by
  have hskip (s : Span) :
      (if c.extension.skipAnalysis then { s with skipAnalysis := true } else s).ref = s.ref := by
    split <;> rfl
  rw [OpenSegment.markInbound_value, hskip, referredTo]
  split
  · split
    · unfold tagWith whileOpen
      split <;> rfl
    · rfl
  · rfl

theorem origin_receiveAll (s : Span) (rs : List Receipt) :
    (s.receiveAll rs).origin = s.origin := by
  obtain ⟨ref, skip, hsame⟩ := s.exists_receiveAll rs
  rw [hsame]
  rfl

/-- What the receipts leave as the reference depends on few fields only. -/
theorem ref_receiveAll_congr {x y : Span} (horigin : y.origin = x.origin) (href : y.ref = x.ref)
    (rs : List Receipt) : (y.receiveAll rs).ref = (x.receiveAll rs).ref := by
  induction rs generalizing x y with
  | nil => exact href
  | cons r rs ih =>
    have hid : y.id = x.id := congrArg Origin.id horigin
    have hkind : y.kind = x.kind := congrArg Origin.kind horigin
    refine ih (x := x.receive r) (y := y.receive r) ?_ ?_
    · unfold receive
      rw [hid]
      split
      · exact horigin
      · exact horigin
    · unfold receive referredTo
      rw [hid, hkind]
      split
      · exact ite_congr rfl (fun _ => rfl) fun _ => href
      · exact href

/-- A span refers to what it referred to, or it is an entry span and refers to the context
    of a receipt. -/
theorem ref_receiveAll (s : Span) (rs : List Receipt) :
    (s.receiveAll rs).ref = s.ref ∨ s.kind = .entry ∧ ∃ r ∈ rs, r.span = s.id ∧
      (s.receiveAll rs).ref = some (OpenSegment.remoteRef r.context) := by
  induction rs generalizing s with
  | nil => exact .inl rfl
  | cons r rs ih =>
    have hsame : (s.receive r).id = s.id ∧ (s.receive r).kind = s.kind := by
      unfold receive
      split
      · exact ⟨rfl, rfl⟩
      · exact ⟨rfl, rfl⟩
    rcases ih (s.receive r) with hkept | ⟨hkind, r', hr', hspan, href⟩
    · by_cases hown : r.span = s.id ∧ s.kind = .entry
      · refine .inr ⟨hown.2, r, List.mem_cons_self, hown.1, hkept.trans ?_⟩
        unfold receive referredTo
        rw [if_pos hown.1, if_pos hown.2]
      · refine .inl (hkept.trans ?_)
        unfold receive referredTo
        split
        · next hspan => exact if_neg fun hkind => hown ⟨hspan, hkind⟩
        · rfl
    · exact .inr ⟨hsame.2.symm.trans hkind, r', List.mem_cons_of_mem _ hr',
        hspan.trans hsame.1, href⟩

/-- A context is applied to a closed span, too: only the latency is not. -/
theorem markInbound_of_isClosed {s : Span} (h : s.isClosed) (c : RemoteContext) (now : UInt64) :
    (OpenSegment.markInbound c now s).value = s.referredTo c := by
  rw [OpenSegment.markInbound_value]
  have hskip (s : Span) :
      (if c.extension.skipAnalysis then { s with skipAnalysis := true } else s) =
      { s with skipAnalysis := s.skipAnalysis || c.extension.skipAnalysis } := by
    cases c.extension.skipAnalysis with
    | true => rw [if_pos rfl, Bool.or_true]
    | false => rw [if_neg Bool.false_ne_true, Bool.or_false]
  unfold referredTo
  rw [hskip]
  by_cases hkind : s.kind = .entry
  · simp only [if_pos hkind]
    cases c.extension.sentAt with
    | none => rfl
    | some sent =>
      have hclosed : Span.isClosed { s with ref := some (OpenSegment.remoteRef c) } := h
      simp only [tagWith, whileOpen_of_isClosed hclosed]
  · simp only [if_neg hkind]

/-! ### What becomes of a span -/

/-- **Becoming**: what a span is after these receipts, however it was written to beside
    them. It keeps its origin, it refers to what the receipts leave, and a closed one is as
    the receipts leave it. -/
structure Becomes (rs : List Receipt) (x y : Span) : Prop where
  origin : y.origin = x.origin
  ref : y.ref = (x.receiveAll rs).ref
  same : x.isClosed → y = x.receiveAll rs

theorem becomes_refl (x : Span) : Becomes [] x x := ⟨rfl, rfl, fun _ => rfl⟩

theorem Follows.becomes {x y : Span} (h : x.Follows y) : Becomes [] x y :=
  ⟨h.origin, h.ref, h.same⟩

/-- A receipt of another span leaves a span as it is. -/
theorem becomes_of_ne {x : Span} {r : Receipt} (h : r.span ≠ x.id) : Becomes [r] x x := by
  have hsame : x = x.receiveAll [r] := (if_neg h).symm
  exact ⟨rfl, congrArg ref hsame, fun _ => hsame⟩

theorem Becomes.trans {x y z : Span} {rs rs' : List Receipt} (h : Becomes rs x y)
    (h' : Becomes rs' y z) : Becomes (rs ++ rs') x z where
  origin := h'.origin.trans h.origin
  ref := by
    rw [receiveAll_append]
    refine h'.ref.trans (ref_receiveAll_congr ?_ h.ref rs')
    rw [h.origin, origin_receiveAll]
  same := by
    intro hclosed
    have hfirst := h.same hclosed
    subst hfirst
    rw [receiveAll_append]
    refine h'.same ?_
    rw [isClosed_receiveAll]
    exact hclosed

end Span

/-! ### Rewriting -/

section replaced

variable {S T R : List Span} {x y z z' : Span}

/-- Where one span is replaced by another one of its id, no new id comes in. -/
theorem exists_id_of_replaced (hbefore : S.Perm (z :: R)) (hafter : T.Subperm (z' :: R))
    (hid : z'.id = z.id) (hy : y ∈ T) : ∃ x ∈ S, x.id = y.id := by
  rcases List.mem_cons.mp (hafter.subset hy) with rfl | hrest
  · exact ⟨z, hbefore.mem_iff.mpr List.mem_cons_self, hid.symm⟩
  · exact ⟨y, hbefore.mem_iff.mpr (List.mem_cons_of_mem _ hrest), rfl⟩

/-- A span is the one that is replaced, or it is still there. -/
theorem replaced_cases (hids : (S.map Span.id).Nodup) (hbefore : S.Perm (z :: R))
    (hafter : T.Subperm (z' :: R)) (hreplaced : z'.id = z.id) (hx : x ∈ S) (hy : y ∈ T)
    (hid : y.id = x.id) : x = z ∧ y = z' ∨ y = x ∧ z.id ≠ x.id := by
  rw [(hbefore.map Span.id).nodup_iff, List.map_cons, List.nodup_cons] at hids
  obtain ⟨hother, hrest⟩ := hids
  rcases List.mem_cons.mp (hbefore.mem_iff.mp hx) with rfl | hxR
  · rcases List.mem_cons.mp (hafter.subset hy) with rfl | hyR
    · exact .inl ⟨rfl, rfl⟩
    · exact absurd (List.mem_map.mpr ⟨y, hyR, hid⟩) hother
  · have hne : z.id ≠ x.id := fun heq => hother (List.mem_map.mpr ⟨x, hxR, heq.symm⟩)
    rcases List.mem_cons.mp (hafter.subset hy) with rfl | hyR
    · exact absurd (hreplaced.symm.trans hid) hne
    · exact .inr ⟨List.inj_on_of_nodup_map hrest hyR hxR hid, hne⟩

end replaced

/-- **Rewriting** of a list of spans: they are moved or lost, and at most one of them is
    written to. -/
inductive Rewrites (S : List Span) : List Span → Prop where
  | moved {T : List Span} (h : T.Subperm S) : Rewrites S T
  | written {T R : List Span} {x y : Span} (hbefore : S.Perm (x :: R))
      (hafter : T.Subperm (y :: R)) (hfollows : x.Follows y) : Rewrites S T

namespace Rewrites

variable {S T T' : List Span}

theorem refl (S : List Span) : Rewrites S S := .moved (List.Subperm.refl S)

/-- More spans may be lost. -/
theorem mono (h : Rewrites S T) (hlost : T'.Subperm T) : Rewrites S T' := by
  cases h with
  | moved hmoved => exact .moved (hlost.trans hmoved)
  | written hbefore hafter hfollows => exact .written hbefore (hlost.trans hafter) hfollows

/-- The order of the spans does not matter. -/
theorem of_perm {S' : List Span} (h : Rewrites S T) (hperm : S'.Perm S) : Rewrites S' T := by
  cases h with
  | moved hmoved => exact .moved (hmoved.trans hperm.symm.subperm)
  | written hbefore hafter hfollows => exact .written (hperm.trans hbefore) hafter hfollows

theorem append_left (U : List Span) (h : Rewrites S T) : Rewrites (U ++ S) (U ++ T) := by
  cases h with
  | moved hmoved => exact .moved ((List.subperm_append_left U).mpr hmoved)
  | written hbefore hafter hfollows =>
    next R x y =>
    refine .written (R := U ++ R) ?_ ?_ hfollows
    · exact (hbefore.append_left U).trans List.perm_middle
    · exact ((List.subperm_append_left U).mpr hafter).trans List.perm_middle.subperm

theorem exists_id (h : Rewrites S T) {y : Span} (hy : y ∈ T) : ∃ x ∈ S, x.id = y.id := by
  cases h with
  | moved hmoved => exact ⟨y, hmoved.subset hy, rfl⟩
  | written hbefore hafter hfollows => exact exists_id_of_replaced hbefore hafter hfollows.id hy

end Rewrites

/-! ### Stocks -/

/-- **Stock** of a segment. -/
structure Stock where
  /-- The recorded spans, in any order. -/
  spans : List Span
  /-- The id of the next span, as long as spans can be opened. -/
  next : Option Nat

namespace Stock

/-- Every span has an id of its own, and the next id is new. -/
structure Sound (σ : Stock) : Prop where
  ids : (σ.spans.map Span.id).Nodup
  bound : ∀ n, σ.next = some n → ∀ x ∈ σ.spans, x.id < n

/-- **Passing** of a stock with these receipts, in this order. -/
inductive Passes : List Receipt → Stock → Stock → Prop where
  | still {σ σ' : Stock} (hspans : Rewrites σ.spans σ'.spans)
      (hnext : ∀ n, σ'.next = some n → σ.next = some n) : Passes [] σ σ'
  /-- A context is applied to a span. -/
  | received {σ σ' : Stock} {R : List Span} {x y : Span} {c : RemoteContext}
      (hbefore : σ.spans.Perm (x :: R)) (hafter : σ'.spans.Subperm (y :: R))
      (horigin : y.origin = x.origin) (href : y.ref = (x.referredTo c).ref)
      (hclosed : x.isClosed → y = x.referredTo c)
      (hnext : ∀ n, σ'.next = some n → σ.next = some n) : Passes [⟨x.id, c⟩] σ σ'
  | opened {σ : Stock} {x : Span} (hnext : σ.next = some x.id) :
      Passes [] σ ⟨x :: σ.spans, some (x.id + 1)⟩
  | trans {σ σ' σ'' : Stock} {rs rs' : List Receipt} (h : Passes rs σ σ')
      (h' : Passes rs' σ' σ'') : Passes (rs ++ rs') σ σ''

variable {σ σ' σ'' : Stock} {rs : List Receipt}

theorem ids_subperm {S T : List Span} (h : T.Subperm S) :
    (T.map Span.id).Subperm (S.map Span.id) := by
  obtain ⟨l, hperm, hsub⟩ := h
  exact ⟨l.map Span.id, hperm.map Span.id, hsub.map Span.id⟩

/-- A stock with no other ids is sound, too. -/
theorem Sound.of_ids (h : σ.Sound) (hids : (σ'.spans.map Span.id).Subperm (σ.spans.map Span.id))
    (hnext : ∀ n, σ'.next = some n → σ.next = some n) : σ'.Sound where
  ids := by
    obtain ⟨l, hperm, hsub⟩ := hids
    exact hperm.nodup_iff.mp (h.ids.sublist hsub)
  bound := by
    intro n hn y hy
    obtain ⟨x, hx, hid⟩ := List.mem_map.mp (hids.subset (List.mem_map_of_mem hy))
    rw [← hid]
    exact h.bound n (hnext n hn) x hx

/-- One span of a stock is replaced by another one of its id. -/
theorem Sound.replace (h : σ.Sound) {R : List Span} {x y : Span}
    (hbefore : σ.spans.Perm (x :: R)) (hafter : σ'.spans.Subperm (y :: R)) (hid : y.id = x.id)
    (hnext : ∀ n, σ'.next = some n → σ.next = some n) : σ'.Sound := by
  refine h.of_ids ((ids_subperm hafter).trans ?_) hnext
  rw [List.map_cons, hid, ← List.map_cons]
  exact ids_subperm hbefore.symm.subperm

theorem Sound.rewritten (h : σ.Sound) (hspans : Rewrites σ.spans σ'.spans)
    (hnext : ∀ n, σ'.next = some n → σ.next = some n) : σ'.Sound := by
  cases hspans with
  | moved hmoved => exact h.of_ids (ids_subperm hmoved) hnext
  | written hbefore hafter hfollows => exact h.replace hbefore hafter hfollows.id hnext

namespace Passes

theorem refl (σ : Stock) : Passes [] σ σ := .still (.refl _) fun _ h => h

theorem before (h : Passes [] σ σ') (h' : Passes rs σ' σ'') : Passes rs σ σ'' := h.trans h'

theorem after (h : Passes rs σ σ') (h' : Passes [] σ' σ'') : Passes rs σ σ'' := by
  have hboth := h.trans h'
  rwa [List.append_nil] at hboth

/-- The ids stay distinct. -/
theorem sound (hpasses : Passes rs σ σ') (h : σ.Sound) : σ'.Sound := by
  induction hpasses with
  | still hspans hnext => exact h.rewritten hspans hnext
  | received hbefore hafter horigin _ _ hnext =>
    exact h.replace hbefore hafter (congrArg Origin.id horigin) hnext
  | opened hnext =>
    next σ x =>
    have hold := h.bound x.id hnext
    refine ⟨?_, fun n hn y hy => ?_⟩
    · rw [List.map_cons, List.nodup_cons]
      refine ⟨fun hmem => ?_, h.ids⟩
      obtain ⟨y, hy, hid⟩ := List.mem_map.mp hmem
      exact Nat.ne_of_lt (hold y hy) hid
    · obtain rfl := Option.some.inj hn
      rcases List.mem_cons.mp hy with rfl | hy
      · exact Nat.lt_succ_self _
      · exact Nat.lt_succ_of_lt (hold y hy)
  | trans _ _ ih ih' => exact ih' (ih h)

/-- The next id never becomes smaller. -/
theorem next_le (h : Passes rs σ σ') {n' : Nat} (hn' : σ'.next = some n') :
    ∃ n, σ.next = some n ∧ n ≤ n' := by
  induction h generalizing n' with
  | still hspans hnext => exact ⟨n', hnext n' hn', Nat.le_refl _⟩
  | received _ _ _ _ _ hnext => exact ⟨n', hnext n' hn', Nat.le_refl _⟩
  | opened hnext =>
    next σ x =>
    obtain rfl := Option.some.inj hn'
    exact ⟨x.id, hnext, Nat.le_succ _⟩
  | trans _ _ ih ih' =>
    obtain ⟨n₁, hn₁, hle₁⟩ := ih' hn'
    obtain ⟨n, hn, hle⟩ := ih hn₁
    exact ⟨n, hn, Nat.le_trans hle hle₁⟩

/-- A span has the id of one that was there, or a new one. -/
theorem id_cases (h : Passes rs σ σ') {y : Span} (hy : y ∈ σ'.spans) :
    (∃ x ∈ σ.spans, x.id = y.id) ∨ ∃ n, σ.next = some n ∧ n ≤ y.id := by
  induction h generalizing y with
  | still hspans hnext => exact .inl (hspans.exists_id hy)
  | received hbefore hafter horigin _ _ hnext =>
    exact .inl (exists_id_of_replaced hbefore hafter (congrArg Origin.id horigin) hy)
  | opened hnext =>
    rcases List.mem_cons.mp hy with rfl | hy
    · exact .inr ⟨_, hnext, Nat.le_refl _⟩
    · exact .inl ⟨y, hy, rfl⟩
  | trans h _ ih ih' =>
    rcases ih' hy with ⟨z, hz, hid⟩ | ⟨n', hn', hle⟩
    · rcases ih hz with ⟨x, hx, hid'⟩ | ⟨n, hn, hle⟩
      · exact .inl ⟨x, hx, hid'.trans hid⟩
      · exact .inr ⟨n, hn, hid ▸ hle⟩
    · obtain ⟨n, hn, hle'⟩ := h.next_le hn'
      exact .inr ⟨n, hn, Nat.le_trans hle' hle⟩

/-- **What becomes of a span**: what a stock holds under its id later is what the span has
    become after the receipts. -/
theorem becomes (hpasses : Passes rs σ σ') (h : σ.Sound) {x y : Span} (hx : x ∈ σ.spans)
    (hy : y ∈ σ'.spans) (hid : y.id = x.id) : Span.Becomes rs x y := by
  induction hpasses generalizing x y with
  | still hspans hnext =>
    cases hspans with
    | moved hmoved =>
      obtain rfl := List.inj_on_of_nodup_map h.ids (hmoved.subset hy) hx hid
      exact y.becomes_refl
    | written hbefore hafter hfollows =>
      rcases replaced_cases h.ids hbefore hafter hfollows.id hx hy hid with ⟨rfl, rfl⟩ | ⟨rfl, -⟩
      · exact hfollows.becomes
      · exact y.becomes_refl
  | received hbefore hafter horigin href hreferred hnext =>
    rcases replaced_cases h.ids hbefore hafter (congrArg Origin.id horigin) hx hy hid with
      ⟨rfl, rfl⟩ | ⟨rfl, hne⟩
    -- the span is the one of the receipt
    · have hreceived (c : RemoteContext) : x.receiveAll [⟨x.id, c⟩] = x.referredTo c := if_pos rfl
      refine ⟨horigin, ?_, fun hclosed => ?_⟩
      · rw [hreceived]
        exact href
      · rw [hreceived]
        exact hreferred hclosed
    · exact Span.becomes_of_ne hne
  | opened hnext =>
    next σ z =>
    rcases List.mem_cons.mp hy with rfl | hy
    -- the id of the new span is new
    · have hlt := h.bound _ hnext x hx
      omega
    · obtain rfl := List.inj_on_of_nodup_map h.ids hy hx hid
      exact y.becomes_refl
  | trans h₁ h₂ ih ih' =>
    rcases h₂.id_cases hy with ⟨z, hz, hzid⟩ | ⟨n', hn', hle⟩
    · exact (ih h hx hz (hzid.trans hid)).trans (ih' (h₁.sound h) hz hy hzid.symm)
    · obtain ⟨n, hn, hle'⟩ := h₁.next_le hn'
      have hlt := h.bound n hn x hx
      omega

/-- **A closed span is kept**: what a stock holds under its id later is the span with what
    the receipts left on it. -/
theorem kept (hpasses : Passes rs σ σ') (h : σ.Sound) {x y : Span} (hx : x ∈ σ.spans)
    (hclosed : x.isClosed) (hy : y ∈ σ'.spans) (hid : y.id = x.id) : y = x.receiveAll rs :=
  (hpasses.becomes h hx hy hid).same hclosed

end Passes

end Stock

end TraceLink
