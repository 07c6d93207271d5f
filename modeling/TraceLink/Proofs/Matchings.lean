import TraceLink.Proofs.Namings

/-! # Matchings

    Two runs give different ids to the segments of a strand, and different numbers to the
    ledgers of its async spans. A *matching* tells which names and which handles of the one
    run stand where which ones of the other run stand.

    Two segments, ledgers, replies or strands are *alike* under a matching if they are the
    same but for matched names and matched ledgers. -/

namespace TraceLink

/-- **Matching** of the names and of the handles that a strand gets in two runs. -/
structure Matching where
  names : List (Names × Names) := []
  handles : List (AsyncHandle × AsyncHandle) := []
  deriving Repr, DecidableEq

namespace Matching

/-- The ledgers of matched handles. -/
def Pairs (m : Matching) (n n' : Nat) : Prop := ∃ id, (.span n id, .span n' id) ∈ m.handles

/-- Everything that is matched stays matched. -/
structure Within (m m' : Matching) : Prop where
  names : m.names ⊆ m'.names
  handles : m.handles ⊆ m'.handles

/-- A matching joined by the names and the handles that are given next. -/
def joined (m : Matching) (ν ν' : Option Names) (h h' : Option AsyncHandle) : Matching where
  names := m.names ++ ν.toList.zip ν'.toList
  handles := m.handles ++ h.toList.zip h'.toList

theorem joined_none (m : Matching) : m.joined none none none none = m := by
  unfold joined
  rw [Option.toList_none, Option.toList_none, List.zip_nil_left, List.zip_nil_left,
    List.append_nil, List.append_nil]

theorem joined_pairs (m : Matching) {n n' id : Nat} :
    (m.joined none none (some (.span n id)) (some (.span n' id))).Pairs n n' :=
  ⟨id, List.mem_append_right _ (List.mem_singleton_self _)⟩

/-- Ledgers are matched by handles of spans only. -/
theorem pairs_joined_of_ne (m : Matching) {ν ν' : Option Names} {h h' : Option AsyncHandle}
    (hne : ∀ n id, h ≠ some (.span n id)) {l l' : Nat} (hl : (m.joined ν ν' h h').Pairs l l') :
    m.Pairs l l' := by
  obtain ⟨id, hmem⟩ := hl
  rcases List.mem_append.mp hmem with hmem | hmem
  · exact ⟨id, hmem⟩
  · exact absurd (Option.mem_toList.mp (List.of_mem_zip hmem).1) (hne l id)

/-- The pairs of a matching that is joined by two handles. -/
theorem pairs_joined (m : Matching) {n n' id l l' : Nat}
    (hl : (m.joined none none (some (.span n id)) (some (.span n' id))).Pairs l l') :
    m.Pairs l l' ∨ l = n ∧ l' = n' := by
  obtain ⟨id', hmem⟩ := hl
  rcases List.mem_append.mp hmem with hmem | hmem
  · exact .inl ⟨id', hmem⟩
  · obtain ⟨⟨rfl, -⟩, rfl, -⟩ : (l = n ∧ id' = id) ∧ l' = n' ∧ id' = id := by
      simpa using hmem
    exact .inr ⟨rfl, rfl⟩

theorem within_joined (m : Matching) (ν ν' : Option Names) (h h' : Option AsyncHandle) :
    m.Within (m.joined ν ν' h h') where
  names := List.subset_append_left _ _
  handles := List.subset_append_left _ _

theorem Within.pairs {m m' : Matching} (h : m.Within m') {n n' : Nat} (hpairs : m.Pairs n n') :
    m'.Pairs n n' :=
  hpairs.imp fun _ hmem => h.handles hmem

end Matching

/-! ### What is alike -/

section Alike

variable (m : Matching)

/-- Segments that are the same but for matched names. -/
def Segment.Alike (g g' : Segment) : Prop :=
  ∃ ν ∈ m.names, ∃ x : Segment, g = x.named ν.1 ∧ g' = x.named ν.2

/-- Ledgers that are the same but for matched names. -/
def Ledger.Alike (l l' : Ledger) : Prop :=
  ∃ ν ∈ m.names, ∃ x : Ledger, l = x.named ν.1 ∧ l' = x.named ν.2

/-- Open segments that are the same but for matched names and matched ledgers. -/
def OpenSegment.Alike (o o' : OpenSegment) : Prop :=
  ∃ ν ∈ m.names, ∃ (n n' : Option Nat) (x : OpenSegment), Option.Rel m.Pairs n n' ∧
    o = x.named ν.1 n ∧ o' = x.named ν.2 n'

/-- Strands that are the same but for their open segments, which are alike. -/
structure Strand.Alike (s s' : Strand) : Prop where
  ordinal : s'.ordinal = s.ordinal
  active : Option.Rel (OpenSegment.Alike m) s.active s'.active
  continuation : s'.continuation = s.continuation
  scratch : s'.scratch = s.scratch

/-- Replies that are the same but for matched names and matched handles. -/
inductive Reply.Alike : Reply → Reply → Prop where
  | same (r : Reply) : Alike r r
  | snapshot {ν : Names × Names} (hν : ν ∈ m.names) (inherited : Option String) (s : Snapshot) :
      Alike (.snapshot (some (s.named ν.1 inherited))) (.snapshot (some (s.named ν.2 inherited)))
  | carrier {ν : Names × Names} (hν : ν ∈ m.names) (inherited : Option String)
      (c : RemoteContext) (k : Carrier) :
      Alike (.carrier ((c.named ν.1 inherited).inject k))
        (.carrier ((c.named ν.2 inherited).inject k))
  | sent {ν : Names × Names} (hν : ν ∈ m.names) (inherited : Option String)
      (c : RemoteContext) (f : Frame) (k : Carrier) :
      Alike (.sent f (some ((c.named ν.1 inherited).inject k)))
        (.sent f (some ((c.named ν.2 inherited).inject k)))
  | handle {a a' : AsyncHandle} (hmem : (a, a') ∈ m.handles) : Alike (.handle a) (.handle a')

/-- Handles that do nothing, or that work for the same span in ledgers that are alike. -/
inductive AsyncHandle.Alike (t t' : Tracer) : AsyncHandle → AsyncHandle → Prop where
  | idle : Alike t t' .idle .idle
  | span {n n' : Nat} (id : Nat) (hledger : Ledger.Alike m (t.ledger n) (t'.ledger n')) :
      Alike t t' (.span n id) (.span n' id)

/-- Outcomes with alike replies that hand over alike segments. -/
structure Outcome.Alike {σ : Type} (R : σ → σ → Prop) (o o' : Outcome σ) : Prop where
  reply : Reply.Alike m o.reply o'.reply
  handed : Option.Rel (Segment.Alike m) o.handed o'.handed
  state : R o.state o'.state

end Alike

/-! ### More is matched -/

theorem rel_imp {α β : Type} {R R' : α → β → Prop} (hR : ∀ {a b}, R a b → R' a b)
    {a : Option α} {b : Option β} (h : Option.Rel R a b) : Option.Rel R' a b := by
  cases h with
  | some h => exact .some (hR h)
  | none => exact .none

section Within

variable {m m' : Matching}

theorem Segment.Alike.mono (hm : m.Within m') {g g' : Segment} (h : g.Alike m g') :
    g.Alike m' g' :=
  h.imp fun _ hν => ⟨hm.names hν.1, hν.2⟩

theorem Ledger.Alike.mono (hm : m.Within m') {l l' : Ledger} (h : l.Alike m l') :
    l.Alike m' l' :=
  h.imp fun _ hν => ⟨hm.names hν.1, hν.2⟩

theorem OpenSegment.Alike.mono (hm : m.Within m') {o o' : OpenSegment} (h : o.Alike m o') :
    o.Alike m' o' := by
  obtain ⟨ν, hν, n, n', x, hpairs, ho, ho'⟩ := h
  exact ⟨ν, hm.names hν, n, n', x, rel_imp hm.pairs hpairs, ho, ho'⟩

theorem Reply.Alike.mono (hm : m.Within m') {r r' : Reply} (h : r.Alike m r') :
    r.Alike m' r' := by
  cases h with
  | same r => exact .same r
  | snapshot hν inherited s => exact .snapshot (hm.names hν) inherited s
  | carrier hν inherited c k => exact .carrier (hm.names hν) inherited c k
  | sent hν inherited c f k => exact .sent (hm.names hν) inherited c f k
  | handle hmem => exact .handle (hm.handles hmem)

theorem Strand.Alike.mono (hm : m.Within m') {s s' : Strand} (h : s.Alike m s') :
    s.Alike m' s' :=
  { h with active := rel_imp (OpenSegment.Alike.mono hm) h.active }

end Within

/-! ### Operations on open segments -/

namespace OpenSegment.Alike

variable {m : Matching} {o o' : OpenSegment}

/-- What does not look at names keeps segments alike. -/
theorem map {f : OpenSegment → OpenSegment} (hf : ∀ ν n x, f (x.named ν n) = (f x).named ν n)
    (h : o.Alike m o') : (f o).Alike m (f o') := by
  obtain ⟨ν, hν, n, n', x, hpairs, rfl, rfl⟩ := h
  exact ⟨ν, hν, n, n', f x, hpairs, hf ν.1 n x, hf ν.2 n' x⟩

/-- What does not look at names answers the same, and keeps segments alike. -/
theorem answer {β : Type} {f : OpenSegment → β × OpenSegment}
    (hf : ∀ ν n x, f (x.named ν n) = ((f x).1, (f x).2.named ν n)) (h : o.Alike m o') :
    (f o').1 = (f o).1 ∧ (f o).2.Alike m (f o').2 := by
  obtain ⟨ν, hν, n, n', x, hpairs, rfl, rfl⟩ := h
  rw [hf, hf]
  exact ⟨rfl, ν, hν, n, n', (f x).2, hpairs, rfl, rfl⟩

/-- The segments agree in all that is no name. -/
theorem stack (h : o.Alike m o') : o'.stack = o.stack := by
  obtain ⟨ν, -, n, n', x, -, rfl, rfl⟩ := h
  rfl

theorem sampled (h : o.Alike m o') : o'.sampled = o.sampled := by
  obtain ⟨ν, -, n, n', x, -, rfl, rfl⟩ := h
  rfl

theorem segment (h : o.Alike m o') : o.segment.Alike m o'.segment := by
  obtain ⟨ν, hν, n, n', x, -, rfl, rfl⟩ := h
  exact ⟨ν, hν, x.segment, rfl, rfl⟩

/-- Neither segment has a ledger, or both have matched ones. -/
theorem ledger_cases (h : o.Alike m o') :
    (o.ledger = none ∧ o'.ledger = none) ∨
      ∃ n n', o.ledger = some n ∧ o'.ledger = some n' ∧ m.Pairs n n' := by
  obtain ⟨ν, -, n, n', x, hpairs, rfl, rfl⟩ := h
  cases hpairs with
  | none => exact .inl ⟨rfl, rfl⟩
  | some hpairs => exact .inr ⟨_, _, rfl, rfl, hpairs⟩

/-- The open segments have matched ids. -/
theorem id (h : o.Alike m o') :
    ∃ ν ∈ m.names, o.segment.id = ν.1.segment ∧ o'.segment.id = ν.2.segment := by
  obtain ⟨ν, hν, n, n', x, -, rfl, rfl⟩ := h
  exact ⟨ν, hν, rfl, rfl⟩

theorem withStack (h : o.Alike m o') (stack : List Frame) :
    Alike m { o with stack := stack } { o' with stack := stack } :=
  h.map (f := fun o => { o with stack := stack }) fun _ _ _ => rfl

/-- Segments that get matched ledgers. -/
theorem withLedger {m' : Matching} (h : o.Alike m o') (hm : m.Within m') {n n' : Nat}
    (hpairs : m'.Pairs n n') (stack : List Frame) :
    Alike m' { o with stack := stack, ledger := some n }
      { o' with stack := stack, ledger := some n' } := by
  obtain ⟨ν, hν, b, b', x, -, rfl, rfl⟩ := h
  exact ⟨ν, hm.names hν, some n, some n', { x with stack := stack }, .some hpairs, rfl, rfl⟩

theorem ignored (h : o.Alike m o') :
    Alike m { o with sampled := false } { o' with sampled := false } :=
  h.map (f := fun o => { o with sampled := false }) fun _ _ _ => rfl

theorem archiveAll (h : o.Alike m o') (ss : List Span) :
    Alike m { o with segment := o.segment.archiveAll ss }
      { o' with segment := o'.segment.archiveAll ss } :=
  h.map (f := fun o => { o with segment := o.segment.archiveAll ss }) fun _ _ _ => rfl

theorem continueFrom (h : o.Alike m o') (c : Captured) :
    Alike m (o.continueFrom c).value (o'.continueFrom c).value :=
  h.map (f := fun o => (o.continueFrom c).value) fun ν n x => (naming ν n).on_continueFrom x c

theorem openSpan (h : o.Alike m o') (now : UInt64) (c : Config) (kind : SpanKind) (name : String)
    (inbound : Option RemoteContext) :
    (o'.openSpan c kind name now inbound).value.1 = (o.openSpan c kind name now inbound).value.1 ∧
    Alike m (o.openSpan c kind name now inbound).value.2
      (o'.openSpan c kind name now inbound).value.2 :=
  h.answer (f := fun o => (o.openSpan c kind name now inbound).value)
    fun ν n x => (naming ν n).on_openSpan x c kind name now inbound

theorem pop (h : o.Alike m o') (expected : Option Int) :
    Attempt.Rel (fun popped popped' => popped'.1 = popped.1 ∧ popped.2.Alike m popped'.2)
      (o.pop expected) (o'.pop expected) := by
  obtain ⟨ν, hν, n, n', x, hpairs, rfl, rfl⟩ := h
  have hpop (ν : Names) (n : Option Nat) : (x.named ν n).pop expected = _ :=
    (naming ν n).on_pop x expected
  rw [hpop, hpop]
  cases x.pop expected with
  | error y => exact .error rfl
  | ok popped => exact .ok ⟨rfl, ν, hν, n, n', popped.2, hpairs, rfl, rfl⟩

theorem receive (h : o.Alike m o') (now : UInt64) (c : RemoteContext) :
    Attempt.Rel (fun step step' => step.value.Alike m step'.value) (o.receive c now)
      (o'.receive c now) := by
  refine (h.pop none).map fun {popped popped'} hpopped => ?_
  obtain ⟨f, o₁⟩ := popped
  obtain ⟨f', o₁'⟩ := popped'
  obtain ⟨rfl, ho⟩ := hpopped
  exact ho.map
    (f := fun o => (o.applyInbound f' c now).value.2.push (o.applyInbound f' c now).value.1)
    fun ν n x => by
      have happlied : ((x.named ν n).applyInbound f' c now).value = _ :=
        (naming ν n).on_applyInbound x f' c now
      simp only [happlied]
      rfl

theorem openExit (h : o.Alike m o') (now : UInt64) (c : Config) (name peer : String)
    (k : Option Carrier) :
    let opened := (o.openExit c name peer k now).value
    let opened' := (o'.openExit c name peer k now).value
    Reply.Alike m (.sent opened.1 opened.2.1) (.sent opened'.1 opened'.2.1) ∧
      opened.2.2.Alike m opened'.2.2 := by
  intro opened opened'
  obtain ⟨ν, hν, n, n', x, hpairs, rfl, rfl⟩ := h
  obtain ⟨sent, inherited, hsent⟩ := x.openExit_named c name peer k now
  have hopen (ν : Names) (n : Option Nat) :
      ((x.named ν n).openExit c name peer k now).value.1 = _ ∧
        ((x.named ν n).openExit c name peer k now).value.2.2 = _ :=
    (naming ν n).on_openExit x c name peer k now
  refine ⟨?_, ν, hν, n, n', (x.openExit c name peer k now).value.2.2, hpairs,
    (hopen ν.1 n).2, (hopen ν.2 n').2⟩
  simp only [opened, opened', (hopen ν.1 n).1, (hopen ν.2 n').1, hsent]
  cases k with
  | none => exact .same _
  | some k =>
    cases sent with
    | none => exact .same _
    | some c => exact .sent hν inherited c _ k

theorem inject (h : o.Alike m o') (now : UInt64) (k : Carrier) :
    Attempt.Rel (fun step step' => Reply.Alike m (.carrier step.value) (.carrier step'.value))
      (o.inject k now) (o'.inject k now) := by
  obtain ⟨ν, hν, n, n', x, hpairs, rfl, rfl⟩ := h
  rcases x.inject_named k now with ⟨e, hrefused⟩ | ⟨f, hsent⟩
  · rw [hrefused, hrefused]
    exact .fail e k k
  · rw [hsent, hsent]
    refine .ok ?_
    rw [send_value, send_value, sent?_named, sent?_named]
    cases x.sent? f (peerOf f) now with
    | none => exact .same _
    | some c => exact .carrier hν x.segment.inherited c k

theorem capture (h : o.Alike m o') :
    Reply.Alike m (.snapshot (some o.capture)) (.snapshot (some o'.capture)) := by
  obtain ⟨ν, hν, n, n', x, hpairs, rfl, rfl⟩ := h
  rw [capture_named, capture_named]
  exact .snapshot hν x.segment.inherited x.capture

theorem putCorrelation (h : o.Alike m o') (keys : List String) (key value : String) :
    (o'.putCorrelation keys key value).value.1 = (o.putCorrelation keys key value).value.1 ∧
    Alike m (o.putCorrelation keys key value).value.2 (o'.putCorrelation keys key value).value.2 :=
  h.answer (f := fun o => (o.putCorrelation keys key value).value)
    fun ν n x => (naming ν n).on_putCorrelation x keys key value

end OpenSegment.Alike

end TraceLink
