import TraceLink.Proofs.Matchings
import TraceLink.Proofs.Turnover

/-! # Matched tracers

    Two tracers with the same settings, whose gates have no limit, are alike for a strand if
    the ledgers of its handles are. Their counters may differ by what others did, which is
    the *gap* between them.

    What the strand does then has the same result in both, keeps the tracers alike, and
    leaves the gap as it is. -/

namespace TraceLink

/-! ### Counters -/

namespace Counters

/-- An operation on each of the counters. -/
def zipWith (f : UInt64 → UInt64 → UInt64) (c d : Counters) : Counters where
  createdInherited := f c.createdInherited d.createdInherited
  createdHere := f c.createdHere d.createdHere
  ignoredInherited := f c.ignoredInherited d.ignoredInherited
  ignoredHere := f c.ignoredHere d.ignoredHere
  finished := f c.finished d.finished
  finishedIgnored := f c.finishedIgnored d.finishedIgnored
  leaked := f c.leaked d.leaked
  leakedIgnored := f c.leakedIgnored d.leakedIgnored

/-- The counters, counted further by others. -/
def plus (c d : Counters) : Counters := zipWith (· + ·) c d

/-- What was counted since the counters were `d`. -/
def since (c d : Counters) : Counters := zipWith (· - ·) c d

variable (c d gap : Counters)

theorem plus_right_comm : (c.plus d).plus gap = (c.plus gap).plus d := by
  simp only [plus, zipWith, mk.injEq]
  grind

theorem plus_since : c.plus (d.since c) = d := by
  obtain ⟨a₁, a₂, a₃, a₄, a₅, a₆, a₇, a₈⟩ := d
  simp only [plus, since, zipWith, mk.injEq]
  grind

/-- A gap does not change what was counted. -/
theorem since_plus : (c.plus gap).since (d.plus gap) = c.since d := by
  simp only [plus, since, zipWith, mk.injEq]
  grind

theorem created_eq (inherited ignored : Bool) :
    c.created inherited ignored = c.plus (({} : Counters).created inherited ignored) := by
  cases inherited <;> cases ignored <;> simp [created, plus, zipWith]

theorem finish_eq (ignored : Bool) :
    c.finish ignored = c.plus (({} : Counters).finish ignored) := by
  cases ignored <;> simp [finish, plus, zipWith]

theorem leak_eq (ignored : Bool) : c.leak ignored = c.plus (({} : Counters).leak ignored) := by
  cases ignored <;> simp [leak, plus, zipWith]

end Counters

/-! ### Ledgers -/

namespace Ledger.Alike

variable {m : Matching} {l l' : Ledger}

theorem prepare (h : l.Alike m l') (id : Nat) : (l.prepare id).Alike m (l'.prepare id) := by
  obtain ⟨ν, hν, x, rfl, rfl⟩ := h
  exact ⟨ν, hν, x.prepare id, rfl, rfl⟩

theorem pop (h : l.Alike m l') (s : Span) :
    (l'.pop s).value.1 = (l.pop s).value.1 ∧ (l.pop s).value.2.Alike m (l'.pop s).value.2 := by
  obtain ⟨ν, hν, x, rfl, rfl⟩ := h
  rw [pop_named, pop_named]
  exact ⟨rfl, ν, hν, (x.pop s).value.2, rfl, rfl⟩

theorem handle (h : l.Alike m l') (id : Nat) (now : UInt64) (op : HandleOp) :
    Option.Rel (Segment.Alike m) (l.handle id now op).value.1 (l'.handle id now op).value.1 ∧
    (l.handle id now op).value.2.Alike m (l'.handle id now op).value.2 := by
  obtain ⟨ν, hν, x, rfl, rfl⟩ := h
  rw [handle_named, handle_named]
  refine ⟨?_, ν, hν, (x.handle id now op).value.2, rfl, rfl⟩
  cases (x.handle id now op).value.1 with
  | none => exact .none
  | some g => exact .some ⟨ν, hν, g, rfl, rfl⟩

/-- A segment that is parked is parked under its own names. -/
theorem settle (h : l.Alike m l') {g g' : Segment} (hg : g.Alike m g') :
    Option.Rel (Segment.Alike m) (l.settle g).value.1 (l'.settle g').value.1 ∧
    (l.settle g).value.2.Alike m (l'.settle g').value.2 := by
  obtain ⟨ν, hν, x, rfl, rfl⟩ := h
  obtain ⟨ν', hν', y, rfl, rfl⟩ := hg
  rw [settle_value, settle_value]
  simp only [show (x.named ν.1).pending = x.pending from rfl,
    show (x.named ν.2).pending = x.pending from rfl]
  by_cases hpending : x.pending = 0
  · simp only [if_pos hpending]
    exact ⟨.some ⟨ν', hν', y.archiveAll x.completed, rfl, rfl⟩, ν, hν, { x with completed := [] },
      rfl, rfl⟩
  · simp only [if_neg hpending]
    exact ⟨.none, ν', hν', { x with parked := some y }, rfl, rfl⟩

end Ledger.Alike

/-! ### Tracers -/

/-- **Tracers that are alike** for a strand. -/
structure Tracer.Alike (m : Matching) (gap : Counters) (t t' : Tracer) : Prop where
  config : t'.config = t.config
  suffixes : t'.gate.suffixes = t.gate.suffixes
  rate : t.gate.window.rate ≤ 0
  rate' : t'.gate.window.rate ≤ 0
  counters : t.counters = t'.counters.plus gap
  handles : ∀ a ∈ m.handles, AsyncHandle.Alike m t t' a.1 a.2
  bound : ∀ {n n'}, m.Pairs n n' → n < t.ledgers.length ∧ n' < t'.ledgers.length
  oneToOne : ∀ {n n' l l'}, m.Pairs n n' → m.Pairs l l' → (n = l ↔ n' = l')

namespace Tracer.Alike

variable {m : Matching} {gap : Counters} {t t' t₁ t₁' : Tracer}

theorem ledger (h : Alike m gap t t') {n n' : Nat} (hpairs : m.Pairs n n') :
    (t.ledger n).Alike m (t'.ledger n') := by
  obtain ⟨id, hmem⟩ := hpairs
  cases h.handles _ hmem with
  | span id hledger => exact hledger

/-- Matched handles stay alike if matched ledgers do. -/
theorem handles_of_ledgers (h : Alike m gap t t') {m' : Matching}
    (hledgers : ∀ n n', m.Pairs n n' → (t.ledger n).Alike m (t'.ledger n') →
      (t₁.ledger n).Alike m' (t₁'.ledger n')) :
    ∀ a ∈ m.handles, AsyncHandle.Alike m' t₁ t₁' a.1 a.2 := by
  intro a ha
  have hhandle := h.handles a ha
  obtain ⟨a, a'⟩ := a
  cases hhandle with
  | idle => exact .idle
  | span id hledger => exact .span id (hledgers _ _ ⟨id, ha⟩ hledger)

/-! ### What else the tracer does -/

/-- Another reporter makes no difference. -/
theorem reportDue (h : Alike m gap t t') (due due' : Option Segment) :
    Alike m gap (t.reportDue due).value (t'.reportDue due').value := by
  have hreporter (reporter reporter' : Reporter) :
      Alike m gap { t with reporter := reporter } { t' with reporter := reporter' } :=
    { h with handles := h.handles_of_ledgers fun _ _ _ hledger => hledger }
  cases due with
  | none =>
    cases due' with
    | none => exact h
    | some g' => exact hreporter t.reporter _
  | some g =>
    cases due' with
    | none => exact hreporter _ t'.reporter
    | some g' => exact hreporter _ _

/-- A segment that is counted leaves the gap as it is. -/
theorem counted (h : Alike m gap t t') {f : Counters → Counters} {d : Counters}
    (hf : ∀ c, f c = c.plus d) :
    Alike m gap { t with counters := f t.counters } { t' with counters := f t'.counters } where
  config := h.config
  suffixes := h.suffixes
  rate := h.rate
  rate' := h.rate'
  counters := by rw [hf, hf, h.counters, Counters.plus_right_comm]
  handles := h.handles_of_ledgers fun _ _ _ hledger => hledger
  bound := h.bound
  oneToOne := h.oneToOne

/-- Matched ledgers may change, as long as they stay alike. -/
theorem setLedger (h : Alike m gap t t') {n n' : Nat} (hpairs : m.Pairs n n') {l l' : Ledger}
    (hl : l.Alike m l') : Alike m gap (t.setLedger n l) (t'.setLedger n' l') where
  config := h.config
  suffixes := h.suffixes
  rate := h.rate
  rate' := h.rate'
  counters := h.counters
  handles := by
    refine h.handles_of_ledgers fun k k' hk hledger => ?_
    obtain ⟨hn, hn'⟩ := h.bound hpairs
    -- the same ledger in both tracers, or another one in both
    by_cases hsame : n = k
    · obtain rfl := hsame
      obtain rfl := (h.oneToOne hpairs hk).mp rfl
      rwa [Tracer.ledger_setLedger_self hn, Tracer.ledger_setLedger_self hn']
    · have hother : n' ≠ k' := fun heq => hsame ((h.oneToOne hpairs hk).mpr heq)
      rwa [Tracer.ledger_setLedger_of_ne hsame, Tracer.ledger_setLedger_of_ne hother]
  bound hk := by
    rw [Tracer.setLedger, Tracer.setLedger, List.length_set, List.length_set]
    exact h.bound hk
  oneToOne := h.oneToOne

/-- Handle operations on matched handles. -/
theorem handle (h : Alike m gap t t') {a a' : AsyncHandle} (ha : (a, a') ∈ m.handles)
    (now : UInt64) (op : HandleOp) :
    Option.Rel (Segment.Alike m) (t.handle a now op).value.1 (t'.handle a' now op).value.1 ∧
    Alike m gap (t.handle a now op).value.2 (t'.handle a' now op).value.2 := by
  cases h.handles _ ha with
  | idle => exact ⟨.none, h⟩
  | span id hledger =>
    next n n' =>
    obtain ⟨hdue, hafter⟩ := hledger.handle id now op
    exact ⟨hdue, h.setLedger ⟨id, ha⟩ hafter⟩

/-- Names, and handles that do nothing, are joined. -/
theorem joined_still (h : Alike m gap t t') {ν ν' : Option Names} {a a' : Option AsyncHandle}
    (hidle : (a = none ∧ a' = none) ∨ a = some .idle ∧ a' = some .idle) :
    Alike (m.joined ν ν' a a') gap t t' := by
  have hwithin := m.within_joined ν ν' a a'
  have hne : ∀ n id, a ≠ some (.span n id) := by
    rcases hidle with ⟨rfl, -⟩ | ⟨rfl, -⟩
    · simp
    · simp
  refine { h with
    handles := fun b hb => ?_
    bound := fun hn => h.bound (m.pairs_joined_of_ne hne hn)
    oneToOne := fun hn hl =>
      h.oneToOne (m.pairs_joined_of_ne hne hn) (m.pairs_joined_of_ne hne hl) }
  rcases List.mem_append.mp hb with hb | hb
  · exact h.handles_of_ledgers (fun _ _ _ hledger => hledger.mono hwithin) b hb
  · rcases hidle with ⟨rfl, rfl⟩ | ⟨rfl, rfl⟩
    · contradiction
    · obtain rfl := List.mem_singleton.mp hb
      exact .idle

/-! ### Segments that begin and end -/

/-- A segment begins, and its names are matched. -/
theorem start (h : Alike m gap t t') (ordinal now : UInt64) (name : String)
    (inherited : Inherited) (continuation : Option Snapshot) :
    let m' := m.joined (some (t.ids.names ordinal now)) (some (t'.ids.names ordinal now)) none none
    let begun := (OpenSegment.start t ordinal now name inherited continuation).value
    let begun' := (OpenSegment.start t' ordinal now name inherited continuation).value
    begun.1.Alike m' begun'.1 ∧ Alike m' gap begun.2 begun'.2 := by
  intro m' begun begun'
  have hjoined : Alike m' gap t t' := h.joined_still (.inl ⟨rfl, rfl⟩)
  have hsegment := OpenSegment.start_named rfl rfl h.rate h.rate ordinal now name inherited
    continuation
  have hsegment' := OpenSegment.start_named h.config h.suffixes h.rate h.rate' ordinal now name
    inherited continuation
  refine ⟨⟨(t.ids.names ordinal now, t'.ids.names ordinal now), by simp [m', Matching.joined],
    none, none, begun.1, .none, hsegment, hsegment'⟩, ?_⟩
  have hsampled : begun'.1.sampled = begun.1.sampled :=
    (congrArg OpenSegment.sampled hsegment').trans rfl
  have hcounters : begun.2.counters = begun'.2.counters.plus gap := by
    rw [OpenSegment.counters_start, OpenSegment.counters_start, hsampled, h.counters,
      Counters.created_eq, Counters.created_eq t'.counters, Counters.plus_right_comm]
  -- the gates judge, and keep their settings
  have hset := t.gate.setting_judge name (OpenSegment.decision inherited continuation) now
  have hset' := t'.gate.setting_judge name (OpenSegment.decision inherited continuation) now
  have htracer : begun.2 = _ := OpenSegment.start_tracer t ordinal now name inherited continuation
  have htracer' : begun'.2 = _ :=
    OpenSegment.start_tracer t' ordinal now name inherited continuation
  rw [htracer, htracer'] at hcounters ⊢
  exact { hjoined with
    suffixes := (congrArg Prod.fst hset').trans (h.suffixes.trans (congrArg Prod.fst hset).symm)
    rate := le_of_eq_of_le (congrArg Prod.snd hset) h.rate
    rate' := le_of_eq_of_le (congrArg Prod.snd hset') h.rate'
    counters := hcounters
    handles := hjoined.handles_of_ledgers fun _ _ _ hledger => hledger }

variable {o o' : OpenSegment}

/-- A span is retired. -/
theorem retire (h : Alike m gap t t') (ho : o.Alike m o') (f : Frame) (now : UInt64) :
    (o.retire t f now).value.1.Alike m (o'.retire t' f now).value.1 ∧
    Alike m gap (o.retire t f now).value.2 (o'.retire t' f now).value.2 := by
  cases f with
  | placeholder name => exact ⟨ho, h⟩
  | recorded s =>
    cases hasync : s.isAsync with
    | false =>
      rw [o.retire_of_plain t now hasync, o'.retire_of_plain t' now hasync]
      exact ⟨ho.archiveAll [_], h⟩
    | true =>
      rcases ho.ledger_cases with ⟨hledger, hledger'⟩ | ⟨n, n', hledger, hledger', hpairs⟩
      · rw [OpenSegment.retire_of_stray t now hasync hledger,
          OpenSegment.retire_of_stray t' now hasync hledger']
        exact ⟨ho.archiveAll [s], h⟩
      · obtain ⟨hdone, hafter⟩ := (h.ledger hpairs).pop s
        rw [OpenSegment.retire_of_ledger t now hasync hledger,
          OpenSegment.retire_of_ledger t' now hasync hledger', hdone]
        exact ⟨ho.archiveAll _, h.setLedger hpairs hafter⟩

/-- A segment whose stack is empty ends. -/
theorem finish (h : Alike m gap t t') (ho : o.Alike m o') :
    Option.Rel (Segment.Alike m) (o.finish t).value.1 (o'.finish t').value.1 ∧
    Alike m gap (o.finish t).value.2 (o'.finish t').value.2 := by
  have hcounted := h.counted (f := (·.finish (!o.sampled))) fun c => c.finish_eq _
  unfold OpenSegment.finish
  rw [ho.sampled]
  cases hsampled : o.sampled with
  | false =>
    rw [hsampled] at hcounted
    exact ⟨.none, hcounted⟩
  | true =>
    rw [hsampled] at hcounted
    rcases ho.ledger_cases with ⟨hledger, hledger'⟩ | ⟨n, n', hledger, hledger', hpairs⟩
    · rw [hledger, hledger']
      exact ⟨.some ho.segment, hcounted⟩
    · rw [hledger, hledger']
      obtain ⟨hdue, hafter⟩ := (hcounted.ledger hpairs).settle ho.segment
      exact ⟨hdue, hcounted.setLedger hpairs hafter⟩

/-- A segment is lost. -/
theorem leak (h : Alike m gap t t') (ho : o.Alike m o') :
    Alike m gap (o.leak t).value (o'.leak t').value := by
  unfold OpenSegment.leak
  rw [ho.sampled]
  exact h.counted (f := (·.leak (!o.sampled))) fun c => c.leak_eq _

/-! ### Preparation -/

/-- Handles for ledgers that are matched already are joined. -/
theorem joined_ledger (h : Alike m gap t t') {n n' : Nat} (hpairs : m.Pairs n n') (id : Nat) :
    Alike (m.joined none none (some (.span n id)) (some (.span n' id))) gap t t' := by
  have hwithin := m.within_joined none none (some (.span n id)) (some (.span n' id))
  have hold {l l' : Nat}
      (hl : (m.joined none none (some (.span n id)) (some (.span n' id))).Pairs l l') :
      m.Pairs l l' := by
    rcases m.pairs_joined hl with hl | ⟨rfl, rfl⟩
    · exact hl
    · exact hpairs
  refine { h with
    handles := fun a ha => ?_
    bound := fun hl => h.bound (hold hl)
    oneToOne := fun hl hk => h.oneToOne (hold hl) (hold hk) }
  rcases List.mem_append.mp ha with ha | ha
  · exact h.handles_of_ledgers (fun _ _ _ hledger => hledger.mono hwithin) a ha
  · obtain rfl := List.mem_singleton.mp ha
    exact .span id ((h.ledger hpairs).mono hwithin)

/-- Handles for ledgers that are opened now are joined. -/
theorem joined_openLedger (h : Alike m gap t t') {ν : Names × Names} (hν : ν ∈ m.names)
    (id : Nat) :
    Alike
      (m.joined none none (some (.span t.ledgers.length id)) (some (.span t'.ledgers.length id)))
      gap t.openLedger.2 t'.openLedger.2 := by
  have hwithin := m.within_joined none none (some (.span t.ledgers.length id))
    (some (.span t'.ledgers.length id))
  refine { h with handles := fun a ha => ?_, bound := fun hl => ?_, oneToOne := fun hl hk => ?_ }
  · rcases List.mem_append.mp ha with ha | ha
    · refine h.handles_of_ledgers (fun n n' _ hledger => ?_) a ha
      rw [Tracer.ledger_openLedger, Tracer.ledger_openLedger]
      exact hledger.mono hwithin
    -- the new ledgers are empty
    · obtain rfl := List.mem_singleton.mp ha
      refine .span id ?_
      rw [Tracer.ledger_openLedger, Tracer.ledger_openLedger,
        Tracer.ledger_eq_empty (Nat.le_refl _), Tracer.ledger_eq_empty (Nat.le_refl _)]
      exact ⟨ν, hwithin.names hν, {}, rfl, rfl⟩
  · unfold Tracer.openLedger
    rw [List.length_append, List.length_append]
    rcases m.pairs_joined hl with hl | ⟨rfl, rfl⟩
    · exact (h.bound hl).imp Nat.lt_succ_of_lt Nat.lt_succ_of_lt
    · exact ⟨Nat.lt_succ_self _, Nat.lt_succ_self _⟩
  -- the new ledgers are behind all others
  · rcases m.pairs_joined hl with hl | ⟨rfl, rfl⟩ <;> rcases m.pairs_joined hk with hk | ⟨rfl, rfl⟩
    · exact h.oneToOne hl hk
    · have hbound := h.bound hl
      omega
    · have hbound := h.bound hk
      omega
    · exact ⟨fun _ => rfl, fun _ => rfl⟩

/-- The active span is prepared for async finish, and its handles are joined. -/
theorem prepareAsync (h : Alike m gap t t') (ho : o.Alike m o') :
    Attempt.Rel
      (fun after after' =>
        let m' := m.joined none none (some after.1) (some after'.1)
        after.2.1.Alike m' after'.2.1 ∧ Alike m' gap after.2.2 after'.2.2)
      (o.prepareAsync t) (o'.prepareAsync t') := by
  obtain ⟨ν, hν, -⟩ := ho.id
  unfold OpenSegment.prepareAsync
  rw [ho.stack]
  cases o.stack with
  | nil => exact .error rfl
  | cons f rest =>
    cases f with
    | placeholder name =>
      exact .ok ⟨ho.mono (m.within_joined _ _ _ _), h.joined_still (.inr ⟨rfl, rfl⟩)⟩
    | recorded s =>
      cases hmark : s.markAsync with
      | error x =>
        simp only [hmark]
        exact .error rfl
      | ok s' =>
        rcases ho.ledger_cases with ⟨hledger, hledger'⟩ | ⟨n, n', hledger, hledger', hpairs⟩
        · have hopened := h.joined_openLedger hν s'.id
          simp only [hmark, hledger, hledger']
          exact .ok ⟨ho.withLedger (m.within_joined _ _ _ _) m.joined_pairs _,
            hopened.setLedger m.joined_pairs ((hopened.ledger m.joined_pairs).prepare s'.id)⟩
        · have hjoined := h.joined_ledger hpairs s'.id
          simp only [hmark, hledger, hledger']
          exact .ok ⟨ho.withLedger (m.within_joined _ _ _ _) m.joined_pairs _,
            hjoined.setLedger m.joined_pairs ((hjoined.ledger m.joined_pairs).prepare s'.id)⟩

end Tracer.Alike

end TraceLink
