import TraceLink.Proofs.GateChanges
import TraceLink.Proofs.Watches

/-! # Watched segments

    Two runs that go through the same events beside the updates of the settings, from the
    moment at which a segment begins. Other segments may be decided differently in them, and
    so open more or fewer ledgers. The watched segment is the same in both up to the number
    of its ledger, and what the watch sees is answered the same. -/

namespace TraceLink

/-! ### The same names -/

/-- Names are matched with themselves only. -/
def Matching.KeepsNames (m : Matching) : Prop := ∀ ν ∈ m.names, ν.1 = ν.2

section KeepsNames

variable {m : Matching}

theorem Matching.KeepsNames.joined (h : m.KeepsNames) (a a' : Option AsyncHandle) :
    (m.joined none none a a').KeepsNames := by
  intro ν hν
  exact h ν (by simpa [Matching.joined] using hν)

theorem Segment.Alike.eq (hm : m.KeepsNames) {g g' : Segment} (h : g.Alike m g') : g' = g := by
  obtain ⟨ν, hν, x, rfl, rfl⟩ := h
  rw [hm ν hν]

theorem Ledger.Alike.eq (hm : m.KeepsNames) {l l' : Ledger} (h : l.Alike m l') : l' = l := by
  obtain ⟨ν, hν, x, rfl, rfl⟩ := h
  rw [hm ν hν]

/-- Open segments that differ in the numbers of their ledgers. -/
theorem OpenSegment.Alike.unnumbered (hm : m.KeepsNames) {o o' : OpenSegment}
    (h : o.Alike m o') : { o' with ledger := none } = { o with ledger := none } := by
  obtain ⟨ν, hν, n, n', x, -, rfl, rfl⟩ := h
  rw [hm ν hν]
  rfl

theorem handed_eq (hm : m.KeepsNames) {g g' : Option Segment}
    (h : Option.Rel (Segment.Alike m) g g') : g' = g := by
  cases h with
  | none => rfl
  | some h => exact congrArg some (h.eq hm)

/-- Replies that differ in the numbers of ledgers. -/
theorem Reply.Alike.unnumbered (hm : m.KeepsNames) {t t' : Tracer}
    (hhandles : ∀ a ∈ m.handles, AsyncHandle.Alike m t t' a.1 a.2) {r r' : Reply}
    (h : r.Alike m r') : r'.unnumbered = r.unnumbered := by
  cases h with
  | same r => rfl
  | snapshot hν inherited s => rw [hm _ hν]
  | carrier hν inherited c k => rw [hm _ hν]
  | sent hν inherited c f k => rw [hm _ hν]
  | handle hmem =>
    cases hhandles _ hmem with
    | idle => rfl
    | span id hledger => rfl

/-- The ledgers of strands that are alike are matched. -/
theorem Strand.Alike.pairs {s s' : Strand} (h : s.Alike m s') :
    (∀ n, s.ledger? = some n → ∃ n', m.Pairs n n') ∧
      ∀ n', s'.ledger? = some n' → ∃ n, m.Pairs n n' := by
  have hactive := h.active
  unfold Strand.ledger?
  generalize s.active = o, s'.active = o' at hactive
  cases hactive with
  | none => exact ⟨fun n hn => by contradiction, fun n hn => by contradiction⟩
  | some ho =>
    rcases ho.ledger_cases with ⟨hnone, hnone'⟩ | ⟨l, l', hl, hl', hpairs⟩
    · rw [Option.bind_some, Option.bind_some, hnone, hnone']
      exact ⟨fun n hn => by contradiction, fun n hn => by contradiction⟩
    · rw [Option.bind_some, Option.bind_some, hl, hl']
      refine ⟨fun n hn => ?_, fun n hn => ?_⟩
      · exact ⟨l', Option.some.inj hn ▸ hpairs⟩
      · exact ⟨l, Option.some.inj hn ▸ hpairs⟩

end KeepsNames

/-! ### Handles by their numbers -/

namespace Workplace

variable {k i : Nat}

/-- Handles of the same number are matched, or do nothing, after the next ones were given. -/
theorem handle_joined {e e' : Engine} {given given' : List (Nat × AsyncHandle)} {m : Matching}
    {a a' : Option AsyncHandle}
    (hlength : (handles ⟨e, given⟩ k).length = (handles ⟨e', given'⟩ k).length)
    (hsome : a.isSome = a'.isSome)
    (hold : (handle ⟨e, given⟩ k i, handle ⟨e', given'⟩ k i) ∈ m.handles ∨
      handle ⟨e, given⟩ k i = .idle ∧ handle ⟨e', given'⟩ k i = .idle) :
    let w : Workplace := ⟨e, given ++ a.toList.map (k, ·)⟩
    let w' : Workplace := ⟨e', given' ++ a'.toList.map (k, ·)⟩
    (w.handle k i, w'.handle k i) ∈ (m.joined none none a a').handles ∨
      w.handle k i = .idle ∧ w'.handle k i = .idle := by
  intro w w'
  rw [handle_given, handle_given, ← hlength]
  by_cases hi : i < (handles ⟨e, given⟩ k).length
  · rw [if_pos hi, if_pos hi]
    exact hold.imp_left (List.mem_append_left _)
  · rw [if_neg hi, if_neg hi]
    split
    · cases a with
      | none =>
        cases a' with
        | none => exact .inr ⟨rfl, rfl⟩
        | some a' => contradiction
      | some a =>
        cases a' with
        | none => contradiction
        | some a' => exact .inl (List.mem_append_right _ (List.mem_singleton_self _))
    · exact .inr ⟨rfl, rfl⟩

end Workplace

/-! ### Two runs -/

/-- A gate that lets everything pass. -/
def Gate.unlimited : Gate := ⟨⟨0, 0, 0⟩, []⟩

namespace Watch

/-- **The same watch** over two workplaces. The gates may differ: both are replaced by one
    without a limit, which an active strand cannot tell. -/
structure Alike (v : Watch) (m : Matching) (w w' : Workplace) : Prop where
  tidy : w.Tidy
  tidy' : w'.Tidy
  names : m.KeepsNames
  tracer : ∃ gap, Tracer.Alike m gap (w.engine.tracer.withGate .unlimited)
    (w'.engine.tracer.withGate .unlimited)
  kept : ∀ {n n'}, m.Pairs n n' → v.Private w n ∧ v.Private w' n'
  handle : ∀ {i}, v.has i = true →
    (w.handle v.place i, w'.handle v.place i) ∈ m.handles ∨
      w.handle v.place i = .idle ∧ w'.handle v.place i = .idle
  strand : v.last = none →
    Option.Rel (Strand.Alike m) (w.engine.strand? v.place) (w'.engine.strand? v.place)
  length : v.last = none → (w.handles v.place).length = (w'.handles v.place).length
  first : v.last = none → v.first ≤ (w.handles v.place).length
  last : ∀ {n}, v.last = some n →
    n ≤ (w.handles v.place).length ∧ n ≤ (w'.handles v.place).length

variable {v : Watch} {m : Matching} {w w' w₁ w₁' : Workplace}

namespace Alike

/-- The segment is open in both workplaces, or in neither. -/
theorem open?_cases (h : v.Alike m w w') (hlast : v.last = none) :
    Option.Rel (OpenSegment.Alike m) (w.engine.open? v.place) (w'.engine.open? v.place) := by
  have hstrand := h.strand hlast
  unfold Engine.open?
  generalize w.engine.strand? v.place = s, w'.engine.strand? v.place = s' at hstrand
  cases hstrand with
  | none => exact .none
  | some hs => exact hs.active

theorem alert (h : v.Alike m w w') (ha : v.Alert w) : v.Alert w' := by
  intro hlast
  have hopen := ha hlast
  have hrel := h.open?_cases hlast
  generalize w.engine.open? v.place = o, w'.engine.open? v.place = o' at hopen hrel
  cases hrel with
  | none => contradiction
  | some ho => rfl

/-- What the watch looks at is the same. -/
theorem view (h : v.Alike m w w') : v.view w' = v.view w := by
  unfold Watch.view
  cases hlast : v.last with
  | some n => rfl
  | none =>
    obtain ⟨gap, htracer⟩ := h.tracer
    have hrel := h.open?_cases hlast
    simp only [Option.isNone_none, if_true]
    generalize w.engine.open? v.place = o, w'.engine.open? v.place = o' at hrel
    cases hrel with
    | none => rfl
    | some ho =>
      next o o' =>
      have hledger : o'.ledger.map w'.engine.tracer.ledger =
          o.ledger.map w.engine.tracer.ledger := by
        rcases ho.ledger_cases with ⟨hnone, hnone'⟩ | ⟨n, n', hn, hn', hpairs⟩
        · rw [hnone, hnone']
          rfl
        · rw [hn, hn']
          exact congrArg some ((htracer.ledger hpairs).eq h.names)
      exact congrArg some (Prod.ext (ho.unnumbered h.names) hledger)

/-! ### What is not seen -/

/-- **What happens aside** keeps the watch the same, whether it happens in one of the runs
    or in both. -/
theorem aside (h : v.Alike m w w') (ha : v.Alert w) (hw : v.Aside w w₁) (hw' : v.Aside w' w₁') :
    v.Alike m w₁ w₁' where
  tidy := hw.tidy
  tidy' := hw'.tidy
  names := h.names
  tracer := by
    obtain ⟨gap, htracer⟩ := h.tracer
    exact ⟨w₁.engine.tracer.counters.since w₁'.engine.tracer.counters, {
      config := hw'.config.trans (htracer.config.trans hw.config.symm)
      suffixes := rfl
      rate := Int.le_refl _
      rate' := Int.le_refl _
      counters := (Counters.plus_since _ _).symm
      handles := htracer.handles_of_ledgers fun n n' hpairs hledger => by
        obtain ⟨hprivate, hprivate'⟩ := h.kept hpairs
        have hl : (w₁.engine.tracer.withGate .unlimited).ledger n = _ := hw.ledger hprivate
        have hl' : (w₁'.engine.tracer.withGate .unlimited).ledger n' = _ := hw'.ledger hprivate'
        rw [hl, hl']
        exact hledger
      bound := fun hpairs => (htracer.bound hpairs).imp (Nat.lt_of_lt_of_le · hw.length)
        (Nat.lt_of_lt_of_le · hw'.length)
      oneToOne := htracer.oneToOne }⟩
  kept hpairs := (h.kept hpairs).imp hw.kept hw'.kept
  handle {i} hi := by
    rw [hw.handle_eq hi fun hn => (h.last hn).1, hw'.handle_eq hi fun hn => (h.last hn).2]
    exact h.handle hi
  strand hlast := by
    have hstrand := h.strand hlast
    obtain ⟨s, o, hs, -⟩ := ha.strand hlast
    obtain ⟨s', o', hs', -⟩ := (h.alert ha).strand hlast
    rw [hs, hs'] at hstrand
    rw [hw.strand hlast hs, hw'.strand hlast hs']
    exact hstrand
  length hlast := by
    rw [hw.handles_eq hlast, hw'.handles_eq hlast]
    exact h.length hlast
  first hlast := by
    rw [hw.handles_eq hlast]
    exact h.first hlast
  last hn := (h.last hn).imp (Nat.le_trans · hw.length_handles) (Nat.le_trans · hw'.length_handles)

/-! ### The end of the segment -/

/-- The segment ends in both workplaces, with the same number of handles. -/
theorem ended (h : v.Alike m w w') (hlast : v.last = none)
    (hopen : w.engine.open? v.place = none) (hopen' : w'.engine.open? v.place = none) :
    (v.ended (w.handles v.place).length).Alike m w w' where
  tidy := h.tidy
  tidy' := h.tidy'
  names := h.names
  tracer := h.tracer
  kept hpairs := by
    obtain ⟨hprivate, hprivate'⟩ := h.kept hpairs
    exact ⟨hprivate.ended hlast hopen, h.length hlast ▸ hprivate'.ended hlast hopen'⟩
  handle hi := h.handle (has_of_ended hlast hi)
  strand hnone := by contradiction
  length hnone := by contradiction
  first hnone := by contradiction
  last hn := by
    obtain rfl := Option.some.inj hn
    exact ⟨Nat.le_refl _, Nat.le_of_eq (h.length hlast)⟩

/-- **The watch ends** in both workplaces or in neither. -/
theorem next (h : v.Alike m w w') : (v.next w).Alike m w w' ∧ v.next w' = v.next w := by
  cases hlast : v.last with
  | some n =>
    rw [next_of_last hlast, next_of_last hlast]
    exact ⟨h, rfl⟩
  | none =>
    have hrel := h.open?_cases hlast
    cases hopen : w.engine.open? v.place with
    | some o =>
      have ha : v.Alert w := fun _ => by rw [hopen]; rfl
      rw [next_of_alert ha, next_of_alert (h.alert ha)]
      exact ⟨h, rfl⟩
    | none =>
      have hopen' : w'.engine.open? v.place = none := by
        rw [hopen] at hrel
        generalize w'.engine.open? v.place = o' at hrel
        cases hrel
        rfl
      rw [next_of_idle hlast hopen, next_of_idle hlast hopen', ← h.length hlast]
      exact ⟨h.ended hlast hopen hopen', rfl⟩

end Alike

/-! ### What is seen -/

/-- No segment begins while one is open. -/
theorem begins_of_active {s : Site} {o : OpenSegment} (h : s.strand.active = some o)
    (now : UInt64) (op : StrandOp) : s.begins now op = none := by
  unfold Site.begins Site.fresh Strand.isActive
  rw [h]
  cases op.opens? <;> rfl

/-- **The same outcome** for the watch. -/
structure Agree (v : Watch) (o o' : Outcome Workplace) : Prop where
  reply : o'.reply.unnumbered = o.reply.unnumbered
  handed : o'.handed = o.handed
  alike : ∃ m, v.Alike m o.state o'.state

/-- A ledger is private after an operation of the strand if it was so before, or is new. -/
theorem private_own (hw : w.Tidy) {s s₁ : Site} (hsite : w.engine.site? v.place = some s)
    (hlast : v.last = none) (hfirst : v.first ≤ (w.handles v.place).length)
    (given : Option AsyncHandle) {n : Nat}
    (hn : v.Private w n ∨ w.engine.tracer.ledgers.length ≤ n)
    (hbound : n < s₁.tracer.ledgers.length) :
    v.Private
      ⟨w.engine.setSite v.place s₁, w.given ++ given.toList.map (v.place, ·)⟩ n := by
  -- the ledger is reached by nobody else, be it because it was not there
  have hhandle {j i id : Nat} (hk : w.handle j i = .span n id) :
      j = v.place ∧ v.has i = true := by
    rcases hn with hn | hnew
    · exact hn.handle hk
    · exact absurd (hw.bound (Workplace.owns_of_handle hk)) (Nat.not_lt_of_le hnew)
  have hhas : v.has (w.handles v.place).length = true := by
    unfold has
    rw [hlast, Option.all_none, Bool.and_true]
    exact decide_eq_true hfirst
  refine ⟨hbound, fun {j i id} hk => ?_, fun {j s'} hs hk => ?_⟩
  · rcases handle_given_cases hk with hold | ⟨rfl, rfl, -⟩
    · exact hhandle hold
    · exact ⟨rfl, hhas⟩
  · by_cases hj : j = v.place
    · exact ⟨hj, hlast⟩
    · rw [Engine.strand?_setSite hsite, if_neg (Ne.symm hj)] at hs
      rcases hn with hn | hnew
      · exact hn.strand hs hk
      · exact absurd (hw.bound (hw.own hs hk)) (Nat.not_lt_of_le hnew)

namespace Alike

/-- The sites of the strand, while the segment is open. -/
theorem sites (h : v.Alike m w w') (ha : v.Alert w) (hlast : v.last = none) :
    ∃ gap s s' o o', w.engine.site? v.place = some s ∧ w'.engine.site? v.place = some s' ∧
      s.strand.active = some o ∧ s'.strand.active = some o' ∧
      (s.withGate .unlimited).Alike m gap (s'.withGate .unlimited) := by
  obtain ⟨gap, htracer⟩ := h.tracer
  obtain ⟨s, o, hs, hactive⟩ := ha.strand hlast
  obtain ⟨s', o', hs', hactive'⟩ := (h.alert ha).strand hlast
  have hstrand := h.strand hlast
  rw [hs, hs'] at hstrand
  cases hstrand with
  | some hstrand =>
    exact ⟨gap, ⟨_, s⟩, ⟨_, s'⟩, o, o', Engine.site?_of_strand? hs, Engine.site?_of_strand? hs',
      hactive, hactive', htracer, hstrand⟩

/-- The strand works with its own site. -/
theorem own (h : v.Alike m w w') (hlast : v.last = none) {s s' s₁ s₁' : Site}
    (hsite : w.engine.site? v.place = some s) (hsite' : w'.engine.site? v.place = some s')
    {a a' : Option AsyncHandle} (hfoot : s.Footprint a s₁) (hfoot' : s'.Footprint a' s₁')
    {gap : Counters} (halike : (s₁.withGate .unlimited).Alike (m.joined none none a a') gap
      (s₁'.withGate .unlimited))
    (hsome : a.isSome = a'.isSome) :
    v.Alike (m.joined none none a a')
      ⟨w.engine.setSite v.place s₁, w.given ++ a.toList.map (v.place, ·)⟩
      ⟨w'.engine.setSite v.place s₁', w'.given ++ a'.toList.map (v.place, ·)⟩ := by
  have hstrand : s.strand.Alike m s'.strand := by
    have hrel := h.strand hlast
    rw [Engine.strand?_of_site? hsite, Engine.strand?_of_site? hsite'] at hrel
    cases hrel with
    | some hrel => exact hrel
  have hlength := h.length hlast
  have hmore := h.first hlast
  have hcount : a.toList.length = a'.toList.length := by
    rw [Option.length_toList, Option.length_toList, hsome]
  have hledgers := congrArg (fun t : Tracer => t.ledgers.length) (Engine.tracer_of_site? hsite)
  have hledgers' := congrArg (fun t : Tracer => t.ledgers.length) (Engine.tracer_of_site? hsite')
  -- a ledger is matched already, or both were opened now
  have hpairs {n n' : Nat} (hp : (m.joined none none a a').Pairs n n') :
      (v.Private w n ∨ w.engine.tracer.ledgers.length ≤ n) ∧
        (v.Private w' n' ∨ w'.engine.tracer.ledgers.length ≤ n') := by
    obtain ⟨id, hmem⟩ := hp
    rcases List.mem_append.mp hmem with hold | hnew
    · exact (h.kept ⟨id, hold⟩).imp .inl .inl
    · obtain ⟨hg, hg'⟩ := List.of_mem_zip hnew
      refine ⟨?_, ?_⟩
      · rcases hfoot.given n id (Option.mem_toList.mp hg) with hown | ⟨hge, -⟩
        · obtain ⟨l, hl⟩ := hstrand.pairs.1 n hown
          exact .inl (h.kept hl).1
        · exact .inr (hledgers ▸ hge)
      · rcases hfoot'.given n' id (Option.mem_toList.mp hg') with hown | ⟨hge, -⟩
        · obtain ⟨l, hl⟩ := hstrand.pairs.2 n' hown
          exact .inl (h.kept hl).2
        · exact .inr (hledgers' ▸ hge)
  exact {
    tidy := (Workplace.footprint_own h.tidy hsite hfoot).tidy h.tidy
    tidy' := (Workplace.footprint_own h.tidy' hsite' hfoot').tidy h.tidy'
    names := h.names.joined a a'
    tracer := ⟨gap, halike.tracer⟩
    kept := fun hp =>
      have hbound := halike.tracer.bound hp
      ⟨private_own h.tidy hsite hlast hmore a (hpairs hp).1 hbound.1,
        private_own h.tidy' hsite' hlast (hlength ▸ hmore) a' (hpairs hp).2 hbound.2⟩
    handle := fun hi => Workplace.handle_joined hlength hsome (h.handle hi)
    strand := fun _ => by
      rw [Engine.strand?_setSite hsite, Engine.strand?_setSite hsite', if_pos rfl, if_pos rfl]
      exact .some halike.strand
    length := fun _ => by
      rw [Workplace.handles_given, Workplace.handles_given, List.length_append, List.length_append]
      exact congrArg₂ (· + ·) hlength hcount
    first := fun _ => by
      rw [Workplace.handles_given, List.length_append]
      exact Nat.le_add_right_of_le hmore
    last := fun hn => by
      rw [hlast] at hn
      contradiction }

variable (now : UInt64)

/-- An operation of the strand while the segment is open. -/
theorem turn_own (h : v.Alike m w w') (ha : v.Alert w) (hlast : v.last = none) (op : StrandOp) :
    v.Agree (w.turn ⟨now, v.place, .own op⟩) (w'.turn ⟨now, v.place, .own op⟩) := by
  obtain ⟨gap, s, s', o, o', hsite, hsite', hactive, hactive', halike⟩ := h.sites ha hlast
  -- the step under the gate without a limit, in which no segment begins
  have hstep := halike.step now op fun snapshot _ =>
    halike.isCurrent_eq fun ν hν => by rw [h.names ν hν]
  have hnone : (s.withGate .unlimited).begins now op = none := begins_of_active hactive now op
  have hnone' : (s'.withGate .unlimited).begins now op = none := begins_of_active hactive' now op
  rw [hnone, hnone', Site.step_withGate _ hactive, Site.step_withGate _ hactive'] at hstep
  have hfoot := Site.footprint_of_effect (s.effect_of_step now op)
  have hfoot' := Site.footprint_of_effect (s'.effect_of_step now op)
  rw [Workplace.turn_own hsite, Workplace.turn_own hsite']
  generalize (s.step now op).value = done, (s'.step now op).value = done' at hstep hfoot hfoot'
  obtain ⟨hreply, hhanded, hstate⟩ := hstep
  have hnames := h.names.joined (op.given? done.reply) (op.given? done'.reply)
  exact {
    reply := hreply.unnumbered hnames hstate.tracer.handles
    handed := handed_eq hnames hhanded
    alike := ⟨_, h.own hlast hsite hsite' hfoot hfoot' hstate (hreply.given?_isSome op)⟩ }

/-- The strand leaves while the segment is open. -/
theorem turn_leave (h : v.Alike m w w') (ha : v.Alert w) (hlast : v.last = none) :
    v.Agree (w.turn ⟨now, v.place, .leave⟩) (w'.turn ⟨now, v.place, .leave⟩) := by
  obtain ⟨gap, s, s', -, -, hsite, hsite', -, -, halike⟩ := h.sites ha hlast
  have htracer := halike.leave
  rw [Site.leave_withGate, Site.leave_withGate] at htracer
  have hgone : Option.Rel (Strand.Alike m)
      (Engine.strand? ⟨s.leave.value, w.engine.strands.set v.place none⟩ v.place)
      (Engine.strand? ⟨s'.leave.value, w'.engine.strands.set v.place none⟩ v.place) := by
    rw [Engine.strand?_leave hsite, Engine.strand?_leave hsite', if_pos rfl, if_pos rfl]
    exact .none
  rw [Workplace.turn_leave hsite, Workplace.turn_leave hsite']
  exact {
    reply := rfl
    handed := rfl
    alike := ⟨m, { h with
      tidy := (Workplace.footprint_leave hsite).tidy h.tidy
      tidy' := (Workplace.footprint_leave hsite').tidy h.tidy'
      tracer := ⟨gap, htracer⟩
      kept := fun hp => (h.kept hp).imp (·.leave hsite) (·.leave hsite')
      strand := fun _ => hgone }⟩ }

/-- An operation of a handle that was given to the segment. -/
theorem turn_handle (h : v.Alike m w w') {i : Nat} (hi : v.has i = true) (op : HandleOp) :
    v.Agree (w.turn ⟨now, v.place, .handle i op⟩) (w'.turn ⟨now, v.place, .handle i op⟩) := by
  obtain ⟨gap, htracer⟩ := h.tracer
  have hfoot := Workplace.footprint_handle (k := v.place) h.tidy now i op
  have hfoot' := Workplace.footprint_handle (k := v.place) h.tidy' now i op
  let done := (w.engine.tracer.handle (w.handle v.place i) now op).value
  let done' := (w'.engine.tracer.handle (w'.handle v.place i) now op).value
  have hdone : Option.Rel (Segment.Alike m) done.1 done'.1 ∧
      Tracer.Alike m gap (done.2.withGate .unlimited) (done'.2.withGate .unlimited) := by
    rcases h.handle hi with hmem | ⟨hidle, hidle'⟩
    · have hboth := htracer.handle hmem now op
      rw [Tracer.handle_withGate, Tracer.handle_withGate] at hboth
      exact hboth
    · simp only [done, done', hidle, hidle']
      exact ⟨.none, htracer⟩
  obtain ⟨hdue, hafter⟩ := hdone
  have hreported := hafter.reportDue done.1 done'.1
  rw [Tracer.reportDue_withGate, Tracer.reportDue_withGate] at hreported
  rw [Workplace.turn_handle, Workplace.turn_handle]
  exact {
    reply := rfl
    handed := handed_eq h.names hdue
    alike := ⟨m, { h with
      tidy := hfoot.tidy h.tidy
      tidy' := hfoot'.tidy h.tidy'
      tracer := ⟨gap, hreported⟩
      kept := fun hp => (h.kept hp).imp (·.handled hfoot.length) (·.handled hfoot'.length) }⟩ }

/-- **What the watch sees** has the same outcome in both workplaces. -/
theorem event (h : v.Alike m w w') (ha : v.Alert w) {ev : Event} (hseen : v.sees ev = true) :
    v.Agree (w.event ev) (w'.event ev) := by
  cases ev with
  | shared now op => contradiction
  | turn x =>
    obtain ⟨now, k, act⟩ := x
    obtain ⟨hplace, hact⟩ := (Bool.and_eq_true _ _).mp hseen
    obtain rfl : k = v.place := beq_iff_eq.mp hplace
    cases act with
    | own op => exact h.turn_own now ha (Option.isNone_iff_eq_none.mp hact) op
    | leave => exact h.turn_leave now ha (Option.isNone_iff_eq_none.mp hact)
    | handle i op => exact h.turn_handle now hact op

/-! ### Runs -/

/-- **Updates of the settings make no difference** to what the watch sees from now on. -/
theorem run (h : v.Alike m w w') (ha : v.Alert w) (evs : List Event) :
    v.answers w' (Event.settled evs) = v.answers w evs ∧
      v.finalView w' (Event.settled evs) = v.finalView w evs := by
  induction evs generalizing v m w w' with
  | nil => exact ⟨rfl, h.view⟩
  | cons ev evs ih =>
    cases hupdate : ev.isUpdate with
    | true =>
      -- only the one run goes on
      have hunseen : v.sees ev = false := by
        cases ev with
        | turn x => contradiction
        | shared now op => rfl
      have haside := aside_event h.tidy hunseen
      have hawake := haside.alert ha
      have hsettled : Event.settled (ev :: evs) = Event.settled evs :=
        List.filter_cons_of_neg (by rw [hupdate]; exact Bool.false_ne_true)
      simp only [hsettled, answers, finalView, hunseen, next_of_alert hawake, Bool.false_eq_true,
        if_false]
      exact ih (h.aside ha haside (aside_self h.tidy')) hawake
    | false =>
      have hsettled : Event.settled (ev :: evs) = ev :: Event.settled evs :=
        List.filter_cons_of_pos (by rw [hupdate]; rfl)
      cases hseen : v.sees ev with
      | false =>
        have haside := aside_event h.tidy hseen
        have hawake := haside.alert ha
        have halike := h.aside ha haside (aside_event h.tidy' hseen)
        simp only [hsettled, answers, finalView, hseen, next_of_alert hawake,
          next_of_alert (halike.alert hawake), Bool.false_eq_true, if_false]
        exact ih halike hawake
      | true =>
        obtain ⟨hreply, hhanded, m', hboth⟩ := h.event ha hseen
        obtain ⟨halike, hnext⟩ := hboth.next
        obtain ⟨hanswers, hview⟩ := ih halike (alert_next v _)
        simp only [hsettled, answers, finalView, hseen, hnext, hreply, hhanded, hanswers, hview]
        exact ⟨trivial, trivial⟩

end Alike

end Watch

end TraceLink
