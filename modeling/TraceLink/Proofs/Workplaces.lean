import TraceLink.Proofs.MatchedSites
import TraceLink.Proofs.StrandInvariants

/-! # Workplaces

    A *workplace* is an engine at which several strands take turns. In its turn a strand
    does an operation of its own, works with a handle that it was given before, or leaves.
    It names its handles by the order in which they were given to it.

    A turn of one strand leaves its footprint on the ledgers of this strand, on the ids,
    the counters and the reporter, and on nothing else. -/

namespace TraceLink

/-! ### Turns -/

/-- **Act** of a strand. -/
inductive Act where
  | own (op : StrandOp)
  /-- An operation of the handle that was given to the strand as number `i`. -/
  | handle (i : Nat) (op : HandleOp)
  | leave
  deriving Repr

/-- **Turn** of the strand at a place. -/
structure Turn where
  time : UInt64
  place : Nat
  act : Act
  deriving Repr

/-- The handle that an act gives to the strand. -/
def Act.given? (act : Act) (reply : Reply) : Option AsyncHandle :=
  match act with
  | .own op => op.given? reply
  | _ => none

/-- The snapshot that an act receives. -/
def Act.snapshot? : Act → Option Snapshot
  | .own op => op.snapshot?
  | _ => none

/-- **Workplace**: an engine, and the handles that were given to its strands, with the
    places of the strands. -/
structure Workplace where
  engine : Engine
  given : List (Nat × AsyncHandle) := []
  deriving Repr, DecidableEq

namespace Workplace

/-- The handles that were given to the strand at place `k`, in order. -/
def handles (w : Workplace) (k : Nat) : List AsyncHandle :=
  (w.given.filter (·.1 = k)).map (·.2)

/-- The handle that was given to the strand at place `k` as number `i`. One that was not
    given does nothing. -/
def handle (w : Workplace) (k i : Nat) : AsyncHandle := (w.handles k).getD i .idle

/-- The operation of a turn. -/
def op (w : Workplace) (x : Turn) : Op :=
  match x.act with
  | .own op => .strand x.place op
  | .handle i op => .handle (w.handle x.place i) op
  | .leave => .closeStrand x.place

/-- A turn. -/
def turn (w : Workplace) (x : Turn) : Outcome Workplace :=
  let o := (w.engine.step x.time (w.op x)).value
  o.map fun engine => ⟨engine, w.given ++ (x.act.given? o.reply).toList.map (x.place, ·)⟩

/-- The names of the segment that begins in a turn. -/
def begins (w : Workplace) (x : Turn) : Option Names :=
  match x.act with
  | .own op => (w.engine.site? x.place).bind fun s => s.begins x.time op
  | _ => none

end Workplace

/-! ### Footprints -/

/-- The ledger of the open segment. -/
def Strand.ledger? (s : Strand) : Option Nat := s.active.bind (·.ledger)

/-- **Footprint** of an operation of a strand, which may be given a handle: the settings of
    the tracer stay, and of the ledgers only the one of the open segment changes. -/
structure Site.Footprint (given : Option AsyncHandle) (s s' : Site) : Prop where
  config : s'.tracer.config = s.tracer.config
  setting : s'.tracer.gate.setting = s.tracer.gate.setting
  length : s.tracer.ledgers.length ≤ s'.tracer.ledgers.length
  ledger : ∀ n < s.tracer.ledgers.length, s.strand.ledger? ≠ some n →
    s'.tracer.ledger n = s.tracer.ledger n
  own : ∀ n, s'.strand.ledger? = some n →
    s.strand.ledger? = some n ∨ ∃ id, given = some (.span n id)
  given : ∀ n id, given = some (.span n id) →
    s.strand.ledger? = some n ∨ s.tracer.ledgers.length ≤ n ∧ n < s'.tracer.ledgers.length

theorem Tracer.gate_reportDue (t : Tracer) (due : Option Segment) :
    (t.reportDue due).value.gate = t.gate := by
  cases due with
  | none => rfl
  | some g => rfl

namespace OpenSegment

/-- A stop changes the ledger of the segment only. -/
theorem spares_stop {o o₁ o' : OpenSegment} {t t' : Tracer} {expected : Option Int} {f : Frame}
    {now : UInt64} (hpop : o.pop expected = .ok (f, o₁))
    (hretire : (o₁.retire t f now).value = (o', t')) :
    o'.ledger = o.ledger ∧ t.Spares o.ledger t' ∧ t'.gate = t.gate := by
  obtain ⟨rest, -, rfl, -⟩ := pop_eq_ok hpop
  have hretired := OpenSegment.retired_retire { o with stack := rest } t f now
  rw [hretire] at hretired
  refine ⟨?_, hretired.spares.2.1, ?_⟩
  · cases hretired <;> rfl
  · cases hretired <;> rfl

theorem spares_finish (o : OpenSegment) (t : Tracer) :
    t.Spares o.ledger (o.finish t).value.2 ∧ (o.finish t).value.2.gate = t.gate := by
  have hcounted (c : Counters) (n : Option Nat) : t.Spares n { t with counters := c } :=
    ⟨rfl, Nat.le_refl _, fun _ _ => rfl⟩
  unfold finish
  cases o.sampled with
  | false => exact ⟨hcounted _ _, rfl⟩
  | true =>
    cases o.ledger with
    | none => exact ⟨hcounted _ _, rfl⟩
    | some n => exact ⟨(hcounted _ _).trans (Tracer.spares_setLedger _ n _), rfl⟩

end OpenSegment

namespace Site

theorem ledger?_eq (s : Site) : s.strand.ledger? = s.outline?.bind (·.ledger) := by
  unfold Strand.ledger? outline?
  cases s.strand.active with
  | none => rfl
  | some o => rfl

theorem setting_segmentFor (s : Site) (name : String) (inherited : Inherited) (now : UInt64) :
    (s.segmentFor name inherited now).value.2.tracer.gate.setting = s.tracer.gate.setting := by
  cases hactive : s.strand.active with
  | some o =>
    rw [segmentFor_of_active name inherited now hactive]
    rfl
  | none =>
    have hset := s.tracer.gate.setting_judge name
      (OpenSegment.decision inherited s.strand.continuation) now
    rw [segmentFor_of_idle name inherited now hactive]
    simp only
    rw [OpenSegment.start_tracer]
    exact hset

theorem gate_leave (s : Site) : s.leave.value.gate = s.tracer.gate := by
  unfold leave
  split
  · rfl
  · rfl

variable {s s' : Site} {now : UInt64} {op : StrandOp}

/-- While no ledger changes, the footprint is that of the open segment. -/
theorem footprint_of_ledgers (hconfig : s'.tracer.config = s.tracer.config)
    (hsetting : s'.tracer.gate.setting = s.tracer.gate.setting)
    (hledgers : s'.tracer.ledgers = s.tracer.ledgers)
    (hown : s'.strand.ledger? = s.strand.ledger?) :
    Footprint none s s' where
  config := hconfig
  setting := hsetting
  length := le_of_eq (congrArg List.length hledgers).symm
  ledger n _ _ := by rw [Tracer.ledger, Tracer.ledger, hledgers]
  own n hn := .inl (hown ▸ hn)
  given n id hgiven := by contradiction

/-- The footprint of an operation that opens a span. -/
theorem footprint_of_opens {outcome : Outcome Site} {kind : SpanKind}
    (heffect : Effect now s op outcome) (hop : op.opens? = some kind)
    (hsetting : outcome.state.tracer.gate.setting = s.tracer.gate.setting) :
    Footprint none s outcome.state := by
  obtain ⟨-, hconfig, hledgers, hout⟩ := Life.opens_of_effect heffect hop
  refine footprint_of_ledgers hconfig hsetting hledgers ?_
  rw [ledger?_eq, ledger?_eq]
  rcases hout with ⟨x, b, hx, hopened⟩ | ⟨hnone, id, sampled, hopened⟩
  · rw [hx, hopened]
    exact (Outline.opened_fields _ _ kind now).1
  · rw [hnone, hopened]
    exact (Outline.opened_fields _ _ kind now).1

/-- The footprint of a stop, which changes the ledger of the segment only. -/
theorem footprint_of_spares {o : OpenSegment} (hactive : s.strand.active = some o)
    (hsetting : s'.tracer.gate.setting = s.tracer.gate.setting)
    (hspares : s.tracer.Spares o.ledger s'.tracer)
    (hown : ∀ n, s'.strand.ledger? = some n → o.ledger = some n) : Footprint none s s' := by
  have hledger : s.strand.ledger? = o.ledger := by
    unfold Strand.ledger?
    rw [hactive]
    rfl
  exact {
    config := hspares.config
    setting := hsetting
    length := hspares.length
    ledger := fun n _ hn => hspares.ledger n (hledger ▸ hn)
    own := fun n hn => .inl (hledger.trans (hown n hn))
    given := fun n id hgiven => by contradiction }

/-- The footprint of a preparation: the ledger of the segment is there already, or it is
    opened behind the others. -/
theorem footprint_prepared {o o' : OpenSegment} {t : Tracer} {a : AsyncHandle}
    (hactive : s.strand.active = some o) (hprepare : o.prepareAsync s.tracer = .ok (a, o', t)) :
    Footprint (some a) s ⟨t, { s.strand with active := some o' }⟩ := by
  have hown : s.strand.ledger? = o.ledger := by
    unfold Strand.ledger?
    rw [hactive]
    rfl
  rcases OpenSegment.prepareAsync_eq_ok hprepare with ⟨rfl, rfl, rfl⟩ |
    ⟨x, rest, n, t₁, -, -, ⟨hledger, rfl⟩ | ⟨hledger, hopened⟩, rfl, rfl, rfl⟩
  · refine ⟨rfl, rfl, Nat.le_refl _, fun _ _ _ => rfl, fun n hn => .inl (hown.trans hn), ?_⟩
    intro n id hgiven
    cases hgiven
  · refine ⟨rfl, rfl, ?_, fun k _ hk => ?_, fun k hk => .inl ?_, fun k id hgiven => .inl ?_⟩
    · exact le_of_eq (List.length_set ..).symm
    · exact Tracer.ledger_setLedger_of_ne
        (fun heq => hk ((hown.trans hledger).trans (congrArg some heq))) _
    · exact (hown.trans hledger).trans hk
    · cases hgiven
      exact hown.trans hledger
  · obtain ⟨rfl, rfl⟩ := Prod.mk.inj hopened
    have hlength : (s.tracer.openLedger.2.setLedger s.tracer.openLedger.1
        ((s.tracer.openLedger.2.ledger s.tracer.openLedger.1).prepare x.id)).ledgers.length =
        s.tracer.ledgers.length + 1 := (List.length_set ..).trans List.length_append
    refine ⟨rfl, rfl, ?_, fun k hlt _ => ?_, fun k hk => .inr ⟨x.id, ?_⟩,
      fun k id hgiven => .inr ?_⟩
    · exact hlength ▸ Nat.le_succ _
    · exact (Tracer.ledger_setLedger_of_ne (Nat.ne_of_gt hlt) _).trans
        (s.tracer.ledger_openLedger k)
    · obtain rfl : s.tracer.openLedger.1 = k := Option.some.inj hk
      rfl
    · cases hgiven
      exact ⟨Nat.le_refl _, hlength ▸ Nat.lt_succ_self _⟩

/-- **Every operation** leaves a footprint. -/
theorem footprint_of_effect {outcome : Outcome Site} (h : Effect now s op outcome) :
    Footprint (op.given? outcome.reply) s outcome.state := by
  have hconfig := config_of_effect h
  cases h with
  | refused e hop =>
    rw [op.given?_of_not_handle fun a ha => by contradiction]
    exact footprint_of_ledgers rfl rfl rfl rfl
  | touched hop hstop hprepare htouch =>
    obtain ⟨htracer, b, hout⟩ := outline?_touches htouch
    rw [op.given?_of_ne hprepare]
    refine footprint_of_ledgers hconfig (by rw [htracer]) (by rw [htracer]) ?_
    rw [ledger?_eq, ledger?_eq, hout]
    cases s.outline? with
    | none => rfl
    | some x => rfl
  | opened hop hread htouch hsegment hopen =>
    next kind name inbound s₁ s₂ o o' f =>
    have hsetting := s₁.setting_segmentFor name (inheritedFrom inbound).1 now
    rw [hsegment, (outline?_touches htouch).1] at hsetting
    rw [op.given?_of_ne (fun heq => by rw [heq] at hop; contradiction)]
    exact footprint_of_opens (.opened hop hread htouch hsegment hopen) hop hsetting
  | sent hsegment hopen =>
    next name peer k k' s₂ o o' f =>
    have hsetting := s.setting_segmentFor name .undecided now
    rw [hsegment] at hsetting
    exact footprint_of_opens (.sent hsegment hopen) rfl hsetting
  | prepared hactive hprepare => exact footprint_prepared hactive hprepare
  | stopped hactive hpop hretire hopen =>
    next expected o o₁ o' f t =>
    obtain ⟨hledger, hspares, hgate⟩ := OpenSegment.spares_stop hpop hretire
    exact footprint_of_spares hactive (congrArg Gate.setting hgate) hspares
      fun n hn => hledger.symm.trans hn
  | ended hactive hpop hretire hlast hfinish =>
    next expected o o₁ o' f t t' due =>
    obtain ⟨hledger, hspares, hgate⟩ := OpenSegment.spares_stop hpop hretire
    obtain ⟨hspares', hgate'⟩ := o'.spares_finish t
    rw [hfinish, hledger] at hspares'
    rw [hfinish] at hgate'
    refine footprint_of_spares hactive (congrArg Gate.setting ?_) ?_ fun n hn => by contradiction
    · exact (t'.gate_reportDue due).trans (hgate'.trans hgate)
    · obtain ⟨hconfig', hledgers'⟩ := t'.reportDue_value due
      exact hspares.trans (hspares'.trans (Tracer.spares_of_ledgers_eq hconfig' hledgers' _))

end Site

namespace Workplace

variable {w w' : Workplace} {k : Nat}

/-- The strand at place `k` was given a handle for this ledger. -/
def Owns (w : Workplace) (k n : Nat) : Prop := ∃ id, (k, .span n id) ∈ w.given

/-- **Tidy workplace**: every ledger belongs to the strand that was given its handles. -/
structure Tidy (w : Workplace) : Prop where
  bound : ∀ {k n}, w.Owns k n → n < w.engine.tracer.ledgers.length
  apart : ∀ {k k' n}, w.Owns k n → w.Owns k' n → k = k'
  own : ∀ {k s n}, w.engine.strand? k = some s → s.ledger? = some n → w.Owns k n

/-- **Footprint** of a turn of the strand at place `k`. -/
structure Footprint (k : Nat) (w w' : Workplace) : Prop where
  config : w'.engine.tracer.config = w.engine.tracer.config
  setting : w'.engine.tracer.gate.setting = w.engine.tracer.gate.setting
  length : w.engine.tracer.ledgers.length ≤ w'.engine.tracer.ledgers.length
  strand : ∀ j, j ≠ k → w'.engine.strand? j = w.engine.strand? j
  ledger : ∀ n < w.engine.tracer.ledgers.length, ¬w.Owns k n →
    w'.engine.tracer.ledger n = w.engine.tracer.ledger n
  given : ∃ new : Option AsyncHandle, w'.given = w.given ++ new.toList.map (k, ·) ∧
    ∀ n id, new = some (.span n id) → w.Owns k n ∨
      w.engine.tracer.ledgers.length ≤ n ∧ n < w'.engine.tracer.ledgers.length
  own : ∀ {s n}, w'.engine.strand? k = some s → s.ledger? = some n → w'.Owns k n

/-! ### Handles -/

section Handles

variable (e : Engine) (given : List (Nat × AsyncHandle)) {w w' : Workplace} {j k i : Nat}

/-- A strand that is given a handle has it behind those that it has. -/
theorem handles_given (k : Nat) (a : Option AsyncHandle) :
    handles ⟨e, given ++ a.toList.map (k, ·)⟩ k = handles ⟨e, given⟩ k ++ a.toList := by
  unfold handles
  rw [List.filter_append, List.map_append]
  cases a with
  | none => rfl
  | some a => simp

/-- What one strand is given is no handle of another one. -/
theorem handles_given_other (hj : j ≠ k) (a : Option AsyncHandle) :
    handles ⟨e, given ++ a.toList.map (j, ·)⟩ k = handles ⟨e, given⟩ k := by
  have hnone : (a.toList.map (j, ·)).filter (·.1 = k) = [] := by
    cases a with
    | none => rfl
    | some a => exact List.filter_cons_of_neg (by simpa using hj)
  unfold handles
  rw [List.filter_append, hnone, List.append_nil]

/-- A handle that was not given does nothing. -/
theorem handle_of_le (h : (w.handles k).length ≤ i) : w.handle k i = .idle := by
  unfold handle
  rw [List.getD_eq_getElem?_getD, List.getElem?_eq_none h]
  rfl

theorem lt_length_of_handle {n id : Nat} (h : w.handle k i = .span n id) :
    i < (w.handles k).length := by
  by_contra hi
  rw [handle_of_le (Nat.le_of_not_lt hi)] at h
  contradiction

/-- A handle keeps its number when others are given. -/
theorem handle_of_append {more : List AsyncHandle} (h : w'.handles k = w.handles k ++ more)
    (hi : i < (w.handles k).length) : w'.handle k i = w.handle k i := by
  unfold handle
  rw [h, List.getD_eq_getElem?_getD, List.getD_eq_getElem?_getD, List.getElem?_append_left hi]

/-- The handles after one was given are those before, and this one behind them. -/
theorem handle_given (k : Nat) (a : Option AsyncHandle) (i : Nat) :
    handle ⟨e, given ++ a.toList.map (k, ·)⟩ k i =
      if i < (handles ⟨e, given⟩ k).length then handle ⟨e, given⟩ k i
      else if i = (handles ⟨e, given⟩ k).length then a.getD .idle else .idle := by
  have hmore := handles_given e given k a
  split
  · next hi => exact handle_of_append hmore hi
  · split
    · next heq =>
      unfold handle
      rw [hmore, heq, List.getD_eq_getElem?_getD, List.getElem?_append_right (Nat.le_refl _),
        Nat.sub_self]
      cases a <;> rfl
    · refine handle_of_le ?_
      rw [hmore, List.length_append, Option.length_toList]
      split <;> omega

end Handles

/-! ### Turns, act by act -/

theorem turn_own {s : Site} (hsite : w.engine.site? k = some s) (now : UInt64) (op : StrandOp) :
    w.turn ⟨now, k, .own op⟩ = (s.step now op).value.map fun s' =>
      ⟨w.engine.setSite k s',
        w.given ++ (op.given? (s.step now op).value.reply).toList.map (k, ·)⟩ := by
  unfold turn Workplace.op
  simp only [Engine.step_strand hsite, Act.given?, Outcome.map]

/-- A strand that has gone does nothing. -/
theorem turn_missing (hsite : w.engine.site? k = none) (now : UInt64) (op : StrandOp) :
    w.turn ⟨now, k, .own op⟩ = .of .missing w := by
  unfold turn Workplace.op
  simp only [Engine.step, hsite, Logged.pure_value, Act.given?, Outcome.map, Outcome.of,
    op.given?_of_not_handle fun a (h : Reply.missing = .handle a) => by contradiction,
    Option.toList_none, List.map_nil, List.append_nil]

theorem begins_own {s : Site} (hsite : w.engine.site? k = some s) (now : UInt64) (op : StrandOp) :
    w.begins ⟨now, k, .own op⟩ = s.begins now op := by
  simp only [begins, hsite, Option.bind_some]

theorem begins_missing (hsite : w.engine.site? k = none) (now : UInt64) (op : StrandOp) :
    w.begins ⟨now, k, .own op⟩ = none := by
  simp only [begins, hsite, Option.bind_none]

theorem turn_handle (now : UInt64) (i : Nat) (op : HandleOp) :
    let after := (w.engine.tracer.handle (w.handle k i) now op).value
    w.turn ⟨now, k, .handle i op⟩ =
      ⟨.done, after.1,
        { w with engine := { w.engine with tracer := (after.2.reportDue after.1).value } }⟩ := by
  unfold turn Workplace.op
  simp only [Engine.step, Logged.bind_value, Logged.pure_value, Act.given?, Outcome.map,
    Option.toList_none, List.map_nil, List.append_nil]

theorem turn_leave {s : Site} (hsite : w.engine.site? k = some s) (now : UInt64) :
    w.turn ⟨now, k, .leave⟩ =
      .of .done { w with engine := ⟨s.leave.value, w.engine.strands.set k none⟩ } := by
  unfold turn Workplace.op
  simp only [Engine.step, Engine.closeStrand, hsite, Logged.bind_value, Logged.pure_value,
    Act.given?, Outcome.map, Outcome.of, Option.toList_none, List.map_nil, List.append_nil]

theorem turn_leave_missing (hsite : w.engine.site? k = none) (now : UInt64) :
    w.turn ⟨now, k, .leave⟩ = .of .done w := by
  unfold turn Workplace.op
  simp only [Engine.step, Engine.closeStrand, hsite, Logged.bind_value, Logged.pure_value,
    Act.given?, Outcome.map, Outcome.of, Option.toList_none, List.map_nil, List.append_nil]

/-! ### Footprints of turns -/

/-- A turn that gives no handle and changes no strand but its own. -/
theorem footprint_of_strands {e : Engine} (hconfig : e.tracer.config = w.engine.tracer.config)
    (hgate : e.tracer.gate = w.engine.tracer.gate)
    (hlength : w.engine.tracer.ledgers.length ≤ e.tracer.ledgers.length)
    (hstrand : ∀ j, j ≠ k → e.strand? j = w.engine.strand? j)
    (hledger : ∀ n < w.engine.tracer.ledgers.length, ¬w.Owns k n →
      e.tracer.ledger n = w.engine.tracer.ledger n)
    (hown : ∀ {s n}, e.strand? k = some s → s.ledger? = some n → w.Owns k n) :
    Footprint k w { w with engine := e } where
  config := hconfig
  setting := congrArg Gate.setting hgate
  length := hlength
  strand := hstrand
  ledger := hledger
  given := ⟨none, (List.append_nil _).symm, fun n id hgiven => by contradiction⟩
  own := hown

theorem footprint_self (hw : w.Tidy) : Footprint k w w :=
  footprint_of_strands rfl rfl (Nat.le_refl _) (fun _ _ => rfl) (fun _ _ _ => rfl) hw.own

theorem footprint_own (hw : w.Tidy) {s : Site} (hsite : w.engine.site? k = some s)
    {given : Option AsyncHandle} {s' : Site} (hfoot : s.Footprint given s') :
    Footprint k w ⟨w.engine.setSite k s', w.given ++ given.toList.map (k, ·)⟩ := by
  have hstrand := Engine.strand?_of_site? hsite
  have hset := Engine.strand?_setSite hsite s'
  obtain ⟨hconfig, hsetting, hlength, hledger, hown, hgiven⟩ := hfoot
  rw [Engine.tracer_of_site? hsite] at hconfig hsetting hlength hledger hgiven
  refine ⟨hconfig, hsetting, hlength, fun j hj => ?_, fun n hn hfree => ?_,
    ⟨given, rfl, fun n id hnew => ?_⟩, fun {s₁ n} hs hn => ?_⟩
  · rw [hset, if_neg (Ne.symm hj)]
  · exact hledger n hn fun hledger => hfree (hw.own hstrand hledger)
  · exact (hgiven n id hnew).imp_left (hw.own hstrand)
  · rw [hset, if_pos rfl] at hs
    obtain rfl := Option.some.inj hs
    rcases hown n hn with hold | ⟨id, rfl⟩
    · obtain ⟨id, hmem⟩ := hw.own hstrand hold
      exact ⟨id, List.mem_append_left _ hmem⟩
    · exact ⟨id, List.mem_append_right _ (List.mem_singleton_self _)⟩

/-- The handles of a strand work on ledgers of the strand. -/
theorem owns_of_mem {n id : Nat} (h : .span n id ∈ w.handles k) : w.Owns k n := by
  obtain ⟨⟨place, a⟩, hg, rfl⟩ := List.mem_map.mp h
  obtain ⟨hgiven, hplace⟩ := List.mem_filter.mp hg
  obtain rfl : place = k := of_decide_eq_true hplace
  exact ⟨id, hgiven⟩

theorem owns_of_handle {i n id : Nat} (h : w.handle k i = .span n id) : w.Owns k n := by
  unfold handle at h
  rw [List.getD_eq_getElem?_getD] at h
  cases hi : (w.handles k)[i]? with
  | none =>
    rw [hi] at h
    contradiction
  | some a =>
    rw [hi, Option.getD_some] at h
    exact owns_of_mem (h ▸ List.mem_of_getElem? hi)

theorem footprint_handle (hw : w.Tidy) (now : UInt64) (i : Nat) (op : HandleOp) :
    let after := (w.engine.tracer.handle (w.handle k i) now op).value
    Footprint k w
      { w with engine := { w.engine with tracer := (after.2.reportDue after.1).value } } := by
  cases ha : w.handle k i with
  | idle => exact footprint_self hw
  | span n id =>
    let after := ((w.engine.tracer.ledger n).handle id now op).value
    have hspares := Engine.spares_reportDue w.engine.tracer n after.2 after.1
    refine footprint_of_strands hspares.config (Tracer.gate_reportDue _ _) hspares.length
      (fun _ _ => rfl) (fun j _ hfree => hspares.ledger j fun heq => hfree ?_) hw.own
    exact Option.some.inj heq ▸ owns_of_handle ha

theorem footprint_leave {s : Site} (hsite : w.engine.site? k = some s) :
    Footprint k w { w with engine := ⟨s.leave.value, w.engine.strands.set k none⟩ } := by
  have hset := Engine.strand?_leave hsite
  obtain ⟨hconfig, hledgers⟩ := s.leave_value
  have hgate := s.gate_leave
  rw [Engine.tracer_of_site? hsite] at hconfig hledgers hgate
  refine footprint_of_strands hconfig hgate ?_ (fun j hj => ?_) (fun n _ _ => ?_) fun hs _ => ?_
  · exact le_of_eq (congrArg List.length hledgers).symm
  · rw [hset, if_neg (Ne.symm hj)]
  · rw [Tracer.ledger, Tracer.ledger, hledgers]
  · rw [hset, if_pos rfl] at hs
    contradiction

/-- **Every turn** leaves a footprint of its strand only. -/
theorem footprint_turn (hw : w.Tidy) (x : Turn) : Footprint x.place w (w.turn x).state := by
  obtain ⟨now, k, act⟩ := x
  cases act with
  | own op =>
    cases hsite : w.engine.site? k with
    | none =>
      rw [turn_missing hsite]
      exact footprint_self hw
    | some s =>
      rw [turn_own hsite]
      exact footprint_own hw hsite (Site.footprint_of_effect (s.effect_of_step now op))
  | handle i op =>
    rw [turn_handle]
    exact footprint_handle hw now i op
  | leave =>
    cases hsite : w.engine.site? k with
    | none =>
      rw [turn_leave_missing hsite]
      exact footprint_self hw
    | some s =>
      rw [turn_leave hsite]
      exact footprint_leave hsite

/-! ### Tidy workplaces -/

namespace Footprint

/-- What is owned after a turn was owned before it, or is new and belongs to the strand. -/
theorem owns (h : Footprint k w w') {j n : Nat} (hn : w'.Owns j n) :
    w.Owns j n ∨ j = k ∧ (w.Owns k n ∨
      w.engine.tracer.ledgers.length ≤ n ∧ n < w'.engine.tracer.ledgers.length) := by
  obtain ⟨new, hgiven, hnew⟩ := h.given
  obtain ⟨id, hmem⟩ := hn
  rw [hgiven] at hmem
  rcases List.mem_append.mp hmem with hmem | hmem
  · exact .inl ⟨id, hmem⟩
  · obtain ⟨a, ha, heq⟩ := List.mem_map.mp hmem
    obtain ⟨rfl, rfl⟩ := Prod.mk.inj heq
    exact .inr ⟨rfl, hnew n id (Option.mem_toList.mp ha)⟩

theorem owns_kept (h : Footprint k w w') {j n : Nat} (hn : w.Owns j n) : w'.Owns j n := by
  obtain ⟨new, hgiven, -⟩ := h.given
  obtain ⟨id, hmem⟩ := hn
  exact ⟨id, hgiven ▸ List.mem_append_left _ hmem⟩

/-- The handles of other strands stay. -/
theorem handles (h : Footprint k w w') {j : Nat} (hj : j ≠ k) : w'.handles j = w.handles j := by
  obtain ⟨new, hgiven, -⟩ := h.given
  have hother := handles_given_other w'.engine w.given (Ne.symm hj) new
  rw [← hgiven] at hother
  exact hother

theorem tidy (h : Footprint k w w') (hw : w.Tidy) : w'.Tidy where
  bound hn := by
    rcases h.owns hn with hold | ⟨-, hold | ⟨-, hlt⟩⟩
    · exact Nat.lt_of_lt_of_le (hw.bound hold) h.length
    · exact Nat.lt_of_lt_of_le (hw.bound hold) h.length
    · exact hlt
  apart {i j n} hi hj := by
    -- a ledger that is new is owned by nobody else
    rcases h.owns hi with hi | ⟨rfl, hi⟩ <;> rcases h.owns hj with hj | ⟨rfl, hj⟩
    · exact hw.apart hi hj
    · rcases hj with hj | ⟨hge, -⟩
      · exact hw.apart hi hj
      · exact absurd (hw.bound hi) (Nat.not_lt_of_le hge)
    · rcases hi with hi | ⟨hge, -⟩
      · exact hw.apart hi hj
      · exact absurd (hw.bound hj) (Nat.not_lt_of_le hge)
    · rfl
  own {j s n} hs hn := by
    by_cases hj : j = k
    · subst hj
      exact h.own hs hn
    · rw [h.strand j hj] at hs
      exact h.owns_kept (hw.own hs hn)

end Footprint

end Workplace

end TraceLink
