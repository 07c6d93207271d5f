import TraceLink.Proofs.MatchedWorkplaces
import TraceLink.Proofs.Settings

/-! # Watches

    A *watch* follows one segment among everything that happens at a workplace. It sees the
    turns of the strand while the segment is open, and at any time the turns of the handles
    that were given to the segment.

    What the watch does not see leaves alone what it watches: the segment, and the ledger
    of its async spans, which nobody else can reach. -/

namespace TraceLink

/-! ### Events -/

/-- **Operation of the tracer** that belongs to no strand. -/
inductive SharedOp where
  | openStrand
  | setSuffixes (value : Option String)
  | setRate (value : Option Int)
  | receive
  | closeReceiver
  deriving Repr

/-- The operation, as one of the engine. -/
def SharedOp.op : SharedOp → Op
  | openStrand => .openStrand
  | setSuffixes value => .setSuffixes value
  | setRate value => .setRate value
  | receive => .receive
  | closeReceiver => .closeReceiver

/-- **Event** at a workplace. -/
inductive Event where
  | turn (x : Turn)
  | shared (time : UInt64) (op : SharedOp)
  deriving Repr

/-- The event updates a setting. -/
def Event.isUpdate : Event → Bool
  | .turn _ => false
  | .shared _ op => op.op.isUpdate

/-- What happens beside the updates. -/
def Event.settled (evs : List Event) : List Event := evs.filter (!·.isUpdate)

namespace Workplace

/-- An event. -/
def event (w : Workplace) : Event → Outcome Workplace
  | .turn x => w.turn x
  | .shared now op => (w.engine.step now op.op).value.map fun engine => { w with engine }

/-- The workplace after a list of events. -/
def after (w : Workplace) : List Event → Workplace
  | [] => w
  | ev :: evs => (w.event ev).state.after evs

end Workplace

/-! ### What is seen -/

/-- The reply without the number of the ledger that a handle works on, which counts the
    segments with async spans. -/
def Reply.unnumbered : Reply → Reply
  | .handle (.span _ id) => .handle (.span 0 id)
  | reply => reply

/-- **Watch** over a segment of the strand at a place. The handles from number `first` on
    are given to the segment, until it ends. -/
structure Watch where
  place : Nat
  first : Nat
  /-- How many handles the strand was given when the segment ended. -/
  last : Option Nat := none
  deriving Repr, DecidableEq

namespace Watch

/-- The handle of this number is one of the segment. -/
def has (v : Watch) (i : Nat) : Bool := v.first ≤ i && v.last.all (i < ·)

/-- The watch sees what the strand does: everything while the segment is open, and the
    handles of the segment at any time. -/
def seesAct (v : Watch) : Act → Bool
  | .own _ | .leave => v.last.isNone
  | .handle i _ => v.has i

/-- The watch sees the turn. -/
def seesTurn (v : Watch) (x : Turn) : Bool := x.place == v.place && v.seesAct x.act

/-- The watch sees the event. -/
def sees (v : Watch) : Event → Bool
  | .turn x => v.seesTurn x
  | .shared .. => false

/-- The watch when the segment has ended, with so many handles given to the strand. -/
def ended (v : Watch) (n : Nat) : Watch := { v with last := some n }

/-- The watch after an event, which may have ended the segment. -/
def next (v : Watch) (w : Workplace) : Watch :=
  if v.last.isNone && (w.engine.open? v.place).isNone then v.ended (w.handles v.place).length
  else v

/-- The open segment, with its ledger in place of the number of it. -/
def view (v : Watch) (w : Workplace) : Option (OpenSegment × Option Ledger) :=
  if v.last.isNone then
    (w.engine.open? v.place).map fun o =>
      ({ o with ledger := none }, o.ledger.map w.engine.tracer.ledger)
  else none

/-- The answers to the events that the watch sees, with the segments that are handed to the
    reporter in them, in order. -/
def answers (v : Watch) (w : Workplace) : List Event → List (Reply × Option Segment)
  | [] => []
  | ev :: evs =>
    let o := w.event ev
    let rest := (v.next o.state).answers o.state evs
    if v.sees ev then (o.reply.unnumbered, o.handed) :: rest else rest

/-- What the watch looks at in the end. -/
def finalView (v : Watch) (w : Workplace) : List Event → Option (OpenSegment × Option Ledger)
  | [] => v.view w
  | ev :: evs =>
    let w₁ := (w.event ev).state
    (v.next w₁).finalView w₁ evs

/-! ### What nobody else reaches -/

/-- **Private ledger**: it is reached by the watched segment and by its handles only. -/
structure Private (v : Watch) (w : Workplace) (n : Nat) : Prop where
  bound : n < w.engine.tracer.ledgers.length
  handle : ∀ {j i id}, w.handle j i = .span n id → j = v.place ∧ v.has i = true
  strand : ∀ {j s}, w.engine.strand? j = some s → s.ledger? = some n →
    j = v.place ∧ v.last = none

/-- **Aside**: what happens between the two workplaces leaves alone what is watched. -/
structure Aside (v : Watch) (w w₁ : Workplace) : Prop where
  tidy : w₁.Tidy
  config : w₁.engine.tracer.config = w.engine.tracer.config
  length : w.engine.tracer.ledgers.length ≤ w₁.engine.tracer.ledgers.length
  ledger : ∀ {n}, v.Private w n → w₁.engine.tracer.ledger n = w.engine.tracer.ledger n
  kept : ∀ {n}, v.Private w n → v.Private w₁ n
  strand : v.last = none → ∀ {s}, w.engine.strand? v.place = some s →
    w₁.engine.strand? v.place = some s
  handles : ∃ more, w₁.handles v.place = w.handles v.place ++ more ∧ (v.last = none → more = [])

variable {v : Watch} {w w₁ : Workplace}

/-- A ledger stays private if no handle is given for it, and no strand comes to it. -/
theorem Private.kept {n : Nat} (h : v.Private w n)
    (hlength : w.engine.tracer.ledgers.length ≤ w₁.engine.tracer.ledgers.length)
    (hhandle : ∀ {j i id}, w₁.handle j i = .span n id → w.handle j i = .span n id)
    (hstrand : ∀ {j s₁}, w₁.engine.strand? j = some s₁ → s₁.ledger? = some n →
      ∃ s, w.engine.strand? j = some s ∧ s.ledger? = some n) : v.Private w₁ n where
  bound := Nat.lt_of_lt_of_le h.bound hlength
  handle hn := h.handle (hhandle hn)
  strand hs hn := by
    obtain ⟨s, hs, hn⟩ := hstrand hs hn
    exact h.strand hs hn

theorem Private.leave {n : Nat} (h : v.Private w n) {j : Nat} {s : Site}
    (hsite : w.engine.site? j = some s) :
    v.Private { w with engine := ⟨s.leave.value, w.engine.strands.set j none⟩ } n := by
  have hledgers := s.leave_value.2
  rw [Engine.tracer_of_site? hsite] at hledgers
  have hlength := le_of_eq (congrArg List.length hledgers).symm
  refine h.kept hlength (fun hk => hk) fun {k s₁} hs hk => ?_
  rw [Engine.strand?_leave hsite] at hs
  split at hs
  · contradiction
  · exact ⟨_, hs, hk⟩

theorem Private.handled {n : Nat} (h : v.Private w n) {t : Tracer}
    (hlength : w.engine.tracer.ledgers.length ≤ t.ledgers.length) :
    v.Private { w with engine := { w.engine with tracer := t } } n :=
  h.kept hlength (fun hk => hk) fun hs hk => ⟨_, hs, hk⟩

theorem aside_self (hw : w.Tidy) : v.Aside w w where
  tidy := hw
  config := rfl
  length := Nat.le_refl _
  ledger _ := rfl
  kept h := h
  strand _ _ hs := hs
  handles := ⟨[], (List.append_nil _).symm, fun _ => rfl⟩

/-! ### The end of the segment -/

/-- As long as the watch has not ended, the segment is open. -/
def Alert (v : Watch) (w : Workplace) : Prop := v.last = none → (w.engine.open? v.place).isSome

theorem next_of_alert (h : v.Alert w) : v.next w = v := by
  unfold next
  cases hlast : v.last with
  | some n => rfl
  | none =>
    have hopen := h hlast
    rw [← Option.not_isNone, Bool.not_eq_true'] at hopen
    rw [hopen]
    rfl

theorem alert_next (v : Watch) (w : Workplace) : (v.next w).Alert w := by
  intro hlast
  unfold next at hlast ⊢
  cases hnone : v.last.isNone && (w.engine.open? v.place).isNone with
  | true =>
    rw [hnone] at hlast
    contradiction
  | false =>
    rw [hnone] at hlast
    rw [show v.last.isNone = true from Option.isNone_iff_eq_none.mpr hlast, Bool.true_and] at hnone
    show (w.engine.open? v.place).isSome
    rw [← Option.not_isNone, hnone]
    rfl

/-- The strand whose segment is open. -/
theorem Alert.strand (h : v.Alert w) (hlast : v.last = none) :
    ∃ s o, w.engine.strand? v.place = some s ∧ s.active = some o := by
  obtain ⟨o, ho⟩ := Option.isSome_iff_exists.mp (h hlast)
  obtain ⟨s, hs, hactive⟩ := Option.bind_eq_some_iff.mp ho
  exact ⟨s, o, hs, hactive⟩

theorem next_of_last {n : Nat} (h : v.last = some n) : v.next w = v := by
  unfold next
  rw [h]
  rfl

theorem next_of_idle (hlast : v.last = none) (hopen : w.engine.open? v.place = none) :
    v.next w = v.ended (w.handles v.place).length := by
  unfold next
  rw [hlast, hopen]
  rfl

theorem has_of_ended {n i : Nat} (hlast : v.last = none) (h : (v.ended n).has i = true) :
    v.has i = true := by
  unfold has at h ⊢
  rw [hlast, Option.all_none, Bool.and_true]
  exact ((Bool.and_eq_true _ _).mp h).1

/-- A ledger of the segment is reached by the handles of the segment only, once it has
    ended. -/
theorem Private.ended {n : Nat} (h : v.Private w n) (hlast : v.last = none)
    (hopen : w.engine.open? v.place = none) :
    (v.ended (w.handles v.place).length).Private w n where
  bound := h.bound
  handle {j i id} hk := by
    obtain ⟨rfl, hi⟩ := h.handle hk
    unfold has at hi
    rw [hlast, Option.all_none, Bool.and_true] at hi
    refine ⟨rfl, (Bool.and_eq_true _ _).mpr ⟨hi, ?_⟩⟩
    exact decide_eq_true (Workplace.lt_length_of_handle hk)
  strand {j s} hs hk := by
    obtain ⟨rfl, -⟩ := h.strand hs hk
    have hactive : s.active = none := by
      unfold Engine.open? at hopen
      rwa [hs, Option.bind_some] at hopen
    rw [Strand.ledger?, hactive] at hk
    contradiction

/-! ### What happens aside -/

namespace Aside

/-- No handle is given to the segment. -/
theorem handles_eq (h : v.Aside w w₁) (hlast : v.last = none) :
    w₁.handles v.place = w.handles v.place := by
  obtain ⟨more, hmore, hopen⟩ := h.handles
  rw [hmore, hopen hlast, List.append_nil]

theorem length_handles (h : v.Aside w w₁) :
    (w.handles v.place).length ≤ (w₁.handles v.place).length := by
  obtain ⟨more, hmore, -⟩ := h.handles
  rw [hmore, List.length_append]
  exact Nat.le_add_right _ _

/-- The handles of the segment stay what they are. -/
theorem handle_eq (h : v.Aside w w₁) {i : Nat} (hi : v.has i = true)
    (hlast : ∀ {n}, v.last = some n → n ≤ (w.handles v.place).length) :
    w₁.handle v.place i = w.handle v.place i := by
  obtain ⟨more, hmore, hopen⟩ := h.handles
  cases hend : v.last with
  | none =>
    unfold Workplace.handle
    rw [h.handles_eq hend]
  | some n =>
    unfold has at hi
    rw [hend, Option.all_some, Bool.and_eq_true] at hi
    have hlt : i < (w.handles v.place).length :=
      Nat.lt_of_lt_of_le (of_decide_eq_true hi.2) (hlast hend)
    exact Workplace.handle_of_append hmore hlt

/-- The segment stays open. -/
theorem alert (h : v.Aside w w₁) (ha : v.Alert w) : v.Alert w₁ := by
  intro hlast
  obtain ⟨s, o, hs, hactive⟩ := ha.strand hlast
  unfold Engine.open?
  rw [h.strand hlast hs, Option.bind_some, hactive]
  rfl

end Aside

/-! ### Turns that are not seen -/

/-- A handle after one was given was there before, or it is this one. -/
theorem handle_given_cases {e : Engine} {given : List (Nat × AsyncHandle)} {j k i : Nat}
    {a : Option AsyncHandle} {n id : Nat}
    (h : Workplace.handle ⟨e, given ++ a.toList.map (j, ·)⟩ k i = .span n id) :
    Workplace.handle ⟨e, given⟩ k i = .span n id ∨
      k = j ∧ i = (Workplace.handles ⟨e, given⟩ k).length ∧ a = some (.span n id) := by
  by_cases hj : j = k
  · subst hj
    rw [Workplace.handle_given] at h
    split at h
    · exact .inl h
    · split at h
      · next hi =>
        cases a with
        | none => contradiction
        | some a => exact .inr ⟨rfl, hi, congrArg some h⟩
      · contradiction
  · unfold Workplace.handle at h ⊢
    rw [Workplace.handles_given_other e given hj] at h
    exact .inl h

/-- An operation of another strand, or of the same one after the segment has ended. -/
theorem aside_own (hw : w.Tidy) {j : Nat} {s s₁ : Site} (hsite : w.engine.site? j = some s)
    {given : Option AsyncHandle} (hfoot : s.Footprint given s₁)
    (hunseen : j = v.place → v.last ≠ none) :
    v.Aside w ⟨w.engine.setSite j s₁, w.given ++ given.toList.map (j, ·)⟩ := by
  have hstrand := Engine.strand?_of_site? hsite
  have htracer := Engine.tracer_of_site? hsite
  have hset := Engine.strand?_setSite hsite s₁
  -- the strand has not come to a private ledger, and does not come to it now
  have hledger {n : Nat} (hn : v.Private w n) : s.strand.ledger? ≠ some n := fun heq =>
    have ⟨hplace, hopen⟩ := hn.strand hstrand heq
    hunseen hplace hopen
  have hgiven {n id : Nat} (hn : v.Private w n) : given ≠ some (.span n id) := by
    intro heq
    rcases hfoot.given n id heq with hown | ⟨hge, -⟩
    · exact hledger hn hown
    · exact Nat.not_lt_of_le (htracer ▸ hge) hn.bound
  have hlength : w.engine.tracer.ledgers.length ≤ s₁.tracer.ledgers.length :=
    htracer ▸ hfoot.length
  refine ⟨(Workplace.footprint_own hw hsite hfoot).tidy hw, htracer ▸ hfoot.config, hlength,
    fun hn => ?_, fun hn => hn.kept hlength (fun hk => ?_) fun hs hk => ?_,
    fun hopen s₀ hs₀ => ?_, ?_⟩
  · have hsame := hfoot.ledger _ (htracer ▸ hn.bound) (hledger hn)
    rwa [htracer] at hsame
  · rcases handle_given_cases hk with hold | ⟨-, -, hnew⟩
    · exact hold
    · exact absurd hnew (hgiven hn)
  · rw [hset] at hs
    split at hs
    · obtain rfl := Option.some.inj hs
      rcases hfoot.own _ hk with hown | ⟨id, hnew⟩
      · exact absurd hown (hledger hn)
      · exact absurd hnew (hgiven hn)
    · exact ⟨_, hs, hk⟩
  · rw [hset, if_neg fun hplace => hunseen hplace hopen]
    exact hs₀
  · by_cases hplace : j = v.place
    · subst hplace
      exact ⟨given.toList, Workplace.handles_given _ _ _ _,
        fun hopen => absurd hopen (hunseen rfl)⟩
    · refine ⟨[], ?_, fun _ => rfl⟩
      rw [Workplace.handles_given_other _ _ hplace, List.append_nil]
      rfl

/-- A strand that leaves, other than the watched one while its segment is open. -/
theorem aside_leave (hw : w.Tidy) {j : Nat} {s : Site} (hsite : w.engine.site? j = some s)
    (hunseen : j = v.place → v.last ≠ none) :
    v.Aside w { w with engine := ⟨s.leave.value, w.engine.strands.set j none⟩ } := by
  obtain ⟨hconfig, hledgers⟩ := s.leave_value
  rw [Engine.tracer_of_site? hsite] at hconfig hledgers
  have hlength : w.engine.tracer.ledgers.length ≤ s.leave.value.ledgers.length :=
    le_of_eq (congrArg List.length hledgers).symm
  refine ⟨(Workplace.footprint_leave hsite).tidy hw, hconfig, hlength, fun _ => ?_,
    fun hn => hn.leave hsite, fun hopen s₀ hs₀ => ?_,
    [], (List.append_nil _).symm, fun _ => rfl⟩
  · rw [Tracer.ledger, Tracer.ledger, hledgers]
  · rw [Engine.strand?_leave hsite, if_neg fun hplace => hunseen hplace hopen]
    exact hs₀

/-- A handle that was not given to the watched segment. -/
theorem aside_handle (hw : w.Tidy) {j i : Nat} (hunseen : j = v.place → v.has i = false)
    (now : UInt64) (op : HandleOp) :
    let done := (w.engine.tracer.handle (w.handle j i) now op).value
    v.Aside w { w with engine := { w.engine with tracer := (done.2.reportDue done.1).value } } := by
  have hfoot := Workplace.footprint_handle (k := j) hw now i op
  refine ⟨hfoot.tidy hw, hfoot.config, hfoot.length, fun {n} hn => ?_,
    fun hn => hn.handled hfoot.length, fun _ _ hs => hs,
    [], (List.append_nil _).symm, fun _ => rfl⟩
  cases ha : w.handle j i with
  | idle => rfl
  | span m id =>
    refine (Engine.spares_reportDue w.engine.tracer m _ _).ledger n fun heq => ?_
    obtain rfl := Option.some.inj heq
    obtain ⟨hplace, hhas⟩ := hn.handle ha
    rw [hunseen hplace] at hhas
    contradiction

/-- **A turn that the watch does not see** leaves alone what it watches. -/
theorem aside_turn (hw : w.Tidy) {x : Turn} (hunseen : v.seesTurn x = false) :
    v.Aside w (w.turn x).state := by
  obtain ⟨now, j, act⟩ := x
  have hother (hplace : j = v.place) : v.seesAct act = false := by
    unfold seesTurn at hunseen
    rwa [beq_iff_eq.mpr hplace, Bool.true_and] at hunseen
  cases act with
  | own op =>
    cases hsite : w.engine.site? j with
    | none =>
      rw [Workplace.turn_missing hsite]
      exact aside_self hw
    | some s =>
      rw [Workplace.turn_own hsite]
      refine aside_own hw hsite (Site.footprint_of_effect (s.effect_of_step now op))
        fun hplace hopen => ?_
      have hunseen := hother hplace
      rw [seesAct, hopen] at hunseen
      contradiction
  | handle i op =>
    rw [Workplace.turn_handle]
    exact aside_handle hw hother now op
  | leave =>
    cases hsite : w.engine.site? j with
    | none =>
      rw [Workplace.turn_leave_missing hsite]
      exact aside_self hw
    | some s =>
      rw [Workplace.turn_leave hsite]
      refine aside_leave hw hsite fun hplace hopen => ?_
      have hunseen := hother hplace
      rw [seesAct, hopen] at hunseen
      contradiction

/-! ### Operations of the tracer -/

end Watch

namespace Engine

theorem ledgers_shared (e : Engine) (now : UInt64) (op : SharedOp) :
    (e.step now op.op).value.state.tracer.ledgers = e.tracer.ledgers := by
  cases op with
  | setSuffixes value =>
    rcases e.step_setSuffixes now value with ⟨-, hstep⟩ | ⟨before, s, after, -, -, -, hstep⟩
    · exact congrArg (·.value.state.tracer.ledgers) hstep
    · exact congrArg (·.value.state.tracer.ledgers) hstep
  | _ => rfl

variable {e : Engine} {now : UInt64}

theorem strand?_shared (op : SharedOp) {k : Nat} {s : Strand} (hs : e.strand? k = some s) :
    (e.step now op.op).value.state.strand? k = some s := by
  refine strand?_step hs now (fun sop => ?_) ?_
  · cases op <;> exact nofun
  · cases op <;> exact nofun

/-- A strand with a ledger was there before. -/
theorem strand?_of_shared {op : SharedOp} {k n : Nat} {s : Strand}
    (hs : (e.step now op.op).value.state.strand? k = some s) (hn : s.ledger? = some n) :
    e.strand? k = some s := by
  cases strides_of_step hs with
  | still hsame => exact hsame
  | new m => contradiction
  | stepped hsite hop => cases op <;> contradiction

end Engine

namespace Watch

variable {v : Watch} {w : Workplace}

/-- **An operation of the tracer** leaves alone what is watched. -/
theorem aside_shared (hw : w.Tidy) (now : UInt64) (op : SharedOp) :
    v.Aside w (w.event (.shared now op)).state := by
  have hledgers := w.engine.ledgers_shared now op
  have hlength : w.engine.tracer.ledgers.length ≤
      (w.event (.shared now op)).state.engine.tracer.ledgers.length :=
    le_of_eq (congrArg List.length hledgers).symm
  refine ⟨⟨fun hn => ?_, hw.apart, fun hs hn => ?_⟩, w.engine.config_step now op.op, hlength,
    fun _ => ?_, fun hn => hn.kept hlength (fun hk => hk) fun hs hk => ?_,
    fun _ _ hs => Engine.strand?_shared op hs, [], (List.append_nil _).symm, fun _ => rfl⟩
  · exact Nat.lt_of_lt_of_le (hw.bound hn) hlength
  · exact hw.own (Engine.strand?_of_shared hs hn) hn
  · exact congrArg (fun ls : List Ledger => ls.getD _ {}) hledgers
  · exact ⟨_, Engine.strand?_of_shared hs hk, hk⟩

/-- **What the watch does not see** leaves alone what it watches. -/
theorem aside_event (hw : w.Tidy) {ev : Event} (hunseen : v.sees ev = false) :
    v.Aside w (w.event ev).state := by
  cases ev with
  | turn x => exact aside_turn hw hunseen
  | shared now op => exact aside_shared hw now op

/-- The workplace stays tidy in every event. -/
theorem tidy_event (hw : w.Tidy) (ev : Event) : (w.event ev).state.Tidy := by
  cases ev with
  | turn x => exact (Workplace.footprint_turn hw x).tidy hw
  | shared now op => exact (aside_shared (v := ⟨0, 0, none⟩) hw now op).tidy

theorem tidy_after (hw : w.Tidy) (evs : List Event) : (w.after evs).Tidy := by
  induction evs generalizing w with
  | nil => exact hw
  | cons ev evs ih => exact ih (tidy_event hw ev)

end Watch

end TraceLink
