import TraceLink.Proofs.Turnover

/-! # Balance of the counters

    At every moment of every run the counters of a tracer are in balance with what its
    strands and its ledgers hold: every segment that was counted when it began has been
    counted when it ended, or is open. The balance holds for recorded segments and for
    ignored ones apart, once those are moved over that were recorded when they began
    and were forced to be ignored. And every recorded segment that has ended was handed
    over, or is parked in its ledger while handles are pending.

    The counters are numbers of 64 bits, so this is said of runs in which none of them
    has wrapped around. -/

namespace TraceLink

/-! ### One turnover -/

/-- One if the decision is this one. -/
def weight (d : Option Bool) (b : Bool) : Nat := if d = some b then 1 else 0

/-- **Counting**: each counter is as before or one more. -/
def Counters.Counts (c c' : Counters) : Prop :=
  ∀ p ∈ c.toList.zip c'.toList, p.2 = p.1 ∨ p.2 = p.1 + 1

theorem Counters.Counts.refl (c : Counters) : c.Counts c := by
  simp [Counts, toList]

/-- Below the bound of the numbers counting does not wrap around. -/
theorem Counters.Counts.bounded {c c' : Counters} (h : c.Counts c') {n : Nat}
    (hbound : ∀ x ∈ c.toList, x.toNat ≤ n) (hn : n + 1 < UInt64.size) :
    c.Grows c' ∧ ∀ x ∈ c'.toList, x.toNat ≤ n + 1 := by
  have hone : ∀ p ∈ c.toList.zip c'.toList, p.1 ≤ p.2 ∧ p.2.toNat ≤ n + 1 := by
    intro p hp
    have hle := hbound p.1 (List.of_mem_zip hp).1
    rcases h p hp with hsame | hmore
    · rw [hsame]
      exact ⟨UInt64.le_refl _, by omega⟩
    · have hlt : p.1.toNat + (1 : UInt64).toNat < UInt64.size :=
        Nat.lt_of_le_of_lt (Nat.succ_le_succ hle) hn
      rw [hmore, UInt64.le_iff_toNat_le, UInt64.toNat_add, Nat.mod_eq_of_lt hlt, UInt64.toNat_one]
      omega
  refine ⟨fun p hp => (hone p hp).1, fun x hx => ?_⟩
  -- every counter after the step stands beside one before it
  obtain ⟨i, hi, rfl⟩ := List.getElem_of_mem hx
  have hlt : i < (c.toList.zip c'.toList).length := hi
  have hat := hone _ (List.getElem_mem hlt)
  rw [List.getElem_zip] at hat
  exact hat.2

/-- **Booked**: what begins goes, or is open, or moves from the recorded segments to the
    ignored ones. -/
structure Booked (forces : Bool) (d : Option Bool) (c : Counters) (d' : Option Bool)
    (c' : Counters) : Prop where
  recorded : c'.begun true + c.gone true + weight d true =
    c.begun true + c'.gone true + weight d' true + forces.toNat
  ignored : c'.begun false + c.gone false + weight d false + forces.toNat =
    c.begun false + c'.gone false + weight d' false

/-- A segment that is lost. -/
theorem booked_leak {c : Counters} (sampled : Bool) (hgrows : c.Grows (c.leak (!sampled))) :
    Booked false (some sampled) c none (c.leak (!sampled)) := by
  constructor
  all_goals
    rw [c.gone_leak sampled hgrows, c.begun_leak]
    cases sampled <;> simp [weight, Nat.add_comm, Nat.add_left_comm]

theorem Site.booked_leave (s : Site) (hgrows : s.tracer.counters.Grows s.leave.value.counters) :
    Booked false s.decision? s.tracer.counters none s.leave.value.counters := by
  unfold leave at hgrows ⊢
  cases hactive : s.strand.active with
  | none =>
    rw [decision?_of_idle hactive]
    exact ⟨rfl, rfl⟩
  | some o =>
    rw [hactive] at hgrows
    rw [decision?_of_active hactive]
    exact booked_leak o.sampled hgrows

theorem Site.counts_leave (s : Site) : s.tracer.counters.Counts s.leave.value.counters := by
  unfold leave
  cases hactive : s.strand.active with
  | none => exact .refl _
  | some o =>
    show s.tracer.counters.Counts (s.tracer.counters.leak (!o.sampled))
    cases o.sampled <;> simp [Counters.Counts, Counters.leak, Counters.toList]

/-- A segment that is lost is not finished. -/
theorem Site.finished_leave (s : Site) :
    s.leave.value.counters.finished = s.tracer.counters.finished := by
  unfold leave
  cases hactive : s.strand.active with
  | none => rfl
  | some o =>
    show (s.tracer.counters.leak (!o.sampled)).finished = _
    cases o.sampled <;> rfl

namespace Turnover

variable {forces : Bool} {d d' : Option Bool} {c c' : Counters}

theorem booked (h : Turnover forces d c d' c') (hgrows : c.Grows c') :
    Booked forces d c d' c' := by
  cases h with
  | still => exact ⟨rfl, rfl⟩
  | forced => exact ⟨by simp [weight], by simp [weight]⟩
  | begun _ inherited sampled =>
    constructor
    all_goals
      rw [c.begun_created inherited sampled hgrows, c.gone_created]
      cases sampled <;> simp [weight, Nat.add_assoc, Nat.add_comm]
  | ended _ sampled =>
    constructor
    all_goals
      rw [c.gone_finish sampled hgrows, c.begun_finish]
      cases sampled <;> simp [weight, Nat.add_comm, Nat.add_left_comm]

theorem counts (h : Turnover forces d c d' c') : c.Counts c' := by
  cases h with
  | still => exact .refl c
  | forced => exact .refl c
  | begun _ inherited sampled =>
    cases inherited <;> cases sampled <;> simp [Counters.Counts, Counters.created, Counters.toList]
  | ended _ sampled =>
    cases sampled <;> simp [Counters.Counts, Counters.finish, Counters.toList]

/-- Only the end of a recorded segment is counted as finished. -/
theorem finished (h : Turnover forces d c d' c') (hgrows : c.Grows c') :
    c'.finished.toNat = c.finished.toNat + if d = some true ∧ d' = none then 1 else 0 := by
  cases h with
  | still =>
    rw [if_neg, Nat.add_zero]
    rintro ⟨rfl, hnone⟩
    contradiction
  | forced => rw [if_neg (by simp), Nat.add_zero]
  | begun _ inherited sampled =>
    rw [if_neg (by simp), Nat.add_zero]
    cases inherited <;> cases sampled <;> rfl
  | ended _ sampled =>
    cases sampled with
    | false => rfl
    | true =>
      have hle : c.finished ≤ c.finished + 1 := by
        simp [Counters.Grows, Counters.finish, Counters.toList] at hgrows
        exact hgrows
      exact Counters.toNat_succ_of_le hle

end Turnover

/-! ### The census -/

namespace Engine

/-- How many strands have an open segment with this decision. -/
def census (e : Engine) (sampled : Bool) : Nat :=
  e.strands.countP fun s => (s.bind (·.active)).any (·.sampled == sampled)

/-- The active strands are those of the two decisions. -/
theorem census_total (e : Engine) :
    e.strands.countP (·.any Strand.isActive) = e.census true + e.census false := by
  unfold census
  induction e.strands with
  | nil => rfl
  | cons s rest ih =>
    rw [List.countP_cons, List.countP_cons, List.countP_cons, ih]
    have hone : (if s.any Strand.isActive then 1 else 0) =
        (if (s.bind (·.active)).any (·.sampled == true) then 1 else 0) +
          if (s.bind (·.active)).any (·.sampled == false) then 1 else 0 := by
      cases s with
      | none => rfl
      | some s =>
        cases hactive : s.active with
        | none => simp [Strand.isActive, hactive]
        | some o => cases hsampled : o.sampled <;> simp [Strand.isActive, hactive, hsampled]
    omega

variable {e : Engine} {now : UInt64}

theorem any_decision (s : Option Strand) (b : Bool) :
    (if (s.bind (·.active)).any (·.sampled == b) then 1 else 0) =
      weight ((s.bind (·.active)).map (·.sampled)) b := by
  cases s.bind (·.active) with
  | none => rfl
  | some o => cases hsampled : o.sampled <;> cases b <;> simp [weight, hsampled]

/-- The census when one strand has changed. -/
theorem census_set {k : Nat} {s : Site} (hsite : e.site? k = some s) (t : Tracer)
    (s' : Option Strand) (b : Bool) :
    census ⟨t, e.strands.set k s'⟩ b + weight s.decision? b =
      e.census b + weight ((s'.bind (·.active)).map (·.sampled)) b := by
  have hget : e.strands[k]? = some (some s.strand) :=
    Option.join_eq_some_iff.mp (strand?_of_site? hsite)
  obtain ⟨hk, hget⟩ := List.getElem?_eq_some_iff.mp hget
  have hbefore : weight s.decision? b =
      if ((some s.strand).bind (·.active)).any (·.sampled == b) then 1 else 0 := by
    rw [any_decision]
    rfl
  unfold census
  rw [List.countP_set hk, hget, any_decision s', hbefore]
  split
  · next hcounted =>
    have hpos : 0 < e.strands.countP fun s => (s.bind (·.active)).any (·.sampled == b) :=
      List.countP_pos_iff.mpr ⟨some s.strand, hget ▸ List.getElem_mem hk, hcounted⟩
    omega
  · omega

/-- The operation forces the open segment of its strand, which was sampled so far, to be
    ignored. -/
def forces (e : Engine) : Op → Bool
  | .strand k op => (e.open? k).any (·.sampled) && op.continuesIgnored
  | _ => false

/-- **The counters are in balance** with the open segments, when so many segments have
    been forced to be ignored. -/
structure Balanced (e : Engine) (forced : Nat) : Prop where
  recorded : e.tracer.counters.begun true =
    e.tracer.counters.gone true + e.census true + forced
  ignored : e.tracer.counters.begun false + forced =
    e.tracer.counters.gone false + e.census false

/-- A step that is not counted. -/
theorem Balanced.of_eq {e' : Engine} {forced : Nat} (h : e.Balanced forced)
    (hcounters : e'.tracer.counters = e.tracer.counters)
    (hcensus : ∀ b, e'.census b = e.census b) : e'.Balanced forced where
  recorded := by rw [hcounters, hcensus, h.recorded]
  ignored := by rw [hcounters, hcensus, h.ignored]

/-- A step that is booked for one strand. -/
theorem Balanced.of_booked {forced : Nat} (h : e.Balanced forced) {k : Nat} {s : Site}
    (hsite : e.site? k = some s) {t : Tracer} {s' : Option Strand} {forces : Bool}
    (hbooked : Booked forces s.decision? e.tracer.counters
      ((s'.bind (·.active)).map (·.sampled)) t.counters) :
    Balanced ⟨t, e.strands.set k s'⟩ (forced + forces.toNat) := by
  have hcensus := census_set hsite t s'
  constructor
  · have hbefore := h.recorded
    have hstep := hbooked.recorded
    have hset := hcensus true
    show t.counters.begun true = t.counters.gone true + _ + _
    omega
  · have hbefore := h.ignored
    have hstep := hbooked.ignored
    have hset := hcensus false
    show t.counters.begun false + _ = t.counters.gone false + _
    omega

theorem forces_of_site {k : Nat} {s : Site} (hsite : e.site? k = some s) (op : StrandOp) :
    e.forces (.strand k op) = (s.decision? == some true && op.continuesIgnored) := by
  rw [forces, open?_of_site? hsite, Site.decision?]
  cases s.strand.active with
  | none => rfl
  | some o => cases hsampled : o.sampled <;> simp [hsampled]

/-- What a step of a strand does to the counters. -/
theorem turnover_of_site {k : Nat} {s : Site} (hsite : e.site? k = some s) (now : UInt64)
    (op : StrandOp) :
    let s' := (s.step now op).value.state
    Turnover (e.forces (.strand k op)) s.decision? e.tracer.counters s'.decision?
      (e.step now (.strand k op)).value.state.tracer.counters := by
  have hturnover := s.turnover_step now op
  rw [← forces_of_site hsite, tracer_of_site? hsite] at hturnover
  rw [step_strand hsite]
  exact hturnover

/-- Operations that are not those of a strand leave the counters as they are, unless a
    strand goes away. -/
theorem counters_step (e : Engine) (now : UInt64) {op : Op} (hstrand : ∀ k sop, op ≠ .strand k sop)
    (hclose : ∀ k, op ≠ .closeStrand k) :
    (e.step now op).value.state.tracer.counters = e.tracer.counters := by
  cases op with
  | strand k sop => exact absurd rfl (hstrand k sop)
  | closeStrand k => exact absurd rfl (hclose k)
  | handle a op =>
    refine (Tracer.counters_reportDue _ _).trans ?_
    cases a with
    | idle => rfl
    | span n id => rfl
  | setSuffixes value =>
    obtain ⟨reply, suffixes, hvalue⟩ := e.setSuffixes_value now value
    rw [hvalue]
    rfl
  | _ => rfl

theorem census_step (e : Engine) (now : UInt64) {op : Op} (hstrand : ∀ k sop, op ≠ .strand k sop)
    (hclose : ∀ k, op ≠ .closeStrand k) (b : Bool) :
    (e.step now op).value.state.census b = e.census b := by
  cases op with
  | strand k sop => exact absurd rfl (hstrand k sop)
  | closeStrand k => exact absurd rfl (hclose k)
  | openStrand => exact (List.countP_append ..).trans rfl
  | setSuffixes value =>
    obtain ⟨reply, suffixes, hvalue⟩ := e.setSuffixes_value now value
    rw [hvalue]
    rfl
  | _ => rfl

/-- Every step counts one segment at most. -/
theorem counts_step (e : Engine) (now : UInt64) (op : Op) :
    e.tracer.counters.Counts (e.step now op).value.state.tracer.counters := by
  cases op with
  | strand k sop =>
    cases hsite : e.site? k with
    | none =>
      simp only [step, hsite, Logged.pure_value]
      exact .refl _
    | some s => exact (turnover_of_site hsite now sop).counts
  | closeStrand k =>
    simp only [step, closeStrand]
    cases hsite : e.site? k with
    | none => exact .refl _
    | some s =>
      rw [← tracer_of_site? hsite]
      exact s.counts_leave
  | _ =>
    rw [counters_step e now (by simp) (by simp)]
    exact .refl _

/-- **Every step** keeps the counters in balance. -/
theorem Balanced.step {forced : Nat} (h : e.Balanced forced) (now : UInt64) (op : Op)
    (hgrows : e.tracer.counters.Grows (e.step now op).value.state.tracer.counters) :
    (e.step now op).value.state.Balanced (forced + (e.forces op).toNat) := by
  cases op with
  | strand k sop =>
    cases hsite : e.site? k with
    | none =>
      have hidle : e.open? k = none := by rw [open?_eq, hsite, Option.bind_none]
      have hforces : e.forces (.strand k sop) = false := by rw [forces, hidle]; rfl
      rw [hforces]
      simp only [Engine.step, hsite, Logged.pure_value]
      exact h
    | some s =>
      have hbooked := (turnover_of_site hsite now sop).booked hgrows
      rw [step_strand hsite] at hbooked ⊢
      exact h.of_booked hsite hbooked
  | closeStrand k =>
    cases hsite : e.site? k with
    | none =>
      simp only [Engine.step, closeStrand, hsite, Logged.bind_value, Logged.pure_value]
      exact h
    | some s =>
      simp only [Engine.step, closeStrand, hsite, Logged.bind_value, Logged.pure_value] at hgrows ⊢
      rw [← tracer_of_site? hsite] at hgrows
      have hbooked := s.booked_leave hgrows
      rw [tracer_of_site? hsite] at hbooked
      exact h.of_booked hsite hbooked
  | _ =>
    refine h.of_eq (counters_step e now ?_ ?_) (census_step e now ?_ ?_)
    all_goals simp

/-! ### Finished segments -/

variable {capacity : Nat} {ls : List Life} {l : Life}

/-- How many recorded segments have ended. -/
def emptied (ls : List Life) : Nat := ls.countP fun l => l.stage = .emptied true

/-- A segment that begins does not end in the same step. -/
theorem stage_live_begun {op : Op} (h : e.begun now op = some l) :
    (e.live now op l).stage ≠ .emptied true := by
  unfold begun at h
  split at h
  · next k sop =>
    split at h
    · next o hidle hafter =>
      obtain rfl := Option.some.inj h
      rw [live_strand, if_pos rfl, hidle]
      unfold Life.afterStrandOp
      split
      · simp [Life.report]
      · simp [Life.report]
      · split <;> simp [Life.report]
    · contradiction
  · contradiction

/-- A step that ends no recorded segment. -/
theorem emptied_chronicle {op : Op}
    (hlive : ∀ l ∈ ls, ((e.live now op l).stage = .emptied true ↔ l.stage = .emptied true)) :
    emptied (e.chronicle now op ls) = emptied ls := by
  have hbegun : (e.begun now op).toList.countP
      (fun l => decide ((e.live now op l).stage = .emptied true)) = 0 := by
    rw [List.countP_eq_zero]
    intro l hl
    simpa using stage_live_begun (Option.mem_toList.mp hl)
  unfold emptied chronicle
  rw [List.countP_map, List.countP_append]
  refine (congrArg (_ + ·) hbegun).trans ?_
  exact List.countP_congr fun l hl => by simpa using hlive l hl

/-- The step of a strand that is active ends the segment, or leaves it open. -/
theorem Tells.emptied_running (h : e.Tells capacity ls) {k : Nat} {s : Site}
    (hsite : e.site? k = some s) {o : OpenSegment} (hactive : s.strand.active = some o)
    (now : UInt64) (op : StrandOp) :
    emptied (e.chronicle now (.strand k op) ls) = emptied ls +
      if s.decision? = some true ∧ (s.step now op).value.state.decision? = none then 1
      else 0 := by
  obtain ⟨ls₁, l, ls₂, x, rfl, hstage, hruns, hapart⟩ := h.running hsite hactive
  have hbegun : e.begun now (.strand k op) = none := by
    simp only [begun, open?_of_site? hsite, hactive]
  obtain ⟨-, hafter⟩ := h.step_running (List.mem_append_right _ List.mem_cons_self) hsite
    hstage hruns now op
  have hopen := open?_step_strand hsite now op
  have hsampled : o.sampled = x.sampled := congrArg Outline.sampled (hruns.outline_eq hactive)
  rw [chronicle_of_one hbegun fun a ha => live_of_ne (hapart a ha),
    Site.decision?_of_active hactive, hsampled, Site.decision?, ← hopen]
  unfold emptied
  rw [List.countP_append, List.countP_append, List.countP_cons, List.countP_cons, hstage]
  rcases hafter with ⟨hsame, s', x', hsite', hruns', -⟩ | ⟨hemptied, hnone, -⟩
  · obtain ⟨o', hactive', -⟩ := Option.map_eq_some_iff.mp hruns'.outline
    rw [hsame, hstage, open?_of_site? hsite', hactive']
    simp
  · rw [hemptied, hnone]
    cases x.sampled <;> simp [Nat.add_assoc]

/-- **Finished segments**: the counter follows the lives of the segments that ended
    while they were sampled. -/
theorem Tells.finished_step (h : e.Tells capacity ls) (now : UInt64) (op : Op)
    (hgrows : e.tracer.counters.Grows (e.step now op).value.state.tracer.counters)
    (hfinished : e.tracer.counters.finished.toNat = emptied ls) :
    (e.step now op).value.state.tracer.counters.finished.toNat =
      emptied (e.chronicle now op ls) := by
  cases op with
  | strand k sop =>
    cases hsite : e.site? k with
    | none =>
      have hidle : e.open? k = none := by rw [open?_eq, hsite, Option.bind_none]
      rw [emptied_chronicle fun l hl => by rw [live_of_ne (h.stage_ne hidle hl)]]
      simp only [Engine.step, hsite, Logged.pure_value]
      exact hfinished
    | some s =>
      have hcounted := (turnover_of_site hsite now sop).finished hgrows
      rw [hcounted, hfinished]
      cases hactive : s.strand.active with
      | some o => exact (h.emptied_running hsite hactive now sop).symm
      | none =>
        have hidle : e.open? k = none := (open?_of_site? hsite).trans hactive
        rw [emptied_chronicle fun l hl => by rw [live_of_ne (h.stage_ne hidle hl)],
          Site.decision?_of_idle hactive, if_neg (by simp), Nat.add_zero]
  | closeStrand k =>
    have hlost : ∀ l ∈ ls, ((e.live now (.closeStrand k) l).stage = .emptied true ↔
        l.stage = .emptied true) := by
      intro l hl
      rw [live_closeStrand]
      split
      · next hstage => simp [hstage]
      · exact Iff.rfl
    rw [emptied_chronicle hlost, ← hfinished]
    simp only [Engine.step, closeStrand]
    cases hsite : e.site? k with
    | none => rfl
    | some s =>
      simp only [Logged.bind_value, Logged.pure_value]
      rw [← tracer_of_site? hsite]
      exact congrArg UInt64.toNat s.finished_leave
  | _ =>
    rw [emptied_chronicle, counters_step, hfinished]
    all_goals simp [live]

/-! ### Parked segments -/

/-- The segments that are parked in a ledger. -/
def parked (e : Engine) : List Segment := e.tracer.ledgers.filterMap Ledger.parked

/-- The segment has ended, and waits for a handle. -/
def isWaiting (l : Life) : Bool := decide (l.stage = .emptied true ∧ ¬ l.IsDue)

/-- A life that waits has a ledger, in which its segment is parked while handles are
    pending. -/
theorem Tells.waits (h : e.Tells capacity ls) (hl : l ∈ ls) (hw : isWaiting l) :
    ∃ n, l.ledger? = some n ∧ (e.tracer.ledger n).parked.isSome ∧
      0 < (e.tracer.ledger n).pending := by
  rw [isWaiting, decide_eq_true_eq] at hw
  cases h.status l hl with
  | running hstage =>
    rw [hstage] at hw
    exact absurd hw.1 (by simp)
  | resting hrests =>
    cases hrests with
    | waiting hstage hledger hpending hbegun hreports hparked hstack hcustody =>
      refine ⟨_, hledger, by rw [hparked, Option.isSome_some], Nat.pos_of_ne_zero fun hzero => ?_⟩
      exact hpending ((hcustody.pending_eq_zero_iff (h.grounded l hl).linked).mp hzero)
    | reported hdue => exact absurd hdue hw.2
    | gone hstage =>
      rcases hstage with hstage | hstage
      · exact absurd (hw.1.symm.trans hstage) (by simp)
      · exact absurd (hw.1.symm.trans hstage) (by simp)

/-- In the ledger of a life that does not wait nothing is parked. -/
theorem Tells.unparked (h : e.Tells capacity ls) (hl : l ∈ ls) (hw : ¬ isWaiting l) :
    (e.tracer.ledgerOf l.ledger?).parked = none := by
  rw [isWaiting, decide_eq_true_eq] at hw
  cases h.status l hl with
  | running hstage hsite hruns =>
    rw [← tracer_of_site? hsite]
    exact hruns.parked
  | resting hrests =>
    cases hrests with
    | waiting hstage hledger hpending => exact absurd ⟨hstage, fun hdue => hpending hdue.2⟩ hw
    | reported hdue hreports hid htree hparked => exact hparked
    | gone hstage hreports hparked => exact hparked

/-- What is parked is that of a life that waits. -/
theorem Tells.of_parked (h : e.Tells capacity ls) {n : Nat}
    (hparked : (e.tracer.ledger n).parked.isSome) :
    ∃ l ∈ ls, isWaiting l ∧ l.ledger? = some n := by
  by_contra hnone
  rw [h.quiet n fun l hl hn => hnone ⟨l, hl, ?_, hn⟩] at hparked
  · contradiction
  · by_contra hw
    have hempty := h.unparked hl hw
    rw [hn] at hempty
    rw [show (e.tracer.ledger n).parked = none from hempty] at hparked
    contradiction

/-- **Parked segments**: as many segments are parked as there are lives that wait. -/
theorem Tells.length_parked (h : e.Tells capacity ls) :
    e.parked.length = ls.countP isWaiting := by
  -- both are counted by the numbers of the ledgers
  let held := (List.range e.tracer.ledgers.length).filter
    fun n => (e.tracer.ledger n).parked.isSome
  let claimed := (ls.filter isWaiting).filterMap Life.ledger?
  have hperm : held.Perm claimed := by
    refine (List.perm_ext_iff_of_nodup ?_ ?_).mpr fun n => ?_
    · exact List.nodup_range.filter _
    · refine List.Pairwise.filterMap (R := Life.Apart) _ ?_ (h.apart.sublist List.filter_sublist)
      intro a b hab n hn m hm hnm
      exact hab.ledger n hn (hnm ▸ hm)
    · simp only [held, claimed, List.mem_filter, List.mem_range, List.mem_filterMap]
      constructor
      · rintro ⟨-, hparked⟩
        obtain ⟨l, hl, hw, hn⟩ := h.of_parked hparked
        exact ⟨l, ⟨hl, hw⟩, hn⟩
      · rintro ⟨l, ⟨hl, hw⟩, hn⟩
        obtain ⟨m, hm, hparked, -⟩ := h.waits hl hw
        obtain rfl := Option.some.inj (hn.symm.trans hm)
        exact ⟨(h.grounded l hl).bound n hn, hparked⟩
  have hheld : held.length = e.parked.length := by
    have hledgers : e.tracer.ledgers =
        (List.range e.tracer.ledgers.length).map e.tracer.ledger := by
      refine List.ext_getElem (by simp) fun n hn _ => ?_
      simp [Tracer.ledger, hn]
    rw [parked, List.length_filterMap_eq_countP, hledgers, List.countP_map,
      List.countP_eq_length_filter]
    rfl
  have hclaimed : claimed.length = ls.countP isWaiting := by
    rw [List.length_filterMap_eq_countP, List.countP_eq_length_filter,
      List.countP_eq_length_filter, List.filter_eq_self.mpr]
    intro l hl
    obtain ⟨hl, hw⟩ := List.mem_filter.mp hl
    obtain ⟨n, hn, -⟩ := h.waits hl hw
    rw [hn, Option.isSome_some]
  rw [← hheld, hperm.length_eq, hclaimed]

/-- What is parked in a ledger waits for a handle. -/
theorem Tells.pending_of_parked (h : e.Tells capacity ls) {led : Ledger}
    (hled : led ∈ e.tracer.ledgers) (hparked : led.parked.isSome) : 0 < led.pending := by
  obtain ⟨n, hlt, rfl⟩ := List.getElem_of_mem hled
  rw [show e.tracer.ledgers[n] = e.tracer.ledger n by simp [Tracer.ledger, hlt]] at hparked ⊢
  obtain ⟨l, hl, hw, hn⟩ := h.of_parked hparked
  obtain ⟨m, hm, -, hpending⟩ := h.waits hl hw
  obtain rfl := Option.some.inj (hn.symm.trans hm)
  exact hpending

/-- A recorded segment that has ended was reported, or it waits. -/
theorem emptied_eq (hstatus : ∀ l ∈ ls, l.Status capacity e) :
    emptied ls = (ls.flatMap Life.reports).length + ls.countP isWaiting := by
  induction ls with
  | nil => rfl
  | cons l rest ih =>
    have hrest := ih fun a ha => hstatus a (List.mem_cons_of_mem _ ha)
    have hlength := (hstatus l List.mem_cons_self).length_reports
    unfold emptied at hrest ⊢
    rw [List.countP_cons, List.countP_cons, List.flatMap_cons, List.length_append, hrest, hlength]
    have hone : (if decide (l.stage = .emptied true) = true then 1 else 0) =
        (if l.IsDue then 1 else 0) + if isWaiting l = true then 1 else 0 := by
      by_cases hdue : l.IsDue
      · simp [isWaiting, hdue, hdue.1]
      · simp [isWaiting, hdue]
    omega

/-! ### Runs -/

/-- **Unwrapped**: no counter wraps around in the run. -/
def Unwrapped (e : Engine) : List (UInt64 × Op) → Prop
  | [] => True
  | (now, op) :: ops =>
    let after := (e.step now op).value.state
    e.tracer.counters.Grows after.tracer.counters ∧ after.Unwrapped ops

instance decidableUnwrapped (e : Engine) : (ops : List (UInt64 × Op)) → Decidable (e.Unwrapped ops)
  | [] => .isTrue trivial
  | (now, op) :: ops =>
    have := decidableUnwrapped (e.step now op).value.state ops
    inferInstanceAs (Decidable (_ ∧ _))

/-- Counters wrap around only in runs that have more operations than a counter has values. -/
theorem unwrapped_of_length {n : Nat} (hcounters : ∀ x ∈ e.tracer.counters.toList, x.toNat ≤ n)
    {ops : List (UInt64 × Op)} (hlength : n + ops.length < UInt64.size) : e.Unwrapped ops := by
  induction ops generalizing e n with
  | nil => trivial
  | cons timed ops ih =>
    obtain ⟨now, op⟩ := timed
    rw [List.length_cons] at hlength
    obtain ⟨hgrows, hnext⟩ := (e.counts_step now op).bounded hcounters (by omega)
    exact ⟨hgrows, ih hnext (by omega)⟩

/-- How many segments are forced to be ignored in a run. Each of them is forced once, as
    `forces_once` says. -/
def forcings (e : Engine) : List (UInt64 × Op) → Nat
  | [] => 0
  | (now, op) :: ops => (e.forces op).toNat + (e.step now op).value.state.forcings ops

/-- **Every run** keeps the counters in balance. -/
theorem Balanced.run {forced : Nat} (h : e.Balanced forced) {ops : List (UInt64 × Op)}
    (hgrows : e.Unwrapped ops) : (e.run ops).Balanced (forced + e.forcings ops) := by
  induction ops generalizing e forced with
  | nil => exact h
  | cons timed ops ih =>
    obtain ⟨now, op⟩ := timed
    rw [forcings, ← Nat.add_assoc]
    exact ih (h.step now op hgrows.1) hgrows.2

theorem Tells.finished_run (h : e.Tells capacity ls) {ops : List (UInt64 × Op)}
    (hgrows : e.Unwrapped ops) (hfinished : e.tracer.counters.finished.toNat = emptied ls) :
    (e.run ops).tracer.counters.finished.toNat = emptied (e.livesFrom ls ops) := by
  induction ops generalizing e ls with
  | nil => exact hfinished
  | cons timed ops ih =>
    obtain ⟨now, op⟩ := timed
    exact ih (h.step now op).1 hgrows.2 (h.finished_step now op hgrows.1 hfinished)

theorem ActiveThrough.isSome {k : Nat} {more : List (UInt64 × Op)} (h : e.ActiveThrough k more) :
    (e.open? k).isSome := by
  cases more with
  | nil => exact h
  | cons timed more => exact h.1

/-- A segment is forced to be ignored only once: as long as it is open it is ignored, and
    no operation forces it again. -/
theorem forces_once {k : Nat} {op : StrandOp} (hforces : e.forces (.strand k op) = true)
    {more : List (UInt64 × Op)}
    (hactive : (e.step now (.strand k op)).value.state.ActiveThrough k more) (op' : StrandOp) :
    ((e.step now (.strand k op)).value.state.run more).forces (.strand k op') = false := by
  obtain ⟨hsampled, hop⟩ := Bool.and_eq_true_iff.mp hforces
  obtain ⟨o, hopen, hsampled⟩ := (Option.any_eq_true _ _).mp hsampled
  obtain ⟨o', hafter⟩ := Option.isSome_iff_exists.mp hactive.isSome
  obtain ⟨-, hignored⟩ := decision_step hopen now _ hafter
  rw [Op.continuesIgnored, beq_self_eq_true, hop, Bool.and_true, Bool.not_true,
    Bool.and_false] at hignored
  obtain ⟨o'', hopen'', -, hignored''⟩ := ignored_through hafter hignored hactive
  rw [forces, hopen'', Option.any_some, hignored'', Bool.false_and]

/-- **Counters are in balance** after every run in which none of them wraps around. What
    was counted when it began was counted when it ended, or is open: for all segments, and
    for recorded and ignored ones apart. What was finished was handed over, or is parked
    behind a handle that has not finished. -/
theorem counters_balance (config : Config) (reporter : Reporter) (process : String)
    (start : UInt64) (ops : List (UInt64 × Op)) :
    let first := ofTracer (.start config reporter process start)
    let last := first.run ops
    let c := last.tracer.counters
    first.Unwrapped ops →
    (c.createdInherited.toNat + c.createdHere.toNat + c.ignoredInherited.toNat +
        c.ignoredHere.toNat =
      c.finished.toNat + c.finishedIgnored.toNat + c.leaked.toNat + c.leakedIgnored.toNat +
        last.strands.countP (·.any Strand.isActive)) ∧
    (c.createdInherited.toNat + c.createdHere.toNat =
      c.finished.toNat + c.leaked.toNat + last.census true + first.forcings ops) ∧
    (c.ignoredInherited.toNat + c.ignoredHere.toNat + first.forcings ops =
      c.finishedIgnored.toNat + c.leakedIgnored.toNat + last.census false) ∧
    c.finished.toNat = (first.handed ops).length + last.parked.length ∧
    ∀ l ∈ last.tracer.ledgers, l.parked.isSome → 0 < l.pending := by
  intro first last c hgrows
  have hstart := tells_start config reporter process start
  obtain ⟨htells, hreports⟩ := hstart.run ops
  have hbalanced : last.Balanced (0 + first.forcings ops) :=
    Balanced.run ⟨rfl, rfl⟩ hgrows
  rw [Nat.zero_add] at hbalanced
  have hrecorded : c.createdInherited.toNat + c.createdHere.toNat =
      c.finished.toNat + c.leaked.toNat + last.census true + first.forcings ops :=
    hbalanced.recorded
  have hignored : c.ignoredInherited.toNat + c.ignoredHere.toNat + first.forcings ops =
      c.finishedIgnored.toNat + c.leakedIgnored.toNat + last.census false :=
    hbalanced.ignored
  have hfinished : c.finished.toNat = emptied (first.lives ops) :=
    hstart.finished_run hgrows rfl
  refine ⟨?_, hrecorded, hignored, ?_, fun l hl => htells.pending_of_parked hl⟩
  · rw [last.census_total]
    omega
  · have hall := emptied_eq htells.status
    rw [hreports.length_eq] at hall
    rw [hfinished, htells.length_parked]
    exact hall

/-- One segment is parked, one is forced to be ignored and ends, one is lost, and one is
    open. -/
def mixedRun : List (UInt64 × Op) :=
  [(0, .openStrand), (0, .openStrand), (1, .strand 0 (.inner "a")), (2, .strand 0 .prepareAsync),
    (3, .strand 0 (.stop none)), (4, .strand 0 (.inner "b")),
    (5, .strand 0 (.continued (.ignored "s"))), (6, .strand 0 (.stop none)),
    (7, .strand 0 (.inner "c")), (8, .closeStrand 0), (9, .strand 1 (.inner "d"))]

theorem counters_balance_mixed :
    let first := ofTracer (.start (Config.standard "i") .collecting "p" 0)
    let last := first.run mixedRun
    let c := last.tracer.counters
    first.Unwrapped mixedRun ∧ c.toList = [0, 4, 0, 0, 1, 1, 1, 0] ∧
      first.forcings mixedRun = 1 ∧
      c.createdInherited.toNat + c.createdHere.toNat =
        c.finished.toNat + c.leaked.toNat + last.census true + first.forcings mixedRun ∧
      c.finished.toNat = (first.handed mixedRun).length + last.parked.length := by
  let e := ofTracer (.start (Config.standard "i") .collecting "p" 0)
  have hzero : e.tracer.counters.toList = List.replicate 8 0 := rfl
  have hgrows : e.Unwrapped mixedRun := by
    refine unwrapped_of_length (n := 0) (fun x hx => ?_) (by decide)
    rw [hzero] at hx
    rw [List.eq_of_mem_replicate hx, UInt64.toNat_zero]
  obtain ⟨-, hrecorded, -, hfinished, -⟩ :=
    counters_balance (Config.standard "i") .collecting "p" 0 mixedRun hgrows
  -- the run is not evaluated again to compare the two sides
  dsimp only
  exact ⟨hgrows, by decide +kernel, by decide +kernel, hrecorded, hfinished⟩

end Engine

end TraceLink
