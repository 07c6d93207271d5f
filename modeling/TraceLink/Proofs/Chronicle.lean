import TraceLink.Proofs.LifeSteps
import TraceLink.Proofs.StrandInvariants

/-! # The chronicle of a run

    The lives that an observer wrote down tell what the engine holds: each strand
    with an open segment has one running life, no two lives share a ledger, and what
    a life says holds of its site or its ledger. Every step of the engine keeps this
    so, and adds to the reports in the lives what it hands to the reporter. -/

namespace TraceLink

namespace Life

/-- What a life says holds in the engine. -/
inductive Status (capacity : Nat) (e : Engine) (l : Life) : Prop where
  | running {k : Nat} {s : Site} {x : Outline} (hstage : l.stage = .running k)
      (hsite : e.site? k = some s) (hruns : l.Runs capacity s x)
  | resting (hrests : l.Rests capacity e.tracer)

/-- Two lives share neither the strand nor the ledger. -/
structure Apart (l l' : Life) : Prop where
  strand : ∀ k, l.stage = .running k → l'.stage ≠ .running k
  ledger : ∀ n, l.ledger? = some n → l'.ledger? ≠ some n

theorem Apart.symm {l l' : Life} (h : l.Apart l') : l'.Apart l where
  strand := fun k hk hk' => h.strand k hk' hk
  ledger := fun n hn hn' => h.ledger n hn' hn

theorem Rests.stage_ne {capacity : Nat} {t : Tracer} {l : Life} (h : l.Rests capacity t) (k : Nat) :
    l.stage ≠ .running k := by
  intro hk
  cases h with
  | waiting hstage => rw [hk] at hstage; contradiction
  | reported hdue => have hstage := hdue.1; rw [hk] at hstage; contradiction
  | gone hstage =>
    rw [hk] at hstage
    rcases hstage with hemptied | hlost
    · contradiction
    · contradiction

end Life

/-! ### What the chronicle tells -/

/-- The lives tell what the engine holds. -/
structure Engine.Tells (capacity : Nat) (e : Engine) (lives : List Life) : Prop where
  room : e.tracer.config.capacity = capacity
  grounded : ∀ l ∈ lives, l.Grounded e.tracer
  status : ∀ l ∈ lives, l.Status capacity e
  apart : lives.Pairwise Life.Apart
  told : ∀ k o, e.open? k = some o → ∃ l ∈ lives, l.stage = .running k
  /-- Nothing is parked in a ledger that is in no life. -/
  quiet : ∀ n, (∀ l ∈ lives, l.ledger? ≠ some n) → (e.tracer.ledger n).parked = none

/-- A life is not concerned by what happens to other strands and ledgers. -/
theorem Life.Status.frame {capacity : Nat} {e e' : Engine} {l : Life} (h : l.Status capacity e)
    (hopen : ∀ k, l.stage = .running k → e'.open? k = e.open? k)
    (hledger : e'.tracer.ledgerOf l.ledger? = e.tracer.ledgerOf l.ledger?) :
    l.Status capacity e' := by
  cases h with
  | resting hrests => exact .resting (hrests.frame hledger)
  | running hstage hsite hruns =>
    next k s x =>
    -- the segment is found again at the same place, with the same outline
    have hsame := hopen k hstage
    rw [Engine.open?_of_site? hsite] at hsame
    obtain ⟨o, hactive, hout⟩ := Option.map_eq_some_iff.mp hruns.outline
    rw [hactive] at hsame
    obtain ⟨s', hsite', hactive'⟩ := Engine.site?_of_open? hsame
    refine .running hstage hsite' (hruns.frame ?_ ?_)
    · rw [Site.outline?_of_active hactive', hruns.outline, hout]
    · rw [Engine.tracer_of_site? hsite', Engine.tracer_of_site? hsite]
      exact hledger

namespace Engine.Tells

variable {capacity : Nat} {e e' : Engine} {ls ls₁ ls₂ : List Life} {l l' : Life}

/-- A step that no life is concerned by. -/
theorem frame (h : e.Tells capacity ls) (hconfig : e'.tracer.config = e.tracer.config)
    (hlength : e.tracer.ledgers.length ≤ e'.tracer.ledgers.length)
    (hopen : ∀ k, e'.open? k = e.open? k)
    (hledger : ∀ l ∈ ls, e'.tracer.ledgerOf l.ledger? = e.tracer.ledgerOf l.ledger?)
    (hquiet : ∀ n, (∀ l ∈ ls, l.ledger? ≠ some n) → (e'.tracer.ledger n).parked = none) :
    e'.Tells capacity ls where
  room := by rw [hconfig, h.room]
  grounded := fun l hl => ⟨(h.grounded l hl).linked,
    fun n hn => Nat.lt_of_lt_of_le ((h.grounded l hl).bound n hn) hlength⟩
  status := fun l hl => (h.status l hl).frame (fun k _ => hopen k) (hledger l hl)
  apart := h.apart
  told := fun k o ho => h.told k o (hopen k ▸ ho)
  quiet := hquiet

/-- A step that changes neither the ledgers nor the open segments. -/
theorem of_ledgers_eq (h : e.Tells capacity ls) (hconfig : e'.tracer.config = e.tracer.config)
    (hledgers : e'.tracer.ledgers = e.tracer.ledgers) (hopen : ∀ k, e'.open? k = e.open? k) :
    e'.Tells capacity ls := by
  refine h.frame hconfig (Nat.le_of_eq (by rw [hledgers])) hopen
    (fun l _ => Tracer.ledgerOf_congr hledgers _) fun n hn => ?_
  rw [Tracer.ledger, hledgers]
  exact h.quiet n hn

/-- One life among others. -/
theorem split (h : e.Tells capacity ls) (hl : l ∈ ls) :
    ∃ ls₁ ls₂, ls = ls₁ ++ l :: ls₂ ∧ ∀ l' ∈ ls₁ ++ ls₂, l.Apart l' := by
  obtain ⟨ls₁, ls₂, rfl⟩ := List.append_of_mem hl
  refine ⟨ls₁, ls₂, rfl, ?_⟩
  have hapart := (List.pairwise_middle Life.Apart.symm).mp h.apart
  exact (List.pairwise_cons.mp hapart).1

/-- A step that one life is concerned by. -/
theorem replace (h : e.Tells capacity (ls₁ ++ l :: ls₂))
    (hmoves : Life.Moves e.tracer e'.tracer l l')
    (hopen : ∀ k, l.stage ≠ .running k → e'.open? k = e.open? k)
    (hstage : ∀ k, l'.stage = .running k → l.stage = .running k)
    (htold : ∀ k o, l.stage = .running k → e'.open? k = some o → l'.stage = .running k)
    (hstatus : l'.Status capacity e') : e'.Tells capacity (ls₁ ++ l' :: ls₂) := by
  have hl : l ∈ ls₁ ++ l :: ls₂ := List.mem_append_right _ List.mem_cons_self
  have hold : ∀ a ∈ ls₁ ++ ls₂, a ∈ ls₁ ++ l :: ls₂ := by
    intro a ha
    rcases List.mem_append.mp ha with h₁ | h₂
    · exact List.mem_append_left _ h₁
    · exact List.mem_append_right _ (List.mem_cons_of_mem _ h₂)
  have hnew : ∀ a ∈ ls₁ ++ l' :: ls₂, a = l' ∨ a ∈ ls₁ ++ ls₂ := by
    intro a ha
    simp only [List.mem_append, List.mem_cons] at ha ⊢
    tauto
  have hpairs := List.pairwise_cons.mp ((List.pairwise_middle Life.Apart.symm).mp h.apart)
  -- The ledger of the new life is the old one or a new one, so it is in no other life.
  have hapart : ∀ a ∈ ls₁ ++ ls₂, l'.Apart a := by
    intro a ha
    refine ⟨fun k hk => (hpairs.1 a ha).strand k (hstage k hk), fun n hn hn' => ?_⟩
    rcases hmoves.fresh n hn with hkept | hfresh
    · exact (hpairs.1 a ha).ledger n hkept hn'
    · have hlt := (h.grounded a (hold a ha)).bound n hn'
      omega
  have hspared : ∀ a ∈ ls₁ ++ ls₂,
      e'.tracer.ledgerOf a.ledger? = e.tracer.ledgerOf a.ledger? := by
    intro a ha
    cases hn : a.ledger? with
    | none => rfl
    | some n => exact hmoves.spares.ledger n fun hn' => (hapart a ha).ledger n hn' hn
  refine ⟨?_, ?_, ?_, ?_, ?_, ?_⟩
  · rw [hmoves.spares.config, h.room]
  · intro a ha
    rcases hnew a ha with rfl | ha
    · exact hmoves.grounded
    · have hgrounded := h.grounded a (hold a ha)
      exact ⟨hgrounded.linked,
        fun n hn => Nat.lt_of_lt_of_le (hgrounded.bound n hn) hmoves.spares.length⟩
  · intro a ha
    rcases hnew a ha with rfl | ha
    · exact hstatus
    · refine (h.status a (hold a ha)).frame (fun k hk => hopen k fun hk' => ?_) (hspared a ha)
      exact (hpairs.1 a ha).strand k hk' hk
  · exact (List.pairwise_middle Life.Apart.symm).mpr (List.pairwise_cons.mpr ⟨hapart, hpairs.2⟩)
  · intro k o ho
    by_cases hk : l.stage = .running k
    · exact ⟨l', List.mem_append_right _ List.mem_cons_self, htold k o hk ho⟩
    · obtain ⟨a, ha, hak⟩ := h.told k o (hopen k hk ▸ ho)
      refine ⟨a, ?_, hak⟩
      simp only [List.mem_append, List.mem_cons] at ha ⊢
      rcases ha with ha | rfl | ha
      · exact .inl ha
      · exact absurd hak hk
      · exact .inr (.inr ha)
  · intro n hn
    have hn' := hn l' (List.mem_append_right _ List.mem_cons_self)
    rw [hmoves.spares.ledger n hn']
    refine h.quiet n fun a ha han => ?_
    simp only [List.mem_append, List.mem_cons] at ha
    rcases ha with ha | rfl | ha
    · exact hn a (List.mem_append_left _ ha) han
    · exact hn' (hmoves.kept n han)
    · exact hn a (List.mem_append_right _ (List.mem_cons_of_mem _ ha)) han

/-- No life runs on an idle strand. -/
theorem stage_ne (h : e.Tells capacity ls) {k : Nat} (hidle : e.open? k = none) (hl : l ∈ ls) :
    l.stage ≠ .running k := by
  intro hk
  cases h.status l hl with
  | resting hrests => exact hrests.stage_ne k hk
  | running hstage hsite hruns =>
    obtain rfl := Stage.running.inj (hstage.symm.trans hk)
    obtain ⟨o, hactive, -⟩ := Option.map_eq_some_iff.mp hruns.outline
    rw [Engine.open?_of_site? hsite, hactive] at hidle
    contradiction

/-- A step that a life begins with. -/
theorem append (h : e.Tells capacity ls) (hconfig : e'.tracer.config = e.tracer.config)
    (hledgers : e'.tracer.ledgers = e.tracer.ledgers) {k : Nat} (hidle : e.open? k = none)
    (hopen : ∀ k', k ≠ k' → e'.open? k' = e.open? k') (hstage : l.stage = .running k)
    (hhandles : l.handles = []) (hfinished : l.finished = []) (hstatus : l.Status capacity e') :
    e'.Tells capacity (ls ++ [l]) := by
  have hnone : l.ledger? = none := by rw [Life.ledger?, hhandles, List.head?_nil]
  -- the strand was idle, so no life before claims it
  have hother : ∀ a ∈ ls, a.stage ≠ .running k := fun a ha => h.stage_ne hidle ha
  refine ⟨?_, ?_, ?_, ?_, ?_, ?_⟩
  · rw [hconfig, h.room]
  · intro a ha
    rcases List.mem_append.mp ha with ha | ha
    · exact ⟨(h.grounded a ha).linked, by rw [hledgers]; exact (h.grounded a ha).bound⟩
    · obtain rfl := List.mem_singleton.mp ha
      refine ⟨⟨fun b hb => ?_, fun b hb => ?_⟩, fun n hn => ?_⟩
      · rw [hhandles] at hb
        contradiction
      · rw [hfinished] at hb
        contradiction
      · rw [hnone] at hn
        contradiction
  · intro a ha
    rcases List.mem_append.mp ha with ha | ha
    · refine (h.status a ha).frame (fun k' hk' => hopen k' ?_) (Tracer.ledgerOf_congr hledgers _)
      rintro rfl
      exact hother a ha hk'
    · exact List.mem_singleton.mp ha ▸ hstatus
  · refine List.pairwise_append.mpr ⟨h.apart, List.pairwise_singleton _ _, fun a ha b hb => ?_⟩
    obtain rfl := List.mem_singleton.mp hb
    refine ⟨fun k' hk' hk => ?_, fun n _ hn => ?_⟩
    · rw [hstage] at hk
      exact hother a ha (Stage.running.inj hk ▸ hk')
    · rw [hnone] at hn
      contradiction
  · intro k' o ho
    by_cases hk : k = k'
    · exact ⟨l, List.mem_append_right _ (List.mem_singleton_self l), hk ▸ hstage⟩
    · obtain ⟨a, ha, hak⟩ := h.told k' o (hopen k' hk ▸ ho)
      exact ⟨a, List.mem_append_left _ ha, hak⟩
  · intro n hn
    rw [Tracer.ledger, hledgers]
    exact h.quiet n fun a ha => hn a (List.mem_append_left _ ha)

end Engine.Tells

/-! ### Steps -/

namespace Engine

variable {capacity : Nat} {e : Engine} {now : UInt64} {op : Op} {ls ls₁ ls₂ : List Life} {l : Life}

theorem chronicle_of_still (hbegun : e.begun now op = none) (h : ∀ l ∈ ls, e.live now op l = l) :
    e.chronicle now op ls = ls := by
  rw [chronicle, hbegun, Option.toList_none, List.append_nil]
  exact (List.map_congr_left h).trans (List.map_id ls)

theorem chronicle_of_one (hbegun : e.begun now op = none)
    (h : ∀ a ∈ ls₁ ++ ls₂, e.live now op a = a) :
    e.chronicle now op (ls₁ ++ l :: ls₂) = ls₁ ++ e.live now op l :: ls₂ := by
  have h₁ : ls₁.map (e.live now op) = ls₁ :=
    (List.map_congr_left fun a ha => h a (List.mem_append_left _ ha)).trans (List.map_id ls₁)
  have h₂ : ls₂.map (e.live now op) = ls₂ :=
    (List.map_congr_left fun a ha => h a (List.mem_append_right _ ha)).trans (List.map_id ls₂)
  rw [chronicle, hbegun, Option.toList_none, List.append_nil, List.map_append, List.map_cons, h₁,
    h₂]

theorem reports_afterStrandOp (l : Life) (before : Option OpenSegment) (now : UInt64)
    (op : StrandOp) (reply : Reply) :
    (l.afterStrandOp before now op reply).reports = l.reports := by
  unfold Life.afterStrandOp
  split
  · rfl
  · rfl
  · split <;> rfl

/-- The reports of all lives when one more was noted in one of them. -/
theorem reports_of_one {l' : Life} {handed : Option Segment}
    (h : l'.reports = l.reports ++ handed.toList) :
    ((ls₁ ++ l' :: ls₂).flatMap Life.reports).Perm
      ((ls₁ ++ l :: ls₂).flatMap Life.reports ++ handed.toList) := by
  simp only [List.flatMap_append, List.flatMap_cons, h, List.append_assoc]
  refine List.Perm.append_left _ (List.Perm.append_left _ ?_)
  exact List.perm_append_comm

theorem reports_of_none {handed : Option Segment} (h : handed = none) :
    (ls.flatMap Life.reports).Perm (ls.flatMap Life.reports ++ handed.toList) := by
  rw [h, Option.toList_none, List.append_nil]

theorem live_strand (e : Engine) (now : UInt64) (k : Nat) (op : StrandOp) (l : Life) :
    e.live now (.strand k op) l =
      if l.stage = .running k then
        (l.afterStrandOp (e.open? k) now op (e.step now (.strand k op)).value.reply).report
          (e.step now (.strand k op)).value.handed
      else l := rfl

theorem live_closeStrand (e : Engine) (now : UInt64) (k : Nat) (l : Life) :
    e.live now (.closeStrand k) l =
      if l.stage = .running k then { l with stage := .lost } else l := rfl

theorem live_handle (e : Engine) (now : UInt64) (a : AsyncHandle) (op : HandleOp) (l : Life) :
    e.live now (.handle a op) l = l.afterHandle a op (e.step now (.handle a op)).value.handed :=
  rfl

theorem live_of_ne {k : Nat} {op : StrandOp} (h : l.stage ≠ .running k) :
    e.live now (.strand k op) l = l := if_neg h

/-- A life that runs on a strand runs at its site. -/
theorem Tells.runs (h : e.Tells capacity ls) (hl : l ∈ ls) {k : Nat} (hk : l.stage = .running k)
    {s : Site} (hsite : e.site? k = some s) :
    ∃ x, l.Runs capacity s x ∧ l.Grounded s.tracer := by
  cases h.status l hl with
  | resting hrests => exact absurd hk (hrests.stage_ne k)
  | running hstage hsite' hruns =>
    obtain rfl := Stage.running.inj (hstage.symm.trans hk)
    obtain rfl := Option.some.inj (hsite.symm.trans hsite')
    exact ⟨_, hruns, tracer_of_site? hsite ▸ h.grounded l hl⟩

/-- The life of the open segment of a strand. -/
theorem Tells.running (h : e.Tells capacity ls) {k : Nat} {s : Site} (hsite : e.site? k = some s)
    {o : OpenSegment} (hactive : s.strand.active = some o) :
    ∃ ls₁ l ls₂ x, ls = ls₁ ++ l :: ls₂ ∧ l.stage = .running k ∧ l.Runs capacity s x ∧
      ∀ a ∈ ls₁ ++ ls₂, a.stage ≠ .running k := by
  obtain ⟨l, hl, hk⟩ := h.told k o ((open?_of_site? hsite).trans hactive)
  obtain ⟨ls₁, ls₂, rfl, hapart⟩ := h.split hl
  obtain ⟨x, hruns, -⟩ := h.runs hl hk hsite
  exact ⟨ls₁, l, ls₂, x, rfl, hk, hruns, fun a ha => (hapart a ha).strand _ hk⟩

/-- The step keeps the lives true, and what it hands over is in their reports. -/
def Keeps (capacity : Nat) (e : Engine) (now : UInt64) (op : Op) (ls : List Life) : Prop :=
  (e.step now op).value.state.Tells capacity (e.chronicle now op ls) ∧
  ((e.chronicle now op ls).flatMap Life.reports).Perm
    (ls.flatMap Life.reports ++ (e.step now op).value.handed.toList)

/-- A step that changes no life, whatever it answers. -/
theorem Tells.still (h : e.Tells capacity ls) (hlive : ∀ l ∈ ls, e.live now op l = l)
    (hbegun : e.begun now op = none) {outcome : Outcome Engine}
    (hvalue : (e.step now op).value = outcome) (hhanded : outcome.handed = none)
    (hconfig : outcome.state.tracer.config = e.tracer.config)
    (hledgers : outcome.state.tracer.ledgers = e.tracer.ledgers)
    (hopen : ∀ k, outcome.state.open? k = e.open? k) :
    Keeps capacity e now op ls := by
  unfold Keeps
  rw [chronicle_of_still hbegun hlive, hvalue]
  exact ⟨h.of_ledgers_eq hconfig hledgers hopen, reports_of_none hhanded⟩

theorem open?_openStrand (e : Engine) (k : Nat) : e.openStrand.2.open? k = e.open? k := by
  unfold open? strand? openStrand
  simp only [List.getElem?_append]
  split
  · rfl
  · next hk =>
    rw [List.getElem?_eq_none (Nat.le_of_not_lt hk), List.getElem?_singleton]
    split <;> rfl

theorem keeps_openStrand (h : e.Tells capacity ls) : Keeps capacity e now .openStrand ls :=
  h.still (fun _ _ => rfl) rfl rfl rfl rfl rfl (open?_openStrand e)

theorem keeps_setSuffixes (h : e.Tells capacity ls) (value : Option String) :
    Keeps capacity e now (.setSuffixes value) ls := by
  obtain ⟨reply, suffixes, hvalue⟩ := e.setSuffixes_value now value
  exact h.still (fun _ _ => rfl) rfl hvalue rfl rfl rfl fun _ => rfl

/-- The strand that goes away leaves its place empty, and no other is concerned. -/
theorem open?_left {k : Nat} {s : Site} (hsite : e.site? k = some s) (k' : Nat) :
    open? ⟨s.leave.value, e.strands.set k none⟩ k' = if k = k' then none else e.open? k' := by
  rw [open?, strand?_leave hsite]
  split <;> rfl

theorem keeps_closeStrand (h : e.Tells capacity ls) (k : Nat) :
    Keeps capacity e now (.closeStrand k) ls := by
  have hlive {l : Life} (hne : l.stage ≠ .running k) : e.live now (.closeStrand k) l = l :=
    if_neg hne
  cases hsite : e.site? k with
  | none =>
    have hvalue : (e.step now (.closeStrand k)).value = .of .done e := by
      simp only [step, closeStrand, hsite, Logged.bind_value, Logged.pure_value]
    have hidle : e.open? k = none := by rw [open?_eq, hsite, Option.bind_none]
    exact h.still (fun l hl => hlive (h.stage_ne hidle hl)) rfl hvalue rfl rfl rfl fun _ => rfl
  | some s =>
    have hvalue : (e.step now (.closeStrand k)).value =
        .of .done ⟨s.leave.value, e.strands.set k none⟩ := by
      simp only [step, closeStrand, hsite, Logged.bind_value, Logged.pure_value]
    obtain ⟨hconfig, hledgers⟩ := s.leave_value
    rw [tracer_of_site? hsite] at hconfig hledgers
    have hgone : open? ⟨s.leave.value, e.strands.set k none⟩ k = none :=
      (open?_left hsite k).trans (if_pos rfl)
    cases hactive : s.strand.active with
    | none =>
      have hidle : e.open? k = none := (open?_of_site? hsite).trans hactive
      refine h.still (fun l hl => hlive (h.stage_ne hidle hl)) rfl hvalue rfl hconfig hledgers ?_
      intro k'
      refine (open?_left hsite k').trans ?_
      split
      · next hk => rw [← hk, hidle]
      · rfl
    | some o =>
      obtain ⟨ls₁, l, ls₂, x, rfl, hstage, hruns, hapart⟩ := h.running hsite hactive
      have hlost : e.live now (.closeStrand k) l = { l with stage := .lost } := if_pos hstage
      have hl := h.grounded l (List.mem_append_right _ List.mem_cons_self)
      unfold Keeps
      rw [chronicle_of_one rfl fun a ha => hlive (hapart a ha), hlost, hvalue]
      refine ⟨h.replace ?_ ?_ ?_ ?_ ?_, reports_of_one (List.append_nil _).symm⟩
      · exact Life.moves_of_ledger?_eq hl ⟨hl.linked.handles, hl.linked.finished⟩ rfl
          (Tracer.spares_of_ledgers_eq hconfig hledgers _)
      · intro k' hk'
        refine (open?_left hsite k').trans (if_neg ?_)
        rintro rfl
        exact hk' hstage
      · exact fun k' hk' => by contradiction
      · intro k' o' hk' ho'
        obtain rfl := Stage.running.inj (hstage.symm.trans hk')
        exact absurd (hgone.symm.trans ho') (by simp)
      · exact .resting (hruns.left s.leave_value.2)

theorem step_strand {k : Nat} {s : Site} (hsite : e.site? k = some s) (now : UInt64)
    (op : StrandOp) :
    (e.step now (.strand k op)).value = (s.step now op).value.map (e.setSite k) := by
  simp only [step, hsite, Logged.bind_value, Logged.pure_value]

/-- The reply of a step of a strand is that of its site. -/
theorem reply_of_site {k : Nat} {s : Site} (hsite : e.site? k = some s) (now : UInt64)
    (op : StrandOp) : (e.step now (.strand k op)).value.reply = (s.step now op).value.reply :=
  congrArg Outcome.reply (step_strand hsite now op)

/-- What a step of a strand leaves at its place is what it leaves of the site. -/
theorem site?_step_strand {k : Nat} {s : Site} (hsite : e.site? k = some s) (now : UInt64)
    (op : StrandOp) :
    (e.step now (.strand k op)).value.state.site? k = some (s.step now op).value.state := by
  rw [step_strand hsite]
  exact site?_setSite hsite _

theorem open?_step_strand {k : Nat} {s : Site} (hsite : e.site? k = some s) (now : UInt64)
    (op : StrandOp) :
    (e.step now (.strand k op)).value.state.open? k = (s.step now op).value.state.strand.active :=
  open?_of_site? (site?_step_strand hsite now op)

/-- Only its own operations change a strand. -/
theorem strand?_step {k : Nat} {s : Strand} (h : e.strand? k = some s) (now : UInt64) {op : Op}
    (hstrand : ∀ sop, op ≠ .strand k sop) (hclose : op ≠ .closeStrand k) :
    (e.step now op).value.state.strand? k = some s := by
  cases op with
  | openStrand =>
    show ((e.strands ++ [_])[k]?).join = some s
    rw [List.getElem?_append_left (lt_length_of_strand? h)]
    exact h
  | closeStrand k' =>
    have hk : k' ≠ k := fun hk => hclose (hk ▸ rfl)
    simp only [step, closeStrand]
    cases hsite : e.site? k' with
    | none => exact h
    | some s' =>
      exact (strand?_leave hsite k).trans (by rw [if_neg hk, h])
  | strand k' sop =>
    have hk : k' ≠ k := fun hk => hstrand sop (hk ▸ rfl)
    cases hsite : e.site? k' with
    | none =>
      simp only [step, hsite, Logged.pure_value]
      exact h
    | some s' =>
      rw [step_strand hsite]
      exact (strand?_setSite hsite _ k).trans (by rw [if_neg hk, h])
  | setSuffixes value =>
    obtain ⟨reply, suffixes, hvalue⟩ := e.setSuffixes_value now value
    rw [hvalue]
    exact h
  | _ => exact h

/-- A step of its strand adds what it hands over to the reports of a life. -/
theorem reports_live_strand {k : Nat} (hstage : l.stage = .running k) {s : Site}
    (hsite : e.site? k = some s) (now : UInt64) (op : StrandOp) :
    (e.live now (.strand k op) l).reports =
      l.reports ++ (s.step now op).value.handed.toList := by
  rw [live_strand, if_pos hstage, Life.report, reports_afterStrandOp, step_strand hsite]
  rfl

/-- What a step of its strand does to a running life. -/
theorem Tells.step_running (h : e.Tells capacity ls) (hl : l ∈ ls) {k : Nat} {s : Site}
    {x : Outline} (hsite : e.site? k = some s) (hstage : l.stage = .running k)
    (hruns : l.Runs capacity s x) (now : UInt64) (op : StrandOp) :
    let e' := (e.step now (.strand k op)).value.state
    let l' := e.live now (.strand k op) l
    Life.Moves e.tracer e'.tracer l l' ∧
    ((l'.stage = l.stage ∧ ∃ s' x', e'.site? k = some s' ∧ l'.Runs capacity s' x' ∧
        (x'.sampled = true → x.sampled = true)) ∨
      (l'.stage = .emptied x.sampled ∧ e'.open? k = none ∧ l'.Rests capacity e'.tracer)) := by
  have htracer := tracer_of_site? hsite
  have hgrounded := h.grounded l hl
  rw [← htracer] at hgrounded
  obtain ⟨hmoves, hafter⟩ := hruns.step (by rw [htracer, h.room]) hgrounded
    (s.effect_of_step now op)
  rw [htracer] at hmoves
  intro e' l'
  have hlive : l' = (l.afterStrandOp s.strand.active now op (s.step now op).value.reply).report
      (s.step now op).value.handed := by
    show e.live now (.strand k op) l = _
    rw [live_strand, if_pos hstage, step_strand hsite, open?_of_site? hsite]
    rfl
  have hstate : e' = e.setSite k (s.step now op).value.state :=
    congrArg Outcome.state (step_strand hsite now op)
  rw [← hlive] at hmoves hafter
  rw [hstate]
  refine ⟨hmoves, ?_⟩
  rcases hafter with ⟨hsame, x', hruns', hsampled⟩ | ⟨hemptied, hnone, hrests⟩
  · exact .inl ⟨hsame, _, x', site?_setSite hsite _, hruns', hsampled⟩
  · refine .inr ⟨hemptied, ?_, hrests⟩
    rw [open?_of_site? (site?_setSite hsite _)]
    exact Option.map_eq_none_iff.mp hnone

/-- A step of a strand with an open segment. -/
theorem keeps_running (h : e.Tells capacity ls) {k : Nat} {s : Site}
    (hsite : e.site? k = some s) {o : OpenSegment} (hactive : s.strand.active = some o)
    (op : StrandOp) : Keeps capacity e now (.strand k op) ls := by
  obtain ⟨ls₁, l, ls₂, x, rfl, hstage, hruns, hapart⟩ := h.running hsite hactive
  have hbegun : e.begun now (.strand k op) = none := by
    simp only [begun, open?_of_site? hsite, hactive]
  -- of all lives, only that of the open segment is concerned
  obtain ⟨hmoves, hafter⟩ := h.step_running (List.mem_append_right _ List.mem_cons_self) hsite
    hstage hruns now op
  unfold Keeps
  rw [chronicle_of_one hbegun fun a ha => live_of_ne (hapart a ha)]
  refine ⟨h.replace hmoves ?_ ?_ ?_ ?_, reports_of_one ?_⟩
  · intro k' hk'
    rw [step_strand hsite]
    exact open?_setSite hsite _ fun hk => hk' (hk ▸ hstage)
  · intro k' hk'
    rcases hafter with ⟨hsame, -⟩ | ⟨hemptied, -, -⟩
    · exact hsame.symm.trans hk'
    · exact absurd (hemptied.symm.trans hk') (by simp)
  · intro k' o' hk' ho'
    obtain rfl := Stage.running.inj (hstage.symm.trans hk')
    rcases hafter with ⟨hsame, -⟩ | ⟨-, hnone, -⟩
    · exact hsame.trans hstage
    · exact absurd (hnone.symm.trans ho') (by simp)
  · rcases hafter with ⟨hsame, s', x', hsite', hruns', -⟩ | ⟨-, -, hrests⟩
    · exact .running (hsame.trans hstage) hsite' hruns'
    · exact .resting hrests
  · rw [live_strand, if_pos hstage, Life.report, reports_afterStrandOp]

/-- On an idle strand, only opening a span begins a segment. -/
theorem idle_of_effect {s : Site} (hactive : s.strand.active = none) {op : StrandOp}
    (hop : op.opens? = none) {outcome : Outcome Site} (heffect : Site.Effect now s op outcome) :
    outcome.handed = none ∧ outcome.state.strand.active = none ∧
    outcome.state.tracer = s.tracer := by
  cases heffect with
  | refused e hnone => exact ⟨rfl, hactive, rfl⟩
  | touched hnone hstop hprepare htouch =>
    obtain ⟨htracer, b, hout⟩ := Site.outline?_touches htouch
    have hidle : s.outline? = none := by rw [Site.outline?, hactive, Option.map_none]
    rw [hidle, Option.map_none] at hout
    exact ⟨rfl, Option.map_eq_none_iff.mp hout, htracer⟩
  | opened hkind =>
    rw [hkind] at hop
    contradiction
  | sent => contradiction
  | prepared hactive' =>
    rw [hactive] at hactive'
    contradiction
  | stopped hactive' =>
    rw [hactive] at hactive'
    contradiction
  | ended hactive' =>
    rw [hactive] at hactive'
    contradiction

/-- A step by which no segment begins on an idle strand. -/
theorem keeps_idle_still (h : e.Tells capacity ls) {k : Nat} {s : Site}
    (hsite : e.site? k = some s) (hactive : s.strand.active = none) {op : StrandOp}
    (hop : op.opens? = none) : Keeps capacity e now (.strand k op) ls := by
  have hidle : e.open? k = none := (open?_of_site? hsite).trans hactive
  have hvalue := step_strand hsite now op
  obtain ⟨hhanded, hactive', htracer⟩ := idle_of_effect hactive hop (s.effect_of_step now op)
  rw [tracer_of_site? hsite] at htracer
  have hafter : (e.setSite k (s.step now op).value.state).open? k = none :=
    (open?_of_site? (site?_setSite hsite _)).trans hactive'
  have hbegun : e.begun now (.strand k op) = none := by
    simp only [begun, hvalue, Outcome.map, hidle, hafter]
  refine h.still (fun l hl => live_of_ne (h.stage_ne hidle hl)) hbegun hvalue hhanded ?_ ?_ ?_
  · exact congrArg Tracer.config htracer
  · exact congrArg Tracer.ledgers htracer
  · intro k'
    by_cases hk : k = k'
    · subst hk
      exact hafter.trans hidle.symm
    · exact open?_setSite hsite _ hk

/-- A step by which a segment begins: its life is new in the chronicle, with the span
    that was opened. -/
theorem keeps_idle_opens (h : e.Tells capacity ls) {k : Nat} {s : Site}
    (hsite : e.site? k = some s) (hactive : s.strand.active = none) {op : StrandOp}
    {kind : SpanKind} (hop : op.opens? = some kind) : Keeps capacity e now (.strand k op) ls := by
  have htracer := tracer_of_site? hsite
  have hidle : e.open? k = none := (open?_of_site? hsite).trans hactive
  have hvalue := step_strand hsite now op
  obtain ⟨hhanded, hconfig, hledgers, hout⟩ :=
    Life.opens_of_effect (s.effect_of_step now op) hop
  have hnone : s.outline? = none := by rw [Site.outline?, hactive, Option.map_none]
  rw [htracer] at hconfig hledgers
  rcases hout with ⟨x, b, hsome, -⟩ | ⟨-, id, sampled, hout⟩
  · rw [hnone] at hsome
    contradiction
  obtain ⟨o, hactive', hid⟩ := Option.map_eq_some_iff.mp hout
  have hsegment : o.segment.id = id :=
    (congrArg Outline.id hid).trans (Outline.id_opened _ _ _ _)
  have hafter : (e.setSite k (s.step now op).value.state).open? k = some o :=
    (open?_of_site? (site?_setSite hsite _)).trans hactive'
  have hbegun : e.begun now (.strand k op) = some { segment := id, stage := .running k } := by
    simp only [begun, hvalue, Outcome.map, hidle, hafter, hsegment]
  have hlive : e.live now (.strand k op) { segment := id, stage := .running k } =
      { segment := id, stage := .running k, openings := [⟨now, kind, none⟩] } := by
    simp only [live, if_true, hvalue, Outcome.map, hhanded, Life.report_none, hidle,
      Life.afterStrandOp_opened _ _ _ hop, Option.map_none, Option.bind_none, List.nil_append]
  have hchronicle : e.chronicle now (.strand k op) ls =
      ls ++ [{ segment := id, stage := .running k, openings := [⟨now, kind, none⟩] }] := by
    rw [chronicle, hbegun, Option.toList_some, List.map_append, List.map_cons, hlive,
      List.map_nil]
    congr 1
    exact (List.map_congr_left fun l hl => live_of_ne (h.stage_ne hidle hl)).trans
      (List.map_id ls)
  rw [htracer, h.room] at hout
  unfold Keeps
  rw [hchronicle, hvalue]
  refine ⟨h.append hconfig hledgers hidle (fun k' hk => open?_setSite hsite _ hk) rfl rfl rfl ?_,
    ?_⟩
  · exact .running rfl (site?_setSite hsite _) (Life.runs_first k hout)
  · rw [show (Outcome.map (e.setSite k) (s.step now op).value).handed = none from hhanded,
      List.flatMap_append]
    exact .refl _

/-- A step of an idle strand. -/
theorem keeps_idle (h : e.Tells capacity ls) {k : Nat} {s : Site}
    (hsite : e.site? k = some s) (hactive : s.strand.active = none) (op : StrandOp) :
    Keeps capacity e now (.strand k op) ls := by
  cases hop : op.opens? with
  | none => exact keeps_idle_still h hsite hactive hop
  | some kind => exact keeps_idle_opens h hsite hactive hop

theorem keeps_strand (h : e.Tells capacity ls) (k : Nat) (op : StrandOp) :
    Keeps capacity e now (.strand k op) ls := by
  cases hsite : e.site? k with
  | none =>
    have hvalue : (e.step now (.strand k op)).value = .of .missing e := by
      simp only [step, hsite, Logged.pure_value]
    have hidle : e.open? k = none := by rw [open?_eq, hsite, Option.bind_none]
    have hbegun : e.begun now (.strand k op) = none := by
      simp only [begun, hvalue, Outcome.of, hidle]
    exact h.still (fun l hl => live_of_ne (h.stage_ne hidle hl)) hbegun hvalue rfl rfl rfl
      fun _ => rfl
  | some s =>
    cases hactive : s.strand.active with
    | none => exact keeps_idle h hsite hactive op
    | some o => exact keeps_running h hsite hactive op

theorem afterHandle_of_not_mem {a : AsyncHandle} (h : a ∉ l.handles) (op : HandleOp)
    (due : Option Segment) : l.afterHandle a op due = l := by
  unfold Life.afterHandle
  split
  · rw [if_neg h]
  · rfl

/-- A handle belongs to no life but that of its ledger. -/
theorem not_mem_handles (hlinked : l.Linked) {n : Nat} (hn : l.ledger? ≠ some n) (id : Nat) :
    AsyncHandle.span n id ∉ l.handles := by
  intro hmem
  obtain ⟨n', id', heq, hn'⟩ := hlinked.handles _ hmem
  obtain ⟨rfl, rfl⟩ := AsyncHandle.span.inj heq
  exact hn hn'

theorem keeps_handle_idle (h : e.Tells capacity ls) (op : HandleOp) :
    Keeps capacity e now (.handle .idle op) ls := by
  refine h.still (fun l hl => afterHandle_of_not_mem (fun hmem => ?_) op _) rfl rfl rfl rfl rfl
    fun _ => rfl
  obtain ⟨n, id, heq, -⟩ := (h.grounded l hl).linked.handles _ hmem
  contradiction

theorem step_handle (e : Engine) (now : UInt64) (n id : Nat) (op : HandleOp) :
    let after := ((e.tracer.ledger n).handle id now op).value
    (e.step now (.handle (.span n id) op)).value =
      ⟨.done, after.1,
        { e with tracer := ((e.tracer.setLedger n after.2).reportDue after.1).value }⟩ := by
  simp only [step, Tracer.handle, Logged.bind_value, Logged.pure_value]

theorem live_handle_span (e : Engine) (now : UInt64) (n id : Nat) (op : HandleOp) (l : Life) :
    e.live now (.handle (.span n id) op) l =
      l.afterHandle (.span n id) op ((e.tracer.ledger n).handle id now op).value.1 := by
  rw [live_handle, step_handle]

theorem spares_reportDue (t : Tracer) (n : Nat) (led : Ledger) (due : Option Segment) :
    t.Spares (some n) ((t.setLedger n led).reportDue due).value := by
  obtain ⟨hconfig, hledgers⟩ := (t.setLedger n led).reportDue_value due
  exact (t.spares_setLedger n led).trans (Tracer.spares_of_ledgers_eq hconfig hledgers _)

/-- What a handle operation does to the life whose ledger the handle names. -/
theorem Tells.status_handle (h : e.Tells capacity ls) (hl : l ∈ ls) {n : Nat}
    (hn : l.ledger? = some n) (id : Nat) (now : UInt64) (op : HandleOp) :
    let after := ((e.tracer.ledger n).handle id now op).value
    (l.afterHandle (.span n id) op after.1).Status capacity
        { e with tracer := ((e.tracer.setLedger n after.2).reportDue after.1).value } ∧
      (l.afterHandle (.span n id) op after.1).reports = l.reports ++ after.1.toList := by
  have hlinked := (h.grounded l hl).linked
  have hlt := (h.grounded l hl).bound n hn
  intro after
  cases h.status l hl with
  | running hstage hsite hruns =>
    next k s x =>
    have htracer := tracer_of_site? hsite
    obtain ⟨hnone, hruns'⟩ := hruns.handled hlinked hn (by rw [htracer]; exact hlt) id now op
    rw [htracer] at hnone hruns'
    rw [show after.1 = none from hnone, Life.reports_afterHandle_none]
    refine ⟨.running ((l.stage_afterHandle _ _ _).trans hstage) ?_ hruns',
      (List.append_nil _).symm⟩
    exact congrArg (Option.map (Site.mk (e.tracer.setLedger n after.2))) (strand?_of_site? hsite)
  | resting hrests =>
    obtain ⟨hrests', hdue⟩ := hrests.handled hlinked hn hlt id now op
    obtain ⟨-, hledgers⟩ := (e.tracer.setLedger n after.2).reportDue_value after.1
    refine ⟨.resting (hrests'.frame (Tracer.ledgerOf_congr hledgers _)), ?_⟩
    cases hhanded : after.1 with
    | none => rw [Life.reports_afterHandle_none, Option.toList_none, List.append_nil]
    | some g =>
      rw [show ((e.tracer.ledger n).handle id now op).value.1 = some g from hhanded] at hdue
      obtain ⟨time, rfl, hmem⟩ := hdue rfl
      rw [Life.afterHandle_of_finish l _ _ hmem, Life.report, Life.reports_afterHandle_none]

/-- An operation of a handle whose ledger is that of a life. -/
theorem keeps_handle_of_mem (h : e.Tells capacity ls) (hl : l ∈ ls) {n : Nat}
    (hn : l.ledger? = some n) (id : Nat) (op : HandleOp) :
    Keeps capacity e now (.handle (.span n id) op) ls := by
  have hgrounded := h.grounded l hl
  obtain ⟨hstatus, hreports⟩ := h.status_handle hl hn id now op
  obtain ⟨ls₁, ls₂, rfl, hapart⟩ := h.split hl
  have hothers : ∀ a ∈ ls₁ ++ ls₂, e.live now (.handle (.span n id) op) a = a := by
    intro a ha
    have ha' : a ∈ ls₁ ++ l :: ls₂ := by
      simp only [List.mem_append, List.mem_cons] at ha ⊢
      tauto
    -- lives do not share ledgers, so no other life has the handle
    have hother := not_mem_handles (h.grounded a ha').linked ((hapart a ha).ledger n hn) id
    exact afterHandle_of_not_mem hother op _
  unfold Keeps
  rw [chronicle_of_one rfl hothers, live_handle_span, step_handle]
  refine ⟨h.replace ?_ (fun _ _ => rfl) ?_ ?_ hstatus, reports_of_one hreports⟩
  · exact Life.moves_of_ledger?_eq hgrounded (hgrounded.linked.afterHandle _ _ _)
      (l.ledger?_afterHandle _ _ _) (hn ▸ spares_reportDue _ n _ _)
  · intro k hk
    rwa [Life.stage_afterHandle] at hk
  · intro k o hk _
    rwa [Life.stage_afterHandle]

/-- An operation of a handle whose ledger is in no life: nothing is parked there, so
    nothing is handed over. -/
theorem keeps_handle_of_not_mem (h : e.Tells capacity ls) {n : Nat}
    (hn : ∀ l ∈ ls, l.ledger? ≠ some n) (id : Nat) (op : HandleOp) :
    Keeps capacity e now (.handle (.span n id) op) ls := by
  obtain ⟨hnone, hparked⟩ := Ledger.handle_of_not_parked (h.quiet n hn) id now op
  have hsame : ∀ l ∈ ls, e.live now (.handle (.span n id) op) l = l := fun l hl =>
    afterHandle_of_not_mem (not_mem_handles (h.grounded l hl).linked (hn l hl) id) op _
  unfold Keeps
  rw [chronicle_of_still rfl hsame, step_handle]
  generalize ((e.tracer.ledger n).handle id now op).value = after at hnone hparked ⊢
  have hspares := spares_reportDue e.tracer n after.2 after.1
  refine ⟨h.frame hspares.config hspares.length (fun _ => rfl) ?_ ?_, reports_of_none hnone⟩
  · intro l hl
    cases hm : l.ledger? with
    | none => rfl
    | some m => exact hspares.ledger m fun hnm => hn l hl (hm.trans hnm.symm)
  · intro m hm
    by_cases hnm : n = m
    · subst hnm
      rw [Tracer.ledger, ((e.tracer.setLedger n after.2).reportDue_value after.1).2]
      by_cases hlt : n < e.tracer.ledgers.length
      · exact (congrArg Ledger.parked (Tracer.ledger_setLedger_self hlt _)).trans hparked
      · -- the ledger is not there, and storing it has no effect
        have hge : (e.tracer.setLedger n after.2).ledgers.length ≤ n := by
          rw [Tracer.setLedger, List.length_set]
          exact Nat.le_of_not_lt hlt
        exact congrArg Ledger.parked (Tracer.ledger_eq_empty hge)
    · rw [hspares.ledger m fun heq => hnm (Option.some.inj heq)]
      exact h.quiet m hm

theorem keeps_handle (h : e.Tells capacity ls) (n id : Nat) (op : HandleOp) :
    Keeps capacity e now (.handle (.span n id) op) ls := by
  by_cases howned : ∃ l ∈ ls, l.ledger? = some n
  · obtain ⟨l, hl, hn⟩ := howned
    exact keeps_handle_of_mem h hl hn id op
  · exact keeps_handle_of_not_mem h (fun l hl hn => howned ⟨l, hl, hn⟩) id op

/-- **Every step** keeps the lives true, and what it hands over is in their reports. -/
theorem Tells.step (h : e.Tells capacity ls) (now : UInt64) (op : Op) :
    Keeps capacity e now op ls := by
  cases op with
  | openStrand => exact keeps_openStrand h
  | closeStrand k => exact keeps_closeStrand h k
  | strand k op => exact keeps_strand h k op
  | handle a op =>
    cases a with
    | idle => exact keeps_handle_idle h op
    | span n id => exact keeps_handle h n id op
  | setSuffixes value => exact keeps_setSuffixes h value
  | setRate value => exact h.still (fun _ _ => rfl) rfl rfl rfl rfl rfl fun _ => rfl
  | receive => exact h.still (fun _ _ => rfl) rfl rfl rfl rfl rfl fun _ => rfl
  | closeReceiver => exact h.still (fun _ _ => rfl) rfl rfl rfl rfl rfl fun _ => rfl

/-! ### Runs -/

/-- No lives tell what an engine without strands holds. -/
theorem tells_start (config : Config) (reporter : Reporter) (process : String) (start : UInt64) :
    (ofTracer (.start config reporter process start)).Tells config.capacity [] where
  room := rfl
  grounded := fun l hl => by contradiction
  status := fun l hl => by contradiction
  apart := .nil
  told := fun k o ho => by contradiction
  quiet := fun n _ => by
    rw [Tracer.ledger_eq_empty]
    exact Nat.zero_le n

/-- **Every run** keeps the lives true, and what it hands over is in their reports. -/
theorem Tells.run (h : e.Tells capacity ls) (ops : List (UInt64 × Op)) :
    (e.run ops).Tells capacity (e.livesFrom ls ops) ∧
    ((e.livesFrom ls ops).flatMap Life.reports).Perm
      (ls.flatMap Life.reports ++ e.handed ops) := by
  -- by induction on the run, with what the lives tell as the invariant
  induction ops generalizing e ls with
  | nil =>
    refine ⟨h, ?_⟩
    rw [handed, List.append_nil]
    exact .refl _
  | cons timed ops ih =>
    obtain ⟨now, op⟩ := timed
    obtain ⟨hnext, hreports⟩ := h.step now op
    obtain ⟨hrun, hreports'⟩ := ih hnext
    refine ⟨hrun, hreports'.trans ?_⟩
    rw [handed, ← List.append_assoc]
    exact hreports.append_right _

end Engine

/-- A report of a life is the one that it tells of. -/
theorem Life.Status.of_mem_reports {capacity : Nat} {e : Engine} {l : Life}
    (h : l.Status capacity e) {g : Segment} (hg : g ∈ l.reports) :
    l.IsDue ∧ l.reports = [g] ∧ g.id = l.segment ∧
      (1 ≤ capacity → g.IsTree capacity l.openings) := by
  cases h with
  | running hstage hsite hruns =>
    rw [hruns.reports] at hg
    contradiction
  | resting hrests =>
    cases hrests with
    | waiting hstage hledger hpending hbegun hreports =>
      rw [hreports] at hg
      contradiction
    | gone hstage hreports =>
      rw [hreports] at hg
      contradiction
    | reported hdue hreports hid htree =>
      rw [hreports] at hg
      obtain rfl := List.mem_singleton.mp hg
      exact ⟨hdue, hreports, hid, htree⟩

/-- A life is reported once if it is due, and else not at all. -/
theorem Life.Status.length_reports {capacity : Nat} {e : Engine} {l : Life}
    (h : l.Status capacity e) : l.reports.length = if l.IsDue then 1 else 0 := by
  cases h with
  | running hstage hsite hruns =>
    rw [hruns.reports, if_neg]
    · rfl
    · intro hdue
      rw [hdue.1] at hstage
      contradiction
  | resting hrests =>
    cases hrests with
    | waiting hstage hledger hpending hbegun hreports =>
      rw [hreports, if_neg fun hdue => hpending hdue.2]
      rfl
    | gone hstage hreports =>
      rw [hreports, if_neg]
      · rfl
      · intro hdue
        rw [hdue.1] at hstage
        rcases hstage with hemptied | hlost
        · contradiction
        · contradiction
    | reported hdue hreports =>
      rw [hreports, if_pos hdue]
      rfl

theorem Life.Status.reports_eq_nil {capacity : Nat} {e : Engine} {l : Life}
    (h : l.Status capacity e) (hnot : ¬ l.IsDue) : l.reports = [] := by
  rw [← List.length_eq_zero_iff, h.length_reports, if_neg hnot]

end TraceLink
