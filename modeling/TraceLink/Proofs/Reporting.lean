import TraceLink.Proofs.Chronicle

/-! # When segments are reported

    A segment is reported once its last span was stopped while it was sampled and
    all handles prepared in it have finished: inside the operation that makes this
    so, and never again. A segment that can no longer come to this is *forsaken*,
    and is never reported. -/

namespace TraceLink

/-! ### Lives along a run -/

namespace Engine

variable {capacity : Nat} {e : Engine} {ls : List Life} {l : Life}

/-- The replies of a run, in order. -/
def replies (e : Engine) : List (UInt64 × Op) → List Reply
  | [] => []
  | (now, op) :: ops =>
    let o := (e.step now op).value
    o.reply :: o.state.replies ops

theorem run_append (e : Engine) (ops more : List (UInt64 × Op)) :
    e.run (ops ++ more) = (e.run ops).run more := by
  induction ops generalizing e with
  | nil => rfl
  | cons timed ops ih =>
    rw [List.cons_append, run, run]
    exact ih _

theorem livesFrom_append (e : Engine) (ls : List Life) (ops more : List (UInt64 × Op)) :
    e.livesFrom ls (ops ++ more) = (e.run ops).livesFrom (e.livesFrom ls ops) more := by
  induction ops generalizing e ls with
  | nil => rfl
  | cons timed ops ih => exact ih _ _

/-- A life keeps its place. -/
theorem getElem?_chronicle {i : Nat} (h : ls[i]? = some l) (now : UInt64) (op : Op) :
    (e.chronicle now op ls)[i]? = some (e.live now op l) := by
  obtain ⟨hi, -⟩ := List.getElem?_eq_some_iff.mp h
  rw [chronicle, List.getElem?_map, List.getElem?_append_left hi, h, Option.map_some]

/-! ### Reports -/

theorem reports_live (e : Engine) (now : UInt64) (op : Op) (l : Life) :
    (e.live now op l).reports = l.reports ∨
    (e.live now op l).reports = l.reports ++ (e.step now op).value.handed.toList := by
  cases op with
  | strand k op =>
    rw [live_strand]
    split
    · right
      rw [Life.report, reports_afterStrandOp]
    · exact .inl rfl
  | handle a op =>
    rw [live_handle]
    by_cases ha : a ∈ l.handles
    -- only the end of a handle adds a report
    · cases op with
      | finish time =>
        right
        rw [Life.afterHandle_of_finish l a _ ha, Life.report, Life.reports_afterHandle_none]
      | _ => exact .inl rfl
    · rw [afterHandle_of_not_mem ha]
      exact .inl rfl
  | closeStrand k =>
    rw [live_closeStrand]
    split
    · exact .inl rfl
    · exact .inl rfl
  | _ => exact .inl rfl

theorem reports_begun {now : UInt64} {op : Op} (h : e.begun now op = some l) :
    l.reports = [] ∧ ¬ l.IsDue := by
  unfold begun at h
  split at h
  · split at h
    · obtain rfl := Option.some.inj h
      exact ⟨rfl, fun hdue => absurd hdue.1 (by simp)⟩
    · contradiction
  · contradiction

/-- A life before the step that is not due yet has no report, and neither has one that
    begins. -/
theorem Tells.reports_before (h : e.Tells capacity ls) {now : UInt64} {op : Op} {i : Nat}
    (hl : (ls ++ (e.begun now op).toList)[i]? = some l)
    (hnot : ∀ l' : Life, ls[i]? = some l' → ¬ l'.IsDue) : l.reports = [] := by
  rw [List.getElem?_append] at hl
  split at hl
  · exact (h.status l (List.mem_of_getElem? hl)).reports_eq_nil (hnot l hl)
  · exact (reports_begun (Option.mem_toList.mp (List.mem_of_getElem? hl))).1

/-- What is handed over is added to the reports of a life. -/
theorem Tells.exists_reports (h : e.Tells capacity ls) {now : UInt64} {op : Op} {g : Segment}
    (hhanded : (e.step now op).value.handed = some g) :
    ∃ l ∈ ls ++ (e.begun now op).toList, (e.live now op l).reports = l.reports ++ [g] := by
  obtain ⟨-, hreports⟩ := h.step now op
  by_contra hnone
  have hsame : ∀ l ∈ ls ++ (e.begun now op).toList,
      (e.live now op l).reports = l.reports := by
    intro l hl
    rcases reports_live e now op l with hsame | hmore
    · exact hsame
    · rw [hhanded] at hmore
      exact absurd ⟨l, hl, hmore⟩ hnone
  have hbegun : (e.begun now op).toList.flatMap Life.reports = [] := by
    rw [List.flatMap_eq_nil_iff]
    exact fun l hl => (reports_begun (Option.mem_toList.mp hl)).1
  -- then all lives together report as much as before, although a segment was handed over
  have hall : (e.chronicle now op ls).flatMap Life.reports = ls.flatMap Life.reports := by
    rw [chronicle, List.flatMap_map, List.flatMap_congr hsame, List.flatMap_append, hbegun,
      List.append_nil]
  have hlength := hreports.length_eq
  rw [hall, hhanded, List.length_append] at hlength
  simp at hlength

/-- What is handed over is the report of the life that becomes due by the step. -/
theorem Tells.handed_iff (h : e.Tells capacity ls) (now : UInt64) (op : Op) (g : Segment) :
    (e.step now op).value.handed = some g ↔
      ∃ (i : Nat) (l' : Life), (e.chronicle now op ls)[i]? = some l' ∧ l'.IsDue ∧
        l'.reports = [g] ∧ ∀ l : Life, ls[i]? = some l → ¬ l.IsDue := by
  constructor
  · intro hhanded
    obtain ⟨b, hb, hreported⟩ := h.exists_reports hhanded
    have hstatus := (h.step now op).1.status _ (List.mem_map_of_mem hb)
    obtain ⟨hdue, honce, -, -⟩ := hstatus.of_mem_reports (g := g)
      (by rw [hreported]; exact List.mem_append_right _ (List.mem_singleton_self g))
    obtain ⟨i, hi⟩ := List.mem_iff_getElem?.mp hb
    refine ⟨i, e.live now op b, by rw [chronicle, List.getElem?_map, hi, Option.map_some], hdue,
      honce, fun l hl => ?_⟩
    have hbl : b = l := by
      obtain ⟨hlt, -⟩ := List.getElem?_eq_some_iff.mp hl
      rw [List.getElem?_append_left hlt, hl] at hi
      exact (Option.some.inj hi).symm
    subst hbl
    -- the report is the only one after the step, so there was none before
    have hlength := (h.status b (List.mem_of_getElem? hl)).length_reports
    rw [hreported] at honce
    rw [show b.reports = [] by simpa using honce] at hlength
    intro hbdue
    rw [if_pos hbdue] at hlength
    contradiction
  · rintro ⟨i, l', hl', hdue, hreported, hnot⟩
    rw [chronicle, List.getElem?_map, Option.map_eq_some_iff] at hl'
    obtain ⟨b, hb, rfl⟩ := hl'
    have hnone := h.reports_before hb hnot
    rcases reports_live e now op b with hsame | hmore
    · rw [hsame, hnone] at hreported
      contradiction
    · rw [hmore, hnone, List.nil_append] at hreported
      exact Option.toList_eq_singleton_iff.mp hreported

/-- Only the stop of a span and the end of a handle hand a segment over. -/
theorem op_of_handed {now : UInt64} {op : Op} {g : Segment}
    (h : (e.step now op).value.handed = some g) :
    (∃ k expected, op = .strand k (.stop expected)) ∨ ∃ a time, op = .handle a (.finish time) := by
  cases op with
  | strand k op =>
    left
    cases hsite : e.site? k with
    | none =>
      simp only [step, hsite, Logged.pure_value] at h
      contradiction
    -- of the effects of a step, only the end of a segment hands something over
    | some s =>
      rw [step_strand hsite] at h
      have heffect := s.effect_of_step now op
      revert h
      generalize (s.step now op).value = outcome at heffect
      intro h
      cases heffect with
      | ended => exact ⟨k, _, rfl⟩
      | _ => contradiction
  | handle a op =>
    right
    cases op with
    | finish time => exact ⟨a, time, rfl⟩
    | _ =>
      cases a with
      | idle => contradiction
      | span n id => contradiction
  | setSuffixes value =>
    obtain ⟨reply, suffixes, hvalue⟩ := e.setSuffixes_value now value
    rw [hvalue] at h
    contradiction
  | _ => contradiction

end Engine

/-! ### Forsaken lives -/

/-- **Forsaken**: the segment is not reported any more in a run that goes on with
    `more`. -/
inductive Life.Forsaken (e : Engine) (more : List (UInt64 × Op)) (l : Life) : Prop where
  /-- Its strand went away while spans were open. -/
  | lost (hstage : l.stage = .lost)
  /-- It was not sampled when its last span was stopped. -/
  | ignored (hstage : l.stage = .emptied false)
  /-- It is open and not sampled any more, whatever was prepared before. -/
  | forced {k : Nat} {o : OpenSegment} (hstage : l.stage = .running k)
      (hopen : e.open? k = some o) (hignored : o.sampled = false)
  /-- One of its handles does not finish. -/
  | unfinished {a : AsyncHandle} (hprepared : a ∈ l.handles) (hunfinished : a ∉ l.finished)
      (hnever : ∀ timed ∈ more, ∀ time, timed.2 ≠ .handle a (.finish time))

theorem Life.Forsaken.not_isDue {e : Engine} {more : List (UInt64 × Op)} {l : Life}
    (h : l.Forsaken e more) : ¬ l.IsDue := by
  intro hdue
  cases h with
  | lost hstage => exact absurd (hdue.1.symm.trans hstage) (by simp)
  | ignored hstage => exact absurd (hdue.1.symm.trans hstage) (by simp)
  | forced hstage => exact absurd (hdue.1.symm.trans hstage) (by simp)
  | unfinished hprepared hunfinished => exact hunfinished (hdue.2 _ hprepared)

namespace Engine

variable {capacity : Nat} {e : Engine} {ls : List Life} {l : Life}

/-- Only its own strand moves a segment to another stage. -/
theorem stage_live (now : UInt64) {op : Op}
    (hstrand : ∀ k sop, op = .strand k sop → l.stage ≠ .running k)
    (hclose : ∀ k, op = .closeStrand k → l.stage ≠ .running k) :
    (e.live now op l).stage = l.stage := by
  cases op with
  | strand k sop => rw [live_of_ne (hstrand k sop rfl)]
  | closeStrand k => rw [live_closeStrand, if_neg (hclose k rfl)]
  | handle a op => rw [live_handle, Life.stage_afterHandle]
  | _ => rfl

theorem stage_live_of_ended (now : UInt64) (op : Op) (h : ∀ k, l.stage ≠ .running k) :
    (e.live now op l).stage = l.stage :=
  stage_live now (fun k _ _ => h k) fun k _ => h k

theorem mem_handles_live (now : UInt64) (op : Op) {a : AsyncHandle} (h : a ∈ l.handles) :
    a ∈ (e.live now op l).handles := by
  cases op with
  | strand k op =>
    rw [live_strand]
    split
    · unfold Life.afterStrandOp
      split
      · exact h
      · exact List.mem_append_left _ h
      · split
        · exact h
        · exact h
    · exact h
  | closeStrand k =>
    rw [live_closeStrand]
    split
    · exact h
    · exact h
  | handle b op =>
    rw [live_handle, Life.handles_afterHandle]
    exact h
  | _ => exact h

theorem mem_finished_of_live {now : UInt64} {op : Op} {a : AsyncHandle}
    (h : a ∈ (e.live now op l).finished) :
    a ∈ l.finished ∨ ∃ time, op = .handle a (.finish time) := by
  cases op with
  | strand k op =>
    left
    rw [live_strand] at h
    split at h
    · unfold Life.afterStrandOp at h
      split at h
      · exact h
      · exact h
      · split at h
        · exact h
        · exact h
    · exact h
  | closeStrand k =>
    left
    rw [live_closeStrand] at h
    split at h
    · exact h
    · exact h
  | handle b op =>
    rw [live_handle] at h
    cases op with
    | finish time =>
      simp only [Life.afterHandle] at h
      split at h
      · rcases List.mem_append.mp h with hold | hnew
        · exact .inl hold
        · exact .inr ⟨time, by rw [List.mem_singleton.mp hnew]⟩
      · exact .inl h
    | _ => exact .inl h
  | _ => exact .inl h

/-- Only its own operations change the open segment of a strand. -/
theorem open?_step (e : Engine) (now : UInt64) {op : Op} {k : Nat}
    (hstrand : ∀ sop, op ≠ .strand k sop) (hclose : op ≠ .closeStrand k) :
    (e.step now op).value.state.open? k = e.open? k := by
  cases op with
  | openStrand => exact open?_openStrand e k
  | strand k' sop =>
    have hk : k' ≠ k := fun hk => hstrand sop (hk ▸ rfl)
    cases hsite : e.site? k' with
    | none =>
      simp only [step, hsite, Logged.pure_value]
      rfl
    | some s =>
      rw [step_strand hsite]
      exact open?_setSite hsite _ hk
  | closeStrand k' =>
    have hk : k' ≠ k := fun hk => hclose (hk ▸ rfl)
    cases hsite : e.site? k' with
    | none =>
      simp only [step, closeStrand, hsite, Logged.bind_value, Logged.pure_value]
      rfl
    | some s =>
      simp only [step, closeStrand, hsite, Logged.bind_value, Logged.pure_value]
      exact (open?_left hsite k).trans (if_neg hk)
  | setSuffixes value =>
    obtain ⟨reply, suffixes, hvalue⟩ := e.setSuffixes_value now value
    rw [hvalue]
    rfl
  | _ => rfl

/-- While the segment of a strand is not sampled, it stays so, or it ends ignored, or
    its strand goes away. -/
theorem Tells.forced_step (h : e.Tells capacity ls) (hl : l ∈ ls) {k : Nat} {o : OpenSegment}
    (hstage : l.stage = .running k) (hopen : e.open? k = some o) (hignored : o.sampled = false)
    (now : UInt64) (op : Op) (more : List (UInt64 × Op)) :
    (e.live now op l).Forsaken (e.step now op).value.state more := by
  by_cases hown : ∃ sop, op = .strand k sop
  -- the step of its own strand may end the segment, but does not sample it again
  · obtain ⟨sop, rfl⟩ := hown
    obtain ⟨s, hsite, hactive⟩ := site?_of_open? hopen
    obtain ⟨x, hruns, -⟩ := h.runs hl hstage hsite
    have hx : x.sampled = false := hruns.outline_eq hactive ▸ hignored
    obtain ⟨-, hafter⟩ := h.step_running hl hsite hstage hruns now sop
    rcases hafter with ⟨hsame, s', x', hsite', hruns', hsampled⟩ | ⟨hemptied, -, -⟩
    · obtain ⟨o', hactive', hout⟩ := Option.map_eq_some_iff.mp hruns'.outline
      refine .forced (hsame.trans hstage) ((open?_of_site? hsite').trans hactive') ?_
      rw [← Bool.not_eq_true]
      intro hs
      rw [← hout] at hsampled
      rw [hsampled hs] at hx
      contradiction
    · exact .ignored (hx ▸ hemptied)
  · by_cases hclose : op = .closeStrand k
    · subst hclose
      exact .lost (by rw [live_closeStrand, if_pos hstage])
    · refine .forced ?_
        ((open?_step e now (fun sop hop => hown ⟨sop, hop⟩) hclose).trans hopen) hignored
      refine (stage_live now ?_ ?_).trans hstage
      · intro k' sop hop hk
        obtain rfl := Stage.running.inj (hstage.symm.trans hk)
        exact hown ⟨sop, hop⟩
      · intro k' hop hk
        obtain rfl := Stage.running.inj (hstage.symm.trans hk)
        exact hclose hop

/-- A forsaken life stays forsaken. -/
theorem Tells.forsaken_step (h : e.Tells capacity ls) (hl : l ∈ ls) {now : UInt64} {op : Op}
    {more : List (UInt64 × Op)} (hforsaken : l.Forsaken e ((now, op) :: more)) :
    (e.live now op l).Forsaken (e.step now op).value.state more := by
  cases hforsaken with
  | lost hstage =>
    refine .lost ((stage_live_of_ended now op fun k hk => ?_).trans hstage)
    rw [hstage] at hk
    contradiction
  | ignored hstage =>
    refine .ignored ((stage_live_of_ended now op fun k hk => ?_).trans hstage)
    rw [hstage] at hk
    contradiction
  | forced hstage hopen hignored => exact h.forced_step hl hstage hopen hignored now op more
  | unfinished hprepared hunfinished hnever =>
    refine .unfinished (mem_handles_live now op hprepared) (fun hfinished => ?_)
      fun timed htimed => hnever timed (List.mem_cons_of_mem _ htimed)
    rcases mem_finished_of_live hfinished with hold | ⟨time, hop⟩
    · exact hunfinished hold
    · exact hnever _ List.mem_cons_self time hop

/-- A forsaken life is not reported, however the run goes on. -/
theorem Tells.forsaken_run (h : e.Tells capacity ls) {i : Nat} (hl : ls[i]? = some l)
    {more : List (UInt64 × Op)} (hforsaken : l.Forsaken e more) :
    ∃ l' : Life, (e.livesFrom ls more)[i]? = some l' ∧ l'.reports = [] := by
  -- the life keeps its place and stays forsaken, and at the end it is not due
  induction more generalizing e ls l with
  | nil =>
    refine ⟨l, hl, ?_⟩
    exact (h.status l (List.mem_of_getElem? hl)).reports_eq_nil hforsaken.not_isDue
  | cons timed more ih =>
    obtain ⟨now, op⟩ := timed
    exact ih (h.step now op).1 (getElem?_chronicle hl now op)
      (h.forsaken_step (List.mem_of_getElem? hl) hforsaken)

/-! ### Reporting -/

/-- **Reporting**: what is handed over in a run is what the lives report. Each life
    reports once if it is due and else not at all; the report happens inside the
    operation by which it becomes due, which is the stop of a span or the end of a
    handle; and a forsaken life never reports. -/
theorem reported_when_due (config : Config) (reporter : Reporter) (process : String)
    (start : UInt64) (ops : List (UInt64 × Op)) :
    let e := ofTracer (.start config reporter process start)
    ((e.lives ops).flatMap Life.reports).Perm (e.handed ops) ∧
    (∀ l ∈ e.lives ops, l.reports.length = if l.IsDue then 1 else 0) ∧
    (∀ (now : UInt64) (op : Op) (g : Segment),
      ((e.run ops).step now op).value.handed = some g ↔
        ∃ (i : Nat) (l' : Life), (e.lives (ops ++ [(now, op)]))[i]? = some l' ∧ l'.IsDue ∧
          l'.reports = [g] ∧ ∀ l : Life, (e.lives ops)[i]? = some l → ¬ l.IsDue) ∧
    (∀ (now : UInt64) (op : Op) (g : Segment),
      ((e.run ops).step now op).value.handed = some g →
        (∃ k expected, op = .strand k (.stop expected)) ∨
          ∃ a time, op = .handle a (.finish time)) ∧
    (∀ (i : Nat) (l : Life) (more : List (UInt64 × Op)), (e.lives ops)[i]? = some l →
      l.Forsaken (e.run ops) more →
        ∃ l' : Life, (e.lives (ops ++ more))[i]? = some l' ∧ l'.reports = []) := by
  intro e
  obtain ⟨htells, hreports⟩ := (tells_start config reporter process start).run ops
  refine ⟨hreports, ?_, ?_, ?_, ?_⟩
  · exact fun l hl => (htells.status l hl).length_reports
  · intro now op g
    rw [lives, livesFrom_append]
    exact htells.handed_iff now op g
  · exact fun now op g hhanded => op_of_handed hhanded
  · intro i l more hl hforsaken
    rw [lives, livesFrom_append]
    exact htells.forsaken_run hl hforsaken

/-- A segment that waits for a handle. -/
def waitingRun : List (UInt64 × Op) :=
  [(0, .openStrand), (1, .strand 0 (.inner "a")), (2, .strand 0 .prepareAsync),
    (3, .strand 0 (.stop none))]

/-- Its life. -/
def waitingLife : Life where
  segment := "p.0.10000"
  stage := .emptied true
  openings := [⟨1, .inner, none⟩]
  handles := [.span 0 0]

theorem reported_when_due_waiting :
    let e := ofTracer (.start (Config.standard "i") .collecting "p" 0)
    let more : List (UInt64 × Op) := [(4, .strand 0 (.inner "b"))]
    (e.lives waitingRun)[0]? = some waitingLife ∧
    waitingLife.Forsaken (e.run waitingRun) more ∧
    (∃ l' : Life, (e.lives (waitingRun ++ more))[0]? = some l' ∧ l'.reports = []) ∧
    (e.handed (waitingRun ++ [(5, .handle (.span 0 0) (.finish none))])).length = 1 := by
  intro e more
  have hlife : (e.lives waitingRun)[0]? = some waitingLife := by decide +kernel
  have hforsaken : waitingLife.Forsaken (e.run waitingRun) more := by
    refine .unfinished (a := .span 0 0) (by decide) (by decide) ?_
    intro timed htimed time
    rw [List.mem_singleton.mp htimed]
    simp
  exact ⟨hlife, hforsaken,
    (reported_when_due _ _ _ _ waitingRun).2.2.2.2 0 waitingLife more hlife hforsaken,
    by decide +kernel⟩

end Engine

end TraceLink
