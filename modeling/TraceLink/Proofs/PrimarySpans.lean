import TraceLink.Proofs.Bearings
import TraceLink.Proofs.Reporting

/-! # Primary spans

    The primary span of a segment is the first entry span that was recorded in it, or
    the first span of all while there is no entry span. The segment keeps its id only.

    The id is decided when a span is recorded, and nothing else changes it. So the
    spans that were opened, in their order, tell what it is. -/

namespace TraceLink

open OpenSegment (promote)

/-! ### The primary one of a list of spans -/

/-- The id of the primary one among spans that were recorded in this order. -/
def primaryId (recorded : List Opening) : Nat := (recorded.findIdx? (·.kind = .entry)).getD 0

theorem primaryId_lt {recorded : List Opening} (h : recorded ≠ []) :
    primaryId recorded < recorded.length := by
  unfold primaryId
  cases hfound : recorded.findIdx? (·.kind = .entry) with
  | none => exact List.length_pos_of_ne_nil h
  | some i =>
    obtain ⟨hi, -⟩ := List.findIdx?_eq_some_iff_findIdx_eq.mp hfound
    exact hi

/-- What a segment keeps about its primary span. -/
def Primary.of? (recorded : List Opening) : Option Primary :=
  if recorded = [] then none
  else some ⟨primaryId recorded, recorded.any (·.kind = .entry)⟩

/-- A span that is recorded later is primary if it is the first one of all, or the first
    entry span. -/
theorem Primary.of?_append (recorded : List Opening) {o : Opening} {s : Span}
    (hid : s.id = recorded.length) (hkind : s.kind = o.kind) :
    Primary.of? (recorded ++ [o]) = some (promote (Primary.of? recorded) s) := by
  have hcons : recorded ++ [o] ≠ [] := by simp
  unfold of?
  rw [if_neg hcons]
  by_cases hnil : recorded = []
  · subst hnil
    have hone : primaryId ([] ++ [o]) = 0 := by
      unfold primaryId
      by_cases hentry : o.kind = .entry <;> simp [hentry]
    rw [hone, if_pos rfl, promote, hid, hkind]
    simp
  · rw [if_neg hnil]
    unfold promote primaryId
    rw [List.findIdx?_append, List.any_append]
    -- an entry span among those before stays the first one
    cases hany : recorded.any (·.kind = .entry) with
    | true =>
      have hsome : (recorded.findIdx? (·.kind = .entry)).isSome := by
        rw [List.findIdx?_isSome]
        exact hany
      obtain ⟨i, hi⟩ := Option.isSome_iff_exists.mp hsome
      simp [hi]
    | false =>
      have hnone : recorded.findIdx? (·.kind = .entry) = none := by
        rw [← Option.not_isSome_iff_eq_none, List.findIdx?_isSome, hany]
        exact Bool.false_ne_true
      by_cases hentry : o.kind = .entry
      · simp [hnone, hentry, hkind, hid]
      · simp [hnone, hentry, hkind]

/-! ### The register of a segment -/

/-- **Register** of the recorded spans of a segment: how many there are, and which one
    is primary. -/
structure Register where
  count : Nat
  primary : Option Primary

/-- Nothing is recorded yet. -/
def Register.empty : Register := ⟨0, none⟩

/-- The register of an open segment. -/
def OpenSegment.register (o : OpenSegment) : Register := ⟨o.nextSpan, o.primary⟩

/-- **Entering** a span of the given kind into the register. -/
inductive Register.Enters (kind : SpanKind) (r : Register) : Register → Prop where
  | entered {s : Span} (hid : s.id = r.count) (hkind : s.kind = kind) :
      Enters kind r ⟨r.count + 1, some (promote r.primary s)⟩

/-- The register after an operation: a span is entered if one was recorded. -/
inductive Register.Follows (kind? : Option SpanKind) (o' : OpenSegment) (r : Register) :
    Prop where
  | still (hsame : o'.register = r)
  | entered {kind : SpanKind} (hopens : kind? = some kind) (hsampled : o'.sampled = true)
      (henters : r.Enters kind o'.register)

namespace OpenSegment

theorem register_skipIf (o : OpenSegment) (skip : Bool) :
    (o.skipIf skip).register = o.register := by
  cases skip <;> rfl

theorem register_link (o : OpenSegment) (ref : ParentRef) (refusal : Diagnostic) :
    (o.link ref refusal).value.register = o.register := by
  rw [link_value]
  rfl

theorem register_applyInbound (o : OpenSegment) (f : Frame) (c : RemoteContext) (now : UInt64) :
    (o.applyInbound f c now).value.2.register = o.register := by
  unfold applyInbound
  simp only [Logged.bind_value, Logged.pure_value, register_skipIf]
  exact o.register_link (remoteRef c) (.secondParent o.segment.id c.segment)

theorem register_continueFrom (o : OpenSegment) (c : Captured) :
    (o.continueFrom c).value.register = o.register := by
  unfold continueFrom
  simp only [Logged.bind_value, Logged.pure_value, register_skipIf]
  exact o.register_link (o.strandRef c) (.secondContinuation o.segment.id c.segment)

theorem register_putCorrelation (o : OpenSegment) (keys : List String) (key value : String) :
    (o.putCorrelation keys key value).value.2.register = o.register := by
  unfold putCorrelation
  simp only [Logged.bind_value]
  split
  · split
    · rfl
    · rfl
  · rfl

theorem register_start (t : Tracer) (ordinal now : UInt64) (name : String)
    (inherited : Inherited) (continuation : Option Snapshot) :
    (start t ordinal now name inherited continuation).value.1.register = .empty := by
  unfold start
  cases continuation with
  | none => rfl
  | some snapshot =>
    cases snapshot with
    | ignored id => rfl
    | sampled c =>
      simp only [Logged.bind_value, Logged.pure_value, register_continueFrom]
      rfl

theorem register_newFrame (o : OpenSegment) (limit : Nat) (kind : SpanKind) (name : String)
    (now : UInt64) : o.register.Follows (some kind) (o.newFrame limit kind name now).value.2 := by
  unfold newFrame
  split
  · exact .still rfl
  · next hsampled =>
    split
    · exact .still rfl
    · have hrecorded : o.sampled = true := by simpa using hsampled
      exact .entered rfl hrecorded (.entered (s := o.freshSpan kind name now) rfl rfl)

end OpenSegment

/-- Only the register and the decision count. -/
theorem Register.Follows.congr {kind? : Option SpanKind} {o o' : OpenSegment} {r : Register}
    (h : r.Follows kind? o) (hregister : o'.register = o.register)
    (hsampled : o'.sampled = o.sampled) : r.Follows kind? o' := by
  cases h with
  | still hsame => exact .still (hregister.trans hsame)
  | entered hopens hs henters =>
    exact .entered hopens (hsampled.trans hs) (hregister ▸ henters)

namespace OpenSegment

theorem register_openSpan (c : Config) (o : OpenSegment) (kind : SpanKind) (name : String)
    (now : UInt64) (inbound : Option RemoteContext) :
    o.register.Follows (some kind) (o.openSpan c kind name now inbound).value.2 := by
  have hnew := o.register_newFrame c.spanLimit kind name now
  unfold openSpan
  cases inbound with
  | none => exact hnew.congr rfl rfl
  | some r =>
    simp only [Logged.bind_value, Logged.pure_value]
    refine hnew.congr ?_ ?_
    · exact register_applyInbound (o.newFrame c.spanLimit kind name now).value.2 _ r now
    · exact congrArg Outline.sampled (outline_applyInbound _ _ r now).2

theorem register_openExit (c : Config) (o : OpenSegment) (name peer : String)
    (k : Option Carrier) (now : UInt64) :
    o.register.Follows (some .exit) (o.openExit c name peer k now).value.2.2 := by
  have hnew := o.register_newFrame c.spanLimit .exit name now
  unfold openExit
  cases k with
  | none => exact hnew.congr rfl rfl
  | some k => exact hnew.congr rfl rfl

end OpenSegment

namespace Site

variable {s s' : Site} {now : UInt64}

/-- The register at a site, empty while no segment is open. -/
def register (s : Site) : Register := (s.strand.active.map OpenSegment.register).getD .empty

theorem register_of_active {o : OpenSegment} (h : s.strand.active = some o) :
    s.register = o.register := by
  rw [register, h, Option.map_some, Option.getD_some]

/-- A touch enters nothing. -/
theorem register_touch (h : Touch now s s') : s'.register = s.register := by
  cases h with
  | pend snapshot hidle hvalid => rfl
  | discard => rfl
  | scratch x => rfl
  | ignore hactive =>
    rw [register_of_active hactive]
    rfl
  | continueFrom hactive hvalid hother =>
    rw [register_of_active hactive]
    exact OpenSegment.register_continueFrom _ _
  | receive hactive hread hstack happly =>
    next o o' f f' rest k c =>
    have happlied := OpenSegment.register_applyInbound { o with stack := rest } f c now
    rw [happly] at happlied
    rw [register_of_active hactive]
    exact happlied
  | edit edits hactive hstack =>
    rw [register_of_active hactive]
    rfl
  | putCorrelation key value hactive =>
    rw [register_of_active hactive]
    exact OpenSegment.register_putCorrelation _ _ _ _

theorem register_touches (h : Touches now s s') : s'.register = s.register := by
  induction h with
  | refl => rfl
  | tail _ hstep ih => exact (register_touch hstep).trans ih

theorem register_segmentFor {s₂ : Site} {o : OpenSegment} {name : String}
    {inherited : Inherited} (h : (s.segmentFor name inherited now).value = (o, s₂)) :
    o.register = s.register := by
  rcases segmentFor_cases h with ⟨hactive, -⟩ | ⟨hidle, rfl, -⟩
  · exact (register_of_active hactive).symm
  · rw [register, hidle]
    exact OpenSegment.register_start _ _ _ _ _ _

/-- **The register after an operation**: a span that is opened is entered if it is
    recorded, and nothing else changes the register. -/
theorem register_effect {op : StrandOp} {outcome : Outcome Site}
    (heffect : Effect now s op outcome) {o' : OpenSegment}
    (hafter : outcome.state.strand.active = some o') : s.register.Follows op.opens? o' := by
  cases heffect with
  | refused e hop => exact .still (register_of_active hafter).symm
  | touched hop hstop hprepare htouch =>
    exact .still ((register_of_active hafter).symm.trans (register_touches htouch))
  | opened hop hread htouch hsegment hopen =>
    next kind name inbound s₁ s₂ o o'' f =>
    obtain rfl : o'' = o' := Option.some.inj hafter
    have hopened := OpenSegment.register_openSpan s₂.tracer.config o kind name now
      (inheritedFrom inbound).2
    rw [hopen, register_segmentFor hsegment, register_touches htouch] at hopened
    rw [hop]
    exact hopened
  | sent hsegment hopen =>
    next name peer k k' s₂ o o'' f =>
    obtain rfl : o'' = o' := Option.some.inj hafter
    have hopened := OpenSegment.register_openExit s₂.tracer.config o name peer k now
    rw [hopen, register_segmentFor hsegment] at hopened
    exact hopened
  | prepared hactive hprepare =>
    next o o'' t a =>
    obtain rfl : o'' = o' := Option.some.inj hafter
    rw [register_of_active hactive]
    rcases OpenSegment.prepareAsync_eq_ok hprepare with ⟨-, rfl, -⟩ |
      ⟨y, rest, n, t₁, -, -, -, -, rfl, -⟩
    · exact .still rfl
    · exact .still rfl
  | stopped hactive hpop hretire hopen =>
    next expected o o₁ o'' f t =>
    obtain rfl : o'' = o' := Option.some.inj hafter
    obtain ⟨rest, -, rfl, -⟩ := OpenSegment.pop_eq_ok hpop
    have hretired := OpenSegment.retired_retire { o with stack := rest } s.tracer f now
    rw [hretire] at hretired
    rw [register_of_active hactive]
    -- retiring concerns the archive and the ledger only
    cases hretired with
    | dropped name => exact .still rfl
    | archived hplain => exact .still rfl
    | deferred hasync hledger => exact .still rfl
    | stray hasync hledger => exact .still rfl
  | ended => contradiction

end Site

/-! ### The register and the life -/

/-- The register is what the life tells: its first openings were recorded. -/
structure Life.Registers (l : Life) (r : Register) : Prop where
  le : r.count ≤ l.openings.length
  primary : r.primary = Primary.of? (l.openings.take r.count)

namespace Life.Registers

variable {l l' : Life} {r r' : Register}

theorem empty (l : Life) : l.Registers .empty where
  le := Nat.zero_le _
  primary := by
    show none = Primary.of? (l.openings.take 0)
    rw [List.take_zero]
    rfl

/-- More openings do not change what was recorded before. -/
theorem append (h : l.Registers r) {more : List Opening}
    (hmore : l'.openings = l.openings ++ more) : l'.Registers r where
  le := by
    rw [hmore, List.length_append]
    exact Nat.le_add_right_of_le h.le
  primary := by
    rw [hmore, List.take_append_of_le_length h.le]
    exact h.primary

/-- A span is entered when all openings before were recorded. -/
theorem enters (h : l.Registers r) (hall : r.count = l.openings.length) {o : Opening}
    (hmore : l'.openings = l.openings ++ [o]) (henters : r.Enters o.kind r') :
    l'.Registers r' := by
  cases henters with
  | entered hid hkind =>
    next s =>
    have hlength : l'.openings.length = r.count + 1 := by
      rw [hmore, List.length_append, hall, List.length_singleton]
    refine ⟨Nat.le_of_eq hlength.symm, ?_⟩
    show some (promote r.primary s) = Primary.of? (l'.openings.take (r.count + 1))
    rw [← hlength, List.take_length, hmore, h.primary, hall, List.take_length]
    exact (Primary.of?_append l.openings (hid.trans hall) hkind).symm

end Life.Registers

/-- What an operation adds to the openings of the life of its segment. -/
def StrandOp.opening (op : StrandOp) (before : Option OpenSegment) (now : UInt64) :
    List Opening :=
  (op.opens?.map fun kind =>
    ⟨now, kind, (before.bind (·.nearestRecorded?)).map (·.id)⟩).toList

theorem Life.openings_afterStrandOp (l : Life) (before : Option OpenSegment) (now : UInt64)
    (op : StrandOp) (reply : Reply) :
    (l.afterStrandOp before now op reply).openings = l.openings ++ op.opening before now := by
  have hnone (hop : op.opens? = none) : l.openings = l.openings ++ op.opening before now := by
    rw [StrandOp.opening, hop, Option.map_none, Option.toList_none, List.append_nil]
  unfold afterStrandOp
  split
  · exact hnone rfl
  · exact hnone rfl
  · split
    · next kind hop => rw [StrandOp.opening, hop, Option.map_some, Option.toList_some]
    · next hop => exact hnone hop

/-- The register after an operation is what the life tells after it, provided that all
    openings before were recorded if the operation records a span. -/
theorem Life.Registers.follows {l l' : Life} {r : Register} (h : l.Registers r) {op : StrandOp}
    {o' : OpenSegment} (hfollows : r.Follows op.opens? o') {before : Option OpenSegment}
    {now : UInt64} (hopenings : l'.openings = l.openings ++ op.opening before now)
    (hall : o'.sampled = true → o'.register.count = r.count + 1 → r.count = l.openings.length) :
    l'.Registers o'.register := by
  cases hfollows with
  | still hsame =>
    rw [hsame]
    exact h.append hopenings
  | entered hopens hsampled henters =>
    rw [StrandOp.opening, hopens, Option.map_some, Option.toList_some] at hopenings
    have hcount : o'.register.count = r.count + 1 := by
      generalize o'.register = r' at henters
      cases henters with
      | entered => rfl
    exact h.enters (hall hsampled hcount) hopenings henters

namespace Engine

variable {capacity : Nat} {e : Engine} {now : UInt64} {op : Op} {ls : List Life} {l : Life}

/-- The lives tell the registers of the open segments. -/
def Registered (e : Engine) (ls : List Life) : Prop :=
  ∀ l ∈ ls, ∀ k o, l.stage = .running k → e.open? k = some o → l.Registers o.register

/-- A segment that is open after a step was open before it, or began with it. -/
theorem stage_of_live {k : Nat} (h : (e.live now op l).stage = .running k) :
    l.stage = .running k := by
  cases op with
  | strand k' sop =>
    rw [live_strand] at h
    split at h
    · unfold Life.report Life.afterStrandOp at h
      split at h
      · contradiction
      · exact h
      · split at h
        · exact h
        · exact h
    · exact h
  | closeStrand k' =>
    rw [live_closeStrand] at h
    split at h
    · contradiction
    · exact h
  | handle a hop =>
    rw [live_handle, Life.stage_afterHandle] at h
    exact h
  | _ => exact h

/-- Only its own strand opens spans in a segment. -/
theorem openings_live {k : Nat} (hstage : l.stage = .running k)
    (hother : ∀ sop, op ≠ .strand k sop) : (e.live now op l).openings = l.openings := by
  cases op with
  | strand k' sop =>
    rw [live_of_ne]
    intro hk'
    obtain rfl := Stage.running.inj (hstage.symm.trans hk')
    exact hother sop rfl
  | closeStrand k' =>
    rw [live_closeStrand]
    split
    · rfl
    · rfl
  | handle a hop => rw [live_handle, Life.openings_afterHandle]
  | _ => rfl

theorem openings_live_strand {k : Nat} (hstage : l.stage = .running k) (now : UInt64)
    (sop : StrandOp) :
    (e.live now (.strand k sop) l).openings = l.openings ++ sop.opening (e.open? k) now := by
  rw [live_strand, if_pos hstage]
  exact Life.openings_afterStrandOp _ _ _ _ _

theorem register_step {k : Nat} {s : Site} (hsite : e.site? k = some s) {sop : StrandOp}
    {o' : OpenSegment} (hafter : (e.step now (.strand k sop)).value.state.open? k = some o') :
    s.register.Follows sop.opens? o' := by
  refine Site.register_effect (s.effect_of_step now sop) ?_
  exact (open?_step_strand hsite now sop).symm.trans hafter

/-- A step of its own strand. -/
theorem Tells.registers_running (h : e.Tells capacity ls) (hl : l ∈ ls) {k : Nat}
    (hstage : l.stage = .running k) {o o' : OpenSegment} (hopen : e.open? k = some o)
    (hregisters : l.Registers o.register) {sop : StrandOp}
    (hafter : (e.step now (.strand k sop)).value.state.open? k = some o') :
    (e.live now (.strand k sop) l).Registers o'.register := by
  obtain ⟨s, hsite, hactive⟩ := site?_of_open? hopen
  have hfollows := register_step hsite hafter
  rw [Site.register_of_active hactive] at hfollows
  refine hregisters.follows hfollows (openings_live_strand hstage now sop) ?_
  intro hsampled hcount
  obtain ⟨x, hruns, -⟩ := h.runs hl hstage hsite
  obtain ⟨-, ⟨-, s'', x', hsite'', hruns', hfades⟩ | ⟨-, hnone, -⟩⟩ :=
    h.step_running hl hsite hstage hruns now sop
  -- the segment is sampled, so before and after the step its spans are counted
  · have hactive'' : s''.strand.active = some o' :=
      (open?_of_site? hsite'').symm.trans hafter
    have hx' := hruns'.outline_eq hactive''
    have hx := hruns.outline_eq hactive
    have hsampled' : x'.sampled = true := hx' ▸ hsampled
    have hbefore := (hruns.custody (hfades hsampled')).count
    have hcounted := (hruns'.custody hsampled').count
    rw [openings_live_strand hstage, List.length_append] at hcounted
    have hnext : x.nextSpan = o.register.count := by rw [← hx]; rfl
    have hnext' : x'.nextSpan = o'.register.count := by rw [← hx']; rfl
    have hone : (sop.opening (e.open? k) now).length ≤ 1 := by
      unfold StrandOp.opening
      cases sop.opens? <;> simp
    omega
  · rw [hnone] at hafter
    contradiction

/-- A life begins on an idle strand. -/
theorem begun_eq_some (h : e.begun now op = some l) :
    ∃ k sop s id, op = .strand k sop ∧ e.site? k = some s ∧ s.strand.active = none ∧
      l = { segment := id, stage := .running k } := by
  unfold begun at h
  split at h
  · next k sop =>
    split at h
    · next o hidle hopened =>
      cases hsite : e.site? k with
      | none =>
        simp only [step, hsite, Logged.pure_value, Outcome.of, hidle] at hopened
        contradiction
      | some s =>
        exact ⟨k, sop, s, o.segment.id, rfl, hsite, (open?_of_site? hsite).symm.trans hidle,
          (Option.some.inj h).symm⟩
    · contradiction
  · contradiction

/-- The step with which a segment begins. -/
theorem registers_begun {k : Nat} {s : Site} (hsite : e.site? k = some s)
    (hidle : s.strand.active = none) (hstage : l.stage = .running k) (hnone : l.openings = [])
    {sop : StrandOp} {o' : OpenSegment}
    (hafter : (e.step now (.strand k sop)).value.state.open? k = some o') :
    (e.live now (.strand k sop) l).Registers o'.register := by
  have hfollows := register_step hsite hafter
  have hempty : s.register = .empty := by
    rw [Site.register, hidle]
    rfl
  rw [hempty] at hfollows
  refine (Life.Registers.empty l).follows hfollows (openings_live_strand hstage now sop) ?_
  intro _ _
  rw [hnone]
  rfl

/-- Every step keeps the registers as the lives tell them. -/
theorem Tells.registered_step (h : e.Tells capacity ls) (hregistered : e.Registered ls)
    (now : UInt64) (op : Op) :
    (e.step now op).value.state.Registered (e.chronicle now op ls) := by
  intro l' hl' k o' hstage' hafter
  obtain ⟨l, hl, rfl⟩ := List.mem_map.mp hl'
  have hstage := stage_of_live hstage'
  rcases List.mem_append.mp hl with hold | hnew
  · by_cases hown : ∃ sop, op = .strand k sop
    · obtain ⟨sop, rfl⟩ := hown
      obtain ⟨o, hopen⟩ : ∃ o, e.open? k = some o := by
        cases hopen : e.open? k with
        | none => exact absurd hstage (h.stage_ne hopen hold)
        | some o => exact ⟨o, rfl⟩
      exact h.registers_running hold hstage hopen (hregistered l hold k o hstage hopen) hafter
    -- what happens elsewhere changes neither the segment nor its openings
    · have hother : ∀ sop, op ≠ .strand k sop := fun sop hop => hown ⟨sop, hop⟩
      have hclose : op ≠ .closeStrand k := by
        rintro rfl
        rw [live_closeStrand, if_pos hstage] at hstage'
        contradiction
      rw [open?_step e now hother hclose] at hafter
      have hopenings : (e.live now op l).openings = l.openings := openings_live hstage hother
      exact (hregistered l hold k o' hstage hafter).append
        (hopenings.trans (List.append_nil _).symm)
  · obtain ⟨k', sop, s, id, rfl, hsite, hidle, rfl⟩ := begun_eq_some (Option.mem_toList.mp hnew)
    obtain rfl : k' = k := Stage.running.inj hstage
    exact registers_begun hsite hidle rfl rfl hafter

/-- Every run keeps the registers as the lives tell them. -/
theorem Tells.registered_run (h : e.Tells capacity ls) (hregistered : e.Registered ls)
    (ops : List (UInt64 × Op)) : (e.run ops).Registered (e.livesFrom ls ops) := by
  induction ops generalizing e ls with
  | nil => exact hregistered
  | cons timed ops ih =>
    obtain ⟨now, op⟩ := timed
    exact ih (h.step now op).1 (h.registered_step hregistered now op)

end Engine

end TraceLink
