import TraceLink.Proofs.Noninterference
import TraceLink.Proofs.WatchedSegments

/-! # Live updates

    The settings may be updated at any time, whatever the strands are doing. An update is
    accepted as a whole or refused as a whole, and no segment that is open notices it: the
    settings decide about segments that begin later, and about nothing else. -/

namespace TraceLink

/-! ### Segments that begin -/

namespace Site

variable {s : Site}

/-- A segment is open, and has no ledger yet. -/
def Begun (s : Site) : Prop := ∃ o ν, s.strand.active = some o ∧ o.Bears ν

/-- The segment that an idle strand begins. -/
theorem bears_segmentFor (hidle : s.strand.active = none) {name : String} {inherited : Inherited}
    {now : UInt64} {o : OpenSegment} {s₂ : Site}
    (h : (s.segmentFor name inherited now).value = (o, s₂)) :
    o.Bears (s.tracer.ids.names s.strand.ordinal now) := by
  rcases segmentFor_cases h with ⟨hactive, -⟩ | ⟨-, rfl, -⟩
  · rw [hidle] at hactive
    contradiction
  · exact OpenSegment.start_bears _ _ _ _ _ _

/-- **A span that is opened while idle** begins a segment. -/
theorem begun_of_opens (hidle : s.strand.active = none) {op : StrandOp} {kind : SpanKind}
    (hop : op.opens? = some kind) (now : UInt64) : (s.step now op).value.state.Begun := by
  have heffect := s.effect_of_step now op
  generalize (s.step now op).value = outcome at heffect ⊢
  cases heffect with
  | opened hopens hread htouch hsegment hopen =>
    have hbears := bears_segmentFor ((idle_touches htouch).mpr hidle) hsegment
    exact ⟨_, _, rfl, hbears.openSpan hopen⟩
  | sent hsegment hopen =>
    exact ⟨_, _, rfl, (bears_segmentFor hidle hsegment).openExit hopen⟩
  | refused e hnone =>
    rw [hop] at hnone
    contradiction
  | touched hnone =>
    rw [hop] at hnone
    contradiction
  | _ => contradiction

end Site

/-! ### Watches that begin -/

namespace Watch

variable {w : Workplace} {k : Nat} {x : Turn}

/-- **Watch over the segment** that has just begun at place `k`: every handle that is given
    to the strand from now on is given to this segment. -/
def begunAt (w : Workplace) (k : Nat) : Watch := ⟨k, (w.handles k).length, none⟩

/-- The segment that has just begun is the same as itself, under names that are matched with
    themselves. -/
theorem alike_begun (hw : w.Tidy) {s : Site} (hsite : w.engine.site? k = some s)
    (hbegun : s.Begun) : (∃ m, (begunAt w k).Alike m w w) ∧ (begunAt w k).Alert w := by
  obtain ⟨o, ν, hactive, hbears⟩ := hbegun
  have hstrand := Engine.strand?_of_site? hsite
  have hnone {n n' : Nat} : ¬Matching.Pairs ⟨[(ν, ν)], []⟩ n n' := fun ⟨id, hmem⟩ => by
    contradiction
  have hsegment : o.Alike ⟨[(ν, ν)], []⟩ o :=
    ⟨(ν, ν), List.mem_singleton_self _, none, none, o, .none, hbears.symm, hbears.symm⟩
  refine ⟨⟨⟨[(ν, ν)], []⟩, ?_⟩, fun _ => ?_⟩
  · exact {
      tidy := hw
      tidy' := hw
      names := fun ν' hν' => by
        obtain rfl := List.mem_singleton.mp hν'
        rfl
      tracer := ⟨w.engine.tracer.counters.since w.engine.tracer.counters, {
        config := rfl
        suffixes := rfl
        rate := Int.le_refl _
        rate' := Int.le_refl _
        counters := (Counters.plus_since _ _).symm
        handles := fun a ha => by contradiction
        bound := fun hpairs => absurd hpairs hnone
        oneToOne := fun hpairs => absurd hpairs hnone }⟩
      kept := fun hpairs => absurd hpairs hnone
      handle := fun {i} hi => by
        have hle : (w.handles k).length ≤ i := of_decide_eq_true ((Bool.and_eq_true _ _).mp hi).1
        exact .inr ⟨Workplace.handle_of_le hle, Workplace.handle_of_le hle⟩
      strand := fun _ => by
        show Option.Rel _ (w.engine.strand? k) (w.engine.strand? k)
        rw [hstrand]
        exact .some ⟨rfl, hactive.symm ▸ .some hsegment, rfl, rfl⟩
      length := fun _ => rfl
      first := fun _ => Nat.le_refl _
      last := fun hn => by contradiction }
  · show (w.engine.open? k).isSome
    rw [Engine.open?_of_site? hsite, hactive]
    rfl

/-- The turn in which a segment begins. -/
theorem begun_of_begins (h : (w.begins x).isSome) :
    ∃ s, (w.turn x).state.engine.site? x.place = some s ∧ s.Begun := by
  obtain ⟨now, k, act⟩ := x
  cases act with
  | leave => contradiction
  | handle i op => contradiction
  | own op =>
    cases hsite : w.engine.site? k with
    | none =>
      rw [Workplace.begins_missing hsite] at h
      contradiction
    | some s =>
      rw [Workplace.begins_own hsite, Site.begins] at h
      cases hop : op.opens? with
      | none =>
        rw [hop] at h
        contradiction
      | some kind =>
        rw [hop, Option.bind_some, Site.fresh, Strand.isActive] at h
        have hidle : s.strand.active = none := by
          cases hactive : s.strand.active with
          | none => rfl
          | some o =>
            rw [hactive] at h
            contradiction
        rw [Workplace.turn_own hsite]
        exact ⟨_, Engine.site?_setSite hsite _, Site.begun_of_opens hidle hop now⟩

end Watch

/-! ### Updates -/

namespace Workplace

/-- **Steady segment**: what is seen of the segment that begins in the turn depends, from
    then on, on what happens beside the updates only. -/
def Steady (w : Workplace) (x : Turn) : Prop :=
  let w₁ := (w.turn x).state
  let v := Watch.begunAt w₁ x.place
  ∀ ys zs, Event.settled ys = Event.settled zs →
    v.answers w₁ ys = v.answers w₁ zs ∧ v.finalView w₁ ys = v.finalView w₁ zs

/-- **Every segment is steady**: two runs from its beginning that differ in updates only are
    compared with the one in which there are none. -/
theorem Tidy.steady {w : Workplace} (hw : w.Tidy) {x : Turn} (h : (w.begins x).isSome) :
    w.Steady x := by
  obtain ⟨s, hsite, hbegun⟩ := Watch.begun_of_begins h
  obtain ⟨⟨m, halike⟩, halert⟩ :=
    Watch.alike_begun ((footprint_turn hw x).tidy hw) hsite hbegun
  intro ys zs hsettled
  obtain ⟨hanswers, hview⟩ := halike.run halert ys
  obtain ⟨hanswers', hview'⟩ := halike.run halert zs
  rw [hsettled] at hanswers hview
  exact ⟨hanswers.symm.trans hanswers', hview.symm.trans hview'⟩

end Workplace

namespace Engine

/-- **Updates are atomic** at an engine whose tracer was configured with `c`: an update of the
    suffixes sets the whole list that is asked for or changes nothing at all, one without a
    value restores the configuration, and what an update changes for a segment that begins
    after it is the decision. -/
structure UpdatesAtomically (c : Config) (e : Engine) : Prop where
  dots : ∀ s ∈ e.tracer.gate.suffixes, s.toList.head? = some '.'
  refused_iff : ∀ now text,
    (∃ err, (e.step now (.setSuffixes (some text))).value.reply = .refused err) ↔
      ∃ s ∈ Text.commaList text, s.toList.head? ≠ some '.'
  refused : ∀ now value err, (e.step now (.setSuffixes value)).value.reply = .refused err →
    e.step now (.setSuffixes value) = ⟨.of (.refused err) e, []⟩
  accepted : ∀ now text, (∀ s ∈ Text.commaList text, s.toList.head? = some '.') →
    e.step now (.setSuffixes (some text)) =
      ⟨.of .done (e.withSuffixes (Text.commaList text)), [.suffixesUpdated (Text.commaList text)]⟩
  restored : ∀ now, e.step now (.setSuffixes none) =
    ⟨.of .done (e.withSuffixes c.ignoreSuffixes), [.suffixesUpdated c.ignoreSuffixes]⟩
  rate : ∀ now value, e.step now (.setRate value) =
    ⟨.of .done (e.withRate (value.getD c.sampleRate)), [.rateUpdated (value.getD c.sampleRate)]⟩
  begun : ∀ now op, op.isUpdate = true → ∀ ordinal time name inherited continuation,
    let t := (e.step now op).value.state.tracer
    (OpenSegment.start t ordinal time name inherited continuation).value.1 =
      (OpenSegment.start e.tracer ordinal time name inherited continuation).value.1.decided
        (t.gate.judge name (OpenSegment.decision inherited continuation) time).value.1

/-- An update changes the gate, if anything. -/
theorem tracer_of_update (e : Engine) (now : UInt64) {op : Op} (h : op.isUpdate = true) :
    ∃ g, (e.step now op).value.state.tracer = e.tracer.withGate g := by
  cases op with
  | setSuffixes value =>
    rcases e.step_setSuffixes now value with ⟨-, hstep⟩ | ⟨before, s, after, -, -, -, hstep⟩
    · rw [hstep]
      exact ⟨_, rfl⟩
    · rw [hstep]
      exact ⟨e.tracer.gate, rfl⟩
  | setRate value => exact ⟨_, rfl⟩
  | _ => contradiction

variable {e : Engine}

/-- The settings of a run that began with a valid configuration are updated atomically. -/
theorem Furnished.updatesAtomically {c : Config} (h : e.Furnished c)
    (hvalid : c.validate = .ok ()) : e.UpdatesAtomically c where
  dots := h.head hvalid
  refused_iff now text := by
    refine ⟨fun ⟨err, hrefused⟩ => ?_, fun hno => ?_⟩
    · by_contra hno
      simp only [not_exists, not_and, ne_eq, not_not] at hno
      rw [e.step_setSuffixes_of_dots now (some text) hno] at hrefused
      contradiction
    · obtain ⟨err, hstep⟩ := e.step_setSuffixes_of_not_dots now (some text) hno
      exact ⟨err, congrArg (·.value.reply) hstep⟩
  refused now value err hreply := by
    rcases e.step_setSuffixes now value with ⟨-, hstep⟩ | ⟨before, s, after, -, -, -, hstep⟩
    · rw [hstep] at hreply
      contradiction
    · rw [hstep] at hreply ⊢
      obtain rfl : _ = err := Reply.refused.inj hreply
      rfl
  accepted now text hdots := e.step_setSuffixes_of_dots now (some text) hdots
  restored now := by
    have hlist : e.requested none = c.ignoreSuffixes := congrArg Config.ignoreSuffixes h.config
    rw [e.step_setSuffixes_of_dots now none (hlist ▸ Config.head_of_validate hvalid), hlist]
  rate now value := by rw [e.step_setRate, h.config]
  begun now op hop ordinal time name inherited continuation := by
    obtain ⟨g, hgate⟩ := e.tracer_of_update now hop
    rw [hgate]
    exact OpenSegment.start_withGate e.tracer g ordinal time name inherited continuation

/-- **Live updates are atomic and spare what is running.** At every moment of every run of a
    tracer with a valid configuration, an update takes effect as a whole or is refused as a
    whole. And every segment that begins goes on as if no update came after it. -/
theorem live_updates {c : Config} (hvalid : c.validate = .ok ()) (reporter : Reporter)
    (process : String) (now : UInt64) :
    let e := ofTracer (.start c reporter process now)
    (∀ ops, (e.run ops).UpdatesAtomically c) ∧
      ∀ evs x, let w := (Workplace.of e).after evs
        (w.begins x).isSome → w.Steady x := by
  intro e
  refine ⟨fun ops => ?_, fun evs x hbegins => ?_⟩
  · exact ((Furnished.start c reporter process now).run ops).updatesAtomically hvalid
  · have hw : (Workplace.of e).Tidy := Workplace.tidy_of fun k s hs => by contradiction
    exact (Watch.tidy_after hw evs).steady hbegins

/-- What happens after a segment has begun at the first strand: it opens a span whose name
    is ignored by now, and finishes it when it has ended already. The other strand begins a
    segment with such a name. -/
def busy : List Event :=
  [.shared 2 (.setSuffixes (some ".css, .rpc")), .turn ⟨3, 1, .own (.entry "/a.rpc" none)⟩,
    .turn ⟨3, 0, .own (.inner "b.rpc")⟩, .shared 4 (.setSuffixes (some "rpc")),
    .turn ⟨5, 0, .own .prepareAsync⟩, .turn ⟨6, 0, .own (.stop none)⟩,
    .shared 6 (.setRate (some 1)), .turn ⟨7, 0, .own (.stop none)⟩,
    .shared 8 (.setSuffixes none), .turn ⟨9, 0, .handle 0 (.finish none)⟩]

/-- The first segment is handed over as it would be without the updates, while the other one
    is ignored because of them. -/
theorem live_updates_busy :
    let c := Config.standard "i"
    let e := ofTracer (.start c .collecting "p" 0)
    let w := (Workplace.of e).after [.shared 0 .openStrand, .shared 0 .openStrand]
    let w₁ := (w.turn ⟨1, 0, .own (.entry "/orders" none)⟩).state
    let v := Watch.begunAt w₁ 0
    c.validate = .ok () ∧ (e.run [(0, .setSuffixes (some ".css"))]).UpdatesAtomically c ∧
      v.answers w₁ busy = v.answers w₁ (Event.settled busy) ∧
      (v.answers w₁ busy).filterMap (·.2) ≠ [] ∧
      ((w₁.after busy).engine.open? 1).map (·.sampled) = some false ∧
      ((w₁.after (Event.settled busy)).engine.open? 1).map (·.sampled) = some true := by
  intro c e w w₁ v
  have hvalid : c.validate = .ok () := by decide +kernel
  obtain ⟨hatomic, hsteady⟩ := live_updates hvalid .collecting "p" 0
  have hsame := hsteady [.shared 0 .openStrand, .shared 0 .openStrand]
    ⟨1, 0, .own (.entry "/orders" none)⟩ (by decide +kernel) busy (Event.settled busy) rfl
  have hhanded : (v.answers w₁ busy).filterMap (·.2) ≠ [] := by decide +kernel
  exact ⟨hvalid, hatomic _, hsame.1, hhanded, by decide +kernel, by decide +kernel⟩

end Engine

end TraceLink
