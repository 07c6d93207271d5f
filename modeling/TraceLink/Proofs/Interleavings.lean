import Mathlib.Data.List.Induction
import TraceLink.Proofs.OwnerSteps

/-! # Interleavings of an owner and its handles

    One strand owns a segment: it opens the spans, leaves the ends of some of them to
    handles, and stops them all. The handles say what they have to say whenever they
    want, each after it was prepared. However the two are interleaved, the segment is
    reported, with the same cover and the same spans. -/

namespace TraceLink

namespace Op

/-- What the handle `h` says by the operation. -/
def saidBy? (h : AsyncHandle) : Op → Option HandleOp
  | .handle h' op => if h' = h then some op else none
  | _ => none

end Op

namespace Engine

/-- What the handle `h` says in a run. -/
def saidIn (ops : List (UInt64 × Op)) (h : AsyncHandle) : List HandleOp :=
  ops.filterMap fun timed => timed.2.saidBy? h

/-- **Session** of an owner: its operations on the strand at place `k` open one segment
    and stop all its spans while it is sampled. What each handle that was prepared on
    the way has to say ends with a time at which it finishes. -/
structure Session (e : Engine) (k : Nat) (owner : List (UInt64 × Op))
    (calls : AsyncHandle → List HandleOp) (l : Life) : Prop where
  own : ∀ timed ∈ owner, ∃ op, timed.2 = .strand k op
  idle : e.open? k = none
  life : e.lives owner = [l]
  sampled : l.stage = .emptied true
  calls : ∀ h ∈ l.handles, ∃ notes time, calls h = notes ++ [.finish (some time)] ∧
    ∀ end?, HandleOp.finish end? ∉ notes

/-- **Interleaving** of a session: the owner and each handle go on in their own order,
    and a handle comes after its preparation. The handles of spans that were not
    recorded are idle, and they may come at any time. -/
structure Interleaves (e : Engine) (owner : List (UInt64 × Op))
    (calls : AsyncHandle → List HandleOp) (l : Life) (ops : List (UInt64 × Op)) : Prop where
  kinds : ∀ timed ∈ ops, (∃ k op, timed.2 = .strand k op) ∨ ∃ h op, timed.2 = .handle h op
  owner : strandOps ops = owner
  said : ∀ h ∈ l.handles, saidIn ops h = calls h
  after : ∀ i now h op, ops[i]? = some (now, .handle h op) →
    h = .idle ∨ ∃ l' ∈ e.lives (ops.take i), h ∈ l'.handles

/-! ### Runs, one operation more -/

variable {capacity : Nat} {e : Engine} {k : Nat} {ls : List Life} {l : Life}
  {owner ops before : List (UInt64 × Op)} {calls : AsyncHandle → List HandleOp} {now : UInt64}
  {op : Op}

theorem run_concat (e : Engine) (before : List (UInt64 × Op)) (now : UInt64) (op : Op) :
    e.run (before ++ [(now, op)]) = ((e.run before).step now op).value.state :=
  e.run_append before _

theorem lives_append (e : Engine) (before rest : List (UInt64 × Op)) :
    e.lives (before ++ rest) = (e.run before).livesFrom (e.lives before) rest :=
  e.livesFrom_append [] before rest

theorem lives_concat (e : Engine) (before : List (UInt64 × Op)) (now : UInt64) (op : Op) :
    e.lives (before ++ [(now, op)]) = (e.run before).chronicle now op (e.lives before) :=
  e.lives_append before _

theorem stops_concat (e : Engine) (k : Nat) (before : List (UInt64 × Op)) (now : UInt64) (op : Op) :
    e.stops k (before ++ [(now, op)]) =
      e.stops k before ++ ((e.run before).stop? k now op).toList := by
  rw [stops_append, stops, stops, List.append_nil]

theorem handed_concat (e : Engine) (before : List (UInt64 × Op)) (now : UInt64) (op : Op) :
    e.handed (before ++ [(now, op)]) =
      e.handed before ++ ((e.run before).step now op).value.handed.toList := by
  induction before generalizing e with
  | nil => exact List.append_nil _
  | cons timed before ih =>
    rw [List.cons_append, handed, handed, List.append_assoc, ih]
    rfl

theorem saidIn_concat (before : List (UInt64 × Op)) (now : UInt64) (op : Op) (h : AsyncHandle) :
    saidIn (before ++ [(now, op)]) h = saidIn before h ++ (op.saidBy? h).toList := by
  unfold saidIn
  rw [List.filterMap_append]
  rfl

/-! ### Lives of a part of a run -/

/-- Lives that were there before stay in front. -/
theorem livesFrom_suffix (e : Engine) (ls ls' : List Life) (ops : List (UInt64 × Op)) :
    ∃ old, e.livesFrom (ls ++ ls') ops = old ++ e.livesFrom ls' ops := by
  induction ops generalizing e ls ls' with
  | nil => exact ⟨ls, rfl⟩
  | cons timed ops ih =>
    obtain ⟨now, op⟩ := timed
    rw [livesFrom, livesFrom, chronicle, chronicle, List.append_assoc, List.map_append]
    exact ih _ _ _

theorem mem_livesFrom (ls : List Life) (h : l ∈ e.lives ops) : l ∈ e.livesFrom ls ops := by
  obtain ⟨old, hlives⟩ := e.livesFrom_suffix ls [] ops
  rw [List.append_nil] at hlives
  rw [hlives]
  exact List.mem_append_right _ h

theorem length_le_livesFrom (e : Engine) (ls : List Life) (ops : List (UInt64 × Op)) :
    ls.length ≤ (e.livesFrom ls ops).length := by
  induction ops generalizing e ls with
  | nil => exact Nat.le_refl _
  | cons timed ops ih =>
    obtain ⟨now, op⟩ := timed
    refine Nat.le_trans ?_ (ih _ _)
    rw [chronicle, List.length_map, List.length_append]
    exact Nat.le_add_right _ _

/-- A handle that was prepared stays in the record. -/
theorem exists_mem_livesFrom (e : Engine) (h : l ∈ ls) (ops : List (UInt64 × Op)) :
    ∃ l' ∈ e.livesFrom ls ops, ∀ a ∈ l.handles, a ∈ l'.handles := by
  induction ops generalizing e ls l with
  | nil => exact ⟨l, h, fun a ha => ha⟩
  | cons timed ops ih =>
    obtain ⟨now, op⟩ := timed
    have hnext : e.live now op l ∈ e.chronicle now op ls :=
      List.mem_map_of_mem (List.mem_append_left _ h)
    obtain ⟨l', hl', hhandles⟩ := ih (e.step now op).value.state hnext
    exact ⟨l', hl', fun a ha => hhandles a (mem_handles_live now op ha)⟩

/-! ### The run of an interleaving -/

/-- **Progress** of an interleaving after the operations in `before`. -/
inductive Progress (e : Engine) (k : Nat) (before : List (UInt64 × Op)) : Prop where
  /-- The segment has not begun. -/
  | idle (hlives : e.lives before = []) (hidle : (e.run before).open? k = none)
      (hhanded : e.handed before = []) (hstops : e.stops k before = [])
      (hsaid : ∀ n id, saidIn before (.span n id) = [])
  | begun {l : Life} (hlives : e.lives before = [l])
      (howned : Owned (e.run before) k l (saidIn before) (e.stops k before) (e.handed before))
      (hfinished : ∀ h ∈ l.finished, ∃ time, HandleOp.finish time ∈ saidIn before h)

theorem lives_eq_of_length_le (hlives : e.lives before = [l])
    (hone : (e.lives (before ++ [(now, op)])).length ≤ 1) :
    (e.run before).begun now op = none ∧
      e.lives (before ++ [(now, op)]) = [(e.run before).live now op l] := by
  rw [lives_concat, hlives, chronicle, List.length_map, List.length_append] at hone
  -- a life that begins would be a second one
  cases hbegun : (e.run before).begun now op with
  | some l' =>
    rw [hbegun] at hone
    simp at hone
  | none =>
    refine ⟨rfl, ?_⟩
    rw [lives_concat, hlives, chronicle, hbegun]
    rfl

/-- What the finished handles said, one operation later. -/
theorem finished_concat {l : Life}
    (hfinished : ∀ h ∈ l.finished, ∃ time, HandleOp.finish time ∈ saidIn before h) :
    ∀ h ∈ ((e.run before).live now op l).finished,
      ∃ time, HandleOp.finish time ∈ saidIn (before ++ [(now, op)]) h := by
  intro h hh
  rcases mem_finished_of_live hh with hold | ⟨time, rfl⟩
  · obtain ⟨time, htime⟩ := hfinished h hold
    refine ⟨time, ?_⟩
    rw [saidIn_concat]
    exact List.mem_append_left _ htime
  · refine ⟨time, ?_⟩
    rw [saidIn_concat, Op.saidBy?, if_pos rfl]
    exact List.mem_append_right _ (List.mem_singleton_self _)

/-- A step of the owner in an interleaving. -/
theorem Progress.strand (h : e.Progress k before)
    (htells : (e.run before).Tells capacity (e.livesFrom ls before)) {sop : StrandOp}
    (hone : (e.lives (before ++ [(now, .strand k sop)])).length ≤ 1) :
    e.Progress k (before ++ [(now, .strand k sop)]) := by
  have hsaid : saidIn (before ++ [(now, .strand k sop)]) = saidIn before := by
    funext a
    rw [saidIn_concat]
    exact List.append_nil _
  cases h with
  | begun hlives howned hfinished =>
    next l =>
    obtain ⟨hbegun, hlives'⟩ := lives_eq_of_length_le hlives hone
    refine .begun hlives' ?_ (finished_concat hfinished)
    rw [run_concat, stops_concat, handed_concat, hsaid]
    exact howned.strand htells (mem_livesFrom ls (hlives ▸ List.mem_singleton_self l)) hbegun
  | idle hlives hidle hhanded hstops hnothing =>
    cases hbegun : (e.run before).begun now (.strand k sop) with
    | none =>
      obtain ⟨hhanded', hidle', -⟩ := idle_step hidle hbegun
      refine .idle ?_ ?_ ?_ ?_ ?_
      · rw [lives_concat, hlives, chronicle, hbegun]
        rfl
      · rw [run_concat, hidle']
      · rw [handed_concat, hhanded, hhanded']
        rfl
      · rw [stops_concat, hstops, stop?_of_idle hidle]
        rfl
      · rw [hsaid]
        exact hnothing
    | some l =>
      have hlives' : e.lives (before ++ [(now, .strand k sop)]) =
          [(e.run before).live now (.strand k sop) l] := by
        rw [lives_concat, hlives, chronicle, hbegun]
        rfl
      refine .begun hlives' ?_ ?_
      · rw [run_concat, stops_concat, handed_concat, hsaid, hstops, hhanded, stop?_of_idle hidle]
        exact Owned.begun hidle hbegun hnothing
      · apply finished_concat
        intro a ha
        rw [← course_begun hbegun] at ha
        contradiction

/-- A step of a handle in an interleaving. -/
theorem Progress.handle (h : e.Progress k before)
    (htells : (e.run before).Tells capacity (e.livesFrom ls before)) {a : AsyncHandle}
    {hop : HandleOp} (hone : (e.lives (before ++ [(now, .handle a hop)])).length ≤ 1)
    (hafter : a = .idle ∨ ∃ l' ∈ e.lives before, a ∈ l'.handles)
    (hopen : a ≠ .idle → ∀ time, HandleOp.finish time ∉ saidIn before a)
    (htime : a ≠ .idle → hop ≠ .finish none) :
    e.Progress k (before ++ [(now, .handle a hop)]) := by
  have hself : saidIn (before ++ [(now, .handle a hop)]) a = saidIn before a ++ [hop] := by
    rw [saidIn_concat, Op.saidBy?, if_pos rfl]
    rfl
  have hothers (b : AsyncHandle) (hb : b ≠ a) :
      saidIn (before ++ [(now, .handle a hop)]) b = saidIn before b := by
    rw [saidIn_concat, Op.saidBy?, if_neg hb.symm]
    exact List.append_nil _
  have hstop : e.stops k (before ++ [(now, .handle a hop)]) = e.stops k before := by
    rw [stops_concat]
    exact List.append_nil _
  have hspan := hafter.resolve_left
  cases h with
  | idle hlives hidle hhanded hstops hnothing =>
    -- nothing was prepared yet, so the handle is an idle one
    obtain rfl : a = .idle := by
      by_contra hne
      obtain ⟨l', hl', -⟩ := hspan hne
      rw [hlives] at hl'
      contradiction
    refine .idle ?_ ?_ ?_ ?_ ?_
    · rw [lives_concat, hlives]
      rfl
    · rw [run_concat]
      exact hidle
    · rw [handed_concat, hhanded]
      rfl
    · rw [hstop, hstops]
    · intro n id
      rw [hothers _ fun heq => by contradiction]
      exact hnothing n id
  | begun hlives howned hfinished =>
    next l =>
    obtain ⟨-, hlives'⟩ := lives_eq_of_length_le hlives hone
    have hl : l ∈ e.livesFrom ls before := mem_livesFrom ls (hlives ▸ List.mem_singleton_self l)
    have hlinked := (htells.grounded l hl).linked
    refine .begun hlives' ?_ (finished_concat hfinished)
    rw [run_concat, hstop, handed_concat]
    cases a with
    | idle =>
      have hlive : (e.run before).live now (.handle .idle hop) l = l := by
        refine afterHandle_of_not_mem (fun hmem => ?_) hop _
        obtain ⟨n, id, heq, -⟩ := hlinked.handles _ hmem
        contradiction
      rw [hlive, show ((e.run before).step now (.handle .idle hop)).value.handed = none from rfl,
        Option.toList_none, List.append_nil]
      exact howned.handle_idle hothers
    | span n id =>
      have hne : AsyncHandle.span n id ≠ .idle := fun heq => by contradiction
      obtain ⟨l', hl', hmem⟩ := hspan hne
      rw [hlives] at hl'
      obtain rfl := List.mem_singleton.mp hl'
      -- had it finished, then it would have said so
      refine howned.handle htells hl hmem (fun hdone => ?_) (htime hne) hself hothers
      obtain ⟨time, hsaid⟩ := hfinished _ hdone
      exact hopen hne time hsaid

/-- The lives and the stops in an interleaving are those of the owner alone. -/
theorem Interleaves.course (hs : e.Session k owner calls l)
    (hi : e.Interleaves owner calls l ops) :
    (∃ l', e.lives ops = [l'] ∧ l'.stage = l.stage ∧ l'.handles = l.handles) ∧
      e.stops k ops = e.stops k owner := by
  have hsame : SameCourse e e [] [] := ⟨rfl, rfl⟩
  obtain ⟨hrun, hstops⟩ := hsame.run hi.kinds k
  rw [hi.owner] at hrun hstops
  refine ⟨?_, hstops⟩
  have hcourse : (e.lives ops).map Life.course = [l].map Life.course := by
    rw [← hs.life]
    exact hrun.course
  rw [List.map_singleton, List.map_eq_singleton_iff] at hcourse
  obtain ⟨l', hlives, hsame⟩ := hcourse
  have hstage : l'.course.stage = l.course.stage := by rw [hsame]
  have hhandles : l'.course.handles = l.course.handles := by rw [hsame]
  exact ⟨l', hlives, hstage, hhandles⟩

/-- What a handle says before it has finished. -/
theorem Session.unfinished (hs : e.Session k owner calls l) {a : AsyncHandle} (ha : a ∈ l.handles)
    {said : List HandleOp} {hop : HandleOp} (hsaid : said ++ [hop] <+: calls a) :
    (∀ time, HandleOp.finish time ∉ said) ∧ hop ≠ .finish none := by
  obtain ⟨notes, time, hcalls, hnotes⟩ := hs.calls a ha
  rw [hcalls, List.prefix_concat_iff] at hsaid
  rcases hsaid with hall | hpart
  · obtain ⟨rfl, hlast⟩ := List.append_inj' hall rfl
    refine ⟨hnotes, ?_⟩
    rw [List.singleton_inj.mp hlast]
    exact fun heq => Option.some_ne_none _ (HandleOp.finish.inj heq)
  · refine ⟨fun time' hfinish => hnotes time' ?_, ?_⟩
    · exact hpart.subset (List.mem_append_left _ hfinish)
    · rintro rfl
      exact hnotes none (hpart.subset (List.mem_append_right _ (List.mem_singleton_self _)))

/-- The record only grows, and in the end there is one life in it. -/
theorem Interleaves.length_lives_le (hs : e.Session k owner calls l)
    (hi : e.Interleaves owner calls l ops) {rest : List (UInt64 × Op)}
    (hops : before ++ rest = ops) : (e.lives before).length ≤ 1 := by
  obtain ⟨⟨l', hlives, -⟩, -⟩ := hi.course hs
  have hle := length_le_livesFrom (e.run before) (e.lives before) rest
  rw [← lives_append, hops, hlives] at hle
  exact hle

/-- The handles on the way are those of the session, since the record keeps them. -/
theorem Interleaves.mem_handles (hs : e.Session k owner calls l)
    (hi : e.Interleaves owner calls l ops) {rest : List (UInt64 × Op)}
    (hops : before ++ rest = ops) {l₁ : Life} (hl₁ : l₁ ∈ e.lives before) {a : AsyncHandle}
    (ha : a ∈ l₁.handles) : a ∈ l.handles := by
  obtain ⟨⟨l', hlives, -, hhandles⟩, -⟩ := hi.course hs
  obtain ⟨l₂, hl₂, hkept⟩ := exists_mem_livesFrom (e.run before) hl₁ rest
  rw [← lives_append, hops, hlives] at hl₂
  rw [← hhandles, ← List.mem_singleton.mp hl₂]
  exact hkept a ha

/-- The progress of an interleaving after each of its operations. -/
theorem Interleaves.progress (hs : e.Session k owner calls l) (hi : e.Interleaves owner calls l ops)
    (htells : e.Tells capacity ls) {rest : List (UInt64 × Op)} (hops : before ++ rest = ops) :
    e.Progress k before := by
  -- the induction adds operations at the end, where the interleaving goes on with `rest`
  induction before using List.reverseRecOn generalizing rest with
  | nil => exact .idle rfl hs.idle rfl rfl fun _ _ => rfl
  | append_singleton before timed ih =>
    obtain ⟨now, op⟩ := timed
    rw [List.append_assoc, List.singleton_append] at hops
    have hbefore := ih hops
    have hbefore' := (htells.run before).1
    have hone : (e.lives (before ++ [(now, op)])).length ≤ 1 := by
      have hparts : before ++ [(now, op)] ++ rest = ops := by
        rw [List.append_assoc, List.singleton_append, hops]
      exact hi.length_lives_le hs hparts
    have hmem : (now, op) ∈ ops := by
      rw [← hops]
      exact List.mem_append_right _ List.mem_cons_self
    rcases hi.kinds (now, op) hmem with ⟨k', sop, rfl⟩ | ⟨a, hop, rfl⟩
    · have hown : (now, Op.strand k' sop) ∈ owner := by
        rw [← hi.owner]
        exact List.mem_filter.mpr ⟨hmem, rfl⟩
      obtain ⟨sop', heq⟩ := hs.own _ hown
      obtain ⟨rfl, rfl⟩ := Op.strand.inj heq
      exact hbefore.strand hbefore' hone
    · have hafter := hi.after before.length now a hop (by rw [← hops]; simp)
      rw [← hops, List.take_left] at hafter
      have hunfinished (hne : a ≠ .idle) :
          (∀ time, HandleOp.finish time ∉ saidIn before a) ∧ hop ≠ .finish none := by
        obtain ⟨l₁, hl₁, ha⟩ := hafter.resolve_left hne
        have ha' := hi.mem_handles hs hops hl₁ ha
        refine hs.unfinished ha' ⟨saidIn rest a, ?_⟩
        rw [← hi.said a ha', ← hops]
        unfold saidIn
        rw [List.filterMap_append, List.filterMap_cons_some (b := hop), List.append_assoc]
        · rfl
        · exact if_pos rfl
      exact hbefore.handle hbefore' hone hafter (fun hne => (hunfinished hne).1)
        fun hne => (hunfinished hne).2

/-- The segment of an interleaving is reported, and what it is like depends on the
    owner's own run and on what the handles say. -/
theorem Interleaves.reported (hs : e.Session k owner calls l)
    (hi : e.Interleaves owner calls l ops) (htells : e.Tells capacity ls) :
    ∃ g, e.handed ops = [g] ∧ (e.stops k owner).getLast?.map Stop.cover = some g.cover ∧
      (g.spans.map (·.id)).Nodup ∧
      ∀ id, g.span? id = (((e.stops k owner).filterMap Stop.span?).find? fun x => x.2.id = id).map
        (l.ending calls) := by
  obtain ⟨⟨l', hlives, hstage, hhandles⟩, hstops⟩ := hi.course hs
  rw [hs.sampled] at hstage
  have hl' : l' ∈ e.livesFrom ls ops := mem_livesFrom ls (hlives ▸ List.mem_singleton_self l')
  have hafter := (htells.run ops).1
  have hlinked := (hafter.grounded l' hl').linked
  have hprogress := hi.progress hs htells (List.append_nil ops)
  cases hprogress with
  | idle hnone =>
    rw [hlives] at hnone
    contradiction
  | begun hlives' howned hfinished =>
    next l' =>
    obtain rfl := List.singleton_inj.mp (hlives'.symm.trans hlives)
    rw [hstops] at howned
    generalize e.handed ops = handed at howned ⊢
    cases howned with
    | running hrunning =>
      rw [hstage] at hrunning
      contradiction
    | ignored hignored =>
      rw [hstage] at hignored
      contradiction
    | parked hemptied hidle hparked hcover hcontents =>
      -- all handles have said all, so none is pending
      obtain ⟨o, -, -, hpending⟩ := hafter.parked_custody hl' hstage hparked
      refine absurd (fun a ha => ?_) hpending
      obtain ⟨n, id, rfl, -⟩ := hlinked.handles a ha
      rw [hcontents.finished n id ha, hi.said _ (hhandles ▸ ha)]
      obtain ⟨notes, time, hcalls, -⟩ := hs.calls _ (hhandles ▸ ha)
      rw [hcalls]
      exact ⟨some time, List.mem_append_right _ (List.mem_singleton_self _)⟩
    -- what the handles have said is what they had to say
    | reported hdue hidle hcover hnodup hcontents =>
      next g =>
      refine ⟨g, rfl, hcover, hnodup, fun id => ?_⟩
      rw [hcontents.span?_eq hnodup hlinked id]
      apply Option.map_congr
      intro x hx
      unfold Life.ending
      split
      · next hasync =>
        obtain ⟨n, ha, -⟩ := hcontents.async x (List.mem_of_find?_eq_some hx) hasync
        have hon : l.handleOn x.2.id = .span n x.2.id := by
          rw [Life.handleOn, ← hhandles]
          exact hlinked.handleOn_eq ha
        rw [hlinked.handleOn_eq ha, hon, hi.said _ (hhandles ▸ ha)]
      · rfl

/-- **Handles commute with the owner**: two interleavings of a session report one segment
    each, and these have the same cover and the same spans. Each is the span as the owner
    left it, ended by its handle if it was prepared, and else at the time of its stop. -/
theorem interleavings_agree (config : Config) (reporter : Reporter) (process : String)
    (start : UInt64) (history : List (UInt64 × Op)) (k : Nat) (owner : List (UInt64 × Op))
    (calls : AsyncHandle → List HandleOp) (l : Life) (ops₁ ops₂ : List (UInt64 × Op)) :
    let e := (ofTracer (.start config reporter process start)).run history
    e.Session k owner calls l → e.Interleaves owner calls l ops₁ →
    e.Interleaves owner calls l ops₂ →
    ∃ g₁ g₂, e.handed ops₁ = [g₁] ∧ e.handed ops₂ = [g₂] ∧ g₁.cover = g₂.cover ∧
      g₁.spans.Perm g₂.spans ∧
      ∀ id, g₁.span? id = g₂.span? id ∧
        g₂.span? id = (((e.stops k owner).filterMap Stop.span?).find? fun x => x.2.id = id).map
          (l.ending calls) := by
  intro e hs hi₁ hi₂
  have htells := ((tells_start config reporter process start).run history).1
  obtain ⟨g₁, hhanded₁, hcover₁, hnodup₁, hspan₁⟩ := hi₁.reported hs htells
  obtain ⟨g₂, hhanded₂, hcover₂, hnodup₂, hspan₂⟩ := hi₂.reported hs htells
  have hspans (id : Nat) : g₁.span? id = g₂.span? id := (hspan₁ id).trans (hspan₂ id).symm
  refine ⟨g₁, g₂, hhanded₁, hhanded₂, ?_, ?_, fun id => ⟨hspans id, hspan₂ id⟩⟩
  · exact Option.some.inj (hcover₁.symm.trans hcover₂)
  · rw [List.perm_ext_iff_of_nodup hnodup₁.of_map hnodup₂.of_map]
    intro y
    rw [← Segment.span?_eq_some_iff hnodup₁, ← Segment.span?_eq_some_iff hnodup₂, hspans]

/-- An owner that leaves the end of its only span to a handle. -/
def lendingOwner : List (UInt64 × Op) :=
  [(1, .strand 0 (.inner "a")), (2, .strand 0 .prepareAsync),
    (3, .strand 0 (.edit [.tag "owner" "1"])), (4, .strand 0 (.stop none))]

/-- What the handle says. -/
def lentCalls (h : AsyncHandle) : List HandleOp :=
  if h = .span 0 0 then [.tag "handle" "2", .markFailed, .finish (some 9)] else []

/-- The life of the segment in the record of the owner. -/
def lendingLife : Life where
  segment := "p.0.10000"
  stage := .emptied true
  openings := [⟨1, .inner, none⟩]
  handles := [.span 0 0]

/-- The handle finishes before its span is stopped. -/
def finishedEarly : List (UInt64 × Op) :=
  [(1, .strand 0 (.inner "a")), (2, .strand 0 .prepareAsync),
    (5, .handle (.span 0 0) (.tag "handle" "2")), (5, .handle (.span 0 0) .markFailed),
    (5, .handle (.span 0 0) (.finish (some 9))), (3, .strand 0 (.edit [.tag "owner" "1"])),
    (4, .strand 0 (.stop none))]

/-- The handle says all after its span was stopped. -/
def finishedLate : List (UInt64 × Op) :=
  lendingOwner ++ [(6, .handle (.span 0 0) (.tag "handle" "2")),
    (7, .handle (.span 0 0) .markFailed), (8, .handle (.span 0 0) (.finish (some 9)))]

theorem interleavings_agree_early_late :
    let e := (ofTracer (.start (Config.standard "i") .collecting "p" 0)).run [(0, .openStrand)]
    e.Session 0 lendingOwner lentCalls lendingLife ∧
    e.Interleaves lendingOwner lentCalls lendingLife finishedEarly ∧
    e.Interleaves lendingOwner lentCalls lendingLife finishedLate ∧
    (∃ g₁ g₂, e.handed finishedEarly = [g₁] ∧ e.handed finishedLate = [g₂] ∧
      g₁.cover = g₂.cover ∧ g₁.spans.Perm g₂.spans ∧
      ∀ id, g₁.span? id = g₂.span? id ∧
        g₂.span? id = (((e.stops 0 lendingOwner).filterMap Stop.span?).find?
          fun x => x.2.id = id).map (lendingLife.ending lentCalls)) ∧
    (e.handed finishedEarly).map (·.spans.map fun s => (s.tags, s.failed, s.stop)) =
      [[([("owner", "1"), ("handle", "2")], true, some 9)]] := by
  intro e
  have hs : e.Session 0 lendingOwner lentCalls lendingLife := by
    refine ⟨?_, by decide +kernel, by decide +kernel, rfl, ?_⟩
    · simp [lendingOwner]
    · intro h hh
      obtain rfl := List.mem_singleton.mp hh
      exact ⟨[.tag "handle" "2", .markFailed], 9, rfl, by simp⟩
  have hearly : e.Interleaves lendingOwner lentCalls lendingLife finishedEarly := by
    refine ⟨by simp [finishedEarly], rfl, by decide +kernel, ?_⟩
    intro i now h op hget
    have hplace : (i = 2 ∨ i = 3 ∨ i = 4) ∧ h = .span 0 0 := by
      rcases i with _ | _ | _ | _ | _ | _ | _ | i
      all_goals simp_all [finishedEarly]
    obtain ⟨rfl | rfl | rfl, rfl⟩ := hplace
    all_goals exact .inr (by decide +kernel)
  have hlate : e.Interleaves lendingOwner lentCalls lendingLife finishedLate := by
    refine ⟨by simp [finishedLate, lendingOwner], rfl, by decide +kernel, ?_⟩
    intro i now h op hget
    have hplace : (i = 4 ∨ i = 5 ∨ i = 6) ∧ h = .span 0 0 := by
      rcases i with _ | _ | _ | _ | _ | _ | _ | i
      all_goals simp_all [finishedLate, lendingOwner]
    obtain ⟨rfl | rfl | rfl, rfl⟩ := hplace
    all_goals exact .inr (by decide +kernel)
  exact ⟨hs, hearly, hlate,
    interleavings_agree _ _ _ _ [(0, .openStrand)] 0 lendingOwner lentCalls lendingLife
      finishedEarly finishedLate hs hearly hlate, by decide +kernel⟩

end Engine

end TraceLink
