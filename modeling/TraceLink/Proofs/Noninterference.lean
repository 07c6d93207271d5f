import Mathlib.Data.List.Induction
import TraceLink.Proofs.MatchedWorkplaces

/-! # Strands do not interfere

    The strands of an engine share the source of ids, the gate, the counters, the ledgers
    and the reporter. Without a limit on the rate of sampling, and as long as the settings
    of the tracer stay, a strand cannot tell whether others take turns between its own: it
    is answered the same, hands over the same segments, and is left in the same state, up
    to the names of its segments. -/

namespace TraceLink

namespace Workplace

/-! ### Runs -/

/-- The workplace of an engine whose strands were given no handles. -/
def of (e : Engine) : Workplace := ⟨e, []⟩

/-- The turns of the strand at place `k`. -/
def part (k : Nat) (xs : List Turn) : List Turn := xs.filter (·.place = k)

/-- The workplace after a list of turns. -/
def run (w : Workplace) : List Turn → Workplace
  | [] => w
  | x :: xs => (w.turn x).state.run xs

/-- The answers to the turns of the strand at place `k`, with the segments that are handed
    to the reporter in them, in order. -/
def answers (w : Workplace) (k : Nat) : List Turn → List (Reply × Option Segment)
  | [] => []
  | x :: xs =>
    let o := w.turn x
    if x.place = k then (o.reply, o.handed) :: o.state.answers k xs else o.state.answers k xs

/-- The names of the segments that the strand at place `k` begins in a run, in order. -/
def names (w : Workplace) (k : Nat) : List Turn → List Names
  | [] => []
  | x :: xs =>
    let rest := (w.turn x).state.names k xs
    if x.place = k then (w.begins x).toList ++ rest else rest

/-- What is counted in each turn, with the place of the strand. -/
def tallies (w : Workplace) : List Turn → List (Nat × Counters)
  | [] => []
  | x :: xs =>
    let w₁ := (w.turn x).state
    (x.place, w₁.engine.tracer.counters.since w.engine.tracer.counters) :: w₁.tallies xs

/-- The names and the handles that the strand at place `k` gets in two runs, in order. -/
def matching (w : Workplace) (k : Nat) (xs ys : List Turn) : Matching where
  names := (w.names k xs).zip (w.names k ys)
  handles := ((w.run xs).handles k).zip ((w.run ys).handles k)

/-- No snapshot that a strand receives in the run names a segment that it begins there. -/
def Foreign (w : Workplace) (xs : List Turn) : Prop :=
  ∀ x ∈ xs, ∀ s ∈ x.act.snapshot?, ∀ ν ∈ w.names x.place xs, s.segment ≠ ν.segment

instance (w : Workplace) (xs : List Turn) : Decidable (w.Foreign xs) :=
  inferInstanceAs (Decidable (∀ x ∈ xs, ∀ s ∈ x.act.snapshot?, ∀ ν ∈ w.names x.place xs, _))

/-- Answers that are the same but for matched names and handles. -/
def AnswersAlike (m : Matching) (as as' : List (Reply × Option Segment)) : Prop :=
  List.Forall₂ (fun a a' => Reply.Alike m a.1 a'.1 ∧ Option.Rel (Segment.Alike m) a.2 a'.2) as as'

/-- **Two runs that the strand at place `k` cannot tell apart**: its segments, its handles,
    its answers and its state are the same, but for names that stand at the same place in
    both. -/
structure Undisturbed (w : Workplace) (k : Nat) (xs ys : List Turn) : Prop where
  names : (w.names k xs).length = (w.names k ys).length
  answers : AnswersAlike (w.matching k xs ys) (w.answers k xs) (w.answers k ys)
  strand : Option.Rel (Strand.Alike (w.matching k xs ys)) ((w.run xs).engine.strand? k)
    ((w.run ys).engine.strand? k)
  handles : List.Forall₂
    (AsyncHandle.Alike (w.matching k xs ys) (w.run xs).engine.tracer (w.run ys).engine.tracer)
    ((w.run xs).handles k) ((w.run ys).handles k)

namespace AnswersAlike

variable {m m' : Matching} {as as' : List (Reply × Option Segment)}

theorem mono (hm : m.Within m') (h : AnswersAlike m as as') : AnswersAlike m' as as' :=
  h.imp fun _ _ hanswer =>
    ⟨hanswer.1.mono hm, rel_imp (Segment.Alike.mono hm) hanswer.2⟩

theorem append (h : AnswersAlike m as as') {a a' : Reply × Option Segment}
    (ha : Reply.Alike m a.1 a'.1 ∧ Option.Rel (Segment.Alike m) a.2 a'.2) :
    AnswersAlike m (as ++ [a]) (as' ++ [a']) :=
  List.rel_append h (.cons ha .nil)

end AnswersAlike

/-! ### Runs in two parts -/

section Runs

variable (w : Workplace) (k : Nat) (xs ys : List Turn)

theorem run_append : w.run (xs ++ ys) = (w.run xs).run ys := by
  induction xs generalizing w with
  | nil => rfl
  | cons x xs ih => exact ih _

theorem answers_append :
    w.answers k (xs ++ ys) = w.answers k xs ++ (w.run xs).answers k ys := by
  induction xs generalizing w with
  | nil => rfl
  | cons x xs ih =>
    simp only [List.cons_append, answers, run, ih]
    split <;> rfl

theorem names_append : w.names k (xs ++ ys) = w.names k xs ++ (w.run xs).names k ys := by
  induction xs generalizing w with
  | nil => rfl
  | cons x xs ih =>
    simp only [List.cons_append, names, run, ih]
    split
    · rw [List.append_assoc]
    · rfl

theorem tallies_append : w.tallies (xs ++ ys) = w.tallies xs ++ (w.run xs).tallies ys := by
  induction xs generalizing w with
  | nil => rfl
  | cons x xs ih => exact congrArg (_ :: ·) (ih _)

variable {w xs} {k}

theorem part_own {x : Turn} (hx : x.place = k) : part k (xs ++ [x]) = part k xs ++ [x] := by
  unfold part
  rw [List.filter_append, List.filter_cons_of_pos (by simpa using hx), List.filter_nil]

theorem part_other {x : Turn} (hx : x.place ≠ k) : part k (xs ++ [x]) = part k xs := by
  unfold part
  rw [List.filter_append, List.filter_cons_of_neg (by simpa using hx), List.filter_nil,
    List.append_nil]

theorem Foreign.left (h : w.Foreign (xs ++ ys)) : w.Foreign xs := by
  intro x hx s hs ν hν
  refine h x (List.mem_append_left _ hx) s hs ν ?_
  rw [names_append]
  exact List.mem_append_left _ hν

theorem Tidy.run (hw : w.Tidy) (xs : List Turn) : (w.run xs).Tidy := by
  induction xs generalizing w with
  | nil => exact hw
  | cons x xs ih => exact ih ((footprint_turn hw x).tidy hw)

/-- The last snapshot names no segment that began before it. -/
theorem Foreign.last {x : Turn} (h : w.Foreign (xs ++ [x])) (hx : x.place = k) {s : Snapshot}
    (hs : s ∈ x.act.snapshot?) {ν : Names} (hν : ν ∈ w.names k xs) : s.segment ≠ ν.segment := by
  refine h x (List.mem_append_right _ (List.mem_singleton_self x)) s hs ν ?_
  rw [hx, names_append]
  exact List.mem_append_left _ hν

theorem answers_own {x : Turn} (hx : x.place = k) :
    w.answers k [x] = [((w.turn x).reply, (w.turn x).handed)] := if_pos hx

theorem answers_other {x : Turn} (hx : x.place ≠ k) : w.answers k [x] = [] := if_neg hx

theorem names_own {x : Turn} (hx : x.place = k) : w.names k [x] = (w.begins x).toList :=
  (if_pos hx).trans (List.append_nil _)

theorem names_other {x : Turn} (hx : x.place ≠ k) : w.names k [x] = [] := if_neg hx

/-- What is counted in the turns adds up to the counters. -/
theorem counters_run (w : Workplace) (xs : List Turn) :
    (w.run xs).engine.tracer.counters =
      (w.tallies xs).foldl (fun c a => c.plus a.2) w.engine.tracer.counters := by
  induction xs generalizing w with
  | nil => rfl
  | cons x xs ih => rw [run, tallies, List.foldl_cons, ih, Counters.plus_since]

end Runs

/-! ### Abreast -/

/-- **A strand keeps abreast** in two runs. In the second one it is alone. -/
structure Abreast (w : Workplace) (k : Nat) (xs ys : List Turn) : Prop where
  alike : ∃ gap, Alike k (w.matching k xs ys) gap (w.run xs) (w.run ys)
  names : (w.names k xs).length = (w.names k ys).length
  answers : AnswersAlike (w.matching k xs ys) (w.answers k xs) (w.answers k ys)
  tallies : (w.tallies xs).filter (·.1 = k) = w.tallies ys

namespace Abreast

variable {w : Workplace} {k : Nat} {xs ys : List Turn}

theorem start {e : Engine} (hidle : ∀ s, e.strand? k = some s → s.active = none)
    (hrate : e.tracer.gate.window.rate ≤ 0) : Abreast (of e) k [] [] where
  alike := by
    refine ⟨e.tracer.counters.since e.tracer.counters, ?_, ?_, rfl, rfl⟩
    · exact {
        config := rfl
        suffixes := rfl
        rate := hrate
        rate' := hrate
        counters := (Counters.plus_since _ _).symm
        handles := fun a ha => by contradiction
        bound := fun hpairs => by
          obtain ⟨id, hmem⟩ := hpairs
          contradiction
        oneToOne := fun hpairs => by
          obtain ⟨id, hmem⟩ := hpairs
          contradiction }
    · show Option.Rel _ (e.strand? k) (e.strand? k)
      cases hstrand : e.strand? k with
      | none => exact .none
      | some s => exact .some ⟨rfl, (hidle s hstrand).symm ▸ .none, rfl, rfl⟩
  names := rfl
  answers := .nil
  tallies := rfl

/-- The strand takes its turn in both runs. -/
theorem own (h : Abreast w k xs ys) {x : Turn} (hx : x.place = k)
    (hforeign : ∀ s ∈ x.act.snapshot?, ∀ ν ∈ (w.matching k xs ys).names,
      s.segment ≠ ν.1.segment ∧ s.segment ≠ ν.2.segment) :
    Abreast w k (xs ++ [x]) (ys ++ [x]) := by
  obtain ⟨⟨gap, halike⟩, hnames, hanswers, htallies⟩ := h
  obtain ⟨⟨hreply, hhanded, hstate⟩, hbegins, -⟩ := halike.turn hx hforeign
  -- what the turn gives to the strand stands behind what was matched before it
  have hmatching : w.matching k (xs ++ [x]) (ys ++ [x]) =
      (w.matching k xs ys).joined ((w.run xs).begins x) ((w.run ys).begins x)
        (x.act.given? ((w.run xs).turn x).reply) (x.act.given? ((w.run ys).turn x).reply) := by
    unfold matching
    rw [run_append, run_append, names_append, names_append, names_own hx, names_own hx,
      List.zip_append hnames]
    exact congrArg (Matching.mk _) hstate.handles.symm
  have hwithin : (w.matching k xs ys).Within (w.matching k (xs ++ [x]) (ys ++ [x])) :=
    hmatching ▸ Matching.within_joined _ _ _ _ _
  rw [← hmatching] at hreply hhanded hstate
  refine ⟨⟨gap, ?_⟩, ?_, ?_, ?_⟩
  · rw [run_append, run_append]
    exact hstate
  · rw [names_append, names_append, names_own hx, names_own hx, List.length_append,
      List.length_append, Option.length_toList, Option.length_toList, hnames, hbegins]
  · rw [answers_append, answers_append, answers_own hx, answers_own hx]
    exact (hanswers.mono hwithin).append ⟨hreply, hhanded⟩
  -- the gap is the same before the turn and after it
  · have hsince : ((w.run xs).turn x).state.engine.tracer.counters.since
          (w.run xs).engine.tracer.counters =
        ((w.run ys).turn x).state.engine.tracer.counters.since
          (w.run ys).engine.tracer.counters := by
      rw [hstate.tracer.counters, halike.tracer.counters, Counters.since_plus]
    rw [tallies_append, tallies_append, List.filter_append, htallies]
    refine congrArg (_ ++ ·) ?_
    simp only [Workplace.tallies, hsince]
    exact List.filter_cons_of_pos (decide_eq_true hx)

/-- Another strand takes its turn in the first run. -/
theorem other (h : Abreast w k xs ys) (hw : w.Tidy) {x : Turn} (hx : x.place ≠ k) :
    Abreast w k (xs ++ [x]) ys := by
  obtain ⟨⟨gap, halike⟩, hnames, hanswers, htallies⟩ := h
  have hfoot := footprint_turn (hw.run xs) x
  have hmatching : w.matching k (xs ++ [x]) ys = w.matching k xs ys := by
    unfold matching
    rw [names_append, names_other hx, List.append_nil, run_append]
    exact congrArg (Matching.mk _ <| List.zip · _) (hfoot.handles (Ne.symm hx))
  refine ⟨?_, ?_, ?_, ?_⟩
  · rw [hmatching, run_append]
    exact ⟨_, halike.other (hw.run xs) hx hfoot⟩
  · rw [names_append, names_other hx, List.append_nil]
    exact hnames
  · rw [hmatching, answers_append, answers_other hx, List.append_nil]
    exact hanswers
  · rw [tallies_append, List.filter_append, htallies]
    have hnone : ((w.run xs).tallies [x]).filter (·.1 = k) = [] :=
      List.filter_cons_of_neg (by simpa using hx)
    rw [hnone, List.append_nil]

theorem undisturbed (h : Abreast w k xs ys) : Undisturbed w k xs ys where
  names := h.names
  answers := h.answers
  strand := by
    obtain ⟨gap, halike⟩ := h.alike
    exact halike.strand
  handles := by
    obtain ⟨gap, halike⟩ := h.alike
    exact List.forall₂_iff_zip.mpr
      ⟨halike.length, fun {a b} hmem => halike.tracer.handles (a, b) hmem⟩

end Abreast

/-- **The strand keeps abreast** of itself alone, as long as it gets no snapshot of its own
    segments. -/
theorem abreast {e : Engine} {k : Nat} (hw : (of e).Tidy)
    (hidle : ∀ s, e.strand? k = some s → s.active = none)
    (hrate : e.tracer.gate.window.rate ≤ 0) (xs : List Turn) (hforeign : (of e).Foreign xs)
    (halone : (of e).Foreign (part k xs)) : Abreast (of e) k xs (part k xs) := by
  -- by induction on the run from its end, so that the runs before the last turn are compared
  induction xs using List.reverseRecOn with
  | nil => exact .start hidle hrate
  | append_singleton xs x ih =>
    by_cases hx : x.place = k
    · rw [part_own hx] at halone ⊢
      refine (ih hforeign.left halone.left).own hx fun s hs ν hν => ?_
      obtain ⟨hν, hν'⟩ := List.of_mem_zip hν
      exact ⟨hforeign.last hx hs hν, halone.last hx hs hν'⟩
    · rw [part_other hx] at halone ⊢
      exact (ih hforeign.left halone).other hw hx

/-- No ledger belongs to a strand as long as no segment is open. -/
theorem tidy_of {e : Engine} (hidle : ∀ k s, e.strand? k = some s → s.active = none) :
    (of e).Tidy where
  bound hn := by
    obtain ⟨id, hmem⟩ := hn
    contradiction
  apart hn := by
    obtain ⟨id, hmem⟩ := hn
    contradiction
  own {k s n} hs hledger := by
    unfold Strand.ledger? at hledger
    rw [hidle k s hs] at hledger
    contradiction

/-- A list is known, up to its order, from what stands at each place. -/
theorem perm_of_places {as bs : List (Nat × Counters)}
    (h : ∀ k, as.filter (·.1 = k) = bs.filter (·.1 = k)) : as.Perm bs := by
  refine List.perm_iff_count.mpr fun a => ?_
  have hplace (cs : List (Nat × Counters)) : (cs.filter (·.1 = a.1)).count a = cs.count a :=
    List.count_filter (decide_eq_true rfl)
  rw [← hplace as, ← hplace bs, h]

/-- **Noninterference**: without a limit on the rate of sampling, no strand is disturbed
    by the others, and the final counters do not depend on the order in which they take
    their turns.

    The strands may receive any carriers, and any snapshots but those of their own
    segments. -/
theorem strands_do_not_interfere (e : Engine) (xs : List Turn)
    (hidle : ∀ k s, e.strand? k = some s → s.active = none)
    (hrate : e.tracer.gate.window.rate ≤ 0) (hforeign : (of e).Foreign xs)
    (halone : ∀ k, (of e).Foreign (part k xs)) :
    (∀ k, (of e).Undisturbed k xs (part k xs)) ∧
    ∀ ys, (∀ k, part k ys = part k xs) → (of e).Foreign ys →
      ((of e).run ys).engine.tracer.counters = ((of e).run xs).engine.tracer.counters := by
  have hw := tidy_of hidle
  have habreast (k : Nat) := abreast hw (hidle k) hrate xs hforeign (halone k)
  refine ⟨fun k => (habreast k).undisturbed, fun ys hparts hforeign' => ?_⟩
  have habreast' (k : Nat) : Abreast (of e) k ys (part k ys) :=
    abreast hw (hidle k) hrate ys hforeign' (hparts k ▸ halone k)
  -- the strands count the same in their turns, in whatever order these are taken
  have hperm : ((of e).tallies ys).Perm ((of e).tallies xs) := by
    refine perm_of_places fun k => ?_
    rw [(habreast k).tallies, (habreast' k).tallies, hparts k]
  have : RightCommutative fun (c : Counters) (a : Nat × Counters) => c.plus a.2 :=
    ⟨fun c a b => c.plus_right_comm a.2 b.2⟩
  rw [counters_run, counters_run]
  exact hperm.foldl_eq _

/-- An engine with two strands. -/
def twoStrands : Engine :=
  (Engine.ofTracer (.start (Config.standard "i") .collecting "p" 0)).run
    [(0, .openStrand), (0, .openStrand)]

/-- A snapshot of a segment of another process. -/
def elsewhere : Snapshot := .sampled ⟨"trace-1", "parent-1", 3, none, .empty .standard, .none⟩

/-- The turns of the two strands: one finishes a span when its segment has ended already,
    the other one sends a carrier, and loses its segment. -/
def shift : List Turn :=
  [⟨1, 0, .own (.entry "/orders" none)⟩, ⟨1, 1, .own (.innerWith "job" elsewhere)⟩,
    ⟨2, 0, .own .prepareAsync⟩, ⟨3, 1, .own (.exit "charge" "bank:443" (some (.empty "sw8")))⟩,
    ⟨4, 0, .own (.stop none)⟩, ⟨5, 1, .leave⟩, ⟨6, 0, .handle 0 (.finish none)⟩, ⟨7, 0, .leave⟩]

/-- The same turns, all of the one strand after all of the other one. -/
def shiftByShift : List Turn := part 1 shift ++ part 0 shift

theorem shift_undisturbed :
    (∀ k, (of twoStrands).Undisturbed k shift (part k shift)) ∧
      (of twoStrands).names 1 shift ≠ (of twoStrands).names 1 (part 1 shift) ∧
      ((of twoStrands).answers 0 shift).filterMap (·.2) ≠ [] ∧
      ((of twoStrands).run shiftByShift).engine.tracer.counters =
        ((of twoStrands).run shift).engine.tracer.counters := by
  have hidle : ∀ k s, twoStrands.strand? k = some s → s.active = none := by
    have hall : ∀ s ∈ twoStrands.strands, ∀ s' ∈ s, s'.active = none := by decide +kernel
    intro k s hs
    exact hall _ (List.mem_of_getElem? (Option.join_eq_some_iff.mp hs)) s rfl
  have halone : ∀ k, (of twoStrands).Foreign (part k shift) := by
    intro k
    rcases k with _ | _ | k
    · decide +kernel
    · decide +kernel
    · exact fun x hx => by contradiction
  have hparts : ∀ k, part k shiftByShift = part k shift := by
    intro k
    rcases k with _ | _ | k <;> rfl
  obtain ⟨hundisturbed, hcounters⟩ := strands_do_not_interfere twoStrands shift hidle
    (by decide +kernel) (by decide +kernel) halone
  have hnames : (of twoStrands).names 1 shift ≠ (of twoStrands).names 1 (part 1 shift) := by
    decide +kernel
  have hreports : ((of twoStrands).answers 0 shift).filterMap (·.2) ≠ [] := by decide +kernel
  exact ⟨hundisturbed, hnames, hreports, hcounters shiftByShift hparts (by decide +kernel)⟩

end Workplace

end TraceLink
