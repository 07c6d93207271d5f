import Mathlib.Data.List.Nodup
import Mathlib.Logic.Relation
import TraceLink.Proofs.Outline

/-! # Intervals that nest

    What the clock says of a span is its *interval*: when it began, inside which span,
    and when it ended. The spans of a segment are opened and stopped on a stack, so of
    two intervals one lies inside the other, or the later one begins after the earlier
    one has ended.

    The spans that have ended, in the order of their ends, are followed by the open
    ones, the innermost first. In this order a span comes before the spans that it is
    inside of. Opening a span puts it between the two parts, and stopping one moves the
    border by one place, so the order of the spans that are there stays as it is. -/

namespace TraceLink

/-! ### Intervals -/

/-- **Interval** of a span. -/
structure Interval where
  id : Nat
  parent : Option Nat
  start : UInt64
  /-- None while the span is open. -/
  stop : Option UInt64

/-- The interval of a span. -/
def Span.interval (s : Span) : Interval := ⟨s.id, s.parent, s.start, s.stop⟩

/-- The interval of an open span. -/
def Mark.interval (m : Mark) : Interval := ⟨m.origin.id, m.origin.parent, m.origin.start, none⟩

namespace Interval

/-- **Enclosing**: among these intervals, the one with the id `i` is the parent of the
    one with the id `j`, or the parent of its parent, and so on. -/
def Encloses (as : List Interval) : Nat → Nat → Prop :=
  Relation.TransGen fun i j => ∃ a ∈ as, a.id = j ∧ a.parent = some i

/-- **Ending first**: the other one encloses this one, or begins after this one has
    ended. -/
def EndsFirst (as : List Interval) (a b : Interval) : Prop :=
  Encloses as b.id a.id ∨
    a.id < b.id ∧ b.parent ≠ some a.id ∧ ∃ t, a.stop = some t ∧ t ≤ b.start

variable {as as' : List Interval} {a b c : Interval}

theorem Encloses.mono (h : ∀ a ∈ as, ∃ a' ∈ as', a'.id = a.id ∧ a'.parent = a.parent)
    {i j : Nat} (hij : Encloses as i j) : Encloses as' i j := by
  refine Relation.TransGen.mono ?_ _ _ hij
  rintro i j ⟨a, ha, rfl, hparent⟩
  obtain ⟨a', ha', hid, hparent'⟩ := h a ha
  exact ⟨a', ha', hid, hparent'.trans hparent⟩

theorem EndsFirst.mono (h : ∀ a ∈ as, ∃ a' ∈ as', a'.id = a.id ∧ a'.parent = a.parent)
    (hab : EndsFirst as a b) : EndsFirst as' a b := by
  cases hab with
  | inl hinside => exact .inl (hinside.mono h)
  | inr hbefore => exact .inr hbefore

/-- The end of the later one plays no part. -/
theorem EndsFirst.congr_right (h : EndsFirst as a b) (hid : c.id = b.id)
    (hparent : c.parent = b.parent) (hstart : c.start = b.start) : EndsFirst as a c := by
  unfold EndsFirst at h ⊢
  rw [hid, hparent, hstart]
  exact h

/-- What comes after an open one encloses it. -/
theorem EndsFirst.encloses (h : EndsFirst as a b) (hopen : a.stop = none) :
    Encloses as b.id a.id := by
  cases h with
  | inl hinside => exact hinside
  | inr hbefore =>
    obtain ⟨-, -, t, hstop, -⟩ := hbefore
    rw [hopen] at hstop
    contradiction

end Interval

/-! ### Families -/

namespace Interval

/-- The interval, as it was when it began. -/
def begun (a : Interval) : Interval := { a with stop := none }

theorem eq_of_begun {a b : Interval} (h : a.begun = b.begun) :
    a.id = b.id ∧ a.parent = b.parent ∧ a.start = b.start := by
  unfold begun at h
  obtain ⟨hid, hparent, hstart, -⟩ := Interval.mk.inj h
  exact ⟨hid, hparent, hstart⟩

/-- The interval that begins now, inside the innermost one that is open. -/
def fresh (now : UInt64) (next : Nat) (running : List Interval) : Interval :=
  ⟨next, running.head?.map Interval.id, now, none⟩

/-- **Family** of intervals that have begun up to `now`: their ids are in the order in
    which they began, and each one is inside an earlier one, or inside none. -/
structure Family (now : UInt64) (next : Nat) (as : List Interval) : Prop where
  ids : (as.map Interval.id).Nodup
  lt : ∀ a ∈ as, a.id < next
  parents : ∀ a ∈ as, ∀ p, a.parent = some p → p < a.id ∧ ∃ b ∈ as, b.id = p
  starts : ∀ a ∈ as, ∀ b ∈ as, a.id ≤ b.id → a.start ≤ b.start
  started : ∀ a ∈ as, a.start ≤ now

/-- Where the intervals began is the same, in whatever order they are. -/
def SameBegun (as as' : List Interval) : Prop := (as.map begun).Perm (as'.map begun)

theorem SameBegun.exists_of_mem (h : SameBegun as as') (ha : a ∈ as) :
    ∃ a' ∈ as', a'.begun = a.begun :=
  List.mem_map.mp (h.subset (List.mem_map_of_mem ha))

/-- Only where the intervals began counts for what they enclose. -/
theorem SameBegun.encloses (h : SameBegun as as') {i j : Nat} (hij : Encloses as i j) :
    Encloses as' i j := by
  refine hij.mono fun a ha => ?_
  obtain ⟨a', ha', hbegun⟩ := h.exists_of_mem ha
  obtain ⟨hid, hparent, -⟩ := eq_of_begun hbegun
  exact ⟨a', ha', hid, hparent⟩

variable {now now' : UInt64} {next : Nat}

namespace Family

theorem eq_of_id (h : Family now next as) (ha : a ∈ as) (hb : b ∈ as) (hid : a.id = b.id) :
    a = b :=
  List.inj_on_of_nodup_map h.ids ha hb hid

/-- What encloses another one began before it. -/
theorem lt_of_encloses (h : Family now next as) {i j : Nat} (hij : Encloses as i j) : i < j := by
  have hstep {i j : Nat} (hlink : ∃ a ∈ as, a.id = j ∧ a.parent = some i) : i < j := by
    obtain ⟨a, ha, rfl, hparent⟩ := hlink
    exact (h.parents a ha i hparent).1
  induction hij with
  | single hlink => exact hstep hlink
  | tail _ hlink ih => exact Nat.lt_trans ih (hstep hlink)

theorem congr (h : Family now next as) (hsame : SameBegun as as') : Family now next as' := by
  -- every interval of the one list began as one of the other
  have hback (a : Interval) (ha : a ∈ as') :
      ∃ b ∈ as, b.id = a.id ∧ b.parent = a.parent ∧ b.start = a.start := by
    obtain ⟨b, hb, hbegun⟩ := SameBegun.exists_of_mem hsame.symm ha
    exact ⟨b, hb, eq_of_begun hbegun⟩
  refine ⟨?_, fun a ha => ?_, fun a ha p hp => ?_, fun a ha b hb hle => ?_, fun a ha => ?_⟩
  · have hids := hsame.map Interval.id
    rw [List.map_map, List.map_map] at hids
    exact hids.nodup_iff.mp h.ids
  · obtain ⟨b, hb, hid, -⟩ := hback a ha
    exact hid ▸ h.lt b hb
  · obtain ⟨b, hb, hid, hparent, -⟩ := hback a ha
    obtain ⟨hlt, c, hc, rfl⟩ := h.parents b hb p (hparent.trans hp)
    obtain ⟨c', hc', hbegun⟩ := hsame.exists_of_mem hc
    exact ⟨hid ▸ hlt, c', hc', (eq_of_begun hbegun).1⟩
  · obtain ⟨a', ha', hid, -, hstart⟩ := hback a ha
    obtain ⟨b', hb', hid', -, hstart'⟩ := hback b hb
    rw [← hstart, ← hstart']
    exact h.starts a' ha' b' hb' (by rwa [hid, hid'])
  · obtain ⟨b, hb, -, -, hstart⟩ := hback a ha
    exact hstart ▸ h.started b hb

theorem later (h : Family now next as) (hle : now ≤ now') : Family now' next as where
  ids := h.ids
  lt := h.lt
  parents := h.parents
  starts := h.starts
  started := fun a ha => UInt64.le_trans (h.started a ha) hle

/-- One more interval begins, inside one that is there, or inside none. -/
theorem cons (h : Family now next as) {running : List Interval}
    (hrunning : ∀ a ∈ running, a ∈ as) : Family now (next + 1) (fresh now next running :: as) where
  ids := by
    rw [List.map_cons, List.nodup_cons]
    refine ⟨fun hnext => ?_, h.ids⟩
    obtain ⟨a, ha, hid⟩ := List.mem_map.mp hnext
    exact Nat.ne_of_lt (h.lt a ha) hid
  lt := by
    intro a ha
    cases List.mem_cons.mp ha with
    | inl hfresh => exact hfresh ▸ Nat.lt_succ_self next
    | inr hold => exact Nat.lt_succ_of_lt (h.lt a hold)
  parents := by
    intro a ha p hp
    cases List.mem_cons.mp ha with
    | inl hfresh =>
      subst hfresh
      obtain ⟨top, htop, rfl⟩ := Option.map_eq_some_iff.mp hp
      have hmem := hrunning top (List.mem_of_mem_head? htop)
      exact ⟨h.lt top hmem, top, List.mem_cons_of_mem _ hmem, rfl⟩
    | inr hold =>
      obtain ⟨hlt, b, hb, hid⟩ := h.parents a hold p hp
      exact ⟨hlt, b, List.mem_cons_of_mem _ hb, hid⟩
  starts := by
    intro a ha b hb hle
    cases List.mem_cons.mp hb with
    | inl hfresh =>
      rw [hfresh]
      cases List.mem_cons.mp ha with
      | inl hfresh' =>
        rw [hfresh']
        exact UInt64.le_refl now
      | inr hold => exact h.started a hold
    | inr hold =>
      cases List.mem_cons.mp ha with
      | inl hfresh =>
        -- the new id is above all others
        rw [hfresh] at hle
        exact absurd hle (Nat.not_le_of_lt (h.lt b hold))
      | inr hold' => exact h.starts a hold' b hold hle
  started := by
    intro a ha
    cases List.mem_cons.mp ha with
    | inl hfresh => exact hfresh ▸ UInt64.le_refl now
    | inr hold => exact h.started a hold

end Family

end Interval

open TraceLink.Interval

/-! ### Nested intervals -/

/-- **Nested** intervals at the time `now`: those that have `ended`, in the order of
    their ends, and those that are `running`, the innermost first. The next id is
    `next`. -/
structure Nested (now : UInt64) (next : Nat) (ended running : List Interval) : Prop where
  family : Family now next (ended ++ running)
  order : (ended ++ running).Pairwise (EndsFirst (ended ++ running))
  /-- What has ended did so after it began, and not later than now. -/
  timely : ∀ a ∈ ended, ∃ t, a.stop = some t ∧ a.start ≤ t ∧ t ≤ now
  stops : ended.Pairwise fun a b => ∀ t u, a.stop = some t → b.stop = some u → t ≤ u
  unended : ∀ a ∈ running, a.stop = none

namespace Nested

variable {now now' : UInt64} {next : Nat} {ended running : List Interval} {a b : Interval}

theorem nil (now : UInt64) : Nested now 0 [] [] where
  family := ⟨.nil, fun a ha => by contradiction, fun a ha => by contradiction,
    fun a ha => by contradiction, fun a ha => by contradiction⟩
  order := .nil
  timely := fun a ha => by contradiction
  stops := .nil
  unended := fun a ha => by contradiction

/-- Time passes. -/
theorem later (h : Nested now next ended running) (hle : now ≤ now') :
    Nested now' next ended running where
  family := h.family.later hle
  order := h.order
  timely := by
    intro a ha
    obtain ⟨t, hstop, hstart, ht⟩ := h.timely a ha
    exact ⟨t, hstop, hstart, UInt64.le_trans ht hle⟩
  stops := h.stops
  unended := h.unended

/-- What has ended is not open. -/
theorem ne_of_mem (h : Nested now next ended running) (ha : a ∈ ended) (hb : b ∈ running) :
    a.id ≠ b.id := by
  intro hid
  obtain rfl := h.family.eq_of_id (List.mem_append_left _ ha) (List.mem_append_right _ hb) hid
  obtain ⟨t, hstop, -⟩ := h.timely a ha
  rw [h.unended a hb] at hstop
  contradiction

/-- The innermost open interval is enclosed by all open ones below it. -/
theorem encloses_top (h : Nested now next ended (a :: running)) (hb : b ∈ running) :
    Encloses (ended ++ a :: running) b.id a.id := by
  have horder := (List.pairwise_append.mp h.order).2.1
  exact ((List.pairwise_cons.mp horder).1 b hb).encloses (h.unended a List.mem_cons_self)

/-! ### Opening -/

theorem mem_opened (a : Interval) : a ∈ ended ++ fresh now next running :: running ↔
    a = fresh now next running ∨ a ∈ ended ++ running :=
  List.perm_middle.mem_iff.trans List.mem_cons

/-- What was there is there after a span was opened. -/
theorem exists_opened (ha : a ∈ ended ++ running) :
    ∃ a' ∈ ended ++ fresh now next running :: running, a'.id = a.id ∧ a'.parent = a.parent :=
  ⟨a, (mem_opened a).mpr (.inr ha), rfl, rfl⟩

/-- The open intervals enclose the one that begins. -/
theorem encloses_fresh (h : Nested now next ended running) (hb : b ∈ running) :
    Encloses (ended ++ fresh now next running :: running) b.id next := by
  cases running with
  | nil => contradiction
  | cons top rest =>
    have hlink : ∃ a ∈ ended ++ fresh now next (top :: rest) :: top :: rest,
        a.id = next ∧ a.parent = some top.id :=
      ⟨_, List.mem_append_right _ List.mem_cons_self, rfl, rfl⟩
    rcases List.mem_cons.mp hb with htop | hrest
    · rw [htop]
      exact .single hlink
    · -- what encloses the innermost one encloses what begins inside of it
      exact .tail ((h.encloses_top hrest).mono fun a ha => exists_opened ha) hlink

/-- What has ended did so before the one that begins, and is not its parent. -/
theorem endsFirst_fresh (h : Nested now next ended running) (ha : a ∈ ended) (as : List Interval) :
    EndsFirst as a (fresh now next running) := by
  obtain ⟨t, hstop, -, ht⟩ := h.timely a ha
  refine .inr ⟨h.family.lt a (List.mem_append_left _ ha), fun hparent => ?_, t, hstop, ht⟩
  obtain ⟨top, htop, hid⟩ := Option.map_eq_some_iff.mp hparent
  exact h.ne_of_mem ha (List.mem_of_mem_head? htop) hid.symm

/-- **Opening** a span: its interval begins now, between what has ended and what is
    open. -/
theorem push (h : Nested now next ended running) :
    Nested now (next + 1) ended (fresh now next running :: running) where
  family := by
    refine (h.family.cons fun a ha => List.mem_append_right _ ha).congr ?_
    exact (List.perm_middle.map begun).symm
  order := by
    obtain ⟨hended, hrunning, hcross⟩ := List.pairwise_append.mp h.order
    have hold {a b : Interval} (hab : EndsFirst (ended ++ running) a b) :
        EndsFirst (ended ++ fresh now next running :: running) a b :=
      hab.mono fun a ha => exists_opened ha
    rw [List.pairwise_append, List.pairwise_cons]
    refine ⟨hended.imp hold, ⟨fun b hb => .inl (h.encloses_fresh hb), hrunning.imp hold⟩, ?_⟩
    intro a ha b hb
    cases List.mem_cons.mp hb with
    | inl hfresh =>
      rw [hfresh]
      exact h.endsFirst_fresh ha _
    | inr hrest => exact hold (hcross a ha b hrest)
  timely := h.timely
  stops := h.stops
  unended := by
    intro a ha
    cases List.mem_cons.mp ha with
    | inl hfresh => exact hfresh ▸ rfl
    | inr hrest => exact h.unended a hrest

/-! ### Stopping -/

/-- Stopping a span changes nothing about where the intervals began. -/
theorem sameBegun_stopped (ended running : List Interval) (a : Interval) (stop : Option UInt64) :
    SameBegun (ended ++ a :: running) (ended ++ [{ a with stop }] ++ running) := by
  have hsame : (ended ++ a :: running).map begun =
      (ended ++ [{ a with stop }] ++ running).map begun := by
    rw [List.append_assoc, List.singleton_append, List.map_append, List.map_append, List.map_cons,
      List.map_cons]
    rfl
  exact .of_eq hsame

/-- **Stopping** the innermost open span: it is the last one that has ended, now. -/
theorem pop (h : Nested now next ended (a :: running)) :
    Nested now next (ended ++ [{ a with stop := some now }]) running where
  family := h.family.congr (sameBegun_stopped ended running a _)
  order := by
    obtain ⟨hended, hrest, hcross⟩ := List.pairwise_append.mp h.order
    obtain ⟨htop, hrunning⟩ := List.pairwise_cons.mp hrest
    have hopen := h.unended a List.mem_cons_self
    have hold {b c : Interval} (hbc : EndsFirst (ended ++ a :: running) b c) :
        EndsFirst (ended ++ [{ a with stop := some now }] ++ running) b c :=
      hbc.imp_left (sameBegun_stopped ended running a _).encloses
    rw [List.append_assoc, List.singleton_append] at hold ⊢
    rw [List.pairwise_append, List.pairwise_cons]
    refine ⟨hended.imp hold, ⟨fun b hb => ?_, hrunning.imp hold⟩, fun b hb c hc => ?_⟩
    · -- the open ones that are left enclose the one that is stopped
      exact hold (.inl ((htop b hb).encloses hopen))
    · cases List.mem_cons.mp hc with
      | inl hstopped =>
        rw [hstopped]
        exact hold ((hcross b hb a List.mem_cons_self).congr_right rfl rfl rfl)
      | inr hleft => exact hold (hcross b hb c (List.mem_cons_of_mem a hleft))
  timely := by
    intro b hb
    cases List.mem_append.mp hb with
    | inl hb => exact h.timely b hb
    | inr hb =>
      obtain rfl := List.mem_singleton.mp hb
      have ha : a ∈ ended ++ a :: running := List.mem_append_right _ List.mem_cons_self
      exact ⟨now, rfl, h.family.started a ha, UInt64.le_refl now⟩
  stops := by
    refine List.pairwise_append.mpr ⟨h.stops, List.pairwise_singleton _ _, fun b hb c hc => ?_⟩
    obtain rfl := List.mem_singleton.mp hc
    intro t u ht hu
    obtain ⟨t', hstop, -, hle⟩ := h.timely b hb
    obtain rfl := Option.some.inj (hstop.symm.trans ht)
    exact Option.some.inj hu ▸ hle
  unended := fun b hb => h.unended b (List.mem_cons_of_mem a hb)

end Nested

end TraceLink
