import Mathlib.Data.List.Perm.Basic
import TraceLink.Proofs.LedgerBooks
import TraceLink.Proofs.Lives

/-! # Custody of spans

    A recorded span of a sampled segment is in one of four places: on the stack, in
    the archive, in the record of its handle, or completed in the ledger. *Custody*
    says that the spans in these places are the first ones that were opened, each of
    them once, and that the ledger awaits the handles that have not finished.

    Each operation on spans keeps custody, so a segment that ends with nothing
    pending is a tree. -/

namespace TraceLink

open Ledger (WellKept Updated Popped Finished heldIn)

/-- The origin of the span that was opened as number `id`. -/
def Opening.origin (id : Nat) (o : Opening) : Origin := ⟨id, o.inside, o.kind, o.time⟩

namespace Life

/-- A handle was prepared on the span with this id. -/
def Prepared (l : Life) (id : Nat) : Prop := ∃ n, AsyncHandle.span n id ∈ l.handles

/-- A handle was prepared on the span with this id and has not finished. -/
def Awaits (l : Life) (id : Nat) : Prop :=
  ∃ n, AsyncHandle.span n id ∈ l.handles ∧ AsyncHandle.span n id ∉ l.finished

/-- The number of the ledger that the handles name. -/
def ledger? (l : Life) : Option Nat :=
  match l.handles.head? with
  | some (.span n _) => some n
  | _ => none

/-- All handles name the same ledger, and only they can be finished. -/
structure Linked (l : Life) : Prop where
  handles : ∀ h ∈ l.handles, ∃ n id, h = .span n id ∧ l.ledger? = some n
  finished : ∀ h ∈ l.finished, h ∈ l.handles

theorem prepared_append (l : Life) (n id id' : Nat) :
    Prepared { l with handles := l.handles ++ [.span n id] } id' ↔ l.Prepared id' ∨ id' = id := by
  unfold Prepared
  simp only [List.mem_append, List.mem_singleton, AsyncHandle.span.injEq]
  constructor
  · rintro ⟨n', hold | ⟨rfl, rfl⟩⟩
    · exact .inl ⟨n', hold⟩
    · exact .inr rfl
  · rintro (⟨n', hold⟩ | rfl)
    · exact ⟨n', .inl hold⟩
    · exact ⟨n, .inr ⟨rfl, rfl⟩⟩

/-- A handle that is prepared is awaited. -/
theorem awaits_append {l : Life} (hlinked : l.Linked) {n id : Nat} (hnew : ¬ l.Prepared id)
    (id' : Nat) :
    Awaits { l with handles := l.handles ++ [.span n id] } id' ↔ l.Awaits id' ∨ id' = id := by
  have hopen : AsyncHandle.span n id ∉ l.finished :=
    fun hfinished => hnew ⟨n, hlinked.finished _ hfinished⟩
  unfold Awaits
  simp only [List.mem_append, List.mem_singleton, AsyncHandle.span.injEq]
  constructor
  · rintro ⟨n', hold | ⟨rfl, rfl⟩, hopen'⟩
    · exact .inl ⟨n', hold, hopen'⟩
    · exact .inr rfl
  · rintro (⟨n', hold, hopen'⟩ | rfl)
    · exact ⟨n', .inl hold, hopen'⟩
    · exact ⟨n, .inr ⟨rfl, rfl⟩, hopen⟩

/-- A handle that is finished is not awaited any more. -/
theorem awaits_finished {l : Life} (hlinked : l.Linked) {n id : Nat}
    (hmem : AsyncHandle.span n id ∈ l.handles) (id' : Nat) :
    Awaits { l with finished := l.finished ++ [.span n id] } id' ↔ l.Awaits id' ∧ id' ≠ id := by
  obtain ⟨n₀, id₀, heq, hledger⟩ := hlinked.handles _ hmem
  obtain ⟨rfl, rfl⟩ := AsyncHandle.span.inj heq
  unfold Awaits
  simp only [List.mem_append, List.mem_singleton, AsyncHandle.span.injEq, not_or]
  constructor
  · rintro ⟨n', hold, hopen, hother⟩
    refine ⟨⟨n', hold, hopen⟩, ?_⟩
    rintro rfl
    obtain ⟨n₁, id₁, heq', hledger'⟩ := hlinked.handles _ hold
    obtain ⟨rfl, rfl⟩ := AsyncHandle.span.inj heq'
    exact hother ⟨Option.some.inj (hledger'.symm.trans hledger), rfl⟩
  · rintro ⟨⟨n', hold, hopen⟩, hne⟩
    exact ⟨n', hold, hopen, fun hsame => hne hsame.2⟩

/-- All handles were finished if and only if none is awaited. -/
theorem finished_iff {l : Life} (hlinked : l.Linked) :
    (∀ h ∈ l.handles, h ∈ l.finished) ↔ ∀ id, ¬ l.Awaits id := by
  constructor
  · rintro hall id ⟨n, hmem, hopen⟩
    exact hopen (hall _ hmem)
  · intro hnone h hmem
    obtain ⟨n, id, rfl, -⟩ := hlinked.handles h hmem
    by_contra hopen
    exact hnone id ⟨n, hmem, hopen⟩

end Life

/-- The origins of the spans in all four places. -/
def Outline.origins (x : Outline) (led : Ledger) : List Origin :=
  x.marks.map Mark.origin ++ (x.spans ++ heldIn led.records ++ led.completed).map Span.origin

/-- **Custody** of the spans of a segment, with room for `capacity` spans. -/
structure Custody (capacity : Nat) (x : Outline) (led : Ledger) (l : Life) : Prop where
  id : x.id = l.segment
  places : (x.origins led).Perm ((l.openings.mapIdx Opening.origin).take x.nextSpan)
  archived : ∀ s ∈ x.spans, s.isClosed
  completed : ∀ s ∈ led.completed, s.isClosed
  count : x.nextSpan = min l.openings.length capacity
  limited : x.sizeLimited = true ↔ capacity < l.openings.length
  /-- The span that was opened first is the only one inside no other. -/
  rooted : 1 ≤ capacity → ∀ i o, l.openings[i]? = some o →
    (o.inside = none ↔ i = 0) ∧ ∀ p, o.inside = some p → p < i
  /-- The span at the bottom of the stack is recorded. -/
  bottom : 1 ≤ capacity → ∀ m, x.frames.getLast? = some m → m.isSome
  wellKept : WellKept led
  awaits : ∀ id, (led.open? id).isSome ↔ l.Awaits id
  known : ∀ id, (led.records.get? id).isSome → l.Prepared id
  prepared_lt : ∀ id, l.Prepared id → id < x.nextSpan
  async : ∀ m ∈ x.marks, m.isAsync = true →
    ∃ d, led.records.get? m.origin.id = some d ∧ d.span = none
  plain : ∀ m ∈ x.marks, m.isAsync = false → ¬ l.Prepared m.origin.id

namespace Custody

variable {capacity : Nat} {x : Outline} {led : Ledger} {l : Life}

/-! ### Ids -/

theorem map_id_mapIdx_origin (os : List Opening) :
    (os.mapIdx Opening.origin).map Origin.id = List.range os.length := by
  apply List.ext_getElem
  · simp
  · intro i h₁ h₂
    simp [Opening.origin]

theorem nextSpan_le (h : Custody capacity x led l) : x.nextSpan ≤ l.openings.length := by
  rw [h.count]
  exact Nat.min_le_left _ _

/-- The ids in all places are the first numbers, each of them once. -/
theorem ids (h : Custody capacity x led l) :
    ((x.origins led).map Origin.id).Perm (List.range x.nextSpan) := by
  have hids := h.places.map Origin.id
  rw [List.map_take, map_id_mapIdx_origin, List.take_range, Nat.min_eq_left h.nextSpan_le] at hids
  exact hids

theorem nodup_ids (h : Custody capacity x led l) : ((x.origins led).map Origin.id).Nodup :=
  h.ids.nodup_iff.mpr List.nodup_range

theorem id_lt (h : Custody capacity x led l) {m : Mark} (hm : m ∈ x.marks) :
    m.origin.id < x.nextSpan := by
  rw [← List.mem_range]
  refine h.ids.mem_iff.mp (List.mem_map_of_mem ?_)
  exact List.mem_append_left _ (List.mem_map_of_mem hm)

/-- The id of a span on the stack is not that of one below it. -/
theorem id_ne (h : Custody capacity x led l) {m : Mark} {rest : List (Option Mark)}
    (hframes : x.frames = some m :: rest) {m' : Mark} (hm' : m' ∈ rest.reduceOption) :
    m'.origin.id ≠ m.origin.id := by
  have hnodup := h.nodup_ids
  unfold Outline.origins Outline.marks at hnodup
  rw [hframes, List.reduceOption_cons_of_some, List.map_cons, List.cons_append, List.map_cons,
    List.nodup_cons] at hnodup
  intro heq
  apply hnodup.1
  rw [← heq]
  exact List.mem_map_of_mem (List.mem_append_left _ (List.mem_map_of_mem hm'))

/-! ### The innermost recorded span -/

theorem marks_eq_nil (h : Custody capacity x led l) (hnone : l.openings = []) : x.marks = [] := by
  have hplaces := h.places
  rw [hnone, List.mapIdx_nil, List.take_nil, List.perm_nil] at hplaces
  exact List.map_eq_nil_iff.mp (List.append_eq_nil_iff.mp hplaces).1

/-- While spans are open, one of them is recorded. -/
theorem marks_ne_nil (h : Custody capacity x led l) (hpos : 1 ≤ capacity)
    (hopen : x.frames ≠ []) : x.marks ≠ [] := by
  obtain ⟨m, hm⟩ := Option.isSome_iff_exists.mp
    (h.bottom hpos _ (List.getLast?_eq_some_getLast hopen))
  have hmem : some m ∈ x.frames := hm ▸ List.getLast_mem hopen
  exact List.ne_nil_of_mem (List.reduceOption_mem_iff.mpr hmem)

theorem nearest?_eq_none_iff (h : Custody capacity x led l) (hpos : 1 ≤ capacity)
    (hfresh : x.frames = [] → l.openings = []) : x.nearest? = none ↔ l.openings.length = 0 := by
  rw [Outline.nearest?, Option.map_eq_none_iff, List.head?_eq_none_iff, List.length_eq_zero_iff]
  constructor
  · intro hnil
    by_contra hsome
    exact h.marks_ne_nil hpos (fun hidle => hsome (hfresh hidle)) hnil
  · exact h.marks_eq_nil

theorem nearest?_lt (h : Custody capacity x led l) {p : Nat} (hp : x.nearest? = some p) :
    p < x.nextSpan := by
  obtain ⟨m, hm, rfl⟩ := Option.map_eq_some_iff.mp hp
  exact h.id_lt (List.mem_of_mem_head? hm)

/-! ### Operations -/

/-- A segment without spans. -/
theorem new (capacity : Nat) (id : String) (stage : Stage) :
    Custody capacity (.new id true) {} { segment := id, stage } where
  id := rfl
  places := .refl _
  archived := fun s hs => by contradiction
  completed := fun s hs => by contradiction
  count := (Nat.zero_min _).symm
  limited := by simp [Outline.new]
  rooted := fun _ i o ho => by contradiction
  bottom := fun _ m hm => by contradiction
  wellKept := Ledger.wellKept_empty
  awaits := by
    intro id
    constructor
    · intro hopen
      contradiction
    · rintro ⟨n, hmem, -⟩
      contradiction
  known := fun id hsome => by contradiction
  prepared_lt := by
    rintro id ⟨n, hmem⟩
    contradiction
  async := fun m hm => by contradiction
  plain := fun m hm => by contradiction

/-- The opening that an operation adds for this outline. -/
theorem rooted_append (h : Custody capacity x led l) (hfresh : x.frames = [] → l.openings = [])
    (kind : SpanKind) (now : UInt64) :
    1 ≤ capacity → ∀ i o, (l.openings ++ [⟨now, kind, x.nearest?⟩])[i]? = some o →
      (o.inside = none ↔ i = 0) ∧ ∀ p, o.inside = some p → p < i := by
  intro hpos i o ho
  -- an opening that was there keeps its place; the new one is the last
  by_cases hi : i < l.openings.length
  · rw [List.getElem?_append_left hi] at ho
    exact h.rooted hpos i o ho
  · rw [List.getElem?_append_right (Nat.le_of_not_lt hi), List.getElem?_singleton] at ho
    split at ho
    · obtain rfl := Option.some.inj ho
      have hlast : i = l.openings.length := by omega
      subst hlast
      exact ⟨h.nearest?_eq_none_iff hpos hfresh,
        fun p hp => Nat.lt_of_lt_of_le (h.nearest?_lt hp) h.nextSpan_le⟩
    · contradiction

/-- The spans that are placed are among those opened before. -/
theorem take_append (h : Custody capacity x led l) (o : Opening) :
    ((l.openings ++ [o]).mapIdx Opening.origin).take x.nextSpan =
      (l.openings.mapIdx Opening.origin).take x.nextSpan := by
  rw [List.mapIdx_append, List.take_append_of_le_length]
  rw [List.length_mapIdx]
  exact h.nextSpan_le

/-- A span that is opened in a full segment is not recorded. -/
theorem opened_full (h : Custody capacity x led l)
    (hfresh : x.frames = [] → l.openings = []) (hfull : capacity ≤ x.nextSpan) (kind : SpanKind)
    (now : UInt64) :
    Custody capacity { x with frames := none :: x.frames, sizeLimited := true } led
      { l with openings := l.openings ++ [⟨now, kind, x.nearest?⟩] } where
  id := h.id
  places := by
    rw [h.take_append]
    exact h.places
  archived := h.archived
  completed := h.completed
  count := by
    have hcount := h.count
    have hle := h.nextSpan_le
    rw [List.length_append, List.length_singleton]
    show x.nextSpan = _
    omega
  limited := by
    have hle := h.nextSpan_le
    rw [List.length_append, List.length_singleton]
    simp only [true_iff]
    omega
  rooted := h.rooted_append hfresh kind now
  bottom := by
    intro hpos m hm
    have hle := h.nextSpan_le
    -- The segment is not new, so the bottom of the stack is below the new frame.
    have hopen : x.frames ≠ [] := by
      intro hnil
      rw [hfresh hnil, List.length_nil] at hle
      omega
    rw [List.getLast?_cons_of_ne_nil hopen] at hm
    exact h.bottom hpos m hm
  wellKept := h.wellKept
  awaits := h.awaits
  known := h.known
  prepared_lt := h.prepared_lt
  async := h.async
  plain := h.plain

/-- A span that is opened while there is room is recorded under the next id. -/
theorem opened_room (h : Custody capacity x led l) (hfresh : x.frames = [] → l.openings = [])
    (hroom : x.nextSpan < capacity) (kind : SpanKind) (now : UInt64) :
    Custody capacity
      { x with
        frames := some ⟨⟨x.nextSpan, x.nearest?, kind, now⟩, false⟩ :: x.frames
        nextSpan := x.nextSpan + 1 } led
      { l with openings := l.openings ++ [⟨now, kind, x.nearest?⟩] } := by
  -- there is room, so every span that was opened until now was recorded
  have hall : x.nextSpan = l.openings.length := by
    have hcount := h.count
    omega
  have hnew : ¬ l.Prepared x.nextSpan := fun hprepared => by
    have := h.prepared_lt _ hprepared
    omega
  refine { h with places := ?_, count := ?_, limited := ?_, rooted := ?_, bottom := ?_,
                  prepared_lt := ?_, async := ?_, plain := ?_ }
  -- the new frame stands first among the places and last among the openings
  · have hplaces := h.places
    rw [List.take_of_length_le (by simp [hall])] at hplaces
    rw [List.take_of_length_le (by simp [hall]), List.mapIdx_append]
    unfold Outline.origins Outline.marks
    simp only [List.reduceOption_cons_of_some, List.map_cons, List.cons_append]
    simp only [List.mapIdx_cons, List.mapIdx_nil]
    refine (hplaces.cons _).trans ?_
    rw [hall]
    simp only [Opening.origin, Nat.zero_add]
    exact (List.perm_append_singleton _ _).symm
  · show x.nextSpan + 1 = _
    rw [List.length_append, List.length_singleton]
    omega
  · rw [h.limited, List.length_append, List.length_singleton]
    omega
  · exact h.rooted_append hfresh kind now
  -- at the bottom is the new span itself, or what was there before
  · intro hpos m hm
    by_cases hnil : x.frames = []
    · rw [hnil] at hm
      obtain rfl := Option.some.inj hm
      rfl
    · rw [List.getLast?_cons_of_ne_nil hnil] at hm
      exact h.bottom hpos m hm
  · intro id hid
    exact Nat.lt_succ_of_lt (h.prepared_lt id hid)
  · intro m hm hasync
    unfold Outline.marks at hm
    rw [List.reduceOption_cons_of_some, List.mem_cons] at hm
    rcases hm with rfl | hm
    · contradiction
    · exact h.async m hm hasync
  · intro m hm hplain
    unfold Outline.marks at hm
    rw [List.reduceOption_cons_of_some, List.mem_cons] at hm
    rcases hm with rfl | hm
    · exact hnew
    · exact h.plain m hm hplain

/-- Opening a span of a sampled segment keeps custody. -/
theorem opened (h : Custody capacity x led l) (hsampled : x.sampled = true)
    (hfresh : x.frames = [] → l.openings = []) (kind : SpanKind) (now : UInt64) :
    Custody capacity (x.opened capacity kind now) led
      { l with openings := l.openings ++ [⟨now, kind, x.nearest?⟩] } := by
  unfold Outline.opened
  rw [if_neg (by simp [hsampled])]
  split
  · next hfull => exact h.opened_full hfresh hfull kind now
  · next hroom => exact h.opened_room hfresh (Nat.lt_of_not_le hroom) kind now

/-- Taking a placeholder off the stack keeps custody. -/
theorem dropped (h : Custody capacity x led l) {rest : List (Option Mark)}
    (hframes : x.frames = none :: rest) : Custody capacity { x with frames := rest } led l := by
  -- a placeholder has no mark, so no place changes
  have hmarks : Outline.marks { x with frames := rest } = x.marks := by
    unfold Outline.marks
    rw [hframes, List.reduceOption_cons_of_none]
  refine { h with places := ?_, bottom := ?_, async := ?_, plain := ?_ }
  · have hplaces := h.places
    unfold Outline.origins at hplaces ⊢
    rw [hmarks]
    exact hplaces
  · intro hpos m hm
    apply h.bottom hpos m
    rw [hframes, List.getLast?_cons_of_ne_nil]
    · exact hm
    · rintro rfl
      contradiction
  · rw [hmarks]
    exact h.async
  · rw [hmarks]
    exact h.plain

/-- Taking a recorded span off the stack keeps custody: it joins the archive, or it is
    held by its record. -/
theorem popped (h : Custody capacity x led l) {s : Span} {rest : List (Option Mark)}
    (hframes : x.frames = some s.mark :: rest) {given : Option Span} {led' : Ledger}
    (hpopped : Popped led s given led') :
    Custody capacity { x with frames := rest, spans := x.spans ++ given.toList } led' l := by
  have hmarks := Outline.marks_of_frames hframes
  refine { h with places := ?_, archived := ?_, completed := ?_, bottom := ?_,
                  wellKept := hpopped.wellKept, awaits := ?_, known := ?_, async := ?_,
                  plain := ?_ }
  · refine .trans ?_ h.places
    unfold Outline.origins
    rw [hmarks, hpopped.completed]
    show (rest.reduceOption.map Mark.origin ++ _).Perm _
    simp only [List.map_cons, List.cons_append, List.map_append, List.append_assoc]
    -- the ledger moves the span out of the marks, and the rest of the places is the frame
    have hplaces := hpopped.places.append_right (led.completed.map Span.origin)
    rw [List.map_append, List.append_assoc, List.cons_append] at hplaces
    refine ((hplaces.append_left _).append_left _).trans ?_
    exact (List.perm_middle.append_left _).trans List.perm_middle
  · intro s' hs'
    rcases List.mem_append.mp hs' with hold | hnew
    · exact h.archived s' hold
    · exact hpopped.closed s' (Option.mem_toList.mp hnew)
  · rw [hpopped.completed]
    exact h.completed
  · intro hpos m hm
    apply h.bottom hpos m
    rw [hframes, List.getLast?_cons_of_ne_nil]
    · exact hm
    · rintro rfl
      contradiction
  · intro id
    rw [hpopped.open?]
    exact h.awaits id
  · intro id hsome
    exact h.known id (hpopped.known id hsome)
  · intro m hm hasync
    rw [hpopped.get? _ (h.id_ne hframes hm)]
    exact h.async m (hmarks ▸ List.mem_cons_of_mem _ hm) hasync
  · intro m hm hplain
    exact h.plain m (hmarks ▸ List.mem_cons_of_mem _ hm) hplain

/-- Leaving the end of the active span to a new handle keeps custody. -/
theorem prepared (h : Custody capacity x led l) (hlinked : l.Linked) {m : Mark}
    {rest : List (Option Mark)} (hframes : x.frames = some m :: rest) (hplain : m.isAsync = false)
    (n : Nat) :
    Custody capacity { x with
        frames := some { m with isAsync := true } :: rest
        ledger := some n } (led.prepare m.origin.id)
      { l with handles := l.handles ++ [.span n m.origin.id] } := by
  have hmarks := Outline.marks_of_frames hframes
  have hm : m ∈ x.marks := hmarks ▸ List.mem_cons_self
  have hnew := h.plain m hm hplain
  -- a record that exists already would be known under a handle
  have hnone : led.records.get? m.origin.id = none := by
    rw [← Option.not_isSome_iff_eq_none]
    exact fun hsome => hnew (h.known _ hsome)
  have hopened := Ledger.opened_prepare h.wellKept hnone
  have hprepared := Life.prepared_append l n m.origin.id
  refine { h with places := ?_, bottom := ?_, wellKept := hopened.wellKept, awaits := ?_,
                  known := ?_, prepared_lt := ?_, async := ?_, plain := ?_ }
  · refine .trans ?_ h.places
    unfold Outline.origins
    rw [hmarks]
    exact (((hopened.held.append_left _).append_right _).map _).append_left _
  · intro hpos m' hm'
    have hlast := h.bottom hpos
    rw [hframes] at hlast
    cases rest with
    | nil =>
      obtain rfl := Option.some.inj hm'
      rfl
    | cons f rest => exact hlast m' hm'
  · intro id
    rw [Life.awaits_append hlinked hnew, hopened.open?, h.awaits]
  · intro id hsome
    rw [hprepared]
    by_cases hid : id = m.origin.id
    · exact .inr hid
    · rw [hopened.get? id hid] at hsome
      exact .inl (h.known id hsome)
  · intro id hid
    rcases (hprepared id).mp hid with hold | rfl
    · exact h.prepared_lt id hold
    · exact h.id_lt hm
  · intro m' hm' hasync
    unfold Outline.marks at hm'
    rw [List.reduceOption_cons_of_some, List.mem_cons] at hm'
    rcases hm' with rfl | hm'
    · exact hopened.get?_self
    · rw [hopened.get? _ (h.id_ne hframes hm')]
      exact h.async m' (hmarks ▸ List.mem_cons_of_mem _ hm') hasync
  · intro m' hm' hplain'
    unfold Outline.marks at hm'
    rw [List.reduceOption_cons_of_some, List.mem_cons] at hm'
    rcases hm' with rfl | hm'
    · contradiction
    · rw [hprepared, not_or]
      exact ⟨h.plain m' (hmarks ▸ List.mem_cons_of_mem _ hm') hplain', h.id_ne hframes hm'⟩

/-- Finishing a handle keeps custody. -/
theorem finished (h : Custody capacity x led l) (hlinked : l.Linked) {n id : Nat}
    (hmem : AsyncHandle.span n id ∈ l.handles) {led' : Ledger} (hfinished : Finished led id led') :
    Custody capacity x led' { l with finished := l.finished ++ [.span n id] } := by
  refine { h with places := ?_, completed := hfinished.closed h.completed,
                  wellKept := hfinished.wellKept, awaits := ?_, known := ?_, async := ?_ }
  · refine .trans ?_ h.places
    unfold Outline.origins
    simp only [List.append_assoc, List.map_append]
    have hplaces := hfinished.places
    rw [List.map_append, List.map_append] at hplaces
    exact (hplaces.append_left _).append_left _
  · intro id'
    rw [Life.awaits_finished hlinked hmem, hfinished.open?, h.awaits]
  · intro id' hsome
    exact h.known id' (hfinished.known id' hsome)
  · intro m hm hasync
    obtain ⟨d, hget, hspan⟩ := h.async m hm hasync
    by_cases hid : m.origin.id = id
    · subst hid
      exact hfinished.get?_self d hget hspan
    · exact ⟨d, (hfinished.get? _ hid).trans hget, hspan⟩

/-- What a handle notes before it finishes does not touch custody. -/
theorem updated (h : Custody capacity x led l) {led' : Ledger} (hupdated : Updated led led') :
    Custody capacity x led' l := by
  refine { h with places := ?_, completed := ?_, wellKept := hupdated.wellKept, awaits := ?_,
                  known := ?_, async := ?_ }
  · refine .trans ?_ h.places
    unfold Outline.origins
    rw [hupdated.completed]
    exact (((hupdated.places.append_left _).append_right _).map _).append_left _
  · rw [hupdated.completed]
    exact h.completed
  · intro id
    rw [hupdated.open?]
    exact h.awaits id
  · intro id hsome
    apply h.known
    have hsame := congrArg Option.isSome (hupdated.get? id)
    rw [Option.isSome_map, Option.isSome_map] at hsame
    rw [← hsame]
    exact hsome
  · intro m hm hasync
    obtain ⟨d, hd, hnone⟩ := h.async m hm hasync
    have hsame := hupdated.get? m.origin.id
    rw [hd, Option.map_some, Option.map_eq_some_iff] at hsame
    obtain ⟨d', hd', heq⟩ := hsame
    exact ⟨d', hd', heq.trans hnone⟩

/-- Parking the segment keeps custody. -/
theorem park (h : Custody capacity x led l) (g : Option Segment) :
    Custody capacity x { led with parked := g } l :=
  { h with wellKept := ⟨h.wellKept.keys, h.wellKept.pending, h.wellKept.held⟩ }

/-- Nothing is pending if and only if all handles were finished. -/
theorem pending_eq_zero_iff (h : Custody capacity x led l) (hlinked : l.Linked) :
    led.pending = 0 ↔ ∀ a ∈ l.handles, a ∈ l.finished := by
  rw [Life.finished_iff hlinked, h.wellKept.pending_eq_zero_iff]
  constructor
  · intro hnone id hawaits
    have hopen := (h.awaits id).mpr hawaits
    rw [hnone id] at hopen
    contradiction
  · intro hnone id
    rw [Bool.eq_false_iff]
    exact fun hopen => hnone id ((h.awaits id).mp hopen)

/-- A handle that is awaited is one of the life that did not finish. -/
theorem awaits_iff (hlinked : l.Linked) {n : Nat} (hn : l.ledger? = some n) (id : Nat) :
    l.Awaits id ↔ AsyncHandle.span n id ∈ l.handles ∧ AsyncHandle.span n id ∉ l.finished := by
  constructor
  · rintro ⟨n', hmem, hopen⟩
    obtain ⟨n₀, id₀, heq, hn'⟩ := hlinked.handles _ hmem
    obtain ⟨rfl, rfl⟩ := AsyncHandle.span.inj heq
    obtain rfl := Option.some.inj (hn'.symm.trans hn)
    exact ⟨hmem, hopen⟩
  · exact fun hboth => ⟨n, hboth⟩

/-- A handle that finishes a second time: the ledger awaits what it awaited. -/
theorem finished_again (h : Custody capacity x led l) {n id : Nat}
    (hdone : AsyncHandle.span n id ∈ l.finished) :
    Custody capacity x led { l with finished := l.finished ++ [.span n id] } := by
  refine { h with awaits := ?_ }
  intro id'
  rw [h.awaits]
  unfold Life.Awaits
  simp only [List.mem_append, List.mem_singleton, not_or]
  constructor
  · rintro ⟨n', hmem', hnot⟩
    exact ⟨n', hmem', hnot, fun heq => hnot (heq ▸ hdone)⟩
  · rintro ⟨n', hmem', hnot, -⟩
    exact ⟨n', hmem', hnot⟩

/-- The end of a handle keeps custody. If the handle was awaited, the segment is
    released if it can be; else nothing is handed over. -/
theorem handled_finish (h : Custody capacity x led l) (hlinked : l.Linked) {n : Nat}
    (hn : l.ledger? = some n) (id : Nat) (now : UInt64) (time : Option UInt64) :
    ∃ led', Custody capacity x led' (l.afterHandle (.span n id) (.finish time) none) ∧
      led'.parked = led.parked ∧
      ((led.handle id now (.finish time)).value = (none, led') ∧ led'.pending = led.pending ∨
        (led.handle id now (.finish time)).value = led'.release ∧
          AsyncHandle.span n id ∈ l.handles) := by
  have hawaits := (h.awaits id).trans (awaits_iff hlinked hn id)
  have hclosed (hnone : led.open? id = none) :
      (led.handle id now (.finish time)).value = (none, led) := by
    simp only [Ledger.handle, Ledger.finish, hnone, Logged.pure_value]
  unfold Life.afterHandle
  by_cases hmem : AsyncHandle.span n id ∈ l.handles
  · simp only [if_pos hmem]
    cases hopen : led.open? id with
    | some d =>
      obtain ⟨led', hfinished, hvalue⟩ := Ledger.finished_finish h.wellKept
        (by rw [hopen, Option.isSome_some] : (led.open? id).isSome) (time.getD now)
      exact ⟨led', { h.finished hlinked hmem hfinished with }, hfinished.parked,
        .inr ⟨hvalue, hmem⟩⟩
    | none =>
      have hdone : AsyncHandle.span n id ∈ l.finished := by
        by_contra hnot
        have hopen' := hawaits.mpr ⟨hmem, hnot⟩
        rw [hopen] at hopen'
        contradiction
      exact ⟨led, { h.finished_again hdone with }, rfl, .inl ⟨hclosed hopen, rfl⟩⟩
  · simp only [if_neg hmem]
    have hnone : led.open? id = none := by
      rw [← Option.not_isSome_iff_eq_none, hawaits]
      exact fun hboth => hmem hboth.1
    exact ⟨led, h, rfl, .inl ⟨hclosed hnone, rfl⟩⟩

/-- An operation of a handle keeps custody. Only its end can hand something over. -/
theorem handled (h : Custody capacity x led l) (hlinked : l.Linked) {n : Nat}
    (hn : l.ledger? = some n) (id : Nat) (now : UInt64) (op : HandleOp) :
    ∃ led', Custody capacity x led' (l.afterHandle (.span n id) op none) ∧
      led'.parked = led.parked ∧
      ((led.handle id now op).value = (none, led') ∧ led'.pending = led.pending ∨
        (led.handle id now op).value = led'.release ∧
          ∃ time, op = .finish time ∧ AsyncHandle.span n id ∈ l.handles) := by
  by_cases hfinish : ∃ time, op = .finish time
  · obtain ⟨time, rfl⟩ := hfinish
    obtain ⟨led', hcustody, hparked, hsilent | ⟨hvalue, hmem⟩⟩ :=
      h.handled_finish hlinked hn id now time
    · exact ⟨led', hcustody, hparked, .inl hsilent⟩
    · exact ⟨led', hcustody, hparked, .inr ⟨hvalue, time, rfl, hmem⟩⟩
  -- what is noted before the end changes neither the life nor its places
  · have hnote : ∀ time, op ≠ .finish time := fun time heq => hfinish ⟨time, heq⟩
    obtain ⟨led', hupdated, hvalue⟩ := Ledger.updated_handle h.wellKept id now hnote
    have hlife : l.afterHandle (.span n id) op none = l := by
      unfold Life.afterHandle
      split
      · exact absurd rfl (hnote _)
      · rfl
    rw [hlife]
    exact ⟨led', h.updated hupdated, hupdated.parked, .inl ⟨hvalue, hupdated.pending⟩⟩

/-! ### The end of a segment -/

/-- A segment that ends with nothing pending is a tree. -/
theorem isTree (h : Custody capacity x led l) (hpos : 1 ≤ capacity) (hlast : x.frames = [])
    (hnone : led.pending = 0) (hbegun : l.openings ≠ []) {g : Segment}
    (hspans : g.spans = x.spans ++ led.completed) (hlimited : g.sizeLimited = x.sizeLimited) :
    g.IsTree capacity l.openings := by
  have hheld := h.wellKept.heldIn_eq_nil hnone
  have hplaces : (g.spans.map Span.origin).Perm
      ((l.openings.mapIdx Opening.origin).take x.nextSpan) := by
    have hall := h.places
    unfold Outline.origins Outline.marks at hall
    rw [hlast, hheld, List.append_nil, ← hspans] at hall
    exact hall
  -- the stack is empty and no record holds a span, so the spans are all that was placed
  have hids : (g.spans.map (·.id)).Perm (List.range (min l.openings.length capacity)) := by
    have hall := hplaces.map Origin.id
    rw [List.map_take, map_id_mapIdx_origin, List.take_range, Nat.min_eq_left h.nextSpan_le,
      List.map_map, h.count] at hall
    exact hall
  have hopened : ∀ s ∈ g.spans, ∃ o, l.openings[s.id]? = some o ∧
      s.kind = o.kind ∧ s.start = o.time ∧ s.parent = o.inside := by
    intro s hs
    have hmem := List.mem_of_mem_take (hplaces.mem_iff.mp (List.mem_map_of_mem hs))
    obtain ⟨i, hi, heq⟩ := List.mem_mapIdx.mp hmem
    have hid : i = s.id := congrArg Origin.id heq
    subst hid
    refine ⟨l.openings[s.id], List.getElem?_eq_getElem hi, ?_⟩
    exact ⟨(congrArg Origin.kind heq).symm, (congrArg Origin.start heq).symm,
      (congrArg Origin.parent heq).symm⟩
  have hlt : ∀ s ∈ g.spans, s.id < min l.openings.length capacity := by
    intro s hs
    exact List.mem_range.mp (hids.mem_iff.mp (List.mem_map_of_mem hs))
  refine ⟨hbegun, hids, ?_, hopened, ?_, ?_, hlimited ▸ h.limited⟩
  · intro s hs
    rw [hspans] at hs
    rcases List.mem_append.mp hs with harchived | hcompleted
    · exact h.archived s harchived
    · exact h.completed s hcompleted
  · intro s hs
    obtain ⟨o, ho, -, -, hparent⟩ := hopened s hs
    rw [hparent]
    exact (h.rooted hpos s.id o ho).1
  · intro s hs p hp
    obtain ⟨o, ho, -, -, hparent⟩ := hopened s hs
    -- a parent was opened earlier, and the ids of the spans have no gap
    have hsmaller := (h.rooted hpos s.id o ho).2 p (hparent ▸ hp)
    refine ⟨hsmaller, ?_⟩
    have hmem := hids.mem_iff.mpr (List.mem_range.mpr (Nat.lt_trans hsmaller (hlt s hs)))
    exact List.mem_map.mp hmem

end Custody

end TraceLink
