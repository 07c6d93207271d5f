import TraceLink.Proofs.Beats
import TraceLink.Proofs.Kinship

/-! # Dockets of async spans

    What an observer notes about the async spans of a ledger: which spans were prepared,
    which of their handles have not finished, be they alive or dropped, and which spans the
    strand took off its stack. The *docket* of the ledger collects these notes.

    A ledger *keeps* its docket if its open records are those of the unfinished handles. As
    long as the segment is open or parked its spans are *housed*: each of them is in one
    place, on the stack, in a record, completed or archived, and none of those that were
    prepared is missing. Every operation of the ledger keeps both. -/

namespace TraceLink

open Ledger (WellKept Updated Popped Finished heldIn openIn)

/-! ### Notes -/

/-- **Note** about an async span. -/
inductive Note where
  /-- A handle was prepared on the span with this id. -/
  | prepared (id : Nat)
  /-- The strand took the span off its stack. -/
  | popped (s : Span)
  /-- The handle of the span with this id finished. -/
  | finished (id : Nat)
  deriving Repr, DecidableEq

/-- **Docket** of a ledger. -/
structure Docket where
  /-- The ids of the spans that were prepared. -/
  prepared : List Nat := []
  /-- Those of them whose handle has not finished. -/
  unfinished : List Nat := []
  /-- The async spans that were taken off the stack, as they were then. -/
  popped : List Span := []
  deriving Repr, DecidableEq

namespace Docket

/-- The docket with one more note. -/
def note (d : Docket) : Note → Docket
  | .prepared id =>
    { d with prepared := d.prepared ++ [id], unfinished := d.unfinished ++ [id] }
  | .popped s => { d with popped := d.popped ++ [s] }
  | .finished id => { d with unfinished := d.unfinished.erase id }

/-- What is noted of an operation of the handle of the span with this id. -/
def noteHandle (d : Docket) (id : Nat) : HandleOp → Docket
  | .finish _ => d.note (.finished id)
  | _ => d

theorem noteHandle_of_ne (d : Docket) (id : Nat) {op : HandleOp} (h : ∀ time, op ≠ .finish time) :
    d.noteHandle id op = d := by
  cases op with
  | finish time => exact absurd rfl (h time)
  | _ => rfl

theorem prepared_noteHandle (d : Docket) (id : Nat) (op : HandleOp) :
    (d.noteHandle id op).prepared = d.prepared := by
  cases op <;> rfl

end Docket

/-! ### Places -/

theorem ids_perm_of_origins {xs ys : List Span}
    (h : (xs.map Span.origin).Perm (ys.map Span.origin)) :
    (xs.map (·.id)).Perm (ys.map (·.id)) := by
  have hids := h.map Origin.id
  rwa [List.map_map, List.map_map] at hids

namespace Ledger

/-- The ids of the spans of a segment by their places: on the stack, archived, in the
    records, and completed. -/
def places (l : Ledger) (stack : List Nat) (archive : List Span) : List Nat :=
  stack ++ (archive.map (·.id) ++ (heldIn l.records ++ l.completed).map (·.id))

/-- **Housed**: every span is in one place, among them all that were prepared, and the
    archived ones are closed. -/
structure Housed (l : Ledger) (d : Docket) (stack : List Nat) (archive : List Span) : Prop where
  nodup : (l.places stack archive).Nodup
  prepared : ∀ id ∈ d.prepared, id ∈ l.places stack archive
  archived : ∀ s ∈ archive, s.isClosed

variable {l l' : Ledger} {d d' : Docket} {stack stack' : List Nat} {archive archive' : List Span}

/-- Spans that only move from one place to another stay housed. -/
theorem Housed.of_perm (h : l.Housed d stack archive) (hprepared : d'.prepared = d.prepared)
    (hplaces : (l'.places stack' archive').Perm (l.places stack archive))
    (harchived : ∀ s ∈ archive', s.isClosed) : l'.Housed d' stack' archive' where
  nodup := hplaces.nodup_iff.mpr h.nodup
  prepared := by
    intro id hid
    rw [hprepared] at hid
    exact hplaces.mem_iff.mpr (h.prepared id hid)
  archived := harchived

theorem places_perm (stack : List Nat) (archive : List Span)
    (h : ((heldIn l'.records ++ l'.completed).map Span.origin).Perm
      ((heldIn l.records ++ l.completed).map Span.origin)) :
    (l'.places stack archive).Perm (l.places stack archive) :=
  ((ids_perm_of_origins h).append_left _).append_left _

/-- A span that is housed is in one of the four places, and there only once. -/
theorem Housed.count_eq_one (h : l.Housed d stack archive) {id : Nat} (hid : id ∈ d.prepared) :
    stack.count id + ((heldIn l.records).map (·.id)).count id +
      (l.completed.map (·.id)).count id + (archive.map (·.id)).count id = 1 := by
  have hone := List.count_eq_one_of_mem h.nodup (h.prepared id hid)
  simp only [places, List.map_append, List.count_append] at hone
  omega

/-! ### Ledgers that keep their docket -/

/-- **Kept**: the ledger agrees with its docket. -/
structure Kept (l : Ledger) (d : Docket) : Prop where
  wellKept : WellKept l
  nodup : d.unfinished.Nodup
  open_iff : ∀ id, (l.open? id).isSome ↔ id ∈ d.unfinished
  held : ∀ s ∈ heldIn l.records, s ∈ d.popped
  completed : ∀ s ∈ l.completed, s.isClosed
  parked : ∀ g, l.parked = some g → l.Housed d [] g.spans

/-- A segment is parked only while it has to wait. -/
def Waits (l : Ledger) : Prop := ∀ g, l.parked = some g → 0 < l.pending

theorem waits_of_not_parked (h : l.parked = none) : l.Waits := by
  intro g hg
  rw [h] at hg
  contradiction

theorem kept_empty : Kept {} {} where
  wellKept := wellKept_empty
  nodup := List.nodup_nil
  open_iff := fun id => by simp [open?]
  held := fun s hs => by contradiction
  completed := fun s hs => by contradiction
  parked := fun g hg => by contradiction

/-- The record of an unfinished handle is open. -/
theorem Kept.get?_of_unfinished (h : l.Kept d) {id : Nat} (hid : id ∈ d.unfinished) :
    ∃ r, l.records.get? id = some r ∧ r.stop = none :=
  (open?_isSome_iff l id).mp ((h.open_iff id).mpr hid)

/-- The pending handles are those that have not finished. -/
theorem Kept.pending_eq (h : l.Kept d) : l.pending = d.unfinished.length := by
  -- the open records have distinct ids, and they are those of the unfinished handles
  let opened := l.records.filter (·.2.stop.isNone)
  have hkeys : (opened.map Prod.fst).Nodup :=
    h.wellKept.keys.sublist (List.filter_sublist.map _)
  have hmem : ∀ id, id ∈ opened.map Prod.fst ↔ id ∈ d.unfinished := by
    intro id
    rw [← h.open_iff, open?_isSome_iff]
    constructor
    · intro hid
      obtain ⟨⟨id', r⟩, hr, rfl⟩ := List.mem_map.mp hid
      obtain ⟨hrecord, hopen⟩ := List.mem_filter.mp hr
      exact ⟨r, Entries.get?_of_mem h.wellKept.keys hrecord, by simpa using hopen⟩
    · rintro ⟨r, hget, hstop⟩
      refine List.mem_map.mpr ⟨(id, r), List.mem_filter.mpr ?_, rfl⟩
      exact ⟨Entries.mem_of_get? hget, by simp [hstop]⟩
  have hperm := (List.perm_ext_iff_of_nodup hkeys h.nodup).mpr hmem
  rw [h.wellKept.pending, openIn, List.countP_eq_length_filter, ← hperm.length_eq,
    List.length_map]

/-- The number of pending handles is not zero as long as one has not finished. -/
theorem Kept.pending_pos (h : l.Kept d) {id : Nat} (hid : id ∈ d.unfinished) : 0 < l.pending := by
  rw [h.pending_eq]
  exact List.length_pos_of_mem hid

/-! ### Operations of a ledger -/

theorem Kept.updated (h : l.Kept d) (hupdated : Updated l l') : l'.Kept d where
  wellKept := hupdated.wellKept
  nodup := h.nodup
  open_iff := fun id => by rw [hupdated.open?, h.open_iff]
  held := fun s hs => h.held s (hupdated.places.mem_iff.mp hs)
  completed := by
    rw [hupdated.completed]
    exact h.completed
  parked := by
    intro g hg
    rw [hupdated.parked] at hg
    refine (h.parked g hg).of_perm rfl (places_perm _ _ ?_) (h.parked g hg).archived
    rw [hupdated.completed]
    exact (hupdated.places.append_right _).map _

/-- What is held after a stop is the span itself or was held before. -/
theorem mem_heldIn_pop {s x : Span} (h : x ∈ heldIn (l.pop s).value.2.records) :
    x ∈ heldIn l.records ∨ x = s := by
  unfold pop at h
  split at h
  · exact .inl h
  · split at h
    · exact .inl (mem_heldIn_erase h)
    · exact (mem_heldIn_put h).imp_right fun hnew => (Option.some.inj hnew).symm

/-- Nothing is parked while the strand stops its spans. -/
theorem Kept.popped (h : l.Kept d) (hparked : l.parked = none) {s : Span}
    {given : Option Span} (hpopped : Popped l s given l')
    (hheld : ∀ x ∈ heldIn l'.records, x ∈ heldIn l.records ∨ x = s) :
    l'.Kept (d.note (.popped s)) where
  wellKept := hpopped.wellKept
  nodup := h.nodup
  open_iff := fun id => by rw [hpopped.open?, h.open_iff]; rfl
  held := by
    intro x hx
    rcases hheld x hx with hold | rfl
    · exact List.mem_append_left _ (h.held x hold)
    · exact List.mem_append_right _ (List.mem_singleton_self x)
  completed := by
    rw [hpopped.completed]
    exact h.completed
  parked := by
    intro g hg
    rw [hpopped.parked, hparked] at hg
    contradiction

theorem Kept.opened (h : l.Kept d) (hparked : l.parked = none) {id : Nat}
    (hopened : Opened l id l') (hnew : id ∉ d.unfinished) : l'.Kept (d.note (.prepared id)) where
  wellKept := hopened.wellKept
  nodup := by
    refine List.nodup_append.mpr ⟨h.nodup, List.nodup_singleton id, ?_⟩
    rintro a ha b hb rfl
    exact hnew (List.mem_singleton.mp hb ▸ ha)
  open_iff := by
    intro id'
    rw [hopened.open?, h.open_iff]
    simp [Docket.note]
  held := fun s hs => h.held s (hopened.held.mem_iff.mp hs)
  completed := by
    rw [hopened.completed]
    exact h.completed
  parked := by
    intro g hg
    rw [hopened.parked, hparked] at hg
    contradiction

/-- What is held after the end of a handle was held before. -/
theorem Finished.mem_heldIn {id : Nat} (hfinished : Finished l id l') {s : Span}
    (h : s ∈ heldIn l'.records) : s ∈ heldIn l.records := by
  obtain ⟨⟨id', r⟩, hr, hspan⟩ := List.mem_filterMap.mp h
  have hget := Entries.get?_of_mem hfinished.wellKept.keys hr
  -- a record that holds a span is open, so it is not the one whose handle finished
  have hopen := (open?_isSome_iff l' id').mpr
    ⟨r, hget, (hfinished.wellKept.held id' r s hget hspan).2⟩
  rw [hfinished.get? id' ((hfinished.open? id').mp hopen).2] at hget
  exact mem_heldIn_of_get? hget hspan

theorem Kept.finished (h : l.Kept d) {id : Nat} (hfinished : Finished l id l') :
    l'.Kept (d.note (.finished id)) where
  wellKept := hfinished.wellKept
  nodup := h.nodup.erase id
  open_iff := by
    intro id'
    rw [hfinished.open?, h.open_iff, and_comm]
    exact (h.nodup.mem_erase_iff).symm
  held := fun s hs => h.held s (hfinished.mem_heldIn hs)
  completed := hfinished.closed h.completed
  parked := by
    intro g hg
    rw [hfinished.parked] at hg
    exact (h.parked g hg).of_perm rfl (places_perm _ _ hfinished.places) (h.parked g hg).archived

/-- A segment that is released has closed spans only, and none waits for nothing. -/
theorem Kept.release (h : l.Kept d) :
    l.release.2.Kept d ∧ l.release.2.Waits ∧
      ∀ g, l.release.1 = some g → ∀ s ∈ g.spans, s.isClosed := by
  unfold Ledger.release
  split
  · next g hg =>
    split
    · refine ⟨⟨⟨h.wellKept.keys, h.wellKept.pending, h.wellKept.held⟩, h.nodup, h.open_iff, h.held,
        fun s hs => by contradiction, fun g hg => by contradiction⟩, fun g hg => by contradiction,
        ?_⟩
      intro g' hg' s hs
      rw [← Option.some.inj hg'] at hs
      rcases List.mem_append.mp hs with harchived | hcompleted
      · exact (h.parked g hg).archived s harchived
      · exact h.completed s hcompleted
    · next hpending =>
      exact ⟨h, fun _ _ => Nat.pos_of_ne_zero hpending, fun g hg => by contradiction⟩
  · next hnone => exact ⟨h, waits_of_not_parked hnone, fun g hg => by contradiction⟩

/-! ### Handles -/

/-- **Handled**: what an operation of a handle does to the ledger. -/
inductive Handled (l : Ledger) (id : Nat) : HandleOp → Option Segment × Ledger → Prop where
  /-- What is noted in a record, if it is open. -/
  | noted {op : HandleOp} {l' : Ledger} (hop : ∀ time, op ≠ .finish time)
      (hupdated : Updated l l') : Handled l id op (none, l')
  | finished {l' : Ledger} (time : Option UInt64) (hfinished : Finished l id l') :
      Handled l id (.finish time) l'.release
  /-- A handle that has finished, or was not prepared. -/
  | void (time : Option UInt64) (hclosed : l.open? id = none) :
      Handled l id (.finish time) (none, l)

theorem handled_handle (hw : WellKept l) (id : Nat) (now : UInt64) (op : HandleOp) :
    Handled l id op (l.handle id now op).value := by
  by_cases hfinish : ∃ time, op = .finish time
  · obtain ⟨time, rfl⟩ := hfinish
    show Handled l id _ (l.finish id (time.getD now)).value
    cases hopen : l.open? id with
    | none =>
      simp only [finish, hopen, Logged.pure_value]
      exact .void time hopen
    | some r =>
      obtain ⟨l', hfinished, hvalue⟩ := finished_finish hw
        (by rw [hopen, Option.isSome_some] : (l.open? id).isSome) (time.getD now)
      rw [hvalue]
      exact .finished time hfinished
  · have hop : ∀ time, op ≠ .finish time := fun time heq => hfinish ⟨time, heq⟩
    obtain ⟨l', hupdated, hvalue⟩ := updated_handle hw id now hop
    rw [hvalue]
    exact .noted hop hupdated

/-- **Every operation of a handle** keeps the docket, and what it hands over is closed. -/
theorem Kept.handled (h : l.Kept d) (hwaits : l.Waits) {id : Nat} {op : HandleOp}
    {r : Option Segment × Ledger} (hhandled : Handled l id op r) :
    r.2.Kept (d.noteHandle id op) ∧ r.2.Waits ∧
      ∀ g, r.1 = some g → ∀ s ∈ g.spans, s.isClosed := by
  cases hhandled with
  | noted hop hupdated =>
    rw [d.noteHandle_of_ne id hop]
    refine ⟨h.updated hupdated, fun g hg => ?_, fun g hg => by contradiction⟩
    rw [hupdated.pending]
    exact hwaits g (hupdated.parked ▸ hg)
  | finished time hfinished => exact (h.finished hfinished).release
  | void time hclosed =>
    have hnot : id ∉ d.unfinished := by
      rw [← h.open_iff, hclosed]
      exact Bool.false_ne_true
    have hsame : d.noteHandle id (.finish time) = d := by
      show ({ d with unfinished := d.unfinished.erase id } : Docket) = d
      rw [List.erase_of_not_mem hnot]
    rw [hsame]
    exact ⟨h, hwaits, fun g hg => by contradiction⟩

/-! ### The end of a segment -/

/-- The completed spans go with the segment. -/
theorem Kept.settled (h : l.Kept d) (hparked : l.parked = none) :
    Kept { l with completed := [] } d where
  wellKept := ⟨h.wellKept.keys, h.wellKept.pending, h.wellKept.held⟩
  nodup := h.nodup
  open_iff := h.open_iff
  held := h.held
  completed := fun s hs => by contradiction
  parked := by
    intro g hg
    rw [show l.parked = some g from hg] at hparked
    contradiction

/-- The segment is parked with all its spans. -/
theorem Kept.park (h : l.Kept d) {g : Segment} (hhoused : l.Housed d [] g.spans) :
    Kept { l with parked := some g } d where
  wellKept := ⟨h.wellKept.keys, h.wellKept.pending, h.wellKept.held⟩
  nodup := h.nodup
  open_iff := h.open_iff
  held := h.held
  completed := h.completed
  parked := by
    intro g' hg'
    rw [← Option.some.inj hg']
    exact ⟨hhoused.nodup, hhoused.prepared, hhoused.archived⟩

end Ledger

/-! ### Open segments -/

namespace Outline

/-- The ids of the open spans that are recorded. -/
def ids (x : Outline) : List Nat := x.marks.map (·.origin.id)

/-- **Placed**: the spans of an open segment are housed in its ledger, and the open ones
    are async exactly if a handle was prepared on them. Then they have a record. -/
structure Placed (x : Outline) (l : Ledger) (d : Docket) : Prop where
  housed : l.Housed d x.ids x.spans
  lt : ∀ id ∈ l.places x.ids x.spans, id < x.nextSpan
  known : ∀ id, (l.records.get? id).isSome → id ∈ d.prepared
  async : ∀ m ∈ x.marks, m.isAsync = true →
    ∃ r, l.records.get? m.origin.id = some r ∧ r.span = none
  plain : ∀ m ∈ x.marks, m.isAsync = false → m.origin.id ∉ d.prepared
  parked : l.parked = none

variable {x : Outline} {l l' : Ledger} {d : Docket}

theorem placed_new (id : String) (sampled : Bool) : Placed (.new id sampled) {} {} where
  housed := ⟨List.nodup_nil, fun id hid => by contradiction, fun s hs => by contradiction⟩
  lt := fun id hid => by contradiction
  known := fun id hsome => by contradiction
  async := fun m hm => by contradiction
  plain := fun m hm => by contradiction
  parked := rfl

/-- Whether the segment is sampled has no part in it. -/
theorem Placed.faded (h : x.Placed l d) (b : Bool) : Placed { x with sampled := b } l d :=
  { h with }

/-- Only the spans count that are recorded. -/
theorem Placed.of_marks_eq (h : x.Placed l d) {x' : Outline} (hmarks : x'.marks = x.marks)
    (hspans : x'.spans = x.spans) (hnext : x'.nextSpan = x.nextSpan) : x'.Placed l d := by
  have hids : x'.ids = x.ids := by rw [ids, ids, hmarks]
  refine ⟨?_, ?_, h.known, ?_, ?_, h.parked⟩
  · rw [hids, hspans]
    exact h.housed
  · rw [hids, hspans, hnext]
    exact h.lt
  · rw [hmarks]
    exact h.async
  · rw [hmarks]
    exact h.plain

/-- A span that is recorded gets an id that no other has. -/
theorem Placed.recorded (h : x.Placed l d) {o : Origin} (hid : o.id = x.nextSpan) :
    Placed { x with frames := some ⟨o, false⟩ :: x.frames, nextSpan := x.nextSpan + 1 } l d := by
  have hmarks : marks { x with frames := some ⟨o, false⟩ :: x.frames, nextSpan := x.nextSpan + 1 } =
      ⟨o, false⟩ :: x.marks := List.reduceOption_cons_of_some _ _
  -- the next id is above all ids in the places
  have hnew : x.nextSpan ∉ l.places x.ids x.spans := fun hmem => Nat.lt_irrefl _ (h.lt _ hmem)
  have hids : ids { x with frames := some ⟨o, false⟩ :: x.frames, nextSpan := x.nextSpan + 1 } =
      x.nextSpan :: x.ids := by rw [ids, hmarks, List.map_cons, hid, ids]
  refine ⟨?_, ?_, h.known, ?_, ?_, h.parked⟩
  · rw [hids]
    refine ⟨List.nodup_cons.mpr ⟨hnew, h.housed.nodup⟩, fun id hid => ?_, h.housed.archived⟩
    exact List.mem_cons_of_mem _ (h.housed.prepared id hid)
  · rw [hids]
    intro id hid
    rcases List.mem_cons.mp hid with rfl | hold
    · exact Nat.lt_succ_self _
    · exact Nat.lt_succ_of_lt (h.lt id hold)
  · rw [hmarks]
    intro m hm hasync
    rcases List.mem_cons.mp hm with rfl | hm
    · contradiction
    · exact h.async m hm hasync
  · rw [hmarks]
    intro m hm hplain
    rcases List.mem_cons.mp hm with rfl | hm
    · intro hprepared
      exact hnew (hid ▸ h.housed.prepared _ hprepared)
    · exact h.plain m hm hplain

/-- **Opening a span** keeps the spans in their places. -/
theorem Placed.opened (h : x.Placed l d) (capacity : Nat) (kind : SpanKind) (now : UInt64) :
    (x.opened capacity kind now).Placed l d := by
  unfold Outline.opened
  split
  · exact h.of_marks_eq (List.reduceOption_cons_of_none _) rfl rfl
  · split
    · exact h.of_marks_eq (List.reduceOption_cons_of_none _) rfl rfl
    · exact h.recorded rfl

/-- The id of the span on top of the stack is not that of one below it. -/
theorem Placed.id_ne (h : x.Placed l d) {m : Mark} {rest : List (Option Mark)}
    (hframes : x.frames = some m :: rest) {m' : Mark} (hm' : m' ∈ rest.reduceOption) :
    m'.origin.id ≠ m.origin.id := by
  intro heq
  have hnodup := h.housed.nodup
  rw [Ledger.places, ids, marks_of_frames hframes, List.map_cons, List.cons_append,
    List.nodup_cons] at hnodup
  exact hnodup.1 (List.mem_append_left _ (List.mem_map.mpr ⟨m', hm', heq⟩))

/-- **Stopping a span**: it goes to the archive or into its record. -/
theorem Placed.popped (h : x.Placed l d) {s : Span} {rest : List (Option Mark)}
    (hframes : x.frames = some s.mark :: rest) {given : Option Span} (hpopped : Popped l s given l')
    {d' : Docket} (hprepared : d'.prepared = d.prepared) :
    Placed { x with frames := rest, spans := x.spans ++ given.toList } l' d' := by
  have hmarks := marks_of_frames hframes
  have hids : x.ids = s.id :: rest.reduceOption.map (·.origin.id) := by
    rw [ids, hmarks, List.map_cons]
    rfl
  -- the span leaves the stack for the archive or its record, the other places stay
  have hplaces : (l'.places (rest.reduceOption.map (·.origin.id))
      (x.spans ++ given.toList)).Perm (l.places x.ids x.spans) := by
    have hmoved : ((given.toList ++ heldIn l'.records).map (·.id)).Perm
        ((s :: heldIn l.records).map (·.id)) := ids_perm_of_origins hpopped.places
    have hall := hmoved.append_right (l.completed.map (·.id))
    simp only [List.map_append, List.map_cons, List.append_assoc, List.cons_append] at hall
    simp only [Ledger.places, hids, hpopped.completed, List.map_append, List.append_assoc,
      List.cons_append]
    exact ((hall.append_left _).append_left _).trans
      ((List.perm_middle.append_left _).trans List.perm_middle)
  refine ⟨h.housed.of_perm hprepared hplaces ?_, fun id hid => h.lt id (hplaces.mem_iff.mp hid), ?_,
    ?_, ?_, hpopped.parked.trans h.parked⟩
  · intro x' hx'
    rcases List.mem_append.mp hx' with hold | hnew
    · exact h.housed.archived x' hold
    · exact hpopped.closed x' (Option.mem_toList.mp hnew)
  · intro id hsome
    rw [hprepared]
    exact h.known id (hpopped.known id hsome)
  · intro m hm hasync
    rw [hpopped.get? _ (h.id_ne hframes hm)]
    exact h.async m (hmarks ▸ List.mem_cons_of_mem _ hm) hasync
  · intro m hm hplain
    rw [hprepared]
    exact h.plain m (hmarks ▸ List.mem_cons_of_mem _ hm) hplain

/-- Placing depends on what the ledger holds, not on the rest of its records. -/
theorem Placed.of_held (h : x.Placed l d) {d' : Docket} (hprepared : d'.prepared = d.prepared)
    (hplaces : ((heldIn l'.records ++ l'.completed).map Span.origin).Perm
      ((heldIn l.records ++ l.completed).map Span.origin))
    (hknown : ∀ id, (l'.records.get? id).isSome → (l.records.get? id).isSome)
    (hasync : ∀ id r, l.records.get? id = some r → r.span = none →
      ∃ r', l'.records.get? id = some r' ∧ r'.span = none)
    (hparked : l'.parked = l.parked) : x.Placed l' d' := by
  have hperm := Ledger.places_perm x.ids x.spans hplaces
  refine ⟨h.housed.of_perm hprepared hperm h.housed.archived,
    fun id hid => h.lt id (hperm.mem_iff.mp hid), ?_, ?_, ?_, hparked.trans h.parked⟩
  · intro id hsome
    rw [hprepared]
    exact h.known id (hknown id hsome)
  · intro m hm hm'
    obtain ⟨r, hget, hspan⟩ := h.async m hm hm'
    exact hasync _ r hget hspan
  · rw [hprepared]
    exact h.plain

/-- **Every operation of a handle** keeps the spans of an open segment in their places. -/
theorem Placed.handled (h : x.Placed l d) {id : Nat} {op : HandleOp}
    {r : Option Segment × Ledger} (hhandled : l.Handled id op r) :
    x.Placed r.2 (d.noteHandle id op) := by
  have hsame := d.prepared_noteHandle id op
  cases hhandled with
  | noted hop hupdated =>
    refine h.of_held hsame ?_ (fun id hsome => ?_) (fun id r hget hspan => ?_) hupdated.parked
    · rw [hupdated.completed]
      exact (hupdated.places.append_right _).map _
    · have hspans := congrArg Option.isSome (hupdated.get? id)
      rw [Option.isSome_map, Option.isSome_map] at hspans
      rwa [← hspans]
    · have hspans := hupdated.get? id
      rw [hget, Option.map_some, Option.map_eq_some_iff] at hspans
      obtain ⟨r', hget', heq⟩ := hspans
      exact ⟨r', hget', heq.trans hspan⟩
  | finished time hfinished =>
    -- the segment is open, so nothing is released
    have hparked := hfinished.parked.trans h.parked
    rw [Ledger.release_of_not_parked hparked]
    refine h.of_held hsame hfinished.places hfinished.known (fun id' r hget hspan => ?_)
      hfinished.parked
    by_cases hid : id' = id
    · subst hid
      exact hfinished.get?_self r hget hspan
    · exact ⟨r, (hfinished.get? id' hid).trans hget, hspan⟩
  | void time hclosed =>
    exact h.of_held hsame (.refl _) (fun id h => h) (fun id r hget hspan => ⟨r, hget, hspan⟩) rfl

/-- **Preparing a span** gives it a record and leaves it on the stack. -/
theorem Placed.prepared (h : x.Placed l d) {m : Mark} {rest : List (Option Mark)}
    (hframes : x.frames = some m :: rest) (n : Nat) (hopened : l.Opened m.origin.id l') :
    Placed { x with frames := some { m with isAsync := true } :: rest, ledger := some n } l'
      (d.note (.prepared m.origin.id)) := by
  have hmarks := marks_of_frames hframes
  have hmarks' : marks { x with
      frames := some { m with isAsync := true } :: rest
      ledger := some n } = { m with isAsync := true } :: rest.reduceOption :=
    List.reduceOption_cons_of_some _ _
  have hids : ids { x with
      frames := some { m with isAsync := true } :: rest
      ledger := some n } = x.ids := by
    rw [ids, ids, hmarks, hmarks', List.map_cons, List.map_cons]
  have hplaces : (l'.places x.ids x.spans).Perm (l.places x.ids x.spans) := by
    apply Ledger.places_perm
    rw [hopened.completed]
    exact (hopened.held.append_right _).map _
  have hmem : m.origin.id ∈ x.ids := by
    rw [ids, hmarks]
    exact List.mem_cons_self
  refine ⟨⟨?_, fun id hid => ?_, h.housed.archived⟩, ?_, fun id hsome => ?_, ?_, ?_,
    hopened.parked.trans h.parked⟩
  · rw [hids]
    exact hplaces.nodup_iff.mpr h.housed.nodup
  · rw [hids]
    apply hplaces.mem_iff.mpr
    rcases List.mem_append.mp hid with hold | hnew
    · exact h.housed.prepared id hold
    · rw [List.mem_singleton.mp hnew]
      exact List.mem_append_left _ hmem
  · rw [hids]
    exact fun id hid => h.lt id (hplaces.mem_iff.mp hid)
  · by_cases hid : id = m.origin.id
    · exact List.mem_append_right _ (List.mem_singleton.mpr hid)
    · rw [hopened.get? id hid] at hsome
      exact List.mem_append_left _ (h.known id hsome)
  · rw [hmarks']
    intro m' hm' hasync
    rcases List.mem_cons.mp hm' with rfl | hm'
    · exact hopened.get?_self
    · rw [hopened.get? _ (h.id_ne hframes hm')]
      exact h.async m' (hmarks ▸ List.mem_cons_of_mem _ hm') hasync
  · rw [hmarks']
    intro m' hm' hplain hprepared
    rcases List.mem_cons.mp hm' with rfl | hm'
    · contradiction
    · rcases List.mem_append.mp hprepared with hold | hnew
      · exact h.plain m' (hmarks ▸ List.mem_cons_of_mem _ hm') hplain hold
      · exact h.id_ne hframes hm' (List.mem_singleton.mp hnew)

/-- A span on the stack that was not prepared has no record. -/
theorem Placed.unprepared (h : x.Placed l d) {m : Mark} (hm : m ∈ x.marks)
    (hplain : m.isAsync = false) : l.records.get? m.origin.id = none := by
  rw [← Option.not_isSome_iff_eq_none]
  exact fun hsome => h.plain m hm hplain (h.known _ hsome)

end Outline

end TraceLink
