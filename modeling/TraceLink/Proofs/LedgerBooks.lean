import Mathlib.Data.List.Nodup
import TraceLink.Proofs.Outline

/-! # The books of a ledger

    A ledger keeps a record of each async span until both sides are done with it.
    Its books are in order if every span has one record, the pending handles are
    the records without an end time, and a span in a record is the span of that
    record and still has to be finished.

    Every operation keeps the books in order, and no operation loses a span: what
    the strand takes off its stack is given back closed, or it is held in a record
    until its handle finishes and then it is completed. -/

namespace TraceLink

/-! ### Entries up to order -/

namespace Entries

variable {κ α : Type} [DecidableEq κ]

theorem mem_of_get? {es : Entries κ α} {key : κ} {value : α} (h : get? es key = some value) :
    (key, value) ∈ es := by
  induction es with
  | nil => contradiction
  | cons e rest ih =>
    rw [get?_cons] at h
    split at h
    · next he =>
      obtain rfl := Option.some.inj h
      subst he
      exact List.mem_cons_self
    · exact List.mem_cons_of_mem _ (ih h)

theorem get?_of_mem {es : Entries κ α} (hkeys : (es.map Prod.fst).Nodup) {key : κ} {value : α}
    (h : (key, value) ∈ es) : get? es key = some value := by
  induction es with
  | nil => contradiction
  | cons e rest ih =>
    rw [List.map_cons, List.nodup_cons] at hkeys
    rw [get?_cons]
    rcases List.mem_cons.mp h with rfl | hrest
    · rw [if_pos rfl]
    · rw [if_neg, ih hkeys.2 hrest]
      intro he
      exact hkeys.1 (he ▸ List.mem_map_of_mem hrest)

theorem get?_eq_none_iff {es : Entries κ α} {key : κ} :
    get? es key = none ↔ key ∉ es.map Prod.fst := by
  induction es with
  | nil => simp
  | cons e rest ih =>
    rw [get?_cons, List.map_cons, List.mem_cons]
    by_cases he : e.1 = key
    · simp [he]
    · simp [he, Ne.symm he, ih]

theorem get?_erase_self {es : Entries κ α} (hkeys : (es.map Prod.fst).Nodup) (key : κ) :
    get? (erase key es) key = none := by
  rw [get?_eq_none_iff, keys_erase]
  exact hkeys.not_mem_erase

theorem erase_of_get?_eq_none {es : Entries κ α} {key : κ} (h : get? es key = none) :
    erase key es = es := by
  induction es with
  | nil => rfl
  | cons e rest ih =>
    rw [get?_cons] at h
    by_cases he : e.1 = key
    · simp [he] at h
    · rw [if_neg he] at h
      rw [erase, if_neg he, ih h]

theorem erase_put_self (es : Entries κ α) (key : κ) (value : α) :
    erase key (put key value es) = erase key es := by
  induction es with
  | nil => exact if_pos rfl
  | cons e rest ih =>
    by_cases he : e.1 = key
    · rw [put, if_pos he, erase, if_pos he, erase, if_pos he]
    · rw [put, if_neg he, erase, if_neg he, erase, if_neg he, ih]

theorem perm_erase {es : Entries κ α} {key : κ} {value : α} (h : get? es key = some value) :
    es.Perm ((key, value) :: erase key es) := by
  induction es with
  | nil => contradiction
  | cons e rest ih =>
    rw [get?_cons] at h
    by_cases he : e.1 = key
    · rw [if_pos he] at h
      rw [erase, if_pos he, ← he, ← Option.some.inj h]
    · rw [if_neg he] at h
      rw [erase, if_neg he]
      exact ((ih h).cons e).trans (.swap _ _ _)

theorem perm_put (es : Entries κ α) (key : κ) (value : α) :
    (put key value es).Perm ((key, value) :: erase key es) := by
  induction es with
  | nil => exact .refl _
  | cons e rest ih =>
    by_cases he : e.1 = key
    · rw [put, if_pos he, erase, if_pos he, he]
    · rw [put, if_neg he, erase, if_neg he]
      exact (ih.cons e).trans (.swap _ _ _)

theorem nodup_keys_put {es : Entries κ α} (hkeys : (es.map Prod.fst).Nodup) (key : κ)
    (value : α) : ((put key value es).map Prod.fst).Nodup := by
  rw [keys_put, hasKey_eq_isSome]
  split
  · exact hkeys
  · next hnew =>
    rw [Option.not_isSome_iff_eq_none, get?_eq_none_iff] at hnew
    rw [List.nodup_append]
    refine ⟨hkeys, List.nodup_singleton key, ?_⟩
    intro a ha b hb hab
    rw [List.mem_singleton] at hb
    exact hnew (hb ▸ hab ▸ ha)

theorem nodup_keys_erase {es : Entries κ α} (hkeys : (es.map Prod.fst).Nodup) (key : κ) :
    ((erase key es).map Prod.fst).Nodup := by
  rw [keys_erase]
  exact hkeys.erase key

end Entries

/-! ### Closing what a handle recorded -/

/-- A span that is closed if it was still open is closed then, and has the origin it
    had. -/
theorem Span.closeOr_value (s : Span) (time : UInt64) (already : Nat → Diagnostic) :
    (s.closeOr already time).value.origin = s.origin ∧
      (s.closeOr already time).value.isClosed := by
  unfold closeOr
  cases h : s.close time with
  | ok s' =>
    rw [close_eq_ok h]
    exact ⟨rfl, rfl⟩
  | error x =>
    obtain ⟨hclosed, rfl⟩ := close_eq_error h
    exact ⟨rfl, hclosed⟩

/-- The span that a handle finished is closed, and has the origin it had. -/
theorem Deferral.applyTo_value (d : Deferral) (s : Span) (time : UInt64) :
    (d.applyTo s time).value.origin = s.origin ∧ (d.applyTo s time).value.isClosed := by
  -- tags, logs and the failure are replayed first, and none of them has a say in the mark
  have htags := Span.mark_foldlM (fun s e => Span.mark_tag e.1 e.2 s) d.tags s
  have hlogs := (Span.mark_foldlM (fun s e => Span.mark_log e s) d.logs _).trans htags
  unfold applyTo
  split
  · have hfailed := (Span.mark_markFailed _).trans hlogs
    exact ⟨(Span.closeOr_value _ time _).1.trans (congrArg Mark.origin hfailed),
      (Span.closeOr_value _ time _).2⟩
  · exact ⟨(Span.closeOr_value _ time _).1.trans (congrArg Mark.origin hlogs),
      (Span.closeOr_value _ time _).2⟩

namespace Ledger

/-! ### Books in order -/

/-- The spans in the records, taken off the stack before their handles finished. -/
def heldIn (rs : Entries Nat Deferral) : List Span := rs.filterMap (·.2.span)

/-- How many records have no end time yet. -/
def openIn (rs : Entries Nat Deferral) : Nat := rs.countP (·.2.stop.isNone)

/-- **Books in order**. -/
structure WellKept (l : Ledger) : Prop where
  keys : (l.records.map Prod.fst).Nodup
  pending : l.pending = openIn l.records
  held : ∀ id d s, l.records.get? id = some d → d.span = some s → s.id = id ∧ d.stop = none

theorem wellKept_empty : WellKept {} where
  keys := List.nodup_nil
  pending := rfl
  held := fun _ _ _ h => by contradiction

theorem heldIn_perm {rs rs' : Entries Nat Deferral} {id : Nat} {d : Deferral}
    (h : rs.Perm ((id, d) :: rs')) : (heldIn rs).Perm (d.span.toList ++ heldIn rs') := by
  refine (h.filterMap _).trans ?_
  rw [List.filterMap_cons]
  cases d.span <;> exact .refl _

theorem openIn_perm {rs rs' : Entries Nat Deferral} {id : Nat} {d : Deferral}
    (h : rs.Perm ((id, d) :: rs')) :
    openIn rs = openIn rs' + if d.stop.isNone then 1 else 0 := by
  rw [openIn, h.countP_eq, List.countP_cons]
  rfl

theorem open?_isSome_iff (l : Ledger) (id : Nat) :
    (l.open? id).isSome ↔ ∃ d, l.records.get? id = some d ∧ d.stop = none := by
  unfold open?
  cases l.records.get? id with
  | none => simp
  | some d => simp [Option.filter]

theorem open?_eq_some_iff {l : Ledger} {id : Nat} {d : Deferral} :
    l.open? id = some d ↔ l.records.get? id = some d ∧ d.stop = none := by
  unfold open?
  rw [Option.filter_eq_some_iff, Option.isNone_iff_eq_none]

/-- Storing a record keeps the books in order if its span is its own and the pending
    handles are counted. -/
theorem WellKept.put {l : Ledger} (hw : WellKept l) {id : Nat} {d : Deferral} {pending : Nat}
    {completed : List Span} {parked : Option Segment}
    (hpending : pending = openIn (Entries.erase id l.records) + if d.stop.isNone then 1 else 0)
    (hheld : ∀ s, d.span = some s → s.id = id ∧ d.stop = none) :
    WellKept ⟨Entries.put id d l.records, pending, completed, parked⟩ where
  keys := Entries.nodup_keys_put hw.keys id d
  pending := by rw [hpending, openIn_perm (Entries.perm_put l.records id d)]
  held := by
    intro id' d' s hget hs
    rw [Entries.get?_put] at hget
    split at hget
    · next hid =>
      obtain rfl := Option.some.inj hget
      subst hid
      exact hheld s hs
    · exact hw.held id' d' s hget hs

theorem WellKept.erase {l : Ledger} (hw : WellKept l) {id : Nat} {pending : Nat}
    {completed : List Span} {parked : Option Segment}
    (hpending : pending = openIn (Entries.erase id l.records)) :
    WellKept ⟨Entries.erase id l.records, pending, completed, parked⟩ where
  keys := Entries.nodup_keys_erase hw.keys id
  pending := hpending
  held := by
    intro id' d' s hget hs
    by_cases hid : id = id'
    · subst hid
      rw [Entries.get?_erase_self hw.keys] at hget
      contradiction
    · rw [Entries.get?_erase_of_ne _ hid] at hget
      exact hw.held id' d' s hget hs

theorem WellKept.pending_of_get? {l : Ledger} (hw : WellKept l) {id : Nat} {d : Deferral}
    (h : l.records.get? id = some d) :
    l.pending = openIn (Entries.erase id l.records) + if d.stop.isNone then 1 else 0 := by
  rw [hw.pending, openIn_perm (Entries.perm_erase h)]

/-- No handle is pending if and only if no record is open. -/
theorem WellKept.pending_eq_zero_iff {l : Ledger} (hw : WellKept l) :
    l.pending = 0 ↔ ∀ id, (l.open? id).isSome = false := by
  rw [hw.pending, openIn, List.countP_eq_zero]
  constructor
  · intro hnone id
    rw [Bool.eq_false_iff, ne_eq, open?_isSome_iff]
    rintro ⟨d, hget, hstop⟩
    exact hnone (id, d) (Entries.mem_of_get? hget) (by simp [hstop])
  -- the keys are distinct, so a record in the list is the one that is found
  · rintro hclosed ⟨id, d⟩ hmem hstop
    have hopen := (open?_isSome_iff l id).mpr
      ⟨d, Entries.get?_of_mem hw.keys hmem, by simpa using hstop⟩
    rw [hclosed id] at hopen
    contradiction

/-- While no handle is pending, no span is held. -/
theorem WellKept.heldIn_eq_nil {l : Ledger} (hw : WellKept l) (h : l.pending = 0) :
    heldIn l.records = [] := by
  rw [heldIn, List.filterMap_eq_nil_iff]
  rintro ⟨id, d⟩ hmem
  have hget := Entries.get?_of_mem hw.keys hmem
  cases hs : d.span with
  | none => rfl
  | some s =>
    have hopen := (open?_isSome_iff l id).mpr ⟨d, hget, (hw.held id d s hget hs).2⟩
    rw [hw.pending_eq_zero_iff.mp h id] at hopen
    contradiction

/-! ### Operations -/

/-- What is noted in a record without its span and its end time does not touch the
    books. -/
structure Updated (l l' : Ledger) : Prop where
  wellKept : WellKept l'
  open? : ∀ id, (l'.open? id).isSome = (l.open? id).isSome
  get? : ∀ id, (l'.records.get? id).map Deferral.span = (l.records.get? id).map Deferral.span
  places : (heldIn l'.records).Perm (heldIn l.records)
  pending : l'.pending = l.pending
  completed : l'.completed = l.completed
  parked : l'.parked = l.parked

theorem updated_update {l : Ledger} (hw : WellKept l) (id : Nat) {change : Deferral → Deferral}
    (hspan : ∀ d, (change d).span = d.span) (hstop : ∀ d, (change d).stop = d.stop) :
    Updated l (l.update id change) := by
  unfold update
  cases hopen : l.open? id with
  | none => exact ⟨hw, fun _ => rfl, fun _ => rfl, .refl _, rfl, rfl, rfl⟩
  | some d =>
    obtain ⟨hget, hnone⟩ := open?_eq_some_iff.mp hopen
    refine ⟨hw.put ?_ ?_, ?_, ?_, ?_, rfl, rfl, rfl⟩
    · rw [hstop]
      exact hw.pending_of_get? hget
    · intro s hs
      rw [hspan] at hs
      rw [hstop]
      exact hw.held id d s hget hs
    · intro id'
      rw [Bool.eq_iff_iff, open?_isSome_iff, open?_isSome_iff]
      simp only [Entries.get?_put]
      by_cases hid : id = id'
      · subst hid
        simp [hget, hstop]
      · simp [hid]
    · intro id'
      rw [Entries.get?_put]
      split
      · next hid => rw [← hid, hget, Option.map_some, Option.map_some, hspan]
      · rfl
    · refine (heldIn_perm (Entries.perm_put _ _ _)).trans ?_
      rw [hspan]
      exact (heldIn_perm (Entries.perm_erase hget)).symm

/-- What a handle does before it finishes is noted in its record. -/
theorem updated_handle {l : Ledger} (hw : WellKept l) (id : Nat) (now : UInt64) {op : HandleOp}
    (hop : ∀ time, op ≠ .finish time) :
    ∃ l', Updated l l' ∧ (l.handle id now op).value = (none, l') := by
  cases op with
  | tag key value =>
    exact ⟨l.update id fun d => { d with tags := d.tags ++ [(key, value)] },
      updated_update hw id (fun _ => rfl) fun _ => rfl, rfl⟩
  | log event =>
    exact ⟨l.update id fun d => { d with logs := d.logs ++ [event] },
      updated_update hw id (fun _ => rfl) fun _ => rfl, rfl⟩
  | markFailed =>
    exact ⟨l.update id fun d => { d with failed := true },
      updated_update hw id (fun _ => rfl) fun _ => rfl, rfl⟩
  | finish time => exact absurd rfl (hop time)

/-- What preparing a span does to the books: it has a record now, without a span or an end
    time. -/
structure Opened (l : Ledger) (id : Nat) (l' : Ledger) : Prop where
  wellKept : WellKept l'
  open? : ∀ id', (l'.open? id').isSome ↔ (l.open? id').isSome ∨ id' = id
  get?_self : ∃ r, l'.records.get? id = some r ∧ r.span = none
  get? : ∀ id', id' ≠ id → l'.records.get? id' = l.records.get? id'
  held : (heldIn l'.records).Perm (heldIn l.records)
  completed : l'.completed = l.completed
  parked : l'.parked = l.parked

theorem opened_prepare {l : Ledger} (hw : WellKept l) {id : Nat}
    (hnone : l.records.get? id = none) :
    Opened l id (l.prepare id) := by
  have hput := Entries.perm_put l.records id {}
  rw [Entries.erase_of_get?_eq_none hnone] at hput
  refine ⟨hw.put ?_ fun s hs => by contradiction, ?_, ⟨{}, ?_, rfl⟩, ?_, heldIn_perm hput, rfl,
    rfl⟩
  · rw [Entries.erase_of_get?_eq_none hnone, hw.pending]
    rfl
  · intro id'
    rw [open?_isSome_iff, open?_isSome_iff]
    simp only [prepare, Entries.get?_put]
    by_cases hid : id = id'
    · simp [hid]
    · simp [hid, Ne.symm hid]
  · simp only [prepare, Entries.get?_put, if_true]
  · intro id' hid
    simp only [prepare, Entries.get?_put, if_neg hid.symm]

/-- What popping does to the books: the span is given back closed, or it is held. -/
structure Popped (l : Ledger) (s : Span) (given : Option Span) (l' : Ledger) : Prop where
  wellKept : WellKept l'
  open? : ∀ id, (l'.open? id).isSome = (l.open? id).isSome
  get? : ∀ id, id ≠ s.id → l'.records.get? id = l.records.get? id
  known : ∀ id, (l'.records.get? id).isSome → (l.records.get? id).isSome
  places : ((given.toList ++ heldIn l'.records).map Span.origin).Perm
    (s.origin :: (heldIn l.records).map Span.origin)
  closed : ∀ s', given = some s' → s'.isClosed
  completed : l'.completed = l.completed
  parked : l'.parked = l.parked

/-- The handle finished before: the record goes, and the span is given back. -/
theorem popped_erase {l : Ledger} (hw : WellKept l) {s s' : Span} {d : Deferral}
    {time : UInt64} (hget : l.records.get? s.id = some d) (hspan : d.span = none)
    (hstop : d.stop = some time) (horigin : s'.origin = s.origin) (hclosed : s'.isClosed) :
    Popped l s (some s') { l with records := Entries.erase s.id l.records } := by
  have hheld := heldIn_perm (Entries.perm_erase hget)
  rw [hspan] at hheld
  refine ⟨hw.erase ?_, ?_, ?_, ?_, ?_, ?_, rfl, rfl⟩
  · have hpending := hw.pending_of_get? hget
    rw [hstop] at hpending
    exact hpending
  · intro id
    rw [Bool.eq_iff_iff, open?_isSome_iff, open?_isSome_iff]
    by_cases hid : s.id = id
    · subst hid
      simp [Entries.get?_erase_self hw.keys, hget, hstop]
    · simp [Entries.get?_erase_of_ne _ hid]
  · intro id hid
    exact Entries.get?_erase_of_ne _ hid.symm
  · intro id hsome
    by_cases hid : s.id = id
    · rw [← hid, hget, Option.isSome_some]
    · rwa [Entries.get?_erase_of_ne _ hid] at hsome
  · simp only [Option.toList_some, List.singleton_append, List.map_cons, horigin]
    exact (hheld.symm.map _).cons _
  · intro s'' hs''
    exact Option.some.inj hs'' ▸ hclosed

/-- The handle is pending: the span waits for it in its record. -/
theorem popped_put {l : Ledger} (hw : WellKept l) {s : Span} {d : Deferral}
    (hget : l.records.get? s.id = some d) (hspan : d.span = none) (hstop : d.stop = none) :
    Popped l s none { l with records := Entries.put s.id { d with span := some s } l.records } := by
  have hheld := heldIn_perm (Entries.perm_erase hget)
  rw [hspan] at hheld
  refine ⟨hw.put ?_ ?_, ?_, ?_, ?_, ?_, ?_, rfl, rfl⟩
  · have hpending := hw.pending_of_get? hget
    exact hpending
  · intro s' hs'
    obtain rfl := Option.some.inj hs'
    exact ⟨rfl, hstop⟩
  · intro id
    rw [Bool.eq_iff_iff, open?_isSome_iff, open?_isSome_iff]
    simp only [Entries.get?_put]
    by_cases hid : s.id = id
    · subst hid
      simp [hget, hstop]
    · simp [hid]
  · intro id hid
    simp only [Entries.get?_put, if_neg hid.symm]
  · intro id hsome
    by_cases hid : s.id = id
    · rw [← hid, hget, Option.isSome_some]
    · simpa only [Entries.get?_put, if_neg hid] using hsome
  · have hput := heldIn_perm (Entries.perm_put l.records s.id { d with span := some s })
    exact (hput.trans (hheld.symm.cons s)).map Span.origin
  · intro s' hs'
    contradiction

theorem popped_pop {l : Ledger} (hw : WellKept l) {s : Span} {d : Deferral}
    (hget : l.records.get? s.id = some d) (hspan : d.span = none) :
    Popped l s (l.pop s).value.1 (l.pop s).value.2 := by
  cases hstop : d.stop with
  | some time =>
    have hpop : (l.pop s).value = (some (d.applyTo s time).value,
        { l with records := Entries.erase s.id l.records }) := by
      simp only [pop, hget, hstop, Logged.bind_value, Logged.pure_value]
    obtain ⟨horigin, hclosed⟩ := d.applyTo_value s time
    rw [hpop]
    exact popped_erase hw hget hspan hstop horigin hclosed
  | none =>
    have hpop : (l.pop s).value =
        (none, { l with records := Entries.put s.id { d with span := some s } l.records }) := by
      simp only [pop, hget, hstop, Logged.pure_value]
    rw [hpop]
    exact popped_put hw hget hspan hstop

/-- A span that is closed already needs no books. -/
theorem popped_of_closed {l : Ledger} (hw : WellKept l) {s s' : Span}
    (horigin : s'.origin = s.origin) (hclosed : s'.isClosed) : Popped l s (some s') l where
  wellKept := hw
  open? := fun _ => rfl
  get? := fun _ _ => rfl
  known := fun _ h => h
  places := by
    simp only [Option.toList_some, List.singleton_append, List.map_cons, horigin]
    exact .refl _
  closed := fun _ h => Option.some.inj h ▸ hclosed
  completed := rfl
  parked := rfl

/-- What finishing does to the books of a record that is open: its end is there, and
    its span is completed if it was held. -/
structure Finished (l : Ledger) (id : Nat) (l' : Ledger) : Prop where
  wellKept : WellKept l'
  open? : ∀ id', (l'.open? id').isSome ↔ (l.open? id').isSome ∧ id' ≠ id
  get? : ∀ id', id' ≠ id → l'.records.get? id' = l.records.get? id'
  known : ∀ id', (l'.records.get? id').isSome → (l.records.get? id').isSome
  get?_self : ∀ d, l.records.get? id = some d → d.span = none →
    ∃ d', l'.records.get? id = some d' ∧ d'.span = none
  places : ((heldIn l'.records ++ l'.completed).map Span.origin).Perm
    ((heldIn l.records ++ l.completed).map Span.origin)
  closed : (∀ s ∈ l.completed, s.isClosed) → ∀ s ∈ l'.completed, s.isClosed
  parked : l'.parked = l.parked

/-- The span was taken off the stack before: its record goes, and it is completed. -/
theorem finished_erase {l : Ledger} (hw : WellKept l) {id : Nat} {d : Deferral} {s s' : Span}
    (hget : l.records.get? id = some d) (hstop : d.stop = none) (hspan : d.span = some s)
    (horigin : s'.origin = s.origin) (hclosed : s'.isClosed) :
    Finished l id { l with
      records := Entries.erase id l.records
      completed := l.completed ++ [s']
      pending := l.pending - 1 } := by
  have hpending := hw.pending_of_get? hget
  rw [hstop] at hpending
  refine ⟨hw.erase ?_, ?_, ?_, ?_, ?_, ?_, ?_, rfl⟩
  · rw [hpending]
    rfl
  · intro id'
    rw [open?_isSome_iff, open?_isSome_iff]
    by_cases hid : id = id'
    · subst hid
      simp [Entries.get?_erase_self hw.keys]
    · simp [Entries.get?_erase_of_ne _ hid, Ne.symm hid]
  · intro id' hid
    exact Entries.get?_erase_of_ne _ hid.symm
  · intro id' hsome
    by_cases hid : id = id'
    · rw [← hid, hget, Option.isSome_some]
    · rwa [Entries.get?_erase_of_ne _ hid] at hsome
  · intro d' hd' hnone
    rw [hget] at hd'
    rw [← Option.some.inj hd', hspan] at hnone
    contradiction
  · -- the span moves from the records to the end of the completed ones
    have hheld := heldIn_perm (Entries.perm_erase hget)
    rw [hspan] at hheld
    simp only [List.map_append, List.map_cons, List.map_nil, horigin]
    have hback := hheld.map Span.origin
    simp only [Option.toList_some, List.singleton_append, List.map_cons] at hback
    refine .trans ?_ (hback.symm.append_right _)
    rw [← List.append_assoc]
    exact List.perm_append_singleton _ _
  · intro hall s'' hs''
    rcases List.mem_append.mp hs'' with hold | hnew
    · exact hall s'' hold
    · exact List.mem_singleton.mp hnew ▸ hclosed

/-- The span is still on the stack: its end is noted in its record. -/
theorem finished_put {l : Ledger} (hw : WellKept l) {id : Nat} {d : Deferral}
    (hget : l.records.get? id = some d) (hstop : d.stop = none) (hspan : d.span = none)
    (time : UInt64) :
    Finished l id { l with
      records := Entries.put id { d with stop := some time } l.records
      pending := l.pending - 1 } := by
  have hpending := hw.pending_of_get? hget
  rw [hstop] at hpending
  refine ⟨hw.put ?_ ?_, ?_, ?_, ?_, ?_, ?_, fun h => h, rfl⟩
  · rw [hpending]
    rfl
  · intro s hs
    rw [hspan] at hs
    contradiction
  · intro id'
    rw [open?_isSome_iff, open?_isSome_iff]
    simp only [Entries.get?_put]
    by_cases hid : id = id'
    · subst hid
      simp
    · simp [hid, Ne.symm hid]
  · intro id' hid
    simp only [Entries.get?_put, if_neg hid.symm]
  · intro id' hsome
    by_cases hid : id = id'
    · rw [← hid, hget, Option.isSome_some]
    · simpa only [Entries.get?_put, if_neg hid] using hsome
  · intro d' hd' hnone
    exact ⟨{ d with stop := some time }, by simp only [Entries.get?_put, if_true], hspan⟩
  · have hheld := heldIn_perm (Entries.perm_erase hget)
    have hput := heldIn_perm (Entries.perm_put l.records id { d with stop := some time })
    exact ((hput.trans hheld.symm).append_right _).map Span.origin

/-- A handle that is pending is finished, and then the segment is released if it can
    be. -/
theorem finished_finish {l : Ledger} (hw : WellKept l) {id : Nat} (hopen : (l.open? id).isSome)
    (time : UInt64) :
    ∃ l', Finished l id l' ∧ (l.finish id time).value = l'.release := by
  obtain ⟨d, hd⟩ := Option.isSome_iff_exists.mp hopen
  obtain ⟨hget, hstop⟩ := open?_eq_some_iff.mp hd
  cases hspan : d.span with
  | some s =>
    obtain ⟨horigin, hclosed⟩ := d.applyTo_value s time
    refine ⟨_, finished_erase hw hget hstop hspan horigin hclosed, ?_⟩
    simp only [finish, hd, hspan, Logged.bind_value, Logged.pure_value]
  | none =>
    refine ⟨_, finished_put hw hget hstop hspan time, ?_⟩
    simp only [finish, hd, hspan, Logged.pure_value]

end Ledger

end TraceLink
