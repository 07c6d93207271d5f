import TraceLink.Proofs.OwnerRuns

/-! # What becomes of the spans that were stopped

    When the strand stops a span, the span is closed and joins the segment, or its end
    was left to a handle. Then there are two ways. If the handle has finished, what it
    recorded is applied right away. If not, the span is held in the record of the handle
    until it finishes. By both ways the segment gets the same span: the one that left the
    stack, ended by all that the handle said.

    The *contents* of a segment say so while it is on its way, of the archive and the
    ledger together. -/

namespace TraceLink

open Ledger (WellKept)

/-! ### What a handle says -/

namespace HandleOp

/-- The tag that the operation records. -/
def tag? : HandleOp → Option (String × String)
  | .tag key value => some (key, value)
  | _ => none

/-- The log event that the operation records. -/
def event? : HandleOp → Option LogEvent
  | .log event => some event
  | _ => none

/-- The end time that the operation gives. -/
def end? : HandleOp → Option UInt64
  | .finish time => time
  | _ => none

end HandleOp

namespace Span

/-- The span with an end time, which it may have already. -/
def closedAt (s : Span) (time : UInt64) : Span :=
  if s.isClosed then s else { s with stop := some time }

/-- The span with what a handle said behind what its strand wrote: the tags and the log
    events in order, the failure, and the end time. A span that the strand closed stays
    as it is. -/
def endedBy (s : Span) (said : List HandleOp) : Span :=
  if s.isClosed then s
  else { s with
    tags := s.tags ++ said.filterMap HandleOp.tag?
    logs := s.logs ++ said.filterMap HandleOp.event?
    failed := s.failed || said.contains .markFailed
    stop := said.findSome? HandleOp.end? }

@[simp] theorem id_closedAt (s : Span) (time : UInt64) : (s.closedAt time).id = s.id := by
  unfold closedAt
  split
  · rfl
  · rfl

@[simp] theorem id_endedBy (s : Span) (said : List HandleOp) : (s.endedBy said).id = s.id := by
  unfold endedBy
  split
  · rfl
  · rfl

/-- A span that is closed if it was still open. -/
theorem closeOr_eq_closedAt (s : Span) (time : UInt64) (already : Nat → Diagnostic) :
    (s.closeOr already time).value = s.closedAt time := by
  unfold closeOr close closedAt
  cases s.isClosed with
  | true => rfl
  | false => rfl

/-! ### Replaying a record -/

theorem foldl_tag_of_isClosed {s : Span} (h : s.isClosed = true) (tags : List (String × String)) :
    tags.foldl (fun s e => (s.tag e.1 e.2).value) s = s :=
  List.foldl_fixed' (fun _ => whileOpen_of_isClosed h _ _) tags

theorem foldl_tag_of_open {s : Span} (h : s.isClosed = false) (tags : List (String × String)) :
    tags.foldl (fun s e => (s.tag e.1 e.2).value) s = { s with tags := s.tags ++ tags } := by
  induction tags generalizing s with
  | nil => rw [List.append_nil]; rfl
  | cons e tags ih =>
    rw [List.foldl_cons, tag, whileOpen_of_open h]
    refine (ih (s := { s with tags := s.tags ++ [(e.1, e.2)] }) h).trans ?_
    rw [List.append_assoc]
    rfl

theorem foldl_log_of_isClosed {s : Span} (h : s.isClosed = true) (events : List LogEvent) :
    events.foldl (fun s e => (s.log e).value) s = s :=
  List.foldl_fixed' (fun _ => whileOpen_of_isClosed h _ _) events

theorem foldl_log_of_open {s : Span} (h : s.isClosed = false) (events : List LogEvent) :
    events.foldl (fun s e => (s.log e).value) s = { s with logs := s.logs ++ events } := by
  induction events generalizing s with
  | nil => rw [List.append_nil]; rfl
  | cons e events ih =>
    rw [List.foldl_cons, log, whileOpen_of_open h]
    refine (ih (s := { s with logs := s.logs ++ [e] }) h).trans ?_
    rw [List.append_assoc]
    rfl

end Span

namespace Deferral

/-- Applying a record replays the tags, the log events and the failure, and closes. -/
theorem applyTo_eq_closedAt (d : Deferral) (s : Span) (time : UInt64) :
    (d.applyTo s time).value =
      let tagged := d.tags.foldl (fun s e => (s.tag e.1 e.2).value) s
      let logged := d.logs.foldl (fun s e => (s.log e).value) tagged
      (if d.failed then logged.markFailed.value else logged).closedAt time := by
  unfold applyTo
  simp only [Logged.bind_value, Logged.foldlM_value]
  split
  · exact Span.closeOr_eq_closedAt _ time _
  · exact Span.closeOr_eq_closedAt _ time _

/-- What a record leaves on a span. -/
theorem applyTo_eq (d : Deferral) (s : Span) (time : UInt64) :
    (d.applyTo s time).value =
      if s.isClosed then s
      else { s with
        tags := s.tags ++ d.tags
        logs := s.logs ++ d.logs
        failed := s.failed || d.failed
        stop := some time } := by
  rw [applyTo_eq_closedAt]
  dsimp only
  cases hclosed : s.isClosed with
  | true =>
    have hfailed : (if d.failed then s.markFailed.value else s) = s := by
      split
      · exact Span.whileOpen_of_isClosed hclosed _ _
      · rfl
    rw [Span.foldl_tag_of_isClosed hclosed, Span.foldl_log_of_isClosed hclosed, hfailed, if_pos rfl,
      Span.closedAt, if_pos hclosed]
  | false =>
    -- neither tags nor log events nor the failure close the span
    have htags : Span.isClosed { s with tags := s.tags ++ d.tags } = false := hclosed
    have hlogs : Span.isClosed
      { s with tags := s.tags ++ d.tags, logs := s.logs ++ d.logs } = false := hclosed
    rw [Span.foldl_tag_of_open hclosed, Span.foldl_log_of_open htags, if_neg Bool.false_ne_true]
    cases d.failed with
    | false =>
      rw [Bool.or_false]
      exact if_neg (Bool.eq_false_iff.mp hclosed)
    | true =>
      rw [Bool.or_true, if_pos rfl, Span.markFailed, Span.whileOpen_of_open hlogs]
      exact if_neg (Bool.eq_false_iff.mp hclosed)

/-- The record after one more operation of its handle. -/
def note (d : Deferral) : HandleOp → Deferral
  | .tag key value => { d with tags := d.tags ++ [(key, value)] }
  | .log event => { d with logs := d.logs ++ [event] }
  | .markFailed => { d with failed := true }
  | .finish time => { d with stop := d.stop.or time }

theorem span_note (d : Deferral) (op : HandleOp) : (d.note op).span = d.span := by
  cases op <;> rfl

theorem stop_note (d : Deferral) {op : HandleOp} (h : ∀ time, op ≠ .finish time) :
    (d.note op).stop = d.stop := by
  cases op with
  | finish time => exact absurd rfl (h time)
  | _ => rfl

/-- The record holds what its handle said. -/
structure Holds (d : Deferral) (said : List HandleOp) : Prop where
  tags : d.tags = said.filterMap HandleOp.tag?
  logs : d.logs = said.filterMap HandleOp.event?
  failed : d.failed = said.contains .markFailed
  stop : d.stop = said.findSome? HandleOp.end?

theorem holds_nil : Holds {} [] := ⟨rfl, rfl, rfl, rfl⟩

variable {d : Deferral} {said : List HandleOp}

theorem Holds.note (h : d.Holds said) (op : HandleOp) : (d.note op).Holds (said ++ [op]) := by
  refine ⟨?_, ?_, ?_, ?_⟩
  · rw [List.filterMap_append, ← h.tags]
    cases op with
    | tag key value => rfl
    | _ => exact (List.append_nil _).symm
  · rw [List.filterMap_append, ← h.logs]
    cases op with
    | log event => rfl
    | _ => exact (List.append_nil _).symm
  · rw [List.contains_append, ← h.failed]
    cases op with
    | markFailed => exact (Bool.or_true _).symm
    | _ => exact (Bool.or_false _).symm
  · rw [List.findSome?_append, ← h.stop]
    cases op with
    | finish time => cases time <;> rfl
    | _ => exact Option.or_none.symm

/-- The record is applied at the end time that its handle gave. -/
theorem Holds.applyTo (h : d.Holds said) {time : UInt64}
    (htime : said.findSome? HandleOp.end? = some time) (s : Span) :
    (d.applyTo s time).value = s.endedBy said := by
  rw [applyTo_eq, Span.endedBy, h.tags, h.logs, h.failed, htime]

end Deferral

/-- The handles of a life name its ledger. -/
theorem Life.Linked.ledger?_eq {l : Life} (h : l.Linked) {n id : Nat}
    (hmem : AsyncHandle.span n id ∈ l.handles) : l.ledger? = some n := by
  obtain ⟨n', id', heq, hn'⟩ := h.handles _ hmem
  obtain ⟨rfl, rfl⟩ := AsyncHandle.span.inj heq
  exact hn'

theorem Life.Linked.same_ledger {l : Life} (h : l.Linked) {n n' id id' : Nat}
    (hmem : AsyncHandle.span n id ∈ l.handles) (hmem' : AsyncHandle.span n' id' ∈ l.handles) :
    n' = n :=
  Option.some.inj ((h.ledger?_eq hmem').symm.trans (h.ledger?_eq hmem))

/-! ### Contents -/

/-- **Contents** of a segment: what became of the spans in `left`, which left the stack
    at the time that stands before each, when the handles have said what `said` tells.
    The spans in `done` have joined the segment or wait to do so. -/
structure Contents (done : List Span) (records : Entries Nat Deferral) (l : Life)
    (said : AsyncHandle → List HandleOp) (left : List (UInt64 × Span)) : Prop where
  noted : ∀ n id d, AsyncHandle.span n id ∈ l.handles → records.get? id = some d →
    d.Holds (said (.span n id))
  plain : ∀ x ∈ left, x.2.isAsync = false → x.2.closedAt x.1 ∈ done
  /-- A span whose end was left to a handle is held for it, or the handle has ended it. -/
  async : ∀ x ∈ left, x.2.isAsync = true → ∃ n, AsyncHandle.span n x.2.id ∈ l.handles ∧
    ((∃ d, records.get? x.2.id = some d ∧ d.span = some x.2) ∨
      (AsyncHandle.span n x.2.id ∈ l.finished ∧ x.2.endedBy (said (.span n x.2.id)) ∈ done))
  known : ∀ y ∈ done, ∃ x ∈ left, x.2.id = y.id
  held : ∀ id d s, records.get? id = some d → d.span = some s → s.id = id ∧ ∃ x ∈ left, x.2 = s
  unsaid : ∀ n id, AsyncHandle.span n id ∉ l.handles → said (.span n id) = []
  finished : ∀ n id, AsyncHandle.span n id ∈ l.handles →
    (AsyncHandle.span n id ∈ l.finished ↔ ∃ time, HandleOp.finish time ∈ said (.span n id))

/-- The contents of a segment with its archive in `spans` and its own ledger. -/
abbrev Ledger.Contents (led : Ledger) (spans : List Span) (l : Life)
    (said : AsyncHandle → List HandleOp) (left : List (UInt64 × Span)) : Prop :=
  TraceLink.Contents (spans ++ led.completed) led.records l said left

namespace Contents

variable {done done' : List Span} {records : Entries Nat Deferral} {l : Life}
  {said : AsyncHandle → List HandleOp} {left : List (UInt64 × Span)}

/-- A segment without spans. -/
theorem new (hhandles : l.handles = []) (hsaid : ∀ n id, said (.span n id) = []) :
    Contents [] [] l said [] where
  noted := fun n id d _ hget => by contradiction
  plain := fun x hx => by contradiction
  async := fun x hx => by contradiction
  known := fun y hy => by contradiction
  held := fun id d s hget => by contradiction
  unsaid := fun n id _ => hsaid n id
  finished := fun n id hmem => by
    rw [hhandles] at hmem
    contradiction

/-- Leaving the end of a span to a new handle, which has said nothing yet. -/
theorem prepared (c : Contents done records l said left) (hlinked : l.Linked) {id : Nat}
    (hnew : ¬ l.Prepared id) (n : Nat) :
    Contents done (records.put id {}) { l with handles := l.handles ++ [.span n id] } said
      left where
  noted := by
    intro n' id' d hmem hget
    rw [Entries.get?_put] at hget
    by_cases hid : id = id'
    -- a handle that was not prepared has said nothing
    · subst hid
      rw [if_pos rfl] at hget
      obtain rfl := Option.some.inj hget
      rw [c.unsaid n' id fun hold => hnew ⟨n', hold⟩]
      exact Deferral.holds_nil
    · rw [if_neg hid] at hget
      rcases List.mem_append.mp hmem with hold | hlast
      · exact c.noted n' id' d hold hget
      · exact absurd (AsyncHandle.span.inj (List.mem_singleton.mp hlast)).2.symm hid
  plain := c.plain
  async := by
    intro x hx hasync
    obtain ⟨n', hmem, hwhere⟩ := c.async x hx hasync
    have hid : id ≠ x.2.id := fun hid => hnew ⟨n', hid ▸ hmem⟩
    refine ⟨n', List.mem_append_left _ hmem, ?_⟩
    rw [Entries.get?_put, if_neg hid]
    exact hwhere
  known := c.known
  held := by
    intro id' d s hget hspan
    rw [Entries.get?_put] at hget
    split at hget
    · obtain rfl := Option.some.inj hget
      contradiction
    · exact c.held id' d s hget hspan
  unsaid := fun n' id' hmem => c.unsaid n' id' fun hold => hmem (List.mem_append_left _ hold)
  finished := by
    intro n' id' hmem
    rcases List.mem_append.mp hmem with hold | hlast
    · exact c.finished n' id' hold
    · obtain ⟨rfl, rfl⟩ := AsyncHandle.span.inj (List.mem_singleton.mp hlast)
      have hnot : AsyncHandle.span n' id' ∉ l.handles := fun hold => hnew ⟨n', hold⟩
      rw [c.unsaid _ _ hnot]
      refine iff_of_false (fun hfinished => hnot (hlinked.finished _ hfinished)) ?_
      rintro ⟨time, htime⟩
      contradiction

/-- A span that leaves the stack and is done: its end was not left to a handle, or the
    handle has ended it. -/
theorem joined (c : Contents done records l said left) {x : UInt64 × Span} {y : Span}
    (hdone : ∀ z, z ∈ done' ↔ z ∈ done ∨ z = y)
    (hplain : x.2.isAsync = false → y = x.2.closedAt x.1)
    (hasync : x.2.isAsync = true → ∃ n, AsyncHandle.span n x.2.id ∈ l.handles ∧
      AsyncHandle.span n x.2.id ∈ l.finished ∧ y = x.2.endedBy (said (.span n x.2.id))) :
    Contents done' records l said (left ++ [x]) where
  noted := c.noted
  plain := by
    intro x' hx' hplain'
    rw [hdone]
    rcases List.mem_append.mp hx' with hold | hlast
    · exact .inl (c.plain x' hold hplain')
    · obtain rfl := List.mem_singleton.mp hlast
      exact .inr (hplain hplain').symm
  async := by
    intro x' hx' hasync'
    rcases List.mem_append.mp hx' with hold | hlast
    · obtain ⟨n, hmem, hwhere⟩ := c.async x' hold hasync'
      exact ⟨n, hmem, hwhere.imp_right fun hended => ⟨hended.1, (hdone _).mpr (.inl hended.2)⟩⟩
    · obtain rfl := List.mem_singleton.mp hlast
      obtain ⟨n, hmem, hfinished, hy⟩ := hasync hasync'
      exact ⟨n, hmem, .inr ⟨hfinished, (hdone _).mpr (.inr hy.symm)⟩⟩
  known := by
    intro z hz
    rcases (hdone z).mp hz with hold | rfl
    · obtain ⟨x', hx', hid⟩ := c.known z hold
      exact ⟨x', List.mem_append_left _ hx', hid⟩
    · refine ⟨x, List.mem_append_right _ (List.mem_singleton_self x), ?_⟩
      cases hends : x.2.isAsync with
      | false => rw [hplain hends, Span.id_closedAt]
      | true =>
        obtain ⟨n, -, -, hy⟩ := hasync hends
        rw [hy, Span.id_endedBy]
  held := by
    intro id d s hget hspan
    obtain ⟨hid, x', hx', hsame⟩ := c.held id d s hget hspan
    exact ⟨hid, x', List.mem_append_left _ hx', hsame⟩
  unsaid := c.unsaid
  finished := c.finished

/-- A span that leaves the stack and is held for its handle. -/
theorem waits (c : Contents done records l said left) {s : Span} {d : Deferral} {n : Nat}
    (hasync : s.isAsync = true) (hmem : AsyncHandle.span n s.id ∈ l.handles)
    (hget : records.get? s.id = some d) (hspan : d.span = none) (now : UInt64) :
    Contents done (records.put s.id { d with span := some s }) l said (left ++ [(now, s)]) where
  noted := by
    intro n' id' d' hmem' hget'
    rw [Entries.get?_put] at hget'
    split at hget'
    · next hid =>
      obtain rfl := Option.some.inj hget'
      have hnoted := c.noted n' id' d hmem' (hid ▸ hget)
      exact { hnoted with }
    · exact c.noted n' id' d' hmem' hget'
  plain := by
    intro x hx hplain
    rcases List.mem_append.mp hx with hold | hlast
    · exact c.plain x hold hplain
    · obtain rfl := List.mem_singleton.mp hlast
      rw [hasync] at hplain
      contradiction
  async := by
    intro x hx hasync'
    rw [Entries.get?_put]
    rcases List.mem_append.mp hx with hold | hlast
    · obtain ⟨n', hmem', hwhere⟩ := c.async x hold hasync'
      refine ⟨n', hmem', hwhere.imp_left ?_⟩
      rintro ⟨d', hget', hspan'⟩
      -- the record that gets the span held none before
      have hid : s.id ≠ x.2.id := by
        intro hid
        rw [← hid, hget] at hget'
        rw [← Option.some.inj hget', hspan] at hspan'
        contradiction
      exact ⟨d', (if_neg hid).trans hget', hspan'⟩
    · obtain rfl := List.mem_singleton.mp hlast
      exact ⟨n, hmem, .inl ⟨_, if_pos rfl, rfl⟩⟩
  known := by
    intro y hy
    obtain ⟨x, hx, hid⟩ := c.known y hy
    exact ⟨x, List.mem_append_left _ hx, hid⟩
  held := by
    intro id' d' s' hget' hspan'
    rw [Entries.get?_put] at hget'
    split at hget'
    · next hid =>
      obtain rfl := Option.some.inj hget'
      obtain rfl := Option.some.inj hspan'
      exact ⟨hid, (now, s), List.mem_append_right _ (List.mem_singleton_self _), rfl⟩
    · obtain ⟨hid, x, hx, hsame⟩ := c.held id' d' s' hget' hspan'
      exact ⟨hid, x, List.mem_append_left _ hx, hsame⟩
  unsaid := c.unsaid
  finished := c.finished

/-- A record that is not needed any more. If a span is held in it, its handle has
    finished and the span is done now. -/
theorem erased (c : Contents done records l said left) (hkeys : (records.map Prod.fst).Nodup)
    {id : Nat} {d : Deferral} (hget : records.get? id = some d)
    (hkept : ∀ z ∈ done, z ∈ done')
    (hmore : ∀ z ∈ done', z ∈ done ∨ ∃ s, d.span = some s ∧ z.id = s.id)
    (hended : ∀ n s, AsyncHandle.span n id ∈ l.handles → d.span = some s →
      AsyncHandle.span n id ∈ l.finished ∧ s.endedBy (said (.span n id)) ∈ done') :
    Contents done' (records.erase id) l said left := by
  have hrest : ∀ id' d', (records.erase id).get? id' = some d' → records.get? id' = some d' := by
    intro id' d' hget'
    by_cases hid : id = id'
    · subst hid
      rw [Entries.get?_erase_self hkeys] at hget'
      contradiction
    · rwa [Entries.get?_erase_of_ne _ hid] at hget'
  refine { c with noted := ?_, plain := ?_, async := ?_, known := ?_, held := ?_ }
  · exact fun n id' d' hmem hget' => c.noted n id' d' hmem (hrest id' d' hget')
  · exact fun x hx hplain => hkept _ (c.plain x hx hplain)
  · intro x hx hasync
    obtain ⟨n, hmem, ⟨d', hget', hspan'⟩ | ⟨hfinished, hdone⟩⟩ := c.async x hx hasync
    · refine ⟨n, hmem, ?_⟩
      by_cases hid : id = x.2.id
      · subst hid
        obtain rfl := Option.some.inj (hget.symm.trans hget')
        exact .inr (hended n x.2 hmem hspan')
      · exact .inl ⟨d', (Entries.get?_erase_of_ne _ hid).trans hget', hspan'⟩
    · exact ⟨n, hmem, .inr ⟨hfinished, hkept _ hdone⟩⟩
  · intro z hz
    rcases hmore z hz with hold | ⟨s, hspan, hid⟩
    · exact c.known z hold
    · obtain ⟨-, x, hx, rfl⟩ := c.held id d s hget hspan
      exact ⟨x, hx, hid.symm⟩
  · exact fun id' d' s hget' hspan => c.held id' d' s (hrest id' d' hget') hspan

/-- What a handle says before it has finished is noted in its record. -/
theorem told (c : Contents done records l said left) (hlinked : l.Linked) {n id : Nat}
    (hmem : AsyncHandle.span n id ∈ l.handles) (hopen : AsyncHandle.span n id ∉ l.finished)
    {d : Deferral} (hget : records.get? id = some d) {op : HandleOp}
    {said' : AsyncHandle → List HandleOp} (hself : said' (.span n id) = said (.span n id) ++ [op])
    (hothers : ∀ h, h ≠ .span n id → said' h = said h) (due : Option Segment) :
    Contents done (records.put id (d.note op)) (l.afterHandle (.span n id) op due) said' left := by
  have hspan := d.span_note op
  have hfinished (h : AsyncHandle) : h ∈ (l.afterHandle (.span n id) op due).finished ↔
      h ∈ l.finished ∨ h = .span n id ∧ ∃ time, op = .finish time := by
    cases op with
    | finish time =>
      simp only [Life.afterHandle, if_pos hmem]
      simp [Life.report]
    | _ => simp [Life.afterHandle]
  refine ⟨?_, c.plain, ?_, c.known, ?_, ?_, ?_⟩
  · intro n' id' d' hmem' hget'
    rw [Life.handles_afterHandle] at hmem'
    rw [Entries.get?_put] at hget'
    split at hget'
    · next hid =>
      subst hid
      obtain rfl := Option.some.inj hget'
      obtain rfl := hlinked.same_ledger hmem hmem'
      rw [hself]
      exact (c.noted n' id d hmem hget).note op
    · next hid =>
      rw [hothers _ fun heq => hid (AsyncHandle.span.inj heq).2.symm]
      exact c.noted n' id' d' hmem' hget'
  · intro x hx hasync
    obtain ⟨n', hmem', hwhere⟩ := c.async x hx hasync
    refine ⟨n', by rwa [Life.handles_afterHandle], ?_⟩
    rcases hwhere with ⟨d', hget', hspan'⟩ | ⟨hfinished', hdone⟩
    · left
      rw [Entries.get?_put]
      split
      · next hid =>
        rw [← hid, hget] at hget'
        obtain rfl := Option.some.inj hget'
        exact ⟨_, rfl, hspan.trans hspan'⟩
      · exact ⟨d', hget', hspan'⟩
    -- the handle that ended this span has finished, so it is another one
    · have hne : AsyncHandle.span n' x.2.id ≠ .span n id := fun heq => hopen (heq ▸ hfinished')
      rw [hfinished, hothers _ hne]
      exact .inr ⟨.inl hfinished', hdone⟩
  · intro id' d' s hget' hspan'
    rw [Entries.get?_put] at hget'
    split at hget'
    · next hid =>
      obtain rfl := Option.some.inj hget'
      exact c.held id' d s (hid ▸ hget) (hspan.symm.trans hspan')
    · exact c.held id' d' s hget' hspan'
  · intro n' id' hnot
    rw [Life.handles_afterHandle] at hnot
    have hne : AsyncHandle.span n' id' ≠ .span n id := fun heq => hnot (heq ▸ hmem)
    rw [hothers _ hne]
    exact c.unsaid n' id' hnot
  · intro n' id' hmem'
    rw [Life.handles_afterHandle] at hmem'
    rw [hfinished, c.finished n' id' hmem']
    by_cases hh : AsyncHandle.span n' id' = .span n id
    · simp only [hh, hself, List.mem_append, List.mem_singleton, exists_or, true_and, eq_comm]
    · simp only [hothers _ hh, hh, false_and, or_false]

/-! ### Contents and ledgers -/

variable {capacity : Nat} {x : Outline} {led : Ledger} {spans : List Span}

/-- The strand takes a span off its stack whose end it left to a handle. -/
theorem popped (c : led.Contents spans l said left)
    (hcustody : Custody capacity x led l) {s : Span} (hasync : s.isAsync = true) {d : Deferral}
    (hget : led.records.get? s.id = some d) (hspan : d.span = none) (now : UInt64) :
    (led.pop s).value.2.Contents (spans ++ (led.pop s).value.1.toList) l said
      (left ++ [(now, s)]) := by
  obtain ⟨n, hmem⟩ := hcustody.known s.id (hget ▸ rfl)
  cases hstop : d.stop with
  | none =>
    have hpop : (led.pop s).value =
        (none, { led with records := led.records.put s.id { d with span := some s } }) := by
      simp only [Ledger.pop, hget, hstop, Logged.pure_value]
    rw [hpop, Option.toList_none, List.append_nil]
    exact c.waits hasync hmem hget hspan now
  | some time =>
    have hpop : (led.pop s).value =
        (some (d.applyTo s time).value, { led with records := led.records.erase s.id }) := by
      simp only [Ledger.pop, hget, hstop, Logged.bind_value, Logged.pure_value]
    have hfinished : AsyncHandle.span n s.id ∈ l.finished := by
      by_contra hopen
      obtain ⟨d', hget', hnone⟩ :=
        (led.open?_isSome_iff s.id).mp ((hcustody.awaits s.id).mpr ⟨n, hmem, hopen⟩)
      rw [hget] at hget'
      rw [← Option.some.inj hget', hstop] at hnone
      contradiction
    have hnoted := c.noted n s.id d hmem hget
    have hended := hnoted.applyTo (hnoted.stop.symm.trans hstop) s
    rw [hpop, hended]
    -- the record is done with, and the span joins the archive
    have c' : Contents (spans ++ led.completed) (led.records.erase s.id) l said left := by
      refine c.erased hcustody.wellKept.keys hget (fun z hz => hz) (fun z hz => .inl hz) ?_
      intro n' s' _ hs'
      rw [hspan] at hs'
      contradiction
    refine c'.joined (y := s.endedBy (said (.span n s.id))) ?_ ?_ ?_
    · intro z
      simp only [List.mem_append, Option.toList_some, List.mem_singleton]
      tauto
    · intro hplain
      rw [hasync] at hplain
      contradiction
    · exact fun _ => ⟨n, hmem, hfinished, rfl⟩

/-- A segment that waits for nothing needs no records. -/
theorem settled (c : Contents done led.records l said left) (hw : WellKept led)
    (hpending : led.pending = 0) : Contents done [] l said left := by
  refine { c with noted := ?_, async := ?_, held := ?_ }
  · exact fun n id d _ hget => by contradiction
  · intro x hx hasync
    obtain ⟨n, hmem, ⟨d, hget, hspan⟩ | hended⟩ := c.async x hx hasync
    -- a record with a span is open, and none is
    · have hopen := (led.open?_isSome_iff x.2.id).mpr ⟨d, hget, (hw.held _ _ _ hget hspan).2⟩
      rw [hw.pending_eq_zero_iff.mp hpending] at hopen
      contradiction
    · exact ⟨n, hmem, .inr hended⟩
  · exact fun id d s hget => by contradiction

/-- A handle finishes a span that is held in its record. -/
theorem told_held (c : led.Contents spans l said left)
    (hcustody : Custody capacity x led l) (hlinked : l.Linked) {n id : Nat}
    (hmem : AsyncHandle.span n id ∈ l.handles) (hopen : AsyncHandle.span n id ∉ l.finished)
    {d : Deferral} (hget : led.records.get? id = some d) {s : Span} (hspan : d.span = some s)
    (hstop : d.stop = none) (time : UInt64) {said' : AsyncHandle → List HandleOp}
    (hself : said' (.span n id) = said (.span n id) ++ [.finish (some time)])
    (hothers : ∀ h, h ≠ .span n id → said' h = said h) :
    Contents (spans ++ (led.completed ++ [(d.applyTo s time).value])) (led.records.erase id)
      (l.afterHandle (.span n id) (.finish (some time)) none) said' left := by
  have c' := c.told hlinked hmem hopen hget hself hothers none
  have hended : (d.applyTo s time).value = s.endedBy (said' (.span n id)) := by
    have hnoted := (c.noted n id d hmem hget).note (.finish (some time))
    rw [← hself] at hnoted
    have htime := hnoted.stop
    rw [Deferral.note, hstop, Option.none_or] at htime
    rw [← hnoted.applyTo htime.symm, Deferral.applyTo_eq, Deferral.applyTo_eq]
    rfl
  -- the record is noted first and then erased, which comes to the same
  rw [← Entries.erase_put_self led.records id (d.note (.finish (some time))), hended]
  refine c'.erased (Entries.nodup_keys_put hcustody.wellKept.keys _ _)
    ((Entries.get?_put _ _ _ _).trans (if_pos rfl)) ?_ ?_ ?_
  · intro z hz
    rw [← List.append_assoc]
    exact List.mem_append_left _ hz
  · intro z hz
    rw [← List.append_assoc, List.mem_append, List.mem_singleton] at hz
    rcases hz with hold | rfl
    · exact .inl hold
    · exact .inr ⟨s, hspan, s.id_endedBy _⟩
  · intro n' s' hmem' hs'
    obtain rfl := Option.some.inj (hspan.symm.trans hs')
    obtain rfl := hlinked.same_ledger hmem (l.handles_afterHandle _ _ _ ▸ hmem')
    refine ⟨(c'.finished _ _ hmem').mpr ⟨some time, ?_⟩, ?_⟩
    · rw [hself]
      exact List.mem_append_right _ (List.mem_singleton_self _)
    · rw [← List.append_assoc]
      exact List.mem_append_right _ (List.mem_singleton_self _)

/-- What an operation of a handle leaves, before the segment is released. -/
structure Told (capacity : Nat) (x : Outline) (spans : List Span) (led led' : Ledger) (l' : Life)
    (said' : AsyncHandle → List HandleOp) (left : List (UInt64 × Span)) : Prop where
  custody : Custody capacity x led' l'
  contents : led'.Contents spans l' said' left
  parked : led'.parked = led.parked

/-- A handle records something before it has finished. -/
theorem handled_note (c : led.Contents spans l said left)
    (hcustody : Custody capacity x led l) (hlinked : l.Linked) {n id : Nat}
    (hmem : AsyncHandle.span n id ∈ l.handles) (hopen : AsyncHandle.span n id ∉ l.finished)
    (now : UInt64) {op : HandleOp} (hnote : ∀ time, op ≠ .finish time)
    {said' : AsyncHandle → List HandleOp}
    (hself : said' (.span n id) = said (.span n id) ++ [op])
    (hothers : ∀ h, h ≠ .span n id → said' h = said h) :
    ∃ led', Told capacity x spans led led' (l.afterHandle (.span n id) op none) said' left ∧
      (led.handle id now op).value = (none, led') := by
  obtain ⟨d, hd⟩ := Option.isSome_iff_exists.mp ((hcustody.awaits id).mpr ⟨n, hmem, hopen⟩)
  obtain ⟨hget, hstop⟩ := Ledger.open?_eq_some_iff.mp hd
  have hupdated : Ledger.Updated led (led.update id (·.note op)) :=
    Ledger.updated_update hcustody.wellKept id (Deferral.span_note · op)
      (Deferral.stop_note · hnote)
  have hlife : l.afterHandle (.span n id) op none = l := by
    cases op with
    | finish time => exact absurd rfl (hnote time)
    | _ => rfl
  refine ⟨_, ⟨hlife.symm ▸ hcustody.updated hupdated, ?_, hupdated.parked⟩, ?_⟩
  · rw [Ledger.update, hd]
    exact c.told hlinked hmem hopen hget hself hothers none
  · cases op with
    | finish time => exact absurd rfl (hnote time)
    | _ => rfl

/-- A handle finishes. -/
theorem handled_finish (c : led.Contents spans l said left)
    (hcustody : Custody capacity x led l) (hlinked : l.Linked) {n id : Nat}
    (hmem : AsyncHandle.span n id ∈ l.handles) (hopen : AsyncHandle.span n id ∉ l.finished)
    (now time : UInt64) {said' : AsyncHandle → List HandleOp}
    (hself : said' (.span n id) = said (.span n id) ++ [.finish (some time)])
    (hothers : ∀ h, h ≠ .span n id → said' h = said h) :
    ∃ led', Told capacity x spans led led'
        (l.afterHandle (.span n id) (.finish (some time)) none) said' left ∧
      (led.handle id now (.finish (some time))).value = led'.release := by
  obtain ⟨d, hd⟩ := Option.isSome_iff_exists.mp ((hcustody.awaits id).mpr ⟨n, hmem, hopen⟩)
  obtain ⟨hget, hstop⟩ := Ledger.open?_eq_some_iff.mp hd
  have hw := hcustody.wellKept
  have hlife (led' : Ledger) (hfinished : Ledger.Finished led id led') :
      Custody capacity x led' (l.afterHandle (.span n id) (.finish (some time)) none) := by
    unfold Life.afterHandle
    simp only [if_pos hmem]
    exact { hcustody.finished hlinked hmem hfinished with }
  -- the span is held in the record, or it is still on the stack
  cases hspan : d.span with
  | some s =>
    obtain ⟨horigin, hclosed⟩ := d.applyTo_value s time
    have hcustody' := hlife _ (Ledger.finished_erase hw hget hstop hspan horigin hclosed)
    refine ⟨_, ⟨hcustody', ?_, rfl⟩, ?_⟩
    · exact c.told_held hcustody hlinked hmem hopen hget hspan hstop time hself hothers
    · simp only [Ledger.handle, Ledger.finish, hd, hspan, Option.getD_some, Logged.bind_value,
        Logged.pure_value]
  | none =>
    have c' := c.told hlinked hmem hopen hget hself hothers none
    rw [Deferral.note, hstop, Option.none_or] at c'
    refine ⟨_, ⟨hlife _ (Ledger.finished_put hw hget hstop hspan time), c', rfl⟩, ?_⟩
    simp only [Ledger.handle, Ledger.finish, hd, hspan, Option.getD_some, Logged.pure_value]

/-- What a handle says before it has finished keeps custody and contents. -/
theorem handled (c : led.Contents spans l said left)
    (hcustody : Custody capacity x led l) (hlinked : l.Linked) {n id : Nat}
    (hmem : AsyncHandle.span n id ∈ l.handles) (hopen : AsyncHandle.span n id ∉ l.finished)
    (now : UInt64) {op : HandleOp} (htime : op ≠ .finish none)
    {said' : AsyncHandle → List HandleOp}
    (hself : said' (.span n id) = said (.span n id) ++ [op])
    (hothers : ∀ h, h ≠ .span n id → said' h = said h) :
    ∃ led', Told capacity x spans led led' (l.afterHandle (.span n id) op none) said' left ∧
      ((led.handle id now op).value = (none, led') ∨
        ((led.handle id now op).value = led'.release ∧ ∃ time, op = .finish time)) := by
  by_cases hnote : ∀ time, op ≠ .finish time
  · obtain ⟨led', htold, hvalue⟩ :=
      c.handled_note hcustody hlinked hmem hopen now hnote hself hothers
    exact ⟨led', htold, .inl hvalue⟩
  · obtain ⟨time, rfl⟩ := not_forall_not.mp hnote
    obtain ⟨time, rfl⟩ := Option.ne_none_iff_exists'.mp fun hnone => htime (hnone ▸ rfl)
    obtain ⟨led', htold, hvalue⟩ :=
      c.handled_finish hcustody hlinked hmem hopen now time hself hothers
    exact ⟨led', htold, .inr ⟨hvalue, some time, rfl⟩⟩

/-- What idle handles say does not count. -/
theorem congr (c : Contents done records l said left) {said' : AsyncHandle → List HandleOp}
    (h : ∀ n id, said' (.span n id) = said (.span n id)) :
    Contents done records l said' left := by
  obtain ⟨hnoted, hplain, hasync, hknown, hheld, hunsaid, hfinished⟩ := c
  simp only [← h] at hnoted hasync hunsaid hfinished
  exact ⟨hnoted, hplain, hasync, hknown, hheld, hunsaid, hfinished⟩

end Contents

/-! ### The spans of a segment that waits for nothing -/

namespace Life

/-- The handle that was prepared on the span with this id. -/
def handleOn (l : Life) (id : Nat) : AsyncHandle :=
  (l.handles.find? fun h => h.id = (id : Int)).getD .idle

/-- What becomes of a span that leaves the stack at this time, if all handles say what
    `said` tells. -/
def ending (l : Life) (said : AsyncHandle → List HandleOp) (x : UInt64 × Span) : Span :=
  if x.2.isAsync then x.2.endedBy (said (l.handleOn x.2.id)) else x.2.closedAt x.1

theorem id_ending (l : Life) (said : AsyncHandle → List HandleOp) (x : UInt64 × Span) :
    (l.ending said x).id = x.2.id := by
  unfold ending
  split
  · exact x.2.id_endedBy _
  · exact x.2.id_closedAt _

theorem Linked.handleOn_eq {l : Life} (h : l.Linked) {n id : Nat}
    (hmem : AsyncHandle.span n id ∈ l.handles) : l.handleOn id = .span n id := by
  unfold handleOn
  cases hfind : l.handles.find? (fun h => h.id = (id : Int)) with
  | none =>
    have hnone := List.find?_eq_none.mp hfind _ hmem
    exact absurd (decide_eq_true rfl) hnone
  | some a =>
    have ha := List.mem_of_find?_eq_some hfind
    have hid : a.id = id := by simpa using List.find?_some hfind
    obtain ⟨n', id', rfl, -⟩ := h.handles a ha
    obtain rfl := h.same_ledger hmem ha
    rw [Option.getD_some, Int.ofNat_inj.mp hid]

end Life

/-- Under distinct ids, a span is in the segment if it is found under its id. -/
theorem Segment.span?_eq_some_iff {g : Segment} (hnodup : (g.spans.map (·.id)).Nodup) {y : Span} :
    g.span? y.id = some y ↔ y ∈ g.spans := by
  refine ⟨List.mem_of_find?_eq_some, fun hy => ?_⟩
  exact Span.find?_of_unique hy fun z hz hid => List.inj_on_of_nodup_map hnodup hz hy hid

/-- Under distinct ids, the spans of a segment that waits for nothing are what becomes
    of those that were stopped. -/
theorem Contents.span?_eq {l : Life} {said : AsyncHandle → List HandleOp}
    {left : List (UInt64 × Span)} {g : Segment} (c : Contents g.spans [] l said left)
    (hnodup : (g.spans.map (·.id)).Nodup) (hlinked : l.Linked) (id : Nat) :
    g.span? id = (left.find? fun x => x.2.id = id).map (l.ending said) := by
  have hjoined : ∀ x ∈ left, l.ending said x ∈ g.spans := by
    intro x hx
    unfold Life.ending
    split
    · next hasync =>
      obtain ⟨n, hmem, ⟨d, hget, -⟩ | ⟨-, hdone⟩⟩ := c.async x hx hasync
      · contradiction
      · rwa [hlinked.handleOn_eq hmem]
    · next hplain => exact c.plain x hx (Bool.eq_false_iff.mpr hplain)
  cases hleft : left.find? (fun x => x.2.id = id) with
  | none =>
    rw [Option.map_none, Segment.span?, List.find?_eq_none]
    intro y hy hid
    obtain ⟨x, hx, hsame⟩ := c.known y hy
    exact List.find?_eq_none.mp hleft x hx (decide_eq_true (hsame.trans (eq_of_beq hid)))
  | some x =>
    have hid : x.2.id = id := by simpa using List.find?_some hleft
    have hfind := (Segment.span?_eq_some_iff hnodup).mpr
      (hjoined x (List.mem_of_find?_eq_some hleft))
    rwa [l.id_ending, hid] at hfind

end TraceLink
