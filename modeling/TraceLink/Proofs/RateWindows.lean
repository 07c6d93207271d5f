import Mathlib.Algebra.Group.Nat.Defs
import Mathlib.Data.List.Infix
import TraceLink.Sampling

/-! # Rate windows against their account

    The rate window keeps one counter and the time at which it began, and begins anew
    only when it is asked. Its account is the reference: it keeps the readings of the
    attempts that were counted since the window last began.

    From the account follow the bounds: between two rolls at most the rate is admitted,
    and in any three seconds of a clock that does not go back at most twice the rate,
    since such a stretch meets the end of one window and the beginning of one other. -/

namespace TraceLink

/-! ### Operations -/

/-- **Operation** on a rate window. -/
inductive RateOp where
  | setRate (rate : Int)
  /-- An attempt that was decided elsewhere. -/
  | force (now : UInt64)
  | attempt (now : UInt64)
  deriving Repr, DecidableEq

namespace RateOp

/-- The reading of the clock that the operation takes. -/
def reading? : RateOp → Option Nat
  | setRate _ => none
  | force now => some now.toNat
  | attempt now => some now.toNat

/-- The readings that a sequence of operations takes. -/
def readings (ops : List RateOp) : List Nat := ops.filterMap reading?

/-- No operation sets another rate. -/
def KeepRate (rate : Int) (ops : List RateOp) : Prop := ∀ r, setRate r ∈ ops → r = rate

end RateOp

namespace RateWindow

/-- The window after an operation. -/
def next (w : RateWindow) : RateOp → RateWindow
  | .setRate rate => { w with rate }
  | .force now => w.force now
  | .attempt now => (w.attempt now).2

/-- The window after a sequence of operations. -/
def after (w : RateWindow) (ops : List RateOp) : RateWindow := ops.foldl next w

/-- The reading of the attempt, if the operation is one and passes. -/
def passed (w : RateWindow) : RateOp → List Nat
  | .attempt now => if (w.attempt now).1 then [now.toNat] else []
  | _ => []

/-- The readings of the attempts that pass, oldest first. -/
def admitted (w : RateWindow) : List RateOp → List Nat
  | [] => []
  | op :: ops => w.passed op ++ (w.next op).admitted ops

end RateWindow

/-! ### The reference -/

/-- **RateAccount** of a rate window: what is counted since it last began. -/
structure RateAccount where
  rate : Int
  /-- The reading at which the window last began. -/
  start : Nat
  /-- The readings of the attempts counted since then, newest first. -/
  counted : List Nat

namespace RateAccount

/-- The account of a window that begins now. -/
def new (rate : Int) (start : Nat) : RateAccount := ⟨rate, start, []⟩

/-- The window is **over**: three seconds have passed since it began. A counted attempt
    that finds it so rolls it. -/
def Over (a : RateAccount) (now : Nat) : Prop := a.start + RateWindow.length ≤ now

instance (a : RateAccount) (now : Nat) : Decidable (a.Over now) := by
  unfold Over
  infer_instance

/-- What is counted since the window began, before an attempt at time `now`. -/
def earlier (a : RateAccount) (now : Nat) : List Nat := if a.Over now then [] else a.counted

/-- Enters a counted attempt. -/
def enter (a : RateAccount) (now : Nat) : RateAccount where
  rate := a.rate
  start := if a.Over now then now else a.start
  counted := now :: a.earlier now

/-- An attempt at time `now` is **admitted**: there is no limit, or what was counted
    is below it. -/
def Admits (a : RateAccount) (now : Nat) : Prop :=
  a.rate ≤ 0 ∨ ((a.earlier now).length : Int) < a.rate

instance (a : RateAccount) (now : Nat) : Decidable (a.Admits now) := by
  unfold Admits
  infer_instance

/-- The account after an operation. Without a limit, attempts are not counted. -/
def next (a : RateAccount) : RateOp → RateAccount
  | .setRate rate => { a with rate }
  | .force now => a.enter now.toNat
  | .attempt now => if 0 < a.rate then a.enter now.toNat else a

/-- The account after a sequence of operations. -/
def after (a : RateAccount) (ops : List RateOp) : RateAccount := ops.foldl next a

/-- The operation **rolls** the window. -/
def Rolls (a : RateAccount) : RateOp → Prop
  | .setRate _ => False
  | .force now => a.Over now.toNat
  | .attempt now => 0 < a.rate ∧ a.Over now.toNat

/-- No operation of the sequence rolls the window. -/
def Unrolled (a : RateAccount) : List RateOp → Prop
  | [] => True
  | op :: ops => ¬ a.Rolls op ∧ (a.next op).Unrolled ops

/-- The sequence **fits** the counter: fewer than `2 ^ 32` attempts are counted between
    two rolls. -/
def Fits (a : RateAccount) (ops : List RateOp) : Prop :=
  ∀ done, done <+: ops → (a.after done).counted.length < 2 ^ 32

/-- The reading of the attempt, if the operation is one and is admitted. -/
def passed (a : RateAccount) : RateOp → List Nat
  | .attempt now => if a.Admits now.toNat then [now.toNat] else []
  | _ => []

/-- The readings of the attempts that are admitted, oldest first. -/
def admitted (a : RateAccount) : List RateOp → List Nat
  | [] => []
  | op :: ops => a.passed op ++ (a.next op).admitted ops

/-! ### The window follows its account -/

/-- The window says what its account says. -/
structure Describes (a : RateAccount) (w : RateWindow) : Prop where
  rate : w.rate = a.rate
  start : w.start.toNat = a.start
  counted : w.counted.toNat = a.counted.length

namespace Describes

variable {a : RateAccount} {w : RateWindow}

theorem of_new (rate : Int) (start : UInt64) :
    (new rate start.toNat).Describes (.new rate start) := ⟨rfl, rfl, rfl⟩

theorem over_iff (h : a.Describes w) (now : UInt64) :
    a.Over now.toNat ↔ RateWindow.length ≤ now.toNat - w.start.toNat := by
  have hstart := h.start
  unfold Over RateWindow.length
  omega

/-- After a roll, the window knows how many attempts came earlier. -/
theorem counted_roll (h : a.Describes w) (now : UInt64) :
    (w.roll now).counted.toNat = (a.earlier now.toNat).length := by
  unfold RateWindow.roll earlier
  by_cases hover : a.Over now.toNat
  · rw [if_pos hover, if_pos ((h.over_iff now).mp hover)]
    rfl
  · rw [if_neg hover, if_neg (mt (h.over_iff now).mpr hover)]
    exact h.counted

theorem start_roll (h : a.Describes w) (now : UInt64) :
    (w.roll now).start.toNat = (a.enter now.toNat).start := by
  unfold RateWindow.roll enter
  by_cases hover : a.Over now.toNat
  · simp only [if_pos hover, if_pos ((h.over_iff now).mp hover)]
  · simp only [if_neg hover, if_neg (mt (h.over_iff now).mpr hover)]
    exact h.start

theorem rate_roll (h : a.Describes w) (now : UInt64) : (w.roll now).rate = a.rate := by
  unfold RateWindow.roll
  split
  · exact h.rate
  · exact h.rate

/-- A counted attempt is entered, as long as the counter does not wrap. -/
theorem force (h : a.Describes w) (now : UInt64)
    (hlt : (a.enter now.toNat).counted.length < 2 ^ 32) :
    (a.enter now.toNat).Describes (w.force now) := by
  refine ⟨h.rate_roll now, h.start_roll now, ?_⟩
  have hcounted := h.counted_roll now
  have hlength : (a.enter now.toNat).counted.length = (a.earlier now.toNat).length + 1 := rfl
  show ((w.roll now).counted + 1).toNat = _
  rw [UInt32.toNat_add, hcounted, hlength]
  rw [hlength] at hlt
  -- the counter is below its limit, so one more does not wrap
  exact Nat.mod_eq_of_lt hlt

/-- An attempt passes if and only if the account admits it. -/
theorem attempt_iff (h : a.Describes w) (now : UInt64) :
    (w.attempt now).1 = true ↔ a.Admits now.toNat := by
  unfold RateWindow.attempt Admits
  rw [← h.counted_roll now, ← h.rate]
  by_cases hrate : w.rate ≤ 0
  · simp [hrate]
  · have hroll : (w.roll now).rate = w.rate := (h.rate_roll now).trans h.rate.symm
    simp [hrate, hroll]

/-- One operation keeps the two together. -/
theorem next (h : a.Describes w) (op : RateOp)
    (hlt : (a.next op).counted.length < 2 ^ 32) : (a.next op).Describes (w.next op) := by
  cases op with
  | setRate rate => exact ⟨rfl, h.start, h.counted⟩
  | force now => exact h.force now hlt
  | attempt now =>
    unfold RateAccount.next RateWindow.next RateWindow.attempt
    unfold RateAccount.next at hlt
    simp only at hlt ⊢
    rw [h.rate]
    by_cases hrate : a.rate ≤ 0
    · rw [if_neg (by omega), if_pos hrate]
      exact h
    · have hpos : 0 < a.rate := by omega
      rw [if_pos hpos] at hlt
      rw [if_pos hpos, if_neg hrate]
      exact h.force now hlt

end Describes

theorem Fits.head {a : RateAccount} {op : RateOp} {ops : List RateOp}
    (h : a.Fits (op :: ops)) : (a.next op).counted.length < 2 ^ 32 :=
  h [op] (List.prefix_cons_inj op |>.mpr List.nil_prefix)

theorem Fits.tail {a : RateAccount} {op : RateOp} {ops : List RateOp}
    (h : a.Fits (op :: ops)) : (a.next op).Fits ops := by
  intro done hdone
  exact h (op :: done) ((List.prefix_cons_inj op).mpr hdone)

theorem Fits.of_prefix {a : RateAccount} {done ops : List RateOp} (h : a.Fits ops)
    (hdone : done <+: ops) : a.Fits done :=
  fun part hpart => h part (hpart.trans hdone)

theorem Fits.after {a : RateAccount} {done rest : List RateOp} (h : a.Fits (done ++ rest)) :
    (a.after done).Fits rest := by
  intro part hpart
  have hwhole := h (done ++ part) ((List.prefix_append_right_inj done).mpr hpart)
  unfold RateAccount.after at hwhole ⊢
  rwa [List.foldl_append] at hwhole

theorem length_counted_next (a : RateAccount) (op : RateOp) :
    (a.next op).counted.length ≤ a.counted.length + 1 := by
  have henter (now : Nat) : (a.enter now).counted.length ≤ a.counted.length + 1 := by
    unfold enter earlier
    split
    · simp
    · simp
  cases op with
  | setRate rate => exact Nat.le_succ _
  | force now => exact henter now.toNat
  | attempt now =>
    unfold next
    simp only
    split
    · exact henter now.toNat
    · exact Nat.le_succ _

theorem length_counted_after (a : RateAccount) (ops : List RateOp) :
    (a.after ops).counted.length ≤ a.counted.length + ops.length := by
  induction ops generalizing a with
  | nil => exact Nat.le_refl _
  | cons op ops ih =>
    have hop := a.length_counted_next op
    have hrest := ih (a.next op)
    show ((a.next op).after ops).counted.length ≤ _
    rw [List.length_cons]
    omega

/-- Fewer than `2 ^ 32` operations fit in any case. -/
theorem fits_of_length (rate : Int) (start : Nat) {ops : List RateOp}
    (h : ops.length < 2 ^ 32) : (new rate start).Fits ops := by
  intro done hdone
  have hcounted := (new rate start).length_counted_after done
  have hlength := hdone.length_le
  have hnew : (new rate start).counted.length = 0 := rfl
  omega

/-- A run keeps the two together. -/
theorem Describes.after {a : RateAccount} {w : RateWindow} {ops : List RateOp}
    (h : a.Describes w) (hcount : a.Fits ops) :
    (a.after ops).Describes (w.after ops) := by
  induction ops generalizing a w with
  | nil => exact h
  | cons op ops ih => exact ih (h.next op hcount.head) hcount.tail

theorem Describes.passed {a : RateAccount} {w : RateWindow} (h : a.Describes w) (op : RateOp) :
    w.passed op = a.passed op := by
  cases op with
  | setRate rate => rfl
  | force now => rfl
  | attempt now =>
    unfold RateWindow.passed RateAccount.passed
    simp only [h.attempt_iff now]

/-- What passes in a run is what the account admits. -/
theorem Describes.admitted {a : RateAccount} {w : RateWindow} {ops : List RateOp}
    (h : a.Describes w) (hfits : a.Fits ops) : w.admitted ops = a.admitted ops := by
  induction ops generalizing a w with
  | nil => rfl
  | cons op ops ih =>
    have hrest := ih (h.next op hfits.head) hfits.tail
    unfold RateWindow.admitted RateAccount.admitted
    rw [h.passed op, hrest]

/-! ### What is left of a rate -/

/-- What the account still admits until it rolls. -/
def room (a : RateAccount) : Nat := a.rate.toNat - a.counted.length

theorem room_le (a : RateAccount) : a.room ≤ a.rate.toNat := Nat.sub_le _ _

section Steps

variable {a : RateAccount} {op : RateOp} {ops : List RateOp}

theorem reading_of_mem_passed {t : Nat} (h : t ∈ a.passed op) : op.reading? = some t := by
  cases op with
  | setRate rate => cases h
  | force now => cases h
  | attempt now =>
    unfold passed at h
    simp only at h
    split at h
    · rw [List.mem_singleton.mp h]
      rfl
    · cases h

theorem mem_readings_of_mem_admitted {t : Nat} (h : t ∈ a.admitted ops) :
    t ∈ RateOp.readings ops := by
  induction ops generalizing a with
  | nil => cases h
  | cons op ops ih =>
    unfold RateOp.readings
    rw [List.mem_filterMap]
    cases List.mem_append.mp h with
    | inl hpassed => exact ⟨op, List.mem_cons_self, reading_of_mem_passed hpassed⟩
    | inr hrest =>
      obtain ⟨op', hmem, hop'⟩ := List.mem_filterMap.mp (ih hrest)
      exact ⟨op', List.mem_cons_of_mem op hmem, hop'⟩

/-- With a constant rate, one operation keeps it. -/
theorem rate_next (h : RateOp.KeepRate a.rate (op :: ops)) : (a.next op).rate = a.rate := by
  cases op with
  | setRate rate => exact h rate List.mem_cons_self
  | force now => rfl
  | attempt now =>
    unfold next
    simp only
    split
    · rfl
    · rfl

theorem keepRate_next (h : RateOp.KeepRate a.rate (op :: ops)) :
    RateOp.KeepRate (a.next op).rate ops := by
  rw [rate_next h]
  intro r hr
  exact h r (List.mem_cons_of_mem op hr)

theorem next_attempt (hpos : 0 < a.rate) (now : UInt64) :
    a.next (.attempt now) = a.enter now.toNat := if_pos hpos

theorem room_enter (a : RateAccount) (now : Nat) :
    (a.enter now).room = a.rate.toNat - ((a.earlier now).length + 1) := rfl

/-- An attempt uses up the room that the window has after its roll. -/
theorem passed_add_room_enter (hpos : 0 < a.rate) (now : UInt64) :
    (a.passed (.attempt now)).length + (a.enter now.toNat).room ≤
      a.rate.toNat - (a.earlier now.toNat).length := by
  rw [room_enter]
  by_cases hadmit : a.Admits now.toNat
  · have hpassed : a.passed (.attempt now) = [now.toNat] := if_pos hadmit
    unfold Admits at hadmit
    rw [hpassed, List.length_singleton]
    omega
  · have hpassed : a.passed (.attempt now) = [] := if_neg hadmit
    rw [hpassed, List.length_nil]
    omega

theorem earlier_of_not_over {now : Nat} (h : ¬ a.Over now) : a.earlier now = a.counted :=
  if_neg h

/-- **Without a roll**, what an operation admits is taken from the room. -/
theorem passed_add_room_of_not_rolls (hpos : 0 < a.rate)
    (hkeep : RateOp.KeepRate a.rate (op :: ops)) (hroll : ¬ a.Rolls op) :
    (a.passed op).length + (a.next op).room ≤ a.room := by
  cases op with
  | setRate rate =>
    have hrate : rate = a.rate := hkeep rate List.mem_cons_self
    subst hrate
    exact Nat.zero_add _ |>.le
  | force now =>
    show 0 + (a.enter now.toNat).room ≤ a.room
    rw [room_enter, earlier_of_not_over hroll]
    unfold room
    omega
  | attempt now =>
    have hover : ¬ a.Over now.toNat := fun hover => hroll ⟨hpos, hover⟩
    have hstep := passed_add_room_enter hpos now
    rw [earlier_of_not_over hover] at hstep
    rw [next_attempt hpos]
    exact hstep

/-- In any case, an operation admits and leaves no more than the rate. -/
theorem passed_add_room (hpos : 0 < a.rate) (hkeep : RateOp.KeepRate a.rate (op :: ops)) :
    (a.passed op).length + (a.next op).room ≤ a.rate.toNat := by
  by_cases hroll : a.Rolls op
  · cases op with
    | setRate rate => exact hroll.elim
    | force now =>
      have hroom := (a.enter now.toNat).room_le
      exact (Nat.zero_add _).le.trans hroom
    | attempt now =>
      have hstep := passed_add_room_enter hpos now
      rw [next_attempt hpos]
      omega
  · have hstep := passed_add_room_of_not_rolls hpos hkeep hroll
    have hroom := a.room_le
    omega

/-- Until the next roll, no more is admitted than there is room for. -/
theorem length_admitted_of_unrolled (hpos : 0 < a.rate) (hkeep : RateOp.KeepRate a.rate ops)
    (hun : a.Unrolled ops) : (a.admitted ops).length ≤ a.room := by
  induction ops generalizing a with
  | nil => exact Nat.zero_le _
  | cons op ops ih =>
    have hstep := passed_add_room_of_not_rolls hpos hkeep hun.1
    have hrest := ih (by rwa [rate_next hkeep]) (keepRate_next hkeep) hun.2
    unfold admitted
    rw [List.length_append]
    omega

/-- **Between two rolls** no more is admitted than the rate. -/
theorem length_admitted_between_rolls (hpos : 0 < a.rate)
    (hkeep : RateOp.KeepRate a.rate (op :: ops)) (hun : (a.next op).Unrolled ops) :
    (a.admitted (op :: ops)).length ≤ a.rate.toNat := by
  have hstep := passed_add_room hpos hkeep
  have hrest := length_admitted_of_unrolled (by rwa [rate_next hkeep]) (keepRate_next hkeep) hun
  unfold admitted
  rw [List.length_append]
  omega

/-! ### Any three seconds -/

/-- The readings from `lo` on, for the length of a window. -/
def stretch (lo : Nat) (readings : List Nat) : List Nat :=
  readings.filter fun t => lo ≤ t ∧ t < lo + RateWindow.length

theorem stretch_append (lo : Nat) (l l' : List Nat) :
    stretch lo (l ++ l') = stretch lo l ++ stretch lo l' := List.filter_append _ _

theorem length_stretch_le (lo : Nat) (l : List Nat) : (stretch lo l).length ≤ l.length :=
  List.length_filter_le _ _

theorem stretch_eq_nil {lo : Nat} {l : List Nat}
    (h : ∀ t ∈ l, t < lo ∨ lo + RateWindow.length ≤ t) : stretch lo l = [] := by
  unfold stretch
  rw [List.filter_eq_nil_iff]
  intro t ht
  have hout := h t ht
  simp only [decide_eq_true_eq]
  omega

theorem readings_cons_of_some {r : Nat} (h : op.reading? = some r) :
    RateOp.readings (op :: ops) = r :: RateOp.readings ops := List.filterMap_cons_some h

theorem sorted_tail (h : (RateOp.readings (op :: ops)).Pairwise (· ≤ ·)) :
    (RateOp.readings ops).Pairwise (· ≤ ·) :=
  h.sublist ((List.sublist_cons_self op ops).filterMap _)

/-- In a sorted sequence, no reading is before the first one. -/
theorem le_of_mem_readings {r : Nat} (hr : op.reading? = some r)
    (h : (RateOp.readings (op :: ops)).Pairwise (· ≤ ·)) :
    ∀ t ∈ RateOp.readings (op :: ops), r ≤ t := by
  rw [readings_cons_of_some hr] at h ⊢
  intro t ht
  cases List.mem_cons.mp ht with
  | inl heq => exact heq.ge
  | inr hrest => exact (List.pairwise_cons.mp h).1 t hrest

/-- The roll takes its reading as the new beginning. -/
theorem start_next_of_rolls (h : a.Rolls op) :
    ∃ r, op.reading? = some r ∧ a.Over r ∧ (a.next op).start = r := by
  cases op with
  | setRate rate => exact h.elim
  | force now => exact ⟨now.toNat, rfl, h, if_pos h⟩
  | attempt now =>
    refine ⟨now.toNat, rfl, h.2, ?_⟩
    rw [next_attempt h.1]
    exact if_pos h.2

theorem start_next_of_not_rolls (h : ¬ a.Rolls op) : (a.next op).start = a.start := by
  cases op with
  | setRate rate => rfl
  | force now => exact if_neg h
  | attempt now =>
    unfold next
    simp only
    by_cases hpos : 0 < a.rate
    · rw [if_pos hpos]
      exact if_neg fun hover => h ⟨hpos, hover⟩
    · rw [if_neg hpos]

/-- If the window began within the stretch or after it, the stretch ends before the
    next window does. -/
theorem length_stretch_of_le_start {lo : Nat} (hpos : 0 < a.rate)
    (hkeep : RateOp.KeepRate a.rate ops) (hsorted : (RateOp.readings ops).Pairwise (· ≤ ·))
    (hlo : lo ≤ a.start) : (stretch lo (a.admitted ops)).length ≤ a.room := by
  induction ops generalizing a with
  | nil => exact Nat.zero_le _
  | cons op ops ih =>
    by_cases hroll : a.Rolls op
    · -- the roll is after the stretch, and so is what follows it
      obtain ⟨r, hr, hover, -⟩ := start_next_of_rolls hroll
      have hnil : stretch lo (a.admitted (op :: ops)) = [] := by
        apply stretch_eq_nil
        intro t ht
        have hrt := le_of_mem_readings hr hsorted t (mem_readings_of_mem_admitted ht)
        unfold Over at hover
        omega
      rw [hnil]
      exact Nat.zero_le _
    · have hstep := passed_add_room_of_not_rolls hpos hkeep hroll
      have hrest := ih (by rwa [rate_next hkeep]) (keepRate_next hkeep) (sorted_tail hsorted)
        (by rwa [start_next_of_not_rolls hroll])
      have hpassed := length_stretch_le lo (a.passed op)
      unfold admitted
      rw [stretch_append, List.length_append]
      omega

/-- From the beginning of the stretch on, the window has its room, and one more
    window begins at most. -/
theorem length_stretch_of_le_readings {lo : Nat} (hpos : 0 < a.rate)
    (hkeep : RateOp.KeepRate a.rate ops) (hsorted : (RateOp.readings ops).Pairwise (· ≤ ·))
    (hlo : ∀ t ∈ RateOp.readings ops, lo ≤ t) :
    (stretch lo (a.admitted ops)).length ≤ a.room + a.rate.toNat := by
  induction ops generalizing a with
  | nil => exact Nat.zero_le _
  | cons op ops ih =>
    have hrate := rate_next hkeep
    have hpassed := length_stretch_le lo (a.passed op)
    unfold admitted
    rw [stretch_append, List.length_append]
    by_cases hroll : a.Rolls op
    · -- the window that begins here is the last one that meets the stretch
      obtain ⟨r, hr, -, hstart⟩ := start_next_of_rolls hroll
      have hmem : r ∈ RateOp.readings (op :: ops) := by
        rw [readings_cons_of_some hr]
        exact List.mem_cons_self
      have hstep := passed_add_room hpos hkeep
      have hrest := length_stretch_of_le_start (by rwa [hrate]) (keepRate_next hkeep)
        (sorted_tail hsorted) (hstart ▸ hlo r hmem)
      omega
    · have hstep := passed_add_room_of_not_rolls hpos hkeep hroll
      have hrest := ih (by rwa [hrate]) (keepRate_next hkeep) (sorted_tail hsorted)
        fun t ht => hlo t (((List.sublist_cons_self op ops).filterMap _).mem ht)
      rw [hrate] at hrest
      omega

/-- **In any three seconds** no more is admitted than twice the rate. -/
theorem length_stretch_admitted (lo : Nat) (hpos : 0 < a.rate)
    (hkeep : RateOp.KeepRate a.rate ops)
    (hsorted : (RateOp.readings ops).Pairwise (· ≤ ·)) :
    (stretch lo (a.admitted ops)).length ≤ 2 * a.rate.toNat := by
  induction ops generalizing a with
  | nil => exact Nat.zero_le _
  | cons op ops ih =>
    by_cases hlo : ∀ t ∈ RateOp.readings (op :: ops), lo ≤ t
    · have hbound := length_stretch_of_le_readings hpos hkeep hsorted hlo
      have hroom := a.room_le
      omega
    · -- what the operation admits is before the stretch, as the first reading is
      have hbefore : stretch lo (a.passed op) = [] := by
        apply stretch_eq_nil
        intro t ht
        have hread := reading_of_mem_passed ht
        by_contra hcon
        apply hlo
        intro t' ht'
        have hle := le_of_mem_readings hread hsorted t' ht'
        omega
      have hrest := ih (by rwa [rate_next hkeep]) (keepRate_next hkeep) (sorted_tail hsorted)
      rw [rate_next hkeep] at hrest
      unfold admitted
      rw [stretch_append, hbefore]
      exact hrest

/-! ### After a pause -/

/-- Nothing was counted before the window began. -/
def Grounded (a : RateAccount) : Prop := ∀ t ∈ a.counted, a.start ≤ t

theorem Grounded.enter (h : a.Grounded) {now : Nat} (hnow : a.start ≤ now) :
    (a.enter now).Grounded ∧ (a.enter now).start ≤ now := by
  unfold Grounded RateAccount.enter earlier
  by_cases hover : a.Over now
  · -- only the attempt itself is counted, and the window begins with it
    simp [hover]
  · simp only [if_neg hover, List.mem_cons]
    refine ⟨?_, hnow⟩
    intro t ht
    cases ht with
    | inl heq => exact heq ▸ hnow
    | inr hearlier => exact h t hearlier

theorem Grounded.next (h : a.Grounded) (op : RateOp) {b : Nat} (hb : a.start ≤ b)
    (hop : ∀ r, op.reading? = some r → b ≤ r) :
    (a.next op).Grounded ∧ (a.next op).start ≤ (op.reading?.getD b) := by
  cases op with
  | setRate rate => exact ⟨h, hb⟩
  | force now => exact h.enter (hb.trans (hop _ rfl))
  | attempt now =>
    have hnow : a.start ≤ now.toNat := hb.trans (hop _ rfl)
    unfold RateAccount.next
    simp only
    split
    · exact h.enter hnow
    · exact ⟨h, hnow⟩

/-- The first operation reads the clock after the bound, and the others after the first. -/
theorem sorted_next {b : Nat} (hsorted : (b :: RateOp.readings (op :: ops)).Pairwise (· ≤ ·)) :
    (∀ r, op.reading? = some r → b ≤ r) ∧
      ((op.reading?.getD b) :: RateOp.readings ops).Pairwise (· ≤ ·) := by
  cases hr : op.reading? with
  | none =>
    have hreadings : RateOp.readings (op :: ops) = RateOp.readings ops :=
      List.filterMap_cons_none hr
    rw [hreadings] at hsorted
    exact ⟨fun r hnone => by contradiction, hsorted⟩
  | some r =>
    rw [readings_cons_of_some hr, List.pairwise_cons] at hsorted
    refine ⟨fun r' hr' => ?_, hsorted.2⟩
    obtain rfl := Option.some.inj hr'
    exact hsorted.1 r List.mem_cons_self

theorem Grounded.after (h : a.Grounded) {b : Nat} (hb : a.start ≤ b)
    (hsorted : (b :: RateOp.readings ops).Pairwise (· ≤ ·)) : (a.after ops).Grounded := by
  induction ops generalizing a b with
  | nil => exact h
  | cons op ops ih =>
    obtain ⟨hop, hrest⟩ := sorted_next hsorted
    obtain ⟨hnext, hstart⟩ := h.next op hb hop
    exact ih hnext hstart hrest

/-- An attempt three seconds after something that was counted finds a new window. -/
theorem admits_of_pause (h : a.Grounded) {last now : Nat} (hlast : last ∈ a.counted)
    (hpause : last + RateWindow.length ≤ now) : a.Admits now := by
  have hstart := h last hlast
  have hover : a.Over now := by
    unfold Over
    omega
  have hearlier : a.earlier now = [] := if_pos hover
  unfold Admits
  rw [hearlier, List.length_nil]
  omega

theorem rate_after {done rest : List RateOp} (h : RateOp.KeepRate a.rate (done ++ rest)) :
    (a.after done).rate = a.rate ∧ RateOp.KeepRate a.rate rest := by
  induction done generalizing a with
  | nil => exact ⟨rfl, h⟩
  | cons op done ih =>
    have hrate := rate_next h
    have hrest := ih (keepRate_next h)
    rw [hrate] at hrest
    exact hrest

end Steps

end RateAccount

/-! ### The theorem -/

namespace RateWindow

variable {rate : Int} {start : UInt64} {ops : List RateOp}

/-- In a run that fits, the account and the window stay together. -/
theorem describes_after (h : (RateAccount.new rate start.toNat).Fits ops) {done : List RateOp}
    (hdone : done <+: ops) :
    ((RateAccount.new rate start.toNat).after done).Describes ((new rate start).after done) :=
  (RateAccount.Describes.of_new rate start).after (h.of_prefix hdone)

/-- Between two rolls, the window admits no more than its rate. -/
theorem length_admitted_le (h : (RateAccount.new rate start.toNat).Fits ops) (hpos : 0 < rate)
    (hkeep : RateOp.KeepRate rate ops) {done rest : List RateOp} {op : RateOp}
    (hdone : done ++ op :: rest <+: ops)
    (hun : (((RateAccount.new rate start.toNat).after done).next op).Unrolled rest) :
    (((new rate start).after done).admitted (op :: rest)).length ≤ rate.toNat := by
  have hfits := h.of_prefix hdone
  have hdescribes := describes_after h ((List.prefix_append done (op :: rest)).trans hdone)
  rw [hdescribes.admitted hfits.after]
  have hkeep' : RateOp.KeepRate (RateAccount.new rate start.toNat).rate (done ++ op :: rest) :=
    fun r hr => hkeep r (hdone.subset hr)
  obtain ⟨hrate, hrest⟩ := RateAccount.rate_after hkeep'
  have hbound := RateAccount.length_admitted_between_rolls (by rwa [hrate]) (hrate ▸ hrest) hun
  rwa [hrate] at hbound

/-- In any three seconds, the window admits no more than twice its rate. -/
theorem length_stretch_admitted_le (h : (RateAccount.new rate start.toNat).Fits ops)
    (hpos : 0 < rate) (hkeep : RateOp.KeepRate rate ops)
    (hsorted : (start.toNat :: RateOp.readings ops).Pairwise (· ≤ ·)) (lo : Nat) :
    (RateAccount.stretch lo ((new rate start).admitted ops)).length ≤ 2 * rate.toNat := by
  rw [(RateAccount.Describes.of_new rate start).admitted h]
  exact RateAccount.length_stretch_admitted lo hpos hkeep (List.pairwise_cons.mp hsorted).2

/-- Three seconds after the last counted attempt, a try passes. -/
theorem attempt_after_pause (h : (RateAccount.new rate start.toNat).Fits ops)
    (hsorted : (start.toNat :: RateOp.readings ops).Pairwise (· ≤ ·)) {done : List RateOp}
    (hdone : done <+: ops) {last : Nat} {now : UInt64}
    (hlast : ((RateAccount.new rate start.toNat).after done).counted.head? = some last)
    (hpause : last + length ≤ now.toNat) :
    (((new rate start).after done).attempt now).1 = true := by
  rw [(describes_after h hdone).attempt_iff]
  have hnew : (RateAccount.new rate start.toNat).Grounded := fun t ht => by cases ht
  have hpart : (start.toNat :: RateOp.readings done).Pairwise (· ≤ ·) :=
    hsorted.sublist ((hdone.sublist.filterMap _).cons_cons _)
  have hgrounded := hnew.after (Nat.le_refl start.toNat) hpart
  exact RateAccount.admits_of_pause hgrounded (List.mem_of_mem_head? hlast) hpause

/-- **The rate window keeps its account.** After every part of a run it began, and
    counts, as the account says, and a try passes exactly if there is no limit or fewer
    attempts than the rate were counted since the last roll; a forced sample is never
    refused. With a constant rate, at most that many tries pass from one roll to the
    next, and on a clock that does not go back at most twice as many in any three
    seconds. On such a clock a try three seconds after the last counted one passes. -/
theorem rate_window_keeps_account (h : (RateAccount.new rate start.toNat).Fits ops) :
    let window (done : List RateOp) := (new rate start).after done
    let account (done : List RateOp) := (RateAccount.new rate start.toNat).after done
    (∀ done, done <+: ops → (account done).Describes (window done) ∧
      ∀ now, ((window done).attempt now).1 = true ↔ (account done).Admits now.toNat) ∧
    (∀ (g : Gate) name now,
      (g.judge name .sampled now).value = (true, { g with window := g.window.force now })) ∧
    (∀ N : Nat, rate = N → 0 < N → RateOp.KeepRate N ops →
      (∀ done op rest, done ++ op :: rest <+: ops → ((account done).next op).Unrolled rest →
        ((window done).admitted (op :: rest)).length ≤ N) ∧
      ((start.toNat :: RateOp.readings ops).Pairwise (· ≤ ·) →
        ∀ lo, (RateAccount.stretch lo ((new rate start).admitted ops)).length ≤ 2 * N)) ∧
    ((start.toNat :: RateOp.readings ops).Pairwise (· ≤ ·) →
      ∀ done, done <+: ops → ∀ last now, (account done).counted.head? = some last →
        last + 3000 ≤ now.toNat → ((window done).attempt now).1 = true) := by
  intro window account
  refine ⟨?_, fun _ _ _ => rfl, ?_, ?_⟩
  · intro done hdone
    have hdescribes := describes_after h hdone
    exact ⟨hdescribes, hdescribes.attempt_iff⟩
  · rintro N rfl hN hkeep
    have hpos : (0 : Int) < N := by omega
    refine ⟨?_, ?_⟩
    · intro done op rest hdone hun
      exact length_admitted_le h hpos hkeep hdone hun
    · intro hsorted lo
      exact length_stretch_admitted_le h hpos hkeep hsorted lo
  · intro hsorted done hdone last now hlast hpause
    exact attempt_after_pause h hsorted hdone hlast hpause

/-- Two tries at the end of a window and two at the beginning of the next: the bound
    for three seconds is reached. -/
theorem rate_window_keeps_account_twice :
    let ops : List RateOp := [2998, 2999, 2999, 3000, 3001, 3002].map .attempt
    (RateAccount.new 2 0).Fits ops ∧ (new 2 0).admitted ops = [2998, 2999, 3000, 3001] ∧
      (RateAccount.stretch 2998 ((new 2 0).admitted ops)).length ≤ 2 * 2 := by
  intro ops
  have hfits : (RateAccount.new 2 (0 : UInt64).toNat).Fits ops :=
    RateAccount.fits_of_length 2 0 (by decide)
  have hkeep : RateOp.KeepRate (2 : Nat) ops := by
    intro r hr
    simp [ops] at hr
  refine ⟨hfits, by decide, ?_⟩
  exact ((rate_window_keeps_account hfits).2.2.1 2 rfl (by decide) hkeep).2 (by decide) 2998

end RateWindow

end TraceLink
