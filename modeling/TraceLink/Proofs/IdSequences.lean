import TraceLink.Proofs.Namings

/-! # Sequences of ids

    An id is the name of the process, an ordinal and a number, with dots between them. The
    number is the clock reading followed by four digits of a sequence that counts the calls,
    reduced to 64 bits.

    As long as nothing is lost by that, two ids of one source are the same exactly if they
    were made for the same ordinal at the same clock reading, a multiple of ten thousand
    calls apart. It does not matter how the clock moves in between. -/

namespace TraceLink

namespace Text

theorem digits_inj {m n : Nat} (h : digits m = digits n) : m = n := by
  have hread := readDigits_digits m
  rw [h, readDigits_digits] at hread
  exact (Option.some.inj hread).symm

theorem toList_toString (n : Nat) : (toString n).toList = digits n := by
  rw [Nat.toString_eq_ofList_toDigits, String.toList_ofList, digits]

end Text

namespace IdSource

/-! ### The text of an id -/

/-- The parts of an id, with dots between them. -/
theorem toList_generate (i : IdSource) (ordinal now : UInt64) :
    (i.generate ordinal now).1.toList =
      i.process.toList ++ '.' ::
        (Text.digits ordinal.toNat ++ '.' :: Text.digits (stamp now i.sequence).toNat) := by
  have htext : (i.generate ordinal now).1 =
      i.process ++ "." ++ toString ordinal.toNat ++ "." ++
        toString (stamp now i.sequence).toNat := rfl
  have hdot : ".".toList = ['.'] := by decide
  rw [htext]
  simp only [String.toList_append, Text.toList_toString, hdot, List.append_assoc,
    List.cons_append, List.nil_append]

/-- There is room for the clock reading and four digits behind it in 64 bits. -/
def HasRoom (now : UInt64) : Prop := now.toNat * 10000 + 9999 < UInt64.size

instance (now : UInt64) : Decidable (HasRoom now) := inferInstanceAs (Decidable (_ < _))

/-- Where there is room, nothing of the number is lost. -/
theorem toNat_stamp {now : UInt64} (h : HasRoom now) (sequence : UInt64) :
    (stamp now sequence).toNat = now.toNat * 10000 + sequence.toNat % 10000 := by
  unfold HasRoom UInt64.size at h
  have hscaled : (10000 : UInt64).toNat = 10000 := rfl
  rw [stamp, UInt64.toNat_add, UInt64.toNat_mul, UInt64.toNat_mod, hscaled]
  omega

/-- The clock reading and the four digits can be told from the number. -/
theorem stamp_eq_iff {now now' : UInt64} (h : HasRoom now) (h' : HasRoom now')
    {sequence sequence' : UInt64} :
    stamp now sequence = stamp now' sequence' ↔
      now = now' ∧ sequence.toNat % 10000 = sequence'.toNat % 10000 := by
  rw [← UInt64.toNat_inj, toNat_stamp h, toNat_stamp h']
  constructor
  · intro heq
    refine ⟨UInt64.toNat_inj.mp ?_, ?_⟩
    · omega
    · omega
  · rintro ⟨rfl, heq⟩
    rw [heq]

/-- At one clock reading the four digits can be told from the number in any case. -/
theorem digits_of_stamp {now sequence sequence' : UInt64}
    (h : stamp now sequence = stamp now sequence') :
    sequence.toNat % 10000 = sequence'.toNat % 10000 := by
  have hdigits : sequence % 10000 = sequence' % 10000 := (UInt64.add_right_inj _).mp h
  have hnat := congrArg UInt64.toNat hdigits
  rwa [UInt64.toNat_mod, UInt64.toNat_mod] at hnat

/-- **Two ids of one process** are the same exactly if their parts are. -/
theorem generate_eq_iff {i i' : IdSource} (hprocess : i'.process = i.process)
    {ordinal ordinal' now now' : UInt64} :
    (i.generate ordinal now).1 = (i'.generate ordinal' now').1 ↔
      ordinal = ordinal' ∧ stamp now i.sequence = stamp now' i'.sequence := by
  have hdot (n : Nat) : '.' ∉ Text.digits n := Text.not_mem_digits (by decide) n
  rw [← String.toList_inj, toList_generate, toList_generate, hprocess, List.append_cancel_left_eq,
    List.cons_inj_right]
  constructor
  · intro h
    -- the ordinals end at the first dot
    have hcut := Text.cutOnce?_append (hdot ordinal.toNat)
      (Text.digits (stamp now i.sequence).toNat)
    rw [h, Text.cutOnce?_append (hdot ordinal'.toNat)] at hcut
    obtain ⟨hordinal, hstamp⟩ := Prod.mk.inj (Option.some.inj hcut)
    exact ⟨(UInt64.toNat_inj.mp (Text.digits_inj hordinal)).symm,
      (UInt64.toNat_inj.mp (Text.digits_inj hstamp)).symm⟩
  · rintro ⟨rfl, hstamp⟩
    rw [hstamp]

/-! ### Sequences of calls -/

/-- **Call** for an id: for which ordinal, and at which clock reading. -/
structure Call where
  ordinal : UInt64
  now : UInt64
  deriving Repr, DecidableEq

/-- The ids that calls return, one after the other. -/
def generateAll (i : IdSource) : List Call → List String
  | [] => []
  | c :: cs => (i.generate c.ordinal c.now).1 :: (i.generate c.ordinal c.now).2.generateAll cs

/-- The source after some calls. -/
def after (i : IdSource) (n : Nat) : IdSource :=
  { i with sequence := i.sequence + UInt64.ofNat n }

variable {i : IdSource} {calls : List Call}

theorem length_generateAll (i : IdSource) (calls : List Call) :
    (i.generateAll calls).length = calls.length := by
  induction calls generalizing i with
  | nil => rfl
  | cons c cs ih => rw [generateAll, List.length_cons, ih, List.length_cons]

/-- Each call counts the sequence up by one, whatever it is for. -/
theorem getElem?_generateAll (i : IdSource) (calls : List Call) (n : Nat) :
    (i.generateAll calls)[n]? =
      calls[n]?.map fun c => ((i.after n).generate c.ordinal c.now).1 := by
  induction calls generalizing i n with
  | nil => rfl
  | cons c cs ih =>
    cases n with
    | zero =>
      have hsame : i.after 0 = i := by simp [after]
      rw [generateAll, List.getElem?_cons_zero, List.getElem?_cons_zero, Option.map_some, hsame]
    | succ n =>
      have hnext : (i.generate c.ordinal c.now).2.after n = i.after (n + 1) := by
        simp only [after, generate, UInt64.ofNat_add]
        congr 1
        rw [UInt64.add_assoc, UInt64.add_comm 1]
        rfl
      rw [generateAll, List.getElem?_cons_succ, List.getElem?_cons_succ, ih, hnext]

/-- As long as the sequence has room it is not reduced. -/
theorem toNat_after {n : Nat} (h : i.sequence.toNat + n < UInt64.size) :
    (i.after n).sequence.toNat = i.sequence.toNat + n := by
  have hn : n < UInt64.size := by omega
  rw [after, UInt64.toNat_add, UInt64.toNat_ofNat_of_lt' hn, Nat.mod_eq_of_lt h]

/-- Two calls in a row get different digits, even if the sequence begins anew in between. -/
theorem digits_next (sequence : UInt64) :
    sequence.toNat % 10000 ≠ (sequence + 1).toNat % 10000 := by
  have hlt := sequence.toNat_lt
  rw [UInt64.toNat_add, UInt64.toNat_one]
  omega

/-- The id of a segment and the trace id that is generated with it differ. -/
theorem segment_ne_trace (i : IdSource) (ordinal now : UInt64) :
    (i.names ordinal now).segment ≠ (i.names ordinal now).trace := by
  intro h
  have hprocess : (i.generate ordinal now).2.process = i.process := rfl
  have hparts := (generate_eq_iff hprocess).mp h
  exact digits_next i.sequence (digits_of_stamp hparts.2)

end IdSource

namespace OpenSegment

/-- A segment begins with the names that are generated for it. Only if it continues another
    one does it belong to another trace. -/
theorem named_start (t : Tracer) (ordinal now : UInt64) (name : String) (inherited : Inherited)
    (continuation : Option Snapshot) :
    let o := (start t ordinal now name inherited continuation).value.1
    o.segment.id = (t.ids.names ordinal now).segment ∧
      (o.segment.parent = none → o.segment.trace = (t.ids.names ordinal now).trace) := by
  intro o
  have hsegment : o.segment.named (t.ids.names ordinal now) = o.segment :=
    congrArg OpenSegment.segment (start_bears t ordinal now name inherited continuation)
  refine ⟨congrArg Segment.id hsegment.symm, fun hroot => ?_⟩
  have htrace : (t.ids.names ordinal now).traceOf o.segment.inherited = o.segment.trace :=
    congrArg Segment.trace hsegment
  rw [Segment.inherited, hroot] at htrace
  exact htrace.symm

end OpenSegment

namespace IdSource

/-- **Ids repeat exactly** when they are made for the same ordinal at the same clock reading, a
    multiple of ten thousand calls apart, for all calls that the sequence and the number have
    room for. So they are distinct among any ten thousand calls in a row, and the two ids that
    a segment begins with are always distinct. -/
theorem ids_repeat_exactly :
    (∀ (i : IdSource) (calls : List Call), i.sequence.toNat + calls.length ≤ UInt64.size →
      (∀ c ∈ calls, HasRoom c.now) →
      (i.generateAll calls).length = calls.length ∧
      (∀ (m n : Nat) (c d : Call), calls[m]? = some c → calls[n]? = some d →
        ((i.generateAll calls)[m]? = (i.generateAll calls)[n]? ↔
          c.ordinal = d.ordinal ∧ c.now = d.now ∧ m % 10000 = n % 10000)) ∧
      (∀ m n : Nat, m < n → n < calls.length → n < m + 10000 →
        (i.generateAll calls)[m]? ≠ (i.generateAll calls)[n]?)) ∧
    ∀ (t : Tracer) (ordinal now : UInt64) (name : String) (inherited : Inherited)
      (continuation : Option Snapshot),
      let o := (OpenSegment.start t ordinal now name inherited continuation).value.1
      let own := (t.ids.names ordinal now).trace
      o.segment.id ≠ own ∧ (o.segment.parent = none → o.segment.trace = own) := by
  refine ⟨?_, ?_⟩
  · intro i calls hsequence hroom
    have hsame : ∀ (m n : Nat) (c d : Call), calls[m]? = some c → calls[n]? = some d →
        ((i.generateAll calls)[m]? = (i.generateAll calls)[n]? ↔
          c.ordinal = d.ordinal ∧ c.now = d.now ∧ m % 10000 = n % 10000) := by
      intro m n c d hc hd
      obtain ⟨hm, -⟩ := List.getElem?_eq_some_iff.mp hc
      obtain ⟨hn, -⟩ := List.getElem?_eq_some_iff.mp hd
      have hprocess : (i.after n).process = (i.after m).process := rfl
      rw [getElem?_generateAll, getElem?_generateAll, hc, hd, Option.map_some, Option.map_some,
        Option.some_inj, generate_eq_iff hprocess,
        stamp_eq_iff (hroom c (List.mem_of_getElem? hc)) (hroom d (List.mem_of_getElem? hd)),
        toNat_after (by omega), toNat_after (by omega)]
      have hshift : (i.sequence.toNat + m) % 10000 = (i.sequence.toNat + n) % 10000 ↔
          m % 10000 = n % 10000 := by omega
      rw [hshift]
    refine ⟨i.length_generateAll calls, hsame, ?_⟩
    intro m n hlt hn hnear heq
    have hm : m < calls.length := by omega
    have hmod := ((hsame m n _ _ (List.getElem?_eq_getElem hm)
      (List.getElem?_eq_getElem hn)).mp heq).2.2
    omega
  · intro t ordinal now name inherited continuation o own
    obtain ⟨hid, htrace⟩ := OpenSegment.named_start t ordinal now name inherited continuation
    refine ⟨?_, htrace⟩
    rw [hid]
    exact t.ids.segment_ne_trace ordinal now

/-- The clock stands still, goes back, and comes to the same reading again. -/
theorem ids_repeat_exactly_backwards :
    let calls : List Call := [⟨7, 5⟩, ⟨7, 5⟩, ⟨8, 5⟩, ⟨7, 4⟩, ⟨7, 5⟩]
    (new "p").generateAll calls =
        ["p.7.50000", "p.7.50001", "p.8.50002", "p.7.40003", "p.7.50004"] ∧
      ((new "p").generateAll calls)[0]? ≠ ((new "p").generateAll calls)[4]? := by
  intro calls
  obtain ⟨hcalls, -⟩ := ids_repeat_exactly
  obtain ⟨-, -, hdistinct⟩ := hcalls (new "p") calls (by decide) (by decide)
  exact ⟨by decide +kernel, hdistinct 0 4 (by decide) (by decide) (by decide)⟩

end IdSource

end TraceLink
