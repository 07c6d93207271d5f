import TraceLink.Proofs.CorrelationCodec
import TraceLink.Proofs.SoundStrands

/-! # Laws of correlation entries

    Whether an entry is stored depends on the entries that are there: its value has to be
    short enough, and its key known, or an entry free. What is refused changes nothing, and
    what is stored changes one entry, in its place or at the end.

    An entry is *settled* if storing it once more would change nothing. Storing settles an
    entry, also by refusing it, and no entry under another key unsettles it. So merging the
    same entries again changes nothing, however full the receiver is. -/

namespace TraceLink

namespace Entries

variable {κ α : Type} [DecidableEq κ]

/-- The value that is there already. -/
theorem put_of_get? {es : Entries κ α} {key : κ} {value : α} (h : es.get? key = some value) :
    es.put key value = es := by
  induction es with
  | nil => contradiction
  | cons e rest ih =>
    rw [get?_cons] at h
    unfold put
    split
    · next he =>
      rw [if_pos he] at h
      rw [← Option.some.inj h]
    · next he =>
      rw [if_neg he] at h
      rw [ih h]

/-- The entries under other keys, in their order. -/
def besides (es : Entries κ α) (key : κ) : Entries κ α := es.filter fun e => e.1 ≠ key

theorem besides_cons (e : κ × α) (es : Entries κ α) (key : κ) :
    besides (e :: es) key = if e.1 = key then es.besides key else e :: es.besides key := by
  unfold besides
  by_cases h : e.1 = key
  · rw [if_pos h, List.filter_cons_of_neg (by simpa using h)]
  · rw [if_neg h, List.filter_cons_of_pos (by simpa using h)]

theorem besides_put (es : Entries κ α) (key : κ) (value : α) :
    (es.put key value).besides key = es.besides key := by
  induction es with
  | nil => rw [put, besides_cons, if_pos rfl]
  | cons e rest ih =>
    unfold put
    split
    · next he => rw [besides_cons, besides_cons, if_pos he, if_pos he]
    · next he => rw [besides_cons, besides_cons, if_neg he, if_neg he, ih]

theorem besides_of_not_mem {es : Entries κ α} {key : κ} (h : key ∉ es.map Prod.fst) :
    es.besides key = es := by
  refine List.filter_eq_self.mpr fun e he => ?_
  have hne : e.1 ≠ key := fun heq => h (heq ▸ List.mem_map_of_mem he)
  simpa using hne

/-- Where the keys are distinct, only one entry can be erased. -/
theorem erase_eq_besides {es : Entries κ α} (hkeys : (es.map Prod.fst).Nodup) (key : κ) :
    es.erase key = es.besides key := by
  induction es with
  | nil => rfl
  | cons e rest ih =>
    rw [List.map_cons, List.nodup_cons] at hkeys
    rw [erase, besides_cons]
    split
    · next he => rw [besides_of_not_mem (he ▸ hkeys.1)]
    · rw [ih hkeys.2]

end Entries

namespace Correlation

/-! ### Storing one entry -/

/-- **Admitting** an entry: it has a key, its value is short enough, and its key is known
    or an entry free. -/
def Admits (c : Correlation) (key value : String) : Prop :=
  key ≠ "" ∧ value.utf8ByteSize ≤ c.limits.valueBytes ∧
    (c.entries.hasKey key = true ∨ c.entries.length < c.limits.entries)

/-- **Storing** a value leads from the first correlation to the second: the value is found
    under its key, all other entries stay as they are, and so does the order of the keys, in
    which a new one comes last. -/
structure Stores (key value : String) (c c' : Correlation) : Prop where
  found : c'.get? key = some value
  others : c'.entries.besides key = c.entries.besides key
  keys : c'.entries.map Prod.fst =
    if c.entries.hasKey key then c.entries.map Prod.fst else c.entries.map Prod.fst ++ [key]
  limits : c'.limits = c.limits

variable {c : Correlation} {key value : String}

theorem put_of_admits (hvalue : value ≠ "") (h : c.Admits key value) :
    (c.put key value).value = (true, { c with entries := c.entries.put key value }) := by
  obtain ⟨hkey, hsize, hroom⟩ := h
  have hfree : (c.entries.hasKey key || decide (c.entries.length < c.limits.entries)) = true := by
    simpa using hroom
  rw [put, if_neg hkey, if_neg hvalue, if_neg (Nat.not_lt.mpr hsize), if_pos hfree]
  rfl

theorem put_of_not_admits (hvalue : value ≠ "") (h : ¬c.Admits key value) :
    (c.put key value).value = (false, c) := by
  by_cases hkey : key = ""
  · rw [put, if_pos hkey]
    rfl
  · rw [put, if_neg hkey, if_neg hvalue]
    split
    · rfl
    · next hsize =>
      have hfull : ¬(c.entries.hasKey key || decide (c.entries.length < c.limits.entries)) = true :=
        fun hfree => h ⟨hkey, Nat.le_of_not_lt hsize, by simpa using hfree⟩
      rw [if_neg hfull]
      rfl

/-- An empty value erases the entry, which always succeeds. -/
theorem put_empty (c : Correlation) (hkey : key ≠ "") :
    (c.put key "").value = (true, c.erase key) := by
  rw [put, if_neg hkey, if_pos rfl]
  rfl

/-- What is refused changes nothing. -/
theorem put_of_refused (h : (c.put key value).value.1 = false) : (c.put key value).value.2 = c := by
  by_cases hvalue : value = ""
  · by_cases hkey : key = ""
    · rw [put, if_pos hkey]
      rfl
    · rw [hvalue, put_empty c hkey] at h
      contradiction
  · by_cases hadmits : c.Admits key value
    · rw [put_of_admits hvalue hadmits] at h
      contradiction
    · rw [put_of_not_admits hvalue hadmits]

/-- What is not refused is stored. -/
theorem stores_put (hvalue : value ≠ "") (h : (c.put key value).value.1 = true) :
    Stores key value c (c.put key value).value.2 := by
  by_cases hadmits : c.Admits key value
  · rw [put_of_admits hvalue hadmits]
    refine ⟨?_, Entries.besides_put _ _ _, Entries.keys_put _ _ _, rfl⟩
    show (c.entries.put key value).get? key = some value
    rw [Entries.get?_put, if_pos rfl]
  · rw [put_of_not_admits hvalue hadmits] at h
    contradiction

/-! ### Settled entries -/

/-- **Settled entry**: storing it changes nothing. -/
def Settled (c : Correlation) (e : String × String) : Prop := (c.put e.1 e.2).value.2 = c

/-- An entry is settled if it is not admitted, or is there already. -/
theorem settled_iff (hvalue : value ≠ "") :
    c.Settled (key, value) ↔ ¬c.Admits key value ∨ c.get? key = some value := by
  by_cases hadmits : c.Admits key value
  · have hput : (c.put key value).value.2 = { c with entries := c.entries.put key value } := by
      rw [put_of_admits hvalue hadmits]
    constructor
    · intro hsettled
      have hentries : c.entries.put key value = c.entries :=
        congrArg Correlation.entries (hput.symm.trans hsettled)
      refine .inr ?_
      rw [get?, ← hentries, Entries.get?_put, if_pos rfl]
    · rintro (hnot | hfound)
      · exact absurd hadmits hnot
      · rw [Settled, hput, Entries.put_of_get? hfound]
  · refine ⟨fun _ => .inl hadmits, fun _ => ?_⟩
    rw [Settled, put_of_not_admits hvalue hadmits]

/-- Storing an entry settles it, even if it is refused. -/
theorem settled_put (c : Correlation) (key : String) (hvalue : value ≠ "") :
    (c.put key value).value.2.Settled (key, value) := by
  by_cases hadmits : c.Admits key value
  · refine (settled_iff hvalue).mpr (.inr ?_)
    rw [put_of_admits hvalue hadmits, get?, Entries.get?_put, if_pos rfl]
  · rw [put_of_not_admits hvalue hadmits]
    exact (settled_iff hvalue).mpr (.inl hadmits)

/-- No other entry unsettles an entry: its key stays known or unknown, and what was full
    stays full. -/
theorem Settled.put {other otherValue : String} (h : c.Settled (key, value))
    (hvalue : value ≠ "") (hother : otherValue ≠ "") (hne : other ≠ key) :
    (c.put other otherValue).value.2.Settled (key, value) := by
  by_cases hadmits : c.Admits other otherValue
  · rw [put_of_admits hother hadmits]
    have hget : (c.entries.put other otherValue).get? key = c.entries.get? key := by
      rw [Entries.get?_put, if_neg hne]
    rcases (settled_iff hvalue).mp h with hnot | hfound
    · refine (settled_iff hvalue).mpr (.inl ?_)
      rintro ⟨hkey, hsize, hroom⟩
      refine hnot ⟨hkey, hsize, ?_⟩
      rcases hroom with hknown | hfree
      · refine .inl ?_
        rwa [Entries.hasKey_eq_isSome, hget, ← Entries.hasKey_eq_isSome] at hknown
      · refine .inr (Nat.lt_of_le_of_lt ?_ hfree)
        show c.entries.length ≤ (c.entries.put other otherValue).length
        rw [Entries.length_put]
        omega
    · exact (settled_iff hvalue).mpr (.inr (hget.trans hfound))
  · rw [put_of_not_admits hother hadmits]
    exact h

/-! ### Merging again -/

/-- Entries that are all settled change nothing. -/
theorem putAll_of_settled {es : Entries String String} (h : ∀ e ∈ es, c.Settled e) :
    (c.putAll es).value = c := by
  induction es with
  | nil => rfl
  | cons e es ih =>
    rw [putAll_cons_value, h e List.mem_cons_self]
    exact ih fun x hx => h x (List.mem_cons_of_mem _ hx)

theorem Settled.putAll {es : Entries String String} (h : c.Settled (key, value))
    (hvalue : value ≠ "") (hvalues : ∀ e ∈ es, e.2 ≠ "") (hkey : key ∉ es.map Prod.fst) :
    (c.putAll es).value.Settled (key, value) := by
  induction es generalizing c with
  | nil => exact h
  | cons e es ih =>
    rw [List.map_cons, List.mem_cons, not_or] at hkey
    rw [putAll_cons_value]
    refine ih ?_ (fun x hx => hvalues x (List.mem_cons_of_mem _ hx)) hkey.2
    exact h.put hvalue (hvalues e List.mem_cons_self) (Ne.symm hkey.1)

/-- Entries under distinct keys are all settled once they were stored. -/
theorem settled_putAll {es : Entries String String} (c : Correlation)
    (hkeys : (es.map Prod.fst).Nodup) (hvalues : ∀ e ∈ es, e.2 ≠ "") :
    ∀ e ∈ es, (c.putAll es).value.Settled e := by
  induction es generalizing c with
  | nil => exact fun e he => by contradiction
  | cons x es ih =>
    rw [List.map_cons, List.nodup_cons] at hkeys
    have hrest : ∀ e ∈ es, e.2 ≠ "" := fun e he => hvalues e (List.mem_cons_of_mem _ he)
    have hx : x.2 ≠ "" := hvalues x List.mem_cons_self
    intro e he
    rw [putAll_cons_value]
    rcases List.mem_cons.mp he with rfl | he
    · exact (settled_put c e.1 hx).putAll hx hrest hkeys.1
    · exact ih _ hkeys.2 hrest e he

/-- **Merging is idempotent**, whatever the receiver holds. -/
theorem merge_merge (c : Correlation) {other : Correlation} (h : other.WellFormed) :
    ((c.merge other).value.merge other).value = (c.merge other).value :=
  putAll_of_settled (settled_putAll c h.keys_nodup h.value_ne)

/-- All entries of a correlation are settled in it. -/
theorem merge_self (h : c.WellFormed) : (c.merge c).value = c := by
  refine putAll_of_settled fun e he => ?_
  exact (settled_iff (h.value_ne e he)).mpr (.inr (Entries.get?_of_mem h.keys_nodup he))

/-- The operations build exactly what keeps the limits: merging well-formed entries into
    none yields these entries. -/
theorem built_iff_fits {limits : Limits} : Built limits c ↔ c.Fits limits := by
  refine ⟨Built.fits, fun h => ?_⟩
  obtain ⟨rfl, hwell⟩ := h
  have hmerge : ((empty c.limits).merge c).value = c := by
    rw [merge_empty_value hwell, admitted_self hwell]
  have hbuilt : Built c.limits ((empty c.limits).merge c).value := .merge c .empty
  rwa [hmerge] at hbuilt

/-! ### The laws -/

/-- **Correlation entries keep their limits**, whatever is stored, erased, merged or read, and
    so do those of every open segment in every run. Any entries within the limits can be built.
    What is refused changes nothing, what is stored changes one entry only, an empty value
    erases the entry under its key, and merging is idempotent. -/
theorem entries_keep_limits :
    (∀ (limits : Limits) (c : Correlation), Built limits c ↔ c.Fits limits) ∧
    (∀ (config : Config) (reporter : Reporter) (process : String) (start : UInt64)
      (ops : List (UInt64 × Op)) (k : Nat) (o : OpenSegment),
      ((Engine.ofTracer (.start config reporter process start)).run ops).open? k = some o →
        o.correlation.Fits config.correlationLimits) ∧
    ∀ (limits : Limits) (c : Correlation), c.Fits limits →
      (∀ key value, (c.put key value).value.1 = false → (c.put key value).value.2 = c) ∧
      (∀ key value, value ≠ "" → (c.put key value).value.1 = true →
        Stores key value c (c.put key value).value.2) ∧
      (∀ key, key ≠ "" →
        (c.put key "").value = (true, { c with entries := c.entries.besides key })) ∧
      (∀ limits' other, Fits limits' other →
        ((c.merge other).value.merge other).value = (c.merge other).value) ∧
      (c.merge c).value = c := by
  refine ⟨fun limits c => built_iff_fits, ?_, fun limits c hfits => ?_⟩
  · intro config reporter process start ops k o hopen
    obtain ⟨s, hsite, hactive⟩ := Engine.site?_of_open? hopen
    obtain ⟨-, hsound⟩ :=
      (Strand.sound_invariant config).of_run reporter process start ops hsite
    exact (hsound.active o hactive).bearings.correlation
  · refine ⟨fun key value => put_of_refused, fun key value => stores_put, fun key hkey => ?_,
      fun limits' other hother => merge_merge c hother.2, merge_self hfits.2⟩
    rw [put_empty c hkey, erase, Entries.erase_eq_besides hfits.2.keys_nodup]

/-- A receiver with a single entry, and a value of four bytes. -/
def cramped : Correlation := ((empty ⟨1, 4⟩).put "user" "42").value.2

/-- What comes from elsewhere: another value, one that is too long, and one too many. -/
def generous : Correlation := ⟨.standard, [("user", "7"), ("theme", "light"), ("shop", "x")]⟩

theorem entries_keep_limits_cramped :
    cramped.Fits ⟨1, 4⟩ ∧ (cramped.merge generous).value.entries = [("user", "7")] ∧
      ((cramped.merge generous).value.merge generous).value = (cramped.merge generous).value ∧
      (cramped.put "shop" "x").value = (false, cramped) := by
  obtain ⟨hfits, -, hlaws⟩ := entries_keep_limits
  have hcramped : cramped.Fits ⟨1, 4⟩ := (hfits _ _).mp (.put "user" "42" .empty)
  have hgenerous : generous.Fits .standard :=
    ⟨rfl, by decide, by decide, by decide, by decide, by decide⟩
  obtain ⟨hrefused, -, -, hmerge, -⟩ := hlaws ⟨1, 4⟩ cramped hcramped
  have hanswer : (cramped.put "shop" "x").value.1 = false := by decide +kernel
  exact ⟨hcramped, by decide +kernel, hmerge .standard generous hgenerous,
    Prod.ext hanswer (hrefused "shop" "x" hanswer)⟩

end Correlation

end TraceLink
