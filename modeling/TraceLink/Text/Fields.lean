/-! # Fields between separators

    A text is cut at every occurrence of one character. There is always a first
    field, so a text without the separator is one field, and the empty text is
    one empty field. -/

namespace TraceLink.Text

/-- The first field of the text, and the fields after it. -/
def cut (sep : Char) : List Char → List Char × List (List Char)
  | [] => ([], [])
  | c :: rest =>
    let (first, others) := cut sep rest
    if c = sep then ([], first :: others) else (c :: first, others)

/-- All fields of the text. -/
def fields (sep : Char) (s : List Char) : List (List Char) :=
  (cut sep s).1 :: (cut sep s).2

/-- The text before the first separator and the text after it, if there is a
    separator. -/
def cutOnce? (sep : Char) : List Char → Option (List Char × List Char)
  | [] => none
  | c :: rest =>
    if c = sep then some ([], rest)
    else (cutOnce? sep rest).map fun (before, after) => (c :: before, after)

/-- The fields written one after the other with the separator between them. -/
def joined (sep : Char) (fs : List (List Char)) : List Char := [sep].intercalate fs

/-! ### Cutting and joining -/

@[simp] theorem joined_singleton (sep : Char) (f : List Char) : joined sep [f] = f := by
  simp [joined]

theorem joined_cons (sep : Char) (f g : List Char) (fs : List (List Char)) :
    joined sep (f :: g :: fs) = f ++ sep :: joined sep (g :: fs) := by
  simp [joined]

/-- A field holds no separator. -/
theorem not_mem_of_mem_fields {sep : Char} {s f : List Char} (h : f ∈ fields sep s) :
    sep ∉ f := by
  induction s generalizing f with
  | nil => simp_all [fields, cut]
  | cons c rest ih =>
    by_cases hc : c = sep
    · simp only [fields, cut, hc, if_true, List.mem_cons] at h
      rcases h with rfl | h
      · simp
      · exact ih (by simpa [fields] using h)
    · simp only [fields, cut, hc, if_false, List.mem_cons] at h
      rcases h with rfl | h
      · have := ih (f := (cut sep rest).1) (by simp [fields])
        simp [this, Ne.symm hc]
      · exact ih (by simp [fields, h])

theorem cut_append {sep : Char} {f : List Char} (h : sep ∉ f) (s : List Char) :
    cut sep (f ++ s) = (f ++ (cut sep s).1, (cut sep s).2) := by
  induction f with
  | nil => rfl
  | cons c rest ih =>
    simp only [List.mem_cons, not_or] at h
    simp [cut, ih h.2, Ne.symm h.1]

/-- Fields without separator are read back as they were written. -/
theorem fields_joined {sep : Char} {f : List Char} {fs : List (List Char)}
    (h : ∀ g ∈ f :: fs, sep ∉ g) : fields sep (joined sep (f :: fs)) = f :: fs := by
  induction fs generalizing f with
  | nil =>
    have := cut_append (h f (by simp)) []
    simp_all [fields, cut]
  | cons g gs ih =>
    rw [joined_cons, fields, cut_append (h f (by simp))]
    have := ih (f := g) fun x hx => h x (List.mem_cons_of_mem _ hx)
    rw [fields] at this
    simp [cut, this]

theorem cutOnce?_append {sep : Char} {f : List Char} (h : sep ∉ f) (s : List Char) :
    cutOnce? sep (f ++ sep :: s) = some (f, s) := by
  induction f with
  | nil => simp [cutOnce?]
  | cons c rest ih =>
    simp only [List.mem_cons, not_or] at h
    simp [cutOnce?, ih h.2, Ne.symm h.1]

end TraceLink.Text
