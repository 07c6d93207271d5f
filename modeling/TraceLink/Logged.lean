import TraceLink.Diagnostic

/-! # Results with diagnostics

    The engine is pure: an operation that has something to say returns its
    diagnostics beside its result, oldest first. -/

namespace TraceLink

/-- **Result with the diagnostics** noted on the way to it, oldest first. -/
structure Logged (α : Type) where
  value : α
  notes : List Diagnostic

namespace Logged

variable {α β : Type}

/-- One diagnostic and no result. -/
def note (d : Diagnostic) : Logged Unit := ⟨(), [d]⟩

/-- One diagnostic if the condition holds. -/
def noteIf (condition : Bool) (d : Diagnostic) : Logged Unit :=
  if condition then note d else ⟨(), []⟩

instance : Monad Logged where
  pure a := ⟨a, []⟩
  bind x f := ⟨(f x.value).value, x.notes ++ (f x.value).notes⟩

@[simp] theorem pure_value (a : α) : (pure a : Logged α).value = a := rfl

@[simp] theorem pure_notes (a : α) : (pure a : Logged α).notes = [] := rfl

@[simp] theorem bind_value (x : Logged α) (f : α → Logged β) :
    (x >>= f).value = (f x.value).value := rfl

@[simp] theorem bind_notes (x : Logged α) (f : α → Logged β) :
    (x >>= f).notes = x.notes ++ (f x.value).notes := rfl

@[simp] theorem map_value (f : α → β) (x : Logged α) : (f <$> x).value = f x.value := rfl

@[simp] theorem map_notes (f : α → β) (x : Logged α) : (f <$> x).notes = x.notes :=
  List.append_nil _

@[simp] theorem note_notes (d : Diagnostic) : (note d).notes = [d] := rfl

instance : LawfulMonad Logged := LawfulMonad.mk' Logged
  (fun x => by cases x; simp [Functor.map])
  (fun _ _ => rfl)
  (fun x f g => by simp [bind, List.append_assoc])

/-- The value of a fold with diagnostics is the fold of the values. -/
theorem foldlM_value (f : β → α → Logged β) (b : β) (xs : List α) :
    (xs.foldlM f b).value = xs.foldl (fun b x => (f b x).value) b := by
  induction xs generalizing b with
  | nil => rfl
  | cons x xs ih => simp [List.foldlM_cons, ih]

end Logged

end TraceLink
