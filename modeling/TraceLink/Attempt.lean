import TraceLink.Logged

/-! # Attempts

    An operation may fail. It then answers with an error instead of a result, but it
    leaves a state all the same, and what it noted before stays noted. Nothing is undone
    by the failure as such: an operation that changes the state first and fails then
    leaves the changed one. -/

namespace TraceLink

/-- **Failure** of an operation: the error, and the state that the operation leaves. -/
structure Failure (ε σ : Type) where
  error : ε
  state : σ
  deriving Repr, DecidableEq

/-- **Attempt** at an operation on a state of type `σ`, with its result, or with its
    failure and what was noted until then. -/
abbrev Attempt (ε σ α : Type) : Type := Except (Logged (Failure ε σ)) α

namespace Attempt

variable {ε σ τ α : Type}

/-- Fails in the given state, and notes nothing. -/
def fail (e : ε) (s : σ) : Attempt ε σ α := .error (pure ⟨e, s⟩)

/-- The attempt as one on a larger state, into which `put` puts what a failure leaves. -/
def within (put : σ → τ) (a : Attempt ε σ α) : Attempt ε τ α :=
  a.mapError fun x => (fun f => ⟨f.error, put f.state⟩) <$> x

/-- Notes the usage error, if the attempt fails. -/
def raised (a : Attempt UsageError σ α) : Attempt UsageError σ α :=
  a.mapError fun x => do
    let f ← x
    Logged.note (.usage f.error)
    return f

end Attempt

end TraceLink
