import PolyLambda.Event
import PolyLambda.Ty.Alpha
import PolyLambda.Ty.Subst

/-! # Runs

A run is the events announced, in order, and how it ended.  A run that fails
keeps the events announced before the failure, and what would have followed
announces nothing. -/

set_option autoImplicit false

namespace PolyLambda

@[ext]
structure Run (α : Type) where
  events : List Event
  outcome : Except TypeError α

namespace Run

variable {α β γ : Type}

def ofExcept (outcome : Except TypeError α) : Run α := ⟨[], outcome⟩

def emit (event : Event) : Run Unit := ⟨[event], .ok ()⟩

def fail (error : TypeError) : Run α := ⟨[], .error error⟩

instance : Monad Run where
  pure a := ⟨[], .ok a⟩
  bind run next :=
    match run.outcome with
    | .ok a =>
        let rest := next a
        ⟨run.events ++ rest.events, rest.outcome⟩
    | .error error => ⟨run.events, .error error⟩

theorem bind_of_ok {run : Run α} {a : α} (succeeds : run.outcome = .ok a) (next : α → Run β) :
    run >>= next = ⟨run.events ++ (next a).events, (next a).outcome⟩ := by
  simp only [bind, succeeds]

theorem bind_of_error {run : Run α} {error : TypeError} (fails : run.outcome = .error error)
    (next : α → Run β) : run >>= next = ⟨run.events, .error error⟩ := by
  simp only [bind, fails]

instance : LawfulMonad Run :=
  LawfulMonad.mk' Run
    (by
      rintro α ⟨events, outcome⟩
      cases outcome <;> simp [Functor.map])
    (by
      intro α β a next
      simp [bind, pure])
    (by
      rintro α β γ ⟨events, outcome⟩ next last
      cases outcome with
      | error error => rfl
      | ok a =>
          simp only [bind]
          cases (next a).outcome <;> simp)

end Run

namespace Ty

/-- Substitution as a run, announced with its arguments as it starts. -/
def substRun (ty : Ty) (v : TyVar) (replacement : Ty) : Run Ty := do
  Run.emit (.subst v replacement ty)
  return ty.subst v replacement

def alphaEqRun (left right : Ty) : Run Bool := do
  Run.emit (.alphaEq left right)
  return left.alphaEq right

end Ty

end PolyLambda
