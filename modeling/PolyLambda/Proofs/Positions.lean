import PolyLambda.Check

/-! # Positions

A position is a list of numbers that says, from the root down, which part to go
into.  `partAt?` looks a position up in anything whose parts can be listed, such as
terms and derivations, and `along?` carries an environment down a term to a
position, with what the term binds on the way. -/

set_option autoImplicit false

namespace PolyLambda

section PartAt

variable {α : Type} (parts : α → List α)

/-- The part of `whole` at a position, where `parts` lists the immediate parts. -/
def partAt? (whole : α) : List Nat → Option α
  | [] => some whole
  | k :: rest => (parts whole)[k]?.bind (partAt? · rest)

variable {parts} {whole part found : α} {k : Nat} {path : List Nat}

theorem partAt?_cons_eq_some_iff :
    partAt? parts whole (k :: path) = some found ↔
      ∃ part, (parts whole)[k]? = some part ∧ partAt? parts part path = some found :=
  Option.bind_eq_some_iff

theorem partAt?_cons (there : (parts whole)[k]? = some part) (path : List Nat) :
    partAt? parts whole (k :: path) = partAt? parts part path := by
  rw [partAt?, there]
  rfl

theorem partAt?_beyond (beyond : (parts whole)[k]? = none) (path : List Nat) :
    partAt? parts whole (k :: path) = none := by
  rw [partAt?, beyond]
  rfl

end PartAt

namespace Expr

def parts : Expr → List Expr
  | .lit _ => []
  | .var _ => []
  | .abs _ _ body => [body]
  | .app func arg => [func, arg]
  | .tabs _ body => [body]
  | .tapp func _ => [func]
  | .pack _ body _ _ => [body]
  | .unpack _ _ packed cont => [packed, cont]

def at? (expr : Expr) (path : List Nat) : Option Expr := partAt? parts expr path

def rule : Expr → Rule
  | .lit _ => .int
  | .var _ => .var
  | .abs _ _ _ => .abs
  | .app _ _ => .app
  | .tabs _ _ => .tabs
  | .tapp _ _ => .tapp
  | .pack _ _ _ _ => .pack
  | .unpack _ _ _ _ => .unpack

@[elab_as_elim]
theorem parts_induction {motive : Expr → Prop}
    (step : ∀ expr, (∀ part ∈ expr.parts, motive part) → motive expr) (expr : Expr) :
    motive expr := by
  induction expr with
  | lit value | var name => exact step _ (List.forall_mem_nil _)
  | abs _ _ _ body | tabs _ _ body | tapp _ _ body | pack _ _ _ _ body =>
      exact step _ (List.forall_mem_singleton.mpr body)
  | app _ _ first second | unpack _ _ _ _ first second =>
      exact step _ (List.forall_mem_cons.mpr ⟨first, List.forall_mem_singleton.mpr second⟩)

theorem exists_at?_of_mem_parts {expr part sub : Expr} {path : List Nat}
    (member : part ∈ expr.parts) (found : part.at? path = some sub) :
    ∃ path', expr.at? path' = some sub := by
  obtain ⟨k, there⟩ := List.mem_iff_getElem?.mp member
  exact ⟨k :: path, partAt?_cons_eq_some_iff.mpr ⟨part, there, found⟩⟩

end Expr

def Derivation.at? (derivation : Derivation) (path : List Nat) : Option Derivation :=
  partAt? premises derivation path

namespace Env

/-- The environment of part number `k` of a term that stands in `env`. -/
def enter? (env : Env) : Expr → Nat → Option Env
  | .abs param paramTy _, 0 => some (env.insertTerm param paramTy)
  | .tabs v _, 0 => some (env.insertType v)
  | .unpack v name packed _, 1 =>
      match typeOfIn env packed with
      | .ok (.ex bound body) =>
          some ((env.insertType v).insertTerm name (body.subst bound (.var v)))
      | _ => none
  | _, _ => some env

end Env

end PolyLambda
