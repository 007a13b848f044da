import Std.Data.ExtTreeMap
import PolyLambda.Ty.Basic

/-! # Comparison up to the names of bound variables

Two types are walked together while a renaming records, for every binder that
has been entered on the left, the binder it faces on the right.  A binder that
is left puts back whatever entry its identity had before, so a comparison that
starts from a renaming ends with the same one.

The renaming is read from left to right only.  A variable that no binder on the
left has bound is compared by identity, whatever the right side has bound. -/

set_option autoImplicit false

namespace PolyLambda

/-- The right-hand partner of each binder entered on the left. -/
abbrev Renaming := Std.ExtTreeMap TyVar TyVar

namespace Renaming

/-- A variable on the left stands for its partner, or for itself without one. -/
def apply (ρ : Renaming) (v : TyVar) : TyVar := ρ[v]?.getD v

def restore (ρ : Renaming) (v : TyVar) : Option TyVar → Renaming
  | some partner => ρ.insert v partner
  | none => ρ.erase v

end Renaming

namespace Ty

def alphaEqIn : Renaming → Ty → Ty → Bool × Renaming
  | ρ, .int, .int => (true, ρ)
  | ρ, .var v, .var w => (ρ.apply v == w, ρ)
  | ρ, .arrow domain₁ codomain₁, .arrow domain₂ codomain₂ =>
      match alphaEqIn ρ domain₁ domain₂ with
      | (true, left) => alphaEqIn left codomain₁ codomain₂
      | (false, left) => (false, left)
  | ρ, .quant q₁ v body₁, .quant q₂ w body₂ =>
      if q₁ = q₂ then
        let (same, inner) := alphaEqIn (ρ.insert v w) body₁ body₂
        (same, inner.restore v ρ[v]?)
      else
        (false, ρ)
  | ρ, _, _ => (false, ρ)

def alphaEq (left right : Ty) : Bool := (alphaEqIn ∅ left right).1

end Ty

end PolyLambda
