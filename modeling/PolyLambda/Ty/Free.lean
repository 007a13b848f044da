import PolyLambda.Ty.Basic

/-! # Free type variables -/

set_option autoImplicit false

namespace PolyLambda.Ty

def occursFree (v : TyVar) : Ty → Bool
  | .int => false
  | .var w => w == v
  | .arrow domain codomain => occursFree v domain || occursFree v codomain
  | .quant _ w body => w != v && occursFree v body

/-- A type may leave the scope of `v` when it does not mention `v` freely. -/
def notEscape (v : TyVar) (ty : Ty) : Bool := !ty.occursFree v

def freeVars : Ty → Scope
  | .int => ∅
  | .var v => (∅ : Scope).insert v
  | .arrow domain codomain => domain.freeVars ∪ codomain.freeVars
  | .quant _ v body => body.freeVars.erase v

end PolyLambda.Ty
