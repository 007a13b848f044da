import PolyLambda.Ty.Basic

/-! # Substitution

Every occurrence of a variable is replaced, whether a binder around it has the
same identity or not, and binders are never renamed.  This is the
capture-avoiding substitution for types whose binders are neither the variable
replaced nor free in the replacement, which is what fresh identities ensure. -/

set_option autoImplicit false

namespace PolyLambda.Ty

/-- `ty` with `replacement` at every occurrence of `v`. -/
def subst (ty : Ty) (v : TyVar) (replacement : Ty) : Ty :=
  match ty with
  | .int => .int
  | .var w => if w = v then replacement else .var w
  | .arrow domain codomain => .arrow (domain.subst v replacement) (codomain.subst v replacement)
  | .quant q w body => .quant q w (body.subst v replacement)

end PolyLambda.Ty
