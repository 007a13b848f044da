import PolyLambda.TypeError

/-! # Types in scope

A type is well formed in a scope when each of its variable occurrences is in
the scope or under a quantifier that binds it.  The first occurrence for which
this fails, reading from left to right, is the one reported. -/

set_option autoImplicit false

namespace PolyLambda.Ty

/-- The leftmost variable occurrence that neither `scope` nor a quantifier binds. -/
def firstUnbound? : Scope → Ty → Option TyVar
  | _, .int => none
  | scope, .var v => if v ∈ scope then none else some v
  | scope, .arrow domain codomain =>
      (firstUnbound? scope domain).or (firstUnbound? scope codomain)
  | scope, .quant _ v body => firstUnbound? (scope.insert v) body

def wellFormed (scope : Scope) (ty : Ty) : Except TypeError Unit :=
  match ty.firstUnbound? scope with
  | none => .ok ()
  | some v => .error (.unboundTypeVariable v)

end PolyLambda.Ty
