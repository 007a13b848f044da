import PolyLambda.Ty.Subst
import PolyLambda.Ty.View

/-! # Building types step by step

Each step makes the next type from the one before it, or fails when that type
does not have the shape the step takes apart.  `to` and `of` make the type the
domain and the codomain of an arrow, and `unseal` opens an existential type
under a given identity. -/

set_option autoImplicit false

namespace PolyLambda.Ty

inductive Step where
  | subst (v : TyVar) (replacement : Ty)
  | substSelf (v : TyVar)
  | quantify (q : Quantifier) (v : TyVar)
  | to (codomain : Ty)
  | of (domain : Ty)
  | domain
  | codomain
  | instantiate (arg : Ty)
  | unseal (v : TyVar)
deriving DecidableEq, Repr

def step (ty : Ty) : Step → Except TypeError Ty
  | .subst v replacement => .ok (ty.subst v replacement)
  | .substSelf v => .ok (ty.subst v ty)
  | .quantify q v => .ok (.quant q v ty)
  | .to codomain => .ok (.arrow ty codomain)
  | .of domain => .ok (.arrow domain ty)
  | .domain => do
      let (domain, _) ← ty.asArrow
      return domain
  | .codomain => do
      let (_, codomain) ← ty.asArrow
      return codomain
  | .instantiate arg => do
      let (v, body) ← ty.asForall
      return body.subst v arg
  | .unseal v => do
      let (bound, body) ← ty.asExists
      return body.subst bound (.var v)

end PolyLambda.Ty
