import PolyLambda.TyVar

/-! # Types

The types of the polymorphic lambda calculus with existential packages.  The
two quantifiers are one constructor with a `Quantifier` tag, because every
structural operation treats them alike; only rendering and destructuring tell
them apart. -/

set_option autoImplicit false

namespace PolyLambda

inductive Quantifier where
  | all
  | ex
deriving DecidableEq, Repr

inductive Ty where
  | int
  | var (v : TyVar)
  | arrow (domain codomain : Ty)
  | quant (q : Quantifier) (v : TyVar) (body : Ty)
deriving DecidableEq, Repr

namespace Ty

/-- The universal type `∀v. body`. -/
@[match_pattern] abbrev all (v : TyVar) (body : Ty) : Ty := .quant .all v body

/-- The existential type `∃v. body`. -/
@[match_pattern] abbrev ex (v : TyVar) (body : Ty) : Ty := .quant .ex v body

end Ty

end PolyLambda
