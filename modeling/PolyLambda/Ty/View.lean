import PolyLambda.TypeError

/-! # Taking types apart

Each view returns the parts of a type of one shape, and refuses any other type
with the error that carries it. -/

set_option autoImplicit false

namespace PolyLambda.Ty

def asArrow : Ty → Except TypeError (Ty × Ty)
  | .arrow domain codomain => .ok (domain, codomain)
  | ty => .error (.notArrow ty)

def asForall : Ty → Except TypeError (TyVar × Ty)
  | .all v body => .ok (v, body)
  | ty => .error (.notForall ty)

def asExists : Ty → Except TypeError (TyVar × Ty)
  | .ex v body => .ok (v, body)
  | ty => .error (.notExists ty)

end PolyLambda.Ty
