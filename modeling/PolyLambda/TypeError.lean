import PolyLambda.Ty.Render

/-! # Type errors

Every way a term can be rejected, with the types and names that show why, and
the one text each of them has. -/

set_option autoImplicit false

namespace PolyLambda

inductive TypeError where
  | unboundVariable (name : String)
  | unboundTypeVariable (v : TyVar)
  | notArrow (ty : Ty)
  | notForall (ty : Ty)
  | notExists (ty : Ty)
  | typeMismatch (expected actual : Ty)
  | escape (v : TyVar) (ty : Ty)
deriving DecidableEq, Repr

/-- The cause of an error without the types and names it carries. -/
inductive ErrorKind where
  | unboundVariable
  | unboundTypeVariable
  | notArrow
  | notForall
  | notExists
  | typeMismatch
  | escape
deriving DecidableEq, Repr

def ErrorKind.name : ErrorKind → String
  | .unboundVariable => "UnboundVariable"
  | .unboundTypeVariable => "UnboundTypeVariable"
  | .notArrow => "NotArrow"
  | .notForall => "NotForall"
  | .notExists => "NotExists"
  | .typeMismatch => "TypeMismatch"
  | .escape => "Escape"

namespace TypeError

def kind : TypeError → ErrorKind
  | .unboundVariable _ => .unboundVariable
  | .unboundTypeVariable _ => .unboundTypeVariable
  | .notArrow _ => .notArrow
  | .notForall _ => .notForall
  | .notExists _ => .notExists
  | .typeMismatch _ _ => .typeMismatch
  | .escape _ _ => .escape

def message : TypeError → String
  | .unboundVariable name => "unbound variable: " ++ name
  | .unboundTypeVariable v => "unbound type variable: " ++ v.render
  | .notArrow ty => "expected a function type, found " ++ ty.render
  | .notForall ty => "expected a universal type, found " ++ ty.render
  | .notExists ty => "expected an existential type, found " ++ ty.render
  | .typeMismatch expected actual =>
      "type mismatch: expected " ++ expected.render ++ ", found " ++ actual.render
  | .escape v ty => "abstract type " ++ v.render ++ " escapes its scope in " ++ ty.render

end TypeError

end PolyLambda
