import PolyLambda.Expr.Basic
import PolyLambda.Ty.Alpha
import PolyLambda.TypeError

/-! # Samples

A sample is a named term with the outcome that checking it should have. -/

set_option autoImplicit false

namespace PolyLambda

inductive Expectation where
  | type (ty : Ty)
  | error (kind : ErrorKind)
deriving DecidableEq, Repr

/-- Types are compared up to the names of bound variables, errors by their kind. -/
def Expectation.agrees : Expectation → Except TypeError Ty → Bool
  | .type expected, .ok actual => expected.alphaEq actual
  | .error kind, .error cause => cause.kind == kind
  | _, _ => false

structure Sample where
  name : String
  description : String
  expr : Expr
  expected : Expectation
deriving DecidableEq, Repr

def Sample.agrees (sample : Sample) (outcome : Except TypeError Ty) : Bool :=
  sample.expected.agrees outcome

end PolyLambda
