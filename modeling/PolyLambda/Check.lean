import PolyLambda.Run
import PolyLambda.Ty.Free
import PolyLambda.Ty.View

/-! # Type checking

`check` applies the one rule that fits the form of a term, establishes its
premises from left to right and stops at the first that fails.  It never makes
up a type variable: every identity in a result comes from the environment or
from the term. -/

set_option autoImplicit false

namespace PolyLambda

def check (detail : Detail) : Env → Expr → Run (Ty × Derivation)
  | env, .lit value =>
      return (.int, .conclude detail .int env (.lit value) .int [])
  | env, .var name => do
      let ty ← Run.ofExcept (env.lookup name)
      Run.emit (.var name ty)
      return (ty, .conclude detail .var env (.var name) ty [])
  | env, .abs param paramTy body => do
      Run.ofExcept (env.wellFormed paramTy)
      let (bodyTy, premise) ← check detail (env.insertTerm param paramTy) body
      let ty := .arrow paramTy bodyTy
      Run.emit (.abs param ty)
      return (ty, .conclude detail .abs env (.abs param paramTy body) ty [premise])
  | env, .app func arg => do
      let (funcTy, first) ← check detail env func
      let (domain, codomain) ← Run.ofExcept funcTy.asArrow
      let (argTy, second) ← check detail env arg
      if ← domain.alphaEqRun argTy then
        Run.emit (.app codomain)
        return (codomain, .conclude detail .app env (.app func arg) codomain [first, second])
      else
        Run.emit (.argumentMismatch domain argTy)
        Run.fail (.typeMismatch domain argTy)
  | env, .tabs v body => do
      let (bodyTy, premise) ← check detail (env.insertType v) body
      let ty := .all v bodyTy
      Run.emit (.tabs v ty)
      return (ty, .conclude detail .tabs env (.tabs v body) ty [premise])
  | env, .tapp func arg => do
      let (funcTy, premise) ← check detail env func
      let (v, body) ← Run.ofExcept funcTy.asForall
      Run.ofExcept (env.wellFormed arg)
      let ty ← body.substRun v arg
      Run.emit (.tapp v arg ty)
      return (ty, .conclude detail .tapp env (.tapp func arg) ty [premise])
  | env, .pack witness body v bodyTy => do
      let ty := .ex v bodyTy
      Run.ofExcept (env.wellFormed witness)
      Run.ofExcept ((env.insertType v).wellFormed ty)
      let (actual, premise) ← check detail env body
      let expected ← bodyTy.substRun v witness
      if ← expected.alphaEqRun actual then
        Run.emit (.pack witness ty)
        return (ty, .conclude detail .pack env (.pack witness body v bodyTy) ty [premise])
      else
        Run.emit (.bodyMismatch expected actual)
        Run.fail (.typeMismatch expected actual)
  | env, .unpack v name packed cont => do
      let (packedTy, first) ← check detail env packed
      let (bound, body) ← Run.ofExcept packedTy.asExists
      let opened ← body.substRun bound (.var v)
      let (ty, second) ← check detail ((env.insertType v).insertTerm name opened) cont
      if ty.notEscape v then
        Run.emit (.unpack v name ty)
        return (ty, .conclude detail .unpack env (.unpack v name packed cont) ty [first, second])
      else
        Run.emit (.escape v ty)
        Run.fail (.escape v ty)

/-- The run that finds the type alone. -/
def inferIn (env : Env) (expr : Expr) : Run Ty := Prod.fst <$> check .bare env expr

def typeOfIn (env : Env) (expr : Expr) : Except TypeError Ty := (inferIn env expr).outcome

def typeOf (expr : Expr) : Except TypeError Ty := typeOfIn .empty expr

def deriveIn (env : Env) (expr : Expr) : Except TypeError (Ty × Derivation) :=
  (check .full env expr).outcome

def derive (expr : Expr) : Except TypeError (Ty × Derivation) := deriveIn .empty expr

end PolyLambda
