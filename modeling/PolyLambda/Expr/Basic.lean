import PolyLambda.Ty.Basic

/-! # Terms

Terms carry every annotation that checking needs: parameter types, explicit
type abstraction and application, and the witness and the body of the
existential type a package is given. -/

set_option autoImplicit false

namespace PolyLambda

inductive Expr where
  | lit (value : Int64)
  | var (name : String)
  /-- `λparam: paramTy. body` -/
  | abs (param : String) (paramTy : Ty) (body : Expr)
  | app (func arg : Expr)
  /-- `Λv. body` -/
  | tabs (v : TyVar) (body : Expr)
  | tapp (func : Expr) (arg : Ty)
  /-- `pack [witness, body] as ∃v. bodyTy` -/
  | pack (witness : Ty) (body : Expr) (v : TyVar) (bodyTy : Ty)
  /-- `unpack [v, name] = packed in cont` -/
  | unpack (v : TyVar) (name : String) (packed cont : Expr)
deriving DecidableEq, Repr

end PolyLambda
