import Std.Data.ExtTreeMap
import PolyLambda.Ty.Scope

/-! # Typing environments

An environment binds term variables to types and holds the type variables in
scope.  Both parts are extensional, so environments are equal exactly when they
give the same answers, and both are listed in increasing order. -/

set_option autoImplicit false

namespace PolyLambda

@[ext]
structure Env where
  terms : Std.ExtTreeMap String Ty
  types : Scope
deriving DecidableEq

namespace Env

def empty : Env := ⟨∅, ∅⟩

/-- Binds `name`, in place of any earlier binding of it. -/
def insertTerm (env : Env) (name : String) (ty : Ty) : Env :=
  { env with terms := env.terms.insert name ty }

def insertType (env : Env) (v : TyVar) : Env :=
  { env with types := env.types.insert v }

def lookup (env : Env) (name : String) : Except TypeError Ty :=
  match env.terms[name]? with
  | some ty => .ok ty
  | none => .error (.unboundVariable name)

def containsType (env : Env) (v : TyVar) : Bool := env.types.contains v

def wellFormed (env : Env) (ty : Ty) : Except TypeError Unit := ty.wellFormed env.types

/-- The bindings, in the order of their names. -/
def renderTerms (env : Env) : String :=
  ", ".intercalate (env.terms.toList.map fun binding => binding.1 ++ ": " ++ binding.2.render)

/-- The type variables in scope, in the order of their indices. -/
def renderTypes (env : Env) : String :=
  ", ".intercalate (env.types.toList.map TyVar.render)

/-- A bar stands between bindings and type variables whenever there are type variables. -/
def render (env : Env) : String :=
  if env.types.isEmpty then
    "\x7b" ++ env.renderTerms ++ "\x7d"
  else if env.terms.isEmpty then
    "\x7b| " ++ env.renderTypes ++ "\x7d"
  else
    "\x7b" ++ env.renderTerms ++ " | " ++ env.renderTypes ++ "\x7d"

instance : ToString Env := ⟨render⟩

end Env

end PolyLambda
