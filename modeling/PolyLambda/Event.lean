import PolyLambda.Derivation

/-! # Events

What checking announces while it runs: each substitution and comparison of
types as it starts, each rule once its conclusion is reached, and the reason
for a rejection found by comparing types.  An event has a level and named
fields; a message, when there is one, is the first field. -/

set_option autoImplicit false

namespace PolyLambda

inductive Level where
  | trace
  | debug
deriving DecidableEq, Repr

def Level.name : Level → String
  | .trace => "TRACE"
  | .debug => "DEBUG"

inductive Event where
  | subst (v : TyVar) (replacement ty : Ty)
  | alphaEq (left right : Ty)
  | var (name : String) (ty : Ty)
  | abs (param : String) (ty : Ty)
  | argumentMismatch (expected actual : Ty)
  | app (ty : Ty)
  | tabs (v : TyVar) (ty : Ty)
  | tapp (v : TyVar) (arg ty : Ty)
  | bodyMismatch (expected actual : Ty)
  | pack (witness ty : Ty)
  | escape (v : TyVar) (ty : Ty)
  | unpack (v : TyVar) (name : String) (ty : Ty)
deriving DecidableEq, Repr

namespace Event

def level : Event → Level
  | .subst _ _ _ => .trace
  | .alphaEq _ _ => .trace
  | _ => .debug

def message? : Event → Option String
  | .subst _ _ _ => some "subst"
  | .alphaEq _ _ => some "alpha_eq"
  | .argumentMismatch _ _ => some "argument mismatch"
  | .bodyMismatch _ _ => some "package body mismatch"
  | .escape _ _ => some "abstract type escapes"
  | _ => none

/-- The rule that was being applied, for the events that a rule announces itself. -/
def rule? : Event → Option Rule
  | .subst _ _ _ => none
  | .alphaEq _ _ => none
  | .var _ _ => some .var
  | .abs _ _ => some .abs
  | .argumentMismatch _ _ => some .app
  | .app _ => some .app
  | .tabs _ _ => some .tabs
  | .tapp _ _ _ => some .tapp
  | .bodyMismatch _ _ => some .pack
  | .pack _ _ => some .pack
  | .escape _ _ => some .unpack
  | .unpack _ _ _ => some .unpack

/-- The fields that stand after the message and the rule. -/
def details : Event → List (String × String)
  | .subst v replacement ty =>
      [("var", v.render), ("replacement", replacement.render), ("ty", ty.render)]
  | .alphaEq left right => [("left", left.render), ("right", right.render)]
  | .var name ty => [("name", name), ("ty", ty.render)]
  | .abs param ty => [("param", param), ("ty", ty.render)]
  | .argumentMismatch expected actual =>
      [("expected", expected.render), ("actual", actual.render)]
  | .app ty => [("ty", ty.render)]
  | .tabs v ty => [("var", v.render), ("ty", ty.render)]
  | .tapp v arg ty => [("var", v.render), ("arg", arg.render), ("ty", ty.render)]
  | .bodyMismatch expected actual =>
      [("expected", expected.render), ("actual", actual.render)]
  | .pack witness ty => [("witness", witness.render), ("ty", ty.render)]
  | .escape v ty => [("var", v.render), ("ty", ty.render)]
  | .unpack v name ty => [("var", v.render), ("name", name), ("ty", ty.render)]

def fields (event : Event) : List (String × String) :=
  (event.message?.map (("message", ·))).toList ++
    (event.rule?.map fun rule => ("rule", rule.name)).toList ++ event.details

end Event

end PolyLambda
