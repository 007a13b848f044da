import PolyLambda.Env
import PolyLambda.Expr.Render

/-! # Derivations

A derivation records the rules by which a term got its type.  Each node holds
the text of what was checked and of the type found, and the derivations of its
premises in the order they were established.  A bare derivation keeps the last
rule and nothing else. -/

set_option autoImplicit false

namespace PolyLambda

inductive Rule where
  | int
  | var
  | abs
  | app
  | tabs
  | tapp
  | pack
  | unpack
deriving DecidableEq, Repr

def Rule.name : Rule → String
  | .int => "T-Int"
  | .var => "T-Var"
  | .abs => "T-Abs"
  | .app => "T-App"
  | .tabs => "T-TAbs"
  | .tapp => "T-TApp"
  | .pack => "T-Pack"
  | .unpack => "T-Unpack"

/-- How much of a derivation is kept. -/
inductive Detail where
  | full
  | bare
deriving DecidableEq, Repr

inductive Derivation where
  | node (rule : Rule) (input output : String) (premises : List Derivation)

namespace Derivation

def rule : Derivation → Rule
  | .node rule _ _ _ => rule

def input : Derivation → String
  | .node _ input _ _ => input

def output : Derivation → String
  | .node _ _ output _ => output

def premises : Derivation → List Derivation
  | .node _ _ _ premises => premises

/-- The conclusion that `expr` has type `ty` in `env`, as far as `detail` keeps it. -/
def conclude (detail : Detail) (rule : Rule) (env : Env) (expr : Expr) (ty : Ty)
    (premises : List Derivation) : Derivation :=
  match detail with
  | .full => .node rule (env.render ++ " ⊢ " ++ expr.render ++ " ⇒") ty.render premises
  | .bare => .node rule "" "" []

mutual

/-- One line for each node, indented by two blanks for each level below the root. -/
def lines (depth : Nat) : Derivation → List String
  | .node rule input output premises =>
      (String.ofList (List.replicate (2 * depth) ' ') ++ rule.name ++ ": " ++ input ++ " " ++
        output) :: linesOfAll (depth + 1) premises

def linesOfAll (depth : Nat) : List Derivation → List String
  | [] => []
  | first :: rest => lines depth first ++ linesOfAll depth rest

end

def render (derivation : Derivation) : String :=
  String.join ((derivation.lines 0).map (· ++ "\n"))

instance : ToString Derivation := ⟨render⟩

end Derivation

end PolyLambda
