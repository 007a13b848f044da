import PolyLambda.Expr.Basic
import PolyLambda.Ty.Render

/-! # The text of a term

Abstractions, packages and openings extend as far right as they can and take
parentheses in function position.  An argument takes them unless it is a
literal or a variable. -/

set_option autoImplicit false

namespace PolyLambda.Expr

/-- A term whose text extends as far right as it can. -/
def isOpenEnded : Expr → Bool
  | .abs _ _ _ => true
  | .tabs _ _ => true
  | .pack _ _ _ _ => true
  | .unpack _ _ _ _ => true
  | .lit _ => false
  | .var _ => false
  | .app _ _ => false
  | .tapp _ _ => false

/-- A term that stands as an argument without parentheses. -/
def isAtomic : Expr → Bool
  | .lit _ => true
  | .var _ => true
  | .abs _ _ _ => false
  | .app _ _ => false
  | .tabs _ _ => false
  | .tapp _ _ => false
  | .pack _ _ _ _ => false
  | .unpack _ _ _ _ => false

def render : Expr → String
  | .lit value => value.toInt.repr
  | .var name => name
  | .abs param paramTy body => "λ" ++ param ++ ": " ++ paramTy.render ++ ". " ++ body.render
  | .app func arg =>
      (if func.isOpenEnded then "(" ++ func.render ++ ")" else func.render) ++ " " ++
        (if arg.isAtomic then arg.render else "(" ++ arg.render ++ ")")
  | .tabs v body => "Λ" ++ v.render ++ ". " ++ body.render
  | .tapp func arg =>
      (if func.isOpenEnded then "(" ++ func.render ++ ")" else func.render) ++
        " [" ++ arg.render ++ "]"
  | .pack witness body v bodyTy =>
      "pack [" ++ witness.render ++ ", " ++ body.render ++ "] as ∃" ++ v.render ++ ". " ++
        bodyTy.render
  | .unpack v name packed cont =>
      "unpack [" ++ v.render ++ ", " ++ name ++ "] = " ++ packed.render ++ " in " ++ cont.render

instance : ToString Expr := ⟨render⟩

end PolyLambda.Expr
