import PolyLambda.Ty.Basic

/-! # The text of a type

Arrows associate to the right and a quantifier extends as far right as it can,
so the only place that needs parentheses is the domain of an arrow. -/

set_option autoImplicit false

namespace PolyLambda

def Quantifier.symbol : Quantifier → String
  | .all => "∀"
  | .ex => "∃"

namespace Ty

/-- A type that stands as the domain of an arrow without parentheses. -/
def isAtomic : Ty → Bool
  | .int => true
  | .var _ => true
  | .arrow _ _ => false
  | .quant _ _ _ => false

def render : Ty → String
  | .int => "Int"
  | .var v => v.render
  | .arrow domain codomain =>
      (if domain.isAtomic then domain.render else "(" ++ domain.render ++ ")") ++
        " -> " ++ codomain.render
  | .quant q v body => q.symbol ++ v.render ++ ". " ++ body.render

instance : ToString Ty := ⟨render⟩

end Ty

end PolyLambda
