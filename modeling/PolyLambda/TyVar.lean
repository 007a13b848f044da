import Std.Data.ExtTreeSet

/-! # Type variable identities

A type variable is a 64-bit identity and nothing else: two variables are the
same exactly when their indices are.  Identities are ordered by index, and a
`Scope` is a set of them with one representation per set. -/

set_option autoImplicit false

namespace PolyLambda

structure TyVar where
  index : UInt64
deriving DecidableEq, Repr

namespace TyVar

instance : Ord TyVar := ⟨fun v w => compare v.index w.index⟩

instance : Std.TransOrd TyVar :=
  inferInstanceAs (Std.TransCmp (compareOn TyVar.index))

instance : Std.LawfulEqOrd TyVar where
  compare_self := Std.ReflOrd.compare_self (α := UInt64)
  eq_of_compare := by
    intro v w sameIndex
    cases v
    cases w
    exact congrArg TyVar.mk (Std.LawfulEqOrd.eq_of_compare (α := UInt64) sameIndex)

def render (v : TyVar) : String := "t" ++ v.index.toNat.repr

end TyVar

/-- The type variables that may be mentioned at some point. -/
abbrev Scope := Std.ExtTreeSet TyVar

end PolyLambda
