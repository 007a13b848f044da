import PolyLambda.TyVar

/-! # Supplies of fresh identities

A supply hands out consecutive identities from its counter.  The last 64-bit
word is never handed out: a supply whose counter has reached it is exhausted and
stays as it is.

A `Draw` is a computation that takes identities from a supply.  Its result
keeps the supply it leaves behind and the identities it was given, also when
the supply ran out on the way. -/

set_option autoImplicit false

namespace PolyLambda

@[ext]
structure Supply where
  /-- The index of the next identity. -/
  counter : UInt64
deriving DecidableEq, Repr

structure Exhausted where
deriving DecidableEq, Repr

def Exhausted.message (_ : Exhausted) : String := "attempt to add with overflow"

namespace Supply

def new : Supply := ⟨0⟩

def lastCounter : UInt64 := 18446744073709551615

end Supply

structure Drawn (α : Type) where
  supply : Supply
  /-- The identities handed out, in order. -/
  handed : List TyVar
  outcome : Except Exhausted α

def Draw (α : Type) : Type := Supply → Drawn α

namespace Draw

def run {α : Type} (draw : Draw α) (supply : Supply) : Drawn α := draw supply

instance : Monad Draw where
  pure a := fun supply => ⟨supply, [], .ok a⟩
  bind draw next := fun supply =>
    let first := draw supply
    match first.outcome with
    | .ok a =>
        let second := next a first.supply
        ⟨second.supply, first.handed ++ second.handed, second.outcome⟩
    | .error exhausted => ⟨first.supply, first.handed, .error exhausted⟩

instance : LawfulMonad Draw :=
  LawfulMonad.mk' Draw
    (by
      intro α draw
      funext supply
      simp only [Functor.map]
      rcases draw supply with ⟨left, handed, outcome⟩
      cases outcome with
      | error exhausted => rfl
      | ok a =>
          change Drawn.mk left (handed ++ []) (.ok a) = ⟨left, handed, .ok a⟩
          rw [List.append_nil])
    (by
      intro α β a next
      funext supply
      simp [bind, pure])
    (by
      intro α β γ draw next last
      funext supply
      simp only [bind]
      rcases draw supply with ⟨left, handed, outcome⟩
      cases outcome with
      | error exhausted => rfl
      | ok a =>
          dsimp only
          cases (next a left).outcome <;> simp)

def fresh : Draw TyVar := fun supply =>
  if supply.counter = Supply.lastCounter then
    ⟨supply, [], .error ⟨⟩⟩
  else
    ⟨⟨supply.counter + 1⟩, [⟨supply.counter⟩], .ok ⟨supply.counter⟩⟩

end Draw

end PolyLambda
