import PolyLambda.Sample.Catalogue

/-! # Sessions over numbered supplies

A session holds any number of supplies, numbered in the order they were made.
Each step makes a supply, draws from one, or looks at some; a step that names a
supply that does not exist is refused. -/

set_option autoImplicit false

namespace PolyLambda

/-- The supplies of a session, by number. -/
abbrev Session := List Supply

namespace Session

inductive Step where
  | new
  | startingAt (counter : UInt64)
  | clone (k : Nat)
  | fresh (k : Nat)
  | counter (k : Nat)
  | same (k l : Nat)
  | catalogue (k : Nat)
deriving DecidableEq, Repr

inductive Answer where
  | made (k : Nat)
  | var (v : TyVar)
  | counter (counter : UInt64)
  | same (result : Bool)
  | samples (count : Nat)
  | exhausted (cause : Exhausted)
deriving DecidableEq, Repr

structure Stepped where
  session : Session
  answer : Answer
  handed : List TyVar
deriving DecidableEq, Repr

def initial : Session := [Supply.new]

def counters (session : Session) : List UInt64 := session.map Supply.counter

def add (session : Session) (supply : Supply) : Stepped :=
  ⟨session ++ [supply], .made session.length, []⟩

/-- Draws from supply number `k`, which keeps what the draw leaves behind. -/
def drawFrom {α : Type} (session : Session) (k : Nat) (draw : Draw α) (answer : α → Answer) :
    Option Stepped := do
  let supply ← session[k]?
  let drawn := draw.run supply
  return {
    session := session.set k drawn.supply
    answer :=
      match drawn.outcome with
      | .ok a => answer a
      | .error cause => .exhausted cause
    handed := drawn.handed }

def step (session : Session) : Step → Option Stepped
  | .new => some (session.add Supply.new)
  | .startingAt counter => some (session.add ⟨counter⟩)
  | .clone k => do
      let supply ← session[k]?
      return session.add supply
  | .fresh k => session.drawFrom k Draw.fresh .var
  | .counter k => do
      let supply ← session[k]?
      return ⟨session, .counter supply.counter, []⟩
  | .same k l => do
      let first ← session[k]?
      let second ← session[l]?
      return ⟨session, .same (first == second), []⟩
  | .catalogue k => session.drawFrom k PolyLambda.catalogue fun samples => .samples samples.length

def run : Session → List Step → Option (List Stepped)
  | _, [] => some []
  | session, first :: rest => do
      let stepped ← session.step first
      let later ← run stepped.session rest
      return stepped :: later

end Session

end PolyLambda
