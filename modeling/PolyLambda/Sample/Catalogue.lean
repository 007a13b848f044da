import PolyLambda.Sample.Basic
import PolyLambda.Supply

/-! # The sample catalogue

Eighteen samples, whose type variables are drawn from one supply in catalogue
order.  No identity is drawn twice, so no two binders in the terms of the
catalogue share one.  An expected type may repeat the binders of its term, as
that of `selfApplication` does. -/

set_option autoImplicit false

namespace PolyLambda

namespace Catalogue

/-- `∀a. a -> a` -/
def polyIdTy : Draw Ty := do
  let a ← Draw.fresh
  return .all a (.arrow (.var a) (.var a))

/-- `Λa. λx: a. x` -/
def polyId : Draw Expr := do
  let a ← Draw.fresh
  return .tabs a (.abs "x" (.var a) (.var "x"))

/-- `λx: Int. x` -/
def intId : Expr := .abs "x" .int (.var "x")

/-- `pack [Int, 42] as ∃a. a` -/
def hiddenInt (a : TyVar) : Expr := .pack .int (.lit 42) a (.var a)

/-- `repr -> (repr -> repr) -> (repr -> Int) -> result`: what a client of a counter
is given, where `repr` represents the counter. -/
def counterClientTy (repr result : Ty) : Ty :=
  .arrow repr (.arrow (.arrow repr repr) (.arrow (.arrow repr .int) result))

/-- `∀r. (repr -> (repr -> repr) -> (repr -> Int) -> r) -> r`: the interface of a
counter, in continuation-passing style. -/
def counterInterface (repr : Ty) : Draw Ty := do
  let r ← Draw.fresh
  return .all r (.arrow (counterClientTy repr (.var r)) (.var r))

def counterPackage : Draw Expr := do
  let r ← Draw.fresh
  let sameInt := .abs "n" .int (.var "n")
  let body := .app (.app (.app (.var "k") (.lit 0)) sameInt) sameInt
  let implementation := .tabs r (.abs "k" (counterClientTy .int (.var r)) body)
  let a ← Draw.fresh
  let interface ← counterInterface (.var a)
  return .pack .int implementation a interface

def int : Draw Sample :=
  return ⟨"int", "an integer literal", .lit 42, .type .int⟩

def intIdentity : Draw Sample :=
  return ⟨"int-identity", "identity on integers", intId, .type (.arrow .int .int)⟩

def polyIdentity : Draw Sample := do
  let expr ← polyId
  let ty ← polyIdTy
  return ⟨"poly-identity", "polymorphic identity", expr, .type ty⟩

def polyIdentityInt : Draw Sample := do
  let identity ← polyId
  return ⟨"poly-identity-int", "polymorphic identity instantiated at Int and applied",
    .app (.tapp identity .int) (.lit 5), .type .int⟩

def const : Draw Sample := do
  let a ← Draw.fresh
  let b ← Draw.fresh
  let c ← Draw.fresh
  let d ← Draw.fresh
  return ⟨"const", "polymorphic constant function",
    .tabs a (.tabs b (.abs "x" (.var a) (.abs "y" (.var b) (.var "x")))),
    .type (.all c (.all d (.arrow (.var c) (.arrow (.var d) (.var c)))))⟩

def churchTwo : Draw Sample := do
  let a ← Draw.fresh
  let c ← Draw.fresh
  return ⟨"church-two", "the Church numeral two",
    .tabs a (.abs "f" (.arrow (.var a) (.var a))
      (.abs "x" (.var a) (.app (.var "f") (.app (.var "f") (.var "x"))))),
    .type (.all c (.arrow (.arrow (.var c) (.var c)) (.arrow (.var c) (.var c))))⟩

def selfApplication : Draw Sample := do
  let paramTy ← polyIdTy
  let instanceTy ← polyIdTy
  return ⟨"self-application", "polymorphic identity applied to itself",
    .abs "f" paramTy (.app (.tapp (.var "f") instanceTy) (.var "f")),
    .type (.arrow paramTy instanceTy)⟩

def package : Draw Sample := do
  let a ← Draw.fresh
  let b ← Draw.fresh
  return ⟨"pack", "an integer hidden behind an existential", hiddenInt a, .type (.ex b (.var b))⟩

def unpackEscape : Draw Sample := do
  let a ← Draw.fresh
  let b ← Draw.fresh
  return ⟨"unpack-escape", "unpacking and returning the hidden value leaks its type",
    .unpack b "x" (hiddenInt a) (.var "x"), .error .escape⟩

def counter : Draw Sample := do
  let expr ← counterPackage
  let a ← Draw.fresh
  let interface ← counterInterface (.var a)
  return ⟨"counter", "an abstract counter package", expr, .type (.ex a interface)⟩

def counterClient : Draw Sample := do
  let packed ← counterPackage
  let c ← Draw.fresh
  let client :=
    .abs "new" (.var c)
      (.abs "inc" (.arrow (.var c) (.var c))
        (.abs "get" (.arrow (.var c) .int)
          (.app (.var "get") (.app (.var "inc") (.var "new")))))
  return ⟨"counter-client", "using the counter only through its interface",
    .unpack c "ctr" packed (.app (.tapp (.var "ctr") .int) client), .type .int⟩

def abstractIsNotWitness : Draw Sample := do
  let a ← Draw.fresh
  let b ← Draw.fresh
  return ⟨"abstract-is-not-witness", "the hidden type cannot be used as its witness",
    .unpack b "x" (hiddenInt a) (.app intId (.var "x")), .error .typeMismatch⟩

def mismatch : Draw Sample :=
  return ⟨"mismatch", "a function passed where an Int is expected",
    .app intId intId, .error .typeMismatch⟩

def notAFunction : Draw Sample :=
  return ⟨"not-a-function", "applying an integer", .app (.lit 1) (.lit 2), .error .notArrow⟩

def instantiateMonomorphic : Draw Sample :=
  return ⟨"instantiate-monomorphic", "type application of a non-polymorphic term",
    .tapp (.lit 1) .int, .error .notForall⟩

def illFormedAnnotation : Draw Sample := do
  let a ← Draw.fresh
  return ⟨"ill-formed-annotation", "a parameter annotated with an unbound type variable",
    .abs "x" (.var a) (.var "x"), .error .unboundTypeVariable⟩

def unpackNonPackage : Draw Sample := do
  let b ← Draw.fresh
  return ⟨"unpack-non-package", "unpacking something that is not an existential",
    .unpack b "x" (.lit 1) (.var "x"), .error .notExists⟩

def unbound : Draw Sample :=
  return ⟨"unbound", "a free value variable", .var "y", .error .unboundVariable⟩

def entries : List (Draw Sample) :=
  [int, intIdentity, polyIdentity, polyIdentityInt, const, churchTwo, selfApplication, package,
    unpackEscape, counter, counterClient, abstractIsNotWitness, mismatch, notAFunction,
    instantiateMonomorphic, illFormedAnnotation, unpackNonPackage, unbound]

end Catalogue

def catalogue : Draw (List Sample) := Catalogue.entries.mapM id

/-- The catalogue of a new supply. -/
def standardCatalogue : List Sample :=
  match (catalogue.run Supply.new).outcome with
  | .ok samples => samples
  | .error _ => []

/-- A new supply lasts for the whole catalogue. -/
theorem outcome_catalogue_new :
    (catalogue.run Supply.new).outcome = .ok standardCatalogue := rfl

end PolyLambda
