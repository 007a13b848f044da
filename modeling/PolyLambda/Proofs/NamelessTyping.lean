import PolyLambda.Expr.Basic
import PolyLambda.Proofs.Nameless

/-! # Nameless terms and their typing rules

The declarative typing rules of the polymorphic lambda calculus with existential
packages, on nameless terms.  A context lists the types of the term variables,
innermost first, under a number of type variables; entering a type binder lifts
it.  Types convert only to themselves, and the type of an opened package has room
for the abstract variable, so it cannot mention it. -/

set_option autoImplicit false

namespace PolyLambda

inductive NamelessExpr where
  | lit (value : Int64)
  | var (ref : Ref String)
  | abs (paramTy : NamelessTy) (body : NamelessExpr)
  | app (func arg : NamelessExpr)
  | tabs (body : NamelessExpr)
  | tapp (func : NamelessExpr) (arg : NamelessTy)
  | pack (witness : NamelessTy) (body : NamelessExpr) (bodyTy : NamelessTy)
  | unpack (packed cont : NamelessExpr)
deriving DecidableEq, Repr

def Expr.nameless (types : List TyVar) (names : List String) : Expr → NamelessExpr
  | .lit value => .lit value
  | .var name => .var (.resolve names name)
  | .abs param paramTy body => .abs (paramTy.nameless types) (body.nameless types (param :: names))
  | .app func arg => .app (func.nameless types names) (arg.nameless types names)
  | .tabs v body => .tabs (body.nameless (v :: types) names)
  | .tapp func arg => .tapp (func.nameless types names) (arg.nameless types)
  | .pack witness body v bodyTy =>
      .pack (witness.nameless types) (body.nameless types names) (bodyTy.nameless (v :: types))
  | .unpack v name packed cont =>
      .unpack (packed.nameless types names) (cont.nameless (v :: types) (name :: names))

inductive HasType : Nat → List NamelessTy → NamelessExpr → NamelessTy → Prop where
  | lit {depth : Nat} {context : List NamelessTy} {value : Int64} :
      HasType depth context (.lit value) .int
  | var {depth : Nat} {context : List NamelessTy} {index : Nat} {ty : NamelessTy}
      (entry : context[index]? = some ty) : HasType depth context (.var (.bound index)) ty
  | abs {depth : Nat} {context : List NamelessTy} {paramTy bodyTy : NamelessTy}
      {body : NamelessExpr} (closed : paramTy.Closed depth)
      (typed : HasType depth (paramTy :: context) body bodyTy) :
      HasType depth context (.abs paramTy body) (.arrow paramTy bodyTy)
  | app {depth : Nat} {context : List NamelessTy} {func arg : NamelessExpr}
      {domain codomain : NamelessTy} (typedFunc : HasType depth context func (.arrow domain codomain))
      (typedArg : HasType depth context arg domain) :
      HasType depth context (.app func arg) codomain
  | tabs {depth : Nat} {context : List NamelessTy} {body : NamelessExpr} {bodyTy : NamelessTy}
      (typed : HasType (depth + 1) (context.map .lift) body bodyTy) :
      HasType depth context (.tabs body) (.all bodyTy)
  | tapp {depth : Nat} {context : List NamelessTy} {func : NamelessExpr} {arg bodyTy : NamelessTy}
      (typed : HasType depth context func (.all bodyTy)) (closed : arg.Closed depth) :
      HasType depth context (.tapp func arg) (bodyTy.inst arg)
  | pack {depth : Nat} {context : List NamelessTy} {witness bodyTy : NamelessTy}
      {body : NamelessExpr} (closedWitness : witness.Closed depth)
      (closed : (NamelessTy.ex bodyTy).Closed depth)
      (typed : HasType depth context body (bodyTy.inst witness)) :
      HasType depth context (.pack witness body bodyTy) (.ex bodyTy)
  | unpack {depth : Nat} {context : List NamelessTy} {packed cont : NamelessExpr}
      {bodyTy ty : NamelessTy} (typedPacked : HasType depth context packed (.ex bodyTy))
      (typedCont : HasType (depth + 1) (bodyTy :: context.map .lift) cont ty.lift) :
      HasType depth context (.unpack packed cont) ty

theorem Ty.mem_of_closed_of_occursFree {types : List TyVar} {ty : Ty} {v : TyVar}
    (closed : (ty.nameless types).Closed types.length) (free : ty.occursFree v = true) :
    v ∈ types :=
  (closed_nameless_iff types ty).mp closed v ((occursFree_iff_mem_freeVars v ty).mp free)

theorem HasType.mem_of_occursFreeType {types : List TyVar} {names : List String}
    {context : List NamelessTy} {expr : Expr} {ty : NamelessTy} {v : TyVar}
    (typed : HasType types.length context (expr.nameless types names) ty)
    (free : expr.occursFreeType v = true) : v ∈ types := by
  induction expr generalizing types names context ty with
  | lit value => exact Bool.noConfusion free
  | var name => exact Bool.noConfusion free
  | abs param paramTy body bodyInduction =>
      cases typed with
      | abs closed typed =>
          rcases Bool.or_eq_true_iff.mp free with free | free
          · exact Ty.mem_of_closed_of_occursFree closed free
          · exact bodyInduction typed free
  | app func arg funcInduction argInduction =>
      cases typed with
      | app typedFunc typedArg =>
          rcases Bool.or_eq_true_iff.mp free with free | free
          · exact funcInduction typedFunc free
          · exact argInduction typedArg free
  | tabs w body bodyInduction =>
      cases typed with
      | tabs typed =>
          obtain ⟨other, free⟩ := Bool.and_eq_true_iff.mp free
          have inside : v ∈ w :: types := bodyInduction typed free
          exact List.mem_of_ne_of_mem (Ne.symm (bne_iff_ne.mp other)) inside
  | tapp func arg funcInduction =>
      cases typed with
      | tapp typed closed =>
          rcases Bool.or_eq_true_iff.mp free with free | free
          · exact funcInduction typed free
          · exact Ty.mem_of_closed_of_occursFree closed free
  | pack witness body w bodyTy bodyInduction =>
      cases typed with
      | pack closedWitness closed typed =>
          rcases Bool.or_eq_true_iff.mp free with free | free
          · rcases Bool.or_eq_true_iff.mp free with free | free
            · exact Ty.mem_of_closed_of_occursFree closedWitness free
            · exact bodyInduction typed free
          · obtain ⟨other, free⟩ := Bool.and_eq_true_iff.mp free
            have inside : v ∈ w :: types := Ty.mem_of_closed_of_occursFree closed free
            exact List.mem_of_ne_of_mem (Ne.symm (bne_iff_ne.mp other)) inside
  | unpack w name packed cont packedInduction contInduction =>
      cases typed with
      | unpack typedPacked typedCont =>
          rcases Bool.or_eq_true_iff.mp free with free | free
          · exact packedInduction typedPacked free
          · obtain ⟨other, free⟩ := Bool.and_eq_true_iff.mp free
            have inside : v ∈ w :: types := contInduction typedCont free
            exact List.mem_of_ne_of_mem (Ne.symm (bne_iff_ne.mp other)) inside

theorem HasType.mem_of_occursFreeName {types : List TyVar} {names : List String} {depth : Nat}
    {context : List NamelessTy} {expr : Expr} {ty : NamelessTy} {name : String}
    (typed : HasType depth context (expr.nameless types names) ty)
    (free : expr.occursFreeName name = true) : name ∈ names := by
  induction expr generalizing types names depth context ty with
  | lit value => exact Bool.noConfusion free
  | var other =>
      obtain rfl : other = name := beq_iff_eq.mp free
      rcases Ref.resolve_eq_bound_or_free names other with ⟨index, -, -, member⟩ | ⟨refers, -⟩
      · exact member
      · rw [Expr.nameless, refers] at typed
        cases typed
  | abs param paramTy body bodyInduction =>
      cases typed with
      | abs _ typed =>
          obtain ⟨other, free⟩ := Bool.and_eq_true_iff.mp free
          have inside : name ∈ param :: names := bodyInduction typed free
          exact List.mem_of_ne_of_mem (Ne.symm (bne_iff_ne.mp other)) inside
  | app func arg funcInduction argInduction =>
      cases typed with
      | app typedFunc typedArg =>
          rcases Bool.or_eq_true_iff.mp free with free | free
          · exact funcInduction typedFunc free
          · exact argInduction typedArg free
  | tabs w body bodyInduction =>
      cases typed with
      | tabs typed => exact bodyInduction typed free
  | tapp func arg funcInduction =>
      cases typed with
      | tapp typed _ => exact funcInduction typed free
  | pack witness body w bodyTy bodyInduction =>
      cases typed with
      | pack _ _ typed => exact bodyInduction typed free
  | unpack w other packed cont packedInduction contInduction =>
      cases typed with
      | unpack typedPacked typedCont =>
          rcases Bool.or_eq_true_iff.mp free with free | free
          · exact packedInduction typedPacked free
          · obtain ⟨different, free⟩ := Bool.and_eq_true_iff.mp free
            have inside : name ∈ other :: names := contInduction typedCont free
            exact List.mem_of_ne_of_mem (Ne.symm (bne_iff_ne.mp different)) inside

end PolyLambda
