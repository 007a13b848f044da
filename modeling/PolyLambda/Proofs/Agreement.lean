import PolyLambda.Proofs.Comparison
import PolyLambda.Proofs.Freshness
import PolyLambda.Proofs.NamelessTyping

/-! # Agreement with the declarative rules

Checking a term with fresh binders finds exactly the types that the declarative
rules give its nameless form.  An environment is read as a nameless context once
its type variables and bindings are laid out innermost first (`Aligned`).  Under
`FreshIn` every substitution of the checker is then an instantiation, and every
comparison an equality, of nameless types; both directions are simulations rule
by rule. -/

set_option autoImplicit false

namespace PolyLambda

structure Aligned (env : Env) (types : List TyVar) (terms : List (String × Ty)) : Prop where
  mem_types : ∀ v, v ∈ env.types ↔ v ∈ types
  lookup : ∀ (name : String) (ty : Ty), env.lookup name = .ok ty ↔
    ∃ index, Ref.resolve (terms.map Prod.fst) name = .bound index ∧
      (terms.map Prod.snd)[index]? = some ty
  inScope : ∀ binding ∈ terms, ∀ v ∈ binding.2.freeVars, v ∈ types

def contextOf (types : List TyVar) (terms : List (String × Ty)) : List NamelessTy :=
  (terms.map Prod.snd).map (Ty.nameless types)

namespace Aligned

variable {env : Env} {types : List TyVar} {terms : List (String × Ty)}

theorem empty : Aligned .empty [] [] where
  mem_types v := by simp [Env.empty]
  lookup name ty := by simp [Env.empty, Env.lookup]
  inScope binding member := absurd member List.not_mem_nil

theorem insertType (aligned : Aligned env types terms) (v : TyVar) :
    Aligned (env.insertType v) (v :: types) terms where
  mem_types w := by
    rw [Env.mem_types_insertType, List.mem_cons, aligned.mem_types, eq_comm]
  lookup := aligned.lookup
  inScope binding member w free := List.mem_cons_of_mem v (aligned.inScope binding member w free)

theorem insertTerm (aligned : Aligned env types terms) {ty : Ty}
    (inScope : ∀ v ∈ ty.freeVars, v ∈ env.types) (name : String) :
    Aligned (env.insertTerm name ty) types ((name, ty) :: terms) where
  mem_types := aligned.mem_types
  lookup other ty' := by
    rw [Env.lookup_insertTerm, List.map_cons, List.map_cons]
    by_cases same : name = other
    · subst same
      rw [if_pos rfl, Ref.resolve_cons_self]
      constructor
      · intro found
        obtain rfl : ty = ty' := Except.ok.inj found
        exact ⟨0, rfl, rfl⟩
      · rintro ⟨index, refers, entry⟩
        obtain rfl : 0 = index := Ref.bound.inj refers
        exact congrArg Except.ok (Option.some.inj entry)
    · rw [if_neg same, Ref.resolve_cons_of_ne _ same, aligned.lookup]
      constructor
      · rintro ⟨index, refers, entry⟩
        exact ⟨index + 1, by rw [refers, Ref.liftFrom_zero_bound], entry⟩
      · rintro ⟨index, refers, entry⟩
        rcases Ref.resolve_eq_bound_or_free (terms.map Prod.fst) other with
          ⟨inner, -, inside, -⟩ | ⟨outside, -⟩
        · rw [inside, Ref.liftFrom_zero_bound] at refers
          obtain rfl : inner + 1 = index := Ref.bound.inj refers
          exact ⟨inner, inside, entry⟩
        · rw [outside] at refers
          cases (refers : Ref.free other = .bound index)
  inScope binding member v free := by
    rcases List.mem_cons.mp member with same | member
    · subst same
      exact (aligned.mem_types v).mp (inScope v free)
    · exact aligned.inScope binding member v free

theorem contextOf_insertType (aligned : Aligned env types terms) {v : TyVar}
    (new : v ∉ env.types) : contextOf (v :: types) terms = (contextOf types terms).map .lift := by
  rw [contextOf, contextOf, List.map_map, List.map_map, List.map_map]
  refine List.map_congr_left fun binding member => ?_
  have unmentioned : v ∉ binding.2.freeVars := by
    intro free
    exact new ((aligned.mem_types v).mpr (aligned.inScope binding member v free))
  exact Ty.nameless_cons_of_not_mem types unmentioned

theorem opened (aligned : Aligned env types terms) {bound : TyVar} {body : Ty}
    (packedInScope : ∀ w ∈ (Ty.ex bound body).freeVars, w ∈ env.types) (v : TyVar)
    (name : String) :
    Aligned ((env.insertType v).insertTerm name (body.subst bound (.var v))) (v :: types)
      ((name, body.subst bound (.var v)) :: terms) := by
  have openedInScope := (Env.wellFormed_eq_ok_iff _ _).mp (opened_wellFormed packedInScope v)
  exact (aligned.insertType v).insertTerm openedInScope name

theorem closed_iff (aligned : Aligned env types terms) (ty : Ty) :
    (ty.nameless types).Closed types.length ↔ env.wellFormed ty = .ok () := by
  rw [Ty.closed_nameless_iff, Env.wellFormed_eq_ok_iff]
  simp only [aligned.mem_types]

end Aligned

/-! ## What the rules do to nameless types -/

section Steps

variable {env : Env} (types : List TyVar)

theorem own_comparison_iff {expr : Expr} {left right : Ty} (fresh : FreshIn env expr)
    (call : OwnCall env expr (.alphaEq left right)) :
    left.alphaEq right = true ↔ left.nameless types = right.nameless types := by
  obtain ⟨unshadowed, uncaptured⟩ := call.uncaptured fresh
  exact ⟨Ty.nameless_eq_of_alphaEq_of_unshadowed types unshadowed uncaptured,
    Ty.alphaEq_of_nameless_eq⟩

theorem nameless_own_substitution {expr : Expr} {v : TyVar} {replacement ty : Ty}
    (fresh : FreshIn env expr) (call : OwnCall env expr (.subst v replacement ty)) :
    (ty.subst v replacement).nameless types =
      (ty.nameless (v :: types)).inst (replacement.nameless types) :=
  Ty.nameless_subst [] types (call.uncaptured fresh) List.not_mem_nil

theorem nameless_opened {v bound : TyVar} {name : String} {packed cont : Expr} {body : Ty}
    (fresh : FreshIn env (.unpack v name packed cont))
    (inferred : Infers env packed (.ex bound body)) :
    (body.subst bound (.var v)).nameless (v :: types) = body.nameless (bound :: types) := by
  have tidy := inferred.tidy fresh.packed
  have inScope := inferred.mem_types fresh.regular
  have captureFree : body.CaptureFree bound (.var v) :=
    (OwnCall.openPacked inferred : OwnCall env (.unpack v name packed cont) _).uncaptured fresh
  refine Ty.nameless_subst_var types captureFree fun free => ?_
  have other : bound ≠ v := by
    intro same
    exact fresh.opener_not_mem_binders tidy (same ▸ List.mem_cons_self)
  have known : v ∈ env.types := inScope v (Ty.mem_freeVars_quant.mpr ⟨other, free⟩)
  exact fresh.notInScope v List.mem_cons_self known

theorem contextOf_opened {terms : List (String × Ty)} {v bound : TyVar} {name : String}
    {packed cont : Expr} {body : Ty} (aligned : Aligned env types terms)
    (fresh : FreshIn env (.unpack v name packed cont))
    (inferred : Infers env packed (.ex bound body)) :
    contextOf (v :: types) ((name, body.subst bound (.var v)) :: terms) =
      body.nameless (bound :: types) :: (contextOf types terms).map .lift := by
  rw [← nameless_opened types fresh inferred,
    ← aligned.contextOf_insertType (fresh.notInScope v List.mem_cons_self)]
  rfl

end Steps

/-! ## From the checker to the rules -/

theorem Infers.hasType {env : Env} {expr : Expr} {ty : Ty} {types : List TyVar}
    {terms : List (String × Ty)} (inferred : Infers env expr ty) (fresh : FreshIn env expr)
    (aligned : Aligned env types terms) :
    HasType types.length (contextOf types terms) (expr.nameless types (terms.map Prod.fst))
      (ty.nameless types) := by
  induction inferred generalizing types terms with
  | lit => exact .lit
  | @var env name ty found =>
      obtain ⟨index, refers, entry⟩ := (aligned.lookup name ty).mp found
      rw [Expr.nameless, refers]
      exact .var (by rw [contextOf, List.getElem?_map, entry]; rfl)
  | @abs env param paramTy bodyTy body inScope _ bodyInduction =>
      have closed := (aligned.closed_iff paramTy).mpr inScope
      have known := (Env.wellFormed_eq_ok_iff env paramTy).mp inScope
      exact .abs closed (bodyInduction (fresh.body inScope) (aligned.insertTerm known param))
  | app inferredFunc inferredArg accepted funcInduction argInduction =>
      have same := (own_comparison_iff types fresh (.compareArg inferredFunc inferredArg)).mp
        accepted
      have typedArg := argInduction fresh.arg aligned
      rw [← same] at typedArg
      exact .app (funcInduction fresh.func aligned) typedArg
  | @tabs env v body bodyTy _ bodyInduction =>
      have typed := bodyInduction fresh.abstracted (aligned.insertType v)
      rw [aligned.contextOf_insertType (fresh.notInScope v List.mem_cons_self)] at typed
      exact .tabs typed
  | tapp inferred inScope funcInduction =>
      have typed := funcInduction fresh.instantiated aligned
      rw [nameless_own_substitution types fresh (.instantiate inferred inScope)]
      exact .tapp typed ((aligned.closed_iff _).mpr inScope)
  | @pack env witness bodyTy actual body v witnessInScope inScope inferred accepted bodyInduction =>
      have typed := bodyInduction fresh.sealed aligned
      have same := (own_comparison_iff types fresh
        (.comparePacked witnessInScope inScope inferred)).mp accepted
      have expected := nameless_own_substitution types fresh
        (.expect witnessInScope inScope inferred)
      rw [← same, expected] at typed
      have closed := (aligned.closed_iff (.ex v bodyTy)).mpr
        ((Env.wellFormed_eq_ok_iff _ _).mpr (mem_types_of_packed inScope))
      exact .pack ((aligned.closed_iff witness).mpr witnessInScope) closed typed
  | @unpack env v bound name packed cont body ty inferredPacked _ stays packedInduction
      contInduction =>
      have packedInScope := inferredPacked.mem_types fresh.regular
      have typedPacked := packedInduction fresh.packed aligned
      have typedCont := contInduction (fresh.opened inferredPacked)
        (aligned.opened packedInScope v name)
      have unmentioned : v ∉ ty.freeVars := (Ty.notEscape_iff_not_mem_freeVars v ty).mp stays
      rw [contextOf_opened types aligned fresh inferredPacked,
        Ty.nameless_cons_of_not_mem types unmentioned] at typedCont
      exact .unpack typedPacked typedCont

/-! ## From the rules to the checker -/

theorem Aligned.exists_infers {env : Env} {expr : Expr} {target : NamelessTy}
    {types : List TyVar} {terms : List (String × Ty)} (aligned : Aligned env types terms)
    (fresh : FreshIn env expr)
    (typed : HasType types.length (contextOf types terms)
      (expr.nameless types (terms.map Prod.fst)) target) :
    ∃ ty, Infers env expr ty ∧ ty.nameless types = target := by
  induction expr generalizing env target types terms with
  | lit value =>
      cases typed
      exact ⟨.int, .lit, rfl⟩
  | var name =>
      rcases Ref.resolve_eq_bound_or_free (terms.map Prod.fst) name with
        ⟨index, -, refers, -⟩ | ⟨refers, -⟩
      · rw [Expr.nameless, refers] at typed
        cases typed with
        | var entry =>
            rw [contextOf, List.getElem?_map, Option.map_eq_some_iff] at entry
            obtain ⟨ty, entry, same⟩ := entry
            exact ⟨ty, .var ((aligned.lookup name ty).mpr ⟨index, refers, entry⟩), same⟩
      · rw [Expr.nameless, refers] at typed
        cases typed
  | abs param paramTy body bodyInduction =>
      cases typed with
      | abs closed typed =>
          have inScope := (aligned.closed_iff paramTy).mp closed
          have known := (Env.wellFormed_eq_ok_iff env paramTy).mp inScope
          obtain ⟨bodyTy, inferred, same⟩ :=
            bodyInduction (aligned.insertTerm known param) (fresh.body inScope) typed
          exact ⟨.arrow paramTy bodyTy, .abs inScope inferred, by rw [Ty.nameless, same]⟩
  | app func arg funcInduction argInduction =>
      cases typed with
      | app typedFunc typedArg =>
          obtain ⟨funcTy, inferredFunc, funcSame⟩ := funcInduction aligned fresh.func typedFunc
          obtain ⟨domain, codomain, rfl, domainSame, codomainSame⟩ := Ty.nameless_eq_arrow funcSame
          obtain ⟨argTy, inferredArg, argSame⟩ := argInduction aligned fresh.arg typedArg
          have accepted := (own_comparison_iff types fresh
            (.compareArg inferredFunc inferredArg)).mpr (domainSame.trans argSame.symm)
          exact ⟨codomain, .app inferredFunc inferredArg accepted, codomainSame⟩
  | tabs v body bodyInduction =>
      cases typed with
      | tabs typed =>
          rw [← aligned.contextOf_insertType (fresh.notInScope v List.mem_cons_self)] at typed
          obtain ⟨bodyTy, inferred, same⟩ :=
            bodyInduction (aligned.insertType v) fresh.abstracted typed
          exact ⟨.all v bodyTy, .tabs inferred, by rw [Ty.nameless, same]⟩
  | tapp func arg funcInduction =>
      cases typed with
      | tapp typed closed =>
          obtain ⟨funcTy, inferred, funcSame⟩ := funcInduction aligned fresh.instantiated typed
          obtain ⟨v, body, rfl, bodySame⟩ := Ty.nameless_eq_quant funcSame
          have inScope := (aligned.closed_iff arg).mp closed
          refine ⟨body.subst v arg, .tapp inferred inScope, ?_⟩
          rw [nameless_own_substitution types fresh (.instantiate inferred inScope), bodySame]
  | pack witness body v bodyTy bodyInduction =>
      cases typed with
      | pack closedWitness closed typed =>
          have witnessInScope := (aligned.closed_iff witness).mp closedWitness
          have packedInScope : (env.insertType v).wellFormed (.ex v bodyTy) = .ok () := by
            have known := (Env.wellFormed_eq_ok_iff env (.ex v bodyTy)).mp
              ((aligned.closed_iff (.ex v bodyTy)).mp closed)
            rw [Env.wellFormed_eq_ok_iff]
            intro w free
            exact Env.mem_types_insertType.mpr (.inr (known w free))
          obtain ⟨actual, inferred, actualSame⟩ := bodyInduction aligned fresh.sealed typed
          have expected := nameless_own_substitution types fresh
            (.expect witnessInScope packedInScope inferred)
          have accepted := (own_comparison_iff types fresh
            (.comparePacked witnessInScope packedInScope inferred)).mpr
              (expected.trans actualSame.symm)
          exact ⟨.ex v bodyTy, .pack witnessInScope packedInScope inferred accepted, rfl⟩
  | unpack v name packed cont packedInduction contInduction =>
      cases typed with
      | unpack typedPacked typedCont =>
          obtain ⟨packedTy, inferredPacked, packedSame⟩ :=
            packedInduction aligned fresh.packed typedPacked
          obtain ⟨bound, body, rfl, bodySame⟩ := Ty.nameless_eq_quant packedSame
          have packedInScope := inferredPacked.mem_types fresh.regular
          rw [← bodySame, ← contextOf_opened types aligned fresh inferredPacked] at typedCont
          obtain ⟨ty, inferredCont, contSame⟩ := contInduction
            (aligned.opened packedInScope v name) (fresh.opened inferredPacked) typedCont
          -- A type that leaves room for the variable does not let it escape.
          have unmentioned : v ∉ ty.freeVars :=
            Ty.not_mem_freeVars_of_nameless_eq_liftFrom contSame List.not_mem_nil
          have stays := (Ty.notEscape_iff_not_mem_freeVars v ty).mpr unmentioned
          have lifted := Ty.nameless_cons_of_not_mem types unmentioned
          exact ⟨ty, .unpack inferredPacked inferredCont stays,
            NamelessTy.liftFrom_injective (lifted.symm.trans contSame)⟩

/-- On terms whose binders are pairwise distinct, checking and the declarative rules
agree: a type is found exactly when the nameless term has its nameless form as a type,
and neither side accepts a term with a free variable.  Nothing else is asked of the
identities, not even that the free ones differ from the bound ones. -/
theorem typeOf_agrees_with_hasType (expr : Expr) (distinct : expr.binders.Nodup) :
    (∀ ty, typeOf expr = .ok ty → HasType 0 [] (expr.nameless [] []) (ty.nameless [])) ∧
    (∀ target, HasType 0 [] (expr.nameless [] []) target →
      ∃ ty, typeOf expr = .ok ty ∧ ty.nameless [] = target) ∧
    ((∃ v, expr.occursFreeType v = true) ∨ (∃ name, expr.occursFreeName name = true) →
      (∀ ty, typeOf expr ≠ .ok ty) ∧ ∀ target, ¬ HasType 0 [] (expr.nameless [] []) target) := by
  have fresh : FreshIn .empty expr := FreshIn.empty distinct
  have sound : ∀ ty, typeOf expr = .ok ty →
      HasType 0 [] (expr.nameless [] []) (ty.nameless []) := by
    intro ty found
    exact (typeOfIn_eq_ok_iff.mp found).hasType fresh Aligned.empty
  have rejected : (∃ v, expr.occursFreeType v = true) ∨
      (∃ name, expr.occursFreeName name = true) →
        ∀ target, ¬ HasType 0 [] (expr.nameless [] []) target := by
    rintro (⟨v, free⟩ | ⟨name, free⟩) target typed
    · have bound : v ∈ [] := HasType.mem_of_occursFreeType typed free
      exact List.not_mem_nil bound
    · have bound : name ∈ [] := HasType.mem_of_occursFreeName typed free
      exact List.not_mem_nil bound
  refine ⟨sound, ?_, ?_⟩
  · intro target typed
    obtain ⟨ty, inferred, same⟩ := Aligned.empty.exists_infers fresh typed
    exact ⟨ty, typeOfIn_eq_ok_iff.mpr inferred, same⟩
  · intro free
    exact ⟨fun ty found => rejected free _ (sound ty found), rejected free⟩

/-- The polymorphic identity at the type of the polymorphic identity, applied to it:
`(Λt0. λx: t0. x) [∀t1. t1 -> t1] (Λt2. λy: t2. y)`. -/
def identityAtItself : Expr :=
  .app
    (.tapp (.tabs ⟨0⟩ (.abs "x" (.var ⟨0⟩) (.var "x")))
      (.all ⟨1⟩ (.arrow (.var ⟨1⟩) (.var ⟨1⟩))))
    (.tabs ⟨2⟩ (.abs "y" (.var ⟨2⟩) (.var "y")))

theorem identityAtItself_hasType :
    identityAtItself.binders.Nodup ∧
      HasType 0 [] (identityAtItself.nameless [] [])
        (.all (.arrow (.var (.bound 0)) (.var (.bound 0)))) := by
  have distinct : identityAtItself.binders.Nodup := by decide
  have found : typeOf identityAtItself = .ok (.all ⟨1⟩ (.arrow (.var ⟨1⟩) (.var ⟨1⟩))) := rfl
  exact ⟨distinct, (typeOf_agrees_with_hasType identityAtItself distinct).1 _ found⟩

end PolyLambda
