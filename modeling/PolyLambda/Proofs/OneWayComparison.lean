import PolyLambda.Proofs.Comparison
import PolyLambda.Proofs.Inference
import PolyLambda.Sample.Basic

/-! # Comparison from the left alone

One comparison is weaker than equality up to bound names: it passes right-hand sides
that bind an identity again or capture a variable that is free on the left.  What it
keeps even then is stated here.

It reads the left side through its nameless form only.  A leaf on the left stands for
the right-hand binder that faces its own, or for itself (`Ref.partner?`), and neither
depends on the names of the left-hand binders (`Matched.of_nameless_eq`).  So the
rules that compare a type with an expected one give one verdict for all names of the
binders in the expected type.

It lets no variable be free on the right that is not free on the left. -/

set_option autoImplicit false

namespace PolyLambda

namespace Ref

/-- What a leaf of the left side stands for on the right, where the binders entered there
are `rights`, innermost first. -/
def partner? (ρ : Renaming) (rights : List TyVar) : Ref TyVar → Option TyVar
  | .bound index => rights[index]?
  | .free v => some (ρ.apply v)

theorem partner?_liftFrom_zero (ρ : Renaming) (w : TyVar) (rights : List TyVar) (r : Ref TyVar) :
    (r.liftFrom 0).partner? ρ (w :: rights) = r.partner? ρ rights := by
  cases r with
  | bound index =>
      rw [liftFrom_zero_bound]
      exact List.getElem?_cons_succ
  | free v => rfl

theorem partner?_resolve (ρ : Renaming) (pairs : List (TyVar × TyVar)) (v : TyVar) :
    (resolve (pairs.map Prod.fst) v).partner? ρ (pairs.map Prod.snd) =
      some ((ρ.enter pairs).apply v) := by
  induction pairs with
  | nil => rfl
  | cons pair pairs pairsInduction =>
      simp only [List.map_cons, Renaming.enter]
      by_cases here : pair.1 = v
      · rw [← here, resolve_cons_self, Renaming.apply_insert_self]
        rfl
      · rw [resolve_cons_of_ne _ here, partner?_liftFrom_zero, pairsInduction,
          Renaming.apply_insert_of_ne _ _ here]

end Ref

namespace Ty

/-! ## Names on the left -/

theorem Matched.of_nameless_eq {ρ : Renaming} {pairs pairs' : List (TyVar × TyVar)}
    {left left' right : Ty} (matched : Matched ρ pairs left right)
    (rights : pairs'.map Prod.snd = pairs.map Prod.snd)
    (same : left'.nameless (pairs'.map Prod.fst) = left.nameless (pairs.map Prod.fst)) :
    Matched ρ pairs' left' right := by
  -- The two left sides may have entered different binders, but each of them faces the same one.
  induction matched generalizing pairs' left' with
  | int =>
      cases left' with
      | int => exact .int
      | _ => simp [nameless] at same
  | @var pairs v w partner =>
      cases left' with
      | var v' =>
          have refers := NamelessTy.var.inj same
          have stands := Ref.partner?_resolve ρ pairs' v'
          rw [refers, rights, Ref.partner?_resolve, partner] at stands
          exact .var (Option.some.inj stands).symm
      | _ => simp [nameless] at same
  | arrow _ _ domainInduction codomainInduction =>
      obtain ⟨domain, codomain, rfl, domains, codomains⟩ := nameless_eq_arrow same
      exact .arrow (domainInduction rights domains) (codomainInduction rights codomains)
  | @quant _ _ _ w _ _ _ bodyInduction =>
      obtain ⟨v', body, rfl, bodies⟩ := nameless_eq_quant same
      exact .quant (bodyInduction (congrArg (List.cons w) rights) bodies)

theorem alphaEq_congr_left {left left' : Ty} (same : left.nameless [] = left'.nameless [])
    (right : Ty) : left.alphaEq right = left'.alphaEq right := by
  rw [Bool.eq_iff_iff, alphaEq_iff_matched, alphaEq_iff_matched]
  constructor
  · intro matched
    exact matched.of_nameless_eq rfl same.symm
  · intro matched
    exact matched.of_nameless_eq rfl same

end Ty

/-! ## Rules that compare with an expected type -/

def Ty.require (expected ty actual : Ty) : Except TypeError Ty :=
  if expected.alphaEq actual then .ok ty else .error (.typeMismatch expected actual)

theorem outcome_comparison (expected actual ty : Ty) (accepted refused : Event) :
    Run.outcome (do
      if ← expected.alphaEqRun actual then
        Run.emit accepted
        return ty
      else
        Run.emit refused
        Run.fail (.typeMismatch expected actual)) = expected.require ty actual := by
  rw [Run.outcome_bind, Ty.require]
  show Run.outcome (ite _ _ _) = _
  split <;> rfl

section Rules

variable {env : Env}

theorem typeOfIn_app {func : Expr} {domain codomain : Ty} (arg : Expr)
    (found : typeOfIn env func = .ok (.arrow domain codomain)) :
    typeOfIn env (.app func arg) = typeOfIn env arg >>= domain.require codomain := by
  have premise : (inferWith .bare env func).outcome = .ok (.arrow domain codomain) := found
  show (inferWith .bare env (.app func arg)).outcome = _
  rw [inferWith_app, Run.outcome_bind, premise]
  show Run.outcome (inferWith .bare env arg >>= _) = _
  rw [Run.outcome_bind]
  exact bind_congr fun argTy => outcome_comparison domain argTy codomain _ _

theorem typeOfIn_pack (witness : Ty) (body : Expr) (v : TyVar) (bodyTy : Ty) :
    typeOfIn env (.pack witness body v bodyTy) = (do
      env.wellFormed witness
      (env.insertType v).wellFormed (.ex v bodyTy)
      let actual ← typeOfIn env body
      (bodyTy.subst v witness).require (.ex v bodyTy) actual) := by
  show (inferWith .bare env (.pack witness body v bodyTy)).outcome = _
  rw [inferWith_pack, Run.outcome_bind]
  refine bind_congr fun _ => ?_
  rw [Run.outcome_bind]
  refine bind_congr fun _ => ?_
  rw [Run.outcome_bind]
  exact bind_congr fun actual => outcome_comparison (bodyTy.subst v witness) actual _ _ _

end Rules

def verdict (outcome : Except TypeError Ty) : Except ErrorKind Unit :=
  (outcome.map fun _ => ()).mapError TypeError.kind

theorem verdict_require {expected expected' : Ty}
    (same : ∀ actual, expected.alphaEq actual = expected'.alphaEq actual) (ty ty' : Ty)
    (found : Except TypeError Ty) :
    verdict (found >>= expected.require ty) = verdict (found >>= expected'.require ty') := by
  cases found with
  | error cause => rfl
  | ok actual =>
      show verdict (expected.require ty actual) = verdict (expected'.require ty' actual)
      rw [Ty.require, Ty.require, same actual]
      cases expected'.alphaEq actual <;> rfl

/-- A comparison cannot tell apart two left-hand sides that are equal up to bound names,
whatever stands on the right.  So a sample agrees with the same outcomes under both, an
argument is judged alike against both, and so is the body of a package: in each case the
verdict does not depend on the names of the binders in the expected type. -/
theorem comparison_ignores_names_on_the_left (left left' : Ty)
    (forth : left.alphaEq left' = true) (back : left'.alphaEq left = true) :
    (∀ right, left.alphaEq right = left'.alphaEq right) ∧
    (∀ (sample : Sample) (outcome : Except TypeError Ty),
      Sample.agrees { sample with expected := .type left } outcome =
        Sample.agrees { sample with expected := .type left' } outcome) ∧
    (∀ (env : Env) (func func' arg : Expr) (codomain codomain' : Ty),
      typeOfIn env func = .ok (.arrow left codomain) →
      typeOfIn env func' = .ok (.arrow left' codomain') →
        verdict (typeOfIn env (.app func arg)) = verdict (typeOfIn env (.app func' arg))) ∧
    ∀ (env : Env) (body : Expr) (witness witness' bodyTy bodyTy' : Ty) (v v' : TyVar),
      bodyTy.subst v witness = left → bodyTy'.subst v' witness' = left' →
      env.wellFormed witness = env.wellFormed witness' →
      (env.insertType v).wellFormed (.ex v bodyTy) =
        (env.insertType v').wellFormed (.ex v' bodyTy') →
        verdict (typeOfIn env (.pack witness body v bodyTy)) =
          verdict (typeOfIn env (.pack witness' body v' bodyTy')) := by
  have blind : ∀ right, left.alphaEq right = left'.alphaEq right :=
    Ty.alphaEq_congr_left (Ty.nameless_eq_of_alphaEqIn_both [] [] forth back)
  refine ⟨blind, ?_, ?_, ?_⟩
  · intro sample outcome
    cases outcome with
    | ok actual => exact blind actual
    | error cause => rfl
  · intro env func func' arg codomain codomain' found found'
    rw [typeOfIn_app arg found, typeOfIn_app arg found']
    exact verdict_require blind codomain codomain' (typeOfIn env arg)
  · intro env body witness witness' bodyTy bodyTy' v v' expected expected' witnesses packages
    rw [typeOfIn_pack, typeOfIn_pack, expected, expected', witnesses, packages]
    -- The scope checks come first; once they pass, the comparison decides.
    cases env.wellFormed witness' with
    | error cause => rfl
    | ok _ =>
        cases (env.insertType v').wellFormed (.ex v' bodyTy') with
        | error cause => rfl
        | ok _ => exact verdict_require blind _ _ (typeOfIn env body)

/-- Functions on `shadowedChoice` and on `unshadowedChoice`, and a value `x` of the type
`∀t4. ∀t3. t3 -> t3`, which both of them take although it binds the free `t3`. -/
def choiceEnv : Env :=
  (((Env.empty.insertType ⟨3⟩).insertTerm "f" (.arrow Ty.shadowedChoice .int)).insertTerm "g"
    (.arrow Ty.unshadowedChoice (.var ⟨3⟩))).insertTerm "x"
      (.all ⟨4⟩ (.all ⟨3⟩ (.arrow (.var ⟨3⟩) (.var ⟨3⟩))))

/-- `∀t0. ∀t0. t0 -> t5` and `∀t1. ∀t2. t2 -> t5`, sealed at `t3`, expect the two types. -/
theorem choiceEnv_ignores_names :
    (Ty.shadowedChoice.alphaEq Ty.unshadowedChoice = true ∧
      Ty.unshadowedChoice.alphaEq Ty.shadowedChoice = true) ∧
    verdict (typeOfIn choiceEnv (.app (.var "f") (.var "x"))) = .ok () ∧
    verdict (typeOfIn choiceEnv (.app (.var "g") (.var "x"))) = .ok () ∧
    verdict (typeOfIn choiceEnv (.app (.var "g") (.lit 0))) = .error .typeMismatch ∧
    verdict (typeOfIn choiceEnv (.pack (.var ⟨3⟩) (.var "x") ⟨5⟩
      (.all ⟨1⟩ (.all ⟨2⟩ (.arrow (.var ⟨2⟩) (.var ⟨5⟩)))))) = .ok () := by
  have forth : Ty.shadowedChoice.alphaEq Ty.unshadowedChoice = true := by decide
  have back : Ty.unshadowedChoice.alphaEq Ty.shadowedChoice = true := by decide
  obtain ⟨-, -, applied, sealed⟩ :=
    comparison_ignores_names_on_the_left Ty.shadowedChoice Ty.unshadowedChoice forth back
  have accepted : verdict (typeOfIn choiceEnv (.app (.var "f") (.var "x"))) = .ok () := rfl
  have packages := sealed choiceEnv (.var "x") (.var ⟨3⟩) (.var ⟨3⟩)
    (.all ⟨0⟩ (.all ⟨0⟩ (.arrow (.var ⟨0⟩) (.var ⟨5⟩))))
    (.all ⟨1⟩ (.all ⟨2⟩ (.arrow (.var ⟨2⟩) (.var ⟨5⟩)))) ⟨5⟩ ⟨5⟩ rfl rfl rfl rfl
  refine ⟨⟨forth, back⟩, accepted, ?_, ?_, packages.symm.trans rfl⟩
  · exact (applied choiceEnv (.var "f") (.var "g") (.var "x") .int (.var ⟨3⟩) rfl rfl).symm.trans
      accepted
  · exact (applied choiceEnv (.var "f") (.var "g") (.lit 0) .int (.var ⟨3⟩) rfl rfl).symm.trans rfl

/-! ## Free variables of an accepted type -/

namespace Ty

variable {pairs : List (TyVar × TyVar)} {left right : Ty} {v : TyVar}

theorem Matched.mem_freeVars_left (matched : Matched ∅ pairs left right)
    (free : v ∈ right.freeVars) (outside : v ∉ pairs.map Prod.snd) :
    v ∈ left.freeVars ∧ v ∉ pairs.map Prod.fst := by
  induction matched with
  | int => exact absurd free not_mem_freeVars_int
  | @var pairs u w partner =>
      obtain rfl : w = v := mem_freeVars_var.mp free
      -- Under its own binder the left leaf would stand for a binder of the right side.
      by_cases entered : u ∈ pairs.map Prod.fst
      · have bound := Renaming.apply_enter_mem entered
        rw [partner] at bound
        exact absurd bound outside
      · rw [Renaming.apply_enter_of_not_mem entered] at partner
        subst partner
        exact ⟨mem_freeVars_var.mpr rfl, entered⟩
  | arrow _ _ domainInduction codomainInduction =>
      rcases mem_freeVars_arrow.mp free with free | free
      · obtain ⟨freeLeft, outsideLeft⟩ := domainInduction free outside
        exact ⟨mem_freeVars_arrow.mpr (.inl freeLeft), outsideLeft⟩
      · obtain ⟨freeLeft, outsideLeft⟩ := codomainInduction free outside
        exact ⟨mem_freeVars_arrow.mpr (.inr freeLeft), outsideLeft⟩
  | @quant pairs q u w _ _ _ bodyInduction =>
      obtain ⟨other, free⟩ := mem_freeVars_quant.mp free
      have outsideInside : v ∉ ((u, w) :: pairs).map Prod.snd := by
        rw [List.map_cons, List.mem_cons, not_or]
        exact ⟨Ne.symm other, outside⟩
      obtain ⟨freeLeft, outsideLeft⟩ := bodyInduction free outsideInside
      rw [List.map_cons, List.mem_cons, not_or] at outsideLeft
      exact ⟨mem_freeVars_quant.mpr ⟨Ne.symm outsideLeft.1, freeLeft⟩, outsideLeft.2⟩

theorem Matched.mem_freeVars_right (matched : Matched ∅ pairs left right)
    (free : v ∈ left.freeVars) (outside : v ∉ pairs.map Prod.fst) (unbound : v ∉ right.binders) :
    v ∈ right.freeVars := by
  induction matched with
  | int => exact absurd free not_mem_freeVars_int
  | @var pairs u w partner =>
      obtain rfl : u = v := mem_freeVars_var.mp free
      rw [Renaming.apply_enter_of_not_mem outside] at partner
      exact mem_freeVars_var.mpr partner.symm
  | arrow _ _ domainInduction codomainInduction =>
      rw [binders, List.mem_append, not_or] at unbound
      rcases mem_freeVars_arrow.mp free with free | free
      · exact mem_freeVars_arrow.mpr (.inl (domainInduction free outside unbound.1))
      · exact mem_freeVars_arrow.mpr (.inr (codomainInduction free outside unbound.2))
  | @quant pairs q u w _ _ _ bodyInduction =>
      obtain ⟨other, free⟩ := mem_freeVars_quant.mp free
      rw [binders, List.mem_cons, not_or] at unbound
      have outsideInside : v ∉ ((u, w) :: pairs).map Prod.fst := by
        rw [List.map_cons, List.mem_cons, not_or]
        exact ⟨Ne.symm other, outside⟩
      exact mem_freeVars_quant.mpr
        ⟨Ne.symm unbound.1, bodyInduction free outsideInside unbound.2⟩

/-- An accepted right-hand side has no free variable of its own, even where the comparison
passes types that are not equal up to bound names.  It has all those of the left unless it
binds one of them. -/
theorem freeVars_of_accepted (left right : Ty) (accepted : left.alphaEq right = true) :
    (∀ v ∈ right.freeVars, v ∈ left.freeVars) ∧
    ((∀ w ∈ right.binders, w ∉ left.freeVars) → right.freeVars = left.freeVars) := by
  have matched : Matched ∅ [] left right := alphaEq_iff_matched.mp accepted
  have included : ∀ v ∈ right.freeVars, v ∈ left.freeVars := by
    intro v free
    exact (matched.mem_freeVars_left free List.not_mem_nil).1
  refine ⟨included, ?_⟩
  intro unbound
  apply Std.ExtTreeSet.ext_mem
  intro v
  constructor
  · exact included v
  · intro free
    exact matched.mem_freeVars_right free List.not_mem_nil fun bound => unbound v bound free

/-- `∀t0. t1 -> t0 -> t2` -/
def openPair : Ty := .all ⟨0⟩ (.arrow (.var ⟨1⟩) (.arrow (.var ⟨0⟩) (.var ⟨2⟩)))

/-- `∀t1. t1 -> t1 -> t2`, which passes for `openPair` and captures its `t1`. -/
def capturedPair : Ty := .all ⟨1⟩ (.arrow (.var ⟨1⟩) (.arrow (.var ⟨1⟩) (.var ⟨2⟩)))

/-- `∀t0. ∀t1. t0 -> t3` -/
def outerChoice : Ty := .all ⟨0⟩ (.all ⟨1⟩ (.arrow (.var ⟨0⟩) (.var ⟨3⟩)))

/-- `∀t2. ∀t2. t2 -> t3`, which passes for `outerChoice` and binds nothing that is free there. -/
def reboundChoice : Ty := .all ⟨2⟩ (.all ⟨2⟩ (.arrow (.var ⟨2⟩) (.var ⟨3⟩)))

theorem accepted_pairs_freeVars :
    (openPair.alphaEq capturedPair = true ∧ ⟨2⟩ ∈ capturedPair.freeVars ∧
      ⟨2⟩ ∈ openPair.freeVars ∧ ⟨1⟩ ∈ openPair.freeVars ∧ ⟨1⟩ ∉ capturedPair.freeVars) ∧
    (outerChoice.alphaEq reboundChoice = true ∧
      ∀ w ∈ reboundChoice.binders, w ∉ outerChoice.freeVars) ∧
    reboundChoice.freeVars = outerChoice.freeVars := by
  have captured : openPair.alphaEq capturedPair = true := by decide
  have shared : ⟨2⟩ ∈ capturedPair.freeVars := by decide
  have included := (freeVars_of_accepted openPair capturedPair captured).1 ⟨2⟩ shared
  have rebound : outerChoice.alphaEq reboundChoice = true := by decide
  have unbound : ∀ w ∈ reboundChoice.binders, w ∉ outerChoice.freeVars := by decide
  refine ⟨⟨captured, shared, included, by decide, by decide⟩, ⟨rebound, unbound⟩, ?_⟩
  exact (freeVars_of_accepted outerChoice reboundChoice rebound).2 unbound

end Ty

end PolyLambda
