import PolyLambda.Proofs.Comparison
import PolyLambda.Proofs.Inference

/-! # Relabelling

A relabelling changes identities and names, each by an injective map.  Checking
looks at an identity or a name only to compare it with another one, so every
operation on types commutes with a relabelling, and so does a whole run, with its
events and whatever error it ends in (`inferWith_relabel`).

The order in which maps and sets keep their entries is not preserved.  Scopes,
environments and renamings are therefore related by the answers they give. -/

set_option autoImplicit false

namespace PolyLambda

structure Relabelling where
  onVar : TyVar → TyVar
  onName : String → String
  onVar_injective : Function.Injective onVar
  onName_injective : Function.Injective onName

/-! ## Relabelled syntax -/

def Ty.relabel (σ : Relabelling) : Ty → Ty
  | .int => .int
  | .var v => .var (σ.onVar v)
  | .arrow domain codomain => .arrow (domain.relabel σ) (codomain.relabel σ)
  | .quant q v body => .quant q (σ.onVar v) (body.relabel σ)

def Expr.relabel (σ : Relabelling) : Expr → Expr
  | .lit value => .lit value
  | .var name => .var (σ.onName name)
  | .abs param paramTy body => .abs (σ.onName param) (paramTy.relabel σ) (body.relabel σ)
  | .app func arg => .app (func.relabel σ) (arg.relabel σ)
  | .tabs v body => .tabs (σ.onVar v) (body.relabel σ)
  | .tapp func arg => .tapp (func.relabel σ) (arg.relabel σ)
  | .pack witness body v bodyTy =>
      .pack (witness.relabel σ) (body.relabel σ) (σ.onVar v) (bodyTy.relabel σ)
  | .unpack v name packed cont =>
      .unpack (σ.onVar v) (σ.onName name) (packed.relabel σ) (cont.relabel σ)

def Env.relabel (σ : Relabelling) (env : Env) : Env where
  terms := .ofList (env.terms.toList.map fun binding =>
    (σ.onName binding.1, binding.2.relabel σ))
  types := .ofList (env.types.toList.map σ.onVar)

def TypeError.relabel (σ : Relabelling) : TypeError → TypeError
  | .unboundVariable name => .unboundVariable (σ.onName name)
  | .unboundTypeVariable v => .unboundTypeVariable (σ.onVar v)
  | .notArrow ty => .notArrow (ty.relabel σ)
  | .notForall ty => .notForall (ty.relabel σ)
  | .notExists ty => .notExists (ty.relabel σ)
  | .typeMismatch expected actual => .typeMismatch (expected.relabel σ) (actual.relabel σ)
  | .escape v ty => .escape (σ.onVar v) (ty.relabel σ)

def Event.relabel (σ : Relabelling) : Event → Event
  | .subst v replacement ty => .subst (σ.onVar v) (replacement.relabel σ) (ty.relabel σ)
  | .alphaEq left right => .alphaEq (left.relabel σ) (right.relabel σ)
  | .var name ty => .var (σ.onName name) (ty.relabel σ)
  | .abs param ty => .abs (σ.onName param) (ty.relabel σ)
  | .argumentMismatch expected actual =>
      .argumentMismatch (expected.relabel σ) (actual.relabel σ)
  | .app ty => .app (ty.relabel σ)
  | .tabs v ty => .tabs (σ.onVar v) (ty.relabel σ)
  | .tapp v arg ty => .tapp (σ.onVar v) (arg.relabel σ) (ty.relabel σ)
  | .bodyMismatch expected actual => .bodyMismatch (expected.relabel σ) (actual.relabel σ)
  | .pack witness ty => .pack (witness.relabel σ) (ty.relabel σ)
  | .escape v ty => .escape (σ.onVar v) (ty.relabel σ)
  | .unpack v name ty => .unpack (σ.onVar v) (σ.onName name) (ty.relabel σ)

/-- An outcome with its error relabelled, and its result by `onResult`. -/
def Relabelling.outcome {α β : Type} (σ : Relabelling) (onResult : α → β) :
    Except TypeError α → Except TypeError β
  | .ok a => .ok (onResult a)
  | .error error => .error (error.relabel σ)

/-! ## Operations on types -/

namespace Ty

variable (σ : Relabelling)

theorem relabel_subst (ty : Ty) (v : TyVar) (replacement : Ty) :
    (ty.subst v replacement).relabel σ =
      (ty.relabel σ).subst (σ.onVar v) (replacement.relabel σ) := by
  induction ty with
  | int => rfl
  | var w =>
      simp only [subst, relabel, σ.onVar_injective.eq_iff]
      split <;> rfl
  | arrow domain codomain domainInduction codomainInduction =>
      simp only [subst, relabel, domainInduction, codomainInduction]
  | quant q w body bodyInduction => simp only [subst, relabel, bodyInduction]

theorem occursFree_relabel (v : TyVar) (ty : Ty) :
    (ty.relabel σ).occursFree (σ.onVar v) = ty.occursFree v := by
  induction ty with
  | int => rfl
  | var w =>
      rw [Bool.eq_iff_iff]
      simp only [relabel, occursFree, beq_iff_eq, σ.onVar_injective.eq_iff]
  | arrow domain codomain domainInduction codomainInduction =>
      simp only [relabel, occursFree, domainInduction, codomainInduction]
  | quant q w body bodyInduction =>
      rw [Bool.eq_iff_iff]
      simp only [relabel, occursFree, bodyInduction, Bool.and_eq_true, bne_iff_ne, ne_eq,
        σ.onVar_injective.eq_iff]

theorem notEscape_relabel (v : TyVar) (ty : Ty) :
    (ty.relabel σ).notEscape (σ.onVar v) = ty.notEscape v := by
  rw [notEscape, notEscape, occursFree_relabel]

theorem asArrow_relabel (ty : Ty) :
    (ty.relabel σ).asArrow = σ.outcome (Prod.map (relabel σ) (relabel σ)) ty.asArrow := by
  cases ty <;> rfl

theorem asForall_relabel (ty : Ty) :
    (ty.relabel σ).asForall = σ.outcome (Prod.map σ.onVar (relabel σ)) ty.asForall := by
  cases ty with
  | quant q v body => cases q <;> rfl
  | _ => rfl

theorem asExists_relabel (ty : Ty) :
    (ty.relabel σ).asExists = σ.outcome (Prod.map σ.onVar (relabel σ)) ty.asExists := by
  cases ty with
  | quant q v body => cases q <;> rfl
  | _ => rfl

variable {σ}

theorem firstUnbound?_relabel {scope scope' : Scope}
    (aligned : ∀ v, σ.onVar v ∈ scope' ↔ v ∈ scope) (ty : Ty) :
    (ty.relabel σ).firstUnbound? scope' = (ty.firstUnbound? scope).map σ.onVar := by
  induction ty generalizing scope scope' with
  | int => rfl
  | var v =>
      simp only [relabel, firstUnbound?, aligned]
      split <;> rfl
  | arrow domain codomain domainInduction codomainInduction =>
      simp only [relabel, firstUnbound?, domainInduction aligned, codomainInduction aligned,
        Option.map_or]
  | quant q v body bodyInduction =>
      have inside : ∀ w, σ.onVar w ∈ scope'.insert (σ.onVar v) ↔ w ∈ scope.insert v := by
        intro w
        rw [Scope.mem_insert_iff, Scope.mem_insert_iff, aligned, σ.onVar_injective.eq_iff]
      exact bodyInduction inside

theorem wellFormed_relabel {scope scope' : Scope}
    (aligned : ∀ v, σ.onVar v ∈ scope' ↔ v ∈ scope) (ty : Ty) :
    (ty.relabel σ).wellFormed scope' = σ.outcome id (ty.wellFormed scope) := by
  rw [wellFormed, wellFormed, firstUnbound?_relabel aligned]
  cases ty.firstUnbound? scope <;> rfl

/-- Related renamings send related variables to related partners. -/
theorem alphaEqIn_relabel {ρ ρ' : Renaming}
    (aligned : ∀ v, ρ'.apply (σ.onVar v) = σ.onVar (ρ.apply v)) (left right : Ty) :
    (alphaEqIn ρ' (left.relabel σ) (right.relabel σ)).1 = (alphaEqIn ρ left right).1 := by
  induction left generalizing ρ ρ' right with
  | int => cases right <;> rfl
  | var v =>
      cases right with
      | var w =>
          rw [Bool.eq_iff_iff]
          simp only [relabel, alphaEqIn_var_iff, aligned, σ.onVar_injective.eq_iff]
      | _ => rfl
  | arrow domain codomain domainInduction codomainInduction =>
      cases right with
      | arrow domain' codomain' =>
          rw [Bool.eq_iff_iff]
          simp only [relabel, alphaEqIn_arrow_iff, domainInduction aligned,
            codomainInduction aligned]
      | _ => rfl
  | quant q v body bodyInduction =>
      cases right with
      | quant q' w body' =>
          have inside : ∀ u, Renaming.apply (ρ'.insert (σ.onVar v) (σ.onVar w)) (σ.onVar u) =
              σ.onVar (Renaming.apply (ρ.insert v w) u) := by
            intro u
            by_cases bound : v = u
            · rw [← bound, Renaming.apply_insert_self, Renaming.apply_insert_self]
            · have boundThere : σ.onVar v ≠ σ.onVar u := σ.onVar_injective.ne bound
              rw [Renaming.apply_insert_of_ne _ _ bound,
                Renaming.apply_insert_of_ne _ _ boundThere, aligned]
          rw [Bool.eq_iff_iff]
          simp only [relabel, alphaEqIn_quant_iff, bodyInduction inside]
      | _ => rfl

theorem alphaEq_relabel (left right : Ty) :
    (left.relabel σ).alphaEq (right.relabel σ) = left.alphaEq right := by
  refine alphaEqIn_relabel ?_ left right
  intro v
  rw [Renaming.apply_empty, Renaming.apply_empty]

end Ty

/-! ## Environments -/

namespace Env

variable {σ : Relabelling} {env env' : Env}

/-- What `env'` says of relabelled names and identities is what `env` says of the plain ones. -/
structure Relabelled (σ : Relabelling) (env env' : Env) : Prop where
  terms : ∀ name, env'.terms[σ.onName name]? = (env.terms[name]?).map (Ty.relabel σ)
  types : ∀ v, σ.onVar v ∈ env'.types ↔ v ∈ env.types

theorem terms_relabel (σ : Relabelling) (env : Env) (name : String) :
    (env.relabel σ).terms[σ.onName name]? = (env.terms[name]?).map (Ty.relabel σ) := by
  cases found : env.terms[name]? with
  | none =>
      refine Std.ExtTreeMap.getElem?_ofList_of_contains_eq_false ?_
      rw [← Bool.not_eq_true, List.contains_iff_mem, List.map_map, List.mem_map]
      rintro ⟨⟨other, ty⟩, listed, same⟩
      obtain rfl : other = name := σ.onName_injective same
      have bound := Std.ExtTreeMap.mem_toList_iff_getElem?_eq_some.mp listed
      rw [found] at bound
      cases bound
  | some ty =>
      have listed : (name, ty) ∈ env.terms.toList :=
        Std.ExtTreeMap.mem_toList_iff_getElem?_eq_some.mpr found
      refine Std.ExtTreeMap.getElem?_ofList_of_mem Std.ReflCmp.compare_self ?_
        (List.mem_map.mpr ⟨(name, ty), listed, rfl⟩)
      -- Distinct names stay distinct, so no binding takes the place of another.
      rw [List.pairwise_map]
      refine Std.ExtTreeMap.distinct_keys_toList.imp ?_
      intro first second distinct
      rw [Std.LawfulEqOrd.compare_eq_iff_eq] at distinct ⊢
      exact σ.onName_injective.ne distinct

theorem types_relabel (σ : Relabelling) (env : Env) (v : TyVar) :
    σ.onVar v ∈ (env.relabel σ).types ↔ v ∈ env.types := by
  rw [relabel, Std.ExtTreeSet.mem_ofList, List.contains_iff_mem, List.mem_map]
  constructor
  · rintro ⟨w, listed, same⟩
    rw [σ.onVar_injective same] at listed
    exact Std.ExtTreeSet.mem_toList.mp listed
  · intro member
    exact ⟨v, Std.ExtTreeSet.mem_toList.mpr member, rfl⟩

theorem relabelled_relabel (σ : Relabelling) (env : Env) : Relabelled σ env (env.relabel σ) :=
  ⟨terms_relabel σ env, types_relabel σ env⟩

namespace Relabelled

theorem insertTerm (aligned : Relabelled σ env env') (name : String) (ty : Ty) :
    Relabelled σ (env.insertTerm name ty) (env'.insertTerm (σ.onName name) (ty.relabel σ)) where
  terms other := by
    simp only [Env.insertTerm, Std.ExtTreeMap.getElem?_insert, Std.LawfulEqOrd.compare_eq_iff_eq,
      σ.onName_injective.eq_iff, aligned.terms]
    split <;> rfl
  types := aligned.types

theorem insertType (aligned : Relabelled σ env env') (v : TyVar) :
    Relabelled σ (env.insertType v) (env'.insertType (σ.onVar v)) where
  terms := aligned.terms
  types w := by
    rw [mem_types_insertType, mem_types_insertType, aligned.types, σ.onVar_injective.eq_iff]

theorem lookup (aligned : Relabelled σ env env') (name : String) :
    env'.lookup (σ.onName name) = σ.outcome (Ty.relabel σ) (env.lookup name) := by
  rw [Env.lookup, Env.lookup, aligned.terms]
  cases env.terms[name]? <;> rfl

theorem wellFormed (aligned : Relabelled σ env env') (ty : Ty) :
    env'.wellFormed (ty.relabel σ) = σ.outcome id (env.wellFormed ty) :=
  Ty.wellFormed_relabel aligned.types ty

end Relabelled

end Env

/-! ## Runs -/

namespace Run

variable {α β γ δ : Type} {σ : Relabelling}

def relabel (σ : Relabelling) (onResult : α → β) (run : Run α) : Run β :=
  ⟨run.events.map (Event.relabel σ), σ.outcome onResult run.outcome⟩

theorem relabel_bind {onResult : α → β} {onLast : γ → δ} {run : Run α} {next : α → Run γ}
    {next' : β → Run δ} (relabelled : ∀ a, next' (onResult a) = (next a).relabel σ onLast) :
    run.relabel σ onResult >>= next' = (run >>= next).relabel σ onLast := by
  cases ended : run.outcome with
  | ok a =>
      have endedThere : (run.relabel σ onResult).outcome = .ok (onResult a) := by
        rw [relabel, ended]
        rfl
      rw [bind_of_ok ended, bind_of_ok endedThere, relabelled]
      simp [relabel]
  | error error =>
      have endedThere : (run.relabel σ onResult).outcome = .error (error.relabel σ) := by
        rw [relabel, ended]
        rfl
      rw [bind_of_error ended, bind_of_error endedThere]
      rfl

theorem ofExcept_outcome (onResult : α → β) (ended : Except TypeError α) :
    ofExcept (σ.outcome onResult ended) = (ofExcept ended).relabel σ onResult := rfl

end Run

namespace Ty

variable (σ : Relabelling)

theorem substRun_relabel (ty : Ty) (v : TyVar) (replacement : Ty) :
    (ty.relabel σ).substRun (σ.onVar v) (replacement.relabel σ) =
      (ty.substRun v replacement).relabel σ (relabel σ) := by
  rw [substRun, ← relabel_subst]
  rfl

theorem alphaEqRun_relabel (left right : Ty) :
    (left.relabel σ).alphaEqRun (right.relabel σ) = (left.alphaEqRun right).relabel σ id := by
  rw [alphaEqRun, alphaEq_relabel]
  rfl

end Ty

theorem inferWith_relabel {σ : Relabelling} (detail : Detail) {env env' : Env}
    (aligned : Env.Relabelled σ env env') (expr : Expr) :
    inferWith detail env' (expr.relabel σ) =
      (inferWith detail env expr).relabel σ (Ty.relabel σ) := by
  -- Both runs are peeled together, and what each step hands on differs by the relabelling.
  induction expr generalizing env env' with
  | lit value =>
      rw [Expr.relabel, inferWith_lit, inferWith_lit]
      rfl
  | var name =>
      rw [Expr.relabel, inferWith_var, inferWith_var, aligned.lookup, Run.ofExcept_outcome]
      refine Run.relabel_bind ?_
      intro ty
      rfl
  | abs param paramTy body bodyInduction =>
      rw [Expr.relabel, inferWith_abs, inferWith_abs, aligned.wellFormed, Run.ofExcept_outcome,
        bodyInduction (aligned.insertTerm param paramTy)]
      refine Run.relabel_bind ?_
      intro _
      refine Run.relabel_bind ?_
      intro bodyTy
      rfl
  | app func arg funcInduction argInduction =>
      rw [Expr.relabel, inferWith_app, inferWith_app, funcInduction aligned, argInduction aligned]
      refine Run.relabel_bind ?_
      intro funcTy
      rw [Ty.asArrow_relabel, Run.ofExcept_outcome]
      refine Run.relabel_bind ?_
      rintro ⟨domain, codomain⟩
      dsimp only [Prod.map]
      refine Run.relabel_bind ?_
      intro argTy
      rw [Ty.alphaEqRun_relabel]
      refine Run.relabel_bind ?_
      intro same
      cases same <;> rfl
  | tabs v body bodyInduction =>
      rw [Expr.relabel, inferWith_tabs, inferWith_tabs, bodyInduction (aligned.insertType v)]
      refine Run.relabel_bind ?_
      intro bodyTy
      rfl
  | tapp func arg funcInduction =>
      rw [Expr.relabel, inferWith_tapp, inferWith_tapp, funcInduction aligned, aligned.wellFormed]
      refine Run.relabel_bind ?_
      intro funcTy
      rw [Ty.asForall_relabel, Run.ofExcept_outcome]
      refine Run.relabel_bind ?_
      rintro ⟨v, body⟩
      dsimp only [Prod.map]
      rw [Run.ofExcept_outcome]
      refine Run.relabel_bind ?_
      intro _
      rw [Ty.substRun_relabel]
      refine Run.relabel_bind ?_
      intro ty
      rfl
  | pack witness body v bodyTy bodyInduction =>
      have sealed := (aligned.insertType v).wellFormed (.ex v bodyTy)
      rw [Ty.relabel] at sealed
      rw [Expr.relabel, inferWith_pack, inferWith_pack, aligned.wellFormed, sealed,
        bodyInduction aligned, Ty.substRun_relabel, Run.ofExcept_outcome, Run.ofExcept_outcome]
      refine Run.relabel_bind ?_
      intro _
      refine Run.relabel_bind ?_
      intro _
      refine Run.relabel_bind ?_
      intro actual
      refine Run.relabel_bind ?_
      intro expected
      rw [Ty.alphaEqRun_relabel]
      refine Run.relabel_bind ?_
      intro same
      cases same <;> rfl
  | unpack v name packed cont packedInduction contInduction =>
      rw [Expr.relabel, inferWith_unpack, inferWith_unpack, packedInduction aligned]
      refine Run.relabel_bind ?_
      intro packedTy
      rw [Ty.asExists_relabel, Run.ofExcept_outcome]
      refine Run.relabel_bind ?_
      rintro ⟨bound, body⟩
      dsimp only [Prod.map]
      have opening := Ty.substRun_relabel σ body bound (.var v)
      rw [Ty.relabel] at opening
      rw [opening]
      refine Run.relabel_bind ?_
      intro opened
      rw [contInduction ((aligned.insertType v).insertTerm name opened)]
      refine Run.relabel_bind ?_
      intro ty
      rw [Ty.notEscape_relabel]
      split <;> rfl

/-- The type of a relabelled term in a relabelled environment is the relabelled type, and
when there is none, the error is the relabelled error.  Identities may be used again, and
the maps need not respect any order. -/
theorem typeOfIn_relabel (σ : Relabelling) (env : Env) (expr : Expr) :
    typeOfIn (env.relabel σ) (expr.relabel σ) =
      match typeOfIn env expr with
      | .ok ty => .ok (ty.relabel σ)
      | .error error => .error (error.relabel σ) := by
  have run := inferWith_relabel .bare (Env.relabelled_relabel σ env) expr
  have outcome : typeOfIn (env.relabel σ) (expr.relabel σ) =
      σ.outcome (Ty.relabel σ) (typeOfIn env expr) := congrArg Run.outcome run
  rw [outcome]
  cases typeOfIn env expr <;> rfl

end PolyLambda
