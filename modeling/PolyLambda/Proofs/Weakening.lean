import PolyLambda.Proofs.FreeVariables
import PolyLambda.Proofs.Inference

/-! # Weakening

An environment extends another one when it has all of its bindings, with the same
types, and all of its type variables.  No rule asks whether something is absent, so
checking in the larger environment runs as in the smaller one, event by event,
unless the smaller one lacks a name or an identity that the larger one has
(`inferWith_follows`). -/

set_option autoImplicit false

namespace PolyLambda

namespace Run

variable {α β : Type} {excused excused' : TypeError → Prop}

/-- The second run is the first one, unless the first ends in an excused error. -/
def Follows (excused : TypeError → Prop) (run run' : Run α) : Prop :=
  run' = run ∨ ∃ error, run.outcome = .error error ∧ excused error

namespace Follows

theorem refl (run : Run α) : Follows excused run run := .inl rfl

theorem mono {run run' : Run α} (follows : Follows excused run run')
    (weaker : ∀ error, excused error → excused' error) : Follows excused' run run' := by
  rcases follows with same | ⟨error, fails, excuse⟩
  · exact .inl same
  · exact .inr ⟨error, fails, weaker error excuse⟩

theorem bind {run run' : Run α} {next next' : α → Run β} (follows : Follows excused run run')
    (nextFollows : ∀ a, Follows excused (next a) (next' a)) :
    Follows excused (run >>= next) (run' >>= next') := by
  rcases follows with rfl | ⟨error, fails, excuse⟩
  · cases ended : run'.outcome with
    | error error =>
        rw [bind_of_error ended, bind_of_error ended]
        exact refl _
    | ok a =>
        rw [bind_of_ok ended, bind_of_ok ended]
        rcases nextFollows a with same | ⟨error, fails, excuse⟩
        · rw [same]
          exact refl _
        · exact .inr ⟨error, fails, excuse⟩
  · rw [bind_of_error fails]
    exact .inr ⟨error, rfl, excuse⟩

end Follows

end Run

/-! ## Extended environments -/

theorem Ty.firstUnbound?_weaken {scope scope' : Scope}
    (extended : ∀ v ∈ scope, v ∈ scope') (ty : Ty) :
    ty.firstUnbound? scope' = ty.firstUnbound? scope ∨
      ∃ v, ty.firstUnbound? scope = some v ∧ v ∈ scope' := by
  cases reported : ty.firstUnbound? scope with
  | none =>
      rw [firstUnbound?_eq_none_iff] at reported ⊢
      exact .inl fun v free => extended v (reported v free)
  | some v =>
      by_cases known : v ∈ scope'
      · exact .inr ⟨v, rfl, known⟩
      · -- The occurrences before `v` are in `scope`, so they are passed over in `scope'` too.
        rw [firstUnbound?_eq_find?, List.find?_eq_some_iff_append] at reported ⊢
        obtain ⟨-, before, after, occurrences, earlier⟩ := reported
        refine .inl ⟨by simpa using known, before, after, occurrences, ?_⟩
        intro w member
        have inScope : w ∈ scope := by simpa using earlier w member
        simpa using extended w inScope

namespace Env

variable {env env' : Env}

structure ExtendsTo (env env' : Env) : Prop where
  terms : ∀ (name : String) (ty : Ty), env.lookup name = .ok ty → env'.lookup name = .ok ty
  types : ∀ v ∈ env.types, v ∈ env'.types

/-- The error reports a name or an identity that `env` lacks and `env'` has. -/
def Misses (env env' : Env) : TypeError → Prop
  | .unboundVariable name => (∀ ty, env.lookup name ≠ .ok ty) ∧ ∃ ty, env'.lookup name = .ok ty
  | .unboundTypeVariable v => v ∉ env.types ∧ v ∈ env'.types
  | _ => False

namespace Misses

theorem of_insertTerm {name : String} {ty : Ty} (error : TypeError)
    (misses : (env.insertTerm name ty).Misses (env'.insertTerm name ty) error) :
    env.Misses env' error := by
  cases error with
  | unboundVariable other =>
      simp only [Misses, lookup_insertTerm] at misses ⊢
      by_cases same : name = other
      · simp [same] at misses
      · simpa only [if_neg same] using misses
  | _ => exact misses

theorem of_insertType {v : TyVar} (error : TypeError)
    (misses : (env.insertType v).Misses (env'.insertType v) error) : env.Misses env' error := by
  cases error with
  | unboundTypeVariable w =>
      simp only [Misses, mem_types_insertType, not_or] at misses ⊢
      exact ⟨misses.1.2, misses.2.resolve_left misses.1.1⟩
  | _ => exact misses

end Misses

theorem extendsTo_insertType (env : Env) (v : TyVar) : env.ExtendsTo (env.insertType v) where
  terms _ _ found := found
  types _ known := mem_types_insertType.mpr (.inr known)

namespace ExtendsTo

theorem insertTerm (extended : env.ExtendsTo env') (name : String) (ty : Ty) :
    (env.insertTerm name ty).ExtendsTo (env'.insertTerm name ty) where
  terms other ty' found := by
    rw [lookup_insertTerm] at found ⊢
    split at found
    case isTrue same => rwa [if_pos same]
    case isFalse different =>
      rw [if_neg different]
      exact extended.terms other ty' found
  types := extended.types

theorem insertType (extended : env.ExtendsTo env') (v : TyVar) :
    (env.insertType v).ExtendsTo (env'.insertType v) where
  terms := extended.terms
  types w known := by
    rw [mem_types_insertType] at known ⊢
    exact known.imp_right (extended.types w)

theorem lookup_follows (extended : env.ExtendsTo env') (name : String) :
    (Run.ofExcept (env.lookup name)).Follows (env.Misses env')
      (Run.ofExcept (env'.lookup name)) := by
  cases found : env.lookup name with
  | ok ty =>
      rw [extended.terms name ty found]
      exact .refl _
  | error error =>
      obtain rfl := lookup_eq_error found
      cases foundThere : env'.lookup name with
      | ok ty => exact .inr ⟨_, rfl, by simp [found], ty, foundThere⟩
      | error error =>
          obtain rfl := lookup_eq_error foundThere
          exact .refl _

theorem wellFormed_follows (extended : env.ExtendsTo env') (ty : Ty) :
    (Run.ofExcept (env.wellFormed ty)).Follows (env.Misses env')
      (Run.ofExcept (env'.wellFormed ty)) := by
  rw [wellFormed, wellFormed, Ty.wellFormed, Ty.wellFormed]
  rcases Ty.firstUnbound?_weaken extended.types ty with same | ⟨v, reported, known⟩
  · rw [same]
    exact .refl _
  · rw [reported]
    exact .inr ⟨_, rfl, (Ty.firstUnbound?_eq_some reported).2, known⟩

end ExtendsTo

end Env

/-! ## Checking in an extended environment -/

theorem inferWith_follows (detail : Detail) {env env' : Env} (extended : env.ExtendsTo env')
    (expr : Expr) :
    (inferWith detail env expr).Follows (env.Misses env') (inferWith detail env' expr) := by
  -- Both runs are peeled together.  What they share follows itself, and an excuse that a part
  -- gives in its own environments is one in these.
  induction expr generalizing env env' with
  | lit value =>
      rw [inferWith_lit, inferWith_lit]
      exact .refl _
  | var name =>
      rw [inferWith_var, inferWith_var]
      refine .bind (extended.lookup_follows name) ?_
      intro ty
      exact .refl _
  | abs param paramTy body bodyInduction =>
      have inBody := bodyInduction (extended.insertTerm param paramTy)
      rw [inferWith_abs, inferWith_abs]
      refine .bind (extended.wellFormed_follows paramTy) ?_
      intro _
      refine .bind (inBody.mono Env.Misses.of_insertTerm) ?_
      intro bodyTy
      exact .refl _
  | app func arg funcInduction argInduction =>
      rw [inferWith_app, inferWith_app]
      refine .bind (funcInduction extended) ?_
      intro funcTy
      refine .bind (.refl _) ?_
      rintro ⟨domain, codomain⟩
      refine .bind (argInduction extended) ?_
      intro argTy
      exact .refl _
  | tabs v body bodyInduction =>
      have inBody := bodyInduction (extended.insertType v)
      rw [inferWith_tabs, inferWith_tabs]
      refine .bind (inBody.mono Env.Misses.of_insertType) ?_
      intro bodyTy
      exact .refl _
  | tapp func arg funcInduction =>
      rw [inferWith_tapp, inferWith_tapp]
      refine .bind (funcInduction extended) ?_
      intro funcTy
      refine .bind (.refl _) ?_
      rintro ⟨v, body⟩
      refine .bind (extended.wellFormed_follows arg) ?_
      intro _
      exact .refl _
  | pack witness body v bodyTy bodyInduction =>
      have inScope := (extended.insertType v).wellFormed_follows (.ex v bodyTy)
      rw [inferWith_pack, inferWith_pack]
      refine .bind (extended.wellFormed_follows witness) ?_
      intro _
      refine .bind (inScope.mono Env.Misses.of_insertType) ?_
      intro _
      refine .bind (bodyInduction extended) ?_
      intro actual
      exact .refl _
  | unpack v name packed cont packedInduction contInduction =>
      rw [inferWith_unpack, inferWith_unpack]
      refine .bind (packedInduction extended) ?_
      intro packedTy
      refine .bind (.refl _) ?_
      rintro ⟨bound, body⟩
      refine .bind (.refl _) ?_
      intro opened
      have inCont := contInduction ((extended.insertType v).insertTerm name opened)
      refine .bind ((inCont.mono Env.Misses.of_insertTerm).mono Env.Misses.of_insertType) ?_
      intro ty
      exact .refl _

theorem Infers.extend {env env' : Env} {expr : Expr} {ty : Ty} (inferred : Infers env expr ty)
    (extended : env.ExtendsTo env') : Infers env' expr ty := by
  have found := inferred.outcome .bare
  rcases inferWith_follows .bare extended expr with same | ⟨error, fails, -⟩
  · exact infers_of_outcome ((congrArg Run.outcome same).trans found)
  · rw [found] at fails
    cases fails

/-- A term keeps its type in every extension of an environment, and it keeps the error that
stops it, unless that error reports an unbound name or an unbound type variable. -/
theorem typeOfIn_extend (env env' : Env) (expr : Expr)
    (scope : ∀ v ∈ env.types, v ∈ env'.types)
    (terms : ∀ (name : String) (ty : Ty), env.lookup name = .ok ty → env'.lookup name = .ok ty)
    (namesBound : ∀ name, typeOfIn env expr ≠ .error (.unboundVariable name))
    (typesBound : ∀ v, typeOfIn env expr ≠ .error (.unboundTypeVariable v)) :
    typeOfIn env' expr = typeOfIn env expr := by
  rcases inferWith_follows .bare ⟨terms, scope⟩ expr with same | ⟨error, fails, misses⟩
  · exact congrArg Run.outcome same
  · cases error with
    | unboundVariable name => exact absurd fails (namesBound name)
    | unboundTypeVariable v => exact absurd fails (typesBound v)
    | _ => exact absurd misses not_false

/-- `k : ∀t0. t0 -> t0` in the scope of `t1`. -/
def keeperEnv : Env :=
  (Env.empty.insertType ⟨1⟩).insertTerm "k" (.all ⟨0⟩ (.arrow (.var ⟨0⟩) (.var ⟨0⟩)))

/-- `k [t1] 5` -/
def keeperMisuse : Expr := .app (.tapp (.var "k") (.var ⟨1⟩)) (.lit 5)

/-- The term fails alike with `t0`, which the type of `k` binds, in scope as well. -/
theorem keeperMisuse_fails_alike_in_extension :
    keeperEnv.ExtendsTo ((keeperEnv.insertTerm "x" .int).insertType ⟨0⟩) ∧
      typeOfIn keeperEnv keeperMisuse = .error (.typeMismatch (.var ⟨1⟩) .int) ∧
      typeOfIn ((keeperEnv.insertTerm "x" .int).insertType ⟨0⟩) keeperMisuse =
        .error (.typeMismatch (.var ⟨1⟩) .int) := by
  have fails : typeOfIn keeperEnv keeperMisuse = .error (.typeMismatch (.var ⟨1⟩) .int) := rfl
  have extended : keeperEnv.ExtendsTo ((keeperEnv.insertTerm "x" .int).insertType ⟨0⟩) := by
    refine ⟨?_, fun v known => Env.mem_types_insertType.mpr (.inr known)⟩
    intro name ty found
    have different : "x" ≠ name := by
      rintro rfl
      cases (found : Except.error (TypeError.unboundVariable "x") = .ok ty)
    exact (Env.lookup_insertTerm keeperEnv "x" name .int).trans ((if_neg different).trans found)
  refine ⟨extended, fails, ?_⟩
  rw [typeOfIn_extend keeperEnv _ keeperMisuse extended.types extended.terms (by simp [fails])
    (by simp [fails]), fails]

end PolyLambda
