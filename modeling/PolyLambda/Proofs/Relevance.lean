import PolyLambda.Proofs.Failures
import PolyLambda.Proofs.Weakening

/-! # The part of an environment that a term reads

`env.restrict expr` keeps what `env` says about the names and identities that are
free in the term.  Checking runs there as it does in `env` (`inferWith_restrict`): by
weakening the two runs could differ only by an error about a name or an identity that
the restriction drops, and such an error is about something free in the term, which
the restriction keeps.  Environments that agree on the free variables of a term have
one restriction to it. -/

set_option autoImplicit false

namespace PolyLambda

namespace Env

variable {env env' : Env} {expr : Expr}

/-- The bindings and the type variables of `env` that are free in `expr`. -/
def restrict (env : Env) (expr : Expr) : Env where
  terms := env.terms.filter fun name _ => expr.occursFreeName name
  types := env.types.filter fun v => expr.occursFreeType v

theorem lookup_restrict (env : Env) (expr : Expr) (name : String) :
    (env.restrict expr).lookup name =
      if expr.occursFreeName name = true then env.lookup name
      else .error (.unboundVariable name) := by
  simp only [lookup, restrict, Std.ExtTreeMap.getElem?_filter']
  cases env.terms[name]? with
  | none => simp
  | some ty => cases expr.occursFreeName name <;> simp [Option.filter]

theorem mem_types_restrict {v : TyVar} :
    v ∈ (env.restrict expr).types ↔ v ∈ env.types ∧ expr.occursFreeType v = true := by
  simp [restrict, Std.ExtTreeSet.mem_filter]

theorem restrict_extendsTo (env : Env) (expr : Expr) : (env.restrict expr).ExtendsTo env where
  terms name ty found := by
    rw [lookup_restrict] at found
    split at found
    · exact found
    · cases found
  types v known := (mem_types_restrict.mp known).1

theorem restrict_congr
    (names : ∀ name, expr.occursFreeName name = true → env.lookup name = env'.lookup name)
    (types : ∀ v, expr.occursFreeType v = true → env.containsType v = env'.containsType v) :
    env.restrict expr = env'.restrict expr := by
  apply eq_of_lookup_eq
  · intro name
    rw [lookup_restrict, lookup_restrict]
    split
    case isTrue free => exact names name free
    case isFalse => rfl
  · intro v
    rw [mem_types_restrict, mem_types_restrict, and_congr_left_iff]
    intro free
    exact Bool.eq_iff_iff.mp (types v free)

theorem not_genuine_of_misses_restrict {error : TypeError}
    (misses : (env.restrict expr).Misses env error) : ¬ Genuine (env.restrict expr) expr error := by
  intro genuine
  cases error with
  | unboundVariable name =>
      obtain ⟨free, missing⟩ := genuine
      obtain ⟨ty, found⟩ := misses.2
      rw [lookup_restrict, if_pos free, found] at missing
      cases missing
  | unboundTypeVariable v => exact misses.1 (mem_types_restrict.mpr ⟨misses.2, genuine.1⟩)
  | _ => exact misses

end Env

theorem inferWith_restrict (detail : Detail) (env : Env) (expr : Expr) :
    inferWith detail (env.restrict expr) expr = inferWith detail env expr := by
  rcases inferWith_follows detail (env.restrict_extendsTo expr) expr with
    same | ⟨error, fails, misses⟩
  · exact same.symm
  · exact absurd (genuine_of_failure fails) (Env.not_genuine_of_misses_restrict misses)

theorem inferWith_congr (detail : Detail) {env env' : Env} {expr : Expr}
    (names : ∀ name, expr.occursFreeName name = true → env.lookup name = env'.lookup name)
    (types : ∀ v, expr.occursFreeType v = true → env.containsType v = env'.containsType v) :
    inferWith detail env expr = inferWith detail env' expr := by
  calc inferWith detail env expr
      = inferWith detail (env.restrict expr) expr := (inferWith_restrict detail env expr).symm
    _ = inferWith detail (env'.restrict expr) expr := by rw [Env.restrict_congr names types]
    _ = inferWith detail env' expr := inferWith_restrict detail env' expr

/-- The outcome of a check depends on an environment only through what it says about the
free variables of the term.  A closed term has one outcome in all environments. -/
theorem typeOfIn_reads_free_variables :
    (∀ (env env' : Env) (expr : Expr),
      (∀ name, expr.occursFreeName name = true → env.lookup name = env'.lookup name) →
      (∀ v, expr.occursFreeType v = true → env.containsType v = env'.containsType v) →
        typeOfIn env expr = typeOfIn env' expr) ∧
    ∀ expr : Expr, (∀ name, expr.occursFreeName name = false) →
      (∀ v, expr.occursFreeType v = false) → ∀ env, typeOfIn env expr = typeOf expr := by
  constructor
  · intro env env' expr names types
    exact congrArg Run.outcome (inferWith_congr .bare names types)
  · intro expr noNames noTypes env
    have same : inferWith .bare env expr = inferWith .bare .empty expr := by
      apply inferWith_congr
      · intro name free
        simp [noNames name] at free
      · intro v free
        simp [noTypes v] at free
    exact congrArg Run.outcome same

/-- `Λt1. λx: t1. k [t1] x`, which binds the identity `t1` and the name `x` itself. -/
def keeperUse : Expr :=
  .tabs ⟨1⟩ (.abs "x" (.var ⟨1⟩) (.app (.tapp (.var "k") (.var ⟨1⟩)) (.var "x")))

/-- `Λt1. λx: t1. x` -/
def identityTerm : Expr := .tabs ⟨1⟩ (.abs "x" (.var ⟨1⟩) (.var "x"))

/-- `k : ∀t0. t0 -> t0` alone, against `keeperEnv` with an ill-scoped binding for `x`. -/
theorem keeperUse_reads_only_k :
    typeOfIn (keeperEnv.insertTerm "x" (.var ⟨9⟩)) keeperUse =
        .ok (.all ⟨1⟩ (.arrow (.var ⟨1⟩) (.var ⟨1⟩))) ∧
      typeOfIn (Env.empty.insertTerm "k" (.all ⟨0⟩ (.arrow (.var ⟨0⟩) (.var ⟨0⟩)))) keeperUse =
        .ok (.all ⟨1⟩ (.arrow (.var ⟨1⟩) (.var ⟨1⟩))) ∧
      typeOfIn (keeperEnv.insertTerm "x" (.var ⟨9⟩)) identityTerm = typeOf identityTerm := by
  obtain ⟨relevant, closed⟩ := typeOfIn_reads_free_variables
  have found : typeOfIn (keeperEnv.insertTerm "x" (.var ⟨9⟩)) keeperUse =
      .ok (.all ⟨1⟩ (.arrow (.var ⟨1⟩) (.var ⟨1⟩))) := rfl
  refine ⟨found, ?_, ?_⟩
  · rw [← relevant (keeperEnv.insertTerm "x" (.var ⟨9⟩)) _ keeperUse ?_ ?_, found]
    · intro name free
      have isKeeper : "x" ≠ name ∧ ("k" = name ∨ "x" = name) := by
        simpa [keeperUse, Expr.occursFreeName] using free
      obtain rfl := isKeeper.2.resolve_right isKeeper.1
      rfl
    · intro v free
      simp [keeperUse, Expr.occursFreeType, Ty.occursFree] at free
  · apply closed
    · intro name
      simp [identityTerm, Expr.occursFreeName]
    · intro v
      simp [identityTerm, Expr.occursFreeType, Ty.occursFree]

end PolyLambda
