import PolyLambda.Proofs.FreeVariables
import PolyLambda.Proofs.Regularity
import PolyLambda.Proofs.Visits

/-! # What errors and types say about a term

An error is genuine for a check when what it carries really is wrong with the term in
that environment.  A check that fails either finds a genuine error itself or hands on
the error of one of its premises (`failure_cases`), and what is genuine for a premise is
genuine for the whole check, since the names and identities that a part has bound or in
scope beyond its whole are those that the whole binds there (`Genuine.of_premise`).

A check that succeeds has looked at every free variable of its term. -/

set_option autoImplicit false

namespace PolyLambda

/-- What the error carries is wrong with the term in `env`. -/
def Genuine (env : Env) (expr : Expr) : TypeError → Prop
  | .unboundVariable name =>
      expr.occursFreeName name = true ∧ env.lookup name = .error (.unboundVariable name)
  | .unboundTypeVariable v => expr.occursFreeType v = true ∧ env.containsType v = false
  | .notArrow ty => ∀ domain codomain, ty ≠ .arrow domain codomain
  | .notForall ty => ∀ v body, ty ≠ .all v body
  | .notExists ty => ∀ v body, ty ≠ .ex v body
  | .typeMismatch expected actual => expected.alphaEq actual = false
  | .escape v ty =>
      (∃ path name packed cont, expr.at? path = some (.unpack v name packed cont)) ∧
        ty.occursFree v = true

theorem Premise.free_name {env env' : Env} {expr part : Expr} {name : String}
    (premise : Premise env expr env' part) (free : part.occursFreeName name = true)
    (missing : env'.lookup name = .error (.unboundVariable name)) :
    expr.occursFreeName name = true ∧ env.lookup name = .error (.unboundVariable name) := by
  cases premise with
  | body _ | cont _ =>
      rw [Env.lookup_insertTerm] at missing
      split at missing
      · cases missing
      case isFalse other => exact ⟨by simp [Expr.occursFreeName, other, free], missing⟩
  | _ => exact ⟨by simp [Expr.occursFreeName, free], missing⟩

theorem Premise.free_type {env env' : Env} {expr part : Expr} {v : TyVar}
    (premise : Premise env expr env' part) (free : part.occursFreeType v = true)
    (missing : env'.containsType v = false) :
    expr.occursFreeType v = true ∧ env.containsType v = false := by
  cases premise with
  | abstracted | cont _ =>
      obtain ⟨other, missing⟩ := Env.containsType_insertType_eq_false.mp missing
      exact ⟨by simp [Expr.occursFreeType, other, free], missing⟩
  | _ => exact ⟨by simp [Expr.occursFreeType, free], missing⟩

theorem Genuine.of_premise {env env' : Env} {expr part : Expr} {error : TypeError}
    (premise : Premise env expr env' part) (genuine : Genuine env' part error) :
    Genuine env expr error := by
  cases error with
  | unboundVariable name => exact premise.free_name genuine.1 genuine.2
  | unboundTypeVariable v => exact premise.free_type genuine.1 genuine.2
  | escape v ty =>
      obtain ⟨⟨path, name, packed, cont, there⟩, free⟩ := genuine
      obtain ⟨path', there⟩ := Expr.exists_at?_of_mem_parts premise.mem_parts there
      exact ⟨⟨path', name, packed, cont, there⟩, free⟩
  | _ => exact genuine

theorem genuine_of_wellFormed {env : Env} {expr : Expr} {ty : Ty} {error : TypeError}
    (fails : env.wellFormed ty = .error error)
    (occurs : ∀ v, ty.occursFree v = true → expr.occursFreeType v = true) :
    Genuine env expr error := by
  obtain ⟨v, rfl, free, missing⟩ := Env.wellFormed_eq_error fails
  refine ⟨occurs v ((Ty.occursFree_iff_mem_freeVars v ty).mpr free), ?_⟩
  exact Bool.eq_false_iff.mpr missing

-- The package body is scoped under a variable that the package type binds again, so the
-- variable reported is another one and is missing outside as well.
theorem genuine_of_packType {env : Env} {witness bodyTy : Ty} {body : Expr} {v : TyVar}
    {error : TypeError} (fails : (env.insertType v).wellFormed (.ex v bodyTy) = .error error) :
    Genuine env (.pack witness body v bodyTy) error := by
  obtain ⟨w, rfl, free, missing⟩ := Env.wellFormed_eq_error fails
  obtain ⟨other, missing⟩ :=
    Env.containsType_insertType_eq_false.mp (Bool.eq_false_iff.mpr missing)
  have inBody : bodyTy.occursFree w = true :=
    (Ty.occursFree_iff_mem_freeVars w bodyTy).mpr (Ty.mem_freeVars_quant.mp free).2
  exact ⟨by simp [Expr.occursFreeType, other, inBody], missing⟩

theorem genuine_of_comparison {env : Env} {expr : Expr} {expected actual ty : Ty}
    {accepted refused : Event} {error : TypeError}
    (fails : Run.outcome (do
      if ← expected.alphaEqRun actual then
        Run.emit accepted
        return ty
      else
        Run.emit refused
        Run.fail (.typeMismatch expected actual)) = .error error) :
    Genuine env expr error := by
  rcases Run.outcome_bind_eq_error_iff.mp fails with own | ⟨same, compared, fails⟩
  · cases own
  cases same with
  | true => cases fails
  | false =>
      cases fails
      exact Except.ok.inj compared

theorem failure_cases {detail : Detail} {env : Env} {expr : Expr} {error : TypeError}
    (fails : (inferWith detail env expr).outcome = .error error) :
    Genuine env expr error ∨ ∃ env' part, Premise env expr env' part ∧
      (inferWith detail env' part).outcome = .error error := by
  cases expr with
  | lit value =>
      rw [inferWith_lit] at fails
      cases fails
  | var name =>
      rw [inferWith_var] at fails
      rcases Run.outcome_bind_eq_error_iff.mp fails with own | ⟨ty, -, fails⟩
      · have missing : env.lookup name = .error error := own
        obtain rfl := Env.lookup_eq_error missing
        exact .inl ⟨by simp [Expr.occursFreeName], missing⟩
      · cases fails
  | abs param paramTy body =>
      rw [inferWith_abs] at fails
      rcases Run.outcome_bind_eq_error_iff.mp fails with own | ⟨_, inScope, fails⟩
      · exact .inl (genuine_of_wellFormed own (by simp +contextual [Expr.occursFreeType]))
      rcases Run.outcome_bind_eq_error_iff.mp fails with inside | ⟨bodyTy, -, fails⟩
      · exact .inr ⟨_, _, .body inScope, inside⟩
      · cases fails
  | app func arg =>
      rw [inferWith_app] at fails
      rcases Run.outcome_bind_eq_error_iff.mp fails with inside | ⟨funcTy, inFunc, fails⟩
      · exact .inr ⟨_, _, .func, inside⟩
      rcases Run.outcome_bind_eq_error_iff.mp fails with own | ⟨⟨domain, codomain⟩, shape, fails⟩
      · obtain ⟨rfl, other⟩ := Ty.asArrow_eq_error own
        exact .inl other
      rw [Ty.asArrow_eq_ok shape] at inFunc
      rcases Run.outcome_bind_eq_error_iff.mp fails with inside | ⟨argTy, -, fails⟩
      · exact .inr ⟨_, _, .arg (infers_of_outcome inFunc), inside⟩
      · exact .inl (genuine_of_comparison fails)
  | tabs v body =>
      rw [inferWith_tabs] at fails
      rcases Run.outcome_bind_eq_error_iff.mp fails with inside | ⟨bodyTy, -, fails⟩
      · exact .inr ⟨_, _, .abstracted, inside⟩
      · cases fails
  | tapp func arg =>
      rw [inferWith_tapp] at fails
      rcases Run.outcome_bind_eq_error_iff.mp fails with inside | ⟨funcTy, -, fails⟩
      · exact .inr ⟨_, _, .instantiated, inside⟩
      rcases Run.outcome_bind_eq_error_iff.mp fails with own | ⟨⟨v, body⟩, -, fails⟩
      · obtain ⟨rfl, other⟩ := Ty.asForall_eq_error own
        exact .inl other
      rcases Run.outcome_bind_eq_error_iff.mp fails with own | ⟨_, -, fails⟩
      · exact .inl (genuine_of_wellFormed own (by simp +contextual [Expr.occursFreeType]))
      · cases fails
  | pack witness body v bodyTy =>
      rw [inferWith_pack] at fails
      rcases Run.outcome_bind_eq_error_iff.mp fails with own | ⟨_, witnessInScope, fails⟩
      · exact .inl (genuine_of_wellFormed own (by simp +contextual [Expr.occursFreeType]))
      rcases Run.outcome_bind_eq_error_iff.mp fails with own | ⟨_, inScope, fails⟩
      · exact .inl (genuine_of_packType own)
      rcases Run.outcome_bind_eq_error_iff.mp fails with inside | ⟨actual, -, fails⟩
      · exact .inr ⟨_, _, .sealed witnessInScope inScope, inside⟩
      rcases Run.outcome_bind_eq_error_iff.mp fails with own | ⟨expected, -, fails⟩
      · cases own
      · exact .inl (genuine_of_comparison fails)
  | unpack v name packed cont =>
      rw [inferWith_unpack] at fails
      rcases Run.outcome_bind_eq_error_iff.mp fails with inside | ⟨packedTy, inPacked, fails⟩
      · exact .inr ⟨_, _, .packed, inside⟩
      rcases Run.outcome_bind_eq_error_iff.mp fails with own | ⟨⟨bound, body⟩, shape, fails⟩
      · obtain ⟨rfl, other⟩ := Ty.asExists_eq_error own
        exact .inl other
      rw [Ty.asExists_eq_ok shape] at inPacked
      rcases Run.outcome_bind_eq_error_iff.mp fails with own | ⟨opened, substituted, fails⟩
      · cases own
      obtain rfl : body.subst bound (.var v) = opened := Except.ok.inj substituted
      rcases Run.outcome_bind_eq_error_iff.mp fails with inside | ⟨ty, -, fails⟩
      · exact .inr ⟨_, _, .cont (infers_of_outcome inPacked), inside⟩
      split at fails
      · cases fails
      case isFalse escapes =>
          cases fails
          refine .inl ⟨⟨[], name, packed, cont, rfl⟩, ?_⟩
          simpa [Ty.notEscape] using escapes

theorem genuine_of_failure {detail : Detail} {env : Env} {expr : Expr} {error : TypeError}
    (fails : (inferWith detail env expr).outcome = .error error) : Genuine env expr error := by
  induction expr using Expr.parts_induction generalizing env with
  | step expr partInduction =>
      rcases failure_cases fails with own | ⟨env', part, premise, inside⟩
      · exact own
      · exact .of_premise premise (partInduction part premise.mem_parts inside)

section Accepted

variable {env : Env} {expr : Expr} {ty : Ty}

theorem Infers.lookup_of_occursFreeName {name : String} (inferred : Infers env expr ty)
    (free : expr.occursFreeName name = true) : ∃ found, env.lookup name = .ok found := by
  induction inferred with
  | lit => simp [Expr.occursFreeName] at free
  | @var env other ty found =>
      obtain rfl : other = name := by simpa [Expr.occursFreeName] using free
      exact ⟨ty, found⟩
  | abs _ _ bodyInduction =>
      simp only [Expr.occursFreeName, Bool.and_eq_true, bne_iff_ne] at free
      obtain ⟨found, bound⟩ := bodyInduction free.2
      rw [Env.lookup_insertTerm, if_neg free.1] at bound
      exact ⟨found, bound⟩
  | app _ _ _ funcInduction argInduction =>
      rcases Bool.or_eq_true_iff.mp free with free | free
      · exact funcInduction free
      · exact argInduction free
  | tabs _ induction | tapp _ _ induction | pack _ _ _ _ induction => exact induction free
  | unpack _ _ _ packedInduction contInduction =>
      simp only [Expr.occursFreeName, Bool.or_eq_true, Bool.and_eq_true, bne_iff_ne] at free
      rcases free with free | ⟨other, free⟩
      · exact packedInduction free
      · obtain ⟨found, bound⟩ := contInduction free
        rw [Env.lookup_insertTerm, if_neg other] at bound
        exact ⟨found, bound⟩

theorem Infers.mem_types_of_occursFreeType {v : TyVar} (inferred : Infers env expr ty)
    (free : expr.occursFreeType v = true) : v ∈ env.types := by
  induction inferred with
  | lit | var _ => simp [Expr.occursFreeType] at free
  | abs inScope _ bodyInduction =>
      rcases Bool.or_eq_true_iff.mp free with free | free
      · exact Env.mem_types_of_wellFormed inScope free
      · exact bodyInduction free
  | app _ _ _ funcInduction argInduction =>
      rcases Bool.or_eq_true_iff.mp free with free | free
      · exact funcInduction free
      · exact argInduction free
  | tabs _ bodyInduction =>
      simp only [Expr.occursFreeType, Bool.and_eq_true, bne_iff_ne] at free
      exact (Env.mem_types_insertType.mp (bodyInduction free.2)).resolve_left free.1
  | tapp _ inScope funcInduction =>
      rcases Bool.or_eq_true_iff.mp free with free | free
      · exact funcInduction free
      · exact Env.mem_types_of_wellFormed inScope free
  | pack witnessInScope inScope _ _ bodyInduction =>
      rcases Bool.or_eq_true_iff.mp free with early | inType
      · rcases Bool.or_eq_true_iff.mp early with free | free
        · exact Env.mem_types_of_wellFormed witnessInScope free
        · exact bodyInduction free
      · exact mem_types_of_packed inScope v ((Ty.occursFree_iff_mem_freeVars v _).mp inType)
  | unpack _ _ _ packedInduction contInduction =>
      simp only [Expr.occursFreeType, Bool.or_eq_true, Bool.and_eq_true, bne_iff_ne] at free
      rcases free with free | ⟨other, free⟩
      · exact packedInduction free
      · exact (Env.mem_types_insertType.mp (contInduction free)).resolve_left other

end Accepted

/-- A check either fails with a genuine error or finds every free variable of its term in
the environment. -/
theorem typeOfIn_genuine_or_scoped (env : Env) (expr : Expr) :
    (∀ error, typeOfIn env expr = .error error → Genuine env expr error) ∧
    ∀ ty, typeOfIn env expr = .ok ty →
      (∀ name, expr.occursFreeName name = true → ∃ found, env.lookup name = .ok found) ∧
      ∀ v, expr.occursFreeType v = true → env.containsType v = true := by
  constructor
  · intro error fails
    have outcome : (inferWith .bare env expr).outcome = .error error := fails
    exact genuine_of_failure outcome
  · intro ty found
    have inferred : Infers env expr ty := typeOfIn_eq_ok_iff.mp found
    constructor
    · intro name free
      exact inferred.lookup_of_occursFreeName free
    · intro v free
      exact inferred.mem_types_of_occursFreeType free

/-- The parameter `y` does not bind the argument `y`. -/
def strayArgument : Expr := .app (.abs "y" (.var ⟨7⟩) (.var "y")) (.var "y")

/-- A leak two binders below the term's root. -/
def buriedLeak : Expr :=
  .tabs ⟨2⟩ (.abs "z" (.var ⟨2⟩)
    (.unpack ⟨1⟩ "x" (.pack .int (.lit 42) ⟨0⟩ (.var ⟨0⟩)) (.var "x")))

theorem unbound_name_is_free_and_escape_has_opening :
    (typeOfIn (.insertType .empty ⟨7⟩) strayArgument = .error (.unboundVariable "y") ∧
      strayArgument.occursFreeName "y" = true) ∧
    (typeOfIn .empty buriedLeak = .error (.escape ⟨1⟩ (.var ⟨1⟩)) ∧
      ∃ path name packed cont, buriedLeak.at? path = some (.unpack ⟨1⟩ name packed cont)) ∧
    typeOfIn (.insertTerm (.insertType .empty ⟨7⟩) "y" (.var ⟨7⟩)) strayArgument =
        .ok (.var ⟨7⟩) ∧
      (Env.insertTerm (.insertType .empty ⟨7⟩) "y" (.var ⟨7⟩)).containsType ⟨7⟩ = true := by
  refine ⟨⟨rfl, ?_⟩, ⟨rfl, ?_⟩, rfl, ?_⟩
  · exact ((typeOfIn_genuine_or_scoped (.insertType .empty ⟨7⟩) strayArgument).1
      (.unboundVariable "y") rfl).1
  · exact ((typeOfIn_genuine_or_scoped .empty buriedLeak).1 (.escape ⟨1⟩ (.var ⟨1⟩)) rfl).1
  · exact ((typeOfIn_genuine_or_scoped _ strayArgument).2 (.var ⟨7⟩) rfl).2 ⟨7⟩ rfl

end PolyLambda
