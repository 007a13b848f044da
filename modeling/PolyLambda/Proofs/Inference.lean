import PolyLambda.Check

/-! # The rules of checking

`Infers` states the rules that `check` applies, one for each form of term, and
`typeOfIn_eq_ok_iff` says that a term has a type exactly when the rules give it.
How much of the derivation is kept makes no difference. -/

set_option autoImplicit false

namespace PolyLambda

namespace Run

variable {α β : Type}

theorem outcome_bind (run : Run α) (next : α → Run β) :
    (run >>= next).outcome = run.outcome >>= fun a => (next a).outcome := by
  cases ended : run.outcome with
  | ok a =>
      rw [bind_of_ok ended]
      rfl
  | error cause =>
      rw [bind_of_error ended]
      rfl

theorem outcome_bind_eq_ok_iff {run : Run α} {next : α → Run β} {b : β} :
    (run >>= next).outcome = .ok b ↔ ∃ a, run.outcome = .ok a ∧ (next a).outcome = .ok b := by
  cases ended : run.outcome with
  | ok a => simp [bind_of_ok ended]
  | error cause => simp [bind_of_error ended]

theorem outcome_bind_eq_error_iff {run : Run α} {next : α → Run β} {error : TypeError} :
    (run >>= next).outcome = .error error ↔
      run.outcome = .error error ∨ ∃ a, run.outcome = .ok a ∧ (next a).outcome = .error error := by
  cases ended : run.outcome with
  | ok a => simp [bind_of_ok ended]
  | error cause => simp [bind_of_error ended]

theorem mem_events_bind_iff {run : Run α} {next : α → Run β} {event : Event} :
    event ∈ (run >>= next).events ↔
      event ∈ run.events ∨ ∃ a, run.outcome = .ok a ∧ event ∈ (next a).events := by
  cases ended : run.outcome with
  | ok a => simp [bind_of_ok ended]
  | error cause => simp [bind_of_error ended]

theorem events_map (f : α → β) (run : Run α) : (f <$> run).events = run.events := by
  rw [map_eq_pure_bind]
  cases ended : run.outcome with
  | ok a => simp [bind_of_ok ended, pure]
  | error cause => simp [bind_of_error ended]

theorem outcome_map (f : α → β) (run : Run α) : (f <$> run).outcome = f <$> run.outcome := by
  rw [map_eq_pure_bind]
  cases ended : run.outcome with
  | ok a =>
      rw [bind_of_ok ended]
      rfl
  | error cause =>
      rw [bind_of_error ended]
      rfl

theorem map_fail (f : α → β) (error : TypeError) : f <$> fail error = fail error := rfl

end Run

/-! ## One equation for each form of term -/

/-- The run of `check` without the derivation it builds. -/
def inferWith (detail : Detail) (env : Env) (expr : Expr) : Run Ty :=
  Prod.fst <$> check detail env expr

section Equations

variable (detail : Detail) (env : Env)

theorem inferWith_lit (value : Int64) : inferWith detail env (.lit value) = pure .int := by
  simp [inferWith, check]

theorem inferWith_var (name : String) :
    inferWith detail env (.var name) = (do
      let ty ← Run.ofExcept (env.lookup name)
      Run.emit (.var name ty)
      return ty) := by
  simp [inferWith, check]

theorem inferWith_abs (param : String) (paramTy : Ty) (body : Expr) :
    inferWith detail env (.abs param paramTy body) = (do
      Run.ofExcept (env.wellFormed paramTy)
      let bodyTy ← inferWith detail (env.insertTerm param paramTy) body
      Run.emit (.abs param (.arrow paramTy bodyTy))
      return .arrow paramTy bodyTy) := by
  simp [inferWith, check]

theorem inferWith_app (func arg : Expr) :
    inferWith detail env (.app func arg) = (do
      let funcTy ← inferWith detail env func
      let (domain, codomain) ← Run.ofExcept funcTy.asArrow
      let argTy ← inferWith detail env arg
      if ← domain.alphaEqRun argTy then
        Run.emit (.app codomain)
        return codomain
      else
        Run.emit (.argumentMismatch domain argTy)
        Run.fail (.typeMismatch domain argTy)) := by
  simp [inferWith, check, apply_ite (Functor.map Prod.fst), Run.map_fail]

theorem inferWith_tabs (v : TyVar) (body : Expr) :
    inferWith detail env (.tabs v body) = (do
      let bodyTy ← inferWith detail (env.insertType v) body
      Run.emit (.tabs v (.all v bodyTy))
      return .all v bodyTy) := by
  simp [inferWith, check]

theorem inferWith_tapp (func : Expr) (arg : Ty) :
    inferWith detail env (.tapp func arg) = (do
      let funcTy ← inferWith detail env func
      let (v, body) ← Run.ofExcept funcTy.asForall
      Run.ofExcept (env.wellFormed arg)
      let ty ← body.substRun v arg
      Run.emit (.tapp v arg ty)
      return ty) := by
  simp [inferWith, check]

theorem inferWith_pack (witness : Ty) (body : Expr) (v : TyVar) (bodyTy : Ty) :
    inferWith detail env (.pack witness body v bodyTy) = (do
      Run.ofExcept (env.wellFormed witness)
      Run.ofExcept ((env.insertType v).wellFormed (.ex v bodyTy))
      let actual ← inferWith detail env body
      let expected ← bodyTy.substRun v witness
      if ← expected.alphaEqRun actual then
        Run.emit (.pack witness (.ex v bodyTy))
        return .ex v bodyTy
      else
        Run.emit (.bodyMismatch expected actual)
        Run.fail (.typeMismatch expected actual)) := by
  simp [inferWith, check, apply_ite (Functor.map Prod.fst), Run.map_fail]

theorem inferWith_unpack (v : TyVar) (name : String) (packed cont : Expr) :
    inferWith detail env (.unpack v name packed cont) = (do
      let packedTy ← inferWith detail env packed
      let (bound, body) ← Run.ofExcept packedTy.asExists
      let opened ← body.substRun bound (.var v)
      let ty ← inferWith detail ((env.insertType v).insertTerm name opened) cont
      if ty.notEscape v then
        Run.emit (.unpack v name ty)
        return ty
      else
        Run.emit (.escape v ty)
        Run.fail (.escape v ty)) := by
  simp [inferWith, check, apply_ite (Functor.map Prod.fst), Run.map_fail]

end Equations

/-! ## The rules -/

inductive Infers : Env → Expr → Ty → Prop where
  | lit {env : Env} {value : Int64} : Infers env (.lit value) .int
  | var {env : Env} {name : String} {ty : Ty} (found : env.lookup name = .ok ty) :
      Infers env (.var name) ty
  | abs {env : Env} {param : String} {paramTy bodyTy : Ty} {body : Expr}
      (inScope : env.wellFormed paramTy = .ok ())
      (inferred : Infers (env.insertTerm param paramTy) body bodyTy) :
      Infers env (.abs param paramTy body) (.arrow paramTy bodyTy)
  | app {env : Env} {func arg : Expr} {domain codomain argTy : Ty}
      (inferredFunc : Infers env func (.arrow domain codomain))
      (inferredArg : Infers env arg argTy) (accepted : domain.alphaEq argTy = true) :
      Infers env (.app func arg) codomain
  | tabs {env : Env} {v : TyVar} {body : Expr} {bodyTy : Ty}
      (inferred : Infers (env.insertType v) body bodyTy) :
      Infers env (.tabs v body) (.all v bodyTy)
  | tapp {env : Env} {func : Expr} {arg body : Ty} {v : TyVar}
      (inferred : Infers env func (.all v body)) (inScope : env.wellFormed arg = .ok ()) :
      Infers env (.tapp func arg) (body.subst v arg)
  | pack {env : Env} {witness bodyTy actual : Ty} {body : Expr} {v : TyVar}
      (witnessInScope : env.wellFormed witness = .ok ())
      (inScope : (env.insertType v).wellFormed (.ex v bodyTy) = .ok ())
      (inferred : Infers env body actual)
      (accepted : (bodyTy.subst v witness).alphaEq actual = true) :
      Infers env (.pack witness body v bodyTy) (.ex v bodyTy)
  | unpack {env : Env} {v bound : TyVar} {name : String} {packed cont : Expr} {body ty : Ty}
      (inferredPacked : Infers env packed (.ex bound body))
      (inferredCont : Infers
        ((env.insertType v).insertTerm name (body.subst bound (.var v))) cont ty)
      (stays : ty.notEscape v = true) :
      Infers env (.unpack v name packed cont) ty

theorem Ty.asArrow_eq_ok {ty domain codomain : Ty} (shape : ty.asArrow = .ok (domain, codomain)) :
    ty = .arrow domain codomain := by
  cases ty with
  | arrow domain' codomain' => simpa [asArrow] using shape
  | _ => simp [asArrow] at shape

theorem Ty.asForall_eq_ok {ty body : Ty} {v : TyVar} (shape : ty.asForall = .ok (v, body)) :
    ty = .all v body := by
  cases ty with
  | quant q w body' =>
      cases q with
      | all => simpa [asForall] using shape
      | ex => simp [asForall] at shape
  | _ => simp [asForall] at shape

theorem Ty.asExists_eq_ok {ty body : Ty} {v : TyVar} (shape : ty.asExists = .ok (v, body)) :
    ty = .ex v body := by
  cases ty with
  | quant q w body' =>
      cases q with
      | all => simp [asExists] at shape
      | ex => simpa [asExists] using shape
  | _ => simp [asExists] at shape

theorem Ty.asArrow_eq_error {ty : Ty} {error : TypeError} (fails : ty.asArrow = .error error) :
    error = .notArrow ty ∧ ∀ domain codomain, ty ≠ .arrow domain codomain := by
  cases ty with
  | arrow domain codomain => cases fails
  | _ => exact ⟨(Except.error.inj fails).symm, nofun⟩

theorem Ty.asForall_eq_error {ty : Ty} {error : TypeError} (fails : ty.asForall = .error error) :
    error = .notForall ty ∧ ∀ v body, ty ≠ .all v body := by
  cases ty with
  | quant q v body =>
      cases q with
      | all => cases fails
      | ex => exact ⟨(Except.error.inj fails).symm, nofun⟩
  | _ => exact ⟨(Except.error.inj fails).symm, nofun⟩

theorem Ty.asExists_eq_error {ty : Ty} {error : TypeError} (fails : ty.asExists = .error error) :
    error = .notExists ty ∧ ∀ v body, ty ≠ .ex v body := by
  cases ty with
  | quant q v body =>
      cases q with
      | all => exact ⟨(Except.error.inj fails).symm, nofun⟩
      | ex => cases fails
  | _ => exact ⟨(Except.error.inj fails).symm, nofun⟩

theorem infers_of_outcome {detail : Detail} {env : Env} {expr : Expr} {ty : Ty}
    (found : (inferWith detail env expr).outcome = .ok ty) : Infers env expr ty := by
  induction expr generalizing env ty with
  | lit value =>
      rw [inferWith_lit] at found
      obtain rfl : Ty.int = ty := Except.ok.inj found
      exact .lit
  | var name =>
      rw [inferWith_var] at found
      obtain ⟨ty', looked, found⟩ := Run.outcome_bind_eq_ok_iff.mp found
      obtain rfl : ty' = ty := Except.ok.inj found
      exact .var looked
  | abs param paramTy body bodyInduction =>
      rw [inferWith_abs] at found
      obtain ⟨_, inScope, found⟩ := Run.outcome_bind_eq_ok_iff.mp found
      obtain ⟨bodyTy, inferred, found⟩ := Run.outcome_bind_eq_ok_iff.mp found
      obtain rfl : Ty.arrow paramTy bodyTy = ty := Except.ok.inj found
      exact .abs inScope (bodyInduction inferred)
  | app func arg funcInduction argInduction =>
      rw [inferWith_app] at found
      obtain ⟨funcTy, inferredFunc, found⟩ := Run.outcome_bind_eq_ok_iff.mp found
      obtain ⟨⟨domain, codomain⟩, shape, found⟩ := Run.outcome_bind_eq_ok_iff.mp found
      rw [Ty.asArrow_eq_ok shape] at inferredFunc
      obtain ⟨argTy, inferredArg, found⟩ := Run.outcome_bind_eq_ok_iff.mp found
      obtain ⟨same, compared, found⟩ := Run.outcome_bind_eq_ok_iff.mp found
      obtain rfl : domain.alphaEq argTy = same := Except.ok.inj compared
      split at found
      case isTrue accepted =>
        obtain rfl : codomain = ty := Except.ok.inj found
        exact .app (funcInduction inferredFunc) (argInduction inferredArg) accepted
      case isFalse => cases (found : Except.error _ = .ok ty)
  | tabs v body bodyInduction =>
      rw [inferWith_tabs] at found
      obtain ⟨bodyTy, inferred, found⟩ := Run.outcome_bind_eq_ok_iff.mp found
      obtain rfl : Ty.all v bodyTy = ty := Except.ok.inj found
      exact .tabs (bodyInduction inferred)
  | tapp func arg funcInduction =>
      rw [inferWith_tapp] at found
      obtain ⟨funcTy, inferred, found⟩ := Run.outcome_bind_eq_ok_iff.mp found
      obtain ⟨⟨v, body⟩, shape, found⟩ := Run.outcome_bind_eq_ok_iff.mp found
      rw [Ty.asForall_eq_ok shape] at inferred
      obtain ⟨_, inScope, found⟩ := Run.outcome_bind_eq_ok_iff.mp found
      obtain rfl : body.subst v arg = ty := Except.ok.inj found
      exact .tapp (funcInduction inferred) inScope
  | pack witness body v bodyTy bodyInduction =>
      rw [inferWith_pack] at found
      obtain ⟨_, witnessInScope, found⟩ := Run.outcome_bind_eq_ok_iff.mp found
      obtain ⟨_, inScope, found⟩ := Run.outcome_bind_eq_ok_iff.mp found
      obtain ⟨actual, inferred, found⟩ := Run.outcome_bind_eq_ok_iff.mp found
      obtain ⟨expected, substituted, found⟩ := Run.outcome_bind_eq_ok_iff.mp found
      obtain rfl : bodyTy.subst v witness = expected := Except.ok.inj substituted
      obtain ⟨same, compared, found⟩ := Run.outcome_bind_eq_ok_iff.mp found
      obtain rfl : (bodyTy.subst v witness).alphaEq actual = same := Except.ok.inj compared
      split at found
      case isTrue accepted =>
        obtain rfl : Ty.ex v bodyTy = ty := Except.ok.inj found
        exact .pack witnessInScope inScope (bodyInduction inferred) accepted
      case isFalse => cases (found : Except.error _ = .ok ty)
  | unpack v name packed cont packedInduction contInduction =>
      rw [inferWith_unpack] at found
      obtain ⟨packedTy, inferredPacked, found⟩ := Run.outcome_bind_eq_ok_iff.mp found
      obtain ⟨⟨bound, body⟩, shape, found⟩ := Run.outcome_bind_eq_ok_iff.mp found
      rw [Ty.asExists_eq_ok shape] at inferredPacked
      obtain ⟨opened, substituted, found⟩ := Run.outcome_bind_eq_ok_iff.mp found
      obtain rfl : body.subst bound (.var v) = opened := Except.ok.inj substituted
      obtain ⟨contTy, inferredCont, found⟩ := Run.outcome_bind_eq_ok_iff.mp found
      split at found
      case isTrue stays =>
        obtain rfl : contTy = ty := Except.ok.inj found
        exact .unpack (packedInduction inferredPacked) (contInduction inferredCont) stays
      case isFalse => cases (found : Except.error _ = .ok ty)

theorem infers_of_check {detail : Detail} {env : Env} {expr : Expr} {ty : Ty}
    {derivation : Derivation} (found : (check detail env expr).outcome = .ok (ty, derivation)) :
    Infers env expr ty := by
  have dropped : (inferWith detail env expr).outcome = .ok ty := by
    rw [inferWith, map_eq_pure_bind]
    exact Run.outcome_bind_eq_ok_iff.mpr ⟨_, found, rfl⟩
  exact infers_of_outcome dropped

theorem Infers.outcome (detail : Detail) {env : Env} {expr : Expr} {ty : Ty}
    (inferred : Infers env expr ty) : (inferWith detail env expr).outcome = .ok ty := by
  induction inferred with
  | lit => rw [inferWith_lit]; rfl
  | var found =>
      rw [inferWith_var]
      exact Run.outcome_bind_eq_ok_iff.mpr ⟨_, found, rfl⟩
  | abs inScope _ bodyOutcome =>
      rw [inferWith_abs]
      refine Run.outcome_bind_eq_ok_iff.mpr ⟨(), inScope, ?_⟩
      exact Run.outcome_bind_eq_ok_iff.mpr ⟨_, bodyOutcome, rfl⟩
  | app _ _ accepted funcOutcome argOutcome =>
      rw [inferWith_app]
      refine Run.outcome_bind_eq_ok_iff.mpr ⟨_, funcOutcome, ?_⟩
      refine Run.outcome_bind_eq_ok_iff.mpr ⟨_, rfl, ?_⟩
      refine Run.outcome_bind_eq_ok_iff.mpr ⟨_, argOutcome, ?_⟩
      refine Run.outcome_bind_eq_ok_iff.mpr ⟨true, congrArg Except.ok accepted, rfl⟩
  | tabs _ bodyOutcome =>
      rw [inferWith_tabs]
      exact Run.outcome_bind_eq_ok_iff.mpr ⟨_, bodyOutcome, rfl⟩
  | tapp _ inScope funcOutcome =>
      rw [inferWith_tapp]
      refine Run.outcome_bind_eq_ok_iff.mpr ⟨_, funcOutcome, ?_⟩
      refine Run.outcome_bind_eq_ok_iff.mpr ⟨_, rfl, ?_⟩
      exact Run.outcome_bind_eq_ok_iff.mpr ⟨(), inScope, rfl⟩
  | pack witnessInScope inScope _ accepted bodyOutcome =>
      rw [inferWith_pack]
      refine Run.outcome_bind_eq_ok_iff.mpr ⟨(), witnessInScope, ?_⟩
      refine Run.outcome_bind_eq_ok_iff.mpr ⟨(), inScope, ?_⟩
      refine Run.outcome_bind_eq_ok_iff.mpr ⟨_, bodyOutcome, ?_⟩
      refine Run.outcome_bind_eq_ok_iff.mpr ⟨_, rfl, ?_⟩
      exact Run.outcome_bind_eq_ok_iff.mpr ⟨true, congrArg Except.ok accepted, rfl⟩
  | unpack _ _ stays packedOutcome contOutcome =>
      rw [inferWith_unpack]
      refine Run.outcome_bind_eq_ok_iff.mpr ⟨_, packedOutcome, ?_⟩
      refine Run.outcome_bind_eq_ok_iff.mpr ⟨_, rfl, ?_⟩
      refine Run.outcome_bind_eq_ok_iff.mpr ⟨_, rfl, ?_⟩
      refine Run.outcome_bind_eq_ok_iff.mpr ⟨_, contOutcome, ?_⟩
      rw [if_pos stays]
      rfl

theorem typeOfIn_eq_ok_iff {env : Env} {expr : Expr} {ty : Ty} :
    typeOfIn env expr = .ok ty ↔ Infers env expr ty :=
  ⟨fun found => infers_of_outcome (found : (inferWith .bare env expr).outcome = .ok ty),
    Infers.outcome .bare⟩

end PolyLambda
