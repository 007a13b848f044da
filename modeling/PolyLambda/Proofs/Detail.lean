import PolyLambda.Proofs.Inference

/-! # The detail of a derivation

No rule looks into the derivations of its premises.  A bare check therefore runs
as a full one does, and the derivation it returns is the full one cut down to its
last rule (`check_bare`). -/

set_option autoImplicit false

namespace PolyLambda

def Derivation.bared (derivation : Derivation) : Derivation := .node derivation.rule "" "" []

-- In each case the map moves inward to the conclusion.  There the two sides agree because
-- a bare conclusion holds nothing of its premises.
theorem check_bare (env : Env) (expr : Expr) :
    check .bare env expr = Prod.map id Derivation.bared <$> check .full env expr := by
  induction expr generalizing env with
  | lit value =>
      simp only [check, map_pure]
      rfl
  | var name =>
      simp only [check, map_bind, map_pure]
      rfl
  | abs param paramTy body bodyInduction =>
      simp only [check, bodyInduction, bind_map_left, map_bind, map_pure]
      rfl
  | app func arg funcInduction argInduction =>
      simp only [check, funcInduction, argInduction, bind_map_left, map_bind, map_pure,
        Run.map_fail, apply_ite (Functor.map (Prod.map id Derivation.bared))]
      rfl
  | tabs v body bodyInduction =>
      simp only [check, bodyInduction, bind_map_left, map_bind, map_pure]
      rfl
  | tapp func arg funcInduction =>
      simp only [check, funcInduction, bind_map_left, map_bind, map_pure]
      rfl
  | pack witness body v bodyTy bodyInduction =>
      simp only [check, bodyInduction, bind_map_left, map_bind, map_pure, Run.map_fail,
        apply_ite (Functor.map (Prod.map id Derivation.bared))]
      rfl
  | unpack v name packed cont packedInduction contInduction =>
      simp only [check, packedInduction, contInduction, bind_map_left, map_bind, map_pure,
        Run.map_fail, apply_ite (Functor.map (Prod.map id Derivation.bared))]
      rfl

theorem outcome_check_bare (env : Env) (expr : Expr) :
    (check .bare env expr).outcome =
      Prod.map id Derivation.bared <$> (check .full env expr).outcome := by
  rw [check_bare, Run.outcome_map]

/-- A full and a bare check announce the same events and end alike: with one type, where
the bare derivation is an empty node for the last rule of the full one, or with one error.
So the full check of a term gives its type once the derivation is dropped. -/
theorem check_full_and_bare_agree :
    (∀ (env : Env) (expr : Expr),
      (check .full env expr).events = (check .bare env expr).events ∧
      ((∃ (ty : Ty) (full bare : Derivation), (check .full env expr).outcome = .ok (ty, full) ∧
          (check .bare env expr).outcome = .ok (ty, bare) ∧ bare.rule = full.rule ∧
          bare.input = "" ∧ bare.output = "" ∧ bare.premises = []) ∨
        ∃ error : TypeError, (check .full env expr).outcome = .error error ∧
          (check .bare env expr).outcome = .error error)) ∧
    ∀ expr : Expr, Prod.fst <$> derive expr = typeOf expr := by
  constructor
  · intro env expr
    have events : (check .full env expr).events = (check .bare env expr).events := by
      rw [check_bare, Run.events_map]
    have outcome := outcome_check_bare env expr
    refine ⟨events, ?_⟩
    cases ended : (check .full env expr).outcome with
    | ok found =>
        obtain ⟨ty, full⟩ := found
        rw [ended] at outcome
        exact .inl ⟨ty, full, full.bared, rfl, outcome, rfl, rfl, rfl, rfl⟩
    | error error =>
        rw [ended] at outcome
        exact .inr ⟨error, rfl, outcome⟩
  · intro expr
    have dropped : typeOf expr = Prod.fst <$> (check .bare .empty expr).outcome :=
      Run.outcome_map Prod.fst (check .bare .empty expr)
    rw [dropped, outcome_check_bare, ← comp_map]
    rfl

end PolyLambda
