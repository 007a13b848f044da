import PolyLambda.Proofs.Inference
import PolyLambda.Proofs.Positions

/-! # What a full derivation records

`Concludes` says what a full check that succeeds makes of its premises: the type, the
last node of the derivation and the events.  So each premise of a node is the full
derivation of a part of the term, in the environment of that part (`Concludes.premise`),
and by induction on positions every node is the full derivation of the subterm at its
position. -/

set_option autoImplicit false

namespace PolyLambda

inductive Concludes : Env → Expr → Ty → Derivation → List Event → Prop where
  | lit {env : Env} {value : Int64} :
      Concludes env (.lit value) .int (.conclude .full .int env (.lit value) .int []) []
  | var {env : Env} {name : String} {ty : Ty} :
      Concludes env (.var name) ty (.conclude .full .var env (.var name) ty []) [.var name ty]
  | abs {env : Env} {param : String} {paramTy bodyTy : Ty} {body : Expr} {premise : Derivation}
      (derived : deriveIn (env.insertTerm param paramTy) body = .ok (bodyTy, premise)) :
      Concludes env (.abs param paramTy body) (.arrow paramTy bodyTy)
        (.conclude .full .abs env (.abs param paramTy body) (.arrow paramTy bodyTy) [premise])
        ((check .full (env.insertTerm param paramTy) body).events ++
          [.abs param (.arrow paramTy bodyTy)])
  | app {env : Env} {func arg : Expr} {domain codomain argTy : Ty} {first second : Derivation}
      (derivedFunc : deriveIn env func = .ok (.arrow domain codomain, first))
      (derivedArg : deriveIn env arg = .ok (argTy, second)) :
      Concludes env (.app func arg) codomain
        (.conclude .full .app env (.app func arg) codomain [first, second])
        ((check .full env func).events ++ ((check .full env arg).events ++
          [.alphaEq domain argTy, .app codomain]))
  | tabs {env : Env} {v : TyVar} {body : Expr} {bodyTy : Ty} {premise : Derivation}
      (derived : deriveIn (env.insertType v) body = .ok (bodyTy, premise)) :
      Concludes env (.tabs v body) (.all v bodyTy)
        (.conclude .full .tabs env (.tabs v body) (.all v bodyTy) [premise])
        ((check .full (env.insertType v) body).events ++ [.tabs v (.all v bodyTy)])
  | tapp {env : Env} {func : Expr} {arg body : Ty} {v : TyVar} {premise : Derivation}
      (derived : deriveIn env func = .ok (.all v body, premise)) :
      Concludes env (.tapp func arg) (body.subst v arg)
        (.conclude .full .tapp env (.tapp func arg) (body.subst v arg) [premise])
        ((check .full env func).events ++
          [.subst v arg body, .tapp v arg (body.subst v arg)])
  | pack {env : Env} {witness bodyTy actual : Ty} {body : Expr} {v : TyVar} {premise : Derivation}
      (derived : deriveIn env body = .ok (actual, premise)) :
      Concludes env (.pack witness body v bodyTy) (.ex v bodyTy)
        (.conclude .full .pack env (.pack witness body v bodyTy) (.ex v bodyTy) [premise])
        ((check .full env body).events ++ [.subst v witness bodyTy,
          .alphaEq (bodyTy.subst v witness) actual, .pack witness (.ex v bodyTy)])
  | unpack {env : Env} {v bound : TyVar} {name : String} {packed cont : Expr} {body ty : Ty}
      {first second : Derivation}
      (derivedPacked : deriveIn env packed = .ok (.ex bound body, first))
      (derivedCont : deriveIn ((env.insertType v).insertTerm name (body.subst bound (.var v))) cont =
        .ok (ty, second)) :
      Concludes env (.unpack v name packed cont) ty
        (.conclude .full .unpack env (.unpack v name packed cont) ty [first, second])
        ((check .full env packed).events ++ ([.subst bound (.var v) body] ++
          ((check .full ((env.insertType v).insertTerm name (body.subst bound (.var v)))
            cont).events ++ [.unpack v name ty])))

theorem concludes_of_derived {env : Env} {expr : Expr} {ty : Ty} {derivation : Derivation}
    (derived : deriveIn env expr = .ok (ty, derivation)) :
    Concludes env expr ty derivation (check .full env expr).events := by
  -- The outcome is peeled as far as the rule goes; what it shows about each step then
  -- evaluates the events.
  cases expr with
  | lit value =>
      rw [deriveIn, check] at derived
      cases derived
      exact .lit
  | var name =>
      rw [deriveIn, check] at derived
      obtain ⟨ty', found, derived⟩ := Run.outcome_bind_eq_ok_iff.mp derived
      simp only [check, Run.bind_of_ok found]
      cases derived
      exact .var
  | abs param paramTy body =>
      rw [deriveIn, check] at derived
      obtain ⟨_, inScope, derived⟩ := Run.outcome_bind_eq_ok_iff.mp derived
      obtain ⟨⟨bodyTy, premise⟩, inBody, derived⟩ := Run.outcome_bind_eq_ok_iff.mp derived
      simp only [check, Run.bind_of_ok inScope, Run.bind_of_ok inBody]
      cases derived
      exact .abs inBody
  | app func arg =>
      rw [deriveIn, check] at derived
      obtain ⟨⟨funcTy, first⟩, inFunc, derived⟩ := Run.outcome_bind_eq_ok_iff.mp derived
      obtain ⟨⟨domain, codomain⟩, shape, derived⟩ := Run.outcome_bind_eq_ok_iff.mp derived
      obtain ⟨⟨argTy, second⟩, inArg, derived⟩ := Run.outcome_bind_eq_ok_iff.mp derived
      obtain ⟨same, compared, derived⟩ := Run.outcome_bind_eq_ok_iff.mp derived
      simp only [check, Run.bind_of_ok inFunc, Run.bind_of_ok shape, Run.bind_of_ok inArg,
        Run.bind_of_ok compared]
      rw [Ty.asArrow_eq_ok shape] at inFunc
      cases same with
      | false => cases derived
      | true =>
          cases derived
          exact .app inFunc inArg
  | tabs v body =>
      rw [deriveIn, check] at derived
      obtain ⟨⟨bodyTy, premise⟩, inBody, derived⟩ := Run.outcome_bind_eq_ok_iff.mp derived
      simp only [check, Run.bind_of_ok inBody]
      cases derived
      exact .tabs inBody
  | tapp func arg =>
      rw [deriveIn, check] at derived
      obtain ⟨⟨funcTy, premise⟩, inFunc, derived⟩ := Run.outcome_bind_eq_ok_iff.mp derived
      obtain ⟨⟨v, body⟩, shape, derived⟩ := Run.outcome_bind_eq_ok_iff.mp derived
      obtain ⟨_, inScope, derived⟩ := Run.outcome_bind_eq_ok_iff.mp derived
      simp only [check, Run.bind_of_ok inFunc, Run.bind_of_ok shape, Run.bind_of_ok inScope]
      rw [Ty.asForall_eq_ok shape] at inFunc
      cases derived
      exact .tapp inFunc
  | pack witness body v bodyTy =>
      rw [deriveIn, check] at derived
      obtain ⟨_, witnessInScope, derived⟩ := Run.outcome_bind_eq_ok_iff.mp derived
      obtain ⟨_, inScope, derived⟩ := Run.outcome_bind_eq_ok_iff.mp derived
      obtain ⟨⟨actual, premise⟩, inBody, derived⟩ := Run.outcome_bind_eq_ok_iff.mp derived
      obtain ⟨expected, substituted, derived⟩ := Run.outcome_bind_eq_ok_iff.mp derived
      obtain ⟨same, compared, derived⟩ := Run.outcome_bind_eq_ok_iff.mp derived
      simp only [check, Run.bind_of_ok witnessInScope, Run.bind_of_ok inScope,
        Run.bind_of_ok inBody, Run.bind_of_ok substituted, Run.bind_of_ok compared]
      cases same with
      | false => cases derived
      | true =>
          cases derived
          cases substituted
          exact .pack inBody
  | unpack v name packed cont =>
      rw [deriveIn, check] at derived
      obtain ⟨⟨packedTy, first⟩, inPacked, derived⟩ := Run.outcome_bind_eq_ok_iff.mp derived
      obtain ⟨⟨bound, body⟩, shape, derived⟩ := Run.outcome_bind_eq_ok_iff.mp derived
      obtain ⟨opened, substituted, derived⟩ := Run.outcome_bind_eq_ok_iff.mp derived
      obtain ⟨⟨contTy, second⟩, inCont, derived⟩ := Run.outcome_bind_eq_ok_iff.mp derived
      simp only [check, Run.bind_of_ok inPacked, Run.bind_of_ok shape, Run.bind_of_ok substituted,
        Run.bind_of_ok inCont]
      rw [Ty.asExists_eq_ok shape] at inPacked
      by_cases stays : contTy.notEscape v = true
      · simp only [if_pos stays] at derived ⊢
        cases derived
        cases substituted
        exact .unpack inPacked inCont
      · simp only [if_neg stays] at derived
        cases derived

theorem typeOfIn_of_derived {env : Env} {expr : Expr} {ty : Ty} {derivation : Derivation}
    (derived : deriveIn env expr = .ok (ty, derivation)) : typeOfIn env expr = .ok ty :=
  typeOfIn_eq_ok_iff.mpr (infers_of_check derived)

namespace Concludes

variable {env : Env} {expr : Expr} {ty : Ty} {derivation : Derivation} {events : List Event}

theorem node (concludes : Concludes env expr ty derivation events) :
    derivation.rule = expr.rule ∧
      derivation.input = env.render ++ " ⊢ " ++ expr.render ++ " ⇒" ∧
      derivation.output = ty.render ∧ derivation.premises.length = expr.parts.length := by
  cases concludes <;> exact ⟨rfl, rfl, rfl, rfl⟩

/-- The premises of a conclusion are the derivations of the parts of its term, in order. -/
theorem premise (concludes : Concludes env expr ty derivation events) {k : Nat} {part : Expr}
    (there : expr.parts[k]? = some part) :
    ∃ (inner : Env) (partTy : Ty) (premise : Derivation), env.enter? expr k = some inner ∧
      derivation.premises[k]? = some premise ∧ deriveIn inner part = .ok (partTy, premise) := by
  cases concludes with
  | lit | var => cases there
  | abs inPart | tabs inPart | tapp inPart | pack inPart =>
      cases k with
      | zero =>
          cases there
          exact ⟨_, _, _, rfl, rfl, inPart⟩
      | succ k => cases there
  | app inFunc inArg =>
      match k, there with
      | 0, there =>
          cases there
          exact ⟨_, _, _, rfl, rfl, inFunc⟩
      | 1, there =>
          cases there
          exact ⟨_, _, _, rfl, rfl, inArg⟩
  | unpack inPacked inCont =>
      match k, there with
      | 0, there =>
          cases there
          exact ⟨_, _, _, rfl, rfl, inPacked⟩
      | 1, there =>
          cases there
          refine ⟨_, _, _, ?_, rfl, inCont⟩
          simp only [Env.enter?, typeOfIn_of_derived inPacked]

end Concludes

/-- `unpack [t1, x] = pack [Int, 42] as ∃t0. t0 in (λy: t1. 5) x` -/
def sealedUse : Expr :=
  .unpack ⟨1⟩ "x" (.pack .int (.lit 42) ⟨0⟩ (.var ⟨0⟩))
    (.app (.abs "y" (.var ⟨1⟩) (.lit 5)) (.var "x"))

end PolyLambda
