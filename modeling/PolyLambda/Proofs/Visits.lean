import PolyLambda.Proofs.Inference
import PolyLambda.Proofs.Positions

/-! # The checks below a check

`Premise` relates a check to the checks it starts while it runs, whether it
succeeds in the end or not, and `Visits` relates it to all checks below it.  The
substitutions and comparisons of a run are its trace events, and each of them is
an `OwnCall` of one of the checks visited. -/

set_option autoImplicit false

namespace PolyLambda

inductive Premise : Env → Expr → Env → Expr → Prop where
  | body {env : Env} {param : String} {paramTy : Ty} {body : Expr}
      (inScope : env.wellFormed paramTy = .ok ()) :
      Premise env (.abs param paramTy body) (env.insertTerm param paramTy) body
  | func {env : Env} {func arg : Expr} : Premise env (.app func arg) env func
  | arg {env : Env} {func arg : Expr} {domain codomain : Ty}
      (inferred : Infers env func (.arrow domain codomain)) : Premise env (.app func arg) env arg
  | abstracted {env : Env} {v : TyVar} {body : Expr} :
      Premise env (.tabs v body) (env.insertType v) body
  | instantiated {env : Env} {func : Expr} {arg : Ty} : Premise env (.tapp func arg) env func
  | sealed {env : Env} {witness bodyTy : Ty} {body : Expr} {v : TyVar}
      (witnessInScope : env.wellFormed witness = .ok ())
      (inScope : (env.insertType v).wellFormed (.ex v bodyTy) = .ok ()) :
      Premise env (.pack witness body v bodyTy) env body
  | packed {env : Env} {v : TyVar} {name : String} {packed cont : Expr} :
      Premise env (.unpack v name packed cont) env packed
  | cont {env : Env} {v bound : TyVar} {name : String} {packed cont : Expr} {body : Ty}
      (inferred : Infers env packed (.ex bound body)) :
      Premise env (.unpack v name packed cont)
        ((env.insertType v).insertTerm name (body.subst bound (.var v))) cont

inductive Visits : Env → Expr → Env → Expr → Prop where
  | refl (env : Env) (expr : Expr) : Visits env expr env expr
  | step {env env₁ env₂ : Env} {expr expr₁ expr₂ : Expr} (premise : Premise env expr env₁ expr₁)
      (rest : Visits env₁ expr₁ env₂ expr₂) : Visits env expr env₂ expr₂

/-- The substitutions and comparisons that a check makes itself. -/
inductive OwnCall : Env → Expr → Event → Prop where
  | compareArg {env : Env} {func arg : Expr} {domain codomain argTy : Ty}
      (inferredFunc : Infers env func (.arrow domain codomain))
      (inferredArg : Infers env arg argTy) : OwnCall env (.app func arg) (.alphaEq domain argTy)
  | instantiate {env : Env} {func : Expr} {arg body : Ty} {v : TyVar}
      (inferred : Infers env func (.all v body)) (inScope : env.wellFormed arg = .ok ()) :
      OwnCall env (.tapp func arg) (.subst v arg body)
  | expect {env : Env} {witness bodyTy actual : Ty} {body : Expr} {v : TyVar}
      (witnessInScope : env.wellFormed witness = .ok ())
      (inScope : (env.insertType v).wellFormed (.ex v bodyTy) = .ok ())
      (inferred : Infers env body actual) :
      OwnCall env (.pack witness body v bodyTy) (.subst v witness bodyTy)
  | comparePacked {env : Env} {witness bodyTy actual : Ty} {body : Expr} {v : TyVar}
      (witnessInScope : env.wellFormed witness = .ok ())
      (inScope : (env.insertType v).wellFormed (.ex v bodyTy) = .ok ())
      (inferred : Infers env body actual) :
      OwnCall env (.pack witness body v bodyTy) (.alphaEq (bodyTy.subst v witness) actual)
  | openPacked {env : Env} {v bound : TyVar} {name : String} {packed cont : Expr} {body : Ty}
      (inferred : Infers env packed (.ex bound body)) :
      OwnCall env (.unpack v name packed cont) (.subst bound (.var v) body)

theorem eq_of_mem_events_substRun {v : TyVar} {replacement ty : Ty} {event : Event}
    (announced : event ∈ (ty.substRun v replacement).events) :
    event = .subst v replacement ty :=
  List.mem_singleton.mp announced

theorem eq_of_mem_events_alphaEqRun {left right : Ty} {event : Event}
    (announced : event ∈ (left.alphaEqRun right).events) : event = .alphaEq left right :=
  List.mem_singleton.mp announced

/-- What a rule announces once its premises hold is on the debug level. -/
theorem not_mem_events_emit {α : Type} {rule event : Event} {next : Run α}
    (debug : rule.level = .debug) (traced : event.level = .trace) (quiet : next.events = []) :
    event ∉ (Run.emit rule >>= fun _ => next).events := by
  intro announced
  rcases Run.mem_events_bind_iff.mp announced with own | ⟨_, -, later⟩
  · rw [List.mem_singleton.mp own, debug] at traced
    exact Level.noConfusion traced
  · rw [quiet] at later
    exact List.not_mem_nil later

theorem call_cases {detail : Detail} {env : Env} {expr : Expr} {event : Event}
    (traced : event.level = .trace) (announced : event ∈ (inferWith detail env expr).events) :
    OwnCall env expr event ∨ ∃ env' expr', Premise env expr env' expr' ∧
      event ∈ (inferWith detail env' expr').events := by
  cases expr with
  | lit value =>
      rw [inferWith_lit] at announced
      exact absurd announced List.not_mem_nil
  | var name =>
      rw [inferWith_var] at announced
      rcases Run.mem_events_bind_iff.mp announced with early | ⟨ty, -, announced⟩
      · exact absurd early List.not_mem_nil
      · exact absurd announced (not_mem_events_emit rfl traced rfl)
  | abs param paramTy body =>
      rw [inferWith_abs] at announced
      rcases Run.mem_events_bind_iff.mp announced with early | ⟨_, inScope, announced⟩
      · exact absurd early List.not_mem_nil
      rcases Run.mem_events_bind_iff.mp announced with inside | ⟨bodyTy, -, announced⟩
      · exact .inr ⟨_, _, .body inScope, inside⟩
      · exact absurd announced (not_mem_events_emit rfl traced rfl)
  | app func arg =>
      rw [inferWith_app] at announced
      rcases Run.mem_events_bind_iff.mp announced with inside | ⟨funcTy, funcOutcome, announced⟩
      · exact .inr ⟨_, _, .func, inside⟩
      rcases Run.mem_events_bind_iff.mp announced with early | ⟨⟨domain, codomain⟩, shape, announced⟩
      · exact absurd early List.not_mem_nil
      have inferredFunc : Infers env func (.arrow domain codomain) := by
        rw [Ty.asArrow_eq_ok shape] at funcOutcome
        exact infers_of_outcome funcOutcome
      rcases Run.mem_events_bind_iff.mp announced with inside | ⟨argTy, argOutcome, announced⟩
      · exact .inr ⟨_, _, .arg inferredFunc, inside⟩
      rcases Run.mem_events_bind_iff.mp announced with own | ⟨same, -, announced⟩
      · rw [eq_of_mem_events_alphaEqRun own]
        exact .inl (.compareArg inferredFunc (infers_of_outcome argOutcome))
      split at announced
      · exact absurd announced (not_mem_events_emit rfl traced rfl)
      · exact absurd announced (not_mem_events_emit rfl traced rfl)
  | tabs v body =>
      rw [inferWith_tabs] at announced
      rcases Run.mem_events_bind_iff.mp announced with inside | ⟨bodyTy, -, announced⟩
      · exact .inr ⟨_, _, .abstracted, inside⟩
      · exact absurd announced (not_mem_events_emit rfl traced rfl)
  | tapp func arg =>
      rw [inferWith_tapp] at announced
      rcases Run.mem_events_bind_iff.mp announced with inside | ⟨funcTy, funcOutcome, announced⟩
      · exact .inr ⟨_, _, .instantiated, inside⟩
      rcases Run.mem_events_bind_iff.mp announced with early | ⟨⟨v, body⟩, shape, announced⟩
      · exact absurd early List.not_mem_nil
      rcases Run.mem_events_bind_iff.mp announced with early | ⟨_, inScope, announced⟩
      · exact absurd early List.not_mem_nil
      rcases Run.mem_events_bind_iff.mp announced with own | ⟨ty, -, announced⟩
      · rw [Ty.asForall_eq_ok shape] at funcOutcome
        rw [eq_of_mem_events_substRun own]
        exact .inl (.instantiate (infers_of_outcome funcOutcome) inScope)
      · exact absurd announced (not_mem_events_emit rfl traced rfl)
  | pack witness body v bodyTy =>
      rw [inferWith_pack] at announced
      rcases Run.mem_events_bind_iff.mp announced with early | ⟨_, witnessInScope, announced⟩
      · exact absurd early List.not_mem_nil
      rcases Run.mem_events_bind_iff.mp announced with early | ⟨_, inScope, announced⟩
      · exact absurd early List.not_mem_nil
      rcases Run.mem_events_bind_iff.mp announced with inside | ⟨actual, outcome, announced⟩
      · exact .inr ⟨_, _, .sealed witnessInScope inScope, inside⟩
      have inferred : Infers env body actual := infers_of_outcome outcome
      rcases Run.mem_events_bind_iff.mp announced with own | ⟨expected, substituted, announced⟩
      · rw [eq_of_mem_events_substRun own]
        exact .inl (.expect witnessInScope inScope inferred)
      obtain rfl : bodyTy.subst v witness = expected := Except.ok.inj substituted
      rcases Run.mem_events_bind_iff.mp announced with own | ⟨same, -, announced⟩
      · rw [eq_of_mem_events_alphaEqRun own]
        exact .inl (.comparePacked witnessInScope inScope inferred)
      split at announced
      · exact absurd announced (not_mem_events_emit rfl traced rfl)
      · exact absurd announced (not_mem_events_emit rfl traced rfl)
  | unpack v name packed cont =>
      rw [inferWith_unpack] at announced
      rcases Run.mem_events_bind_iff.mp announced with inside | ⟨packedTy, outcome, announced⟩
      · exact .inr ⟨_, _, .packed, inside⟩
      rcases Run.mem_events_bind_iff.mp announced with early | ⟨⟨bound, body⟩, shape, announced⟩
      · exact absurd early List.not_mem_nil
      have inferred : Infers env packed (.ex bound body) := by
        rw [Ty.asExists_eq_ok shape] at outcome
        exact infers_of_outcome outcome
      rcases Run.mem_events_bind_iff.mp announced with own | ⟨opened, substituted, announced⟩
      · rw [eq_of_mem_events_substRun own]
        exact .inl (.openPacked inferred)
      obtain rfl : body.subst bound (.var v) = opened := Except.ok.inj substituted
      rcases Run.mem_events_bind_iff.mp announced with inside | ⟨ty, -, announced⟩
      · exact .inr ⟨_, _, .cont inferred, inside⟩
      split at announced
      · exact absurd announced (not_mem_events_emit rfl traced rfl)
      · exact absurd announced (not_mem_events_emit rfl traced rfl)

theorem Premise.mem_parts {env env' : Env} {expr part : Expr}
    (premise : Premise env expr env' part) : part ∈ expr.parts := by
  cases premise <;> simp [Expr.parts]

theorem exists_visited_call {detail : Detail} {env : Env} {expr : Expr} {event : Event}
    (traced : event.level = .trace) (announced : event ∈ (inferWith detail env expr).events) :
    ∃ env' expr', Visits env expr env' expr' ∧ OwnCall env' expr' event := by
  induction expr using Expr.parts_induction generalizing env with
  | step expr partInduction =>
      rcases call_cases traced announced with own | ⟨env₁, part, premise, inside⟩
      · exact ⟨env, expr, .refl env expr, own⟩
      · obtain ⟨env', expr', visited, own⟩ := partInduction part premise.mem_parts inside
        exact ⟨env', expr', .step premise visited, own⟩

end PolyLambda
