import PolyLambda.Proofs.Rebinding
import PolyLambda.Proofs.Regularity
import PolyLambda.Proofs.Weakening

/-! # Eta expansion of quantified terms

A term of a universal type may be instantiated at a new variable and abstracted again,
and a package may be opened and sealed again.  The result has the type of the term with
another binder: the quantifier's variable is replaced by the new one, which changes the
type only in the name of a bound variable (`nameless_rebind`).  Opening the package that
was sealed again undoes one renaming by another (`subst_var_subst`). -/

set_option autoImplicit false

namespace PolyLambda

section Expansion

variable {env : Env} {expr : Expr} {body : Ty} {v : TyVar}

theorem Infers.eta_all (inferred : Infers env expr (.all v body)) (w : TyVar) :
    Infers env (.tabs w (.tapp expr (.var w))) (.all w (body.subst v (.var w))) :=
  .tabs (.tapp (inferred.extend (env.extendsTo_insertType w)) (env.wellFormed_var_insertType w))

theorem Infers.eta_ex (inferred : Infers env expr (.ex v body)) (regular : env.Regular)
    (name : String) {u w : TyVar} (uNotFree : u ∉ body.freeVars)
    (wNotFree : w ∉ body.freeVars) (wNotBound : w ∉ body.binders) :
    Infers env (.unpack u name expr (.pack (.var u) (.var name) w (body.subst v (.var w))))
      (.ex w (body.subst v (.var w))) := by
  have inScope : ((env.insertType u).insertType w).wellFormed
      (.ex w (body.subst v (.var w))) = .ok () := by
    rw [Env.wellFormed_eq_ok_iff]
    intro x free
    have known : x ∈ env.types := inferred.mem_types regular x (Ty.mem_freeVars_of_rebind free)
    exact Env.mem_types_insertType.mpr (.inr (Env.mem_types_insertType.mpr (.inr known)))
  have found : ((env.insertType u).insertTerm name (body.subst v (.var u))).lookup name =
      .ok (body.subst v (.var u)) := by
    rw [Env.lookup_insertTerm, if_pos rfl]
  have wAbsent : w ∉ body.vars := by
    intro occurs
    rcases Ty.mem_freeVars_or_binders_of_mem_vars occurs with free | bound
    · exact wNotFree free
    · exact wNotBound bound
  -- Both sides open the body at `u`, the left one after a detour over `w`.
  have accepted : ((body.subst v (.var w)).subst w (.var u)).alphaEq (body.subst v (.var u)) =
      true := by
    rw [Ty.subst_var_subst (.var u) wAbsent]
    exact Ty.alphaEq_refl _
  have stays : (Ty.ex w (body.subst v (.var w))).notEscape u = true := by
    rw [Ty.notEscape_iff_not_mem_freeVars]
    intro free
    exact uNotFree (Ty.mem_freeVars_quant.mp (Ty.mem_freeVars_of_rebind free)).2
  exact .unpack inferred
    (.pack (env.wellFormed_var_insertType u) inScope (.var found) accepted) stays

end Expansion

/-- Both quantifiers have their eta law.  The expanded term has the type of the term with
the new binder in place of the old one, and the two types are equal up to that name.  The
variable `b` that opens a package may be the new binder `c`, or be bound in the body. -/
theorem quantifiers_eta_expand (env : Env) (regular : env.Regular) (expr : Expr) (body : Ty)
    (v b c : TyVar) (bNotFree : b ∉ body.freeVars) (cNotFree : c ∉ body.freeVars)
    (cNotBound : c ∉ body.binders) (vNotBound : v ∉ body.binders) :
    (typeOfIn env expr = .ok (.all v body) →
      typeOfIn env (.tabs c (.tapp expr (.var c))) = .ok (.all c (body.subst v (.var c))) ∧
        (Ty.all c (body.subst v (.var c))).alphaEq (.all v body) = true ∧
        (Ty.all v body).alphaEq (.all c (body.subst v (.var c))) = true) ∧
    (typeOfIn env expr = .ok (.ex v body) → ∀ name,
      typeOfIn env (.unpack b name expr
          (.pack (.var b) (.var name) c (body.subst v (.var c)))) =
          .ok (.ex c (body.subst v (.var c))) ∧
        (Ty.ex c (body.subst v (.var c))).alphaEq (.ex v body) = true ∧
        (Ty.ex v body).alphaEq (.ex c (body.subst v (.var c))) = true) := by
  constructor
  · intro found
    have inferred : Infers env expr (.all v body) := typeOfIn_eq_ok_iff.mp found
    exact ⟨typeOfIn_eq_ok_iff.mpr (inferred.eta_all c),
      Ty.alphaEq_rebind .all vNotBound cNotFree cNotBound⟩
  · intro found name
    have inferred : Infers env expr (.ex v body) := typeOfIn_eq_ok_iff.mp found
    exact ⟨typeOfIn_eq_ok_iff.mpr (inferred.eta_ex regular name bNotFree cNotFree cNotBound),
      Ty.alphaEq_rebind .ex vNotBound cNotFree cNotBound⟩

/-- `t0 -> ∀t1. t1 -> t0 -> t5` -/
def nestedBody : Ty :=
  .arrow (.var ⟨0⟩) (.all ⟨1⟩ (.arrow (.var ⟨1⟩) (.arrow (.var ⟨0⟩) (.var ⟨5⟩))))

/-- `f : ∀t0. t0 -> ∀t1. t1 -> t0 -> t5` and a package `p` of the same signature, in the
scope of `t5` and of the identity `t2` that the expansions bind again. -/
def nestedEnv : Env :=
  (((Env.empty.insertType ⟨5⟩).insertType ⟨2⟩).insertTerm "f" (.all ⟨0⟩ nestedBody)).insertTerm
    "p" (.ex ⟨0⟩ nestedBody)

theorem nestedEnv_eta_expand :
    nestedEnv.Regular ∧
      typeOfIn nestedEnv (.tabs ⟨2⟩ (.tapp (.var "f") (.var ⟨2⟩))) =
        .ok (.all ⟨2⟩ (nestedBody.subst ⟨0⟩ (.var ⟨2⟩))) ∧
      typeOfIn nestedEnv (.unpack ⟨2⟩ "p" (.var "p")
          (.pack (.var ⟨2⟩) (.var "p") ⟨2⟩ (nestedBody.subst ⟨0⟩ (.var ⟨2⟩)))) =
        .ok (.ex ⟨2⟩ (nestedBody.subst ⟨0⟩ (.var ⟨2⟩))) ∧
      typeOfIn nestedEnv (.unpack ⟨3⟩ "x" (.var "p")
          (.pack (.var ⟨3⟩) (.var "x") ⟨2⟩ (nestedBody.subst ⟨0⟩ (.var ⟨2⟩)))) =
        .ok (.ex ⟨2⟩ (nestedBody.subst ⟨0⟩ (.var ⟨2⟩))) ∧
      (Ty.ex ⟨0⟩ nestedBody).alphaEq (.ex ⟨2⟩ (nestedBody.subst ⟨0⟩ (.var ⟨2⟩))) = true := by
  have regular : nestedEnv.Regular :=
    ((((Env.Regular.empty.insertType ⟨5⟩).insertType ⟨2⟩).insertTerm rfl "f").insertTerm rfl "p")
  have sameBinder := quantifiers_eta_expand nestedEnv regular (.var "p") nestedBody ⟨0⟩ ⟨2⟩ ⟨2⟩
    (by decide) (by decide) (by decide) (by decide)
  have otherBinder := quantifiers_eta_expand nestedEnv regular (.var "p") nestedBody ⟨0⟩ ⟨3⟩ ⟨2⟩
    (by decide) (by decide) (by decide) (by decide)
  have universal := quantifiers_eta_expand nestedEnv regular (.var "f") nestedBody ⟨0⟩ ⟨3⟩ ⟨2⟩
    (by decide) (by decide) (by decide) (by decide)
  exact ⟨regular, (universal.1 rfl).1, (sameBinder.2 rfl "p").1, (otherBinder.2 rfl "x").1,
    (otherBinder.2 rfl "x").2.2⟩

end PolyLambda
