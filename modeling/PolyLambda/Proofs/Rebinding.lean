import PolyLambda.Proofs.Substitution
import PolyLambda.Proofs.SubstitutionLaws

/-! # Changing the variable of a quantifier

A quantifier may bind another variable, put in place of the old one in its body, as
long as the body does not use the new variable already.  The nameless form stays the
same (`nameless_rebind`).

The variable replaced need not be the one that was bound: any identity of the body
may be turned into the bound variable, even one that the body binds itself.  Two
names for it then differ by a renaming from the one to the other, which is a change
of the bound variable (`nameless_quant_subst_var`). -/

set_option autoImplicit false

namespace PolyLambda.Ty

variable {v w : TyVar} {ty : Ty}

theorem nameless_rebind (q : Quantifier) (stack : List TyVar) (vNotBound : v ∉ ty.binders)
    (wNotFree : w ∉ ty.freeVars) (wNotBound : w ∉ ty.binders) :
    (Ty.quant q w (ty.subst v (.var w))).nameless stack = (Ty.quant q v ty).nameless stack := by
  have captureFree : ty.CaptureFree v (.var w) := by
    intro u member
    refine ⟨fun same => vNotBound (same ▸ member), ?_⟩
    rw [mem_freeVars_var]
    intro same
    exact wNotBound (same ▸ member)
  exact congrArg (NamelessTy.quant q) (nameless_subst_var stack captureFree wNotFree)

theorem alphaEq_rebind (q : Quantifier) (vNotBound : v ∉ ty.binders)
    (wNotFree : w ∉ ty.freeVars) (wNotBound : w ∉ ty.binders) :
    (Ty.quant q w (ty.subst v (.var w))).alphaEq (.quant q v ty) = true ∧
      (Ty.quant q v ty).alphaEq (.quant q w (ty.subst v (.var w))) = true := by
  have same := nameless_rebind q [] vNotBound wNotFree wNotBound
  exact ⟨alphaEq_of_nameless_eq same, alphaEq_of_nameless_eq same.symm⟩

theorem mem_freeVars_of_rebind {q : Quantifier} {u : TyVar}
    (free : u ∈ (Ty.quant q w (ty.subst v (.var w))).freeVars) :
    u ∈ (Ty.quant q v ty).freeVars := by
  obtain ⟨other, free⟩ := mem_freeVars_quant.mp free
  rcases mem_freeVars_subst_iff.mp free with kept | ⟨brought, -⟩
  · exact mem_freeVars_quant.mpr kept
  · exact absurd (mem_freeVars_var.mp brought) other

theorem not_mem_binders_subst_var {target u : TyVar} (notBound : u ∉ ty.binders) :
    u ∉ (ty.subst target (.var v)).binders := by
  intro member
  rcases mem_binders_of_subst member with kept | brought
  · exact notBound kept
  · exact List.not_mem_nil brought

theorem nameless_quant_subst_var (q : Quantifier) (stack : List TyVar) (target : TyVar)
    (vAbsent : v ∉ ty.vars) (vNotBound : v ∉ ty.binders)
    (wAbsent : w ∉ ty.vars) (wNotBound : w ∉ ty.binders) :
    (Ty.quant q w (ty.subst target (.var w))).nameless stack =
      (Ty.quant q v (ty.subst target (.var v))).nameless stack := by
  by_cases same : v = w
  · rw [same]
  · have wNotFree : w ∉ (ty.subst target (.var v)).freeVars := by
      intro free
      rcases mem_freeVars_subst_iff.mp free with ⟨-, kept⟩ | ⟨brought, -⟩
      · exact wAbsent (mem_vars_of_mem_freeVars kept)
      · exact same (mem_freeVars_var.mp brought)
    -- `target` may be bound inside `ty`, but `v` is not bound in what has taken its place.
    have detour : (ty.subst target (.var v)).subst v (.var w) = ty.subst target (.var w) :=
      subst_var_subst (.var w) vAbsent
    rw [← detour]
    exact nameless_rebind q stack (not_mem_binders_subst_var vNotBound) wNotFree
      (not_mem_binders_subst_var wNotBound)

/-- Whatever identity is abstracted from a body, the name it gets does not matter, as long as
the body has no use for that name: not as a variable and not as a binder. -/
theorem alphaEq_of_abstracted (q : Quantifier) (body : Ty) (target a b : TyVar)
    (aAbsent : a ∉ body.vars) (aNotBound : a ∉ body.binders)
    (bAbsent : b ∉ body.vars) (bNotBound : b ∉ body.binders) :
    (Ty.quant q a (body.subst target (.var a))).alphaEq
        (.quant q b (body.subst target (.var b))) = true ∧
      (Ty.quant q b (body.subst target (.var b))).alphaEq
        (.quant q a (body.subst target (.var a))) = true := by
  constructor
  · exact alphaEq_of_nameless_eq
      (nameless_quant_subst_var q [] target bAbsent bNotBound aAbsent aNotBound)
  · exact alphaEq_of_nameless_eq
      (nameless_quant_subst_var q [] target aAbsent aNotBound bAbsent bNotBound)

/-- `t0 -> ∀t0. t0 -> ∃t0. t0 -> t1`, which binds `t0` again in the scope of `t0`. -/
def boundThrice : Ty :=
  .arrow (.var ⟨0⟩)
    (.all ⟨0⟩ (.arrow (.var ⟨0⟩) (.ex ⟨0⟩ (.arrow (.var ⟨0⟩) (.var ⟨1⟩)))))

/-- Abstracting `t0` takes its bound occurrences along, under either name and quantifier. -/
theorem boundThrice_abstracted :
    ((⟨6⟩ ∉ boundThrice.vars ∧ ⟨6⟩ ∉ boundThrice.binders) ∧
      ⟨7⟩ ∉ boundThrice.vars ∧ ⟨7⟩ ∉ boundThrice.binders) ∧
    (Ty.all ⟨6⟩ (boundThrice.subst ⟨0⟩ (.var ⟨6⟩))).alphaEq
        (.all ⟨7⟩ (boundThrice.subst ⟨0⟩ (.var ⟨7⟩))) = true ∧
    (Ty.ex ⟨7⟩ (boundThrice.subst ⟨0⟩ (.var ⟨7⟩))).alphaEq
        (.ex ⟨6⟩ (boundThrice.subst ⟨0⟩ (.var ⟨6⟩))) = true := by
  have first : ⟨6⟩ ∉ boundThrice.vars ∧ ⟨6⟩ ∉ boundThrice.binders := by decide
  have second : ⟨7⟩ ∉ boundThrice.vars ∧ ⟨7⟩ ∉ boundThrice.binders := by decide
  have universal := alphaEq_of_abstracted .all boundThrice ⟨0⟩ ⟨6⟩ ⟨7⟩ first.1 first.2
    second.1 second.2
  have existential := alphaEq_of_abstracted .ex boundThrice ⟨0⟩ ⟨6⟩ ⟨7⟩ first.1 first.2
    second.1 second.2
  exact ⟨⟨first, second⟩, universal.1, existential.2⟩

-- A name that the body binds would be captured: from `∀t1. t0` it gives `∀t1. ∀t1. t1`.
example : (Ty.all ⟨1⟩ ((Ty.all ⟨1⟩ (.var ⟨0⟩)).subst ⟨0⟩ (.var ⟨1⟩))).alphaEq
    (.all ⟨2⟩ ((Ty.all ⟨1⟩ (.var ⟨0⟩)).subst ⟨0⟩ (.var ⟨2⟩))) = false := by decide

end PolyLambda.Ty
