import PolyLambda.Proofs.Occurrences

/-! # Laws of substitution

Substitution acts on the leaves of a type and looks at no binder, so it is an
instance of `substAll`, which gives every variable its replacement at once.  Doing
this twice is doing it once with the replacements replaced (`substAll_substAll`),
and two ways of doing it agree on a type exactly when they agree on the variables
that occur in it (`substAll_eq_iff`).  A law of substitution is thereby a law about
one leaf, and holds of types that bind or use an identity again as well. -/

set_option autoImplicit false

namespace PolyLambda.Ty

/-- The variables that occur in a type, bound or free, from left to right. -/
def vars (ty : Ty) : List TyVar := ty.occurrences.map Occurrence.v

@[simp]
theorem vars_int : vars .int = [] := rfl

@[simp]
theorem vars_var (v : TyVar) : vars (.var v) = [v] := rfl

@[simp]
theorem vars_arrow (domain codomain : Ty) :
    vars (.arrow domain codomain) = domain.vars ++ codomain.vars :=
  List.map_append

@[simp]
theorem vars_quant (q : Quantifier) (v : TyVar) (body : Ty) :
    vars (.quant q v body) = body.vars := by
  simp [vars, occurrences, Occurrence.under]

theorem mem_freeVars_or_binders_of_mem_vars {v : TyVar} {ty : Ty} (occurs : v ∈ ty.vars) :
    v ∈ ty.freeVars ∨ v ∈ ty.binders := by
  obtain ⟨⟨around, u⟩, occurrence, same⟩ := List.mem_map.mp occurs
  obtain rfl : u = v := same
  by_cases bound : u ∈ around
  · exact .inr (mem_binders_of_mem_occurrences occurrence bound)
  · exact .inl (mem_freeVars_iff_occurrence.mpr ⟨around, occurrence, bound⟩)

theorem mem_vars_of_mem_freeVars {v : TyVar} {ty : Ty} (free : v ∈ ty.freeVars) :
    v ∈ ty.vars := by
  obtain ⟨around, occurrence, -⟩ := mem_freeVars_iff_occurrence.mp free
  exact List.mem_map.mpr ⟨⟨around, v⟩, occurrence, rfl⟩

/-! ## All variables at once -/

/-- `ty` with `σ v` at every occurrence of each variable `v`, bound or free. -/
def substAll (σ : TyVar → Ty) : Ty → Ty
  | .int => .int
  | .var v => σ v
  | .arrow domain codomain => .arrow (domain.substAll σ) (codomain.substAll σ)
  | .quant q v body => .quant q v (body.substAll σ)

theorem substAll_var (ty : Ty) : ty.substAll .var = ty := by
  induction ty with
  | int => rfl
  | var v => rfl
  | arrow domain codomain domainInduction codomainInduction =>
      rw [substAll, domainInduction, codomainInduction]
  | quant q v body bodyInduction => rw [substAll, bodyInduction]

theorem substAll_substAll (σ τ : TyVar → Ty) (ty : Ty) :
    (ty.substAll σ).substAll τ = ty.substAll fun v => (σ v).substAll τ := by
  induction ty with
  | int => rfl
  | var v => rfl
  | arrow domain codomain domainInduction codomainInduction =>
      simp only [substAll, domainInduction, codomainInduction]
  | quant q v body bodyInduction => simp only [substAll, bodyInduction]

theorem substAll_eq_iff {σ τ : TyVar → Ty} {ty : Ty} :
    ty.substAll σ = ty.substAll τ ↔ ∀ v ∈ ty.vars, σ v = τ v := by
  induction ty with
  | int => simp [substAll]
  | var v => simp [substAll]
  | arrow domain codomain domainInduction codomainInduction =>
      simp only [substAll, arrow.injEq, domainInduction, codomainInduction, vars_arrow,
        List.forall_mem_append]
  | quant q v body bodyInduction =>
      simp only [substAll, quant.injEq, true_and, bodyInduction, vars_quant]

/-! ## One variable -/

theorem var_subst_self (v : TyVar) (replacement : Ty) :
    (Ty.var v).subst v replacement = replacement :=
  if_pos rfl

theorem var_subst_of_ne {v w : TyVar} (replacement : Ty) (other : w ≠ v) :
    (Ty.var w).subst v replacement = .var w :=
  if_neg other

theorem subst_eq_substAll (ty : Ty) (v : TyVar) (replacement : Ty) :
    ty.subst v replacement = ty.substAll fun w => (Ty.var w).subst v replacement := by
  induction ty with
  | int => rfl
  | var w => rfl
  | arrow domain codomain domainInduction codomainInduction =>
      rw [subst, domainInduction, codomainInduction, substAll]
  | quant q w body bodyInduction => rw [subst, bodyInduction, substAll]

theorem subst_subst_eq_substAll (ty first second : Ty) (v w : TyVar) :
    (ty.subst v first).subst w second =
      ty.substAll fun u => ((Ty.var u).subst v first).subst w second := by
  rw [subst_eq_substAll ty, subst_eq_substAll _ w, substAll_substAll]
  simp only [← subst_eq_substAll]

theorem subst_eq_self_iff {v : TyVar} {ty replacement : Ty} :
    ty.subst v replacement = ty ↔ v ∉ ty.vars ∨ replacement = .var v := by
  have leaves : ty.subst v replacement = ty ↔
      ∀ w ∈ ty.vars, (Ty.var w).subst v replacement = .var w := by
    rw [← substAll_eq_iff, substAll_var, ← subst_eq_substAll]
  rw [leaves]
  constructor
  · intro fixed
    by_cases occurs : v ∈ ty.vars
    · exact .inr ((var_subst_self v replacement).symm.trans (fixed v occurs))
    · exact .inl occurs
  · intro harmless w occurs
    by_cases same : w = v
    · subst same
      rw [var_subst_self]
      exact harmless.resolve_left fun absent => absent occurs
    · exact var_subst_of_ne replacement same

theorem subst_subst_same (ty first second : Ty) (v : TyVar) :
    (ty.subst v first).subst v second = ty.subst v (first.subst v second) := by
  rw [subst_subst_eq_substAll, subst_eq_substAll ty, substAll_eq_iff]
  intro u _
  by_cases same : u = v
  · subst same
    rw [var_subst_self, var_subst_self]
  · rw [var_subst_of_ne _ same, var_subst_of_ne _ same, var_subst_of_ne _ same]

theorem subst_comm {v w : TyVar} (ty first : Ty) {second : Ty} (other : v ≠ w)
    (absent : v ∉ second.vars) :
    (ty.subst v first).subst w second = (ty.subst w second).subst v (first.subst w second) := by
  rw [subst_subst_eq_substAll, subst_subst_eq_substAll, substAll_eq_iff]
  intro u _
  by_cases isFirst : u = v
  · subst isFirst
    rw [var_subst_self, var_subst_of_ne _ other, var_subst_self]
  · rw [var_subst_of_ne _ isFirst]
    by_cases isSecond : u = w
    · -- `second` stands here, and the later substitution finds no `v` in it.
      subst isSecond
      rw [var_subst_self, subst_eq_self_iff.mpr (.inl absent)]
    · rw [var_subst_of_ne _ isSecond, var_subst_of_ne _ isFirst]

theorem subst_var_subst {v w : TyVar} {ty : Ty} (replacement : Ty) (absent : w ∉ ty.vars) :
    (ty.subst v (.var w)).subst w replacement = ty.subst v replacement := by
  rw [subst_subst_eq_substAll, subst_eq_substAll ty, substAll_eq_iff]
  intro u occurs
  by_cases same : u = v
  · subst same
    rw [var_subst_self, var_subst_self, var_subst_self]
  · have kept : u ≠ w := fun isNew => absent (isNew ▸ occurs)
    rw [var_subst_of_ne _ same, var_subst_of_ne _ same, var_subst_of_ne _ kept]

/-- Substitution leaves a type alone only when there is no occurrence to replace or when the
variable replaces itself.  Made twice for one variable it composes, and for two variables it
commutes, so a renaming on the way can be left out.  An occurrence counts whether it is bound
or free. -/
theorem subst_algebra :
    (∀ (ty replacement : Ty) (v : TyVar),
      ty.subst v replacement = ty ↔ v ∉ ty.vars ∨ replacement = .var v) ∧
    (∀ (ty first second : Ty) (v : TyVar),
      (ty.subst v first).subst v second = ty.subst v (first.subst v second)) ∧
    (∀ (ty first second : Ty) (v w : TyVar), v ≠ w → v ∉ second.vars →
      (ty.subst v first).subst w second = (ty.subst w second).subst v (first.subst w second)) ∧
    ∀ (ty replacement : Ty) (v w : TyVar), w ∉ ty.vars →
      (ty.subst v (.var w)).subst w replacement = ty.subst v replacement := by
  refine ⟨?_, subst_subst_same, ?_, ?_⟩
  · intro ty replacement v
    exact subst_eq_self_iff
  · intro ty first second v w other absent
    exact subst_comm ty first other absent
  · intro ty replacement v w absent
    exact subst_var_subst replacement absent

/-- `∀t0. t0 -> ∃t1. t1 -> t0`, where every occurrence is bound. -/
def crossedBinders : Ty :=
  .all ⟨0⟩ (.arrow (.var ⟨0⟩) (.ex ⟨1⟩ (.arrow (.var ⟨1⟩) (.var ⟨0⟩))))

/-- `t1 -> t0` for `t0`, then `t1 -> t2` for `t1`: each replacement mentions its variable. -/
theorem crossedBinders_subst_algebra :
    crossedBinders.subst ⟨0⟩ .int ≠ crossedBinders ∧
    ((⟨0⟩ : TyVar) ≠ ⟨1⟩ ∧ ⟨0⟩ ∉ (Ty.arrow (.var ⟨1⟩) (.var ⟨2⟩)).vars ∧
      (crossedBinders.subst ⟨0⟩ (.arrow (.var ⟨1⟩) (.var ⟨0⟩))).subst ⟨1⟩
          (.arrow (.var ⟨1⟩) (.var ⟨2⟩)) =
        (crossedBinders.subst ⟨1⟩ (.arrow (.var ⟨1⟩) (.var ⟨2⟩))).subst ⟨0⟩
          (.arrow (.arrow (.var ⟨1⟩) (.var ⟨2⟩)) (.var ⟨0⟩))) ∧
    ⟨3⟩ ∉ crossedBinders.vars ∧
      (crossedBinders.subst ⟨0⟩ (.var ⟨3⟩)).subst ⟨3⟩ .int = crossedBinders.subst ⟨0⟩ .int := by
  have other : (⟨0⟩ : TyVar) ≠ ⟨1⟩ := by decide
  have absent : ⟨0⟩ ∉ (Ty.arrow (.var ⟨1⟩) (.var ⟨2⟩)).vars := by decide
  have unused : ⟨3⟩ ∉ crossedBinders.vars := by decide
  have touched : ¬ (⟨0⟩ ∉ crossedBinders.vars ∨ Ty.int = .var ⟨0⟩) := by decide
  obtain ⟨unchanged, -, commutes, renamed⟩ := subst_algebra
  refine ⟨?_, ⟨other, absent, ?_⟩, unused, renamed crossedBinders .int ⟨0⟩ ⟨3⟩ unused⟩
  · intro same
    exact touched ((unchanged crossedBinders .int ⟨0⟩).mp same)
  · exact commutes crossedBinders (.arrow (.var ⟨1⟩) (.var ⟨0⟩)) (.arrow (.var ⟨1⟩) (.var ⟨2⟩))
      ⟨0⟩ ⟨1⟩ other absent

-- The order matters once the second replacement brings the first variable back.
example : ((Ty.var ⟨1⟩).subst ⟨0⟩ .int).subst ⟨1⟩ (.var ⟨0⟩) ≠
    ((Ty.var ⟨1⟩).subst ⟨1⟩ (.var ⟨0⟩)).subst ⟨0⟩ .int := by decide

end PolyLambda.Ty
