import PolyLambda.Proofs.Comparison

/-! # Substitution without capture

A substitution is capture free when no binder it crosses is the variable
replaced or free in the replacement.  On nameless forms it is then
instantiation: `nameless_subst` for a type in the scope of the variable, with
any stack of binders inside it, and `nameless_subst_var` when a variable takes
the place of another one.  Where the variable is free it is the substitution of
nameless types for a free variable (`nameless_subst_of_not_mem`). -/

set_option autoImplicit false

namespace PolyLambda.Ty

def CaptureFree (ty : Ty) (v : TyVar) (replacement : Ty) : Prop :=
  ∀ w ∈ ty.binders, w ≠ v ∧ w ∉ replacement.freeVars

instance (ty : Ty) (v : TyVar) (replacement : Ty) : Decidable (ty.CaptureFree v replacement) :=
  inferInstanceAs (Decidable (∀ w ∈ ty.binders, w ≠ v ∧ w ∉ replacement.freeVars))

theorem CaptureFree.arrow {domain codomain replacement : Ty} {v : TyVar}
    (free : CaptureFree (.arrow domain codomain) v replacement) :
    domain.CaptureFree v replacement ∧ codomain.CaptureFree v replacement := by
  constructor
  · intro w member
    exact free w (List.mem_append_left _ member)
  · intro w member
    exact free w (List.mem_append_right _ member)

theorem CaptureFree.quant {q : Quantifier} {body replacement : Ty} {v w : TyVar}
    (free : CaptureFree (.quant q w body) v replacement) :
    (w ≠ v ∧ w ∉ replacement.freeVars) ∧ body.CaptureFree v replacement := by
  constructor
  · exact free w List.mem_cons_self
  · intro u member
    exact free u (List.mem_cons_of_mem w member)

theorem nameless_subst (inner outer : List TyVar) {v : TyVar} {ty replacement : Ty}
    (free : ty.CaptureFree v replacement) (outside : v ∉ inner) :
    (ty.subst v replacement).nameless (inner ++ outer) =
      (ty.nameless (inner ++ v :: outer)).instAt inner.length
        (replacement.nameless (inner ++ outer)) := by
  induction ty generalizing inner with
  | int => rfl
  | var u =>
      by_cases same : u = v
      · subst same
        have refers := Ref.resolve_append_self outer outside
        simp [subst, nameless, refers, NamelessTy.instAt]
      · have refers := Ref.resolve_append_cons inner outer (.inr (Ne.symm same))
        rw [subst, if_neg same, nameless, nameless, refers]
        cases Ref.resolve (inner ++ outer) u with
        | free w => rfl
        | bound index =>
            simp only [Ref.liftFrom, NamelessTy.instAt]
            by_cases below : index < inner.length
            · rw [if_pos below, if_pos below]
            · have above : ¬ index + 1 < inner.length := by omega
              have other : index + 1 ≠ inner.length := by omega
              rw [if_neg below, if_neg above, if_neg other, Nat.add_sub_cancel]
  | arrow domain codomain domainInduction codomainInduction =>
      obtain ⟨domainFree, codomainFree⟩ := free.arrow
      simp only [subst, nameless, NamelessTy.instAt]
      rw [domainInduction inner domainFree outside, codomainInduction inner codomainFree outside]
  | quant q w body bodyInduction =>
      obtain ⟨⟨other, unmentioned⟩, bodyFree⟩ := free.quant
      have stillOutside : v ∉ w :: inner := by
        rw [List.mem_cons, not_or]
        exact ⟨Ne.symm other, outside⟩
      -- The replacement moves under `w`, which it does not mention.
      have lifted : replacement.nameless (w :: (inner ++ outer)) =
          (replacement.nameless (inner ++ outer)).lift :=
        nameless_insert [] (inner ++ outer) (.inr unmentioned)
      have step := bodyInduction (w :: inner) bodyFree stillOutside
      simp only [subst, nameless, NamelessTy.instAt]
      rw [← lifted]
      exact congrArg (NamelessTy.quant q) step

theorem nameless_subst_var (stack : List TyVar) {v w : TyVar} {ty : Ty}
    (free : ty.CaptureFree v (.var w)) (unmentioned : w ∉ ty.freeVars) :
    (ty.subst v (.var w)).nameless (w :: stack) = ty.nameless (v :: stack) := by
  have instantiated : (ty.subst v (.var w)).nameless (w :: stack) =
      (ty.nameless (v :: w :: stack)).instAt 0 ((Ty.var w).nameless (w :: stack)) :=
    nameless_subst [] (w :: stack) free List.not_mem_nil
  have lifted : ty.nameless (v :: w :: stack) = (ty.nameless (v :: stack)).liftFrom 1 :=
    nameless_insert [v] stack (.inr unmentioned)
  have replacement : (Ty.var w).nameless (w :: stack) = .var (.bound 0) :=
    congrArg NamelessTy.var (Ref.resolve_cons_self stack w)
  rw [instantiated, lifted, replacement]
  exact NamelessTy.instAt_liftFrom_succ _ 0

theorem nameless_subst_of_not_mem (stack : List TyVar) {v : TyVar} {ty replacement : Ty}
    (free : ty.CaptureFree v replacement) (outside : v ∉ stack) :
    (ty.subst v replacement).nameless stack =
      (ty.nameless stack).substFree v (replacement.nameless stack) := by
  induction ty generalizing stack with
  | int => rfl
  | var u =>
      rcases Ref.resolve_eq_bound_or_free stack u with
        ⟨index, -, refers, member⟩ | ⟨refers, -⟩
      · have other : u ≠ v := fun same => outside (same ▸ member)
        rw [subst, if_neg other, nameless, refers, NamelessTy.substFree]
      · rw [subst, nameless, refers, NamelessTy.substFree]
        by_cases same : u = v
        · rw [if_pos same, if_pos same]
        · rw [if_neg same, if_neg same, nameless, refers]
  | arrow domain codomain domainInduction codomainInduction =>
      obtain ⟨domainFree, codomainFree⟩ := free.arrow
      simp only [subst, nameless, NamelessTy.substFree]
      rw [domainInduction stack domainFree outside, codomainInduction stack codomainFree outside]
  | quant q w body bodyInduction =>
      obtain ⟨⟨other, unmentioned⟩, bodyFree⟩ := free.quant
      have stillOutside : v ∉ w :: stack := by
        rw [List.mem_cons, not_or]
        exact ⟨Ne.symm other, outside⟩
      have step := bodyInduction (w :: stack) bodyFree stillOutside
      rw [nameless_cons_of_not_mem stack unmentioned] at step
      simp only [subst, nameless, NamelessTy.substFree]
      rw [step]

/-- A capture-free substitution is the substitution of nameless types for a free
variable, under any stack of binders other than the variable.  So its result depends on
its arguments only up to the names of their binders. -/
theorem subst_is_capture_avoiding :
    (∀ (stack : List TyVar) (ty replacement : Ty) (v : TyVar), v ∉ stack →
      ty.CaptureFree v replacement →
        (ty.subst v replacement).nameless stack =
          (ty.nameless stack).substFree v (replacement.nameless stack)) ∧
    ∀ (ty ty' replacement replacement' : Ty) (v : TyVar),
      ty.CaptureFree v replacement → ty'.CaptureFree v replacement' →
      ty.nameless [] = ty'.nameless [] → replacement.nameless [] = replacement'.nameless [] →
        (ty.subst v replacement).nameless [] = (ty'.subst v replacement').nameless [] ∧
          (ty.subst v replacement).alphaEq (ty'.subst v replacement') = true ∧
          (ty'.subst v replacement').alphaEq (ty.subst v replacement) = true := by
  constructor
  · intro stack ty replacement v outside free
    exact nameless_subst_of_not_mem stack free outside
  · intro ty ty' replacement replacement' v free free' sameTy sameReplacement
    have same : (ty.subst v replacement).nameless [] = (ty'.subst v replacement').nameless [] :=
      calc (ty.subst v replacement).nameless []
          = (ty.nameless []).substFree v (replacement.nameless []) :=
            nameless_subst_of_not_mem [] free List.not_mem_nil
        _ = (ty'.nameless []).substFree v (replacement'.nameless []) := by
            rw [sameTy, sameReplacement]
        _ = (ty'.subst v replacement').nameless [] :=
            (nameless_subst_of_not_mem [] free' List.not_mem_nil).symm
    exact ⟨same, alphaEq_of_nameless_eq same, alphaEq_of_nameless_eq same.symm⟩

/-- `∀v. t0 -> v` -/
def consumer (v : TyVar) : Ty := .all v (.arrow (.var ⟨0⟩) (.var v))

/-- `∀v. v -> t2` -/
def producer (v : TyVar) : Ty := .all v (.arrow (.var v) (.var ⟨2⟩))

/-- The two types may share a binder.  Where the replacement ends up, `t2` is two binders out. -/
theorem consumer_subst_captures_nothing :
    (⟨0⟩ : TyVar) ∉ [(⟨2⟩ : TyVar)] ∧ (consumer ⟨1⟩).CaptureFree ⟨0⟩ (producer ⟨1⟩) ∧
      (consumer ⟨3⟩).CaptureFree ⟨0⟩ (producer ⟨4⟩) ∧
      ((consumer ⟨1⟩).subst ⟨0⟩ (producer ⟨1⟩)).nameless [⟨2⟩] =
        .all (.arrow (.all (.arrow (.var (.bound 0)) (.var (.bound 2)))) (.var (.bound 0))) ∧
      ((consumer ⟨1⟩).subst ⟨0⟩ (producer ⟨1⟩)).alphaEq
        ((consumer ⟨3⟩).subst ⟨0⟩ (producer ⟨4⟩)) = true := by
  have outside : (⟨0⟩ : TyVar) ∉ [(⟨2⟩ : TyVar)] := by decide
  have free : (consumer ⟨1⟩).CaptureFree ⟨0⟩ (producer ⟨1⟩) := by decide
  have free' : (consumer ⟨3⟩).CaptureFree ⟨0⟩ (producer ⟨4⟩) := by decide
  obtain ⟨asNameless, independent⟩ := subst_is_capture_avoiding
  have form := asNameless [⟨2⟩] (consumer ⟨1⟩) (producer ⟨1⟩) ⟨0⟩ outside free
  have same := independent _ _ _ _ ⟨0⟩ free free' rfl rfl
  exact ⟨outside, free, free', form.trans rfl, same.2.1⟩

end PolyLambda.Ty
