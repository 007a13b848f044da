import PolyLambda.Proofs.Inference
import PolyLambda.Proofs.Occurrences

/-! # Regularity

An environment is regular when the types it binds are well formed in it.  Every
type found in a regular environment is well formed there, with no assumption on
identities: substitution may capture, which only takes free variables away. -/

set_option autoImplicit false

namespace PolyLambda

def Env.Regular (env : Env) : Prop :=
  ∀ (name : String) (ty : Ty), env.lookup name = .ok ty → env.wellFormed ty = .ok ()

namespace Env.Regular

variable {env : Env}

theorem empty : Env.empty.Regular := by
  intro name ty found
  exact absurd found (lookup_empty_ne_ok name ty)

theorem insertType (regular : env.Regular) (v : TyVar) : (env.insertType v).Regular := by
  intro name ty found
  have inScope := (wellFormed_eq_ok_iff env ty).mp (regular name ty found)
  rw [wellFormed_eq_ok_iff]
  intro w free
  exact mem_types_insertType.mpr (.inr (inScope w free))

theorem insertTerm (regular : env.Regular) {ty : Ty} (inScope : env.wellFormed ty = .ok ())
    (name : String) : (env.insertTerm name ty).Regular := by
  intro other ty' found
  rw [lookup_insertTerm] at found
  split at found
  · obtain rfl : ty = ty' := Except.ok.inj found
    exact inScope
  · exact regular other ty' found

end Env.Regular

theorem mem_types_of_subst {env : Env} {v : TyVar} {body replacement : Ty} {q : Quantifier}
    (bodyInScope : ∀ w ∈ (Ty.quant q v body).freeVars, w ∈ env.types)
    (replacementInScope : ∀ w ∈ replacement.freeVars, w ∈ env.types) :
    ∀ w ∈ (body.subst v replacement).freeVars, w ∈ env.types := by
  apply Ty.mem_scope_of_subst ?_ replacementInScope
  intro w kept other
  exact bodyInScope w (Ty.mem_freeVars_quant.mpr ⟨other, kept⟩)

theorem mem_types_of_packed {env : Env} {v : TyVar} {bodyTy : Ty}
    (inScope : (env.insertType v).wellFormed (.ex v bodyTy) = .ok ()) :
    ∀ w ∈ (Ty.ex v bodyTy).freeVars, w ∈ env.types := by
  intro w free
  have inside := (Env.wellFormed_eq_ok_iff _ _).mp inScope w free
  exact (Env.mem_types_insertType.mp inside).resolve_left (Ty.mem_freeVars_quant.mp free).1

theorem Env.wellFormed_var_insertType (env : Env) (v : TyVar) :
    (env.insertType v).wellFormed (.var v) = .ok () := by
  rw [wellFormed_eq_ok_iff]
  intro w free
  exact mem_types_insertType.mpr (.inl (Ty.mem_freeVars_var.mp free))

theorem opened_wellFormed {env : Env} {bound : TyVar} {body : Ty}
    (packedInScope : ∀ w ∈ (Ty.ex bound body).freeVars, w ∈ env.types) (v : TyVar) :
    (env.insertType v).wellFormed (body.subst bound (.var v)) = .ok () := by
  rw [Env.wellFormed_eq_ok_iff]
  refine mem_types_of_subst (q := .ex) ?_ ?_
  · intro w free
    exact Env.mem_types_insertType.mpr (.inr (packedInScope w free))
  · exact (Env.wellFormed_eq_ok_iff _ _).mp (env.wellFormed_var_insertType v)

theorem Infers.mem_types {env : Env} {expr : Expr} {ty : Ty} (inferred : Infers env expr ty)
    (regular : env.Regular) : ∀ v ∈ ty.freeVars, v ∈ env.types := by
  induction inferred with
  | lit =>
      intro v free
      exact absurd free Ty.not_mem_freeVars_int
  | var found => exact (Env.wellFormed_eq_ok_iff _ _).mp (regular _ _ found)
  | abs inScope _ bodyInduction =>
      intro v free
      rcases Ty.mem_freeVars_arrow.mp free with free | free
      · exact (Env.wellFormed_eq_ok_iff _ _).mp inScope v free
      · exact bodyInduction (regular.insertTerm inScope _) v free
  | app _ _ _ funcInduction _ =>
      intro v free
      exact funcInduction regular v (Ty.mem_freeVars_arrow.mpr (.inr free))
  | tabs _ bodyInduction =>
      intro v free
      obtain ⟨other, free⟩ := Ty.mem_freeVars_quant.mp free
      have inScope := bodyInduction (regular.insertType _) v free
      exact (Env.mem_types_insertType.mp inScope).resolve_left other
  | tapp _ inScope funcInduction =>
      exact mem_types_of_subst (funcInduction regular) ((Env.wellFormed_eq_ok_iff _ _).mp inScope)
  | pack _ inScope _ _ _ => exact mem_types_of_packed inScope
  | @unpack env v bound name packed cont body ty _ _ stays packedInduction contInduction =>
      have openedInScope := opened_wellFormed (packedInduction regular) v
      have contRegular := (regular.insertType v).insertTerm openedInScope name
      intro w free
      have notEscaped : v ≠ w := by
        intro same
        exact (Ty.notEscape_iff_not_mem_freeVars v ty).mp stays (same ▸ free)
      exact (Env.mem_types_insertType.mp (contInduction contRegular w free)).resolve_left notEscaped

/-- Nothing that a term binds is free in its type: a type found in a regular
environment is well formed there, and a type found in the empty one is closed. -/
theorem typeOfIn_wellFormed :
    (∀ (env : Env) (expr : Expr) (ty : Ty), env.Regular → typeOfIn env expr = .ok ty →
      env.wellFormed ty = .ok () ∧ ∀ v ∈ ty.freeVars, v ∈ env.types) ∧
    ∀ (expr : Expr) (ty : Ty), typeOf expr = .ok ty → ty.freeVars = ∅ := by
  constructor
  · intro env expr ty regular found
    have inScope := (typeOfIn_eq_ok_iff.mp found).mem_types regular
    exact ⟨(Env.wellFormed_eq_ok_iff env ty).mpr inScope, inScope⟩
  · intro expr ty found
    have inScope := (typeOfIn_eq_ok_iff.mp found).mem_types Env.Regular.empty
    apply Std.ExtTreeSet.ext_mem
    intro v
    constructor
    · intro free
      exact inScope v free
    · intro absurdity
      exact absurd absurdity Std.ExtTreeSet.not_mem_empty

/-- `f : ∀t1. ∀t0. t1 -> t0` in the scope of `t0`, an identity it binds again. -/
def shadowingEnv : Env :=
  (Env.empty.insertType ⟨0⟩).insertTerm "f" (.all ⟨1⟩ (.all ⟨0⟩ (.arrow (.var ⟨1⟩) (.var ⟨0⟩))))

/-- `f [t0]` captures `t0`, and its type is still well formed. -/
theorem shadowing_instance_wellFormed :
    shadowingEnv.Regular ∧
      typeOfIn shadowingEnv (.tapp (.var "f") (.var ⟨0⟩)) =
        .ok (.all ⟨0⟩ (.arrow (.var ⟨0⟩) (.var ⟨0⟩))) ∧
      shadowingEnv.wellFormed (.all ⟨0⟩ (.arrow (.var ⟨0⟩) (.var ⟨0⟩))) = .ok () := by
  have regular : shadowingEnv.Regular := (Env.Regular.empty.insertType ⟨0⟩).insertTerm rfl "f"
  have found : typeOfIn shadowingEnv (.tapp (.var "f") (.var ⟨0⟩)) =
      .ok (.all ⟨0⟩ (.arrow (.var ⟨0⟩) (.var ⟨0⟩))) := rfl
  exact ⟨regular, found, (typeOfIn_wellFormed.1 _ _ _ regular found).1⟩

end PolyLambda
