import PolyLambda.Expr.Basic
import PolyLambda.Ty.Subst

/-! # Binders of types and terms

The identities that types and terms bind, one entry for each binder.  A type is
unshadowed when no quantifier in it binds an identity again that a quantifier
around it has bound; two quantifiers beside each other may share one. -/

set_option autoImplicit false

namespace PolyLambda

namespace Ty

def binders : Ty → List TyVar
  | .int => []
  | .var _ => []
  | .arrow domain codomain => domain.binders ++ codomain.binders
  | .quant _ v body => v :: body.binders

def Unshadowed : Ty → Prop
  | .int => True
  | .var _ => True
  | .arrow domain codomain => domain.Unshadowed ∧ codomain.Unshadowed
  | .quant _ v body => v ∉ body.binders ∧ body.Unshadowed

instance decidableUnshadowed : (ty : Ty) → Decidable ty.Unshadowed
  | .int => isTrue trivial
  | .var _ => isTrue trivial
  | .arrow domain codomain =>
      haveI := decidableUnshadowed domain
      haveI := decidableUnshadowed codomain
      inferInstanceAs (Decidable (_ ∧ _))
  | .quant _ v body =>
      haveI := decidableUnshadowed body
      inferInstanceAs (Decidable (v ∉ body.binders ∧ _))

theorem mem_binders_of_subst {v w : TyVar} {ty replacement : Ty}
    (member : w ∈ (ty.subst v replacement).binders) :
    w ∈ ty.binders ∨ w ∈ replacement.binders := by
  induction ty with
  | int => simp [subst, binders] at member
  | var u =>
      by_cases same : u = v
      · rw [subst, if_pos same] at member
        exact .inr member
      · rw [subst, if_neg same] at member
        exact .inl member
  | arrow domain codomain domainInduction codomainInduction =>
      simp only [subst, binders, List.mem_append] at member ⊢
      rcases member with member | member
      · exact (domainInduction member).imp_left .inl
      · exact (codomainInduction member).imp_left .inr
  | quant q u body bodyInduction =>
      simp only [subst, binders, List.mem_cons] at member ⊢
      rcases member with member | member
      · exact .inl (.inl member)
      · exact (bodyInduction member).imp_left .inr

theorem unshadowed_subst {v : TyVar} {ty replacement : Ty} (typeUnshadowed : ty.Unshadowed)
    (replacementUnshadowed : replacement.Unshadowed)
    (apart : ∀ w ∈ ty.binders, w ∉ replacement.binders) :
    (ty.subst v replacement).Unshadowed := by
  induction ty with
  | int => trivial
  | var u =>
      rw [subst]
      split
      · exact replacementUnshadowed
      · trivial
  | arrow domain codomain domainInduction codomainInduction =>
      simp only [binders, List.mem_append] at apart
      exact ⟨domainInduction typeUnshadowed.1 fun w member => apart w (.inl member),
        codomainInduction typeUnshadowed.2 fun w member => apart w (.inr member)⟩
  | quant q u body bodyInduction =>
      simp only [binders, List.mem_cons] at apart
      refine ⟨?_, bodyInduction typeUnshadowed.2 fun w member => apart w (.inr member)⟩
      intro rebound
      rcases mem_binders_of_subst rebound with inBody | inReplacement
      · exact typeUnshadowed.1 inBody
      · exact apart u (.inl rfl) inReplacement

end Ty

def Expr.binders : Expr → List TyVar
  | .lit _ => []
  | .var _ => []
  | .abs _ paramTy body => paramTy.binders ++ body.binders
  | .app func arg => func.binders ++ arg.binders
  | .tabs v body => v :: body.binders
  | .tapp func arg => func.binders ++ arg.binders
  | .pack witness body v bodyTy => witness.binders ++ (body.binders ++ v :: bodyTy.binders)
  | .unpack v _ packed cont => v :: (packed.binders ++ cont.binders)

theorem Expr.sublist_binders_pack (witness : Ty) (body : Expr) (v : TyVar) (bodyTy : Ty) :
    (Ty.ex v bodyTy).binders.Sublist (pack witness body v bodyTy).binders :=
  (List.sublist_append_right _ _).trans (List.sublist_append_right _ _)

theorem Ty.unshadowed_of_nodup {ty : Ty} (distinct : ty.binders.Nodup) : ty.Unshadowed := by
  induction ty with
  | int => trivial
  | var v => trivial
  | arrow domain codomain domainInduction codomainInduction =>
      rw [binders, List.nodup_append] at distinct
      exact ⟨domainInduction distinct.1, codomainInduction distinct.2.1⟩
  | quant q v body bodyInduction =>
      rw [binders, List.nodup_cons] at distinct
      exact ⟨distinct.1, bodyInduction distinct.2⟩

end PolyLambda
