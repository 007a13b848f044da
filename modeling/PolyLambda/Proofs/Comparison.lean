import PolyLambda.Proofs.Nameless
import PolyLambda.Ty.Alpha

/-! # Comparison and nameless forms

A comparison that has entered some binders on both sides works under the
renaming built from the pairs of binders, innermost first.  `alphaEqIn_snd` says
that it leaves this renaming as it found it, so its verdict is a conjunction over
the pairs of leaves: `Matched` says what an accepted comparison has seen.  A pair of
leaves is judged by what `Ref.resolve` says about the two stacks of binders.

Equal nameless forms are always accepted.  The converse takes a comparison in
each direction, or a right-hand side that binds no identity twice on a path and
none that is free on the left. -/

set_option autoImplicit false

namespace PolyLambda

namespace Renaming

theorem apply_empty (v : TyVar) : (∅ : Renaming).apply v = v := by
  simp [apply]

theorem apply_insert_self (ρ : Renaming) (v w : TyVar) : apply (ρ.insert v w) v = w := by
  simp [apply]

theorem apply_insert_of_ne (ρ : Renaming) {v u : TyVar} (w : TyVar) (other : v ≠ u) :
    apply (ρ.insert v w) u = ρ.apply u := by
  simp [apply, Std.ExtTreeMap.getElem?_insert, other]

theorem restore_insert (ρ : Renaming) (v w : TyVar) : restore (ρ.insert v w) v ρ[v]? = ρ := by
  apply Std.ExtTreeMap.ext_getElem?
  intro u
  by_cases same : v = u
  · subst same
    cases saved : ρ[v]? with
    | none => simp [restore]
    | some partner => simp [restore]
  · cases ρ[v]? with
    | none => simp [restore, Std.ExtTreeMap.getElem?_erase, Std.ExtTreeMap.getElem?_insert, same]
    | some partner => simp [restore, Std.ExtTreeMap.getElem?_insert, same]

/-- The renaming after pairs of binders have been entered, innermost first. -/
def enter (ρ : Renaming) : List (TyVar × TyVar) → Renaming
  | [] => ρ
  | (v, w) :: pairs => (ρ.enter pairs).insert v w

theorem apply_enter_of_not_mem {pairs : List (TyVar × TyVar)} {v : TyVar}
    (outside : v ∉ pairs.map Prod.fst) : (enter ∅ pairs).apply v = v := by
  induction pairs with
  | nil => exact apply_empty v
  | cons pair pairs pairsInduction =>
      rw [List.map_cons, List.mem_cons, not_or] at outside
      rw [enter, apply_insert_of_ne _ _ (Ne.symm outside.1)]
      exact pairsInduction outside.2

theorem apply_enter_mem {pairs : List (TyVar × TyVar)} {v : TyVar}
    (member : v ∈ pairs.map Prod.fst) : (enter ∅ pairs).apply v ∈ pairs.map Prod.snd := by
  induction pairs with
  | nil => exact absurd member List.not_mem_nil
  | cons pair pairs pairsInduction =>
      rw [enter, List.map_cons]
      by_cases here : pair.1 = v
      · rw [← here, apply_insert_self]
        exact List.mem_cons_self
      · rw [apply_insert_of_ne _ _ here]
        have further : v ∈ pairs.map Prod.fst :=
          (List.mem_cons.mp member).resolve_left (Ne.symm here)
        exact List.mem_cons_of_mem _ (pairsInduction further)

/-! ## Leaves -/

theorem apply_eq_of_resolve_eq {pairs : List (TyVar × TyVar)} {stack : List TyVar} {v w : TyVar}
    (same : Ref.resolve (pairs.map Prod.fst ++ stack) v =
      Ref.resolve (pairs.map Prod.snd ++ stack) w) :
    (enter ∅ pairs).apply v = w := by
  induction pairs with
  | nil => rw [enter, apply_empty, Ref.resolve_injective same]
  | cons pair pairs pairsInduction =>
      simp only [List.map_cons, List.cons_append] at same
      by_cases left : pair.1 = v
      · by_cases right : pair.2 = w
        · rw [enter, ← left, apply_insert_self, right]
        · rw [← left, Ref.resolve_cons_self, Ref.resolve_cons_of_ne _ right] at same
          exact absurd same.symm (Ref.liftFrom_ne_bound 0 _)
      · by_cases right : pair.2 = w
        · rw [← right, Ref.resolve_cons_self, Ref.resolve_cons_of_ne _ left] at same
          exact absurd same (Ref.liftFrom_ne_bound 0 _)
        · rw [Ref.resolve_cons_of_ne _ left, Ref.resolve_cons_of_ne _ right] at same
          rw [enter, apply_insert_of_ne _ _ left]
          exact pairsInduction (Ref.liftFrom_injective same)

theorem resolve_eq_of_apply_both {pairs : List (TyVar × TyVar)} (stack : List TyVar) {v w : TyVar}
    (forth : (enter ∅ pairs).apply v = w)
    (back : (enter ∅ (pairs.map Prod.swap)).apply w = v) :
    Ref.resolve (pairs.map Prod.fst ++ stack) v = Ref.resolve (pairs.map Prod.snd ++ stack) w := by
  induction pairs with
  | nil =>
      rw [enter, apply_empty] at forth
      rw [forth]
      rfl
  | cons pair pairs pairsInduction =>
      simp only [List.map_cons, List.cons_append, enter, Prod.fst_swap, Prod.snd_swap]
        at forth back ⊢
      by_cases left : pair.1 = v
      · rw [← left, apply_insert_self] at forth
        rw [left, forth, Ref.resolve_cons_self, Ref.resolve_cons_self]
      · have right : pair.2 ≠ w := by
          intro bound
          rw [← bound, apply_insert_self] at back
          exact left back
        rw [apply_insert_of_ne _ _ left] at forth
        rw [apply_insert_of_ne _ _ right] at back
        rw [Ref.resolve_cons_of_ne _ left, Ref.resolve_cons_of_ne _ right,
          pairsInduction forth back]

theorem resolve_eq_of_apply_of_nodup {pairs : List (TyVar × TyVar)} (stack : List TyVar)
    {v w : TyVar} (distinct : (pairs.map Prod.snd).Nodup)
    (uncaptured : v ∈ pairs.map Prod.fst ∨ v ∉ pairs.map Prod.snd)
    (forth : (enter ∅ pairs).apply v = w) :
    Ref.resolve (pairs.map Prod.fst ++ stack) v = Ref.resolve (pairs.map Prod.snd ++ stack) w := by
  induction pairs with
  | nil =>
      rw [enter, apply_empty] at forth
      rw [forth]
      rfl
  | cons pair pairs pairsInduction =>
      simp only [List.map_cons, List.cons_append, enter, List.nodup_cons, List.mem_cons, not_or]
        at distinct uncaptured forth ⊢
      by_cases left : pair.1 = v
      · rw [← left, apply_insert_self] at forth
        rw [left, forth, Ref.resolve_cons_self, Ref.resolve_cons_self]
      · rw [apply_insert_of_ne _ _ left] at forth
        have inner : v ∈ pairs.map Prod.fst ∨ v ∉ pairs.map Prod.snd := by
          rcases uncaptured with (here | further) | outside
          · exact absurd here.symm left
          · exact .inl further
          · exact .inr outside.2
        -- The partner of `v` is another entry of the stack, or `v` itself.
        have right : pair.2 ≠ w := by
          intro bound
          rcases uncaptured with (here | further) | outside
          · exact left here.symm
          · have partner := apply_enter_mem further
            rw [forth, ← bound] at partner
            exact distinct.1 partner
          · by_cases further : v ∈ pairs.map Prod.fst
            · have partner := apply_enter_mem further
              rw [forth, ← bound] at partner
              exact distinct.1 partner
            · rw [apply_enter_of_not_mem further] at forth
              exact outside.1 (forth.trans bound.symm)
        rw [Ref.resolve_cons_of_ne _ left, Ref.resolve_cons_of_ne _ right,
          pairsInduction distinct.2 inner forth]

end Renaming

namespace Ty

/-! ## The verdict on a pair of types -/

theorem alphaEqIn_snd (ρ : Renaming) (left right : Ty) : (alphaEqIn ρ left right).2 = ρ := by
  induction left generalizing ρ right with
  | int => cases right <;> rfl
  | var v => cases right <;> rfl
  | arrow domain codomain domainInduction codomainInduction =>
      cases right with
      | arrow domain' codomain' =>
          have first := domainInduction ρ domain'
          rw [alphaEqIn]
          cases verdict : alphaEqIn ρ domain domain' with
          | mk same after =>
              rw [verdict] at first
              cases same with
              | false => exact first
              | true => exact (codomainInduction after codomain').trans first
      | _ => rfl
  | quant q v body bodyInduction =>
      cases right with
      | quant q' w body' =>
          rw [alphaEqIn]
          split
          · dsimp only
            rw [bodyInduction (ρ.insert v w) body', Renaming.restore_insert]
          · rfl
      | _ => rfl

theorem alphaEqIn_var_iff {ρ : Renaming} {v w : TyVar} :
    (alphaEqIn ρ (.var v) (.var w)).1 = true ↔ ρ.apply v = w := by
  simp [alphaEqIn]

theorem alphaEqIn_arrow_iff {ρ : Renaming} {domain codomain domain' codomain' : Ty} :
    (alphaEqIn ρ (.arrow domain codomain) (.arrow domain' codomain')).1 = true ↔
      (alphaEqIn ρ domain domain').1 = true ∧ (alphaEqIn ρ codomain codomain').1 = true := by
  have restored := alphaEqIn_snd ρ domain domain'
  rw [alphaEqIn]
  cases verdict : alphaEqIn ρ domain domain' with
  | mk same after =>
      rw [verdict] at restored
      subst restored
      cases same <;> simp

theorem alphaEqIn_quant_iff {ρ : Renaming} {q q' : Quantifier} {v w : TyVar} {body body' : Ty} :
    (alphaEqIn ρ (.quant q v body) (.quant q' w body')).1 = true ↔
      q = q' ∧ (alphaEqIn (ρ.insert v w) body body').1 = true := by
  rw [alphaEqIn]
  by_cases sameQuantifier : q = q' <;> simp [sameQuantifier]

/-- What an accepted comparison has seen: one form on both sides, all the way down, and at
each pair of leaves the partner of the left one.  The pairs are the binders entered, innermost
first. -/
inductive Matched (ρ : Renaming) : List (TyVar × TyVar) → Ty → Ty → Prop where
  | int {pairs : List (TyVar × TyVar)} : Matched ρ pairs .int .int
  | var {pairs : List (TyVar × TyVar)} {v w : TyVar} (partner : (ρ.enter pairs).apply v = w) :
      Matched ρ pairs (.var v) (.var w)
  | arrow {pairs : List (TyVar × TyVar)} {domain codomain domain' codomain' : Ty}
      (domains : Matched ρ pairs domain domain') (codomains : Matched ρ pairs codomain codomain') :
      Matched ρ pairs (.arrow domain codomain) (.arrow domain' codomain')
  | quant {pairs : List (TyVar × TyVar)} {q : Quantifier} {v w : TyVar} {body body' : Ty}
      (bodies : Matched ρ ((v, w) :: pairs) body body') :
      Matched ρ pairs (.quant q v body) (.quant q w body')

theorem matched_of_alphaEqIn {ρ : Renaming} (pairs : List (TyVar × TyVar)) {left right : Ty}
    (accepted : (alphaEqIn (ρ.enter pairs) left right).1 = true) : Matched ρ pairs left right := by
  induction left generalizing right pairs with
  | int =>
      cases right with
      | int => exact .int
      | _ => simp [alphaEqIn] at accepted
  | var v =>
      cases right with
      | var w => exact .var (alphaEqIn_var_iff.mp accepted)
      | _ => simp [alphaEqIn] at accepted
  | arrow domain codomain domainInduction codomainInduction =>
      cases right with
      | arrow domain' codomain' =>
          obtain ⟨domains, codomains⟩ := alphaEqIn_arrow_iff.mp accepted
          exact .arrow (domainInduction pairs domains) (codomainInduction pairs codomains)
      | _ => simp [alphaEqIn] at accepted
  | quant q v body bodyInduction =>
      cases right with
      | quant q' w body' =>
          obtain ⟨rfl, bodies⟩ := alphaEqIn_quant_iff.mp accepted
          exact .quant (bodyInduction ((v, w) :: pairs) bodies)
      | _ => simp [alphaEqIn] at accepted

theorem Matched.alphaEqIn {ρ : Renaming} {pairs : List (TyVar × TyVar)} {left right : Ty}
    (matched : Matched ρ pairs left right) :
    (alphaEqIn (ρ.enter pairs) left right).1 = true := by
  induction matched with
  | int => rfl
  | var partner => exact alphaEqIn_var_iff.mpr partner
  | arrow _ _ domains codomains => exact alphaEqIn_arrow_iff.mpr ⟨domains, codomains⟩
  | quant _ bodies => exact alphaEqIn_quant_iff.mpr ⟨rfl, bodies⟩

theorem alphaEq_iff_matched {left right : Ty} :
    left.alphaEq right = true ↔ Matched ∅ [] left right :=
  ⟨matched_of_alphaEqIn [], Matched.alphaEqIn⟩

theorem alphaEqIn_of_nameless_eq (pairs : List (TyVar × TyVar)) {stack : List TyVar}
    {left right : Ty}
    (same : left.nameless (pairs.map Prod.fst ++ stack) =
      right.nameless (pairs.map Prod.snd ++ stack)) :
    (alphaEqIn (.enter ∅ pairs) left right).1 = true := by
  induction left generalizing right pairs with
  | int =>
      cases right with
      | int => rfl
      | _ => simp [nameless] at same
  | var v =>
      cases right with
      | var w =>
          exact alphaEqIn_var_iff.mpr (Renaming.apply_eq_of_resolve_eq (NamelessTy.var.inj same))
      | _ => simp [nameless] at same
  | arrow domain codomain domainInduction codomainInduction =>
      cases right with
      | arrow domain' codomain' =>
          obtain ⟨domains, codomains⟩ := NamelessTy.arrow.inj same
          exact alphaEqIn_arrow_iff.mpr
            ⟨domainInduction pairs domains, codomainInduction pairs codomains⟩
      | _ => simp [nameless] at same
  | quant q v body bodyInduction =>
      cases right with
      | quant q' w body' =>
          obtain ⟨quantifiers, bodies⟩ := NamelessTy.quant.inj same
          exact alphaEqIn_quant_iff.mpr
            ⟨quantifiers, bodyInduction ((v, w) :: pairs) bodies⟩
      | _ => simp [nameless] at same

theorem nameless_eq_of_alphaEqIn_both (pairs : List (TyVar × TyVar)) (stack : List TyVar)
    {left right : Ty} (forth : (alphaEqIn (.enter ∅ pairs) left right).1 = true)
    (back : (alphaEqIn (.enter ∅ (pairs.map Prod.swap)) right left).1 = true) :
    left.nameless (pairs.map Prod.fst ++ stack) = right.nameless (pairs.map Prod.snd ++ stack) := by
  have matched := matched_of_alphaEqIn pairs forth
  clear forth
  induction matched with
  | int => rfl
  | var partner =>
      exact congrArg NamelessTy.var
        (Renaming.resolve_eq_of_apply_both stack partner (alphaEqIn_var_iff.mp back))
  | arrow _ _ domainInduction codomainInduction =>
      obtain ⟨domainBack, codomainBack⟩ := alphaEqIn_arrow_iff.mp back
      simp only [nameless]
      rw [domainInduction domainBack, codomainInduction codomainBack]
  | @quant _ q _ _ _ _ _ bodyInduction =>
      obtain ⟨-, bodyBack⟩ := alphaEqIn_quant_iff.mp back
      exact congrArg (NamelessTy.quant q) (bodyInduction bodyBack)

theorem Matched.nameless_eq_of_unshadowed {pairs : List (TyVar × TyVar)} (stack : List TyVar)
    {left right : Ty} (matched : Matched ∅ pairs left right)
    (distinct : (pairs.map Prod.snd).Nodup) (unshadowed : right.Unshadowed)
    (unentered : ∀ w ∈ right.binders, w ∉ pairs.map Prod.snd)
    (uncaptured : ∀ v ∈ left.freeVars,
      v ∈ pairs.map Prod.fst ∨ (v ∉ pairs.map Prod.snd ∧ v ∉ right.binders)) :
    left.nameless (pairs.map Prod.fst ++ stack) = right.nameless (pairs.map Prod.snd ++ stack) := by
  induction matched with
  | int => rfl
  | @var _ v _ partner =>
      have leaf := (uncaptured v (mem_freeVars_var.mpr rfl)).imp_right And.left
      exact congrArg NamelessTy.var
        (Renaming.resolve_eq_of_apply_of_nodup stack distinct leaf partner)
  | arrow _ _ domainInduction codomainInduction =>
      simp only [binders, List.mem_append, mem_freeVars_arrow, not_or] at unentered uncaptured
      have domains := domainInduction distinct unshadowed.1
        (fun w member => unentered w (.inl member))
        (fun v free => (uncaptured v (.inl free)).imp_right fun apart => ⟨apart.1, apart.2.1⟩)
      have codomains := codomainInduction distinct unshadowed.2
        (fun w member => unentered w (.inr member))
        (fun v free => (uncaptured v (.inr free)).imp_right fun apart => ⟨apart.1, apart.2.2⟩)
      simp only [nameless]
      rw [domains, codomains]
  | @quant pairs q v w body body' _ bodyInduction =>
      simp only [binders, List.mem_cons, mem_freeVars_quant, not_or] at unentered uncaptured
      have distinctInside : (((v, w) :: pairs).map Prod.snd).Nodup :=
        List.nodup_cons.mpr ⟨unentered w (.inl rfl), distinct⟩
      have unenteredInside : ∀ u ∈ body'.binders, u ∉ ((v, w) :: pairs).map Prod.snd := by
        intro u member entered
        rcases List.mem_cons.mp entered with same | further
        · obtain rfl : u = w := same
          exact unshadowed.1 member
        · exact unentered u (.inr member) further
      have uncapturedInside : ∀ u ∈ body.freeVars, u ∈ ((v, w) :: pairs).map Prod.fst ∨
          (u ∉ ((v, w) :: pairs).map Prod.snd ∧ u ∉ body'.binders) := by
        intro u free
        by_cases bound : v = u
        · exact .inl (bound ▸ List.mem_cons_self)
        · rcases uncaptured u ⟨bound, free⟩ with entered | ⟨outside, other, apart⟩
          · exact .inl (List.mem_cons_of_mem v entered)
          · refine .inr ⟨?_, apart⟩
            simpa only [List.map_cons, List.mem_cons, not_or] using ⟨other, outside⟩
      exact congrArg (NamelessTy.quant q)
        (bodyInduction distinctInside unshadowed.2 unenteredInside uncapturedInside)

/-! ## Comparisons from the outside -/

theorem alphaEq_of_nameless_eq {stack : List TyVar} {left right : Ty}
    (same : left.nameless stack = right.nameless stack) : left.alphaEq right = true :=
  alphaEqIn_of_nameless_eq [] same

theorem alphaEq_refl (ty : Ty) : ty.alphaEq ty = true :=
  alphaEq_of_nameless_eq (rfl : ty.nameless [] = ty.nameless [])

theorem nameless_eq_of_alphaEq_of_unshadowed (stack : List TyVar) {left right : Ty}
    (unshadowed : right.Unshadowed) (uncaptured : ∀ w ∈ right.binders, w ∉ left.freeVars)
    (forth : left.alphaEq right = true) : left.nameless stack = right.nameless stack :=
  (alphaEq_iff_matched.mp forth).nameless_eq_of_unshadowed stack List.nodup_nil unshadowed
    (fun _ _ => List.not_mem_nil)
    (fun v free => .inr ⟨List.not_mem_nil, fun bound => uncaptured v bound free⟩)

/-- A comparison in each direction accepts exactly the types with one nameless form,
whatever identities the two types share or use again. -/
theorem alphaEq_both_ways_iff_nameless_eq :
    (∀ left right : Ty, (left.alphaEq right = true ∧ right.alphaEq left = true) ↔
      left.nameless [] = right.nameless []) ∧
    Equivalence fun left right : Ty => left.alphaEq right = true ∧ right.alphaEq left = true := by
  have verdict : ∀ left right : Ty, (left.alphaEq right = true ∧ right.alphaEq left = true) ↔
      left.nameless [] = right.nameless [] := by
    intro left right
    constructor
    · rintro ⟨forth, back⟩
      exact nameless_eq_of_alphaEqIn_both [] [] forth back
    · intro same
      exact ⟨alphaEq_of_nameless_eq same, alphaEq_of_nameless_eq same.symm⟩
  refine ⟨verdict, ?_, ?_, ?_⟩
  · intro ty
    exact (verdict ty ty).mpr rfl
  · intro left right accepted
    exact ⟨accepted.2, accepted.1⟩
  · intro left middle right first second
    have firstForm := (verdict left middle).mp first
    have secondForm := (verdict middle right).mp second
    exact (verdict left right).mpr (firstForm.trans secondForm)

/-- A single comparison accepts all types with one nameless form.  It accepts no others
when the right-hand side binds no identity again on a path and none that is free on the
left; the left-hand side may shadow as it likes. -/
theorem alphaEq_complete_and_sound_of_fresh (left right : Ty) :
    (left.nameless [] = right.nameless [] → left.alphaEq right = true) ∧
    (right.Unshadowed → (∀ w ∈ right.binders, w ∉ left.freeVars) → left.alphaEq right = true →
      left.nameless [] = right.nameless [] ∧ right.alphaEq left = true) := by
  constructor
  · intro same
    exact alphaEq_of_nameless_eq same
  · intro unshadowed uncaptured forth
    have same := nameless_eq_of_alphaEq_of_unshadowed [] unshadowed uncaptured forth
    exact ⟨same, alphaEq_of_nameless_eq same.symm⟩

/-- `∀t0. ∀t0. t0 -> t3`, with the outer binder out of reach. -/
def shadowedChoice : Ty := .all ⟨0⟩ (.all ⟨0⟩ (.arrow (.var ⟨0⟩) (.var ⟨3⟩)))

/-- `∀t1. ∀t2. t2 -> t3` -/
def unshadowedChoice : Ty := .all ⟨1⟩ (.all ⟨2⟩ (.arrow (.var ⟨2⟩) (.var ⟨3⟩)))

theorem shadowedChoice_alphaEq_sound :
    unshadowedChoice.Unshadowed ∧ (∀ w ∈ unshadowedChoice.binders, w ∉ shadowedChoice.freeVars) ∧
      shadowedChoice.nameless [] = unshadowedChoice.nameless [] ∧
      shadowedChoice.alphaEq unshadowedChoice = true ∧
      unshadowedChoice.alphaEq shadowedChoice = true := by
  have unshadowed : unshadowedChoice.Unshadowed := by decide
  have uncaptured : ∀ w ∈ unshadowedChoice.binders, w ∉ shadowedChoice.freeVars := by decide
  obtain ⟨complete, sound⟩ := alphaEq_complete_and_sound_of_fresh shadowedChoice unshadowedChoice
  have forth : shadowedChoice.alphaEq unshadowedChoice = true := complete rfl
  obtain ⟨same, back⟩ := sound unshadowed uncaptured forth
  exact ⟨unshadowed, uncaptured, same, forth, back⟩

-- Neither condition can be dropped: `∀t0. ∀t1. t0` passes for `∀t2. ∀t2. t2`, which binds an
-- identity again, and `∀t0. t1` passes for `∀t1. t1`, which binds one that is free on the left.
example : (Ty.all ⟨0⟩ (.all ⟨1⟩ (.var ⟨0⟩))).alphaEq (.all ⟨2⟩ (.all ⟨2⟩ (.var ⟨2⟩))) = true ∧
    (Ty.all ⟨0⟩ (.all ⟨1⟩ (.var ⟨0⟩))).nameless [] ≠
      (Ty.all ⟨2⟩ (.all ⟨2⟩ (.var ⟨2⟩))).nameless [] := by decide

example : (Ty.all ⟨0⟩ (.var ⟨1⟩)).alphaEq (.all ⟨1⟩ (.var ⟨1⟩)) = true ∧
    (Ty.all ⟨0⟩ (.var ⟨1⟩)).nameless [] ≠ (Ty.all ⟨1⟩ (.var ⟨1⟩)).nameless [] := by decide

end Ty

end PolyLambda
