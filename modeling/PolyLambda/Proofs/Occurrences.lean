import PolyLambda.Proofs.Binders
import PolyLambda.Proofs.FreeVariables

/-! # Occurrences of variables

`Ty.occurrences` lists every occurrence of a variable in a type, from left to right,
with the quantifiers around it.  A type is rejected in a scope because of the first
occurrence that neither the scope nor one of those quantifiers binds
(`firstUnbound?_eq_some_iff`).

A substitution puts the replacement at every occurrence of its variable, and what is
free in the replacement stays free at an occurrence unless a quantifier around it binds
it.  `mem_freeVars_subst_iff` says so exactly, with no assumption on identities. -/

set_option autoImplicit false

namespace PolyLambda

/-- An occurrence of a variable, with the quantifiers around it, outermost first. -/
structure Occurrence where
  binders : List TyVar
  v : TyVar
deriving DecidableEq, Repr

namespace Occurrence

def under (w : TyVar) (occurrence : Occurrence) : Occurrence :=
  ⟨w :: occurrence.binders, occurrence.v⟩

/-- The scope holds the variable, or a quantifier around the occurrence binds it. -/
def BoundIn (scope : Scope) (occurrence : Occurrence) : Prop :=
  occurrence.v ∈ scope ∨ occurrence.v ∈ occurrence.binders

instance (scope : Scope) (occurrence : Occurrence) : Decidable (occurrence.BoundIn scope) :=
  inferInstanceAs (Decidable (_ ∨ _))

theorem not_boundIn_iff {scope : Scope} {occurrence : Occurrence} :
    ¬ occurrence.BoundIn scope ↔
      occurrence.v ∉ occurrence.binders ∧ occurrence.v ∉ scope := by
  unfold BoundIn
  rw [not_or, and_comm]

end Occurrence

namespace Ty

def occurrences : Ty → List Occurrence
  | .int => []
  | .var v => [⟨[], v⟩]
  | .arrow domain codomain => domain.occurrences ++ codomain.occurrences
  | .quant _ w body => body.occurrences.map (Occurrence.under w)

theorem mem_occurrences_quant {q : Quantifier} {v w : TyVar} {body : Ty} {binders : List TyVar} :
    ⟨binders, v⟩ ∈ occurrences (.quant q w body) ↔
      ∃ inner, binders = w :: inner ∧ ⟨inner, v⟩ ∈ body.occurrences := by
  simp only [occurrences, List.mem_map, Occurrence.under]
  constructor
  · rintro ⟨occurrence, member, same⟩
    cases same
    exact ⟨occurrence.binders, rfl, member⟩
  · rintro ⟨inner, rfl, member⟩
    exact ⟨⟨inner, v⟩, member, rfl⟩

theorem mem_binders_of_mem_occurrences {v w : TyVar} {ty : Ty} {binders : List TyVar}
    (occurs : ⟨binders, v⟩ ∈ ty.occurrences) (around : w ∈ binders) : w ∈ ty.binders := by
  induction ty generalizing binders with
  | int => simp [occurrences] at occurs
  | var u =>
      simp only [occurrences, List.mem_singleton, Occurrence.mk.injEq] at occurs
      simp [occurs.1] at around
  | arrow domain codomain domainInduction codomainInduction =>
      rw [Ty.binders, List.mem_append]
      rcases List.mem_append.mp occurs with occurs | occurs
      · exact .inl (domainInduction occurs around)
      · exact .inr (codomainInduction occurs around)
  | quant q u body bodyInduction =>
      obtain ⟨inner, rfl, inside⟩ := mem_occurrences_quant.mp occurs
      rw [Ty.binders, List.mem_cons]
      exact (List.mem_cons.mp around).imp_right (bodyInduction inside)

theorem freeOccurrences_eq (ty : Ty) :
    ty.freeOccurrences = (ty.occurrences.filter (fun o => o.v ∉ o.binders)).map Occurrence.v := by
  induction ty with
  | int => rfl
  | var v => rfl
  | arrow domain codomain domainInduction codomainInduction =>
      rw [freeOccurrences, occurrences, List.filter_append, List.map_append, domainInduction,
        codomainInduction]
  | quant q w body bodyInduction =>
      have sameTest : (fun o : Occurrence => decide (w ≠ o.v) && decide (o.v ∉ o.binders)) =
          (fun o : Occurrence => decide (o.v ∉ o.binders)) ∘ Occurrence.under w := by
        funext o
        simp [Occurrence.under, eq_comm]
      rw [freeOccurrences, bodyInduction, List.filter_map, List.filter_filter, occurrences,
        List.filter_map, List.map_map, ← sameTest]
      rfl

theorem mem_freeVars_iff_occurrence {v : TyVar} {ty : Ty} :
    v ∈ ty.freeVars ↔ ∃ binders, ⟨binders, v⟩ ∈ ty.occurrences ∧ v ∉ binders := by
  rw [← mem_freeOccurrences_iff, freeOccurrences_eq]
  simp only [List.mem_map, List.mem_filter, decide_eq_true_eq]
  constructor
  · rintro ⟨occurrence, found, rfl⟩
    exact ⟨occurrence.binders, found⟩
  · rintro ⟨binders, found⟩
    exact ⟨⟨binders, v⟩, found, rfl⟩

/-! ## The occurrence that is reported -/

theorem firstUnbound?_eq_some_iff {scope : Scope} {ty : Ty} {v : TyVar} :
    ty.firstUnbound? scope = some v ↔ ∃ before binders after,
      ty.occurrences = before ++ ⟨binders, v⟩ :: after ∧
        (∀ occurrence ∈ before, occurrence.BoundIn scope) ∧
        ¬ Occurrence.BoundIn scope ⟨binders, v⟩ := by
  rw [firstUnbound?_eq_find?, freeOccurrences_eq, List.find?_map, List.find?_filter,
    Option.map_eq_some_iff]
  simp only [List.find?_eq_some_iff_append, decide_eq_true_eq, Bool.not_eq_true',
    decide_eq_false_iff_not, Function.comp_apply, ← Occurrence.not_boundIn_iff,
    Decidable.not_not]
  constructor
  · rintro ⟨⟨binders, _⟩, ⟨unbound, before, after, split, passed⟩, rfl⟩
    exact ⟨before, binders, after, split, passed, unbound⟩
  · rintro ⟨before, binders, after, split, passed, unbound⟩
    exact ⟨⟨binders, v⟩, ⟨unbound, before, after, split, passed⟩, rfl⟩

theorem wellFormed_eq_error_iff {scope : Scope} {ty : Ty} {error : TypeError} :
    ty.wellFormed scope = .error error ↔
      ∃ v, ty.firstUnbound? scope = some v ∧ error = .unboundTypeVariable v := by
  rw [wellFormed]
  cases ty.firstUnbound? scope <;> simp [eq_comm]

/-! ## Closing a type -/

/-- `ty` under a quantifier for each entry, the first entry innermost. -/
def closeOver (ty : Ty) (entries : List (Quantifier × TyVar)) : Ty :=
  entries.foldl (fun inner entry => .quant entry.1 entry.2 inner) ty

theorem mem_freeVars_closeOver {v : TyVar} {ty : Ty} {entries : List (Quantifier × TyVar)} :
    v ∈ (ty.closeOver entries).freeVars ↔ v ∈ ty.freeVars ∧ v ∉ entries.map Prod.snd := by
  induction entries generalizing ty with
  | nil => simp [closeOver]
  | cons entry entries entriesInduction =>
      have step : v ∈ (ty.closeOver (entry :: entries)).freeVars ↔
          v ∈ (Ty.quant entry.1 entry.2 ty).freeVars ∧ v ∉ entries.map Prod.snd :=
        entriesInduction
      rw [step, mem_freeVars_quant, List.map_cons, List.mem_cons, not_or, ne_comm]
      exact and_assoc.trans and_left_comm

theorem closeOver_wellFormed {ty : Ty} {entries : List (Quantifier × TyVar)}
    (complete : ∀ v ∈ ty.freeVars, v ∈ entries.map Prod.snd) (scope : Scope) :
    (ty.closeOver entries).wellFormed scope = .ok () := by
  rw [wellFormed_eq_ok_iff]
  intro v free
  obtain ⟨free, unquantified⟩ := mem_freeVars_closeOver.mp free
  exact absurd (complete v free) unquantified

/-- The traversals of a type agree on which variables are free in it, and scoping on the
first of them, reading from left to right, that the scope does not hold. -/
theorem free_variable_traversals_agree (ty : Ty) :
    (∀ v, (v ∈ ty.freeVars ↔ ty.occursFree v = true) ∧
      (ty.occursFree v = true ↔ ¬ ty.notEscape v = true)) ∧
    (∀ scope, ty.wellFormed scope = .ok () ↔ ∀ v ∈ ty.freeVars, v ∈ scope) ∧
    (∀ scope error, ty.wellFormed scope = .error error ↔ ∃ before binders v after,
      ty.occurrences = before ++ ⟨binders, v⟩ :: after ∧
        (∀ occurrence ∈ before, occurrence.BoundIn scope) ∧
        ¬ Occurrence.BoundIn scope ⟨binders, v⟩ ∧ error = .unboundTypeVariable v) ∧
    ∀ entries : List (Quantifier × TyVar), (entries.map Prod.snd).Perm ty.freeVars.toList →
      (ty.closeOver entries).wellFormed ∅ = .ok () := by
  refine ⟨?_, fun scope => wellFormed_eq_ok_iff scope ty, ?_, ?_⟩
  · intro v
    rw [notEscape_iff_not_mem_freeVars, Decidable.not_not, occursFree_iff_mem_freeVars]
    exact ⟨Iff.rfl, Iff.rfl⟩
  · intro scope error
    rw [wellFormed_eq_error_iff]
    simp only [firstUnbound?_eq_some_iff]
    constructor
    · rintro ⟨v, ⟨before, binders, after, split, passed, unbound⟩, rfl⟩
      exact ⟨before, binders, v, after, split, passed, unbound, rfl⟩
    · rintro ⟨before, binders, v, after, split, passed, unbound, rfl⟩
      exact ⟨v, ⟨before, binders, after, split, passed, unbound⟩, rfl⟩
  · intro entries order
    apply closeOver_wellFormed
    intro v free
    exact order.mem_iff.mpr (Std.ExtTreeSet.mem_toList.mpr free)

/-- `(∀t0. t0 -> t1) -> (∃t1. t1 -> t0) -> t1` -/
def crossedScopes : Ty :=
  .arrow (.all ⟨0⟩ (.arrow (.var ⟨0⟩) (.var ⟨1⟩)))
    (.arrow (.ex ⟨1⟩ (.arrow (.var ⟨1⟩) (.var ⟨0⟩))) (.var ⟨1⟩))

/-- In the scope of `t1` the fourth occurrence is the first unbound one: the quantifier
for `t0` ends with the domain. -/
theorem crossedScopes_report :
    crossedScopes.wellFormed ((∅ : Scope).insert ⟨1⟩) = .error (.unboundTypeVariable ⟨0⟩) ∧
      [⟨1⟩, ⟨0⟩].Perm crossedScopes.freeVars.toList ∧
      (crossedScopes.closeOver [(.ex, ⟨1⟩), (.all, ⟨0⟩)]).wellFormed ∅ = .ok () := by
  have order : [⟨1⟩, ⟨0⟩].Perm crossedScopes.freeVars.toList := by decide
  obtain ⟨-, -, report, close⟩ := free_variable_traversals_agree crossedScopes
  refine ⟨(report _ _).mpr ?_, order, close [(.ex, ⟨1⟩), (.all, ⟨0⟩)] order⟩
  refine ⟨[⟨[⟨0⟩], ⟨0⟩⟩, ⟨[⟨0⟩], ⟨1⟩⟩, ⟨[⟨1⟩], ⟨1⟩⟩], [⟨1⟩], ⟨0⟩, [⟨[], ⟨1⟩⟩], rfl, ?_, ?_, rfl⟩
  · decide
  · decide

/-! ## Free variables after a substitution -/

theorem mem_freeVars_subst_iff {v w : TyVar} {ty replacement : Ty} :
    w ∈ (ty.subst v replacement).freeVars ↔ (v ≠ w ∧ w ∈ ty.freeVars) ∨
      (w ∈ replacement.freeVars ∧ ∃ binders, ⟨binders, v⟩ ∈ ty.occurrences ∧ w ∉ binders) := by
  induction ty with
  | int => simp [subst, occurrences]
  | var u =>
      by_cases same : u = v
      · subst same
        simp [subst, occurrences]
      · have kept : v ≠ w ∧ u = w ↔ u = w := by
          constructor
          · exact And.right
          · rintro rfl
            exact ⟨Ne.symm same, rfl⟩
        simp [subst, occurrences, same, Ne.symm same, kept]
  | arrow domain codomain domainInduction codomainInduction =>
      simp only [subst, mem_freeVars_arrow, domainInduction, codomainInduction, occurrences,
        List.mem_append, and_or_left, or_and_right, exists_or]
      exact or_or_or_comm
  | quant q u body bodyInduction =>
      -- Around `body` there is one more binder, which `w` must not be on either side.
      simp only [subst, mem_freeVars_quant, bodyInduction, mem_occurrences_quant]
      constructor
      · rintro ⟨apart, ⟨other, free⟩ | ⟨brought, binders, occurs, uncaptured⟩⟩
        · exact .inl ⟨other, apart, free⟩
        · refine .inr ⟨brought, u :: binders, ⟨binders, rfl, occurs⟩, ?_⟩
          rw [List.mem_cons, not_or]
          exact ⟨Ne.symm apart, uncaptured⟩
      · rintro (⟨other, apart, free⟩ | ⟨brought, _, ⟨binders, rfl, occurs⟩, uncaptured⟩)
        · exact ⟨apart, .inl ⟨other, free⟩⟩
        · rw [List.mem_cons, not_or] at uncaptured
          exact ⟨Ne.symm uncaptured.1, .inr ⟨brought, binders, occurs, uncaptured.2⟩⟩

theorem mem_scope_of_subst {scope : Scope} {v : TyVar} {ty replacement : Ty}
    (keptInScope : ∀ w ∈ ty.freeVars, v ≠ w → w ∈ scope)
    (replacementInScope : ∀ w ∈ replacement.freeVars, w ∈ scope) :
    ∀ w ∈ (ty.subst v replacement).freeVars, w ∈ scope := by
  intro w free
  rcases mem_freeVars_subst_iff.mp free with ⟨other, kept⟩ | ⟨brought, -⟩
  · exact keptInScope w kept other
  · exact replacementInScope w brought

theorem freeVars_subst_eq_of_uncaptured {v : TyVar} {ty replacement : Ty} (free : v ∈ ty.freeVars)
    (uncaptured : ∀ w ∈ ty.binders, w ∉ replacement.freeVars) :
    (ty.subst v replacement).freeVars = ty.freeVars.erase v ∪ replacement.freeVars := by
  obtain ⟨binders, occurs, -⟩ := mem_freeVars_iff_occurrence.mp free
  apply Std.ExtTreeSet.ext_mem
  intro w
  rw [mem_freeVars_subst_iff, Std.ExtTreeSet.mem_union_iff, Scope.mem_erase_iff]
  apply or_congr_right
  constructor
  · exact And.left
  · intro brought
    refine ⟨brought, binders, occurs, ?_⟩
    intro around
    exact uncaptured w (mem_binders_of_mem_occurrences occurs around) brought

/-- What a substitution leaves free, whatever it captures: everything that was free but the
variable, and beyond that only what is free in the replacement. -/
theorem freeVars_subst_accounting (ty replacement : Ty) (v : TyVar) :
    (∀ w ∈ ty.freeVars.erase v, w ∈ (ty.subst v replacement).freeVars) ∧
    (∀ w ∈ (ty.subst v replacement).freeVars, w ∈ ty.freeVars.erase v ∪ replacement.freeVars) ∧
    (v ∈ ty.freeVars → (∀ w ∈ ty.binders, w ∉ replacement.freeVars) →
      (ty.subst v replacement).freeVars = ty.freeVars.erase v ∪ replacement.freeVars) ∧
    (∀ scope : Scope, ty.wellFormed (scope.insert v) = .ok () →
      replacement.wellFormed scope = .ok () →
        (ty.subst v replacement).wellFormed scope = .ok ()) ∧
    (v ∉ replacement.freeVars → (ty.subst v replacement).notEscape v = true) := by
  refine ⟨?_, ?_, freeVars_subst_eq_of_uncaptured, ?_, ?_⟩
  · intro w kept
    exact mem_freeVars_subst_iff.mpr (.inl (Scope.mem_erase_iff.mp kept))
  · intro w free
    rw [Std.ExtTreeSet.mem_union_iff, Scope.mem_erase_iff]
    exact (mem_freeVars_subst_iff.mp free).imp_right And.left
  · intro scope inScope replacementInScope
    rw [wellFormed_eq_ok_iff] at inScope replacementInScope ⊢
    apply mem_scope_of_subst ?_ replacementInScope
    intro w kept other
    exact (Scope.mem_insert_iff.mp (inScope w kept)).resolve_left other
  · intro absent
    rw [notEscape_iff_not_mem_freeVars]
    intro free
    rcases mem_freeVars_subst_iff.mp free with ⟨other, -⟩ | ⟨brought, -⟩
    · exact other rfl
    · exact absent brought

/-- `t0 -> ∀t1. t0 -> ∃t0. t0 -> t2`, where `t0` is free twice and bound once. -/
def reboundInside : Ty :=
  .arrow (.var ⟨0⟩)
    (.all ⟨1⟩ (.arrow (.var ⟨0⟩) (.ex ⟨0⟩ (.arrow (.var ⟨0⟩) (.var ⟨2⟩)))))

/-- The bound occurrence is replaced too, and the free variables come out the same. -/
theorem reboundInside_accounting :
    (⟨0⟩ ∈ reboundInside.freeVars ∧
      ∀ w ∈ reboundInside.binders, w ∉ (Ty.arrow (.var ⟨2⟩) (.var ⟨3⟩)).freeVars) ∧
    (reboundInside.subst ⟨0⟩ (.arrow (.var ⟨2⟩) (.var ⟨3⟩))).freeVars =
      reboundInside.freeVars.erase ⟨0⟩ ∪ (Ty.arrow (.var ⟨2⟩) (.var ⟨3⟩)).freeVars ∧
    (reboundInside.subst ⟨0⟩ (.arrow (.var ⟨2⟩) (.var ⟨3⟩))).wellFormed
      (((∅ : Scope).insert ⟨2⟩).insert ⟨3⟩) = .ok () ∧
    (reboundInside.subst ⟨0⟩ (.arrow (.var ⟨2⟩) (.var ⟨3⟩))).notEscape ⟨0⟩ = true := by
  have free : ⟨0⟩ ∈ reboundInside.freeVars := by decide
  have uncaptured : ∀ w ∈ reboundInside.binders,
      w ∉ (Ty.arrow (.var ⟨2⟩) (.var ⟨3⟩)).freeVars := by decide
  obtain ⟨-, -, attained, inScope, removed⟩ :=
    freeVars_subst_accounting reboundInside (.arrow (.var ⟨2⟩) (.var ⟨3⟩)) ⟨0⟩
  exact ⟨⟨free, uncaptured⟩, attained free uncaptured, inScope _ rfl rfl, removed (by decide)⟩

-- A quantifier that binds what is free in the replacement keeps the bound out of reach.
example : ((Ty.all ⟨1⟩ (.var ⟨0⟩)).subst ⟨0⟩ (.var ⟨1⟩)).freeVars = ∅ := by decide

end Ty

end PolyLambda
