import PolyLambda.Env
import PolyLambda.Expr.Basic
import PolyLambda.Ty.Free

/-! # Free variables and scopes

`freeVars` is the common measure of the traversals that look at free variables:
`occursFree` decides membership in it, and a type is well formed in a scope
exactly when the scope holds all of it.  When it is not, the identity reported is
the first free occurrence that the scope does not hold (`firstUnbound?_eq_find?`). -/

set_option autoImplicit false

namespace PolyLambda

namespace Scope

@[simp]
theorem mem_insert_iff {scope : Scope} {v w : TyVar} : w ∈ scope.insert v ↔ v = w ∨ w ∈ scope := by
  rw [Std.ExtTreeSet.mem_insert, Std.LawfulEqOrd.compare_eq_iff_eq]

@[simp]
theorem mem_erase_iff {scope : Scope} {v w : TyVar} : w ∈ scope.erase v ↔ v ≠ w ∧ w ∈ scope := by
  rw [Std.ExtTreeSet.mem_erase, ne_eq, Std.LawfulEqOrd.compare_eq_iff_eq]

end Scope

namespace Ty

@[simp]
theorem not_mem_freeVars_int {v : TyVar} : v ∉ freeVars .int := by
  simp [freeVars]

@[simp]
theorem mem_freeVars_var {v w : TyVar} : v ∈ freeVars (.var w) ↔ w = v := by
  simp [freeVars]

@[simp]
theorem mem_freeVars_arrow {v : TyVar} {domain codomain : Ty} :
    v ∈ freeVars (.arrow domain codomain) ↔ v ∈ domain.freeVars ∨ v ∈ codomain.freeVars := by
  simp [freeVars]

@[simp]
theorem mem_freeVars_quant {q : Quantifier} {v w : TyVar} {body : Ty} :
    v ∈ freeVars (.quant q w body) ↔ w ≠ v ∧ v ∈ body.freeVars := by
  simp [freeVars]

theorem occursFree_iff_mem_freeVars (v : TyVar) (ty : Ty) :
    ty.occursFree v = true ↔ v ∈ ty.freeVars := by
  induction ty with
  | int => simp [occursFree]
  | var w => simp [occursFree]
  | arrow domain codomain domainInduction codomainInduction =>
      simp [occursFree, domainInduction, codomainInduction]
  | quant q w body bodyInduction => simp [occursFree, bodyInduction]

theorem notEscape_iff_not_mem_freeVars (v : TyVar) (ty : Ty) :
    ty.notEscape v = true ↔ v ∉ ty.freeVars := by
  rw [notEscape, Bool.not_eq_true', ← Bool.not_eq_true, occursFree_iff_mem_freeVars]

theorem firstUnbound?_eq_none_iff (scope : Scope) (ty : Ty) :
    ty.firstUnbound? scope = none ↔ ∀ v ∈ ty.freeVars, v ∈ scope := by
  induction ty generalizing scope with
  | int => simp [firstUnbound?]
  | var w => simp [firstUnbound?]
  | arrow domain codomain domainInduction codomainInduction =>
      simp only [firstUnbound?, Option.or_eq_none_iff, domainInduction, codomainInduction,
        mem_freeVars_arrow]
      constructor
      · rintro ⟨inDomain, inCodomain⟩ v (free | free)
        · exact inDomain v free
        · exact inCodomain v free
      · intro inBoth
        exact ⟨fun v free => inBoth v (.inl free), fun v free => inBoth v (.inr free)⟩
  | quant q w body bodyInduction =>
      simp only [firstUnbound?, bodyInduction, mem_freeVars_quant, Scope.mem_insert_iff]
      constructor
      · rintro inBody v ⟨notBound, free⟩
        exact (inBody v free).resolve_left notBound
      · intro inScope v free
        by_cases bound : w = v
        · exact .inl bound
        · exact .inr (inScope v ⟨bound, free⟩)

theorem wellFormed_eq_ok_iff (scope : Scope) (ty : Ty) :
    ty.wellFormed scope = .ok () ↔ ∀ v ∈ ty.freeVars, v ∈ scope := by
  rw [← firstUnbound?_eq_none_iff, wellFormed]
  cases ty.firstUnbound? scope <;> simp

/-- The occurrences of variables that no quantifier binds, from left to right. -/
def freeOccurrences : Ty → List TyVar
  | .int => []
  | .var v => [v]
  | .arrow domain codomain => domain.freeOccurrences ++ codomain.freeOccurrences
  | .quant _ v body => body.freeOccurrences.filter (v ≠ ·)

theorem mem_freeOccurrences_iff {v : TyVar} {ty : Ty} :
    v ∈ ty.freeOccurrences ↔ v ∈ ty.freeVars := by
  induction ty with
  | int => simp [freeOccurrences]
  | var w => rw [freeOccurrences, List.mem_singleton, mem_freeVars_var, eq_comm]
  | arrow domain codomain domainInduction codomainInduction =>
      simp [freeOccurrences, domainInduction, codomainInduction]
  | quant q w body bodyInduction => simp [freeOccurrences, bodyInduction, and_comm]

theorem firstUnbound?_eq_find? (scope : Scope) (ty : Ty) :
    ty.firstUnbound? scope = ty.freeOccurrences.find? (· ∉ scope) := by
  induction ty generalizing scope with
  | int => rfl
  | var v => by_cases known : v ∈ scope <;> simp [firstUnbound?, freeOccurrences, known]
  | arrow domain codomain domainInduction codomainInduction =>
      rw [firstUnbound?, domainInduction, codomainInduction, freeOccurrences, List.find?_append]
  | quant q v body bodyInduction =>
      have sameTest : (fun w => decide (w ∉ scope.insert v)) =
          fun w => decide (v ≠ w) && decide (w ∉ scope) := by
        funext w
        simp
      rw [firstUnbound?, bodyInduction, freeOccurrences, List.find?_filter, sameTest]
      simp

theorem firstUnbound?_eq_some {scope : Scope} {ty : Ty} {v : TyVar}
    (reported : ty.firstUnbound? scope = some v) : v ∈ ty.freeVars ∧ v ∉ scope := by
  rw [firstUnbound?_eq_find?] at reported
  have unknown := List.find?_some reported
  refine ⟨mem_freeOccurrences_iff.mp (List.mem_of_find?_eq_some reported), ?_⟩
  simpa using unknown

end Ty

namespace Env

theorem wellFormed_eq_ok_iff (env : Env) (ty : Ty) :
    env.wellFormed ty = .ok () ↔ ∀ v ∈ ty.freeVars, v ∈ env.types :=
  Ty.wellFormed_eq_ok_iff env.types ty

theorem mem_types_of_wellFormed {env : Env} {ty : Ty} {v : TyVar}
    (inScope : env.wellFormed ty = .ok ()) (free : ty.occursFree v = true) : v ∈ env.types :=
  (wellFormed_eq_ok_iff env ty).mp inScope v ((Ty.occursFree_iff_mem_freeVars v ty).mp free)

theorem wellFormed_eq_error {env : Env} {ty : Ty} {error : TypeError}
    (fails : env.wellFormed ty = .error error) :
    ∃ v, error = .unboundTypeVariable v ∧ v ∈ ty.freeVars ∧ v ∉ env.types := by
  rw [wellFormed, Ty.wellFormed] at fails
  split at fails
  · cases fails
  case h_2 v reported =>
    exact ⟨v, (Except.error.inj fails).symm, Ty.firstUnbound?_eq_some reported⟩

@[simp]
theorem mem_types_insertType {env : Env} {v w : TyVar} :
    w ∈ (env.insertType v).types ↔ v = w ∨ w ∈ env.types :=
  Scope.mem_insert_iff

theorem containsType_insertType_eq_false {env : Env} {v w : TyVar} :
    (env.insertType v).containsType w = false ↔ v ≠ w ∧ env.containsType w = false := by
  simp only [containsType, ← Bool.not_eq_true, ← Std.ExtTreeSet.mem_iff_contains,
    mem_types_insertType, not_or, ne_eq]

theorem lookup_empty_ne_ok (name : String) (ty : Ty) : Env.empty.lookup name ≠ .ok ty := by
  simp [Env.empty, lookup]

theorem lookup_eq_error {env : Env} {name : String} {error : TypeError}
    (fails : env.lookup name = .error error) : error = .unboundVariable name := by
  rw [lookup] at fails
  split at fails
  · cases fails
  · exact (Except.error.inj fails).symm

theorem lookup_insertTerm (env : Env) (name other : String) (ty : Ty) :
    (env.insertTerm name ty).lookup other = if name = other then .ok ty else env.lookup other := by
  by_cases same : name = other
  · simp [lookup, insertTerm, same]
  · simp [lookup, insertTerm, same, Std.ExtTreeMap.getElem?_insert]

theorem lookup_eq_ok_iff {env : Env} {name : String} {ty : Ty} :
    env.lookup name = .ok ty ↔ env.terms[name]? = some ty := by
  rw [lookup]
  cases env.terms[name]? <;> simp

theorem mem_terms_of_mem_toList {env : Env} {binding : String × Ty}
    (listed : binding ∈ env.terms.toList) : binding.1 ∈ env.terms := by
  have found : env.terms[binding.1]? = some binding.2 :=
    Std.ExtTreeMap.mem_toList_iff_getElem?_eq_some.mp listed
  rw [Std.ExtTreeMap.mem_iff_isSome_getElem?, found]
  rfl

theorem eq_of_lookup_eq {env env' : Env}
    (names : ∀ name, env.lookup name = env'.lookup name)
    (types : ∀ v, v ∈ env.types ↔ v ∈ env'.types) : env = env' := by
  apply Env.ext
  · apply Std.ExtTreeMap.ext_getElem?
    intro name
    apply Option.ext
    intro ty
    rw [← lookup_eq_ok_iff, ← lookup_eq_ok_iff, names name]
  · exact Std.ExtTreeSet.ext_mem fun {v} => types v

end Env

/-! ## Free variables of terms -/

namespace Expr

def occursFreeType (v : TyVar) : Expr → Bool
  | .lit _ => false
  | .var _ => false
  | .abs _ paramTy body => paramTy.occursFree v || body.occursFreeType v
  | .app func arg => func.occursFreeType v || arg.occursFreeType v
  | .tabs w body => w != v && body.occursFreeType v
  | .tapp func arg => func.occursFreeType v || arg.occursFree v
  | .pack witness body w bodyTy =>
      witness.occursFree v || body.occursFreeType v || (w != v && bodyTy.occursFree v)
  | .unpack w _ packed cont => packed.occursFreeType v || (w != v && cont.occursFreeType v)

def occursFreeName (name : String) : Expr → Bool
  | .lit _ => false
  | .var other => other == name
  | .abs param _ body => param != name && body.occursFreeName name
  | .app func arg => func.occursFreeName name || arg.occursFreeName name
  | .tabs _ body => body.occursFreeName name
  | .tapp func _ => func.occursFreeName name
  | .pack _ body _ _ => body.occursFreeName name
  | .unpack _ other packed cont =>
      packed.occursFreeName name || (other != name && cont.occursFreeName name)

end Expr

end PolyLambda
