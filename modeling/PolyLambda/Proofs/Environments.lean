import Mathlib.Logic.Relation
import PolyLambda.Proofs.FreeVariables
import PolyLambda.Proofs.TypeText

/-! # Environments built by insertions

An environment that a list of insertions builds answers by the last insertion of a
name and by any insertion of an identity (`lookup_build`, `mem_types_build`), and an
environment is determined by its answers.  Insertion lists with the same answers
therefore build the same environment, so insertions may be `Rearranged`.

The text of an environment determines it when its names are made of letters, digits
and underscores: the bindings end where no comma follows, and the character after the
opening brace tells whether there are any. -/

set_option autoImplicit false

namespace PolyLambda

namespace Env

inductive Insertion where
  | term (name : String) (ty : Ty)
  | type (v : TyVar)

namespace Insertion

def target : Insertion → String ⊕ TyVar
  | term name _ => .inl name
  | type v => .inr v

def typeFor? (name : String) : Insertion → Option Ty
  | term other ty => if other = name then some ty else none
  | type _ => none

theorem typeFor?_eq_some_iff {name : String} {ty : Ty} {insertion : Insertion} :
    insertion.typeFor? name = some ty ↔ insertion = term name ty := by
  cases insertion with
  | term other ty' => simp [typeFor?]
  | type v => simp [typeFor?]

theorem typeFor?_eq_none_or_of_target_ne {a b : Insertion} (distinct : a.target ≠ b.target)
    (name : String) : a.typeFor? name = none ∨ b.typeFor? name = none := by
  cases a with
  | type v => exact .inl rfl
  | term nameA ty =>
      cases b with
      | type v => exact .inr rfl
      | term nameB ty' =>
          have otherName : nameA ≠ nameB := fun same => distinct (congrArg Sum.inl same)
          by_cases same : nameA = name
          · exact .inr (if_neg fun same' => otherName (same.trans same'.symm))
          · exact .inl (if_neg same)

end Insertion

def insert (env : Env) : Insertion → Env
  | .term name ty => env.insertTerm name ty
  | .type v => env.insertType v

def build (insertions : List Insertion) : Env := insertions.foldl insert .empty

def lastType? (insertions : List Insertion) (name : String) : Option Ty :=
  (insertions.filterMap (·.typeFor? name)).getLast?

/-! ## Answers -/

theorem lastType?_append (front back : List Insertion) (name : String) :
    lastType? (front ++ back) name = (lastType? back name).or (lastType? front name) := by
  simp [lastType?, List.getLast?_append]

theorem lastType?_cons (insertion : Insertion) (back : List Insertion) (name : String) :
    lastType? (insertion :: back) name = (lastType? back name).or (insertion.typeFor? name) := by
  rw [← List.singleton_append, lastType?_append]
  cases given : insertion.typeFor? name <;> simp [lastType?, given]

theorem lookup_insert (env : Env) (insertion : Insertion) (name : String) :
    (env.insert insertion).lookup name =
      (insertion.typeFor? name).elim (env.lookup name) .ok := by
  cases insertion with
  | term other ty =>
      rw [insert, lookup_insertTerm, Insertion.typeFor?]
      split <;> rfl
  | type v => rfl

theorem lookup_foldl_insert (insertions : List Insertion) (env : Env) (name : String) :
    (insertions.foldl insert env).lookup name =
      (lastType? insertions name).elim (env.lookup name) .ok := by
  induction insertions generalizing env with
  | nil => rfl
  | cons insertion insertions insertionsInduction =>
      rw [List.foldl_cons, insertionsInduction, lookup_insert, lastType?_cons]
      cases lastType? insertions name <;> cases insertion.typeFor? name <;> rfl

theorem lookup_build (insertions : List Insertion) (name : String) :
    (build insertions).lookup name =
      (lastType? insertions name).elim (.error (.unboundVariable name)) .ok := by
  rw [build, lookup_foldl_insert]
  simp [lookup, empty]

theorem mem_types_insert {env : Env} {insertion : Insertion} {v : TyVar} :
    v ∈ (env.insert insertion).types ↔ .type v = insertion ∨ v ∈ env.types := by
  cases insertion with
  | term name ty => simp [insert, insertTerm]
  | type w => simp [insert, eq_comm]

theorem mem_types_foldl_insert {insertions : List Insertion} {env : Env} {v : TyVar} :
    v ∈ (insertions.foldl insert env).types ↔ .type v ∈ insertions ∨ v ∈ env.types := by
  induction insertions generalizing env with
  | nil => simp
  | cons insertion insertions insertionsInduction =>
      rw [List.foldl_cons, insertionsInduction, mem_types_insert, List.mem_cons, or_left_comm,
        or_assoc]

theorem mem_types_build {insertions : List Insertion} {v : TyVar} :
    v ∈ (build insertions).types ↔ .type v ∈ insertions := by
  rw [build, mem_types_foldl_insert]
  simp [empty]

theorem exists_insertion_of_mem_build {insertions : List Insertion} {name : String}
    (bound : name ∈ (build insertions).terms) : ∃ ty, .term name ty ∈ insertions := by
  rw [Std.ExtTreeMap.mem_iff_isSome_getElem?] at bound
  obtain ⟨ty, there⟩ := Option.isSome_iff_exists.mp bound
  have found := lookup_eq_ok_iff.mpr there
  rw [lookup_build] at found
  cases given : lastType? insertions name with
  | none => simp [given] at found
  | some ty' =>
      obtain ⟨insertion, member, gives⟩ := List.mem_filterMap.mp (List.mem_of_getLast? given)
      exact ⟨ty', Insertion.typeFor?_eq_some_iff.mp gives ▸ member⟩

theorem eq_iff_same_answers {env env' : Env} :
    env = env' ↔ (∀ name, env.lookup name = env'.lookup name) ∧
      ∀ v, env.containsType v = env'.containsType v := by
  constructor
  · rintro rfl
    exact ⟨fun _ => rfl, fun _ => rfl⟩
  · rintro ⟨names, identities⟩
    refine eq_of_lookup_eq names fun v => ?_
    have known := identities v
    rw [containsType, containsType] at known
    rw [Std.ExtTreeSet.mem_iff_contains, Std.ExtTreeSet.mem_iff_contains, known]

theorem build_eq_build {first second : List Insertion}
    (names : ∀ name, lastType? first name = lastType? second name)
    (identities : ∀ v, .type v ∈ first ↔ .type v ∈ second) : build first = build second := by
  apply eq_of_lookup_eq
  · intro name
    rw [lookup_build, lookup_build, names name]
  · intro v
    rw [mem_types_build, mem_types_build, identities v]

/-! ## Rearrangements -/

/-- One change of an insertion list: two insertions about different targets change places, an
insertion that a later one of the same name overwrites is dropped, or an insertion of an
identity that was inserted before is dropped. -/
inductive Rearranged : List Insertion → List Insertion → Prop
  | swapped (front back : List Insertion) (a b : Insertion) (distinct : a.target ≠ b.target) :
      Rearranged (front ++ a :: b :: back) (front ++ b :: a :: back)
  | overwritten (front middle back : List Insertion) (name : String) (ty ty' : Ty) :
      Rearranged (front ++ .term name ty :: (middle ++ .term name ty' :: back))
        (front ++ (middle ++ .term name ty' :: back))
  | repeated (front middle back : List Insertion) (v : TyVar) :
      Rearranged (front ++ .type v :: (middle ++ .type v :: back))
        (front ++ .type v :: (middle ++ back))

theorem build_eq_of_rearranged {first second : List Insertion}
    (rearranged : Rearranged first second) : build first = build second := by
  -- Each change keeps the last type of every name and the identities that are inserted.
  cases rearranged with
  | swapped front back a b distinct =>
      apply build_eq_build
      · intro name
        simp only [lastType?_append, lastType?_cons]
        rcases Insertion.typeFor?_eq_none_or_of_target_ne distinct name with other | other
        · simp [other]
        · simp [other]
      · simp [or_left_comm]
  | overwritten front middle back name ty ty' =>
      apply build_eq_build
      · intro other
        simp only [lastType?_append, lastType?_cons, Insertion.typeFor?]
        split <;> simp
      · simp
  | repeated front middle back v =>
      apply build_eq_build
      · intro name
        simp [lastType?_append, lastType?_cons, Insertion.typeFor?]
      · intro w
        simp only [List.mem_append, List.mem_cons]
        grind

theorem build_eq_of_eqvGen {first second : List Insertion}
    (rearranged : Relation.EqvGen Rearranged first second) : build first = build second := by
  induction rearranged with
  | rel _ _ step => exact build_eq_of_rearranged step
  | refl _ => rfl
  | symm _ _ _ same => exact same.symm
  | trans _ _ _ _ _ same same' => exact same.trans same'

/-! ## Texts -/

/-- Names of letters, digits and underscores. -/
def NamedByWords (env : Env) : Prop :=
  ∀ name ∈ env.terms, ∀ c ∈ name.toList, isWordChar c = true

def renderBinding (binding : String × Ty) : String := binding.1 ++ ": " ++ binding.2.render

/-- What follows the bindings: the type variables behind `bar`, and the closing brace. -/
def renderScope (env : Env) (bar : String) : String :=
  if env.types.isEmpty then "\x7d" else bar ++ env.renderTypes ++ "\x7d"

theorem render_of_terms_isEmpty {env : Env} (unbound : env.terms.isEmpty = true) :
    env.render = "\x7b" ++ env.renderScope "| " := by
  have noText : env.renderTerms = "" := by
    rw [renderTerms, Std.ExtTreeMap.toList_eq_nil_iff.mpr (Std.ExtTreeMap.isEmpty_iff.mp unbound)]
    rfl
  unfold render renderScope
  rw [noText, if_pos unbound]
  split <;> rfl

theorem render_of_not_terms_isEmpty {env : Env} (bound : env.terms.isEmpty = false) :
    env.render = "\x7b" ++ (env.renderTerms ++ env.renderScope " | ") := by
  unfold render renderScope
  rw [if_neg (Bool.eq_false_iff.mp bound)]
  split <;> simp only [String.append_assoc]

theorem renderBinding_legible :
    Legible (fun binding => ∀ c ∈ binding.1.toList, isWordChar c = true) renderBinding
      Ty.EndsType := by
  intro binding other rest rest' named named' ended ended' same
  have noColon : ∀ {word : List Char}, (∀ c ∈ word, isWordChar c = true) → ':' ∉ word :=
    fun made member => Bool.false_ne_true (made _ member)
  simp only [renderBinding, String.toList_append, List.append_assoc] at same
  obtain ⟨sameName, sameTail⟩ := append_cons_inj_first (noColon named) (noColon named') same
  obtain ⟨sameType, sameRest⟩ := Ty.legible trivial trivial ended ended' (List.cons.inj sameTail).2
  exact ⟨Prod.ext (String.toList_injective sameName) sameType, sameRest⟩

theorem NamedByWords.listed {env : Env} (named : env.NamedByWords)
    (bound : env.terms.isEmpty = false) :
    env.terms.toList ≠ [] ∧
      ∀ binding ∈ env.terms.toList, ∀ c ∈ binding.1.toList, isWordChar c = true := by
  rw [← Std.ExtTreeMap.isEmpty_toList, List.isEmpty_eq_false_iff] at bound
  exact ⟨bound, fun binding member => named binding.1 (mem_terms_of_mem_toList member)⟩

theorem terms_eq_of_renderTerms {env env' : Env} (bound : env.terms.isEmpty = false)
    (bound' : env'.terms.isEmpty = false) (named : env.NamedByWords) (named' : env'.NamedByWords)
    {rest rest' : List Char} (ended : Ty.EndsType rest ∧ rest.head? ≠ some ',')
    (ended' : Ty.EndsType rest' ∧ rest'.head? ≠ some ',')
    (same : env.renderTerms.toList ++ rest = env'.renderTerms.toList ++ rest') :
    env.terms = env'.terms ∧ rest = rest' := by
  have atComma : ∀ rest, Ty.EndsType (',' :: rest) := Ty.endsType_cons rfl (by decide)
  obtain ⟨sameList, sameRest⟩ := renderBinding_legible.joined atComma (named.listed bound)
    (named'.listed bound') ended ended' same
  exact ⟨Std.ExtTreeMap.toList_inj.mp sameList, sameRest⟩

theorem types_eq_of_renderTypes {env env' : Env} (inhabited : env.types.isEmpty = false)
    (inhabited' : env'.types.isEmpty = false) {rest : List Char}
    (ended : EndsWord rest ∧ rest.head? ≠ some ',')
    (same : env.renderTypes.toList ++ rest = env'.renderTypes.toList ++ rest) :
    env.types = env'.types := by
  have listed : ∀ {scope : Scope}, scope.isEmpty = false →
      scope.toList ≠ [] ∧ ∀ v ∈ scope.toList, True := by
    intro scope inhabited
    rw [← Std.ExtTreeSet.isEmpty_toList, List.isEmpty_eq_false_iff] at inhabited
    exact ⟨inhabited, fun _ _ => trivial⟩
  have atComma : ∀ rest, EndsWord (',' :: rest) := fun _ => endsWord_cons.mpr rfl
  obtain ⟨sameList, -⟩ := TyVar.legible.joined atComma (listed inhabited) (listed inhabited')
    ended ended same
  apply Std.ExtTreeSet.ext_mem
  intro v
  rw [← Std.ExtTreeSet.mem_toList, sameList, Std.ExtTreeSet.mem_toList]

theorem head?_renderScope (env : Env) {bar : String} {c : Char}
    (opens : bar.toList.head? = some c) :
    (env.renderScope bar).toList.head? = some (if env.types.isEmpty then '\x7d' else c) := by
  unfold renderScope
  split
  · rfl
  · simp [opens]

theorem types_eq_of_renderScope {env env' : Env} {bar : String} {c : Char}
    (opens : bar.toList.head? = some c) (unclosed : c ≠ '\x7d')
    (same : (env.renderScope bar).toList = (env'.renderScope bar).toList) :
    env.types = env'.types := by
  have sameHead := congrArg List.head? same
  rw [head?_renderScope env opens, head?_renderScope env' opens, Option.some.injEq] at sameHead
  unfold renderScope at same
  cases inhabited : env.types.isEmpty with
  | true =>
      cases inhabited' : env'.types.isEmpty with
      | true =>
          rw [Std.ExtTreeSet.isEmpty_iff.mp inhabited, Std.ExtTreeSet.isEmpty_iff.mp inhabited']
      | false =>
          rw [inhabited, inhabited'] at sameHead
          exact absurd sameHead.symm unclosed
  | false =>
      cases inhabited' : env'.types.isEmpty with
      | true =>
          rw [inhabited, inhabited'] at sameHead
          exact absurd sameHead unclosed
      | false =>
          simp only [inhabited, inhabited', Bool.false_eq_true, if_false, String.toList_append,
            List.append_assoc] at same
          exact types_eq_of_renderTypes inhabited inhabited' ⟨endsWord_cons.mpr rfl, by decide⟩
            (List.append_cancel_left same)

theorem endsType_renderScope (env : Env) :
    Ty.EndsType (env.renderScope " | ").toList ∧
      (env.renderScope " | ").toList.head? ≠ some ',' := by
  constructor
  · unfold renderScope
    split
    · exact Ty.endsType_cons rfl (by decide) []
    · simp only [String.toList_append, List.append_assoc]
      exact Ty.endsType_space (by decide) _
  · rw [head?_renderScope env rfl]
    split <;> decide

/-- The first binding starts with its name, or with the colon after an empty name. -/
theorem head?_renderTerms {env : Env} (bound : env.terms.isEmpty = false)
    (named : env.NamedByWords) :
    ∃ c, env.renderTerms.toList.head? = some c ∧ (isWordChar c = true ∨ c = ':') := by
  obtain ⟨nonempty, allNamed⟩ := named.listed bound
  obtain ⟨binding, bindings, shape⟩ := List.exists_cons_of_ne_nil nonempty
  rw [shape, List.forall_mem_cons] at allNamed
  have first : env.renderTerms.toList =
      (renderBinding binding).toList ++ Legible.further renderBinding bindings := by
    rw [← Legible.toList_intercalate_cons, ← shape]
    rfl
  rw [first, renderBinding]
  cases name : binding.1.toList with
  | nil => exact ⟨':', by simp [name], .inr rfl⟩
  | cons c cs => exact ⟨c, by simp [name], .inl (allNamed.1 c (name ▸ List.mem_cons_self))⟩

/-- Without bindings, a bar or the closing brace follows the opening one. -/
theorem render_ne_of_terms_isEmpty {env env' : Env} (unbound : env.terms.isEmpty = true)
    (bound : env'.terms.isEmpty = false) (named : env'.NamedByWords) :
    env.render ≠ env'.render := by
  intro same
  rw [render_of_terms_isEmpty unbound, render_of_not_terms_isEmpty bound] at same
  have sameText := congrArg String.toList same
  simp only [String.toList_append] at sameText
  have sameHead := congrArg List.head? (List.append_cancel_left sameText)
  obtain ⟨c, starts, kind⟩ := head?_renderTerms bound named
  rw [head?_renderScope env rfl, List.head?_append, starts, Option.some_or] at sameHead
  cases sameHead
  revert kind
  split <;> decide

theorem eq_of_render_eq {env env' : Env} (named : env.NamedByWords) (named' : env'.NamedByWords)
    (same : env.render = env'.render) : env = env' := by
  cases unbound : env.terms.isEmpty with
  | true =>
      cases unbound' : env'.terms.isEmpty with
      | true =>
          rw [render_of_terms_isEmpty unbound, render_of_terms_isEmpty unbound'] at same
          have sameText := congrArg String.toList same
          simp only [String.toList_append] at sameText
          apply Env.ext
          · rw [Std.ExtTreeMap.isEmpty_iff.mp unbound, Std.ExtTreeMap.isEmpty_iff.mp unbound']
          · exact types_eq_of_renderScope rfl (by decide) (List.append_cancel_left sameText)
      | false => exact absurd same (render_ne_of_terms_isEmpty unbound unbound' named')
  | false =>
      cases unbound' : env'.terms.isEmpty with
      | true => exact absurd same.symm (render_ne_of_terms_isEmpty unbound' unbound named)
      | false =>
          rw [render_of_not_terms_isEmpty unbound, render_of_not_terms_isEmpty unbound'] at same
          have sameText := congrArg String.toList same
          simp only [String.toList_append] at sameText
          obtain ⟨sameTerms, sameScope⟩ := terms_eq_of_renderTerms unbound unbound' named named'
            env.endsType_renderScope env'.endsType_renderScope (List.append_cancel_left sameText)
          exact Env.ext sameTerms (types_eq_of_renderScope rfl (by decide) sameScope)

/-- Built environments are equal exactly when they give the same answers, a name is answered by
the last insertion of it, and rearranged insertions build one environment with one text.  The
text determines the environment when letters, digits and underscores make up all names. -/
theorem built_environments_canonical (first second : List Insertion) :
    (build first = build second ↔
        (∀ name, (build first).lookup name = (build second).lookup name) ∧
          ∀ v, (build first).containsType v = (build second).containsType v) ∧
      (∀ name, (build first).lookup name =
        (lastType? first name).elim (.error (.unboundVariable name)) .ok) ∧
      (Relation.EqvGen Rearranged first second →
        build first = build second ∧ (build first).render = (build second).render) ∧
      ((∀ name ty, .term name ty ∈ first ++ second → ∀ c ∈ name.toList, isWordChar c = true) →
        (build first).render = (build second).render → build first = build second) := by
  refine ⟨eq_iff_same_answers, lookup_build first, fun rearranged => ?_, fun words same => ?_⟩
  · have built := build_eq_of_eqvGen rearranged
    exact ⟨built, congrArg render built⟩
  · apply eq_of_render_eq _ _ same
    · intro name bound
      obtain ⟨ty, member⟩ := exists_insertion_of_mem_build bound
      exact words name ty (List.mem_append_left second member)
    · intro name bound
      obtain ⟨ty, member⟩ := exists_insertion_of_mem_build bound
      exact words name ty (List.mem_append_right first member)

/-- Binds `x` twice and brings `t1` into scope twice. -/
def repetitive : List Insertion :=
  [.term "x" .int, .type ⟨1⟩, .term "f" (.arrow (.var ⟨1⟩) .int), .term "x" (.var ⟨1⟩), .type ⟨1⟩]

def concise : List Insertion :=
  [.type ⟨1⟩, .term "x" (.var ⟨1⟩), .term "f" (.arrow (.var ⟨1⟩) .int)]

theorem rearranged_repetitive : Relation.EqvGen Rearranged repetitive concise := by
  have overwritten := Rearranged.overwritten []
    [.type ⟨1⟩, .term "f" (.arrow (.var ⟨1⟩) .int)] [.type ⟨1⟩] "x" .int (.var ⟨1⟩)
  have repeated := Rearranged.repeated []
    [.term "f" (.arrow (.var ⟨1⟩) .int), .term "x" (.var ⟨1⟩)] [] ⟨1⟩
  have swapped := Rearranged.swapped [.type ⟨1⟩] [] (.term "f" (.arrow (.var ⟨1⟩) .int))
    (.term "x" (.var ⟨1⟩)) (by decide)
  exact .trans _ _ _ (.rel _ _ overwritten) (.trans _ _ _ (.rel _ _ repeated) (.rel _ _ swapped))

theorem repetitive_and_concise_canonical :
    (build repetitive).render = "\x7bf: t1 -> Int, x: t1 | t1\x7d" ∧
      (build repetitive).render = (build concise).render ∧
      build repetitive = build concise := by
  obtain ⟨-, -, rearranged, texts⟩ := built_environments_canonical repetitive concise
  have sameText := (rearranged rearranged_repetitive).2
  refine ⟨rfl, sameText, texts ?_ sameText⟩
  intro name ty member
  have named : name = "x" ∨ name = "f" := by
    simp only [repetitive, concise, List.cons_append, List.nil_append, List.mem_cons,
      Insertion.term.injEq, List.not_mem_nil, reduceCtorEq, or_false, false_or] at member
    grind
  rcases named with rfl | rfl <;> exact List.all_eq_true.mp rfl

end Env

end PolyLambda
