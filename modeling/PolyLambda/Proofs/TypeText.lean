import PolyLambda.Proofs.Reading
import PolyLambda.TypeError

/-! # Types and errors from their texts

`Ty.parse?` recovers every type from its text.  A quantifier reads as far right as it
can, and so does the codomain of an arrow, so a type is read back in front of any
rest that continues neither a word nor an arrow.  Messages are then told apart by
the words they start with and by the types in them. -/

set_option autoImplicit false

namespace PolyLambda

def Quantifier.read? : List Char → Option (Quantifier × List Char)
  | '∀' :: text => some (.all, text)
  | '∃' :: text => some (.ex, text)
  | _ => none

theorem Quantifier.read?_symbol (q : Quantifier) (rest : List Char) :
    read? (q.symbol.toList ++ rest) = some (q, rest) := by
  cases q <;> rfl

namespace Ty

def ofWord? (word : List Char) : Option Ty :=
  if word = "Int".toList then some .int else (TyVar.ofWord? word).map .var

/-- A type in parentheses, which `read` takes apart, or a word. -/
def readOperand? (read : List Char → Option (Ty × List Char)) :
    List Char → Option (Ty × List Char)
  | '(' :: text => readClosed? read text
  | text => (ofWord? (readWord text).1).map (·, (readWord text).2)

/-- Reads types that nest up to `depth` deep. -/
def readTo : Nat → List Char → Option (Ty × List Char)
  | 0, _ => none
  | depth + 1, text =>
      match Quantifier.read? text with
      | some (q, text) => do
          let (v, text) ← TyVar.read? text
          let text ← skip? ". " text
          let (body, text) ← readTo depth text
          return (.quant q v body, text)
      | none => do
          let (domain, text) ← readOperand? (readTo depth) text
          match skip? " -> " text with
          | none => return (domain, text)
          | some text => do
              let (codomain, text) ← readTo depth text
              return (.arrow domain codomain, text)

/-- A type never nests deeper than its text is long. -/
def read? (text : List Char) : Option (Ty × List Char) := readTo text.length text

def parse? (text : String) : Option Ty :=
  match read? text.toList with
  | some (ty, []) => some ty
  | _ => none

/-- A rest that continues neither a word nor an arrow in front of it. -/
structure EndsType (rest : List Char) : Prop where
  word : EndsWord rest
  arrow : skip? " -> " rest = none

def renderOperand (ty : Ty) : String := if ty.isAtomic then ty.render else "(" ++ ty.render ++ ")"

theorem endsType_nil : EndsType [] := ⟨endsWord_nil, rfl⟩

theorem endsType_cons {c : Char} (other : isWordChar c = false) (unspaced : c ≠ ' ')
    (rest : List Char) : EndsType (c :: rest) := by
  refine ⟨endsWord_cons.mpr other, Option.eq_none_iff_forall_ne_some.mpr ?_⟩
  intro after found
  have starts : ' ' :: ("-> ".toList ++ after) = c :: rest := skip?_eq_some_iff.mp found
  exact unspaced (List.cons.inj starts).1.symm

theorem endsType_space {c : Char} (other : c ≠ '-') (rest : List Char) :
    EndsType (' ' :: c :: rest) := by
  refine ⟨endsWord_cons.mpr rfl, Option.eq_none_iff_forall_ne_some.mpr ?_⟩
  intro after found
  have starts : ' ' :: '-' :: ("> ".toList ++ after) = ' ' :: c :: rest :=
    skip?_eq_some_iff.mp found
  exact other (List.cons.inj (List.cons.inj starts).2).1.symm

theorem render_arrow (domain codomain : Ty) :
    (arrow domain codomain).render = domain.renderOperand ++ " -> " ++ codomain.render :=
  rfl

theorem renderOperand_of_isAtomic {ty : Ty} (atomic : ty.isAtomic = true) :
    ty.renderOperand = ty.render :=
  if_pos atomic

theorem renderOperand_of_not_isAtomic {ty : Ty} (compound : ty.isAtomic = false) :
    ty.renderOperand = "(" ++ ty.render ++ ")" := by
  rw [renderOperand, compound]
  rfl

theorem length_render_le_operand (ty : Ty) :
    ty.render.toList.length ≤ ty.renderOperand.toList.length := by
  cases kind : ty.isAtomic with
  | true => exact Nat.le_of_eq (by rw [renderOperand_of_isAtomic kind])
  | false =>
      rw [renderOperand_of_not_isAtomic kind]
      simp only [String.toList_append, List.length_append]
      omega

/-- An atomic type is written as a word that no other type has. -/
theorem word_of_isAtomic {ty : Ty} (atomic : ty.isAtomic = true) :
    ∃ c cs, ty.render.toList = c :: cs ∧ (∀ d ∈ c :: cs, isWordChar d = true) ∧
      ofWord? (c :: cs) = some ty := by
  cases ty with
  | int => exact ⟨'I', ['n', 't'], rfl, List.all_eq_true.mp rfl, rfl⟩
  | var v =>
      have made : ∀ c ∈ v.render.toList, isWordChar c = true := fun _ => v.isWordChar_of_mem_render
      have found := v.ofWord?_render
      rw [v.toList_render] at made found
      refine ⟨'t', _, v.toList_render, made, ?_⟩
      simp [ofWord?, found]
  | arrow _ _ | quant _ _ _ => cases atomic

theorem quantifier_read?_word {c : Char} (made : isWordChar c = true) (text : List Char) :
    Quantifier.read? (c :: text) = none := by
  rw [Quantifier.read?]
  · rintro _ ⟨⟩
    exact absurd made (by decide)
  · rintro _ ⟨⟩
    exact absurd made (by decide)

theorem readOperand?_word {read : List Char → Option (Ty × List Char)} {c : Char}
    {word rest : List Char} (made : ∀ d ∈ c :: word, isWordChar d = true) (ends : EndsWord rest) :
    readOperand? read (c :: word ++ rest) = (ofWord? (c :: word)).map (·, rest) := by
  rw [readOperand?, readWord_append made ends]
  rintro _ ⟨⟩
  exact absurd (made '(' List.mem_cons_self) (by decide)

/-- No operand looks like a quantified type. -/
theorem quantifier_read?_operand (ty : Ty) (rest : List Char) :
    Quantifier.read? (ty.renderOperand.toList ++ rest) = none := by
  cases kind : ty.isAtomic with
  | true =>
      obtain ⟨c, cs, written, made, -⟩ := word_of_isAtomic kind
      rw [renderOperand_of_isAtomic kind, written]
      exact quantifier_read?_word (made c List.mem_cons_self) _
  | false =>
      rw [renderOperand_of_not_isAtomic kind, String.toList_append, String.toList_append]
      rfl

theorem readOperand?_render {ty : Ty} {read : List Char → Option (Ty × List Char)}
    (reads : ty.isAtomic = false → ∀ rest, EndsType rest →
      read (ty.render.toList ++ rest) = some (ty, rest)) {rest : List Char} (ends : EndsWord rest) :
    readOperand? read (ty.renderOperand.toList ++ rest) = some (ty, rest) := by
  cases kind : ty.isAtomic with
  | true =>
      obtain ⟨c, cs, written, made, found⟩ := word_of_isAtomic kind
      rw [renderOperand_of_isAtomic kind, written, readOperand?_word made ends, found]
      rfl
  | false =>
      have closed := reads kind (")".toList ++ rest) (endsType_cons rfl (by decide) rest)
      rw [renderOperand_of_not_isAtomic kind]
      simp only [String.toList_append, List.append_assoc]
      exact readClosed?_append closed

theorem readTo_of_isAtomic {ty : Ty} (atomic : ty.isAtomic = true) {depth : Nat} {rest : List Char}
    (enough : ty.render.toList.length ≤ depth) (ends : EndsType rest) :
    readTo depth (ty.render.toList ++ rest) = some (ty, rest) := by
  cases depth with
  | zero =>
      obtain ⟨c, cs, written, -⟩ := word_of_isAtomic atomic
      rw [written] at enough
      cases enough
  | succ depth =>
      have reads :
          readOperand? (readTo depth) (ty.renderOperand.toList ++ rest) = some (ty, rest) := by
        refine readOperand?_render ?_ ends.word
        intro compound
        rw [atomic] at compound
        cases compound
      rw [← renderOperand_of_isAtomic atomic, readTo, quantifier_read?_operand]
      simp only [reads, Option.bind_eq_bind, Option.bind_some, ends.arrow, Option.pure_def]

theorem readTo_render (ty : Ty) {depth : Nat} {rest : List Char}
    (enough : ty.render.toList.length ≤ depth) (ends : EndsType rest) :
    readTo depth (ty.render.toList ++ rest) = some (ty, rest) := by
  induction ty generalizing depth rest with
  | int | var => exact readTo_of_isAtomic rfl enough ends
  | arrow domain codomain domainInduction codomainInduction =>
      rw [render_arrow] at enough ⊢
      simp only [String.toList_append, List.append_assoc, List.length_append] at enough ⊢
      have domainFits := domain.length_render_le_operand
      have arrowLength : " -> ".toList.length = 4 := rfl
      obtain ⟨depth, rfl⟩ : ∃ inner, depth = inner + 1 := ⟨depth - 1, by omega⟩
      have readDomain : ∀ rest, EndsType rest →
          readTo depth (domain.render.toList ++ rest) = some (domain, rest) := by
        intro rest ends
        exact domainInduction (by omega) ends
      have readCodomain : readTo depth (codomain.render.toList ++ rest) = some (codomain, rest) :=
        codomainInduction (by omega) ends
      have atArrow : EndsWord (" -> ".toList ++ (codomain.render.toList ++ rest)) :=
        endsWord_cons.mpr rfl
      rw [readTo, quantifier_read?_operand]
      simp only [readOperand?_render (fun _ => readDomain) atArrow, skip?_append, readCodomain,
        Option.bind_eq_bind, Option.bind_some, Option.pure_def]
  | quant q v body bodyInduction =>
      simp only [render, String.toList_append, List.append_assoc, List.length_append] at enough ⊢
      have dotLength : ". ".toList.length = 2 := rfl
      obtain ⟨depth, rfl⟩ : ∃ inner, depth = inner + 1 := ⟨depth - 1, by omega⟩
      have readBody : readTo depth (body.render.toList ++ rest) = some (body, rest) :=
        bodyInduction (by omega) ends
      have atDot : EndsWord (". ".toList ++ (body.render.toList ++ rest)) := endsWord_cons.mpr rfl
      rw [readTo, Quantifier.read?_symbol]
      simp only [v.read?_render atDot, skip?_append, readBody, Option.bind_eq_bind,
        Option.bind_some, Option.pure_def]

theorem read?_render (ty : Ty) {rest : List Char} (ends : EndsType rest) :
    read? (ty.render.toList ++ rest) = some (ty, rest) := by
  apply readTo_render ty ?_ ends
  simp

theorem legible : Legible (fun _ => True) Ty.render EndsType :=
  .of_reader fun ty _ _ ends => ty.read?_render ends

theorem parse?_render (ty : Ty) : parse? ty.render = some ty := by
  have whole := ty.read?_render endsType_nil
  rw [List.append_nil] at whole
  rw [parse?, whole]

theorem render_inj {ty ty' : Ty} : ty.render = ty'.render ↔ ty = ty' := by
  constructor
  · exact legible.injective endsType_nil trivial trivial
  · rintro rfl
    rfl

end Ty

/-! ## Messages -/

def ErrorKind.lead : ErrorKind → String
  | .unboundVariable => "unbound variable: "
  | .unboundTypeVariable => "unbound type variable: "
  | .notArrow => "expected a function type, found "
  | .notForall => "expected a universal type, found "
  | .notExists => "expected an existential type, found "
  | .typeMismatch => "type mismatch: expected "
  | .escape => "abstract type "

theorem ErrorKind.eq_of_lead_prefix {kind kind' : ErrorKind}
    (starts : kind.lead.toList <+: kind'.lead.toList) : kind = kind' := by
  revert starts
  cases kind <;> cases kind' <;> decide

namespace TypeError

def detail : TypeError → String
  | .unboundVariable name => name
  | .unboundTypeVariable v => v.render
  | .notArrow ty => ty.render
  | .notForall ty => ty.render
  | .notExists ty => ty.render
  | .typeMismatch expected actual => expected.render ++ (", found " ++ actual.render)
  | .escape v ty => v.render ++ (" escapes its scope in " ++ ty.render)

theorem toList_message (error : TypeError) :
    error.message.toList = error.kind.lead.toList ++ error.detail.toList := by
  unfold message kind ErrorKind.lead detail
  cases error <;> simp only [String.toList_append, List.append_assoc]

theorem kind_and_detail_of_message {error error' : TypeError}
    (same : error.message = error'.message) :
    error.kind = error'.kind ∧ error.detail.toList = error'.detail.toList := by
  have sameText := congrArg String.toList same
  rw [toList_message, toList_message] at sameText
  -- Both leads start one text, so the shorter of them starts the other.
  have starts : error.kind.lead.toList <+: error'.kind.lead.toList ++ error'.detail.toList :=
    ⟨_, sameText⟩
  have sameKind : error.kind = error'.kind := by
    rcases List.prefix_or_prefix_of_prefix starts (List.prefix_append _ _) with shorter | longer
    · exact ErrorKind.eq_of_lead_prefix shorter
    · exact (ErrorKind.eq_of_lead_prefix longer).symm
  rw [sameKind] at sameText
  exact ⟨sameKind, List.append_cancel_left sameText⟩

theorem eq_of_message_eq {error error' : TypeError} (same : error.message = error'.message) :
    error = error' := by
  obtain ⟨sameKind, sameDetail⟩ := kind_and_detail_of_message same
  unfold detail at sameDetail
  cases error with
  | unboundVariable name =>
      cases error' <;> cases sameKind
      exact congrArg _ (String.toList_injective sameDetail)
  | unboundTypeVariable v =>
      cases error' <;> cases sameKind
      exact congrArg _ (TyVar.render_inj.mp (String.toList_injective sameDetail))
  | notArrow ty | notForall ty | notExists ty =>
      cases error' <;> cases sameKind
      exact congrArg _ (Ty.render_inj.mp (String.toList_injective sameDetail))
  | typeMismatch expected actual =>
      cases error' <;> cases sameKind
      have atComma : ∀ ty : Ty, Ty.EndsType (", found ".toList ++ ty.render.toList) := by
        intro ty
        simp [Ty.endsType_cons, isWordChar]
      simp only [String.toList_append] at sameDetail
      obtain ⟨rfl, sameRest⟩ := Ty.legible trivial trivial (atComma _) (atComma _) sameDetail
      have sameType := String.toList_injective (List.append_cancel_left sameRest)
      exact congrArg _ (Ty.render_inj.mp sameType)
  | escape v ty =>
      cases error' <;> cases sameKind
      have atBlank : ∀ ty : Ty, EndsWord (" escapes its scope in ".toList ++ ty.render.toList) := by
        intro ty
        simp [isWordChar]
      simp only [String.toList_append] at sameDetail
      obtain ⟨rfl, sameRest⟩ := TyVar.legible trivial trivial (atBlank _) (atBlank _) sameDetail
      have sameType := String.toList_injective (List.append_cancel_left sameRest)
      exact congrArg _ (Ty.render_inj.mp sameType)

end TypeError

/-- Every type is read back from its text, so types are equal exactly when their texts are, and
errors are equal exactly when their messages are, whatever names they carry. -/
theorem type_and_error_texts_unambiguous :
    (∀ ty : Ty, Ty.parse? ty.render = some ty) ∧
      (∀ ty ty' : Ty, ty.render = ty'.render ↔ ty = ty') ∧
      ∀ error error' : TypeError, error.message = error'.message ↔ error = error' := by
  refine ⟨Ty.parse?_render, fun _ _ => Ty.render_inj, fun _ _ => ⟨TypeError.eq_of_message_eq, ?_⟩⟩
  exact congrArg TypeError.message

end PolyLambda
