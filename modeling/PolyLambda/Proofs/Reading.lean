import Mathlib.Data.List.Basic
import PolyLambda.TyVar

/-! # Reading texts

A reader takes a value off the front of a text and returns what follows it.  The
readers here split a text at its first word, where words are letters, digits and
underscores, and find the number or the type variable that a word stands for.

Texts are `Legible` when they can be told apart whatever follows them: two values
with the same text in front of two rests are equal, and so are the rests.  Lists of
legible texts joined by commas are legible again (`Legible.joined`). -/

set_option autoImplicit false

namespace PolyLambda

/-- What follows `expected` in a text that starts with it. -/
def skip? (expected : String) (text : List Char) : Option (List Char) :=
  expected.toList.isPrefixOf? text

theorem skip?_eq_some_iff {expected : String} {text rest : List Char} :
    skip? expected text = some rest ↔ expected.toList ++ rest = text :=
  List.isPrefixOf?_eq_some_iff_append_eq

theorem skip?_append (expected : String) (rest : List Char) :
    skip? expected (expected.toList ++ rest) = some rest :=
  skip?_eq_some_iff.mpr rfl

/-- Takes a value and the parenthesis that closes it off a text. -/
def readClosed? {α : Type} (read : List Char → Option (α × List Char)) (text : List Char) :
    Option (α × List Char) := do
  let (a, text) ← read text
  let text ← skip? ")" text
  return (a, text)

theorem readClosed?_append {α : Type} {read : List Char → Option (α × List Char)} {a : α}
    {text rest : List Char}
    (reads : read (text ++ (")".toList ++ rest)) = some (a, ")".toList ++ rest)) :
    readClosed? read (text ++ (")".toList ++ rest)) = some (a, rest) := by
  unfold readClosed?
  simp only [reads, Option.bind_eq_bind, Option.bind_some, skip?_append, Option.pure_def]

/-! ## Splitting at a character -/

theorem append_cons_inj_first {α : Type} {c : α} {front front' back back' : List α}
    (first : c ∉ front) (first' : c ∉ front') (same : front ++ c :: back = front' ++ c :: back') :
    front = front' ∧ back = back' := by
  rcases List.append_eq_append_iff.mp same with ⟨between, longer, rest⟩ | ⟨between, longer, rest⟩
  · cases between with
    | nil => simp_all
    | cons d between =>
        cases rest
        exact absurd (longer ▸ List.mem_append_right front List.mem_cons_self) first'
  · cases between with
    | nil => simp_all
    | cons d between =>
        cases rest
        exact absurd (longer ▸ List.mem_append_right front' List.mem_cons_self) first

theorem append_cons_inj_last {α : Type} {c : α} {front front' back back' : List α}
    (last : c ∉ back) (last' : c ∉ back') (same : front ++ c :: back = front' ++ c :: back') :
    front = front' ∧ back = back' := by
  have reversed := congrArg List.reverse same
  simp only [List.reverse_append, List.reverse_cons, List.append_assoc, List.singleton_append]
    at reversed
  obtain ⟨sameBack, sameFront⟩ := append_cons_inj_first (mt List.mem_reverse.mp last)
    (mt List.mem_reverse.mp last') reversed
  exact ⟨List.reverse_inj.mp sameFront, List.reverse_inj.mp sameBack⟩

/-! ## Words -/

def isWordChar (c : Char) : Bool := c.isAlphanum || c == '_'

def EndsWord (rest : List Char) : Prop := ∀ c ∈ rest.head?, isWordChar c = false

@[simp]
theorem endsWord_nil : EndsWord [] := by
  intro c first
  cases first

@[simp]
theorem endsWord_cons {c : Char} {rest : List Char} :
    EndsWord (c :: rest) ↔ isWordChar c = false := by
  simp [EndsWord]

def readWord (text : List Char) : List Char × List Char :=
  (text.takeWhile isWordChar, text.dropWhile isWordChar)

theorem readWord_append {word rest : List Char} (made : ∀ c ∈ word, isWordChar c = true)
    (ends : EndsWord rest) : readWord (word ++ rest) = (word, rest) := by
  have stops : rest.takeWhile isWordChar = [] ∧ rest.dropWhile isWordChar = rest := by
    cases rest with
    | nil => exact ⟨rfl, rfl⟩
    | cons c cs => simp [ends c rfl]
  unfold readWord
  rw [List.takeWhile_append_of_pos made, List.dropWhile_append_of_pos made, stops.1, stops.2,
    List.append_nil]

def numeral? (word : List Char) : Option Nat :=
  if word ≠ [] ∧ word.all Char.isDigit then some (Nat.ofDigitChars 10 word 0) else none

theorem isDigit_of_mem_toDigits {n : Nat} {c : Char} (member : c ∈ Nat.toDigits 10 n) :
    c.isDigit = true :=
  Nat.isDigit_of_mem_toDigits (by decide) (by decide) member

theorem isWordChar_of_isDigit {c : Char} (digit : c.isDigit = true) : isWordChar c = true := by
  simp [isWordChar, Char.isAlphanum, digit]

theorem numeral?_toDigits (n : Nat) : numeral? (Nat.toDigits 10 n) = some n := by
  have digits : (Nat.toDigits 10 n).all Char.isDigit = true := by
    rw [List.all_eq_true]
    intro c member
    exact isDigit_of_mem_toDigits member
  unfold numeral?
  rw [if_pos ⟨Nat.toDigits_ne_nil, digits⟩, Nat.ofDigitChars_toDigits (by decide) (by decide)]

/-! ## Type variables -/

namespace TyVar

def ofWord? : List Char → Option TyVar
  | 't' :: digits => (numeral? digits).map fun n => ⟨.ofNat n⟩
  | _ => none

def read? (text : List Char) : Option (TyVar × List Char) :=
  (ofWord? (readWord text).1).map (·, (readWord text).2)

theorem toList_render (v : TyVar) : v.render.toList = 't' :: Nat.toDigits 10 v.index.toNat := by
  simp [render]

theorem isWordChar_of_mem_render {v : TyVar} {c : Char} (member : c ∈ v.render.toList) :
    isWordChar c = true := by
  rw [toList_render] at member
  rcases List.mem_cons.mp member with rfl | member
  · rfl
  · exact isWordChar_of_isDigit (isDigit_of_mem_toDigits member)

theorem ofWord?_render (v : TyVar) : ofWord? v.render.toList = some v := by
  rw [toList_render, ofWord?, numeral?_toDigits]
  simp

theorem read?_render (v : TyVar) {rest : List Char} (ends : EndsWord rest) :
    read? (v.render.toList ++ rest) = some (v, rest) := by
  unfold read?
  rw [readWord_append (fun _ => isWordChar_of_mem_render) ends, ofWord?_render]
  rfl

end TyVar

/-! ## Legible texts -/

/-- Texts of valid values, each in front of a rest that may follow it, determine value and rest. -/
def Legible {α : Type} (valid : α → Prop) (text : α → String) (ends : List Char → Prop) : Prop :=
  ∀ ⦃a b : α⦄ ⦃rest rest' : List Char⦄, valid a → valid b → ends rest → ends rest' →
    (text a).toList ++ rest = (text b).toList ++ rest' → a = b ∧ rest = rest'

namespace Legible

variable {α : Type} {valid : α → Prop} {text : α → String} {ends : List Char → Prop}

theorem of_reader {read : List Char → Option (α × List Char)}
    (reads : ∀ (a : α) (rest : List Char), valid a → ends rest →
      read ((text a).toList ++ rest) = some (a, rest)) : Legible valid text ends := by
  intro a b rest rest' validA validB ended ended' same
  have twice : some (a, rest) = some (b, rest') := by
    rw [← reads a rest validA ended, ← reads b rest' validB ended', same]
  exact Prod.mk.inj (Option.some.inj twice)

theorem injective (legible : Legible valid text ends) (ended : ends []) {a b : α}
    (validA : valid a) (validB : valid b) (same : text a = text b) : a = b :=
  (legible validA validB ended ended (by rw [same])).1

/-- The texts of further items of a list, each behind a comma. -/
def further (text : α → String) (items : List α) : List Char :=
  items.flatMap fun a => ',' :: ' ' :: (text a).toList

theorem toList_intercalate_cons (a : α) (items : List α) :
    (", ".intercalate ((a :: items).map text)).toList = (text a).toList ++ further text items := by
  induction items generalizing a with
  | nil => simp [further]
  | cons b items itemsInduction =>
      have tail := itemsInduction b
      simp only [String.toList_intercalate, List.map_cons] at tail ⊢
      rw [List.intercalate_cons_cons, tail]
      simp [further]

theorem ends_further (atComma : ∀ rest, ends (',' :: rest)) (items : List α) {rest : List Char}
    (ended : ends rest) : ends (further text items ++ rest) := by
  cases items with
  | nil => exact ended
  | cons a items => exact atComma _

theorem further_inj (legible : Legible valid text ends) (atComma : ∀ rest, ends (',' :: rest))
    {items others : List α} {rest rest' : List Char}
    (allValid : ∀ a ∈ items, valid a) (allValid' : ∀ a ∈ others, valid a)
    (ended : ends rest ∧ rest.head? ≠ some ',') (ended' : ends rest' ∧ rest'.head? ≠ some ',')
    (same : further text items ++ rest = further text others ++ rest') :
    items = others ∧ rest = rest' := by
  induction items generalizing others with
  | nil =>
      cases others with
      | nil => exact ⟨rfl, same⟩
      | cons b others => exact absurd (congrArg List.head? same) ended.2
  | cons a items itemsInduction =>
      cases others with
      | nil => exact absurd (congrArg List.head? same).symm ended'.2
      | cons b others =>
          rw [List.forall_mem_cons] at allValid allValid'
          simp only [further, List.flatMap_cons, List.cons_append, List.append_assoc,
            List.cons.injEq, true_and] at same
          obtain ⟨rfl, sameTail⟩ := legible allValid.1 allValid'.1
            (ends_further atComma items ended.1) (ends_further atComma others ended'.1) same
          obtain ⟨rfl, sameRest⟩ := itemsInduction allValid.2 allValid'.2 sameTail
          exact ⟨rfl, sameRest⟩

/-- Lists joined by commas are told apart when their items are, in front of what is no comma. -/
theorem joined (legible : Legible valid text ends) (atComma : ∀ rest, ends (',' :: rest)) :
    Legible (fun items => items ≠ [] ∧ ∀ a ∈ items, valid a)
      (fun items => ", ".intercalate (items.map text))
      (fun rest => ends rest ∧ rest.head? ≠ some ',') := by
  rintro items others rest rest' ⟨nonempty, allValid⟩ ⟨nonempty', allValid'⟩ ended ended' same
  apply further_inj legible atComma allValid allValid' ended ended'
  obtain ⟨a, items, rfl⟩ := List.exists_cons_of_ne_nil nonempty
  obtain ⟨b, others, rfl⟩ := List.exists_cons_of_ne_nil nonempty'
  rw [toList_intercalate_cons, toList_intercalate_cons] at same
  exact congrArg (',' :: ' ' :: ·) same

end Legible

theorem TyVar.legible : Legible (fun _ => True) TyVar.render EndsWord :=
  .of_reader fun v _ _ ends => v.read?_render ends

theorem TyVar.render_inj {v w : TyVar} : v.render = w.render ↔ v = w :=
  ⟨TyVar.legible.injective endsWord_nil trivial trivial, congrArg TyVar.render⟩

end PolyLambda
