import PolyLambda.Expr.Render
import PolyLambda.Proofs.TypeText

/-! # Terms from their texts

`Expr.parse?` recovers every term from its text, as long as its names are
identifiers.  A term that extends as far right as it can is told by the word or
symbol it starts with.  Any other term is read as an operand and the arguments that
follow it, each applied to what has been read so far, until a closing bracket, the
word `in` or the end of the text. -/

set_option autoImplicit false

namespace PolyLambda

def keywords : List String := ["pack", "unpack", "as", "in"]

/-- A letter followed by letters, digits and underscores, and no keyword. -/
def isIdentifier (name : String) : Bool :=
  match name.toList with
  | [] => false
  | c :: cs => c.isAlpha && cs.all isWordChar && !keywords.contains name

namespace Expr

def names : Expr → List String
  | .lit _ => []
  | .var name => [name]
  | .abs param _ body => param :: body.names
  | .app func arg => func.names ++ arg.names
  | .tabs _ body => body.names
  | .tapp func _ => func.names
  | .pack _ body _ _ => body.names
  | .unpack _ name packed cont => name :: (packed.names ++ cont.names)

def Identified (expr : Expr) : Prop := ∀ name ∈ expr.names, isIdentifier name = true

instance (expr : Expr) : Decidable expr.Identified :=
  inferInstanceAs (Decidable (∀ name ∈ expr.names, isIdentifier name = true))

/-! ## The reader -/

def ofWord? (word : List Char) : Option Expr :=
  if isIdentifier (String.ofList word) then some (.var (String.ofList word))
  else (numeral? word).map fun n : Nat => .lit (.ofInt n)

section Readers

variable (read : List Char → Option (Expr × List Char))

/-- A term in parentheses, a literal or a name. -/
def readOperand? : List Char → Option (Expr × List Char)
  | '(' :: text => readClosed? read text
  | '-' :: text => (numeral? (readWord text).1).map fun n : Nat =>
      (.lit (.ofInt (-(n : Int))), (readWord text).2)
  | text => (ofWord? (readWord text).1).map (·, (readWord text).2)

def readArg? (func : Expr) : List Char → Option (Expr × List Char)
  | ' ' :: '[' :: text => do
      let (arg, text) ← Ty.read? text
      let text ← skip? "]" text
      return (.tapp func arg, text)
  | ' ' :: text => (readOperand? read text).map fun found => (.app func found.1, found.2)
  | _ => none

def readArgs : Nat → Expr → List Char → Expr × List Char
  | 0, func, text => (func, text)
  | count + 1, func, text =>
      match readArg? read func text with
      | some (applied, text) => readArgs count applied text
      | none => (func, text)

def readAbs? (text : List Char) : Option (Expr × List Char) := do
  let (param, text) := readWord text
  let text ← skip? ": " text
  let (paramTy, text) ← Ty.read? text
  let text ← skip? ". " text
  let (body, text) ← read text
  return (.abs (String.ofList param) paramTy body, text)

def readTabs? (text : List Char) : Option (Expr × List Char) := do
  let (v, text) ← TyVar.read? text
  let text ← skip? ". " text
  let (body, text) ← read text
  return (.tabs v body, text)

def readPack? (text : List Char) : Option (Expr × List Char) := do
  let text ← skip? " [" text
  let (witness, text) ← Ty.read? text
  let text ← skip? ", " text
  let (body, text) ← read text
  let text ← skip? "] as ∃" text
  let (v, text) ← TyVar.read? text
  let text ← skip? ". " text
  let (bodyTy, text) ← Ty.read? text
  return (.pack witness body v bodyTy, text)

def readUnpack? (text : List Char) : Option (Expr × List Char) := do
  let text ← skip? " [" text
  let (v, text) ← TyVar.read? text
  let text ← skip? ", " text
  let (name, text) := readWord text
  let text ← skip? "] = " text
  let (packed, text) ← read text
  let text ← skip? " in " text
  let (cont, text) ← read text
  return (.unpack v (String.ofList name) packed cont, text)

end Readers

/-- The forms that extend as far right as they can. -/
inductive Opener where
  | abs
  | tabs
  | pack
  | unpack

namespace Opener

def read? (text : List Char) : Option (Opener × List Char) :=
  match readWord text with
  | ([], 'λ' :: text) => some (.abs, text)
  | ([], 'Λ' :: text) => some (.tabs, text)
  | (word, text) =>
      if word = "pack".toList then some (.pack, text)
      else if word = "unpack".toList then some (.unpack, text)
      else none

def readRest? (read : List Char → Option (Expr × List Char)) :
    Opener → List Char → Option (Expr × List Char)
  | .abs => readAbs? read
  | .tabs => readTabs? read
  | .pack => readPack? read
  | .unpack => readUnpack? read

end Opener

/-- Reads terms that nest up to `depth` deep. -/
def readTo : Nat → List Char → Option (Expr × List Char)
  | 0, _ => none
  | depth + 1, text =>
      match Opener.read? text with
      | some (opener, text) => opener.readRest? (readTo depth) text
      | none => (readOperand? (readTo depth) text).map fun found =>
          readArgs (readTo depth) depth found.1 found.2

def parse? (text : String) : Option Expr :=
  match readTo text.toList.length text.toList with
  | some (expr, []) => some expr
  | _ => none

inductive EndsTerm : List Char → Prop where
  | nil : EndsTerm []
  | paren (rest : List Char) : EndsTerm (')' :: rest)
  | bracket (rest : List Char) : EndsTerm (']' :: rest)
  | opened (rest : List Char) : EndsTerm (' ' :: 'i' :: 'n' :: ' ' :: rest)

theorem EndsTerm.endsType {rest : List Char} (ends : EndsTerm rest) : Ty.EndsType rest := by
  cases ends with
  | nil => exact Ty.endsType_nil
  | paren rest | bracket rest => exact Ty.endsType_cons rfl (by decide) rest
  | opened rest => exact Ty.endsType_space (by decide) _

/-! ## Operands -/

theorem not_isDigit_of_isAlpha {c : Char} (letter : c.isAlpha = true) : c.isDigit = false := by
  delta Char.isAlpha Char.isUpper Char.isLower at letter
  delta Char.isDigit
  simp only [Bool.or_eq_true, Bool.and_eq_true, decide_eq_true_eq] at letter ⊢
  grind

theorem word_of_isIdentifier {name : String} (identified : isIdentifier name = true) :
    ∃ c cs, name.toList = c :: cs ∧ (∀ d ∈ c :: cs, isWordChar d = true) ∧ name ∉ keywords := by
  unfold isIdentifier at identified
  cases written : name.toList with
  | nil => simp [written] at identified
  | cons c cs =>
      simp only [written, Bool.and_eq_true, List.all_eq_true, Bool.not_eq_true',
        List.contains_eq_mem, decide_eq_false_iff_not] at identified
      obtain ⟨⟨letter, made⟩, free⟩ := identified
      refine ⟨c, cs, rfl, ?_, free⟩
      intro d member
      rcases List.mem_cons.mp member with rfl | member
      · simp [isWordChar, Char.isAlphanum, letter]
      · exact made d member

theorem ofWord?_name {name : String} (identified : isIdentifier name = true) :
    ofWord? name.toList = some (.var name) := by
  simp [ofWord?, identified]

theorem ofWord?_toDigits (n : Nat) :
    ofWord? (Nat.toDigits 10 n) = some (.lit (.ofInt n)) := by
  have other : isIdentifier (String.ofList (Nat.toDigits 10 n)) = false := by
    unfold isIdentifier
    rw [String.toList_ofList]
    cases written : Nat.toDigits 10 n with
    | nil => rfl
    | cons c cs =>
        have digit : c.isDigit = true :=
          isDigit_of_mem_toDigits (written ▸ List.mem_cons_self)
        have noLetter : c.isAlpha = false := by
          cases letter : c.isAlpha with
          | false => rfl
          | true => exact absurd (not_isDigit_of_isAlpha letter) (by simp [digit])
        simp [noLetter]
  simp [ofWord?, other, numeral?_toDigits]

section Operands

variable {read : List Char → Option (Expr × List Char)} {rest : List Char}

theorem read?_word {c : Char} {word : List Char} (made : ∀ d ∈ c :: word, isWordChar d = true)
    (ends : EndsWord rest) (noPack : c :: word ≠ "pack".toList)
    (noUnpack : c :: word ≠ "unpack".toList) : Opener.read? (c :: word ++ rest) = none := by
  rw [Opener.read?, readWord_append made ends]
  simp only [if_neg noPack, if_neg noUnpack]

theorem readOperand?_word {c : Char} {word : List Char}
    (made : ∀ d ∈ c :: word, isWordChar d = true) (ends : EndsWord rest) :
    readOperand? read (c :: word ++ rest) = (ofWord? (c :: word)).map (·, rest) := by
  rw [readOperand?, readWord_append made ends]
  · rintro _ ⟨⟩
    exact absurd (made '(' List.mem_cons_self) (by decide)
  · rintro _ ⟨⟩
    exact absurd (made '-' List.mem_cons_self) (by decide)

theorem read?_name {name : String} (identified : isIdentifier name = true) (ends : EndsWord rest) :
    Opener.read? (name.toList ++ rest) = none ∧
      readOperand? read (name.toList ++ rest) = some (.var name, rest) := by
  obtain ⟨c, cs, written, made, free⟩ := word_of_isIdentifier identified
  have found := ofWord?_name identified
  have noKeyword : ∀ word ∈ keywords, c :: cs ≠ word.toList := by
    intro word member same
    rw [← written] at same
    exact free (String.toList_injective same ▸ member)
  rw [written] at found ⊢
  rw [read?_word made ends (noKeyword "pack" (by decide)) (noKeyword "unpack" (by decide)),
    readOperand?_word made ends, found]
  exact ⟨rfl, rfl⟩

theorem read?_toDigits (n : Nat) (ends : EndsWord rest) :
    Opener.read? (Nat.toDigits 10 n ++ rest) = none ∧
      readOperand? read (Nat.toDigits 10 n ++ rest) = some (.lit (.ofInt n), rest) := by
  have digits : ∀ c ∈ Nat.toDigits 10 n, c.isDigit = true := fun _ => isDigit_of_mem_toDigits
  have found := ofWord?_toDigits n
  cases written : Nat.toDigits 10 n with
  | nil => exact absurd written Nat.toDigits_ne_nil
  | cons c cs =>
      rw [written] at digits found
      have made : ∀ d ∈ c :: cs, isWordChar d = true := fun d member =>
        isWordChar_of_isDigit (digits d member)
      have noPack : c :: cs ≠ "pack".toList := by
        intro same
        exact absurd (digits 'p' (same ▸ by decide)) (by decide)
      have noUnpack : c :: cs ≠ "unpack".toList := by
        intro same
        exact absurd (digits 'u' (same ▸ by decide)) (by decide)
      rw [read?_word made ends noPack noUnpack, readOperand?_word made ends, found]
      exact ⟨rfl, rfl⟩

theorem read?_lit (value : Int64) (ends : EndsWord rest) :
    Opener.read? ((lit value).render.toList ++ rest) = none ∧
      readOperand? read ((lit value).render.toList ++ rest) = some (.lit value, rest) := by
  have digits : ∀ n, ∀ c ∈ Nat.toDigits 10 n, isWordChar c = true := fun _ _ member =>
    isWordChar_of_isDigit (isDigit_of_mem_toDigits member)
  unfold render
  rw [Int.repr_eq_if]
  split
  case isTrue nonneg =>
    have back : Int64.ofInt value.toInt.toNat = value := by
      rw [Int.toNat_of_nonneg nonneg, value.ofInt_toInt]
    rw [Nat.toList_repr, ← back]
    simpa only [back] using read?_toDigits value.toInt.toNat ends
  case isFalse negative =>
    have back : Int64.ofInt (-((-value.toInt).toNat : Int)) = value := by
      rw [Int.toNat_of_nonneg (by omega), Int.neg_neg, value.ofInt_toInt]
    rw [String.toList_append, Nat.toList_repr]
    refine ⟨rfl, ?_⟩
    change readOperand? read ('-' :: (Nat.toDigits 10 _ ++ rest)) = _
    rw [readOperand?, readWord_append (digits _) ends, numeral?_toDigits]
    simp only [Option.map_some, back]

/-- A term that needs no parentheses as an argument is read as an operand. -/
theorem read?_of_isAtomic {expr : Expr} (atomic : expr.isAtomic = true)
    (identified : expr.Identified) (ends : EndsWord rest) :
    Opener.read? (expr.render.toList ++ rest) = none ∧
      readOperand? read (expr.render.toList ++ rest) = some (expr, rest) := by
  cases expr with
  | lit value => exact read?_lit value ends
  | var name => exact read?_name (identified name List.mem_cons_self) ends
  | _ => cases atomic

end Operands

def renderArg (expr : Expr) : String :=
  if expr.isAtomic then expr.render else "(" ++ expr.render ++ ")"

def renderFunc (expr : Expr) : String :=
  if expr.isOpenEnded then "(" ++ expr.render ++ ")" else expr.render

theorem render_app (func arg : Expr) :
    (app func arg).render = func.renderFunc ++ " " ++ arg.renderArg :=
  rfl

theorem render_tapp (func : Expr) (arg : Ty) :
    (tapp func arg).render = func.renderFunc ++ " [" ++ arg.render ++ "]" :=
  rfl

theorem renderFunc_of_not_isOpenEnded {expr : Expr} (bare : expr.isOpenEnded = false) :
    expr.renderFunc = expr.render := by
  rw [renderFunc, bare]
  rfl

theorem renderFunc_of_isOpenEnded {expr : Expr} (openEnded : expr.isOpenEnded = true) :
    expr.renderFunc = "(" ++ expr.render ++ ")" :=
  if_pos openEnded

theorem length_render_le_arg (expr : Expr) :
    expr.render.toList.length ≤ expr.renderArg.toList.length := by
  unfold renderArg
  split
  · exact Nat.le_refl _
  · simp only [String.toList_append, List.length_append]
    omega

theorem length_render_pos {expr : Expr} (identified : expr.Identified) :
    0 < expr.render.toList.length := by
  unfold render
  cases expr with
  | lit value =>
      dsimp only
      rw [Int.repr_eq_if]
      split
      · simp [List.length_pos_iff, Nat.toDigits_ne_nil]
      · simp
  | var name =>
      obtain ⟨c, cs, written, -⟩ := word_of_isIdentifier (identified name List.mem_cons_self)
      simp [written]
  | app func arg =>
      have blank : " ".toList.length = 1 := rfl
      simp only [String.toList_append, List.length_append]
      omega
  | tapp func arg =>
      have closing : "]".toList.length = 1 := rfl
      simp only [String.toList_append, List.length_append]
      omega
  | _ => simp

/-- The reader reads every term whose text has up to `length` characters. -/
def ReadsUpTo (read : List Char → Option (Expr × List Char)) (length : Nat) : Prop :=
  ∀ (expr : Expr) (rest : List Char), expr.Identified → expr.render.toList.length ≤ length →
    EndsTerm rest → read (expr.render.toList ++ rest) = some (expr, rest)

namespace ReadsUpTo

variable {read : List Char → Option (Expr × List Char)} {length : Nat} {rest : List Char}

theorem closed (reads : ReadsUpTo read length) {expr : Expr} (identified : expr.Identified)
    (fits : expr.render.toList.length ≤ length) :
    Opener.read? (("(" ++ expr.render ++ ")").toList ++ rest) = none ∧
      readOperand? read (("(" ++ expr.render ++ ")").toList ++ rest) = some (expr, rest) := by
  simp only [String.toList_append, List.append_assoc]
  exact ⟨rfl, readClosed?_append (reads expr _ identified fits (.paren rest))⟩

theorem arg (reads : ReadsUpTo read length) {expr : Expr} (identified : expr.Identified)
    (fits : expr.render.toList.length ≤ length) (ends : EndsWord rest) :
    readOperand? read (expr.renderArg.toList ++ rest) = some (expr, rest) := by
  unfold renderArg
  split
  case isTrue atomic => exact (read?_of_isAtomic atomic identified ends).2
  case isFalse => exact (reads.closed identified fits).2

theorem abs (reads : ReadsUpTo read length) {param : String} {paramTy : Ty} {body : Expr}
    (identified : (Expr.abs param paramTy body).Identified)
    (fits : body.render.toList.length ≤ length) (ends : EndsTerm rest) :
    readAbs? read (param.toList ++ (": ".toList ++ (paramTy.render.toList ++ (". ".toList ++
      (body.render.toList ++ rest))))) = some (.abs param paramTy body, rest) := by
  obtain ⟨paramIdentified, bodyIdentified⟩ := List.forall_mem_cons.mp identified
  obtain ⟨c, cs, written, made, -⟩ := word_of_isIdentifier paramIdentified
  rw [← written] at made
  have atColon : EndsWord (": ".toList ++ (paramTy.render.toList ++ (". ".toList ++
      (body.render.toList ++ rest)))) := endsWord_cons.mpr rfl
  have atDot : Ty.EndsType (". ".toList ++ (body.render.toList ++ rest)) :=
    Ty.endsType_cons rfl (by decide) _
  unfold readAbs?
  simp only [readWord_append made atColon, skip?_append, paramTy.read?_render atDot,
    reads body rest bodyIdentified fits ends, Option.bind_eq_bind, Option.bind_some,
    Option.pure_def, String.ofList_toList]

theorem tabs (reads : ReadsUpTo read length) {v : TyVar} {body : Expr}
    (identified : body.Identified) (fits : body.render.toList.length ≤ length)
    (ends : EndsTerm rest) :
    readTabs? read (v.render.toList ++ (". ".toList ++ (body.render.toList ++ rest))) =
      some (.tabs v body, rest) := by
  have atDot : EndsWord (". ".toList ++ (body.render.toList ++ rest)) := endsWord_cons.mpr rfl
  unfold readTabs?
  simp only [v.read?_render atDot, skip?_append, reads body rest identified fits ends,
    Option.bind_eq_bind, Option.bind_some, Option.pure_def]

theorem pack (reads : ReadsUpTo read length) {witness bodyTy : Ty} {v : TyVar} {body : Expr}
    (identified : body.Identified) (fits : body.render.toList.length ≤ length)
    (ends : EndsTerm rest) :
    readPack? read (" [".toList ++ (witness.render.toList ++ (", ".toList ++
      (body.render.toList ++ ("] as ∃".toList ++ (v.render.toList ++ (". ".toList ++
      (bodyTy.render.toList ++ rest)))))))) =
      some (.pack witness body v bodyTy, rest) := by
  have atComma : Ty.EndsType (", ".toList ++ (body.render.toList ++ ("] as ∃".toList ++
      (v.render.toList ++ (". ".toList ++ (bodyTy.render.toList ++ rest)))))) :=
    Ty.endsType_cons rfl (by decide) _
  have atBracket : EndsTerm ("] as ∃".toList ++ (v.render.toList ++ (". ".toList ++
      (bodyTy.render.toList ++ rest)))) := .bracket _
  have atDot : EndsWord (". ".toList ++ (bodyTy.render.toList ++ rest)) := endsWord_cons.mpr rfl
  unfold readPack?
  simp only [skip?_append, witness.read?_render atComma, reads body _ identified fits atBracket,
    v.read?_render atDot, bodyTy.read?_render ends.endsType, Option.bind_eq_bind, Option.bind_some,
    Option.pure_def]

theorem unpack (reads : ReadsUpTo read length) {v : TyVar} {name : String} {packed cont : Expr}
    (identified : (Expr.unpack v name packed cont).Identified)
    (packedFits : packed.render.toList.length ≤ length)
    (contFits : cont.render.toList.length ≤ length) (ends : EndsTerm rest) :
    readUnpack? read (" [".toList ++ (v.render.toList ++ (", ".toList ++ (name.toList ++
      ("] = ".toList ++ (packed.render.toList ++ (" in ".toList ++
      (cont.render.toList ++ rest)))))))) =
      some (.unpack v name packed cont, rest) := by
  obtain ⟨nameIdentified, partsIdentified⟩ := List.forall_mem_cons.mp identified
  obtain ⟨packedIdentified, contIdentified⟩ := List.forall_mem_append.mp partsIdentified
  obtain ⟨c, cs, written, made, -⟩ := word_of_isIdentifier nameIdentified
  rw [← written] at made
  have atComma : EndsWord (", ".toList ++ (name.toList ++ ("] = ".toList ++ (packed.render.toList ++
      (" in ".toList ++ (cont.render.toList ++ rest)))))) := endsWord_cons.mpr rfl
  have atBracket : EndsWord ("] = ".toList ++ (packed.render.toList ++ (" in ".toList ++
      (cont.render.toList ++ rest)))) := endsWord_cons.mpr rfl
  have atIn : EndsTerm (" in ".toList ++ (cont.render.toList ++ rest)) := .opened _
  unfold readUnpack?
  simp only [skip?_append, v.read?_render atComma, readWord_append made atBracket,
    reads packed _ packedIdentified packedFits atIn, reads cont rest contIdentified contFits ends,
    Option.bind_eq_bind, Option.bind_some, Option.pure_def, String.ofList_toList]

/-! ## Applications -/

theorem readArgs_step {count : Nat} {func applied : Expr} {text : List Char}
    (one : readArg? read func text = some (applied, rest)) :
    readArgs read (count + 1) func text = readArgs read count applied rest := by
  rw [readArgs, one]

theorem readArgs_of_endsTerm (ends : EndsTerm rest) (count : Nat) (func : Expr) :
    readArgs read count func rest = (func, rest) := by
  have none : readArg? read func rest = none := by
    cases ends with
    | nil | paren | bracket => rfl
    | opened rest =>
        -- A keyword is no operand, so the reader stops in front of it.
        have word : ∀ c ∈ ['i', 'n'], isWordChar c = true := List.all_eq_true.mp rfl
        have noOperand : readOperand? read ('i' :: ['n'] ++ ' ' :: rest) = .none := by
          rw [readOperand?_word word (endsWord_cons.mpr rfl)]
          rfl
        rw [readArg?]
        · exact congrArg _ noOperand
        · rintro _ ⟨⟩
  cases count with
  | zero => rfl
  | succ count => rw [readArgs, none]

theorem readArg?_app (reads : ReadsUpTo read length) {func arg : Expr}
    (identified : arg.Identified) (fits : arg.render.toList.length ≤ length)
    (ends : EndsWord rest) :
    readArg? read func (" ".toList ++ (arg.renderArg.toList ++ rest)) =
      some (.app func arg, rest) := by
  have operand := reads.arg identified fits ends
  change readArg? read func (' ' :: (arg.renderArg.toList ++ rest)) = _
  rw [readArg?, operand]
  · rfl
  · -- The text of an operand does not start with a bracket.
    intro text same
    rw [same] at operand
    cases operand

theorem readArg?_tapp {func : Expr} {arg : Ty} :
    readArg? read func (" [".toList ++ (arg.render.toList ++ ("]".toList ++ rest))) =
      some (.tapp func arg, rest) := by
  have atBracket : Ty.EndsType ("]".toList ++ rest) := Ty.endsType_cons rfl (by decide) _
  change readArg? read func (' ' :: '[' :: (arg.render.toList ++ ("]".toList ++ rest))) = _
  rw [readArg?]
  simp only [arg.read?_render atBracket, skip?_append, Option.bind_eq_bind, Option.bind_some,
    Option.pure_def]

end ReadsUpTo

theorem readTo_of_operand {length : Nat} {func : Expr} {text rest : List Char}
    (noOpener : Opener.read? text = none)
    (operand : readOperand? (readTo length) text = some (func, rest)) :
    readTo (length + 1) text = some (readArgs (readTo length) length func rest) := by
  rw [readTo, noOpener]
  simp only [operand, Option.map_some]

/-- Once its function has been read, what is left of an application is to read arguments, and
`left` of them may follow. -/
theorem readTo_func {length : Nat} (reads : ReadsUpTo (readTo length) length) {func : Expr}
    (identified : func.Identified) (fits : func.renderFunc.toList.length ≤ length + 1)
    {rest : List Char} (ends : EndsWord rest) :
    ∃ left, length < left + func.renderFunc.toList.length ∧
      readTo (length + 1) (func.renderFunc.toList ++ rest) =
        some (readArgs (readTo length) left func rest) := by
  induction func generalizing rest with
  | lit | var =>
      obtain ⟨noOpener, operand⟩ := read?_of_isAtomic rfl identified ends
      have positive := length_render_pos identified
      exact ⟨length, Nat.lt_add_of_pos_right positive, readTo_of_operand noOpener operand⟩
  | app func arg funcInduction _ =>
      obtain ⟨funcIdentified, argIdentified⟩ := List.forall_mem_append.mp identified
      rw [renderFunc_of_not_isOpenEnded rfl, render_app] at fits ⊢
      simp only [String.toList_append, List.length_append, List.append_assoc] at fits ⊢
      have blank : " ".toList.length = 1 := rfl
      have argFits := arg.length_render_le_arg
      have atBlank : EndsWord (" ".toList ++ (arg.renderArg.toList ++ rest)) :=
        endsWord_cons.mpr rfl
      obtain ⟨left, room, result⟩ := funcInduction funcIdentified (by omega) atBlank
      obtain ⟨left, rfl⟩ : ∃ fewer, left = fewer + 1 := ⟨left - 1, by omega⟩
      refine ⟨left, by omega, ?_⟩
      rw [result, ReadsUpTo.readArgs_step (reads.readArg?_app argIdentified (by omega) ends)]
  | tapp func arg funcInduction =>
      rw [renderFunc_of_not_isOpenEnded rfl, render_tapp] at fits ⊢
      simp only [String.toList_append, List.length_append, List.append_assoc] at fits ⊢
      have opening : " [".toList.length = 2 := rfl
      have atBlank : EndsWord (" [".toList ++ (arg.render.toList ++ ("]".toList ++ rest))) :=
        endsWord_cons.mpr rfl
      obtain ⟨left, room, result⟩ := funcInduction identified (by omega) atBlank
      obtain ⟨left, rfl⟩ : ∃ fewer, left = fewer + 1 := ⟨left - 1, by omega⟩
      refine ⟨left, by omega, ?_⟩
      rw [result, ReadsUpTo.readArgs_step ReadsUpTo.readArg?_tapp]
  | abs | tabs | pack | unpack =>
      rw [renderFunc_of_isOpenEnded rfl] at fits ⊢
      simp only [String.toList_append, List.length_append] at fits
      have opening : "(".toList.length = 1 := rfl
      obtain ⟨noOpener, operand⟩ := reads.closed identified (by omega)
      exact ⟨length, by simp, readTo_of_operand noOpener operand⟩

/-- Terms that extend as far right as they can are told by how they start. -/
theorem Opener.read?_text (text : List Char) :
    read? ("λ".toList ++ text) = some (.abs, text) ∧
      read? ("Λ".toList ++ text) = some (.tabs, text) ∧
      read? ("pack [".toList ++ text) = some (.pack, " [".toList ++ text) ∧
      read? ("unpack [".toList ++ text) = some (.unpack, " [".toList ++ text) :=
  ⟨rfl, rfl, rfl, rfl⟩

theorem readsUpTo_readTo (length : Nat) : ReadsUpTo (readTo length) length := by
  induction length with
  | zero =>
      intro expr rest identified fits
      exact absurd (length_render_pos identified) (Nat.not_lt_of_le fits)
  | succ length reads =>
      intro expr rest identified fits ends
      cases expr with
      | lit | var | app | tapp =>
          obtain ⟨left, -, result⟩ := readTo_func reads identified fits ends.endsType.word
          rw [ReadsUpTo.readArgs_of_endsTerm ends] at result
          exact result
      | abs param paramTy body =>
          unfold render at fits ⊢
          simp only [String.toList_append, List.length_append, List.append_assoc] at fits ⊢
          have symbol : "λ".toList.length = 1 := rfl
          rw [readTo, (Opener.read?_text _).1]
          exact reads.abs identified (by omega) ends
      | tabs v body =>
          unfold render at fits ⊢
          simp only [String.toList_append, List.length_append, List.append_assoc] at fits ⊢
          have symbol : "Λ".toList.length = 1 := rfl
          rw [readTo, (Opener.read?_text _).2.1]
          exact reads.tabs identified (by omega) ends
      | pack witness body v bodyTy =>
          unfold render at fits ⊢
          simp only [String.toList_append, List.length_append, List.append_assoc] at fits ⊢
          have separator : ", ".toList.length = 2 := rfl
          rw [readTo, (Opener.read?_text _).2.2.1]
          exact reads.pack identified (by omega) ends
      | unpack v name packed cont =>
          unfold render at fits ⊢
          simp only [String.toList_append, List.length_append, List.append_assoc] at fits ⊢
          have separator : ", ".toList.length = 2 := rfl
          rw [readTo, (Opener.read?_text _).2.2.2]
          exact reads.unpack identified (by omega) (by omega) ends

theorem parse?_render {expr : Expr} (identified : expr.Identified) :
    parse? expr.render = some expr := by
  have whole := readsUpTo_readTo _ expr [] identified (Nat.le_refl _) .nil
  rw [List.append_nil] at whole
  rw [parse?, whole]

end Expr

/-- Every term whose names are identifiers is read back from its text, so two such terms with the
same text are equal. -/
theorem term_text_unambiguous (expr expr' : Expr) (identified : expr.Identified)
    (identified' : expr'.Identified) :
    Expr.parse? expr.render = some expr ∧ (expr.render = expr'.render → expr = expr') := by
  refine ⟨Expr.parse?_render identified, ?_⟩
  intro same
  apply Option.some.inj
  rw [← Expr.parse?_render identified, ← Expr.parse?_render identified', same]

/-- An opening whose packed term is an opening of its own. -/
def openedInPacked : Expr :=
  .unpack ⟨1⟩ "x"
    (.unpack ⟨2⟩ "y" (.var "p")
      (.app (.app (.var "f") (.lit (-3))) (.abs "x" (.arrow .int (.var ⟨2⟩)) (.var "y"))))
    (.pack .int (.app (.var "x") (.var "x")) ⟨4⟩ (.var ⟨4⟩))

/-- The same parts with the second opening in the continuation. -/
def openedInCont : Expr :=
  .unpack ⟨1⟩ "x" (.var "p")
    (.unpack ⟨2⟩ "y"
      (.app (.app (.var "f") (.lit (-3))) (.abs "x" (.arrow .int (.var ⟨2⟩)) (.var "y")))
      (.pack .int (.app (.var "x") (.var "x")) ⟨4⟩ (.var ⟨4⟩)))

theorem nested_openings_unambiguous :
    openedInPacked.Identified ∧ openedInCont.Identified ∧
      Expr.parse? ("unpack [t1, x] = unpack [t2, y] = p in f -3 (λx: Int -> t2. y) in " ++
        "pack [Int, x x] as ∃t4. t4") = some openedInPacked ∧
      openedInPacked.render ≠ openedInCont.render := by
  have identified : openedInPacked.Identified := by decide
  have identified' : openedInCont.Identified := by decide
  obtain ⟨read, determined⟩ :=
    term_text_unambiguous openedInPacked openedInCont identified identified'
  exact ⟨identified, identified', read, fun same => nomatch determined same⟩

end PolyLambda
