import PolyLambda.Proofs.FreeVariables
import PolyLambda.Proofs.Record
import PolyLambda.Proofs.TermText

/-! # Derivations from their texts

The text of a derivation is one line for each node, and only the indentation of the
lines tells how the nodes hang together.  When no name holds a line break, the text
determines its lines, each line determines the depth, the rule and the two texts of
its node, because the last `⇒` of a line ends its input, and the depths determine
the tree: the premises of a node are the lines below it up to the next one that is
not indented further. -/

set_option autoImplicit false

namespace PolyLambda

/-! ## Line breaks -/

namespace Ty

def isTextChar (c : Char) : Bool := c.isDigit || "Int() ->∀∃.".toList.contains c

theorem isTextChar_of_mem_var (v : TyVar) : ∀ c ∈ v.render.toList, isTextChar c = true := by
  intro c member
  rw [v.toList_render] at member
  rcases List.mem_cons.mp member with rfl | member
  · decide
  · simp [isTextChar, isDigit_of_mem_toDigits member]

theorem isTextChar_of_mem_render (ty : Ty) : ∀ c ∈ ty.render.toList, isTextChar c = true := by
  induction ty with
  | int => exact List.all_eq_true.mp rfl
  | var v => exact isTextChar_of_mem_var v
  | arrow domain codomain domainInduction codomainInduction =>
      have operand : ∀ c ∈ domain.renderOperand.toList, isTextChar c = true := by
        unfold renderOperand
        split
        · exact domainInduction
        · simp only [String.toList_append, List.forall_mem_append]
          exact ⟨⟨List.all_eq_true.mp rfl, domainInduction⟩, List.all_eq_true.mp rfl⟩
      rw [render_arrow]
      simp only [String.toList_append, List.forall_mem_append]
      exact ⟨⟨operand, List.all_eq_true.mp rfl⟩, codomainInduction⟩
  | quant q v body bodyInduction =>
      simp only [render, String.toList_append, List.forall_mem_append]
      have symbol : ∀ c ∈ q.symbol.toList, isTextChar c = true := by
        cases q <;> exact List.all_eq_true.mp rfl
      have dot : ∀ c ∈ ". ".toList, isTextChar c = true := List.all_eq_true.mp rfl
      exact ⟨⟨⟨symbol, isTextChar_of_mem_var v⟩, dot⟩, bodyInduction⟩

theorem not_mem_render {c : Char} (foreign : isTextChar c = false) (ty : Ty) :
    c ∉ ty.render.toList := by
  intro member
  rw [isTextChar_of_mem_render ty c member] at foreign
  cases foreign

theorem newline_not_mem_render (ty : Ty) : '\n' ∉ ty.render.toList := ty.not_mem_render rfl

end Ty

namespace Expr

/-- No name of the term holds a line break. -/
def OneLine (expr : Expr) : Prop := ∀ name ∈ expr.names, '\n' ∉ name.toList

theorem OneLine.render {expr : Expr} (oneLine : expr.OneLine) : '\n' ∉ expr.render.toList := by
  have inType := Ty.newline_not_mem_render
  have inVar : ∀ v : TyVar, '\n' ∉ v.render.toList := fun v => inType (.var v)
  have inFunc : ∀ expr : Expr, '\n' ∉ expr.render.toList → '\n' ∉ expr.renderFunc.toList := by
    intro expr inExpr
    unfold renderFunc
    split <;> simp [inExpr]
  have inArg : ∀ expr : Expr, '\n' ∉ expr.render.toList → '\n' ∉ expr.renderArg.toList := by
    intro expr inExpr
    unfold renderArg
    split <;> simp [inExpr]
  induction expr with
  | lit value =>
      have inDigits : ∀ n, '\n' ∉ Nat.toDigits 10 n := by
        intro n member
        exact absurd (isDigit_of_mem_toDigits member) (by decide)
      unfold Expr.render
      rw [Int.repr_eq_if]
      split <;> simp [inDigits]
  | var name => exact oneLine name List.mem_cons_self
  | abs param paramTy body bodyInduction =>
      obtain ⟨inParam, inBody⟩ := List.forall_mem_cons.mp oneLine
      unfold Expr.render
      simp [inParam, inType, bodyInduction inBody]
  | app func arg funcInduction argInduction =>
      obtain ⟨funcOneLine, argOneLine⟩ := List.forall_mem_append.mp oneLine
      rw [render_app]
      simp [inFunc func (funcInduction funcOneLine), inArg arg (argInduction argOneLine)]
  | tabs v body bodyInduction =>
      unfold Expr.render
      simp [inVar, bodyInduction oneLine]
  | tapp func arg funcInduction =>
      rw [render_tapp]
      simp [inFunc func (funcInduction oneLine), inType]
  | pack witness body v bodyTy bodyInduction =>
      unfold Expr.render
      simp [inType, inVar, bodyInduction oneLine]
  | unpack v name packed cont packedInduction contInduction =>
      obtain ⟨inName, inParts⟩ := List.forall_mem_cons.mp oneLine
      obtain ⟨inPacked, inCont⟩ := List.forall_mem_append.mp inParts
      unfold Expr.render
      simp [inName, inVar, packedInduction inPacked, contInduction inCont]

end Expr

theorem not_mem_intercalate {α : Type} {c : α} {separator : List α} {parts : List (List α)}
    (between : c ∉ separator) (inside : ∀ part ∈ parts, c ∉ part) :
    c ∉ separator.intercalate parts := by
  induction parts with
  | nil => simp
  | cons part parts partsInduction =>
      obtain ⟨inPart, inParts⟩ := List.forall_mem_cons.mp inside
      cases parts with
      | nil => simpa using inPart
      | cons next parts =>
          rw [List.intercalate_cons_cons]
          simp [inPart, between, partsInduction inParts]

namespace Env

def OneLine (env : Env) : Prop := ∀ name ∈ env.terms, '\n' ∉ name.toList

theorem OneLine.empty : Env.empty.OneLine := by
  intro name bound
  simp [Env.empty] at bound

theorem OneLine.insertTerm {env : Env} (oneLine : env.OneLine) {name : String}
    (inName : '\n' ∉ name.toList) (ty : Ty) : (env.insertTerm name ty).OneLine := by
  intro other member
  rcases Std.ExtTreeMap.mem_insert.mp member with same | member
  · exact Std.LawfulEqOrd.eq_of_compare same ▸ inName
  · exact oneLine other member

theorem OneLine.insertType {env : Env} (oneLine : env.OneLine) (v : TyVar) :
    (env.insertType v).OneLine :=
  oneLine

theorem OneLine.render {env : Env} (oneLine : env.OneLine) : '\n' ∉ env.render.toList := by
  have inTerms : '\n' ∉ env.renderTerms.toList := by
    unfold renderTerms
    rw [String.toList_intercalate]
    refine not_mem_intercalate (by decide) ?_
    simp only [List.map_map, List.forall_mem_map]
    intro binding member
    simp [oneLine _ (mem_terms_of_mem_toList member), binding.2.newline_not_mem_render]
  have inTypes : '\n' ∉ env.renderTypes.toList := by
    unfold renderTypes
    rw [String.toList_intercalate]
    refine not_mem_intercalate (by decide) ?_
    simp only [List.map_map, List.forall_mem_map]
    intro v member
    exact (Ty.var v).newline_not_mem_render
  unfold Env.render
  split
  · simp [inTerms]
  · split <;> simp [inTerms, inTypes]

end Env

/-! ## Lines -/

namespace Derivation

def line (depth : Nat) (rule : Rule) (input output : String) : String :=
  String.ofList (List.replicate (2 * depth) ' ') ++ rule.name ++ ": " ++ input ++ " " ++ output

def indent (text : String) : Nat := (text.toList.takeWhile (· == ' ')).length

/-- Both texts of a node stay on its line, and the last `⇒` of the line ends the input. -/
structure FitsLine (input output : String) : Prop where
  ended : ∃ judgement, input = judgement ++ "⇒"
  inputLine : '\n' ∉ input.toList
  outputLine : '\n' ∉ output.toList
  noArrow : '⇒' ∉ output.toList

inductive Printable : Derivation → Prop where
  | node {rule : Rule} {input output : String} {premises : List Derivation}
      (fits : FitsLine input output) (inner : ∀ premise ∈ premises, Printable premise) :
      Printable (.node rule input output premises)

theorem toList_line (depth : Nat) (rule : Rule) (input output : String) :
    (line depth rule input output).toList = List.replicate (2 * depth) ' ' ++
      (rule.name.toList ++ ':' :: ' ' :: (input.toList ++ ' ' :: output.toList)) := by
  simp [line]

theorem indent_line (depth : Nat) (rule : Rule) (input output : String) :
    indent (line depth rule input output) = 2 * depth := by
  have named : ∃ name, rule.name.toList = 'T' :: name := by
    cases rule <;> exact ⟨_, rfl⟩
  obtain ⟨name, named⟩ := named
  rw [indent, toList_line, named]
  simp

theorem line_inj {depth depth' : Nat} {rule rule' : Rule} {input input' output output' : String}
    (fits : FitsLine input output) (fits' : FitsLine input' output')
    (same : line depth rule input output = line depth' rule' input' output') :
    depth = depth' ∧ rule = rule' ∧ input = input' ∧ output = output' := by
  have sameIndent := congrArg indent same
  rw [indent_line, indent_line] at sameIndent
  obtain rfl : depth = depth' := by omega
  have sameText := congrArg String.toList same
  rw [toList_line, toList_line] at sameText
  have noColon : ∀ rule : Rule, ':' ∉ rule.name.toList := by
    intro rule
    cases rule <;> decide
  obtain ⟨sameName, sameRest⟩ := append_cons_inj_first (noColon rule) (noColon rule')
    (List.append_cancel_left sameText)
  have sameRule : rule = rule' := by
    revert sameName
    cases rule <;> cases rule' <;> decide
  -- A name may hold `⇒` as well, so the input ends at the last one and not at the first.
  obtain ⟨judgement, rfl⟩ := fits.ended
  obtain ⟨judgement', rfl⟩ := fits'.ended
  have split : ∀ judgement output : String, (judgement ++ "⇒").toList ++ ' ' :: output.toList =
      judgement.toList ++ '⇒' :: ' ' :: output.toList := by simp
  have lastArrow : ∀ {output : String}, '⇒' ∉ output.toList → '⇒' ∉ ' ' :: output.toList := by simp
  rw [split, split] at sameRest
  obtain ⟨sameJudgement, sameOutput⟩ := append_cons_inj_last (lastArrow fits.noArrow)
    (lastArrow fits'.noArrow) (List.cons.inj sameRest).2
  refine ⟨rfl, sameRule, ?_, String.toList_injective (List.cons.inj sameOutput).2⟩
  rw [String.toList_injective sameJudgement]

theorem newline_not_mem_line {depth : Nat} {rule : Rule} {input output : String}
    (fits : FitsLine input output) : '\n' ∉ (line depth rule input output).toList := by
  have inName : '\n' ∉ rule.name.toList := by cases rule <;> decide
  rw [toList_line]
  simp [inName, fits.inputLine, fits.outputLine]

theorem newline_not_mem_lines {derivation : Derivation} (printable : derivation.Printable)
    (depth : Nat) : ∀ text ∈ derivation.lines depth, '\n' ∉ text.toList := by
  induction printable generalizing depth with
  | @node rule input output premises fits inner innerInduction =>
      have below : ∀ text ∈ linesOfAll (depth + 1) premises, '\n' ∉ text.toList := by
        clear inner
        induction premises with
        | nil => exact List.forall_mem_nil _
        | cons first rest restInduction =>
            obtain ⟨inFirst, inRest⟩ := List.forall_mem_cons.mp innerInduction
            exact List.forall_mem_append.mpr ⟨inFirst (depth + 1), restInduction inRest⟩
      exact List.forall_mem_cons.mpr ⟨newline_not_mem_line fits, below⟩

theorem toList_joined (texts : List String) : (String.join (texts.map (· ++ "\n"))).toList =
    texts.flatMap fun text => text.toList ++ ['\n'] := by
  simp [List.flatMap_map]

/-- Lines without line breaks are determined by the text that ends each of them with one. -/
theorem lines_of_joined {texts texts' : List String} (oneLine : ∀ text ∈ texts, '\n' ∉ text.toList)
    (oneLine' : ∀ text ∈ texts', '\n' ∉ text.toList)
    (same : String.join (texts.map (· ++ "\n")) = String.join (texts'.map (· ++ "\n"))) :
    texts = texts' := by
  have sameText := congrArg String.toList same
  rw [toList_joined, toList_joined] at sameText
  clear same
  induction texts generalizing texts' with
  | nil =>
      cases texts' with
      | nil => rfl
      | cons text' texts' => simp at sameText
  | cons text texts textsInduction =>
      cases texts' with
      | nil => simp at sameText
      | cons text' texts' =>
          obtain ⟨inText, inTexts⟩ := List.forall_mem_cons.mp oneLine
          obtain ⟨inText', inTexts'⟩ := List.forall_mem_cons.mp oneLine'
          simp only [List.flatMap_cons, List.append_assoc, List.singleton_append] at sameText
          obtain ⟨sameFirst, sameRest⟩ := append_cons_inj_first inText inText' sameText
          rw [String.toList_injective sameFirst, textsInduction inTexts inTexts' sameRest]

/-! ## Indentation -/

/-- The next line, if there is one, is indented less than the nodes at this depth. -/
def Above (depth : Nat) (texts : List String) : Prop :=
  ∀ text ∈ texts.head?, indent text < 2 * depth

theorem lines_node (depth : Nat) (rule : Rule) (input output : String)
    (premises : List Derivation) : (node rule input output premises).lines depth =
      line depth rule input output :: linesOfAll (depth + 1) premises :=
  rfl

theorem exists_lines_eq_cons (derivation : Derivation) (depth : Nat) :
    ∃ text rest, derivation.lines depth = text :: rest ∧ indent text = 2 * depth := by
  obtain ⟨rule, input, output, premises⟩ := derivation
  exact ⟨_, _, lines_node depth rule input output premises, indent_line depth rule input output⟩

theorem not_above_lines {depth : Nat} {derivation : Derivation} {texts : List String} :
    ¬ Above depth (derivation.lines depth ++ texts) := by
  obtain ⟨text, rest, starts, indented⟩ := derivation.exists_lines_eq_cons depth
  intro above
  rw [starts] at above
  have less := above text rfl
  omega

theorem Above.linesOfAll {depth : Nat} {texts : List String} (above : Above depth texts)
    (premises : List Derivation) : Above (depth + 1) (linesOfAll depth premises ++ texts) := by
  cases premises with
  | nil =>
      intro text next
      have less := above text next
      omega
  | cons first rest =>
      obtain ⟨text, later, starts, indented⟩ := first.exists_lines_eq_cons depth
      intro next isNext
      rw [Derivation.linesOfAll, starts] at isNext
      cases isNext
      omega

/-- Whatever lines follow it, as long as they are not part of it, the lines of a derivation
determine it. -/
def Determined (derivation : Derivation) : Prop :=
  ∀ ⦃derivation' : Derivation⦄ ⦃depth : Nat⦄ ⦃texts texts' : List String⦄,
    derivation'.Printable → Above (depth + 1) texts → Above (depth + 1) texts' →
      derivation.lines depth ++ texts = derivation'.lines depth ++ texts' →
        derivation = derivation' ∧ texts = texts'

theorem linesOfAll_inj {premises premises' : List Derivation}
    (determined : ∀ premise ∈ premises, Determined premise)
    (printable' : ∀ premise ∈ premises', Printable premise) {depth : Nat}
    {texts texts' : List String} (above : Above depth texts) (above' : Above depth texts')
    (same : linesOfAll depth premises ++ texts = linesOfAll depth premises' ++ texts') :
    premises = premises' ∧ texts = texts' := by
  induction premises generalizing premises' with
  | nil =>
      cases premises' with
      | nil => exact ⟨rfl, same⟩
      | cons first' rest' =>
          -- The first line of a premise has this depth, and the next line lies above it.
          change texts = _ at same
          rw [same, linesOfAll, List.append_assoc] at above
          exact absurd above not_above_lines
  | cons first rest restInduction =>
      cases premises' with
      | nil =>
          change _ = texts' at same
          rw [← same, linesOfAll, List.append_assoc] at above'
          exact absurd above' not_above_lines
      | cons first' rest' =>
          obtain ⟨firstDetermined, restDetermined⟩ := List.forall_mem_cons.mp determined
          obtain ⟨firstPrintable, restPrintable⟩ := List.forall_mem_cons.mp printable'
          rw [linesOfAll, linesOfAll, List.append_assoc, List.append_assoc] at same
          obtain ⟨rfl, sameRest⟩ := firstDetermined firstPrintable (above.linesOfAll rest)
            (above'.linesOfAll rest') same
          obtain ⟨rfl, sameTexts⟩ := restInduction restDetermined restPrintable sameRest
          exact ⟨rfl, sameTexts⟩

theorem Printable.determined {derivation : Derivation} (printable : derivation.Printable) :
    derivation.Determined := by
  induction printable with
  | node fits inner innerInduction =>
      intro derivation' depth texts texts' printable' above above' same
      cases printable' with
      | node fits' inner' =>
          rw [lines_node, lines_node] at same
          obtain ⟨sameLine, sameBelow⟩ := List.cons.inj same
          obtain ⟨-, rfl, rfl, rfl⟩ := line_inj fits fits' sameLine
          obtain ⟨rfl, sameTexts⟩ := linesOfAll_inj innerInduction inner' above above' sameBelow
          exact ⟨rfl, sameTexts⟩

theorem eq_of_render_eq {derivation derivation' : Derivation} (printable : derivation.Printable)
    (printable' : derivation'.Printable) (same : derivation.render = derivation'.render) :
    derivation = derivation' := by
  have sameLines := lines_of_joined (newline_not_mem_lines printable 0)
    (newline_not_mem_lines printable' 0) same
  have nothingBelow : Above 1 [] := by
    intro text next
    cases next
  exact (printable.determined printable' nothingBelow nothingBelow (congrArg (· ++ []) sameLines)).1

end Derivation

/-! ## Full derivations -/

theorem Expr.OneLine.part {expr part : Expr} (oneLine : expr.OneLine) (member : part ∈ expr.parts) :
    part.OneLine := by
  intro name inPart
  apply oneLine name
  cases expr with
  | lit | var => cases member
  | abs | tabs | tapp | pack =>
      obtain rfl := List.mem_singleton.mp member
      simp [names, inPart]
  | app | unpack =>
      rcases List.mem_cons.mp member with rfl | member
      · simp [names, inPart]
      · obtain rfl := List.mem_singleton.mp member
        simp [names, inPart]

theorem Env.OneLine.enter {env inner : Env} {expr : Expr} {k : Nat} (oneLine : env.OneLine)
    (names : expr.OneLine) (entered : env.enter? expr k = some inner) : inner.OneLine := by
  unfold Env.enter? at entered
  split at entered
  · cases entered
    exact oneLine.insertTerm (names _ List.mem_cons_self) _
  · cases entered
    exact oneLine.insertType _
  · split at entered
    · cases entered
      exact OneLine.insertTerm (oneLine.insertType _) (names _ List.mem_cons_self) _
    · cases entered
  · cases entered
    exact oneLine

theorem fitsLine_of_oneLine {env : Env} {expr : Expr} (envOneLine : env.OneLine)
    (exprOneLine : expr.OneLine) (ty : Ty) :
    Derivation.FitsLine (env.render ++ " ⊢ " ++ expr.render ++ " ⇒") ty.render where
  ended := ⟨env.render ++ " ⊢ " ++ expr.render ++ " ", by simp [String.append_assoc]⟩
  inputLine := by simp [envOneLine.render, exprOneLine.render]
  outputLine := ty.newline_not_mem_render
  noArrow := ty.not_mem_render rfl

theorem printable_of_derived {env : Env} {expr : Expr} {ty : Ty} {derivation : Derivation}
    (derived : deriveIn env expr = .ok (ty, derivation)) (envOneLine : env.OneLine)
    (exprOneLine : expr.OneLine) : derivation.Printable := by
  induction expr using Expr.parts_induction generalizing env ty derivation with
  | step expr partsInduction =>
      have concludes := concludes_of_derived derived
      obtain ⟨-, sameInput, sameOutput, sameLength⟩ := concludes.node
      have inner : ∀ premise ∈ derivation.premises, premise.Printable := by
        intro premise member
        obtain ⟨k, inRange, there⟩ := List.mem_iff_getElem.mp member
        rw [sameLength] at inRange
        obtain ⟨inner, partTy, premise', entered, listed, derivedPart⟩ :=
          concludes.premise (List.getElem?_eq_getElem inRange)
        obtain rfl : premise' = premise := by
          rw [← there]
          exact (List.getElem_of_getElem? listed).2.symm
        exact partsInduction _ (List.getElem_mem inRange) derivedPart
          (envOneLine.enter exprOneLine entered) (exprOneLine.part (List.getElem_mem inRange))
      obtain ⟨rule, input, output, premises⟩ := derivation
      refine .node ?_ inner
      rw [show input = _ from sameInput, show output = _ from sameOutput]
      exact fitsLine_of_oneLine envOneLine exprOneLine ty

/-- Full derivations with the same text are equal, whatever terms and environments they come
from, as long as no name holds a line break. -/
theorem derivation_text_determines_derivation {env env' : Env} {expr expr' : Expr} {ty ty' : Ty}
    {derivation derivation' : Derivation}
    (derived : deriveIn env expr = .ok (ty, derivation))
    (derived' : deriveIn env' expr' = .ok (ty', derivation'))
    (envOneLine : env.OneLine) (exprOneLine : expr.OneLine)
    (envOneLine' : env'.OneLine) (exprOneLine' : expr'.OneLine)
    (same : derivation.render = derivation'.render) : derivation = derivation' :=
  Derivation.eq_of_render_eq (printable_of_derived derived envOneLine exprOneLine)
    (printable_of_derived derived' envOneLine' exprOneLine') same

def listedPair : Env := (Env.empty.insertTerm "x" .int).insertTerm "y" .int

/-- One binding, of a name that makes its text the same as that of `listedPair`. -/
def punctuatedName : Env := Env.empty.insertTerm "x: Int, y" .int

theorem listedPair_and_punctuatedName_derive_alike :
    ∃ ty derivation derivation',
      deriveIn listedPair (.abs "z ⇒" .int (.lit 5)) = .ok (ty, derivation) ∧
        deriveIn punctuatedName (.abs "z ⇒" .int (.lit 5)) = .ok (ty, derivation') ∧
        listedPair ≠ punctuatedName ∧ derivation = derivation' := by
  have exprOneLine : (Expr.abs "z ⇒" .int (.lit 5)).OneLine := by
    unfold Expr.OneLine
    decide
  have pairOneLine : listedPair.OneLine :=
    (Env.OneLine.empty.insertTerm (by decide) .int).insertTerm (by decide) .int
  have nameOneLine : punctuatedName.OneLine := Env.OneLine.empty.insertTerm (by decide) .int
  refine ⟨_, _, _, rfl, rfl, by decide, ?_⟩
  exact derivation_text_determines_derivation rfl rfl pairOneLine exprOneLine nameOneLine
    exprOneLine rfl

end PolyLambda
