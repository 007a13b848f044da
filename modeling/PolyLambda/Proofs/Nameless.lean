import PolyLambda.Proofs.Binders
import PolyLambda.Proofs.FreeVariables

/-! # Nameless types

In a nameless type a bound occurrence is the number of binders between it and
its own, and a free occurrence keeps its identity.  `Ty.nameless` resolves each
occurrence against the stack of binders around it, innermost first.

A binder that a type does not mention makes room in its nameless form by lifting
(`nameless_insert`), and a form that has room for a binder comes from a type
that does not mention it (`not_mem_freeVars_of_nameless_eq_liftFrom`). -/

set_option autoImplicit false

namespace PolyLambda

/-- An occurrence of a variable: bound so many binders out, or free. -/
inductive Ref (α : Type) where
  | bound (index : Nat)
  | free (a : α)
deriving DecidableEq, Repr

namespace Ref

variable {α : Type}

/-- Makes room for one binder outside the innermost `cutoff` ones. -/
def liftFrom (cutoff : Nat) : Ref α → Ref α
  | .bound index => .bound (if index < cutoff then index else index + 1)
  | .free a => .free a

theorem liftFrom_zero_bound (index : Nat) :
    (bound index : Ref α).liftFrom 0 = .bound (index + 1) := rfl

theorem liftFrom_injective {cutoff : Nat} {r s : Ref α}
    (same : r.liftFrom cutoff = s.liftFrom cutoff) : r = s := by
  cases r with
  | free a =>
      cases s with
      | free b => exact same
      | bound index => simp [liftFrom] at same
  | bound first =>
      cases s with
      | free b => simp [liftFrom] at same
      | bound second =>
          simp only [liftFrom, bound.injEq] at same ⊢
          split at same <;> split at same <;> omega

theorem liftFrom_succ_liftFrom_zero (cutoff : Nat) (r : Ref α) :
    (r.liftFrom 0).liftFrom (cutoff + 1) = (r.liftFrom cutoff).liftFrom 0 := by
  cases r with
  | free a => rfl
  | bound index =>
      simp only [liftFrom, Nat.not_lt_zero, if_false, bound.injEq]
      split <;> split <;> omega

theorem liftFrom_ne_bound (cutoff : Nat) (r : Ref α) : r.liftFrom cutoff ≠ .bound cutoff := by
  cases r with
  | free a => simp [liftFrom]
  | bound index =>
      simp only [liftFrom, ne_eq, bound.injEq]
      split <;> omega

variable [DecidableEq α]

/-- What an occurrence of `a` refers to under a stack of binders, innermost first. -/
def resolve : List α → α → Ref α
  | [], a => .free a
  | b :: stack, a => if b = a then .bound 0 else (resolve stack a).liftFrom 0

theorem resolve_cons_self (stack : List α) (a : α) : resolve (a :: stack) a = .bound 0 :=
  if_pos rfl

theorem resolve_cons_of_ne {a b : α} (stack : List α) (other : b ≠ a) :
    resolve (b :: stack) a = (resolve stack a).liftFrom 0 :=
  if_neg other

theorem resolve_injective {stack : List α} {a b : α} (same : resolve stack a = resolve stack b) :
    a = b := by
  induction stack with
  | nil => exact free.inj same
  | cons c stack stackInduction =>
      by_cases first : c = a
      · by_cases second : c = b
        · exact first.symm.trans second
        · rw [← first, resolve_cons_self, resolve_cons_of_ne stack second] at same
          exact absurd same.symm (liftFrom_ne_bound 0 _)
      · by_cases second : c = b
        · rw [← second, resolve_cons_self, resolve_cons_of_ne stack first] at same
          exact absurd same (liftFrom_ne_bound 0 _)
        · rw [resolve_cons_of_ne stack first, resolve_cons_of_ne stack second] at same
          exact stackInduction (liftFrom_injective same)

theorem resolve_append_self {inner : List α} (outer : List α) {a : α} (outside : a ∉ inner) :
    resolve (inner ++ a :: outer) a = .bound inner.length := by
  induction inner with
  | nil => exact resolve_cons_self outer a
  | cons b inner innerInduction =>
      rw [List.mem_cons, not_or] at outside
      rw [List.cons_append, resolve_cons_of_ne _ (Ne.symm outside.1), innerInduction outside.2]
      rfl

theorem resolve_append_cons (inner outer : List α) {a b : α}
    (passed : a ∈ inner ∨ b ≠ a) :
    resolve (inner ++ b :: outer) a = (resolve (inner ++ outer) a).liftFrom inner.length := by
  induction inner with
  | nil => exact resolve_cons_of_ne outer (passed.resolve_left (List.not_mem_nil))
  | cons c inner innerInduction =>
      simp only [List.cons_append, List.length_cons]
      by_cases here : c = a
      · rw [here, resolve_cons_self, resolve_cons_self]
        rfl
      · have stillPassed : a ∈ inner ∨ b ≠ a := by
          refine passed.imp_left fun member => ?_
          exact (List.mem_cons.mp member).resolve_left (Ne.symm here)
        rw [resolve_cons_of_ne _ here, resolve_cons_of_ne _ here, innerInduction stillPassed,
          liftFrom_succ_liftFrom_zero]

theorem resolve_eq_bound_or_free (stack : List α) (a : α) :
    (∃ index < stack.length, resolve stack a = .bound index ∧ a ∈ stack) ∨
      (resolve stack a = .free a ∧ a ∉ stack) := by
  induction stack with
  | nil => exact .inr ⟨rfl, List.not_mem_nil⟩
  | cons b stack stackInduction =>
      by_cases here : b = a
      · subst here
        exact .inl ⟨0, Nat.succ_pos _, resolve_cons_self stack b, List.mem_cons_self⟩
      · rw [resolve_cons_of_ne stack here]
        rcases stackInduction with ⟨index, inRange, refers, member⟩ | ⟨refers, outside⟩
        · refine .inl ⟨index + 1, Nat.succ_lt_succ inRange, ?_, List.mem_cons_of_mem b member⟩
          rw [refers, liftFrom_zero_bound]
        · refine .inr ⟨by rw [refers]; rfl, ?_⟩
          rw [List.mem_cons, not_or]
          exact ⟨Ne.symm here, outside⟩

end Ref

inductive NamelessTy where
  | int
  | var (ref : Ref TyVar)
  | arrow (domain codomain : NamelessTy)
  | quant (q : Quantifier) (body : NamelessTy)
deriving DecidableEq, Repr

namespace NamelessTy

@[match_pattern] abbrev all (body : NamelessTy) : NamelessTy := .quant .all body

@[match_pattern] abbrev ex (body : NamelessTy) : NamelessTy := .quant .ex body

def Closed (depth : Nat) : NamelessTy → Prop
  | .int => True
  | .var (.bound index) => index < depth
  | .var (.free _) => False
  | .arrow domain codomain => domain.Closed depth ∧ codomain.Closed depth
  | .quant _ body => body.Closed (depth + 1)

def liftFrom (cutoff : Nat) : NamelessTy → NamelessTy
  | .int => .int
  | .var ref => .var (ref.liftFrom cutoff)
  | .arrow domain codomain => .arrow (domain.liftFrom cutoff) (codomain.liftFrom cutoff)
  | .quant q body => .quant q (body.liftFrom (cutoff + 1))

def lift (ty : NamelessTy) : NamelessTy := ty.liftFrom 0

/-- `ty` with `replacement` for the variable of index `depth`, whose binder is taken
away.  The replacement is lifted each time a binder is crossed. -/
def instAt (ty : NamelessTy) (depth : Nat) (replacement : NamelessTy) : NamelessTy :=
  match ty with
  | .int => .int
  | .var (.bound index) =>
      if index < depth then .var (.bound index)
      else if index = depth then replacement
      else .var (.bound (index - 1))
  | .var (.free v) => .var (.free v)
  | .arrow domain codomain =>
      .arrow (domain.instAt depth replacement) (codomain.instAt depth replacement)
  | .quant q body => .quant q (body.instAt (depth + 1) replacement.lift)

def inst (body arg : NamelessTy) : NamelessTy := body.instAt 0 arg

/-- `ty` with `replacement` for the free variable `v`.  The replacement is lifted each
time a binder is crossed, so that no binder of `ty` captures what it refers to. -/
def substFree (ty : NamelessTy) (v : TyVar) (replacement : NamelessTy) : NamelessTy :=
  match ty with
  | .int => .int
  | .var (.bound index) => .var (.bound index)
  | .var (.free w) => if w = v then replacement else .var (.free w)
  | .arrow domain codomain =>
      .arrow (domain.substFree v replacement) (codomain.substFree v replacement)
  | .quant q body => .quant q (body.substFree v replacement.lift)

theorem liftFrom_injective {cutoff : Nat} {ty other : NamelessTy}
    (same : ty.liftFrom cutoff = other.liftFrom cutoff) : ty = other := by
  induction ty generalizing cutoff other with
  | int =>
      cases other with
      | int => rfl
      | _ => simp [liftFrom] at same
  | var ref =>
      cases other with
      | var ref' => exact congrArg var (Ref.liftFrom_injective (var.inj same))
      | _ => simp [liftFrom] at same
  | arrow domain codomain domainInduction codomainInduction =>
      cases other with
      | arrow domain' codomain' =>
          simp only [liftFrom, arrow.injEq] at same
          rw [domainInduction same.1, codomainInduction same.2]
      | _ => simp [liftFrom] at same
  | quant q body bodyInduction =>
      cases other with
      | quant q' body' =>
          simp only [liftFrom, quant.injEq] at same
          rw [same.1, bodyInduction same.2]
      | _ => simp [liftFrom] at same

theorem instAt_liftFrom_succ (ty : NamelessTy) (depth : Nat) :
    (ty.liftFrom (depth + 1)).instAt depth (.var (.bound depth)) = ty := by
  induction ty generalizing depth with
  | int => rfl
  | var ref =>
      cases ref with
      | free v => rfl
      | bound index =>
          simp only [liftFrom, Ref.liftFrom, instAt]
          rcases Nat.lt_trichotomy index depth with below | same | above
          · have first : index < depth + 1 := by omega
            rw [if_pos first, if_pos below]
          · subst same
            simp
          · have first : ¬ index < depth + 1 := by omega
            have second : ¬ index + 1 < depth := by omega
            have third : index + 1 ≠ depth := by omega
            rw [if_neg first, if_neg second, if_neg third, Nat.add_sub_cancel]
  | arrow domain codomain domainInduction codomainInduction =>
      simp only [liftFrom, instAt, domainInduction, codomainInduction]
  | quant q body bodyInduction =>
      simp only [liftFrom, instAt]
      exact congrArg (quant q) (bodyInduction (depth + 1))

end NamelessTy

namespace Ty

def nameless (stack : List TyVar) : Ty → NamelessTy
  | .int => .int
  | .var v => .var (.resolve stack v)
  | .arrow domain codomain => .arrow (domain.nameless stack) (codomain.nameless stack)
  | .quant q v body => .quant q (body.nameless (v :: stack))

theorem nameless_eq_arrow {stack : List TyVar} {ty : Ty} {domain codomain : NamelessTy}
    (same : ty.nameless stack = .arrow domain codomain) :
    ∃ domain' codomain', ty = .arrow domain' codomain' ∧
      domain'.nameless stack = domain ∧ codomain'.nameless stack = codomain := by
  cases ty with
  | arrow domain' codomain' =>
      have parts := NamelessTy.arrow.inj same
      exact ⟨domain', codomain', rfl, parts.1, parts.2⟩
  | _ => simp [nameless] at same

theorem nameless_eq_quant {stack : List TyVar} {ty : Ty} {q : Quantifier} {body : NamelessTy}
    (same : ty.nameless stack = .quant q body) :
    ∃ v body', ty = .quant q v body' ∧ body'.nameless (v :: stack) = body := by
  cases ty with
  | quant q' v body' =>
      obtain ⟨rfl, bodies⟩ := NamelessTy.quant.inj same
      exact ⟨v, body', rfl, bodies⟩
  | _ => simp [nameless] at same

theorem closed_nameless_iff (stack : List TyVar) (ty : Ty) :
    (ty.nameless stack).Closed stack.length ↔ ∀ v ∈ ty.freeVars, v ∈ stack := by
  induction ty generalizing stack with
  | int => simp [nameless, NamelessTy.Closed]
  | var w =>
      simp only [nameless, mem_freeVars_var, forall_eq']
      rcases Ref.resolve_eq_bound_or_free stack w with
        ⟨index, inRange, refers, member⟩ | ⟨refers, outside⟩
      · simp [refers, NamelessTy.Closed, inRange, member]
      · simp [refers, NamelessTy.Closed, outside]
  | arrow domain codomain domainInduction codomainInduction =>
      simp only [nameless, NamelessTy.Closed, domainInduction, codomainInduction,
        mem_freeVars_arrow, or_imp, forall_and]
  | quant q w body bodyInduction =>
      have step := bodyInduction (w :: stack)
      simp only [List.length_cons, List.mem_cons] at step
      simp only [nameless, NamelessTy.Closed, step, mem_freeVars_quant]
      constructor
      · rintro inBody v ⟨notBound, free⟩
        exact (inBody v free).resolve_left (Ne.symm notBound)
      · intro inStack v free
        by_cases bound : v = w
        · exact .inl bound
        · exact .inr (inStack v ⟨Ne.symm bound, free⟩)

theorem nameless_insert (inner outer : List TyVar) {w : TyVar} {ty : Ty}
    (unmentioned : w ∈ inner ∨ w ∉ ty.freeVars) :
    ty.nameless (inner ++ w :: outer) = (ty.nameless (inner ++ outer)).liftFrom inner.length := by
  induction ty generalizing inner with
  | int => rfl
  | var u =>
      refine congrArg NamelessTy.var (Ref.resolve_append_cons inner outer ?_)
      by_cases same : w = u
      · subst same
        exact .inl (unmentioned.resolve_right fun absent => absent (mem_freeVars_var.mpr rfl))
      · exact .inr same
  | arrow domain codomain domainInduction codomainInduction =>
      simp only [mem_freeVars_arrow, not_or] at unmentioned
      simp only [nameless, NamelessTy.liftFrom]
      rw [domainInduction inner (unmentioned.imp_right And.left),
        codomainInduction inner (unmentioned.imp_right And.right)]
  | quant q u body bodyInduction =>
      simp only [nameless, NamelessTy.liftFrom]
      have under : w ∈ u :: inner ∨ w ∉ body.freeVars := by
        rcases unmentioned with member | absent
        · exact .inl (List.mem_cons_of_mem u member)
        · by_cases same : u = w
          · exact .inl (same ▸ List.mem_cons_self)
          · exact .inr fun free => absent (mem_freeVars_quant.mpr ⟨same, free⟩)
      exact congrArg (NamelessTy.quant q) (bodyInduction (u :: inner) under)

theorem nameless_cons_of_not_mem (stack : List TyVar) {w : TyVar} {ty : Ty}
    (unmentioned : w ∉ ty.freeVars) : ty.nameless (w :: stack) = (ty.nameless stack).lift :=
  nameless_insert [] stack (.inr unmentioned)

theorem not_mem_freeVars_of_nameless_eq_liftFrom {inner outer : List TyVar} {w : TyVar} {ty : Ty}
    {lower : NamelessTy}
    (lifted : ty.nameless (inner ++ w :: outer) = lower.liftFrom inner.length)
    (outside : w ∉ inner) : w ∉ ty.freeVars := by
  induction ty generalizing inner lower with
  | int => exact not_mem_freeVars_int
  | var u =>
      rw [mem_freeVars_var]
      intro same
      subst same
      cases lower with
      | var ref =>
          have refers := NamelessTy.var.inj lifted
          rw [Ref.resolve_append_self outer outside] at refers
          exact Ref.liftFrom_ne_bound inner.length ref refers.symm
      | _ => simp [nameless, NamelessTy.liftFrom] at lifted
  | arrow domain codomain domainInduction codomainInduction =>
      cases lower with
      | arrow domain' codomain' =>
          have parts := NamelessTy.arrow.inj lifted
          rw [mem_freeVars_arrow, not_or]
          exact ⟨domainInduction parts.1 outside, codomainInduction parts.2 outside⟩
      | _ => simp [nameless, NamelessTy.liftFrom] at lifted
  | quant q u body bodyInduction =>
      cases lower with
      | quant q' body' =>
          have bodies := (NamelessTy.quant.inj lifted).2
          rw [mem_freeVars_quant]
          rintro ⟨other, free⟩
          have stillOutside : w ∉ u :: inner := by
            rw [List.mem_cons, not_or]
            exact ⟨Ne.symm other, outside⟩
          have bodyLifted : body.nameless ((u :: inner) ++ w :: outer) =
              body'.liftFrom (u :: inner).length := bodies
          exact bodyInduction bodyLifted stillOutside free
      | _ => simp [nameless, NamelessTy.liftFrom] at lifted

end Ty

end PolyLambda
