import PolyLambda.Proofs.Comparison
import PolyLambda.Proofs.Positions

/-! # Comparison leaf by leaf

A position in a type is a list of numbers that says, from the root down, which part to
go into.  `alphaEqIn_restores_and_compares_leaves` says what a comparison decides in
these terms alone, with no renaming carried along.  The two types must have one form at
every position.  At every pair of leaves, the left one must stand for the right one:
through the innermost quantifier around it that binds it (`BoundFrom`), by way of the
quantifier at the same position on the right, or through the renaming at the start.

A comparison enters a pair of quantifiers by one insertion into its renaming, and
`standsFor_cons` says that the insertion is right for every leaf below them. -/

set_option autoImplicit false

namespace PolyLambda

theorem Renaming.apply_eq_iff {ρ : Renaming} {x y : TyVar} :
    ρ.apply x = y ↔ (∀ z, ρ[x]? = some z → y = z) ∧ (ρ[x]? = none → y = x) := by
  rw [apply]
  cases ρ[x]? <;> simp [eq_comm]

namespace Ty

/-! ## Positions in types -/

def parts : Ty → List Ty
  | .int => []
  | .var _ => []
  | .arrow domain codomain => [domain, codomain]
  | .quant _ _ body => [body]

def at? (ty : Ty) (path : List Nat) : Option Ty := partAt? parts ty path

inductive Form where
  | int
  | var
  | arrow
  | quant (q : Quantifier)
deriving DecidableEq, Repr

def form : Ty → Form
  | .int => .int
  | .var _ => .var
  | .arrow _ _ => .arrow
  | .quant q _ _ => .quant q

def binder? : Ty → Option TyVar
  | .quant _ v _ => some v
  | _ => none

def binderAt? (ty : Ty) (path : List Nat) : Option TyVar := (ty.at? path).bind binder?

/-- The quantifier at `outer` is the innermost one on the way to `path` that binds `x`. -/
structure BoundFrom (ty : Ty) (outer path : List Nat) (x : TyVar) : Prop where
  around : outer <+: path
  binds : ty.binderAt? outer = some x
  innermost : ∀ other, other <+: path → ty.binderAt? other = some x → other <+: outer

variable {ty part : Ty} {k : Nat} {outer path : List Nat} {x y : TyVar}

theorem at?_cons (there : ty.parts[k]? = some part) (path : List Nat) :
    ty.at? (k :: path) = part.at? path :=
  partAt?_cons there path

theorem binderAt?_cons (there : ty.parts[k]? = some part) (path : List Nat) :
    ty.binderAt? (k :: path) = part.binderAt? path := by
  rw [binderAt?, at?_cons there]
  rfl

theorem binderAt?_nil (ty : Ty) : ty.binderAt? [] = ty.binder? := rfl

theorem exists_part_of_binderAt? (binds : ty.binderAt? (k :: path) = some x) :
    ∃ part, ty.parts[k]? = some part ∧ part.binderAt? path = some x := by
  obtain ⟨binding, found, binds⟩ := Option.bind_eq_some_iff.mp binds
  obtain ⟨part, there, found⟩ := partAt?_cons_eq_some_iff.mp found
  exact ⟨part, there, Option.bind_eq_some_iff.mpr ⟨binding, found, binds⟩⟩

namespace BoundFrom

theorem unique {outer' : List Nat} (bound : ty.BoundFrom outer path x)
    (bound' : ty.BoundFrom outer' path x) : outer = outer' := by
  have within := bound'.innermost outer bound.around bound.binds
  have within' := bound.innermost outer' bound'.around bound'.binds
  exact within.eq_of_length (Nat.le_antisymm within.length_le within'.length_le)

theorem cons (there : ty.parts[k]? = some part) (bound : part.BoundFrom outer path x) :
    ty.BoundFrom (k :: outer) (k :: path) x where
  around := List.cons_prefix_cons.mpr ⟨rfl, bound.around⟩
  binds := (binderAt?_cons there outer).trans bound.binds
  innermost other within binds := by
    cases other with
    | nil => exact List.nil_prefix
    | cons k' rest =>
        obtain ⟨rfl, restWithin⟩ := List.cons_prefix_cons.mp within
        rw [binderAt?_cons there] at binds
        exact List.cons_prefix_cons.mpr ⟨rfl, bound.innermost rest restWithin binds⟩

/-- A quantifier at the root binds what no quantifier on the way to the position binds again. -/
theorem root (binds : ty.binder? = some x)
    (unbound : ∀ rest, rest <+: path → ty.binderAt? (k :: rest) ≠ some x) :
    ty.BoundFrom [] (k :: path) x where
  around := List.nil_prefix
  binds := binds
  innermost other within bound := by
    cases other with
    | nil => exact List.nil_prefix
    | cons k' rest =>
        obtain ⟨rfl, restWithin⟩ := List.cons_prefix_cons.mp within
        exact absurd bound (unbound rest restWithin)

theorem exists_of_binderAt? (around : outer <+: path) (binds : ty.binderAt? outer = some x) :
    ∃ inner, ty.BoundFrom inner path x := by
  induction path generalizing ty outer with
  | nil =>
      obtain rfl := List.prefix_nil.mp around
      exact ⟨[], around, binds, fun _ within _ => within⟩
  | cons k path pathInduction =>
      by_cases further : ∃ rest, rest <+: path ∧ ty.binderAt? (k :: rest) = some x
      · obtain ⟨rest, within, bound⟩ := further
        obtain ⟨part, there, bound⟩ := exists_part_of_binderAt? bound
        obtain ⟨inner, innermost⟩ := pathInduction within bound
        exact ⟨k :: inner, innermost.cons there⟩
      · have unbound : ∀ rest, rest <+: path → ty.binderAt? (k :: rest) ≠ some x :=
          fun rest within bound => further ⟨rest, within, bound⟩
        cases outer with
        | nil => exact ⟨[], .root binds unbound⟩
        | cons k' rest =>
            obtain ⟨rfl, within⟩ := List.cons_prefix_cons.mp around
            exact absurd binds (unbound rest within)

end BoundFrom

theorem not_boundFrom_var {v : TyVar} (outer : List Nat) : ¬ (Ty.var v).BoundFrom outer [] x := by
  intro bound
  have binds := bound.binds
  rw [List.prefix_nil.mp bound.around] at binds
  cases binds

/-! ## What a leaf stands for -/

/-- The leaf `x` of the left type, at `path`, stands for `y`: for the quantifier on the right
that faces its own, or without one of its own for its entry in the renaming, or without an entry
for itself. -/
def StandsFor (ρ : Renaming) (left right : Ty) (path : List Nat) (x y : TyVar) : Prop :=
  (∀ outer, left.BoundFrom outer path x → right.binderAt? outer = some y) ∧
  ((∀ outer, ¬ left.BoundFrom outer path x) →
    (∀ z, ρ[x]? = some z → y = z) ∧ (ρ[x]? = none → y = x))

variable {ρ : Renaming} {left right : Ty}

theorem standsFor_of_bound (bound : left.BoundFrom outer path x) :
    StandsFor ρ left right path x y ↔ right.binderAt? outer = some y := by
  constructor
  · intro stands
    exact stands.1 outer bound
  · intro faces
    refine ⟨fun outer' bound' => ?_, fun unbound => absurd bound (unbound outer)⟩
    rw [← bound.unique bound']
    exact faces

theorem standsFor_of_unbound (unbound : ∀ outer, ¬ left.BoundFrom outer path x) :
    StandsFor ρ left right path x y ↔ ρ.apply x = y := by
  rw [Renaming.apply_eq_iff]
  constructor
  · intro stands
    exact stands.2 unbound
  · intro entry
    exact ⟨fun outer bound => absurd bound (unbound outer), fun _ => entry⟩

/-- The renaming `ρ'` that holds below the roots gives what the left root binds the binder of
the right root, and anything else what `ρ` gives it. -/
theorem standsFor_cons {ρ' : Renaming} {leftPart rightPart : Ty}
    (leftThere : left.parts[k]? = some leftPart) (rightThere : right.parts[k]? = some rightPart)
    (faced : ∀ v, left.binder? = some v → right.binder? = some (ρ'.apply v))
    (kept : ∀ v, left.binder? ≠ some v → ρ'.apply v = ρ.apply v) :
    StandsFor ρ left right (k :: path) x y ↔ StandsFor ρ' leftPart rightPart path x y := by
  by_cases inside : ∃ outer, leftPart.BoundFrom outer path x
  · obtain ⟨outer, bound⟩ := inside
    rw [standsFor_of_bound (bound.cons leftThere), standsFor_of_bound bound,
      binderAt?_cons rightThere]
  · have unbound : ∀ outer, ¬ leftPart.BoundFrom outer path x := not_exists.mp inside
    have unboundBelow : ∀ rest, rest <+: path → left.binderAt? (k :: rest) ≠ some x := by
      intro rest within binds
      rw [binderAt?_cons leftThere] at binds
      exact inside (BoundFrom.exists_of_binderAt? within binds)
    rw [standsFor_of_unbound unbound]
    by_cases here : left.binder? = some x
    · rw [standsFor_of_bound (.root here unboundBelow), binderAt?_nil, faced x here,
        Option.some.injEq]
    · have unboundHere : ∀ outer, ¬ left.BoundFrom outer (k :: path) x := by
        intro outer bound
        cases outer with
        | nil => exact here bound.binds
        | cons k' rest =>
            obtain ⟨rfl, within⟩ := List.cons_prefix_cons.mp bound.around
            exact unboundBelow rest within bound.binds
      rw [standsFor_of_unbound unboundHere, kept x here]

/-! ## Two types position by position -/

/-- The two types have one form at every position, and every leaf on the left stands for the
leaf that faces it. -/
structure Corresponds (ρ : Renaming) (left right : Ty) : Prop where
  forms : ∀ path, (left.at? path).map form = (right.at? path).map form
  leaves : ∀ path x y, left.at? path = some (.var x) → right.at? path = some (.var y) →
    StandsFor ρ left right path x y

theorem parts_eq_none_of_form_eq (same : left.form = right.form) (absent : left.parts[k]? = none) :
    right.parts[k]? = none := by
  have sameLength : left.parts.length = right.parts.length := by
    cases left <;> cases right <;> first | rfl | cases same
  rw [List.getElem?_eq_none_iff] at absent ⊢
  omega

namespace Corresponds

theorem form_eq (corresponds : Corresponds ρ left right) : left.form = right.form :=
  Option.some.inj (corresponds.forms [])

section Parts

variable (ρ' : Renaming)
  (faced : ∀ v, left.binder? = some v → right.binder? = some (ρ'.apply v))
  (kept : ∀ v, left.binder? ≠ some v → ρ'.apply v = ρ.apply v)
include faced kept

theorem of_part {leftPart rightPart : Ty} (corresponds : Corresponds ρ left right)
    (leftThere : left.parts[k]? = some leftPart) (rightThere : right.parts[k]? = some rightPart) :
    Corresponds ρ' leftPart rightPart where
  forms path := by
    rw [← at?_cons leftThere, ← at?_cons rightThere]
    exact corresponds.forms (k :: path)
  leaves path x y leftLeaf rightLeaf := by
    rw [← at?_cons leftThere] at leftLeaf
    rw [← at?_cons rightThere] at rightLeaf
    have stands := corresponds.leaves (k :: path) x y leftLeaf rightLeaf
    exact (standsFor_cons leftThere rightThere faced kept).mp stands

theorem of_parts (same : left.form = right.form)
    (root : ∀ x y, left = .var x → right = .var y → ρ.apply x = y)
    (parts : ∀ (k : Nat) (leftPart rightPart : Ty), left.parts[k]? = some leftPart →
      right.parts[k]? = some rightPart → Corresponds ρ' leftPart rightPart) :
    Corresponds ρ left right where
  forms path := by
    cases path with
    | nil => exact congrArg some same
    | cons k path =>
        cases leftThere : left.parts[k]? with
        | none =>
            have rightBeyond := parts_eq_none_of_form_eq same leftThere
            rw [at?, at?, partAt?_beyond leftThere, partAt?_beyond rightBeyond]
        | some leftPart =>
            cases rightThere : right.parts[k]? with
            | none =>
                rw [parts_eq_none_of_form_eq same.symm rightThere] at leftThere
                cases leftThere
            | some rightPart =>
                rw [at?_cons leftThere, at?_cons rightThere]
                exact (parts k leftPart rightPart leftThere rightThere).forms path
  leaves path x y leftLeaf rightLeaf := by
    cases path with
    | nil =>
        obtain rfl : left = .var x := Option.some.inj leftLeaf
        have partner := root x y rfl (Option.some.inj rightLeaf)
        exact (standsFor_of_unbound not_boundFrom_var).mpr partner
    | cons k path =>
        obtain ⟨leftPart, leftThere, leftLeaf⟩ := partAt?_cons_eq_some_iff.mp leftLeaf
        obtain ⟨rightPart, rightThere, rightLeaf⟩ := partAt?_cons_eq_some_iff.mp rightLeaf
        have below := (parts k leftPart rightPart leftThere rightThere).leaves
        exact (standsFor_cons leftThere rightThere faced kept).mpr
          (below path x y leftLeaf rightLeaf)

end Parts

end Corresponds

theorem corresponds_int : Corresponds ρ .int .int := by
  refine .of_parts ρ (fun _ bound => nomatch bound) (fun _ _ => rfl) rfl ?_ ?_
  · intro x y leaf
    cases leaf
  · intro k leftPart rightPart leftThere
    cases leftThere

theorem corresponds_var_iff {v w : TyVar} : Corresponds ρ (.var v) (.var w) ↔ ρ.apply v = w := by
  constructor
  · intro corresponds
    exact (standsFor_of_unbound not_boundFrom_var).mp (corresponds.leaves [] v w rfl rfl)
  · intro partner
    refine .of_parts ρ (fun _ bound => nomatch bound) (fun _ _ => rfl) rfl ?_ ?_
    · rintro x y ⟨⟩ ⟨⟩
      exact partner
    · intro k leftPart rightPart leftThere
      cases leftThere

theorem corresponds_arrow_iff {domain codomain domain' codomain' : Ty} :
    Corresponds ρ (.arrow domain codomain) (.arrow domain' codomain') ↔
      Corresponds ρ domain domain' ∧ Corresponds ρ codomain codomain' := by
  have faced : ∀ v, (Ty.arrow domain codomain).binder? = some v →
      (Ty.arrow domain' codomain').binder? = some (ρ.apply v) := fun _ bound => nomatch bound
  constructor
  · intro corresponds
    exact ⟨corresponds.of_part (k := 0) ρ faced (fun _ _ => rfl) rfl rfl,
      corresponds.of_part (k := 1) ρ faced (fun _ _ => rfl) rfl rfl⟩
  · rintro ⟨domains, codomains⟩
    refine .of_parts ρ faced (fun _ _ => rfl) rfl (fun x y leaf => nomatch leaf) ?_
    intro k leftPart rightPart leftThere rightThere
    match k with
    | 0 =>
        cases leftThere
        cases rightThere
        exact domains
    | 1 =>
        cases leftThere
        cases rightThere
        exact codomains
    | _ + 2 => cases leftThere

theorem corresponds_quant_iff {q q' : Quantifier} {v w : TyVar} {body body' : Ty} :
    Corresponds ρ (.quant q v body) (.quant q' w body') ↔
      q = q' ∧ Corresponds (ρ.insert v w) body body' := by
  have faced : ∀ u, (Ty.quant q v body).binder? = some u →
      (Ty.quant q' w body').binder? = some (Renaming.apply (ρ.insert v w) u) := by
    rintro u ⟨⟩
    rw [Renaming.apply_insert_self]
    rfl
  have kept : ∀ u, (Ty.quant q v body).binder? ≠ some u →
      Renaming.apply (ρ.insert v w) u = ρ.apply u := by
    intro u other
    exact Renaming.apply_insert_of_ne ρ w fun same => other (congrArg some same)
  constructor
  · intro corresponds
    have bodies := corresponds.of_part (k := 0) (ρ.insert v w) faced kept rfl rfl
    exact ⟨Form.quant.inj corresponds.form_eq, bodies⟩
  · rintro ⟨rfl, bodies⟩
    refine .of_parts (ρ.insert v w) faced kept rfl (fun x y leaf => nomatch leaf) ?_
    intro k leftPart rightPart leftThere rightThere
    match k with
    | 0 =>
        cases leftThere
        cases rightThere
        exact bodies
    | _ + 1 => cases leftThere

theorem alphaEqIn_iff_corresponds (ρ : Renaming) (left right : Ty) :
    (alphaEqIn ρ left right).1 = true ↔ Corresponds ρ left right := by
  -- Types of different forms are told apart at the root.
  induction left generalizing ρ right with
  | int =>
      cases right with
      | int => exact iff_of_true rfl corresponds_int
      | _ => exact iff_of_false Bool.false_ne_true fun corresponds => nomatch corresponds.form_eq
  | var v =>
      cases right with
      | var w => rw [alphaEqIn_var_iff, corresponds_var_iff]
      | _ => exact iff_of_false Bool.false_ne_true fun corresponds => nomatch corresponds.form_eq
  | arrow domain codomain domainInduction codomainInduction =>
      cases right with
      | arrow domain' codomain' =>
          rw [alphaEqIn_arrow_iff, corresponds_arrow_iff, domainInduction, codomainInduction]
      | _ => exact iff_of_false Bool.false_ne_true fun corresponds => nomatch corresponds.form_eq
  | quant q v body bodyInduction =>
      cases right with
      | quant q' w body' => rw [alphaEqIn_quant_iff, corresponds_quant_iff, bodyInduction]
      | _ => exact iff_of_false Bool.false_ne_true fun corresponds => nomatch corresponds.form_eq

/-- A comparison ends with the renaming it started from, whatever its verdict and wherever it
stopped.  The verdict depends on the renaming at the start and on the positions of the two types
alone: they have one form everywhere, and each leaf on the left faces the leaf it stands for. -/
theorem alphaEqIn_restores_and_compares_leaves (ρ : Renaming) (left right : Ty) :
    (alphaEqIn ρ left right).2 = ρ ∧
    ((alphaEqIn ρ left right).1 = true ↔
      (∀ path, (left.at? path).map form = (right.at? path).map form) ∧
      ∀ path x y, left.at? path = some (.var x) → right.at? path = some (.var y) →
        (∀ outer, left.BoundFrom outer path x → right.binderAt? outer = some y) ∧
        ((∀ outer, ¬ left.BoundFrom outer path x) →
          (∀ z, ρ[x]? = some z → y = z) ∧ (ρ[x]? = none → y = x))) := by
  refine ⟨alphaEqIn_snd ρ left right, ?_⟩
  rw [alphaEqIn_iff_corresponds]
  constructor
  · intro corresponds
    exact ⟨corresponds.forms, corresponds.leaves⟩
  · rintro ⟨forms, leaves⟩
    exact ⟨forms, leaves⟩

-- The entry of a quantifier does not outlive it: `(∀t0. t0) -> t0` passes for `(∀t1. t1) -> t1`
-- only where `t0` stands for `t1` from the start.
example :
    (alphaEqIn ∅ (.arrow (.all ⟨0⟩ (.var ⟨0⟩)) (.var ⟨0⟩))
      (.arrow (.all ⟨1⟩ (.var ⟨1⟩)) (.var ⟨1⟩))).1 = false ∧
    (alphaEqIn ((∅ : Renaming).insert ⟨0⟩ ⟨1⟩) (.arrow (.all ⟨0⟩ (.var ⟨0⟩)) (.var ⟨0⟩))
      (.arrow (.all ⟨1⟩ (.var ⟨1⟩)) (.var ⟨1⟩))).1 = true := by decide

end Ty

end PolyLambda
