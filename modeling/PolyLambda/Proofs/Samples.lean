import Mathlib.Data.List.Forall2
import Mathlib.Data.List.Nodup
import PolyLambda.Proofs.Binders
import PolyLambda.Proofs.Drawing
import PolyLambda.Proofs.Relabelling
import PolyLambda.Proofs.SubstitutionLaws
import PolyLambda.Sample.Catalogue

/-! # The catalogue from every counter

Drawing the catalogue from another counter changes its identities and nothing else:
`catalogue_uniform` says that the catalogue takes 28 identities and that its samples move
with them.  The samples of any counter are therefore those of a new supply, relabelled by
a shift.

Checking does not look at identities except to compare them, so what is found about the
samples of a new supply by running the checker on them (`standardCatalogue_right`) holds
of the samples of every counter. -/

set_option autoImplicit false

namespace PolyLambda

/-- Adds `n` to every identity and keeps every name. -/
def Relabelling.shift (n : UInt64) : Relabelling where
  onVar v := ⟨v.index + n⟩
  onName := id
  onVar_injective := by
    intro v w same
    have sameIndex : v.index + n = w.index + n := congrArg TyVar.index same
    cases v
    cases w
    exact congrArg TyVar.mk (by simpa using sameIndex)
  onName_injective := Function.injective_id

/-! ## Draws whose results move with the identities -/

namespace Draw

variable {α : Type}

/-- The draw takes `size` identities, and its result moves with them when they are shifted. -/
def Uniform (draw : Draw α) (size : Nat) (onResult : Relabelling → α → α) : Prop :=
  ∃ build : (Nat → TyVar) → α, draw.Builds size build ∧
    ∀ (n : UInt64) (vars : Nat → TyVar),
      build (fun i => (Relabelling.shift n).onVar (vars i)) = onResult (.shift n) (build vars)

theorem Uniform.mapM {onResult : Relabelling → α → α} {draws : List (Draw α)} {sizes : List Nat}
    (uniform : List.Forall₂ (fun draw size => draw.Uniform size onResult) draws sizes) :
    Uniform (draws.mapM id) (sizes.foldr (· + ·) 0) (fun σ => List.map (onResult σ)) := by
  induction uniform with
  | nil => exact ⟨fun _ => [], .pure [], fun _ _ => rfl⟩
  | @cons draw size draws sizes first _ restInduction =>
      obtain ⟨build, builds, moves⟩ := first
      obtain ⟨buildRest, buildsRest, restMoves⟩ := restInduction
      refine ⟨fun vars => build vars :: buildRest fun i => vars (size + i), ?_, ?_⟩
      · rw [List.mapM_cons]
        exact builds.bind fun a => buildsRest.bind fun rest => .pure (a :: rest)
      · intro n vars
        exact congrArg₂ List.cons (moves n vars) (restMoves n fun i => vars (size + i))

end Draw

def Expectation.relabel (σ : Relabelling) : Expectation → Expectation
  | .type ty => .type (ty.relabel σ)
  | .error kind => .error kind

def Sample.relabel (σ : Relabelling) (sample : Sample) : Sample :=
  { sample with expr := sample.expr.relabel σ, expected := sample.expected.relabel σ }

namespace Catalogue

theorem polyIdTy_builds :
    polyIdTy.Builds 1 fun vars => .all (vars 0) (.arrow (.var (vars 0)) (.var (vars 0))) :=
  .fresh_bind fun _ => .pure _

theorem polyId_builds :
    polyId.Builds 1 fun vars => .tabs (vars 0) (.abs "x" (.var (vars 0)) (.var "x")) :=
  .fresh_bind fun _ => .pure _

theorem counterInterface_builds (repr : Ty) :
    (counterInterface repr).Builds 1 fun vars =>
      .all (vars 0) (.arrow (counterClientTy repr (.var (vars 0))) (.var (vars 0))) :=
  .fresh_bind fun _ => .pure _

theorem counterPackage_builds :
    counterPackage.Builds 3 fun vars =>
      .pack .int
        (.tabs (vars 0) (.abs "k" (counterClientTy .int (.var (vars 0)))
          (.app (.app (.app (.var "k") (.lit 0)) (.abs "n" .int (.var "n")))
            (.abs "n" .int (.var "n")))))
        (vars 1)
        (.all (vars 2)
          (.arrow (counterClientTy (.var (vars 1)) (.var (vars 2))) (.var (vars 2)))) :=
  .fresh_bind fun _ => .fresh_bind fun a => (counterInterface_builds (.var a)).bind fun _ => .pure _

-- The identities that each entry takes are listed in catalogue order.  The result of an entry
-- moves with them by computation, since relabelling goes down to the variables.
theorem entries_uniform :
    List.Forall₂ (fun entry size => entry.Uniform size Sample.relabel) entries
      [0, 0, 2, 1, 4, 2, 2, 2, 2, 5, 4, 2, 0, 0, 0, 1, 1, 0] := by
  have fixed (sample : Sample) (same : ∀ n, sample.relabel (.shift n) = sample) :
      Draw.Uniform (pure sample) 0 Sample.relabel :=
    ⟨_, .pure sample, fun n _ => (same n).symm⟩
  refine .cons (fixed _ fun _ => rfl) ?_
  refine .cons (fixed _ fun _ => rfl) ?_
  refine .cons ⟨_, polyId_builds.bind fun _ => polyIdTy_builds.bind fun _ => .pure _,
    fun _ _ => rfl⟩ ?_
  refine .cons ⟨_, polyId_builds.bind fun _ => .pure _, fun _ _ => rfl⟩ ?_
  refine .cons ⟨_, .fresh_bind fun _ => .fresh_bind fun _ => .fresh_bind fun _ =>
    .fresh_bind fun _ => .pure _, fun _ _ => rfl⟩ ?_
  refine .cons ⟨_, .fresh_bind fun _ => .fresh_bind fun _ => .pure _, fun _ _ => rfl⟩ ?_
  refine .cons ⟨_, polyIdTy_builds.bind fun _ => polyIdTy_builds.bind fun _ => .pure _,
    fun _ _ => rfl⟩ ?_
  refine .cons ⟨_, .fresh_bind fun _ => .fresh_bind fun _ => .pure _, fun _ _ => rfl⟩ ?_
  refine .cons ⟨_, .fresh_bind fun _ => .fresh_bind fun _ => .pure _, fun _ _ => rfl⟩ ?_
  refine .cons ⟨_, counterPackage_builds.bind fun _ => .fresh_bind fun a =>
    (counterInterface_builds (.var a)).bind fun _ => .pure _, fun _ _ => rfl⟩ ?_
  refine .cons ⟨_, counterPackage_builds.bind fun _ => .fresh_bind fun _ => .pure _,
    fun _ _ => rfl⟩ ?_
  refine .cons ⟨_, .fresh_bind fun _ => .fresh_bind fun _ => .pure _, fun _ _ => rfl⟩ ?_
  refine .cons (fixed _ fun _ => rfl) ?_
  refine .cons (fixed _ fun _ => rfl) ?_
  refine .cons (fixed _ fun _ => rfl) ?_
  refine .cons ⟨_, .fresh_bind fun _ => .pure _, fun _ _ => rfl⟩ ?_
  refine .cons ⟨_, .fresh_bind fun _ => .pure _, fun _ _ => rfl⟩ ?_
  exact .cons (fixed _ fun _ => rfl) .nil

end Catalogue

theorem catalogue_uniform : catalogue.Uniform 28 fun σ => List.map (Sample.relabel σ) :=
  .mapM Catalogue.entries_uniform

/-! ## Relabelled samples -/

section Relabelled

variable (σ : Relabelling)

theorem Ty.binders_relabel (ty : Ty) : (ty.relabel σ).binders = ty.binders.map σ.onVar := by
  induction ty with
  | int => rfl
  | var v => rfl
  | arrow domain codomain domainInduction codomainInduction =>
      simp only [relabel, binders, domainInduction, codomainInduction, List.map_append]
  | quant q v body bodyInduction => simp only [relabel, binders, bodyInduction, List.map_cons]

theorem Expr.binders_relabel (expr : Expr) :
    (expr.relabel σ).binders = expr.binders.map σ.onVar := by
  induction expr with
  | lit value => rfl
  | var name => rfl
  | abs param paramTy body bodyInduction =>
      simp only [relabel, binders, Ty.binders_relabel, bodyInduction, List.map_append]
  | app func arg funcInduction argInduction =>
      simp only [relabel, binders, funcInduction, argInduction, List.map_append]
  | tabs v body bodyInduction => simp only [relabel, binders, bodyInduction, List.map_cons]
  | tapp func arg funcInduction =>
      simp only [relabel, binders, Ty.binders_relabel, funcInduction, List.map_append]
  | pack witness body v bodyTy bodyInduction =>
      simp only [relabel, binders, Ty.binders_relabel, bodyInduction, List.map_append,
        List.map_cons]
  | unpack v name packed cont packedInduction contInduction =>
      simp only [relabel, binders, packedInduction, contInduction, List.map_append, List.map_cons]

theorem typeOf_relabel (expr : Expr) :
    typeOf (expr.relabel σ) = σ.outcome (Ty.relabel σ) (typeOf expr) := by
  have aligned : Env.Relabelled σ .empty .empty := by
    constructor
    · intro name
      simp [Env.empty]
    · intro v
      simp [Env.empty]
  exact congrArg Run.outcome (inferWith_relabel .bare aligned expr)

theorem Sample.agrees_relabel (sample : Sample) (outcome : Except TypeError Ty) :
    (sample.relabel σ).agrees (σ.outcome (Ty.relabel σ) outcome) = sample.agrees outcome := by
  rw [agrees, agrees, relabel]
  cases sample.expected with
  | type expected =>
      cases outcome with
      | ok actual => exact Ty.alphaEq_relabel expected actual
      | error cause => rfl
  | error kind =>
      cases outcome with
      | ok actual => rfl
      | error cause => cases cause <;> rfl

end Relabelled

/-- The catalogue drawn from a new supply has distinct binders in each term, and every sample
comes out as it should. -/
theorem standardCatalogue_right : ∀ sample ∈ standardCatalogue,
    sample.expr.binders.Nodup ∧ sample.agrees (typeOf sample.expr) = true := by
  decide

/-! ## Identities -/

/-- Every identity of a type, at a binder or at a variable. -/
def Ty.identities (ty : Ty) : List TyVar := ty.binders ++ ty.vars

def Expr.identities : Expr → List TyVar
  | .lit _ => []
  | .var _ => []
  | .abs _ paramTy body => paramTy.identities ++ body.identities
  | .app func arg => func.identities ++ arg.identities
  | .tabs v body => v :: body.identities
  | .tapp func arg => func.identities ++ arg.identities
  | .pack witness body v bodyTy =>
      witness.identities ++ (body.identities ++ v :: bodyTy.identities)
  | .unpack v _ packed cont => v :: (packed.identities ++ cont.identities)

def Sample.identities (sample : Sample) : List TyVar :=
  sample.expr.identities ++
    match sample.expected with
    | .type ty => ty.identities
    | .error _ => []

theorem standardCatalogue_identities_lt :
    ∀ sample ∈ standardCatalogue, ∀ v ∈ sample.identities, v.index.toNat < 28 := by
  decide

theorem Supply.ahead_startingAt (n : UInt64) (i : Nat) :
    Supply.ahead ⟨n⟩ i = (Relabelling.shift n).onVar (Supply.new.ahead i) := by
  simp [Supply.ahead, Supply.new, Relabelling.shift, UInt64.add_comm]

theorem Draw.Uniform.run_startingAt {α : Type} {draw : Draw α} {size : Nat}
    {onResult : Relabelling → α → α} (uniform : draw.Uniform size onResult) {a : α}
    (standard : (draw.run .new).outcome = .ok a) (n : UInt64) (within : size ≤ Supply.room ⟨n⟩) :
    draw.run ⟨n⟩ =
      ⟨Supply.advance ⟨n⟩ size, Supply.next ⟨n⟩ size, .ok (onResult (.shift n) a)⟩ := by
  obtain ⟨build, builds, moves⟩ := uniform
  have roomAtStart : size ≤ Supply.new.room := Nat.le_trans within (Nat.sub_le _ _)
  have ahead : Supply.ahead ⟨n⟩ = fun i => (Relabelling.shift n).onVar (Supply.new.ahead i) :=
    funext (Supply.ahead_startingAt n)
  rw [builds.enough Supply.new roomAtStart] at standard
  rw [builds.enough ⟨n⟩ within, ahead, moves, Except.ok.inj standard]

/-- The catalogue fails from the counters that have fewer than 28 identities ahead of them, and
then uses these up.  From any other counter `n` it takes 28 identities and gives the standard
catalogue with `n` added to each identity, where the sum stays a word; in each sample the binders
are distinct and the checker finds what the sample expects. -/
theorem catalogue_right_from_every_counter (n : UInt64) :
    ((∃ cause, (catalogue.run ⟨n⟩).outcome = .error cause) ↔ UInt64.size - 1 < n.toNat + 28) ∧
    (UInt64.size - 1 < n.toNat + 28 → (catalogue.run ⟨n⟩).supply.counter.toNat = UInt64.size - 1) ∧
    (n.toNat + 28 ≤ UInt64.size - 1 →
      (catalogue.run ⟨n⟩).supply.counter.toNat = n.toNat + 28 ∧
      (catalogue.run ⟨n⟩).outcome = .ok (standardCatalogue.map (Sample.relabel (.shift n))) ∧
      (∀ sample ∈ standardCatalogue, ∀ v ∈ sample.identities,
        ((Relabelling.shift n).onVar v).index.toNat = v.index.toNat + n.toNat) ∧
      ∀ sample ∈ standardCatalogue.map (Sample.relabel (.shift n)),
        sample.expr.binders.Nodup ∧ sample.agrees (typeOf sample.expr) = true) := by
  obtain ⟨build, builds, -⟩ := catalogue_uniform
  have lastWord : n.toNat + Supply.room ⟨n⟩ = UInt64.size - 1 := Supply.toNat_counter_add_room ⟨n⟩
  refine ⟨?_, ?_, ?_⟩
  · rw [builds.outcome_eq_error_iff]
    omega
  · intro short
    rw [builds.short ⟨n⟩ (by omega), Supply.toNat_counter_advance (Nat.le_refl _)]
    exact lastWord
  · intro enough
    have within : 28 ≤ Supply.room ⟨n⟩ := by omega
    have ran := catalogue_uniform.run_startingAt outcome_catalogue_new n within
    rw [ran]
    refine ⟨Supply.toNat_counter_advance within, rfl, ?_, ?_⟩
    · intro sample member v occurs
      have below := standardCatalogue_identities_lt sample member v occurs
      have words : UInt64.size = 18446744073709551616 := rfl
      show (v.index + n).toNat = _
      rw [UInt64.toNat_add]
      omega
    · intro sample member
      obtain ⟨standard, listed, rfl⟩ := List.mem_map.mp member
      obtain ⟨distinct, agrees⟩ := standardCatalogue_right standard listed
      constructor
      · show (standard.expr.relabel _).binders.Nodup
        rw [Expr.binders_relabel]
        exact distinct.map (Relabelling.shift n).onVar_injective
      · show (standard.relabel _).agrees (typeOf (standard.expr.relabel _)) = true
        rw [typeOf_relabel, Sample.agrees_relabel, agrees]

end PolyLambda
