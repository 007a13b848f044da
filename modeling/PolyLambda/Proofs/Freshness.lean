import Mathlib.Data.List.Nodup
import PolyLambda.Proofs.Binders
import PolyLambda.Proofs.Regularity
import PolyLambda.Proofs.Substitution
import PolyLambda.Proofs.Visits

/-! # Fresh binders

`FreshIn env expr` asks that the binders of a term are pairwise distinct and new
to the environment.  Instantiation copies types, so the types found do not keep
this: a `Tidy` type may bind an identity in two places, but never twice on one
path, and never one that is in scope where the type was found.

`FreshIn` is handed down to every check visited (`FreshIn.visits`) and makes the
types found there tidy (`Infers.tidy`).  Both together keep every substitution
from capturing and every comparison sound. -/

set_option autoImplicit false

namespace PolyLambda

/-- `v` is a binder inside a type that the environment binds. -/
def Env.Binds (env : Env) (v : TyVar) : Prop :=
  ∃ (name : String) (ty : Ty), env.lookup name = .ok ty ∧ v ∈ ty.binders

structure FreshIn (env : Env) (expr : Expr) : Prop where
  regular : env.Regular
  distinct : expr.binders.Nodup
  notInScope : ∀ v ∈ expr.binders, v ∉ env.types
  notBound : ∀ v ∈ expr.binders, ¬ env.Binds v
  unshadowed : ∀ (name : String) (ty : Ty), env.lookup name = .ok ty → ty.Unshadowed
  apart : ∀ v, env.Binds v → v ∉ env.types

structure Tidy (env : Env) (expr : Expr) (ty : Ty) : Prop where
  unshadowed : ty.Unshadowed
  origin : ∀ v ∈ ty.binders, env.Binds v ∨ v ∈ expr.binders
  notInScope : ∀ v ∈ ty.binders, v ∉ env.types

theorem Env.not_binds_empty (v : TyVar) : ¬ Env.empty.Binds v := by
  rintro ⟨name, ty, found, -⟩
  exact lookup_empty_ne_ok name ty found

theorem Env.Binds.of_insertTerm {env : Env} {name : String} {ty : Ty} {v : TyVar}
    (binds : (env.insertTerm name ty).Binds v) : v ∈ ty.binders ∨ env.Binds v := by
  obtain ⟨other, ty', found, member⟩ := binds
  rw [lookup_insertTerm] at found
  split at found
  · obtain rfl : ty = ty' := Except.ok.inj found
    exact .inl member
  · exact .inr ⟨other, ty', found, member⟩

namespace FreshIn

variable {env : Env} {expr : Expr}

theorem sublist {expr' : Expr} (fresh : FreshIn env expr)
    (part : expr'.binders.Sublist expr.binders) : FreshIn env expr' where
  regular := fresh.regular
  distinct := fresh.distinct.sublist part
  notInScope v member := fresh.notInScope v (part.subset member)
  notBound v member := fresh.notBound v (part.subset member)
  unshadowed := fresh.unshadowed
  apart := fresh.apart

theorem insertType {v : TyVar} (fresh : FreshIn env expr) (other : v ∉ expr.binders)
    (unbound : ¬ env.Binds v) : FreshIn (env.insertType v) expr where
  regular := fresh.regular.insertType v
  distinct := fresh.distinct
  notInScope w member inScope := by
    rcases Env.mem_types_insertType.mp inScope with same | inScope
    · exact other (same ▸ member)
    · exact fresh.notInScope w member inScope
  notBound := fresh.notBound
  unshadowed := fresh.unshadowed
  apart w binds inScope := by
    rcases Env.mem_types_insertType.mp inScope with same | inScope
    · exact unbound (same ▸ binds)
    · exact fresh.apart w binds inScope

theorem insertTerm {ty : Ty} (fresh : FreshIn env expr) (inScope : env.wellFormed ty = .ok ())
    (unshadowed : ty.Unshadowed) (other : ∀ v ∈ ty.binders, v ∉ expr.binders)
    (notInScope : ∀ v ∈ ty.binders, v ∉ env.types) (name : String) :
    FreshIn (env.insertTerm name ty) expr where
  regular := fresh.regular.insertTerm inScope name
  distinct := fresh.distinct
  notInScope := fresh.notInScope
  notBound v member binds := by
    rcases binds.of_insertTerm with inside | binds
    · exact other v inside member
    · exact fresh.notBound v member binds
  unshadowed name' ty' found := by
    rw [Env.lookup_insertTerm] at found
    split at found
    · obtain rfl : ty = ty' := Except.ok.inj found
      exact unshadowed
    · exact fresh.unshadowed name' ty' found
  apart v binds := by
    rcases binds.of_insertTerm with inside | binds
    · exact notInScope v inside
    · exact fresh.apart v binds

theorem empty (distinct : expr.binders.Nodup) : FreshIn .empty expr where
  regular := Env.Regular.empty
  distinct := distinct
  notInScope _ _ := Std.ExtTreeSet.not_mem_empty
  notBound v _ := Env.not_binds_empty v
  unshadowed name ty found := absurd found (Env.lookup_empty_ne_ok name ty)
  apart _ _ := Std.ExtTreeSet.not_mem_empty

/-! ## Premises -/

theorem body {param : String} {paramTy : Ty} {body : Expr}
    (fresh : FreshIn env (.abs param paramTy body)) (inScope : env.wellFormed paramTy = .ok ()) :
    FreshIn (env.insertTerm param paramTy) body := by
  have distinct := List.nodup_append'.mp fresh.distinct
  have inside : FreshIn env body := fresh.sublist (List.sublist_append_right _ _)
  refine inside.insertTerm inScope (Ty.unshadowed_of_nodup distinct.1) ?_ ?_ param
  · intro v member
    exact distinct.2.2 member
  · intro v member
    exact fresh.notInScope v (List.mem_append_left _ member)

theorem func {func arg : Expr} (fresh : FreshIn env (.app func arg)) : FreshIn env func :=
  fresh.sublist (List.sublist_append_left _ _)

theorem arg {func arg : Expr} (fresh : FreshIn env (.app func arg)) : FreshIn env arg :=
  fresh.sublist (List.sublist_append_right _ _)

theorem abstracted {v : TyVar} {body : Expr} (fresh : FreshIn env (.tabs v body)) :
    FreshIn (env.insertType v) body := by
  have distinct := List.nodup_cons.mp fresh.distinct
  have inside : FreshIn env body := fresh.sublist (List.sublist_cons_self _ _)
  exact inside.insertType distinct.1 (fresh.notBound v List.mem_cons_self)

theorem instantiated {func : Expr} {arg : Ty} (fresh : FreshIn env (.tapp func arg)) :
    FreshIn env func :=
  fresh.sublist (List.sublist_append_left _ _)

theorem sealed {witness bodyTy : Ty} {body : Expr} {v : TyVar}
    (fresh : FreshIn env (.pack witness body v bodyTy)) : FreshIn env body :=
  fresh.sublist ((List.sublist_append_left _ _).trans (List.sublist_append_right _ _))

theorem packed {v : TyVar} {name : String} {packed cont : Expr}
    (fresh : FreshIn env (.unpack v name packed cont)) : FreshIn env packed :=
  fresh.sublist ((List.sublist_append_left _ _).trans (List.sublist_cons_self _ _))

/-- The variable that an opening introduces is no binder of the package's type. -/
theorem opener_not_mem_binders {v : TyVar} {name : String} {packed cont : Expr} {ty : Ty}
    (fresh : FreshIn env (.unpack v name packed cont)) (tidy : Tidy env packed ty) :
    v ∉ ty.binders := by
  have distinct := List.nodup_cons.mp fresh.distinct
  intro member
  rcases tidy.origin v member with binds | inPacked
  · exact fresh.notBound v List.mem_cons_self binds
  · exact distinct.1 (List.mem_append_left _ inPacked)

theorem cont {v bound : TyVar} {name : String} {packed cont : Expr} {body : Ty}
    (fresh : FreshIn env (.unpack v name packed cont)) (tidy : Tidy env packed (.ex bound body))
    (inScope : ∀ w ∈ (Ty.ex bound body).freeVars, w ∈ env.types) :
    FreshIn ((env.insertType v).insertTerm name (body.subst bound (.var v))) cont := by
  have distinct := List.nodup_cons.mp fresh.distinct
  have parts := List.nodup_append'.mp distinct.2
  have opener : v ∉ (Ty.ex bound body).binders := fresh.opener_not_mem_binders tidy
  have fromBody : ∀ w ∈ (body.subst bound (.var v)).binders, w ∈ (Ty.ex bound body).binders := by
    intro w member
    have inBody := (Ty.mem_binders_of_subst member).resolve_right List.not_mem_nil
    exact List.mem_cons_of_mem bound inBody
  have inside : FreshIn env cont :=
    fresh.sublist ((List.sublist_append_right _ _).trans (List.sublist_cons_self _ _))
  have scopeFresh : FreshIn (env.insertType v) cont := by
    refine inside.insertType ?_ (fresh.notBound v List.mem_cons_self)
    intro member
    exact distinct.1 (List.mem_append_right _ member)
  refine scopeFresh.insertTerm (opened_wellFormed inScope v) ?_ ?_ ?_ name
  · exact Ty.unshadowed_subst tidy.unshadowed.2 trivial fun _ _ => List.not_mem_nil
  · intro w member inCont
    rcases tidy.origin w (fromBody w member) with binds | inPacked
    · exact inside.notBound w inCont binds
    · exact parts.2.2 inPacked inCont
  · intro w member known
    rcases Env.mem_types_insertType.mp known with same | known
    · exact opener (same ▸ fromBody w member)
    · exact tidy.notInScope w (fromBody w member) known

theorem arg_apart {func : Expr} {arg ty : Ty} (fresh : FreshIn env (.tapp func arg))
    (tidy : Tidy env func ty) : ∀ w ∈ ty.binders, w ∉ arg.binders := by
  have distinct := List.nodup_append'.mp fresh.distinct
  intro w member inArg
  rcases tidy.origin w member with binds | inFunc
  · exact fresh.notBound w (List.mem_append_right _ inArg) binds
  · exact distinct.2.2 inFunc inArg

end FreshIn

/-! ## Where binders come from -/

theorem origin_of_body {env : Env} {param : String} {paramTy : Ty} {body : Expr} {v : TyVar}
    (origin : (env.insertTerm param paramTy).Binds v ∨ v ∈ body.binders) :
    env.Binds v ∨ v ∈ (Expr.abs param paramTy body).binders := by
  rcases origin with binds | inBody
  · exact binds.of_insertTerm.symm.imp_right (List.mem_append_left _)
  · exact .inr (List.mem_append_right _ inBody)

theorem origin_of_cont {env : Env} {v bound w : TyVar} {name : String} {packed cont : Expr}
    {body : Ty} (tidy : Tidy env packed (.ex bound body))
    (origin : ((env.insertType v).insertTerm name (body.subst bound (.var v))).Binds w ∨
      w ∈ cont.binders) :
    env.Binds w ∨ w ∈ (Expr.unpack v name packed cont).binders := by
  rcases origin with binds | inCont
  · rcases binds.of_insertTerm with opened | binds
    · have inBody := (Ty.mem_binders_of_subst opened).resolve_right List.not_mem_nil
      refine (tidy.origin w (List.mem_cons_of_mem bound inBody)).imp_right fun inPacked => ?_
      exact List.mem_cons_of_mem v (List.mem_append_left _ inPacked)
    · exact .inl binds
  · exact .inr (List.mem_cons_of_mem v (List.mem_append_right _ inCont))

/-! ## The types found -/

theorem Infers.tidy {env : Env} {expr : Expr} {ty : Ty} (inferred : Infers env expr ty)
    (fresh : FreshIn env expr) : Tidy env expr ty := by
  induction inferred with
  | lit => exact ⟨trivial, fun _ member => absurd member List.not_mem_nil,
      fun _ member => absurd member List.not_mem_nil⟩
  | @var env name ty found =>
      have binds : ∀ v ∈ ty.binders, env.Binds v := fun v member => ⟨name, ty, found, member⟩
      exact ⟨fresh.unshadowed name ty found, fun v member => .inl (binds v member),
        fun v member => fresh.apart v (binds v member)⟩
  | @abs env param paramTy bodyTy body inScope _ bodyInduction =>
      have distinct := List.nodup_append'.mp fresh.distinct
      have inside := bodyInduction (fresh.body inScope)
      refine ⟨⟨Ty.unshadowed_of_nodup distinct.1, inside.unshadowed⟩, ?_, ?_⟩
      · intro v member
        rcases List.mem_append.mp member with inParam | inBody
        · exact .inr (List.mem_append_left _ inParam)
        · exact origin_of_body (inside.origin v inBody)
      · intro v member
        rcases List.mem_append.mp member with inParam | inBody
        · exact fresh.notInScope v (List.mem_append_left _ inParam)
        · exact inside.notInScope v inBody
  | app _ _ _ funcInduction _ =>
      have inside := funcInduction fresh.func
      refine ⟨inside.unshadowed.2, ?_, ?_⟩
      · intro v member
        exact (inside.origin v (List.mem_append_right _ member)).imp_right (List.mem_append_left _)
      · intro v member
        exact inside.notInScope v (List.mem_append_right _ member)
  | @tabs env v body bodyTy _ bodyInduction =>
      have inside := bodyInduction fresh.abstracted
      refine ⟨⟨?_, inside.unshadowed⟩, ?_, ?_⟩
      · intro rebound
        exact inside.notInScope v rebound (Env.mem_types_insertType.mpr (.inl rfl))
      · intro w member
        rcases List.mem_cons.mp member with same | inBody
        · exact .inr (List.mem_cons.mpr (.inl same))
        · exact (inside.origin w inBody).imp_right (List.mem_cons_of_mem v)
      · intro w member
        rcases List.mem_cons.mp member with same | inBody
        · exact fresh.notInScope w (List.mem_cons.mpr (.inl same))
        · intro known
          exact inside.notInScope w inBody (Env.mem_types_insertType.mpr (.inr known))
  | @tapp env func arg body v _ inScope funcInduction =>
      have distinct := List.nodup_append'.mp fresh.distinct
      have inside := funcInduction fresh.instantiated
      have apart := fresh.arg_apart inside
      have fromParts : ∀ w ∈ (body.subst v arg).binders,
          w ∈ (Ty.all v body).binders ∨ w ∈ arg.binders := by
        intro w member
        exact (Ty.mem_binders_of_subst member).imp_left (List.mem_cons_of_mem v)
      refine ⟨?_, ?_, ?_⟩
      · refine Ty.unshadowed_subst inside.unshadowed.2 (Ty.unshadowed_of_nodup distinct.2.1) ?_
        intro w member
        exact apart w (List.mem_cons_of_mem v member)
      · intro w member
        rcases fromParts w member with inFunc | inArg
        · exact (inside.origin w inFunc).imp_right (List.mem_append_left _)
        · exact .inr (List.mem_append_right _ inArg)
      · intro w member
        rcases fromParts w member with inFunc | inArg
        · exact inside.notInScope w inFunc
        · exact fresh.notInScope w (List.mem_append_right _ inArg)
  | @pack env witness bodyTy actual body v _ _ _ _ _ =>
      have part := Expr.sublist_binders_pack witness body v bodyTy
      refine ⟨Ty.unshadowed_of_nodup (fresh.distinct.sublist part), ?_, ?_⟩
      · intro w member
        exact .inr (part.subset member)
      · intro w member
        exact fresh.notInScope w (part.subset member)
  | @unpack env v bound name packed cont body ty inferredPacked _ _ packedInduction contInduction =>
      have packedTidy := packedInduction fresh.packed
      have inScope := inferredPacked.mem_types fresh.regular
      have inside := contInduction (fresh.cont packedTidy inScope)
      refine ⟨inside.unshadowed, ?_, ?_⟩
      · intro w member
        exact origin_of_cont packedTidy (inside.origin w member)
      · intro w member known
        exact inside.notInScope w member (Env.mem_types_insertType.mpr (.inr known))

theorem FreshIn.opened {env : Env} {v bound : TyVar} {name : String} {packed cont : Expr}
    {body : Ty} (fresh : FreshIn env (.unpack v name packed cont))
    (inferred : Infers env packed (.ex bound body)) :
    FreshIn ((env.insertType v).insertTerm name (body.subst bound (.var v))) cont :=
  fresh.cont (inferred.tidy fresh.packed) (inferred.mem_types fresh.regular)

/-! ## Every check below -/

theorem FreshIn.premise {env env' : Env} {expr expr' : Expr} (fresh : FreshIn env expr)
    (premise : Premise env expr env' expr') :
    FreshIn env' expr' ∧ ∀ v, env'.Binds v ∨ v ∈ expr'.binders →
      env.Binds v ∨ v ∈ expr.binders := by
  cases premise with
  | body inScope => exact ⟨fresh.body inScope, fun v origin => origin_of_body origin⟩
  | func => exact ⟨fresh.func, fun v origin => origin.imp_right (List.mem_append_left _)⟩
  | arg _ => exact ⟨fresh.arg, fun v origin => origin.imp_right (List.mem_append_right _)⟩
  | abstracted =>
      exact ⟨fresh.abstracted, fun v origin => origin.imp_right (List.mem_cons_of_mem _)⟩
  | instantiated =>
      exact ⟨fresh.instantiated, fun v origin => origin.imp_right (List.mem_append_left _)⟩
  | sealed _ _ =>
      refine ⟨fresh.sealed, fun v origin => origin.imp_right fun inBody => ?_⟩
      exact List.mem_append_right _ (List.mem_append_left _ inBody)
  | packed =>
      refine ⟨fresh.packed, fun v origin => origin.imp_right fun inPacked => ?_⟩
      exact List.mem_cons_of_mem _ (List.mem_append_left _ inPacked)
  | cont inferred =>
      have tidy := inferred.tidy fresh.packed
      exact ⟨fresh.opened inferred, fun v origin => origin_of_cont tidy origin⟩

theorem FreshIn.visits {env env' : Env} {expr expr' : Expr} (fresh : FreshIn env expr)
    (visited : Visits env expr env' expr') :
    FreshIn env' expr' ∧ ∀ v, env'.Binds v ∨ v ∈ expr'.binders →
      env.Binds v ∨ v ∈ expr.binders := by
  induction visited with
  | refl env expr => exact ⟨fresh, fun _ origin => origin⟩
  | step premise _ restInduction =>
      obtain ⟨next, nextOrigin⟩ := fresh.premise premise
      obtain ⟨last, lastOrigin⟩ := restInduction next
      exact ⟨last, fun v origin => nextOrigin v (lastOrigin v origin)⟩

/-! ## Calls -/

/-- What the binders of its arguments must satisfy for a call to do what it should. -/
def Event.Uncaptured : Event → Prop
  | .subst v replacement ty => ty.CaptureFree v replacement
  | .alphaEq left right => right.Unshadowed ∧ ∀ w ∈ right.binders, w ∉ left.freeVars
  | _ => True

theorem OwnCall.uncaptured {env : Env} {expr : Expr} {event : Event} (call : OwnCall env expr event)
    (fresh : FreshIn env expr) : event.Uncaptured := by
  cases call with
  | compareArg inferredFunc inferredArg =>
      have tidy := inferredArg.tidy fresh.arg
      have inScope := inferredFunc.mem_types fresh.regular
      refine ⟨tidy.unshadowed, fun w member free => ?_⟩
      exact tidy.notInScope w member (inScope w (Ty.mem_freeVars_arrow.mpr (.inl free)))
  | @instantiate func arg body v inferred inScope =>
      have tidy := inferred.tidy fresh.instantiated
      have argInScope := (Env.wellFormed_eq_ok_iff env arg).mp inScope
      intro w member
      refine ⟨fun same => tidy.unshadowed.1 (same ▸ member), fun free => ?_⟩
      exact tidy.notInScope w (List.mem_cons_of_mem v member) (argInScope w free)
  | @expect witness bodyTy actual body v witnessInScope inScope inferred =>
      have part := Expr.sublist_binders_pack witness body v bodyTy
      have distinct := List.nodup_cons.mp (fresh.distinct.sublist part)
      have argInScope := (Env.wellFormed_eq_ok_iff env witness).mp witnessInScope
      intro w member
      refine ⟨fun same => distinct.1 (same ▸ member), fun free => ?_⟩
      exact fresh.notInScope w (part.subset (List.mem_cons_of_mem v member)) (argInScope w free)
  | @comparePacked witness bodyTy actual body v witnessInScope inScope inferred =>
      have tidy := inferred.tidy fresh.sealed
      have argInScope := (Env.wellFormed_eq_ok_iff env witness).mp witnessInScope
      have packedInScope := mem_types_of_packed inScope
      refine ⟨tidy.unshadowed, fun w member free => ?_⟩
      exact tidy.notInScope w member (mem_types_of_subst packedInScope argInScope w free)
  | @openPacked v bound name packed cont body inferred =>
      have tidy := inferred.tidy fresh.packed
      have opener := fresh.opener_not_mem_binders tidy
      intro w member
      refine ⟨fun same => tidy.unshadowed.1 (same ▸ member), fun free => ?_⟩
      have same : v = w := Ty.mem_freeVars_var.mp free
      exact opener (same ▸ List.mem_cons_of_mem bound member)

theorem FreshIn.uncaptured {detail : Detail} {env : Env} {expr : Expr} {event : Event}
    (fresh : FreshIn env expr) (traced : event.level = .trace)
    (announced : event ∈ (check detail env expr).events) : event.Uncaptured := by
  rw [← Run.events_map Prod.fst] at announced
  obtain ⟨env', expr', visited, call⟩ := exists_visited_call traced announced
  exact call.uncaptured (fresh.visits visited).1

/-- A check of a term with fresh binders never substitutes into a type that captures
and never compares against a type that could mislead it, whether it succeeds or not,
and every type it finds on the way is tidy where it is found. -/
theorem check_captures_nothing (detail : Detail) (env : Env) (expr : Expr)
    (fresh : FreshIn env expr) :
    (∀ (v : TyVar) (replacement ty : Ty),
      .subst v replacement ty ∈ (check detail env expr).events →
        ∀ w ∈ ty.binders, w ≠ v ∧ w ∉ replacement.freeVars) ∧
    (∀ left right : Ty, .alphaEq left right ∈ (check detail env expr).events →
      right.Unshadowed ∧ ∀ w ∈ right.binders, w ∉ left.freeVars) ∧
    ∀ (env' : Env) (expr' : Expr) (ty : Ty) (derivation : Derivation),
      Visits env expr env' expr' → (check detail env' expr').outcome = .ok (ty, derivation) →
        ty.Unshadowed ∧ (∀ w ∈ ty.binders, env.Binds w ∨ w ∈ expr.binders) ∧
          ∀ w ∈ ty.binders, w ∉ env'.types := by
  refine ⟨?_, ?_, ?_⟩
  · intro v replacement ty announced
    exact fresh.uncaptured rfl announced
  · intro left right announced
    exact fresh.uncaptured rfl announced
  · intro env' expr' ty derivation visited found
    obtain ⟨freshThere, origin⟩ := fresh.visits visited
    have tidy := (infers_of_check found).tidy freshThere
    exact ⟨tidy.unshadowed, fun w member => origin w (tidy.origin w member), tidy.notInScope⟩

/-- `f : ∀t1. ∀t2. t1 -> t2` in the scope of `t0`. -/
def coercionEnv : Env :=
  (Env.empty.insertType ⟨0⟩).insertTerm "f" (.all ⟨1⟩ (.all ⟨2⟩ (.arrow (.var ⟨1⟩) (.var ⟨2⟩))))

/-- `f [∀t3. t3 -> t0]` -/
def coercionInstance : Expr := .tapp (.var "f") (.all ⟨3⟩ (.arrow (.var ⟨3⟩) (.var ⟨0⟩)))

theorem freshIn_coercionInstance : FreshIn coercionEnv coercionInstance := by
  have closed : FreshIn .empty coercionInstance := .empty (by decide)
  have scopeFresh := closed.insertType (by decide) (Env.not_binds_empty ⟨0⟩)
  exact scopeFresh.insertTerm rfl (by decide) (by decide) (by decide) "f"

theorem coercionInstance_captures_nothing :
    FreshIn coercionEnv coercionInstance ∧
      ∀ w ∈ (Ty.all ⟨2⟩ (.arrow (.var ⟨1⟩) (.var ⟨2⟩))).binders,
        w ≠ ⟨1⟩ ∧ w ∉ (Ty.all ⟨3⟩ (.arrow (.var ⟨3⟩) (.var ⟨0⟩))).freeVars := by
  refine ⟨freshIn_coercionInstance, ?_⟩
  exact (check_captures_nothing .full coercionEnv coercionInstance freshIn_coercionInstance).1
    ⟨1⟩ _ _ (by decide)

end PolyLambda
