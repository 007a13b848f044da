import PolyLambda.Proofs.FreeVariables
import PolyLambda.Proofs.Record

/-! # Events, derivations and errors

A run leaves two records beside its outcome, the events and the derivation, and they
agree.  When a check succeeds, its debug events are the nodes of the derivation in
postorder, integers left out, and its trace events are the substitutions and
comparisons that the rules of those nodes make.  When it fails, the last event gives
the reason if the error came from comparing types, and no other event gives one. -/

set_option autoImplicit false

namespace PolyLambda

/-! ## What a log shows -/

namespace Event

def field? (event : Event) (key : String) : Option String := event.fields.lookup key

/-- The rule and the type that each debug event shows. -/
def conclusions (events : List Event) : List (Option String × Option String) :=
  (events.filter (·.level = .debug)).map fun event => (event.field? "rule", event.field? "ty")

def calls (events : List Event) : List (Option String) :=
  (events.filter (·.level = .trace)).map Event.message?

@[simp]
theorem conclusions_append (before after : List Event) :
    conclusions (before ++ after) = conclusions before ++ conclusions after := by
  simp [conclusions]

@[simp]
theorem calls_append (before after : List Event) :
    calls (before ++ after) = calls before ++ calls after := by
  simp [calls]

end Event

/-! ## What a derivation shows -/

/-- The messages of the substitutions and comparisons that a rule makes. -/
def Rule.calls : Rule → List String
  | .int => []
  | .var => []
  | .abs => []
  | .app => ["alpha_eq"]
  | .tabs => []
  | .tapp => ["subst"]
  | .pack => ["subst", "alpha_eq"]
  | .unpack => ["subst"]

namespace Derivation

mutual

def postorder : Derivation → List Derivation
  | .node rule input output premises =>
      postorderOfAll premises ++ [.node rule input output premises]

def postorderOfAll : List Derivation → List Derivation
  | [] => []
  | first :: rest => first.postorder ++ postorderOfAll rest

end

/-- The rule and the type of each node in postorder, integers left out. -/
def conclusions (derivation : Derivation) : List (Option String × Option String) :=
  (derivation.postorder.filter (·.rule ≠ .int)).map fun node =>
    (some node.rule.name, some node.output)

def calls (derivation : Derivation) : List (Option String) :=
  (derivation.postorder.flatMap (·.rule.calls)).map some

theorem postorderOfAll_eq_flatMap (derivations : List Derivation) :
    postorderOfAll derivations = derivations.flatMap postorder := by
  induction derivations with
  | nil => rfl
  | cons first rest restInduction => rw [postorderOfAll, restInduction, List.flatMap_cons]

theorem conclusions_conclude (rule : Rule) (env : Env) (expr : Expr) (ty : Ty)
    (premises : List Derivation) :
    (conclude .full rule env expr ty premises).conclusions =
      premises.flatMap conclusions ++
        if rule = .int then [] else [(some rule.name, some ty.render)] := by
  have inside : premises.flatMap conclusions =
      ((premises.flatMap postorder).filter (·.rule ≠ .int)).map fun node =>
        (some node.rule.name, some node.output) := by
    rw [List.filter_flatMap, List.map_flatMap]
    rfl
  rw [inside, conclusions, conclude, postorder, postorderOfAll_eq_flatMap, List.filter_append,
    List.map_append]
  by_cases literal : rule = .int
  · simp [literal, Derivation.rule]
  · simp [literal, Derivation.rule, Derivation.output]

theorem calls_conclude (rule : Rule) (env : Env) (expr : Expr) (ty : Ty)
    (premises : List Derivation) :
    (conclude .full rule env expr ty premises).calls =
      premises.flatMap calls ++ rule.calls.map some := by
  have inside : premises.flatMap calls =
      ((premises.flatMap postorder).flatMap (·.rule.calls)).map some := by
    rw [List.flatMap_assoc, List.map_flatMap]
    rfl
  rw [inside, calls, conclude, postorder, postorderOfAll_eq_flatMap, List.flatMap_append,
    List.map_append, List.flatMap_singleton]
  rfl

end Derivation

theorem conclusions_of_derived {env : Env} {expr : Expr} {ty : Ty} {derivation : Derivation}
    (derived : deriveIn env expr = .ok (ty, derivation)) :
    Event.conclusions (check .full env expr).events = derivation.conclusions := by
  induction expr using Expr.parts_induction generalizing env ty derivation with
  | step expr partInduction =>
      have concludes := concludes_of_derived derived
      generalize (check .full env expr).events = events at concludes ⊢
      cases concludes with
      | lit | var => rfl
      | abs inPart | tabs inPart | tapp inPart | pack inPart =>
          have part := partInduction _ List.mem_cons_self inPart
          rw [Event.conclusions_append, part, Derivation.conclusions_conclude,
            List.flatMap_singleton]
          rfl
      | app inFirst inSecond | unpack inFirst inSecond =>
          have first := partInduction _ List.mem_cons_self inFirst
          have second := partInduction _ (List.mem_cons_of_mem _ List.mem_cons_self) inSecond
          simp only [Event.conclusions_append, first, second, Derivation.conclusions_conclude,
            List.flatMap_cons, List.flatMap_nil, List.append_nil, List.append_assoc]
          rfl

theorem calls_of_derived {env : Env} {expr : Expr} {ty : Ty} {derivation : Derivation}
    (derived : deriveIn env expr = .ok (ty, derivation)) :
    (Event.calls (check .full env expr).events).Perm derivation.calls := by
  induction expr using Expr.parts_induction generalizing env ty derivation with
  | step expr partInduction =>
      have concludes := concludes_of_derived derived
      generalize (check .full env expr).events = events at concludes ⊢
      cases concludes with
      | lit | var => exact .refl _
      | abs inPart | tabs inPart | tapp inPart | pack inPart =>
          have part := partInduction _ List.mem_cons_self inPart
          rw [Event.calls_append, Derivation.calls_conclude, List.flatMap_singleton]
          exact part.append_right _
      | app inFunc inArg =>
          have func := partInduction _ List.mem_cons_self inFunc
          have arg := partInduction _ (List.mem_cons_of_mem _ List.mem_cons_self) inArg
          simp only [Event.calls_append, Derivation.calls_conclude, List.flatMap_cons,
            List.flatMap_nil, List.append_nil, List.append_assoc]
          exact func.append (arg.append_right _)
      | @unpack v bound name packed cont body ty first second inPacked inCont =>
          have opened := partInduction _ List.mem_cons_self inPacked
          have rest := partInduction _ (List.mem_cons_of_mem _ List.mem_cons_self) inCont
          have concluded : Event.calls [.unpack v name ty] = [] := rfl
          simp only [Event.calls_append, concluded, Derivation.calls_conclude, List.flatMap_cons,
            List.flatMap_nil, List.append_nil, List.append_assoc]
          -- The substitution of an opening stands before the calls of what it opens into.
          exact opened.append ((rest.append_left [some "subst"]).trans List.perm_append_comm)

/-! ## Reasons for a rejection -/

/-- The error comes from comparing types, or from a type that leaves its scope. -/
def TypeError.IsRejection (error : TypeError) : Prop :=
  error.kind = .typeMismatch ∨ error.kind = .escape

namespace Event

/-- A message on the debug level, which gives the reason for a rejection. -/
def isReason (event : Event) : Bool := event.level = .debug && event.message?.isSome

def rejection? : Event → Option TypeError
  | .argumentMismatch expected actual => some (.typeMismatch expected actual)
  | .bodyMismatch expected actual => some (.typeMismatch expected actual)
  | .escape v ty => some (.escape v ty)
  | _ => none

theorem isReason_eq_isSome (event : Event) : event.isReason = event.rejection?.isSome := by
  cases event <;> rfl

theorem isReason_of_silent {event : Event} (silent : event.rejection? = none) :
    event.isReason = false := by
  rw [isReason_eq_isSome, silent]
  rfl

theorem message?_of_silent {event : Event} (silent : event.rejection? = none) :
    event.message? ≠ some "argument mismatch" ∧ event.message? ≠ some "package body mismatch" ∧
      event.message? ≠ some "abstract type escapes" := by
  cases event with
  | argumentMismatch expected actual => cases silent
  | bodyMismatch expected actual => cases silent
  | escape v ty => cases silent
  | _ => simp [message?]

/-- The texts of an error from comparing types are fields of the event that gives its reason. -/
theorem fields_of_rejection {event : Event} {error : TypeError}
    (reason : event.rejection? = some error) :
    (∀ expected actual, error = .typeMismatch expected actual →
      event.field? "expected" = some expected.render ∧
        event.field? "actual" = some actual.render) ∧
    ∀ v ty, error = .escape v ty →
      event.field? "var" = some v.render ∧ event.field? "ty" = some ty.render := by
  cases event with
  | argumentMismatch expected actual | bodyMismatch expected actual =>
      cases reason
      refine ⟨?_, nofun⟩
      rintro _ _ ⟨rfl, rfl⟩
      exact ⟨rfl, rfl⟩
  | escape v ty =>
      cases reason
      refine ⟨nofun, ?_⟩
      rintro _ _ ⟨rfl, rfl⟩
      exact ⟨rfl, rfl⟩
  | _ => cases reason

theorem isRejection_of_reason {event : Event} {error : TypeError}
    (reason : event.rejection? = some error) : error.IsRejection := by
  cases event with
  | argumentMismatch expected actual | bodyMismatch expected actual =>
      cases reason
      exact .inl rfl
  | escape v ty =>
      cases reason
      exact .inr rfl
  | _ => cases reason

end Event

namespace Run

variable {α β : Type}

/-- A rejection is announced by the last event, and nothing else gives a reason. -/
inductive Reported : Run α → Prop where
  | succeeds {events : List Event} {a : α} (silent : ∀ event ∈ events, event.rejection? = none) :
      Reported ⟨events, .ok a⟩
  | stops {events : List Event} {error : TypeError}
      (silent : ∀ event ∈ events, event.rejection? = none) (other : ¬ error.IsRejection) :
      Reported ⟨events, .error error⟩
  | rejects {earlier : List Event} {last : Event} {error : TypeError}
      (silent : ∀ event ∈ earlier, event.rejection? = none)
      (reason : last.rejection? = some error) : Reported ⟨earlier ++ [last], .error error⟩

namespace Reported

theorem prepend {run : Run α} {before : List Event} (reported : run.Reported)
    (silent : ∀ event ∈ before, event.rejection? = none) :
    Reported ⟨before ++ run.events, run.outcome⟩ := by
  cases reported with
  | succeeds silentAfter => exact .succeeds (List.forall_mem_append.mpr ⟨silent, silentAfter⟩)
  | stops silentAfter other => exact .stops (List.forall_mem_append.mpr ⟨silent, silentAfter⟩) other
  | rejects silentAfter reason =>
      rw [← List.append_assoc]
      exact .rejects (List.forall_mem_append.mpr ⟨silent, silentAfter⟩) reason

theorem bind {run : Run α} {next : α → Run β} (reported : run.Reported)
    (nextReported : ∀ a, (next a).Reported) : (run >>= next).Reported := by
  cases reported with
  | @succeeds events a silent => exact (nextReported a).prepend silent
  | stops silent other => exact .stops silent other
  | rejects silent reason => exact .rejects silent reason

theorem ofExcept {outcome : Except TypeError α}
    (other : ∀ error, outcome = .error error → ¬ error.IsRejection) :
    (Run.ofExcept outcome).Reported := by
  cases outcome with
  | ok a => exact .succeeds (by simp)
  | error error => exact .stops (by simp) (other error rfl)

theorem emit {event : Event} (silent : event.rejection? = none) : (Run.emit event).Reported :=
  .succeeds (List.forall_mem_singleton.mpr silent)

theorem pure (a : α) : (Pure.pure a : Run α).Reported := .succeeds (by simp)

theorem reject {event : Event} {error : TypeError} (reason : event.rejection? = some error) :
    (Run.emit event >>= fun _ => (Run.fail error : Run α)).Reported :=
  .rejects (List.forall_mem_nil _) reason

theorem silent_of_ok {run : Run α} {a : α} (reported : run.Reported)
    (succeeds : run.outcome = .ok a) : ∀ event ∈ run.events, event.rejection? = none := by
  cases reported with
  | succeeds silent => exact silent
  | _ => cases succeeds

theorem of_error {run : Run α} {error : TypeError} (reported : run.Reported)
    (fails : run.outcome = .error error) :
    (¬ error.IsRejection ∧ ∀ event ∈ run.events, event.isReason = false) ∨
      ∃ earlier last, run.events = earlier ++ [last] ∧ last.rejection? = some error ∧
        ∀ event ∈ earlier, event.isReason = false := by
  cases reported with
  | succeeds => cases fails
  | stops silent other =>
      cases fails
      exact .inl ⟨other, fun event member => Event.isReason_of_silent (silent event member)⟩
  | @rejects earlier last _ silent reason =>
      cases fails
      exact .inr ⟨earlier, last, rfl, reason,
        fun event member => Event.isReason_of_silent (silent event member)⟩

end Reported

end Run

namespace Env

theorem lookup_reported (env : Env) (name : String) :
    (Run.ofExcept (env.lookup name)).Reported := by
  refine .ofExcept ?_
  intro error fails
  rw [lookup_eq_error fails]
  exact nofun

theorem wellFormed_reported (env : Env) (ty : Ty) :
    (Run.ofExcept (env.wellFormed ty)).Reported := by
  refine .ofExcept ?_
  intro error fails
  obtain ⟨v, rfl, -⟩ := wellFormed_eq_error fails
  exact nofun

end Env

namespace Ty

theorem asArrow_reported (ty : Ty) : (Run.ofExcept ty.asArrow).Reported := by
  refine .ofExcept ?_
  intro error fails
  rw [(asArrow_eq_error fails).1]
  exact nofun

theorem asForall_reported (ty : Ty) : (Run.ofExcept ty.asForall).Reported := by
  refine .ofExcept ?_
  intro error fails
  rw [(asForall_eq_error fails).1]
  exact nofun

theorem asExists_reported (ty : Ty) : (Run.ofExcept ty.asExists).Reported := by
  refine .ofExcept ?_
  intro error fails
  rw [(asExists_eq_error fails).1]
  exact nofun

theorem substRun_reported (ty : Ty) (v : TyVar) (replacement : Ty) :
    (ty.substRun v replacement).Reported :=
  .bind (.emit rfl) fun _ => .pure _

theorem alphaEqRun_reported (left right : Ty) : (left.alphaEqRun right).Reported :=
  .bind (.emit rfl) fun _ => .pure _

end Ty

theorem check_reported (detail : Detail) (env : Env) (expr : Expr) :
    (check detail env expr).Reported := by
  induction expr generalizing env with
  | lit value =>
      rw [check]
      exact .pure _
  | var name =>
      rw [check]
      refine .bind (env.lookup_reported name) ?_
      intro ty
      exact .bind (.emit rfl) fun _ => .pure _
  | abs param paramTy body bodyInduction =>
      rw [check]
      refine .bind (env.wellFormed_reported paramTy) ?_
      intro _
      refine .bind (bodyInduction (env.insertTerm param paramTy)) ?_
      intro found
      exact .bind (.emit rfl) fun _ => .pure _
  | app func arg funcInduction argInduction =>
      rw [check]
      refine .bind (funcInduction env) ?_
      intro foundFunc
      refine .bind foundFunc.1.asArrow_reported ?_
      intro sides
      refine .bind (argInduction env) ?_
      intro foundArg
      refine .bind (sides.1.alphaEqRun_reported foundArg.1) ?_
      intro same
      cases same with
      | true => exact .bind (.emit rfl) fun _ => .pure _
      | false => exact .reject rfl
  | tabs v body bodyInduction =>
      rw [check]
      refine .bind (bodyInduction (env.insertType v)) ?_
      intro found
      exact .bind (.emit rfl) fun _ => .pure _
  | tapp func arg funcInduction =>
      rw [check]
      refine .bind (funcInduction env) ?_
      intro found
      refine .bind found.1.asForall_reported ?_
      intro parts
      refine .bind (env.wellFormed_reported arg) ?_
      intro _
      refine .bind (parts.2.substRun_reported parts.1 arg) ?_
      intro ty
      exact .bind (.emit rfl) fun _ => .pure _
  | pack witness body v bodyTy bodyInduction =>
      rw [check]
      refine .bind (env.wellFormed_reported witness) ?_
      intro _
      refine .bind ((env.insertType v).wellFormed_reported (.ex v bodyTy)) ?_
      intro _
      refine .bind (bodyInduction env) ?_
      intro found
      refine .bind (bodyTy.substRun_reported v witness) ?_
      intro expected
      refine .bind (expected.alphaEqRun_reported found.1) ?_
      intro same
      cases same with
      | true => exact .bind (.emit rfl) fun _ => .pure _
      | false => exact .reject rfl
  | unpack v name packed cont packedInduction contInduction =>
      rw [check]
      refine .bind (packedInduction env) ?_
      intro foundPacked
      refine .bind foundPacked.1.asExists_reported ?_
      intro parts
      refine .bind (parts.2.substRun_reported parts.1 (.var v)) ?_
      intro opened
      refine .bind (contInduction ((env.insertType v).insertTerm name opened)) ?_
      intro foundCont
      dsimp only
      split
      · exact .bind (.emit rfl) fun _ => .pure _
      · exact .reject rfl

/-- When a check succeeds, its debug events show the rule and the type of each node of the
derivation, in postorder and without integers, none of them gives a reason for a rejection,
and its trace events are the calls that the rules of the nodes make.  When it fails, an event
gives a reason exactly if two types did not match or a type left its scope; it is then the last
event and the only one that does, and it has the texts of the error in its fields. -/
theorem events_agree_with_derivation_and_error :
    (∀ (env : Env) (expr : Expr) (ty : Ty) (derivation : Derivation),
      (check .full env expr).outcome = .ok (ty, derivation) →
        Event.conclusions (check .full env expr).events = derivation.conclusions ∧
        (∀ event ∈ (check .full env expr).events, event.message? ≠ some "argument mismatch" ∧
          event.message? ≠ some "package body mismatch" ∧
          event.message? ≠ some "abstract type escapes") ∧
        (Event.calls (check .full env expr).events).Perm derivation.calls) ∧
    ∀ (detail : Detail) (env : Env) (expr : Expr) (error : TypeError),
      (check detail env expr).outcome = .error error →
        ((∃ event ∈ (check detail env expr).events, event.isReason = true) ↔
          error.kind = .typeMismatch ∨ error.kind = .escape) ∧
        (error.kind = .typeMismatch ∨ error.kind = .escape →
          ∃ earlier last, (check detail env expr).events = earlier ++ [last] ∧
            last.isReason = true ∧ (∀ event ∈ earlier, event.isReason = false) ∧
            (∀ expected actual, error = .typeMismatch expected actual →
              last.field? "expected" = some expected.render ∧
                last.field? "actual" = some actual.render) ∧
            ∀ v ty, error = .escape v ty →
              last.field? "var" = some v.render ∧ last.field? "ty" = some ty.render) := by
  constructor
  · intro env expr ty derivation derived
    refine ⟨conclusions_of_derived derived, ?_, calls_of_derived derived⟩
    intro event member
    exact Event.message?_of_silent ((check_reported .full env expr).silent_of_ok derived event member)
  · intro detail env expr error fails
    rcases (check_reported detail env expr).of_error fails with
      ⟨other, silent⟩ | ⟨earlier, last, log, reason, silent⟩
    · refine ⟨⟨?_, fun rejection => absurd rejection other⟩, fun rejection => absurd rejection other⟩
      rintro ⟨event, member, isReason⟩
      exact absurd isReason (Bool.eq_false_iff.mp (silent event member))
    · have isReason : last.isReason = true := by
        rw [Event.isReason_eq_isSome, reason]
        rfl
      refine ⟨⟨fun _ => Event.isRejection_of_reason reason, fun _ => ?_⟩, fun _ => ?_⟩
      · exact ⟨last, by simp [log], isReason⟩
      · exact ⟨earlier, last, log, isReason, silent, Event.fields_of_rejection reason⟩

/-- `unpack [t1, x] = pack [Int, 42] as ∃t0. t0 in x` -/
def leak : Expr := .unpack ⟨1⟩ "x" (.pack .int (.lit 42) ⟨0⟩ (.var ⟨0⟩)) (.var "x")

/-- The calls of a term that opens a package, and the last event of one that leaks its type. -/
theorem sealedUse_and_leak_logged :
    (Event.calls (check .full .empty sealedUse).events).Perm
        [some "subst", some "alpha_eq", some "alpha_eq", some "subst"] ∧
      ∃ earlier last, (check .bare .empty leak).events = earlier ++ [last] ∧
        last.field? "var" = some "t1" ∧ last.field? "ty" = some "t1" := by
  constructor
  · exact (events_agree_with_derivation_and_error.1 .empty sealedUse .int _ rfl).2.2
  · obtain ⟨earlier, last, log, -, -, -, texts⟩ :=
      (events_agree_with_derivation_and_error.2 .bare .empty leak
        (.escape ⟨1⟩ (.var ⟨1⟩)) rfl).2 (.inr rfl)
    exact ⟨earlier, last, log, texts _ _ rfl⟩

end PolyLambda
