import PolyLambda.Proofs.Samples
import PolyLambda.Session

/-! # Identities over whole sessions

`step_cases` says all that a step can do to the supplies of a session: it leaves them as
they are and at most adds one, or it moves a single supply past the identities it hands
out.  A catalogue that runs out of identities is no exception.  So each supply is, at the
end of any run, as far ahead of where it was made as it has handed out identities
(`run_asMade`), and what it has handed out are the identities between. -/

set_option autoImplicit false

namespace PolyLambda.Session

def Step.source? : Step → Option Nat
  | .fresh k => some k
  | .catalogue k => some k
  | _ => none

def Stepped.handedBy (stepped : Stepped) (step : Step) (k : Nat) : List TyVar :=
  if step.source? = some k then stepped.handed else []

/-- What the steps of a run handed out from supply number `k`, in order. -/
def handedBy (k : Nat) : List Step → List Stepped → List TyVar
  | step :: steps, stepped :: trace => stepped.handedBy step k ++ handedBy k steps trace
  | _, _ => []

def after : Session → List Stepped → Session
  | session, [] => session
  | _, stepped :: trace => after stepped.session trace

/-- Supply number `k` as it was in the first session of a run that has it. -/
def asMade? (k : Nat) : Session → List Stepped → Option Supply
  | session, [] => session[k]?
  | session, stepped :: trace => session[k]?.or (asMade? k stepped.session trace)

/-! ## One step -/

section Step

variable {session : Session} {step : Step} {stepped : Stepped}

theorem drawFrom_cases {α : Type} {k : Nat} {draw : Draw α} {answer : α → Answer} {size : Nat}
    {build : (Nat → TyVar) → α} (builds : draw.Builds size build)
    (drew : session.drawFrom k draw answer = some stepped) :
    ∃ supply count, session[k]? = some supply ∧ count ≤ supply.room ∧
      stepped.session = session.set k (supply.advance count) ∧
      stepped.handed = supply.next count := by
  obtain ⟨supply, there, rest⟩ := Option.bind_eq_some_iff.mp drew
  obtain ⟨count, within, left, handed⟩ := builds.exists_count supply
  obtain rfl := Option.some.inj rest
  exact ⟨supply, count, there, within, congrArg (session.set k) left, handed⟩

/-- A step hands out nothing and at most adds a supply, or it moves one supply on. -/
theorem step_cases (ran : session.step step = some stepped) :
    (step.source? = none ∧ stepped.handed = [] ∧ ∃ added, stepped.session = session ++ added) ∨
    ∃ k supply count, step.source? = some k ∧ session[k]? = some supply ∧ count ≤ supply.room ∧
      stepped.session = session.set k (supply.advance count) ∧
      stepped.handed = supply.next count := by
  cases step with
  | new =>
      obtain rfl := Option.some.inj ran
      exact .inl ⟨rfl, rfl, _, rfl⟩
  | startingAt counter =>
      obtain rfl := Option.some.inj ran
      exact .inl ⟨rfl, rfl, _, rfl⟩
  | clone k =>
      obtain ⟨supply, -, rest⟩ := Option.bind_eq_some_iff.mp ran
      obtain rfl := Option.some.inj rest
      exact .inl ⟨rfl, rfl, _, rfl⟩
  | fresh k =>
      obtain ⟨supply, count, moved⟩ := drawFrom_cases .fresh ran
      exact .inr ⟨k, supply, count, rfl, moved⟩
  | counter k =>
      obtain ⟨supply, -, rest⟩ := Option.bind_eq_some_iff.mp ran
      obtain rfl := Option.some.inj rest
      exact .inl ⟨rfl, rfl, [], (List.append_nil _).symm⟩
  | same k l =>
      obtain ⟨first, -, rest⟩ := Option.bind_eq_some_iff.mp ran
      obtain ⟨second, -, rest⟩ := Option.bind_eq_some_iff.mp rest
      obtain rfl := Option.some.inj rest
      exact .inl ⟨rfl, rfl, [], (List.append_nil _).symm⟩
  | catalogue k =>
      obtain ⟨build, builds, -⟩ := catalogue_uniform
      obtain ⟨supply, count, moved⟩ := drawFrom_cases builds ran
      exact .inr ⟨k, supply, count, rfl, moved⟩

theorem step_of_source {k : Nat} (ran : session.step step = some stepped)
    (source : step.source? = some k) : k < session.length := by
  rcases step_cases ran with ⟨idle, -⟩ | ⟨k', supply, count, source', there, -⟩
  · rw [source] at idle
    cases idle
  · obtain rfl : k = k' := Option.some.inj (source.symm.trans source')
    exact (List.getElem?_eq_some_iff.mp there).1

/-- A step moves each supply on past what the step handed out from it. -/
theorem step_supply (ran : session.step step = some stepped) {k : Nat} {supply : Supply}
    (there : session[k]? = some supply) :
    ∃ count ≤ supply.room, stepped.session[k]? = some (supply.advance count) ∧
      stepped.handedBy step k = supply.next count ∧ (step.source? ≠ some k → count = 0) := by
  have existing : k < session.length := (List.getElem?_eq_some_iff.mp there).1
  by_cases source : step.source? = some k
  · rcases step_cases ran with ⟨idle, -⟩ | ⟨k', supply', count, source', there', within, moved⟩
    · rw [source] at idle
      cases idle
    · obtain rfl : k = k' := Option.some.inj (source.symm.trans source')
      obtain rfl : supply = supply' := Option.some.inj (there.symm.trans there')
      refine ⟨count, within, ?_, ?_, fun other => absurd source other⟩
      · rw [moved.1, List.getElem?_set_self existing]
      · rw [Stepped.handedBy, if_pos source, moved.2]
  · refine ⟨0, Nat.zero_le _, ?_, if_neg source, fun _ => rfl⟩
    rw [supply.advance_zero, ← there]
    rcases step_cases ran with ⟨-, -, added, grown⟩ | ⟨k', supply', count, source', -, -, moved, -⟩
    · rw [grown, List.getElem?_append_left existing]
    · have other : k' ≠ k := fun same => source (same ▸ source')
      rw [moved, List.getElem?_set_ne other]

theorem step_resume {supply : Supply} {k : Nat} (there : session[k]? = some supply)
    (resumes : step = .startingAt supply.counter ∨ step = .clone k) :
    session.step step = some (session.add supply) := by
  rcases resumes with rfl | rfl
  · rfl
  · rw [Session.step, there]
    rfl

/-- A `fresh` step hands out the identity that it answers with, and no other. -/
theorem step_fresh_cases {k : Nat} (ran : session.step (.fresh k) = some stepped) :
    (∃ v, stepped.answer = .var v ∧ stepped.handed = [v]) ∨
      (stepped.answer = .exhausted ⟨⟩ ∧ stepped.handed = []) := by
  obtain ⟨supply, -, rest⟩ := Option.bind_eq_some_iff.mp ran
  obtain rfl := Option.some.inj rest
  by_cases exhausted : supply.counter = Supply.lastCounter
  · rw [Draw.run, Draw.fresh, if_pos exhausted]
    exact .inr ⟨rfl, rfl⟩
  · rw [Draw.run, Draw.fresh, if_neg exhausted]
    exact .inl ⟨_, rfl, rfl⟩

theorem step_fresh_of_exhausted {k : Nat} (there : session[k]? = some ⟨Supply.lastCounter⟩) :
    session.step (.fresh k) = some ⟨session, .exhausted ⟨⟩, []⟩ := by
  have same : session.set k ⟨Supply.lastCounter⟩ = session := by
    obtain ⟨existing, here⟩ := List.getElem?_eq_some_iff.mp there
    rw [← here, List.set_getElem_self]
  have drawn : Draw.fresh.run ⟨Supply.lastCounter⟩ = ⟨⟨Supply.lastCounter⟩, [], .error ⟨⟩⟩ := rfl
  rw [Session.step, drawFrom, there]
  simp [drawn, same]

end Step

/-! ## Whole runs -/

section Run

variable {session : Session} {steps : List Step} {trace : List Stepped}

theorem run_cons {step : Step} (ran : session.run (step :: steps) = some trace) :
    ∃ stepped later, session.step step = some stepped ∧
      stepped.session.run steps = some later ∧ trace = stepped :: later := by
  obtain ⟨stepped, first, rest⟩ := Option.bind_eq_some_iff.mp ran
  obtain ⟨later, others, same⟩ := Option.bind_eq_some_iff.mp rest
  exact ⟨stepped, later, first, others, (Option.some.inj same).symm⟩

theorem run_supply (ran : session.run steps = some trace) {k : Nat} {supply : Supply}
    (there : session[k]? = some supply) :
    ∃ count ≤ supply.room, (session.after trace)[k]? = some (supply.advance count) ∧
      handedBy k steps trace = supply.next count := by
  induction steps generalizing session supply trace with
  | nil =>
      obtain rfl := Option.some.inj ran
      refine ⟨0, Nat.zero_le _, ?_, rfl⟩
      rw [supply.advance_zero]
      exact there
  | cons step steps stepsInduction =>
      obtain ⟨stepped, later, first, others, rfl⟩ := run_cons ran
      obtain ⟨count, within, thereNext, handed, -⟩ := step_supply first there
      obtain ⟨further, withinNext, atEnd, handedLater⟩ := stepsInduction others thereNext
      have roomNext := Supply.room_advance within
      refine ⟨count + further, by omega, ?_, ?_⟩
      · rw [← supply.advance_advance]
        exact atEnd
      · rw [handedBy, handed, handedLater, supply.next_add]

theorem run_asMade (ran : session.run steps = some trace) {k : Nat} {supply : Supply}
    (there : (session.after trace)[k]? = some supply) :
    ∃ made, session.asMade? k trace = some made ∧
      ∃ count ≤ made.room, supply = made.advance count ∧
        handedBy k steps trace = made.next count := by
  induction steps generalizing session trace with
  | nil =>
      obtain rfl := Option.some.inj ran
      exact ⟨supply, there, 0, Nat.zero_le _, supply.advance_zero.symm, rfl⟩
  | cons step steps stepsInduction =>
      cases existing : session[k]? with
      | some made =>
          obtain ⟨count, within, atEnd, handed⟩ := run_supply ran existing
          obtain ⟨stepped, later, first, others, rfl⟩ := run_cons ran
          refine ⟨made, ?_, count, within, ?_, handed⟩
          · rw [asMade?, existing]
            rfl
          · exact Option.some.inj (there.symm.trans atEnd)
      | none =>
          obtain ⟨stepped, later, first, others, rfl⟩ := run_cons ran
          obtain ⟨made, asMade, count, within, atEnd, handed⟩ := stepsInduction others there
          have absent : step.source? ≠ some k := by
            intro source
            have here := step_of_source first source
            rw [List.getElem?_eq_none_iff] at existing
            omega
          refine ⟨made, ?_, count, within, atEnd, ?_⟩
          · rw [asMade?, existing]
            exact asMade
          · rw [handedBy, Stepped.handedBy, if_neg absent, handed]
            rfl

end Run

/-- Whatever steps a session takes, each of its supplies has handed out the identities from the
counter it was made with up to its counter now, in order and each of them once.  A further step
moves no supply but the one it draws from, and that one by as many identities as it hands out;
a `fresh` step hands out its answer, and on the last word nothing is handed out and nothing moves.
A supply that is made at the counter of another hands out nothing that the other had handed out
until then. -/
theorem supplies_hand_out_consecutive_identities (session : Session) (steps : List Step)
    (trace : List Stepped) (ran : session.run steps = some trace) :
    (∀ k supply, (session.after trace)[k]? = some supply →
      ∃ made, session.asMade? k trace = some made ∧
        made.counter.toNat ≤ supply.counter.toNat ∧
        (handedBy k steps trace).map (·.index.toNat) =
          List.range' made.counter.toNat (supply.counter.toNat - made.counter.toNat) ∧
        (handedBy k steps trace).Nodup ∧
        ∀ v ∈ handedBy k steps trace, v.index.toNat < UInt64.size - 1) ∧
    (∀ step stepped, (session.after trace).step step = some stepped →
      ∀ k supply, (session.after trace)[k]? = some supply →
        ∃ supply', stepped.session[k]? = some supply' ∧
          supply'.counter.toNat = supply.counter.toNat + (stepped.handedBy step k).length ∧
          (step.source? ≠ some k → supply' = supply)) ∧
    (∀ k stepped, (session.after trace).step (.fresh k) = some stepped →
      (∃ v, stepped.answer = .var v ∧ stepped.handed = [v]) ∨
        (stepped.answer = .exhausted ⟨⟩ ∧ stepped.handed = [])) ∧
    (∀ k supply, (session.after trace)[k]? = some supply → supply.counter.toNat = UInt64.size - 1 →
      (session.after trace).step (.fresh k) = some ⟨session.after trace, .exhausted ⟨⟩, []⟩) ∧
    ∀ k supply step, (session.after trace)[k]? = some supply →
      step = .startingAt supply.counter ∨ step = .clone k →
      ∃ stepped resumed, (session.after trace).step step = some stepped ∧
        stepped.answer = .made resumed ∧
        ∀ later trace', stepped.session.run later = some trace' →
          ∀ v ∈ handedBy k steps trace, v ∉ handedBy resumed later trace' := by
  refine ⟨?_, ?_, fun _ _ => step_fresh_cases, ?_, ?_⟩
  · intro k supply there
    obtain ⟨made, asMade, count, within, rfl, handed⟩ := run_asMade ran there
    have counter := Supply.toNat_counter_advance within
    have lastWord := made.toNat_counter_add_room
    refine ⟨made, asMade, by omega, ?_, ?_, ?_⟩
    · rw [handed, Supply.indices_next within, counter, Nat.add_sub_cancel_left]
    · rw [handed]
      exact Supply.nodup_next within
    · intro v member
      rw [handed] at member
      have bounds := Supply.index_of_mem_next within member
      omega
  · intro step stepped next k supply there
    obtain ⟨count, within, thereNext, handed, idle⟩ := step_supply next there
    refine ⟨supply.advance count, thereNext, ?_, ?_⟩
    · rw [handed, Supply.length_next, Supply.toNat_counter_advance within]
    · intro other
      rw [idle other, supply.advance_zero]
  · intro k supply there exhausted
    have last : supply = ⟨Supply.lastCounter⟩ :=
      Supply.ext (UInt64.toNat_inj.mp exhausted)
    rw [last] at there
    exact step_fresh_of_exhausted there
  · intro k supply step there resumes
    refine ⟨_, _, step_resume there resumes, rfl, ?_⟩
    intro later trace' ranLater v handedBefore handedAfter
    have here : (session.after trace ++ [supply])[(session.after trace).length]? = some supply := by
      simp
    obtain ⟨made, -, count, within, rfl, handed⟩ := run_asMade ran there
    obtain ⟨count', within', -, handed'⟩ := run_supply ranLater here
    rw [handed] at handedBefore
    rw [handed'] at handedAfter
    have before := Supply.index_of_mem_next within handedBefore
    have after := Supply.index_of_mem_next within' handedAfter
    have counter := Supply.toNat_counter_advance within
    omega

/-- Draws from a supply and from its copy, and a catalogue from a supply that has three
identities left. -/
def tightSteps : List Step :=
  [.fresh 0, .clone 0, .fresh 1, .startingAt 18446744073709551612, .catalogue 2, .fresh 0]

def tightTrace : List Stepped := (initial.run tightSteps).getD []

/-- The catalogue takes the last three identities and leaves nothing, and a supply that goes on
from the first one does not repeat `t0` and `t1`. -/
theorem tightSteps_hand_out :
    initial.run tightSteps = some tightTrace ∧
    (handedBy 2 tightSteps tightTrace).map (·.index.toNat) =
      [18446744073709551612, 18446744073709551613, 18446744073709551614] ∧
    (initial.after tightTrace).step (.fresh 2) =
      some ⟨initial.after tightTrace, .exhausted ⟨⟩, []⟩ ∧
    ((initial.after tightTrace).map Supply.counter = [2, 2, 18446744073709551615]) ∧
    ∃ stepped trace, (initial.after tightTrace).step (.startingAt 2) = some stepped ∧
      stepped.session.run [.fresh 3, .fresh 3] = some trace ∧
      ∀ v ∈ handedBy 0 tightSteps tightTrace, v ∉ handedBy 3 [.fresh 3, .fresh 3] trace := by
  have ran : initial.run tightSteps = some tightTrace := rfl
  obtain ⟨handed, -, -, exhausted, resumed⟩ :=
    supplies_hand_out_consecutive_identities initial tightSteps tightTrace ran
  obtain ⟨made, asMade, -, consecutive, -⟩ := handed 2 ⟨18446744073709551615⟩ rfl
  obtain rfl : ⟨18446744073709551612⟩ = made := Option.some.inj asMade
  obtain ⟨stepped, number, next, made, apart⟩ := resumed 0 ⟨2⟩ (.startingAt 2) rfl (.inl rfl)
  obtain rfl : (initial.after tightTrace).add ⟨2⟩ = stepped := Option.some.inj next
  obtain rfl : 3 = number := Answer.made.inj made
  exact ⟨ran, consecutive, exhausted 2 _ rfl rfl, rfl, _, _, next, rfl, apart _ _ rfl⟩

end PolyLambda.Session
