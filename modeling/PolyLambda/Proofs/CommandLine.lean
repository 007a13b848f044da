import PolyLambda.Cli.Report
import PolyLambda.Proofs.Detail
import PolyLambda.Proofs.Samples

/-! # Outcomes of command lines

Every sample of the standard catalogue comes out as it should, so no selection of them is
ever complained about.  What is left to decide the exit code are the names asked for: they
are all looked up first, in order, and the first unknown one ends the program before
anything has been written (`perform_cases`).

`Options.args` spells options out as arguments.  Reading them gives the options back
(`Options.parse?_args`), so that what a name gives by itself is the outcome of a command
line as well. -/

set_option autoImplicit false

namespace PolyLambda.Cli

/-! ## Options as arguments -/

def Key.name : Key → String
  | .sample => "sample"
  | .logLevel => "log-level"

def Key.assigned (key : Key) (value : String) : String := "--" ++ key.name ++ "=" ++ value

theorem Arg.read_assigned (key : Key) (value : String) :
    Arg.read (key.assigned value) = .assign key value := by
  have spelled : (key.assigned value).toList =
      '-' :: '-' :: (key.name.toList ++ '=' :: value.toList) := by
    simp only [Key.assigned, String.toList_append, List.append_assoc]
    rfl
  have long : Arg.read (key.assigned value) =
      Arg.ofLong (key.name.toList ++ '=' :: value.toList) := by
    rw [Arg.read, spelled]
    cases key <;> rfl
  rw [long]
  cases key with
  | sample => exact congrArg (Arg.assign .sample) String.ofList_toList
  | logLevel => exact congrArg (Arg.assign .logLevel) String.ofList_toList

namespace Options

/-- Arguments that ask for exactly these options. -/
def args (options : Options) : List String :=
  options.samples.map (Key.assigned .sample) ++
    ((if options.list then ["--list"] else []) ++
      ((if options.trace then ["--trace"] else []) ++
        (options.logLevel.map (Key.assigned .logLevel)).toList))

theorem parseFrom_assigned_samples (options : Options) (names rest : List String) :
    parseFrom options (names.map (Key.assigned .sample) ++ rest) =
      parseFrom { options with samples := options.samples ++ names } rest := by
  induction names generalizing options with
  | nil => simp
  | cons name names namesInduction =>
      rw [List.map_cons, List.cons_append, parseFrom, Arg.read_assigned]
      show parseFrom _ _ = _
      rw [namesInduction]
      simp

theorem parse?_args (options : Options) : parse? options.args = some options := by
  obtain ⟨samples, list, trace, logLevel⟩ := options
  have readList : Arg.read "--list" = .list := rfl
  have readTrace : Arg.read "--trace" = .trace := rfl
  rw [parse?, args, parseFrom_assigned_samples]
  cases list <;> cases trace <;> cases logLevel <;>
    simp [initial, parseFrom, assign, readList, readTrace, Arg.read_assigned]

end Options

/-! ## Looking names up -/

def named? (samples : List Sample) (name : String) : Option Sample :=
  samples.find? (·.name == name)

section Names

variable {samples : List Sample} {name : String}

theorem select_cons (names : List String) :
    select samples (name :: names) =
      match named? samples name with
      | none => .error name
      | some sample => (select samples names).map (sample :: ·) := rfl

theorem named?_eq_none_iff : named? samples name = none ↔ name ∉ samples.map Sample.name := by
  simp [named?]

theorem exists_named_of_mem (known : name ∈ samples.map Sample.name) :
    ∃ sample, named? samples name = some sample := by
  rw [← Option.ne_none_iff_exists']
  intro absent
  exact named?_eq_none_iff.mp absent known

theorem select_of_known {names : List String}
    (known : ∀ name ∈ names, name ∈ samples.map Sample.name) :
    select samples names = .ok (names.filterMap (named? samples)) := by
  induction names with
  | nil => rfl
  | cons name names namesInduction =>
      obtain ⟨sample, found⟩ := exists_named_of_mem (known name List.mem_cons_self)
      have others := namesInduction fun other member =>
        known other (List.mem_cons_of_mem name member)
      rw [select_cons, found, others, List.filterMap_cons_some found]
      rfl

theorem select_of_unknown {before after : List String}
    (known : ∀ other ∈ before, other ∈ samples.map Sample.name)
    (unknown : name ∉ samples.map Sample.name) :
    select samples (before ++ name :: after) = .error name := by
  induction before with
  | nil => rw [List.nil_append, select_cons, named?_eq_none_iff.mpr unknown]
  | cons other before beforeInduction =>
      obtain ⟨sample, found⟩ := exists_named_of_mem (known other List.mem_cons_self)
      have others := beforeInduction fun earlier member =>
        known earlier (List.mem_cons_of_mem other member)
      rw [List.cons_append, select_cons, found, others]
      rfl

theorem of_named {sample : Sample} (found : named? samples name = some sample) :
    sample ∈ samples ∧ sample.name = name := by
  refine ⟨List.mem_of_find?_eq_some found, ?_⟩
  exact beq_iff_eq.mp (List.find?_some (p := fun sample : Sample => sample.name == name) found)

theorem named?_of_mem (distinct : (samples.map Sample.name).Nodup) {sample : Sample}
    (member : sample ∈ samples) : named? samples sample.name = some sample := by
  obtain ⟨found, here⟩ := exists_named_of_mem (List.mem_map_of_mem member)
  obtain ⟨listed, sameName⟩ := of_named here
  rw [here, List.inj_on_of_nodup_map distinct listed member sameName]

/-- All names together name all samples. -/
theorem filterMap_named_names (distinct : (samples.map Sample.name).Nodup) :
    (samples.map Sample.name).filterMap (named? samples) = samples := by
  have found : ∀ sample ∈ samples, (named? samples ∘ Sample.name) sample = some sample :=
    fun sample member => named?_of_mem distinct member
  rw [List.filterMap_map, List.filterMap_congr found, List.filterMap_some]

end Names

/-! ## Carrying out options over samples that come out right -/

theorem map_fst_derive (expr : Expr) : (derive expr).map Prod.fst = typeOf expr := by
  have dropped : typeOf expr = Prod.fst <$> (check .bare .empty expr).outcome :=
    Run.outcome_map Prod.fst (check .bare .empty expr)
  rw [dropped, outcome_check_bare, ← comp_map]
  rfl

theorem checkAll_of_agreeing {samples : List Sample} (trace : Bool)
    (agree : ∀ sample ∈ samples, sample.agrees (typeOf sample.expr) = true) :
    checkAll trace samples = ⟨0, String.join (samples.map (report trace)), ""⟩ := by
  have silent : samples.filterMap complaint? = [] := by
    rw [List.filterMap_eq_nil_iff]
    intro sample member
    rw [complaint?, map_fst_derive, if_pos (agree sample member)]
  rw [checkAll, silent]

theorem join_reports_named (samples : List Sample) (trace : Bool) (names : List String) :
    String.join ((names.filterMap (named? samples)).map (report trace)) =
      String.join (names.map fun name =>
        String.join (([name].filterMap (named? samples)).map (report trace))) := by
  induction names with
  | nil => rfl
  | cons name names namesInduction =>
      have split : (name :: names).filterMap (named? samples) =
          [name].filterMap (named? samples) ++ names.filterMap (named? samples) :=
        List.filterMap_append (l := [name])
      rw [split, List.map_append, String.join_append, namesInduction, List.map_cons,
        String.join_cons]

theorem perform_list (options : Options) (samples : List Sample) (listed : options.list = true) :
    options.perform samples = ⟨0, listing samples, ""⟩ := by
  rw [Options.perform, if_pos listed]

theorem perform_unlisted (options : Options) (samples : List Sample)
    (unlisted : options.list = false) (asked : options.samples ≠ []) :
    options.perform samples =
      match select samples options.samples with
      | .ok selected => checkAll options.trace selected
      | .error name => ⟨2, "", "Unknown sample: " ++ name ++ "\n"⟩ := by
  have notAll : options.samples.isEmpty = false := by simpa using asked
  rw [Options.perform, unlisted, notAll]
  rfl

section Perform

variable (options : Options) {samples : List Sample}
  (agree : ∀ sample ∈ samples, sample.agrees (typeOf sample.expr) = true)
  (unlisted : options.list = false)
include agree unlisted

theorem perform_nil (all : options.samples = []) :
    options.perform samples = ⟨0, String.join (samples.map (report options.trace)), ""⟩ := by
  rw [Options.perform, unlisted, all]
  exact checkAll_of_agreeing options.trace agree

theorem perform_known (asked : options.samples ≠ [])
    (known : ∀ name ∈ options.samples, name ∈ samples.map Sample.name) :
    options.perform samples =
      ⟨0, String.join ((options.samples.filterMap (named? samples)).map (report options.trace)),
        ""⟩ := by
  rw [perform_unlisted options samples unlisted asked, select_of_known known]
  refine checkAll_of_agreeing options.trace fun sample member => ?_
  obtain ⟨name, -, found⟩ := List.mem_filterMap.mp member
  exact agree sample (of_named found).1

/-- Either all names are known, or the first unknown one is all that is written. -/
theorem perform_cases :
    ((∀ name ∈ options.samples, name ∈ samples.map Sample.name) ∧
      (options.perform samples).code = 0) ∨
    ∃ before name after, options.samples = before ++ name :: after ∧
      (∀ other ∈ before, other ∈ samples.map Sample.name) ∧ name ∉ samples.map Sample.name ∧
      options.perform samples = ⟨2, "", "Unknown sample: " ++ name ++ "\n"⟩ := by
  cases first : options.samples.find? (· ∉ samples.map Sample.name) with
  | none =>
      have known : ∀ name ∈ options.samples, name ∈ samples.map Sample.name := by
        simpa only [List.find?_eq_none, decide_eq_true_eq, Decidable.not_not] using first
      refine .inl ⟨known, ?_⟩
      by_cases all : options.samples = []
      · rw [perform_nil options agree unlisted all]
      · rw [perform_known options agree unlisted all known]
  | some name =>
      simp only [List.find?_eq_some_iff_append, decide_eq_true_eq, Bool.not_eq_true',
        decide_eq_false_iff_not, Decidable.not_not] at first
      obtain ⟨unknown, before, after, request, known⟩ := first
      refine .inr ⟨before, name, after, request, known, unknown, ?_⟩
      have asked : options.samples ≠ [] := by simp [request]
      rw [perform_unlisted options samples unlisted asked, request,
        select_of_unknown known unknown]

theorem code_perform_eq_two_iff : (options.perform samples).code = 2 ↔
    ∃ name ∈ options.samples, name ∉ samples.map Sample.name := by
  rcases perform_cases options agree unlisted with
    ⟨known, ended⟩ | ⟨before, name, after, request, -, unknown, ended⟩
  · rw [ended]
    refine iff_of_false (by decide) ?_
    rintro ⟨name, asked, unknown⟩
    exact unknown (known name asked)
  · rw [ended]
    exact iff_of_true rfl ⟨name, by simp [request], unknown⟩

/-- Several names give what each of them gives alone. -/
theorem stdout_perform_known (asked : options.samples ≠ [])
    (known : ∀ name ∈ options.samples, name ∈ samples.map Sample.name) :
    (options.perform samples).stdout = String.join (options.samples.map fun name =>
      (Options.perform { options with samples := [name] } samples).stdout) := by
  have alone : ∀ name ∈ options.samples,
      (Options.perform { options with samples := [name] } samples).stdout =
        String.join (([name].filterMap (named? samples)).map (report options.trace)) := by
    intro name member
    have knownAlone : ∀ other ∈ [name], other ∈ samples.map Sample.name :=
      List.forall_mem_singleton.mpr (known name member)
    rw [perform_known { options with samples := [name] } agree unlisted (List.cons_ne_nil _ _)
      knownAlone]
  rw [perform_known options agree unlisted asked known, join_reports_named,
    List.map_congr_left alone]

/-- No name gives what all of them give together. -/
theorem stdout_perform_nil (distinct : (samples.map Sample.name).Nodup) (all : options.samples = [])
    (some : samples ≠ []) :
    (options.perform samples).stdout =
      (Options.perform { options with samples := samples.map Sample.name } samples).stdout := by
  have asked : samples.map Sample.name ≠ [] := by simpa using some
  rw [perform_nil options agree unlisted all,
    perform_known { options with samples := samples.map Sample.name } agree unlisted asked
      fun _ member => member,
    filterMap_named_names distinct]

end Perform

theorem code_perform_ne_one (options : Options) {samples : List Sample}
    (agree : ∀ sample ∈ samples, sample.agrees (typeOf sample.expr) = true) :
    (options.perform samples).code ≠ 1 := by
  cases listed : options.list with
  | true =>
      rw [perform_list options samples listed]
      exact (by decide : (0 : UInt32) ≠ 1)
  | false =>
      rcases perform_cases options agree listed with ⟨-, ended⟩ | ⟨_, name, _, -, -, -, ended⟩
      · rw [ended]
        decide
      · rw [ended]
        exact (by decide : (2 : UInt32) ≠ 1)

/-! ## Command lines -/

theorem run_of_accepted {options : Options} {args : List String}
    (accepted : Options.parse? args = some options) :
    run args = options.perform standardCatalogue := by
  rw [run, accepted]

theorem run_args (options : Options) : run options.args = options.perform standardCatalogue :=
  run_of_accepted options.parse?_args

def catalogueNames : List String := standardCatalogue.map Sample.name

theorem nodup_catalogueNames : catalogueNames.Nodup := by decide

/-- An accepted command line never ends with code 1.  It ends with code 2 exactly when it asks
for an unknown name, and has then written nothing but the first of them.  Otherwise the reports
on all names stand in the order of the request, each as the name alone would give it; asking for
nothing is asking for everything.  A listing does not look at the other options. -/
theorem run_outcome_of_accepted (args : List String) (options : Options)
    (accepted : Options.parse? args = some options) :
    (run args).code ≠ 1 ∧
    (options.list = false →
      ((run args).code = 2 ↔ ∃ name ∈ options.samples, name ∉ catalogueNames) ∧
      ((run args).code = 2 → ∃ before name after, options.samples = before ++ name :: after ∧
        (∀ other ∈ before, other ∈ catalogueNames) ∧ name ∉ catalogueNames ∧
        (run args).stdout = "" ∧ (run args).stderr = "Unknown sample: " ++ name ++ "\n") ∧
      ((∀ name ∈ options.samples, name ∈ catalogueNames) →
        (run args).code = 0 ∧
        (options.samples ≠ [] → (run args).stdout = String.join (options.samples.map fun name =>
          (run (Options.args { options with samples := [name] })).stdout)) ∧
        (options.samples = [] → (run args).stdout =
          (run (Options.args { options with samples := catalogueNames })).stdout))) ∧
    (options.list = true → (run args).code = 0 ∧
      ∀ args' options', Options.parse? args' = some options' → options'.list = true →
        (run args').stdout = (run args).stdout) := by
  have agree := fun sample member => (standardCatalogue_right sample member).2
  rw [run_of_accepted accepted]
  refine ⟨code_perform_ne_one options agree, ?_, ?_⟩
  · intro unlisted
    refine ⟨code_perform_eq_two_iff options agree unlisted, ?_, ?_⟩
    · intro two
      rcases perform_cases options agree unlisted with
        ⟨-, ended⟩ | ⟨before, name, after, request, known, unknown, ended⟩
      · rw [ended] at two
        exact absurd two (by decide)
      · rw [ended]
        exact ⟨before, name, after, request, known, unknown, rfl, rfl⟩
    · intro known
      refine ⟨?_, ?_, ?_⟩
      · rcases perform_cases options agree unlisted with
          ⟨-, ended⟩ | ⟨before, name, after, request, -, unknown, -⟩
        · exact ended
        · exact absurd (known name (by simp [request])) unknown
      · intro asked
        simp only [run_args]
        exact stdout_perform_known options agree unlisted asked known
      · intro all
        rw [run_args]
        exact stdout_perform_nil options agree unlisted nodup_catalogueNames all
          (List.cons_ne_nil _ _)
  · intro listed
    rw [perform_list options _ listed]
    refine ⟨rfl, ?_⟩
    intro args' options' accepted' listed'
    rw [run_of_accepted accepted', perform_list options' _ listed']

/-- Three spellings of a request, with one name twice. -/
def repeatedRequest : List String := ["-s", "pack", "--trace", "--sample=counter", "-spack"]

/-- A request for two unknown names after a known one. -/
def misspeltRequest : List String := ["--sample", "int", "-s=itn", "--sample=poly"]

theorem repeated_reports_joined_and_misspelt_refused :
    Options.parse? repeatedRequest = some ⟨["pack", "counter", "pack"], false, true, none⟩ ∧
    (run repeatedRequest).code = 0 ∧
    (run repeatedRequest).stdout = String.join (["pack", "counter", "pack"].map fun name =>
      (run (Options.args ⟨[name], false, true, none⟩)).stdout) ∧
    Options.parse? misspeltRequest = some ⟨["int", "itn", "poly"], false, false, none⟩ ∧
    (run misspeltRequest).code = 2 := by
  have accepted : Options.parse? repeatedRequest =
    some ⟨["pack", "counter", "pack"], false, true, none⟩ := by decide
  have accepted' : Options.parse? misspeltRequest =
    some ⟨["int", "itn", "poly"], false, false, none⟩ := by decide
  obtain ⟨-, unlisted, -⟩ := run_outcome_of_accepted repeatedRequest _ accepted
  obtain ⟨-, -, known⟩ := unlisted rfl
  obtain ⟨ended, joined, -⟩ := known (by decide)
  obtain ⟨-, unlisted', -⟩ := run_outcome_of_accepted misspeltRequest _ accepted'
  obtain ⟨decided, -⟩ := unlisted' rfl
  have misspelt : ∃ name ∈ ["int", "itn", "poly"], name ∉ catalogueNames :=
    ⟨"itn", by decide, by decide⟩
  exact ⟨accepted, ended, joined (List.cons_ne_nil _ _), accepted', decided.mpr misspelt⟩

end PolyLambda.Cli
