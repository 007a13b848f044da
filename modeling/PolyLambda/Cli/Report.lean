import PolyLambda.Check
import PolyLambda.Cli.Options
import PolyLambda.Sample.Catalogue

/-! # What the command line program does

A command line is turned into an exit code and the two texts written.  Names
are looked up before any sample is checked, so an unknown name leaves the
standard output empty.

`stderr` holds the lines on samples alone.  What the logger writes there, by the
log level or a filter in the environment, is left out, and so is the usage text
for a command line that is refused, which ends with code 2 and two empty texts. -/

set_option autoImplicit false

namespace PolyLambda.Cli

structure Outcome where
  code : UInt32
  stdout : String
  stderr : String
deriving DecidableEq, Repr

def padTo (width : Nat) (text : String) : String :=
  text ++ String.ofList (List.replicate (width - text.length) ' ')

/-- One line for each sample: its name in a column of 26 characters, and its description. -/
def listing (samples : List Sample) : String :=
  String.join (samples.map fun sample =>
    padTo 26 sample.name ++ " " ++ sample.description ++ "\n")

def reportVerdict (trace : Bool) : Except TypeError (Ty × Derivation) → String
  | .ok (ty, derivation) =>
      "  type: " ++ ty.render ++ "\n" ++ if trace then "\n" ++ derivation.render ++ "\n" else ""
  | .error error => "  error: " ++ error.message ++ "\n"

def report (trace : Bool) (sample : Sample) : String :=
  "[" ++ sample.name ++ "] " ++ sample.description ++ "\n" ++
    "  term: " ++ sample.expr.render ++ "\n" ++
    reportVerdict trace (derive sample.expr) ++ "\n"

/-- The line on what should have come out of a sample, if something else did. -/
def complaint? (sample : Sample) : Option String :=
  if sample.agrees ((derive sample.expr).map Prod.fst) then
    none
  else
    match sample.expected with
    | .type ty => some ("  expected type " ++ ty.render ++ "\n")
    | .error kind => some ("  expected error " ++ kind.name ++ "\n")

/-- The samples of the given names, or the first name that no sample has. -/
def select (samples : List Sample) : List String → Except String (List Sample)
  | [] => .ok []
  | name :: rest =>
      match samples.find? (·.name == name) with
      | none => .error name
      | some sample => (select samples rest).map (sample :: ·)

def checkAll (trace : Bool) (samples : List Sample) : Outcome :=
  let stdout := String.join (samples.map (report trace))
  match samples.filterMap complaint? with
  | [] => ⟨0, stdout, ""⟩
  | complaints =>
      ⟨1, stdout, String.join complaints ++ complaints.length.repr ++
        " sample(s) did not match their expected outcome\n"⟩

def Options.perform (options : Options) (samples : List Sample) : Outcome :=
  if options.list then
    ⟨0, listing samples, ""⟩
  else if options.samples.isEmpty then
    checkAll options.trace samples
  else
    match select samples options.samples with
    | .ok selected => checkAll options.trace selected
    | .error name => ⟨2, "", "Unknown sample: " ++ name ++ "\n"⟩

def run (args : List String) : Outcome :=
  match Options.parse? args with
  | some options => options.perform standardCatalogue
  | none => ⟨2, "", ""⟩

end PolyLambda.Cli
