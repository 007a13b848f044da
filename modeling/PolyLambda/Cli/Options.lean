/-! # Command-line options

An option has its value attached (`assign`) or takes the next argument
(`await`), which must not look like an option itself.  Sample names may be given
any number of times, every other option once.  Anything that is not an option or
the value of one is refused, except for one `--` at the very end.

This is a reader for these options alone and no general parser of command lines.
`-h` and `--help` are refused like any unknown option: the help text, and the
code 0 that goes with it, are left out.  The log level is read and kept, and has
no effect on an outcome. -/

set_option autoImplicit false

namespace PolyLambda.Cli

@[ext]
structure Options where
  /-- The samples asked for, in order; none means all. -/
  samples : List String
  list : Bool
  trace : Bool
  logLevel : Option String
deriving DecidableEq, Repr

/-- The options that take a value. -/
inductive Key where
  | sample
  | logLevel
deriving DecidableEq, Repr

/-- What one argument says, read by itself. -/
inductive Arg where
  | list
  | trace
  | assign (key : Key) (value : String)
  | await (key : Key)
  | endOfOptions
  | plain
  | unknown
deriving DecidableEq, Repr

namespace Arg

def ofLong (body : List Char) : Arg :=
  let name := String.ofList (body.takeWhile (· != '='))
  match body.dropWhile (· != '=') with
  | [] =>
      match name with
      | "list" => .list
      | "trace" => .trace
      | "sample" => .await .sample
      | "log-level" => .await .logLevel
      | _ => .unknown
  | _ :: value =>
      match name with
      | "sample" => .assign .sample (String.ofList value)
      | "log-level" => .assign .logLevel (String.ofList value)
      | _ => .unknown

/-- Reads a short option; its value may follow at once, or after one `=`. -/
def ofShort : List Char → Arg
  | ['s'] => .await .sample
  | 's' :: '=' :: value => .assign .sample (String.ofList value)
  | 's' :: value => .assign .sample (String.ofList value)
  | _ => .unknown

def read (arg : String) : Arg :=
  match arg.toList with
  | ['-', '-'] => .endOfOptions
  | '-' :: '-' :: body => ofLong body
  | ['-'] => .plain
  | '-' :: body => ofShort body
  | _ => .plain

end Arg

namespace Options

def initial : Options := ⟨[], false, false, none⟩

/-- Adds the value of an option, unless the option may not be given again. -/
def assign (options : Options) : Key → String → Option Options
  | .sample, value => some { options with samples := options.samples ++ [value] }
  | .logLevel, value =>
      if options.logLevel.isNone then some { options with logLevel := value } else none

def parseFrom (options : Options) : List String → Option Options
  | [] => options
  | arg :: rest =>
      match Arg.read arg with
      | .list =>
          if options.list then none else parseFrom { options with list := true } rest
      | .trace =>
          if options.trace then none else parseFrom { options with trace := true } rest
      | .assign key value =>
          match options.assign key value with
          | some extended => parseFrom extended rest
          | none => none
      | .await key =>
          match rest with
          | [] => none
          | value :: later =>
              match Arg.read value, options.assign key value with
              | .plain, some extended => parseFrom extended later
              | _, _ => none
      | .endOfOptions => if rest.isEmpty then some options else none
      | .plain => none
      | .unknown => none

def parse? (args : List String) : Option Options := parseFrom initial args

end Options

end PolyLambda.Cli
