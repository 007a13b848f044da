import PolyLambda.Cli.Report

/-! # The command line program -/

set_option autoImplicit false

def main (args : List String) : IO UInt32 := do
  let outcome := PolyLambda.Cli.run args
  IO.print outcome.stdout
  IO.eprint outcome.stderr
  return outcome.code
