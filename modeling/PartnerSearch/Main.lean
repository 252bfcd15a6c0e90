import PartnerSearch.CommandLine

set_option autoImplicit false

/-! The program: runs one command and reports what it left. -/

open PartnerSearch

/-- The variables that the settings are read from. -/
def settingNames : List String :=
  ["DATABASE_URL", "PORT", "ENVIRONMENT", "API_DEFAULT_PAGE_SIZE", "API_MAX_PAGE_SIZE"]

def readEnvironment : IO Environment := do
  let found ← settingNames.mapM fun name => do
    return (← IO.getEnv name).map fun value => (name, Text.bytes value)
  return ⟨found.filterMap id⟩

def main (words : List String) : IO UInt32 := do
  match CommandLine.run? (← readEnvironment) words with
  | some outcome =>
    IO.print outcome.output
    IO.eprint outcome.report
    return outcome.exitCode.toUInt32
  | none =>
    IO.eprintln "usage: explain SEARCH | serve"
    return CommandLine.usageExitCode.toUInt32
