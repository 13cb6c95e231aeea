import FleetLabels.Program

/-!
# Command line

Runs one of the two programs on the environment of the process: `crdgen` writes the definition of
policies, and no argument starts the controller.
-/

namespace FleetLabels.CommandLine

/-- The variables that the programs look at, as the process has them. -/
def environment : IO Environment := do
  let names := [Settings.intervalVariable, Settings.errorRequeueVariable,
    Settings.logLevelVariable, Program.filterVariable]
  let mut env : Environment := .empty
  for name in names do
    if let some value ← IO.getEnv name then
      env := env.insert name (.text value)
  return env

/-- Prints what a program reports, and gives its exit code. -/
def print (report : Program.Report) : IO UInt32 := do
  for line in report.stdout do
    IO.println line
  for line in report.stderr do
    IO.eprintln line
  return report.exit

end FleetLabels.CommandLine

def main (args : List String) : IO UInt32 := do
  if args = ["crdgen"] then
    FleetLabels.CommandLine.print FleetLabels.Program.definition
  else
    FleetLabels.CommandLine.print
      (FleetLabels.Program.controller (← FleetLabels.CommandLine.environment))
