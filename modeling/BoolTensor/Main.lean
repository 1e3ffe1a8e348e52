import BoolTensor.CommandLine.Report

/-!
# The model search program

Reads the options, runs both searches, tells what they find, and saves the results in the output
directory.
-/

namespace BoolTensor.CommandLine

/-- Runs both searches and saves what they find. -/
def searchAndSave (config : Config) : IO UInt32 := do
  match (do return (← config.run searchEngine, ← config.directory)) with
  | .error (error : Error) =>
    IO.eprintln error.message
    return 1
  | .ok (findings, path) =>
    let directory := Report.normalPath path
    IO.FS.createDirAll directory
    IO.FS.writeFile (Report.inDirectory directory "results.json")
      (Report.document config findings).render
    IO.print (Report.transcript config directory findings)
    return 0

end BoolTensor.CommandLine

open BoolTensor.CommandLine in
def main (arguments : List String) : IO UInt32 := do
  match Config.parse arguments with
  | .ok config => searchAndSave config
  | .error .help =>
    IO.print helpText
    return 0
  | .error (.usage error) =>
    IO.eprint usageText
    IO.eprintln ("booltensor: error: " ++ error.message)
    return 2
