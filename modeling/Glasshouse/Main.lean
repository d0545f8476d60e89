/-
Glasshouse.Main — the program: settings from the environment, the file that is
to be imported, and what a command prints. Everything that is decided is
decided by `Desk.run`.
-/
import Glasshouse.CommandLine.Desk
import Glasshouse.Settings.EnvFile

namespace Glasshouse.Main

/-- The text of a file, if it can be read. -/
def fileText? (name : String) : IO (Option String) := do
  try
    return some (← IO.FS.readFile name)
  catch _ =>
    return none

/-- The variables of the environment that settings are read from. -/
def settingVariables : IO (List (String × String)) := do
  let found ← Settings.names.mapM fun n => do
    let name := (Settings.namePrefix ++ n).toUpper
    return (← IO.getEnv name).map fun v => (name, v)
  return found.filterMap id

/-- The settings of the environment and of the environment file beside it. -/
def readSettings : IO (Checked Settings) := do
  let env ← settingVariables
  let file := EnvFile.values env ((← fileText? ".env").getD "")
  return Settings.read ((Settings.ofVariables file).update (Settings.ofVariables env))

/-- The files that arguments name, with their texts. -/
def filesOf (args : List String) : IO (Table String String) := do
  match CommandLine.ofArguments args with
  | .run (.importRules file) => return ((← fileText? file).map fun t => (file, t)).toList
  | _ => return []

/-- How the program is used. -/
def usage : String := "usage: hortiflow [-h] \x7bserve,import-rules\x7d ...\n"

/-- What is said about an ending, and the code that goes with it. -/
def close : Ending → IO UInt32
  | .done => return 0
  | .help => do
    IO.print usage
    return 0
  | .misuse => do
    IO.eprint usage
    return 2
  | .failed f => do
    IO.eprint (ImportFailure.line f.text)
    return 1
  | .fault f => do
    IO.eprintln f.text
    return 1
  | .value _ => do
    IO.eprint (ImportFailure.line ImportFailure.grammar.text)
    return 1

/-- Arguments carried out with settings; the code that the program ends with. -/
def run (settings : Settings) (args : List String) : IO UInt32 := do
  let (report, _) := ({ settings, files := ← filesOf args } : Desk).run args
  IO.print report.printed
  close report.ending

end Glasshouse.Main

open Glasshouse in
/-- The program. -/
def main (args : List String) : IO UInt32 := do
  match ← Main.readSettings with
  | .ok settings => Main.run settings args
  | .flawed issues =>
    issues.forM fun i => IO.eprintln i.cause.text
    return 1
  | .broken f =>
    IO.eprintln f.text
    return 1
