/-
Glasshouse.CommandLine.Desk — commands carried out. Importing validates every rule
of a file before the first one is stored; running the service tells where it
can be reached. What a command prints and how it ends is all that it leaves
behind, besides the stored rules.
-/
import Glasshouse.CommandLine
import Glasshouse.CommandLine.Path
import Glasshouse.Logging
import Glasshouse.Rule.File
import Glasshouse.Settings
import Glasshouse.Store.Rules

namespace Glasshouse

/-- How the service is run. -/
structure Serving where
  host : String
  port : Int
  logLevel : String

/-- How the service is run, as a document. -/
def Serving.toDoc (s : Serving) : Doc :=
  .record [("app", .str "hortiflow.api.main:app"), ("host", .str s.host), ("port", .int s.port),
    ("reload", .bool false), ("log_level", .str s.logLevel)]

/-- Why an import fails. -/
inductive ImportFailure where
  | file (p : Path) (u : Unreadable)
  /-- The file does not follow its grammar. -/
  | grammar
  | rejected (r : Rejection)

/-- The line about an import that failed. -/
def ImportFailure.line (reason : String) : String := "❌ Import failed: " ++ reason ++ "\n"

/-- The wording of the reason why an import fails. -/
def ImportFailure.text : ImportFailure → String
  | file p u => u.text p
  | grammar => "the file does not follow its grammar"
  | rejected r => r.message

/-- How a command ends. -/
inductive Ending where
  | done
  | help
  | misuse
  | failed (f : ImportFailure)
  /-- A fault that no command foresees. -/
  | fault (f : Fault)
  /-- A value of a file that cannot be read. -/
  | value (p : Yaml.Problem)

/-- What commands work with. -/
structure Desk where
  settings : Settings
  files : Table String String := []
  /-- The stored rules, once there is a place for them. -/
  store : Option Store := none
  served : List Serving := []

namespace Desk

/-- What a command prints, and how it ends. -/
structure Report where
  printed : String := ""
  ending : Ending := .done

/-- The line about a rule that was stored. -/
def storedLine (r : RuleRow) : String :=
  s!"   + [{r.id}] {r.name} (priority {r.priority})\n"

/-- Definitions stored in order; at a fault those before it stay stored. -/
def storeAll (store : Store) (printed : String) : List Definition → Report × Store
  | [] => (⟨printed, .done⟩, store)
  | d :: ds =>
    match store.createRule d with
    | .ok (row, store) => storeAll store (printed ++ storedLine row) ds
    | .error f => (⟨printed, .fault f⟩, store)

/-- The definitions that a file holds. -/
def load (d : Desk) (file : String) : Except Ending (List Definition) :=
  let p := Path.ofText file
  match Path.find d.files p with
  | .error u => .error (.failed (.file p u))
  | .ok text =>
    match RuleFile.read p.last text with
    | .ok ds => .ok ds
    | .error (.unreadable .malformed) => .error (.failed .grammar)
    | .error (.unreadable p) => .error (.value p)
    | .error (.refused (.rejected r)) => .error (.failed (.rejected r))
    | .error (.refused (.fault f)) => .error (.fault f)

/-- The rules of a file imported. -/
def importRules (d : Desk) (file : String) : Report × Desk :=
  match Logging.threshold d.settings.logLevel with
  | .error f => (⟨"", .fault f⟩, d)
  | .ok _ =>
    match d.load file with
    | .error e => (⟨"", e⟩, d)
    | .ok ds =>
      let (r, store) := storeAll (d.store.getD {}) "" ds
      let d := { d with store := some store }
      match r.ending with
      | .done =>
        ({ r with printed := r.printed ++ s!"✅ Imported {ds.length} rule(s) from {file}\n" }, d)
      | _ => (r, d)

/-- The lines about the service that is run. -/
def banner (s : Settings) : String :=
  let place := s!"http://{s.host}:{s.port}"
  "🌱 HortiFlow — greenhouse automation rules engine\n"
    ++ "   Starting on " ++ place ++ "\n"
    ++ "   API Docs:  " ++ place ++ "/docs\n\n"

/-- The service run. -/
def serve (d : Desk) : Report × Desk :=
  let s := d.settings
  (⟨banner s, .done⟩,
    { d with served := d.served ++ [⟨s.host, s.port, Text.lower s.logLevel⟩] })

/-- A command carried out. -/
def carryOut (d : Desk) : Errand → Report × Desk
  | .serve => d.serve
  | .importRules file => d.importRules file

/-- What arguments ask for carried out. -/
def run (d : Desk) (args : List String) : Report × Desk :=
  match CommandLine.ofArguments args with
  | .help => (⟨"", .help⟩, d)
  | .misuse => (⟨"", .misuse⟩, d)
  | .run e => d.carryOut e

end Desk

end Glasshouse
