/-
Glasshouse.CommandLine — what the arguments of the program ask for. Without a
command the service is run. Help counts wherever it is asked for before
something that cannot be read; whatever is left over is a misuse.
-/

namespace Glasshouse

/-- What the program can be asked to do. -/
inductive Errand where
  | serve
  | importRules (file : String)
  deriving DecidableEq, Repr

/-- What arguments ask for. -/
inductive Asked where
  | help
  | misuse
  | run (e : Errand)
  deriving DecidableEq, Repr

namespace CommandLine

/-- The kinds of arguments. -/
inductive Argument where
  | word
  | help
  /-- Help with something attached to it. -/
  | helpWithValue
  | otherOption
  /-- Two hyphens, after which everything is a word. -/
  | divider
  deriving DecidableEq, Repr

namespace Argument

/-- Whether characters after a hyphen write a number. -/
def isNumber (cs : List Char) : Bool :=
  let rest := cs.dropWhile Char.isDigit
  match rest with
  | [] => !cs.isEmpty
  | '.' :: r => !r.isEmpty && r.all Char.isDigit
  | _ => false

/-- The long name of the option for help. -/
def longHelp : List Char := "help".toList

/-- What two hyphens and more stand for. -/
def ofLong (cs : List Char) : Argument :=
  let name := cs.takeWhile (· != '=')
  if name.isEmpty || !name.isPrefixOf longHelp then
    if cs.contains ' ' then .word else .otherOption
  else if cs.contains '=' then .helpWithValue
  else .help

/-- What one hyphen and more stand for. -/
def ofShort (cs : List Char) : Argument :=
  match cs with
  | 'h' :: r =>
    let more := match r with
      | '=' :: x :: r => x :: r
      | r => r
    if more.all (· == 'h') then .help else .helpWithValue
  | _ => if isNumber cs || cs.contains ' ' then .word else .otherOption

/-- The kind of an argument. -/
def ofText (s : String) : Argument :=
  match s.toList with
  | ['-', '-'] => .divider
  | '-' :: '-' :: cs => ofLong cs
  | ['-'] => .word
  | '-' :: cs => ofShort cs
  | _ => .word

end Argument

/-- The arguments after the command to run the service. -/
def afterServe (surplus : Bool) : List String → Asked
  | [] => if surplus then .misuse else .run .serve
  | a :: r =>
    match Argument.ofText a with
    | .help => .help
    | .helpWithValue | .divider => .misuse
    | .word | .otherOption => afterServe true r

/-- The end of the arguments after the command to import. -/
def importOf (surplus : Bool) : Option String → Asked
  | some file => if surplus then .misuse else .run (.importRules file)
  | none => .misuse

/-- The arguments after the command to import. -/
def afterImport (surplus : Bool) (file : Option String) : List String → Asked
  | [] => importOf surplus file
  | a :: r =>
    match Argument.ofText a with
    | .help => .help
    | .helpWithValue => .misuse
    | .otherOption => afterImport true file r
    | .word =>
      match file with
      | none => afterImport surplus (some a) r
      | some f => afterImport true (some f) r
    | .divider =>
      match file, r with
      | none, [b] => importOf surplus (some b)
      | some f, [] => importOf surplus (some f)
      | _, _ => .misuse

/-- Arguments after some that were left over. -/
def read (surplus : Bool) : List String → Asked
  | [] => if surplus then .misuse else .run .serve
  | a :: r =>
    match Argument.ofText a with
    | .help => .help
    | .helpWithValue | .divider => .misuse
    | .otherOption => read true r
    | .word =>
      if a == "serve" then afterServe surplus r
      else if a == "import-rules" then afterImport surplus none r
      else .misuse

/-- What arguments ask for. -/
def ofArguments (args : List String) : Asked := read false args

/-- Without arguments the service is run. -/
example : ofArguments [] = .run .serve := by decide

end CommandLine

end Glasshouse
