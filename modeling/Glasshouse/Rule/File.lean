/-
Glasshouse.Rule.File — files with a list of rule definitions under the key
`rules`. A file that holds nothing, or has no such key, holds no rules; the
first definition that is refused ends the reading.
-/
import Glasshouse.Rule.Reader
import Glasshouse.Yaml

namespace Glasshouse.RuleFile

/-- Why a file has no rules to give. -/
inductive Failure where
  | unreadable (p : Yaml.Problem)
  | refused (r : Refusal)

/-- Whether a text contains a word. -/
def containsWord (w : List Char) : List Char → Bool
  | [] => w.isEmpty
  | c :: r => w.isPrefixOf (c :: r) || containsWord w r

/-- The value under the key of the rules, if the document has that key. A document
that only mentions the word has no such value to give. -/
def rulesIn (d : Doc) : Except Fault (Option Doc) :=
  let mentioned (b : Bool) : Except Fault (Option Doc) :=
    if b then .error (.notIterable d.kindName) else .ok none
  match d with
  | .obj o => .ok (Fields.get? "rules" o)
  | .list xs => mentioned (xs.any fun
    | .str s => s == "rules"
    | _ => false)
  | .set xs => mentioned (xs.any fun a => a.isText "rules")
  | .str s => mentioned (containsWord "rules".toList s.toList)
  | _ => .error (.notIterable d.kindName)

/-- The definitions in order; a refusal names the file and the place. -/
def definitions (file : String) (i : Nat) : List Doc → Except Refusal (List Definition)
  | [] => .ok []
  | d :: r =>
    match Definition.parse d with
    | .error e => .error (e.within (.inFile file i))
    | .ok x => (definitions file (i + 1) r).map (x :: ·)

/-- The definitions of a document. -/
def ofDoc (file : String) (d : Doc) : Except Refusal (List Definition) :=
  if !d.truthy then .ok []
  else
    match rulesIn d with
    | .error e => .error (.fault e)
    | .ok none => .ok []
    | .ok (some rules) =>
      match rules.members with
      | .error e => .error (.fault e)
      | .ok ds => definitions file 0 ds

/-- The definitions that the text of a file holds. -/
def read (file : String) (text : String) : Except Failure (List Definition) :=
  match Yaml.read text with
  | .error p => .error (.unreadable p)
  | .ok d => (ofDoc file d).mapError .refused

end Glasshouse.RuleFile
