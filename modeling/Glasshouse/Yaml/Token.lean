/-
Glasshouse.Yaml.Token — the words of a text: markers of documents, of lists
and tables in their two styles, properties of nodes and scalars.
-/
import Glasshouse.Yaml.Cursor

namespace Glasshouse.Yaml

/-- An instruction in front of a document. -/
inductive Directive where
  | version (major : Nat)
  | handle (name : String) (stands : String)
  | other

/-- A word of a text. -/
inductive Token where
  | directive (d : Directive)
  | documentStart
  | documentEnd
  /-- The begin of a list whose entries stand on lines. -/
  | entriesStart
  /-- The begin of a table whose keys stand on lines. -/
  | keysStart
  /-- The end of a list or table on lines. -/
  | blockEnd
  | listOpen
  | listClose
  | tableOpen
  | tableClose
  | comma
  | entry
  | key
  | value
  | alias (name : String)
  | anchor (name : String)
  | tag (handle : Option String) (suffix : String)
  | scalar (text : String) (plain : Bool)

end Glasshouse.Yaml
