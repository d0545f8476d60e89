/-
Glasshouse.Rejection — why a rule is refused: its conditions or actions cannot
be read as JSON, or some part of it has issues. A rejection found further in
is carried outwards with the name of the rule or of the file in front.
-/
import Glasshouse.Issue

namespace Glasshouse

/-- The parts of a rule that may come as a JSON text. -/
inductive Part where
  | conditions | actions
  deriving DecidableEq, Repr

/-- The name of a part at the beginning of a message. -/
def Part.title : Part → String
  | conditions => "Conditions"
  | actions => "Actions"

/-- Why a rule is refused. -/
inductive Rejection where
  | unreadable (part : Part) (reason : String)
  | tree (issues : List Issue)
  | actionList (issues : List Issue)
  | actionsNotList
  | definition (issues : List Issue)
  | fields (issues : List Issue)
  | inRule (label : String) (inner : Rejection)
  | inFile (file : String) (index : Nat) (inner : Rejection)
  deriving DecidableEq, Repr

namespace Rejection

/-- Everything that is wrong, where single issues are known. -/
def issues : Rejection → List Issue
  | unreadable .. | actionsNotList => []
  | tree is | actionList is | definition is | fields is => is
  | inRule _ r | inFile _ _ r => r.issues

/-- The number of issues in words. -/
def countText (is : List Issue) : String :=
  s!"{is.length} error(s)"

/-- The wording of a rejection. -/
def message : Rejection → String
  | unreadable part reason => part.title ++ " are not valid JSON: " ++ reason
  | tree is => "Invalid condition tree: " ++ countText is
  | actionList is => "Invalid action list: " ++ countText is
  | actionsNotList => "Actions must be a list"
  | definition is => "Invalid rule definition: " ++ countText is
  | fields is => countText is
  | inRule label r => "Rule " ++ label ++ " is invalid: " ++ r.message
  | inFile file index r => s!"{file} rule #{index}: " ++ r.message

end Rejection

/-- Why a reading has no value: the rule is refused, or a fault ended the reading. -/
inductive Refusal where
  | rejected (r : Rejection)
  | fault (f : Fault)

namespace Refusal

/-- The wording of a refusal. -/
def text : Refusal → String
  | rejected r => r.message
  | fault f => f.text

/-- A refusal as seen from around it; faults are passed on as they are. -/
def within (f : Rejection → Rejection) : Refusal → Refusal
  | rejected r => rejected (f r)
  | fault e => fault e

end Refusal

end Glasshouse
