/-
Glasshouse.Rule — rules: a definition as it is authored, and the same with the
identity and the trigger history of a stored rule.
-/
import Glasshouse.Condition
import Glasshouse.Action
import Glasshouse.Calendar.Moment

namespace Glasshouse

/-- A rule as it is authored. -/
structure Definition where
  name : String
  description : Option String := none
  enabled : Bool := true
  /-- Smaller numbers come first. -/
  priority : Int := 5
  /-- Minutes for which a rule stays silent after it has fired. -/
  cooldown : Nat := 15
  conditions : Condition
  actions : List Action := []

/-- A stored rule. -/
structure Rule extends Definition where
  id : Int
  lastTriggered : Option Calendar.Moment := none
  triggerCount : Nat := 0

end Glasshouse
