/-
Glasshouse.Logging — the threshold below which messages are not logged, by
name. A name that no level has stands for the usual threshold; two names
belong to things that are no levels at all and are refused.
-/
import Glasshouse.Fault
import Glasshouse.Text.Case

namespace Glasshouse.Logging

/-- The levels by name. -/
def levels : List (String × Nat) := [
  ("CRITICAL", 50), ("FATAL", 50), ("ERROR", 40), ("WARNING", 30), ("WARN", 30),
  ("INFO", 20), ("DEBUG", 10), ("NOTSET", 0)]

/-- The threshold where nothing else is asked for. -/
def usual : Nat := 20

/-- The threshold of libraries that log too much. -/
def quiet : Nat := 30

/-- The threshold with a name, in any case. -/
def threshold (name : String) : Except Fault Nat :=
  let n := Text.upper name
  if n == "BASIC_FORMAT" then .error .levelIsText
  else if n == "_STYLES" then .error .levelIsTable
  else .ok ((levels.lookup n).getD usual)

end Glasshouse.Logging
