/-
Glasshouse.Rule.Order — the order in which rules are processed: by priority,
and among equal priorities as they were processed the last time. A rule that
was not there then comes after those that were.
-/
import Glasshouse.Table
import Glasshouse.Rule

namespace Glasshouse

/-- The places that rules had the last time, by identity. -/
structure RuleOrder where
  places : Table Int Nat := []

namespace RuleOrder

/-- The places of identities in a list; of equal ones the last counts. -/
def placesOf (ids : List Int) : Table Int Nat :=
  ids.zipIdx.foldl (fun t p => t.put p.1 p.2) []

/-- The place of an identity, behind all places if it has none. -/
def place (o : RuleOrder) (count : Nat) (id : Int) : Nat :=
  (o.places.get? id).getD (o.places.length + count)

/-- Whether `a` may come before `b`: a smaller priority, or the same and no later place. -/
def before (o : RuleOrder) (count : Nat) (a b : Int × Int) : Bool :=
  a.2 < b.2 || (a.2 == b.2 && o.place count a.1 ≤ o.place count b.1)

/-- A list in order, by the identity and the priority of its elements, and the
order to remember. Elements that may come in either order keep theirs. -/
def sortBy {α : Type} (o : RuleOrder) (id priority : α → Int) (xs : List α) : List α × RuleOrder :=
  let sorted := xs.mergeSort fun a b =>
    o.before xs.length (id a, priority a) (id b, priority b)
  (sorted, ⟨placesOf (sorted.map id)⟩)

/-- Rules in the order in which they are processed. -/
def sort (o : RuleOrder) (rules : List Rule) : List Rule × RuleOrder :=
  o.sortBy (·.id) (·.priority) rules

theorem sortBy_perm {α : Type} (o : RuleOrder) (id priority : α → Int) (xs : List α) :
    (o.sortBy id priority xs).1.Perm xs :=
  List.mergeSort_perm ..

end RuleOrder

end Glasshouse
