/-
Glasshouse.Cooldown — when rules fired last, how often, and how long they stay
silent afterwards. The time of the last trigger only moves forward, so that
merging in an old record never opens a window again.
-/
import Glasshouse.Table
import Glasshouse.Rule

namespace Glasshouse

open Calendar

/-- The trigger history of rules by identity. -/
structure Cooldown where
  last : Table Int Moment := []
  counts : Table Int Nat := []
  /-- Minutes of silence. -/
  minutes : Table Int Nat := []

namespace Cooldown

/-- When a rule fired last. -/
def lastTriggered (t : Cooldown) (id : Int) : Option Moment := t.last.get? id

/-- How often a rule has fired. -/
def triggerCount (t : Cooldown) (id : Int) : Nat := (t.counts.get? id).getD 0

/-- Everything about a rule dropped. -/
def forget (t : Cooldown) (id : Int) : Cooldown :=
  { last := t.last.erase id, counts := t.counts.erase id, minutes := t.minutes.erase id }

/-- The later of a remembered time and a new one. -/
def later (current : Option Moment) (m : Moment) : Except Fault Moment :=
  match current with
  | none => .ok m
  | some c => do if ← m.after c then .ok m else .ok c

/-- A time merged in as the last trigger of a rule, if it lies later. -/
def advance (t : Cooldown) (id : Int) (m : Moment) : Except Fault Cooldown := do
  let l ← later (t.last.get? id) m
  .ok { t with last := t.last.put id l }

/-- The record of a rule merged in. The length of the silence is taken over even
where the times cannot be compared. -/
def sync (t : Cooldown) (r : Rule) : Except Fault Unit × Cooldown :=
  let t := { t with minutes := t.minutes.put r.id r.cooldown }
  let counted (t : Cooldown) : Cooldown :=
    { t with counts := t.counts.put r.id (max (t.triggerCount r.id) r.triggerCount) }
  match r.lastTriggered with
  | none => (.ok (), counted t)
  | some m =>
    match t.advance r.id m with
    | .ok t => (.ok (), counted t)
    | .error e => (.error e, t)

/-- The records of rules merged in one by one, up to the first that cannot be. -/
def syncAll (t : Cooldown) : List Rule → Except Fault Unit × Cooldown
  | [] => (.ok (), t)
  | r :: rs =>
    match t.sync r with
    | (.ok (), t) => syncAll t rs
    | (.error e, t) => (.error e, t)

/-- The rules that something is remembered about. -/
def known (t : Cooldown) : List Int :=
  t.minutes.keys ++ t.counts.keys

/-- The rules of a round merged in; others are forgotten. -/
def refresh (t : Cooldown) (rules : List Rule) : Except Fault Unit × Cooldown :=
  let gone := t.known.filter fun id => !(rules.any fun r => r.id == id)
  (gone.foldl forget t).syncAll rules

/-- The silence of a rule as a span. -/
def silence (t : Cooldown) (id : Int) : Except Fault Span :=
  Span.ofMinutes? ((t.minutes.get? id).getD 0)

/-- Whether a rule may fire. -/
def eligible (t : Cooldown) (id : Int) (now : Moment) : Except Fault Bool :=
  match t.last.get? id with
  | none => .ok true
  | some l => do
    let since ← now.minus l
    let span ← t.silence id
    .ok (decide (span ≤ since))

/-- The time until a rule may fire again. -/
def remaining (t : Cooldown) (id : Int) (now : Moment) : Except Fault Span :=
  match t.last.get? id with
  | none => .ok 0
  | some l => do
    let span ← t.silence id
    let since ← now.minus l
    let left ← Span.check (span - since)
    .ok (max left 0)

/-- A trigger noted; gives the time and the count to store. -/
def mark (t : Cooldown) (id : Int) (now : Moment) : Except Fault ((Moment × Nat) × Cooldown) := do
  let l ← later (t.last.get? id) now
  let n := t.triggerCount id + 1
  .ok ((l, n), { t with last := t.last.put id l, counts := t.counts.put id n })

end Cooldown

end Glasshouse
