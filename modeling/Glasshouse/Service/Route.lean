/-
Glasshouse.Service.Route — what a method at a place asks for. The first fitting
entry of a place counts, so that `test` and `bulk` are not taken for the number
of a rule where they have a meaning of their own.
-/
import Glasshouse.Service.Call

namespace Glasshouse.Service

/-- What a call asks for. Numbers of rules are not yet read. -/
inductive Route where
  | health | listRules | createRule | testConditions
  | setRules (on : Bool)
  | rule (id : String)
  | setRule (id : String) (on : Bool)
  | deleteRule (id : String)
  | executions (id : String)
  | stats (id : String)
  | trigger (id : String)
  | status | start | stop | tick
  deriving DecidableEq, Repr

namespace Route

/-- The routes of rules: each with its method, in order. -/
def ofRules : List String → List (String × Route)
  | [] => [("GET", .listRules), ("POST", .createRule)]
  | [""] => []
  | [id] => (if id == "test" then [("POST", .testConditions)] else []) ++
      [("GET", .rule id), ("DELETE", .deleteRule id)]
  | ["", _] => []
  | [id, "enable"] => [("POST", if id == "bulk" then .setRules true else .setRule id true)]
  | [id, "disable"] => [("POST", if id == "bulk" then .setRules false else .setRule id false)]
  | [id, "executions"] => [("GET", .executions id)]
  | [id, "stats"] => [("GET", .stats id)]
  | [id, "trigger"] => [("POST", .trigger id)]
  | _ => []

/-- The routes of the engine. -/
def ofEngine : List String → List (String × Route)
  | ["status"] => [("GET", .status)]
  | ["start"] => [("POST", .start)]
  | ["stop"] => [("POST", .stop)]
  | ["tick"] => [("POST", .tick)]
  | _ => []

/-- All routes of a place. -/
def ofPlace : List String → List (String × Route)
  | ["health"] => [("GET", .health)]
  | "api" :: "rules" :: r => ofRules r
  | "api" :: "engine" :: r => ofEngine r
  | _ => []

/-- A place without slashes at its end. -/
def trimmed (place : List String) : List String :=
  (place.reverse.dropWhile fun s => s.isEmpty).reverse

/-- What a call asks for, or the answer to a call that asks for nothing. -/
def ofCall (c : Call) : Except Answer Route :=
  match ofPlace c.place with
  | [] =>
    if c.place.getLast? == some "" && !(ofPlace (trimmed c.place)).isEmpty then
      .error .elsewhere
    else .error .nowhere
  | routes =>
    match routes.lookup c.method with
    | some r => .ok r
    | none => .error .methodUnknown

/-- Whether a route takes a body. -/
def takesBody : Route → Bool
  | createRule | testConditions | setRules _ | trigger _ => true
  | _ => false

end Route

end Glasshouse.Service
