/-
Glasshouse.Fault — what can go wrong outside of the validation of documents:
arithmetic on dates, lookups, writes that the store refuses, actions and
transports that fail. A fault is a cause; `Fault.text` is its only wording.
-/
import Glasshouse.Text.Quoted
import Glasshouse.Number.Rounding

namespace Glasshouse

/-- The kinds of fault that a collaborator outside of this library may raise. -/
inductive ForeignKind where
  | runtime | key | value | connection | timeout | system | connect | readTimeout
  deriving DecidableEq, Repr

namespace ForeignKind

/-- The name under which a kind is recorded when it comes without a text. -/
def label : ForeignKind → String
  | .runtime => "RuntimeError"
  | .key => "KeyError"
  | .value => "ValueError"
  | .connection => "ConnectionError"
  | .timeout => "TimeoutError"
  | .system => "OSError"
  | .connect => "ConnectError"
  | .readTimeout => "ReadTimeout"

/-- Every kind. -/
def all : List ForeignKind :=
  [.runtime, .key, .value, .connection, .timeout, .system, .connect, .readTimeout]

/-- The kind with a given name. -/
def ofLabel? (s : String) : Option ForeignKind :=
  all.find? (·.label == s)

/-- Faults of the transport itself, as opposed to those of the code around it. -/
def isTransport : ForeignKind → Bool
  | .connect | .readTimeout => true
  | _ => false

end ForeignKind

/-- What went wrong. -/
inductive Fault where
  /-- A date outside of the years 1 to 9999. -/
  | dateOutOfRange
  /-- A span of more than 999999999 days. -/
  | spanTooLong (days : Int)
  /-- A span whose number of days has no 32 bit form. -/
  | spanUncountable
  /-- A time with an offset subtracted from one without, or the reverse. -/
  | mixedSubtraction
  /-- A time with an offset compared with one without. -/
  | mixedComparison
  | zoneUnknown (name : String)
  | zoneMalformed (name : String)
  /-- Members were asked of a value that has none. -/
  | notIterable (what : String)
  /-- A number was compared with a value that has no order with numbers. -/
  | notComparable (what : String)
  | ruleMissing (id : Int)
  | deviceMissing (id : String)
  | commandUnknown (name : String)
  /-- An integer outside of 64 bits was handed to the store. -/
  | integerTooLarge
  /-- A row without a required value, or with a key that exists. -/
  | constraintViolated
  | columnUnknown (name : String)
  /-- A value of a kind that a column cannot hold. -/
  | columnMistyped (name : String)
  /-- A value that is no node of a condition tree. -/
  | nodeUnsupported (what : String)
  /-- A sum that is no number. -/
  | sumUndefined
  /-- The name of a text was given as the name of a logging level. -/
  | levelIsText
  /-- The name of a table was given as the name of a logging level. -/
  | levelIsTable
  /-- Characters from a place on that have no ASCII form. -/
  | notAscii (place : Nat) (run : List Char)
  | actionTimedOut (action : String) (seconds : Float)
  | notDelivered (channels : List String)
  /-- An answer that is not a success. -/
  | badStatus (text : String)
  | foreign (kind : ForeignKind) (message : Option String)
  deriving Repr

namespace Fault

/-- The fault of a recursion into a document that contains itself. -/
def endless : Fault := .foreign .runtime (some "maximum recursion depth exceeded")

/-- The fault of writing out a document that contains itself. -/
def circular : Fault := .foreign .value (some "Circular reference detected (id repeated)")

/-- The wording of a fault; empty for a foreign fault that came without one. -/
def text : Fault → String
  | dateOutOfRange => "date value out of range"
  | spanTooLong days => s!"days={days}; must have magnitude <= 999999999"
  | spanUncountable => "Python int too large to convert to C int"
  | mixedSubtraction => "can't subtract offset-naive and offset-aware datetimes"
  | mixedComparison => "can't compare offset-naive and offset-aware datetimes"
  | zoneUnknown name => Text.quoted ("No time zone found with key " ++ name)
  | zoneMalformed name => "ZoneInfo keys must be normalized relative paths, got: " ++ name
  | notIterable what => Text.quoted what ++ " object is not iterable"
  | notComparable what => "'<=' not supported between instances of 'int' and " ++ Text.quoted what
  | ruleMissing id => s!"Rule {id} not found"
  | deviceMissing id => "Device " ++ Text.quoted id ++ " not found"
  | commandUnknown name => "Unknown device action: " ++ Text.quoted name
  | integerTooLarge => "Python int too large to convert to SQLite INTEGER"
  | constraintViolated => "constraint failed"
  | columnMistyped name => "Column " ++ Text.quoted name ++ " cannot hold the value"
  | columnUnknown name => Text.quoted name ++ " is an invalid keyword argument"
  | nodeUnsupported what => "Unsupported condition node: " ++ what
  | sumUndefined => "float() argument must be a string or a real number, not 'NoneType'"
  | levelIsText => "Unknown level: '%(levelname)s:%(name)s:%(message)s'"
  | levelIsTable => "Level not an integer or a valid string"
  | notAscii place run =>
    let which := match run with
      | [c] => " '" ++ Text.escaped c ++ "' in position " ++ toString place
      | _ => s!"s in position {place}-{place + run.length - 1}"
    "'ascii' codec can't encode character" ++ which ++ ": ordinal not in range(128)"
  | actionTimedOut action seconds =>
    "Action " ++ Text.quoted action ++ " timed out after " ++ Number.fixedText 1 seconds ++ "s"
  | notDelivered channels => "Notification not delivered on: " ++ ", ".intercalate channels
  | badStatus text => text
  | foreign .key (some m) => Text.quoted m
  | foreign _ m => m.getD ""

/-- The text under which a fault is recorded: its wording, or the name of its kind
where the wording is empty. -/
def record (f : Fault) : String :=
  let t := f.text
  if t.isEmpty then
    match f with
    | foreign kind _ => kind.label
    | _ => "RuntimeError"
  else t

end Fault

end Glasshouse
