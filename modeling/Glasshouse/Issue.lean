/-
Glasshouse.Issue — what the validation of a document finds wrong. An issue has
a cause and the path to the place it concerns; `Cause.kind` and `Cause.text`
are its only wording.
-/
import Glasshouse.Doc.Text
import Glasshouse.Url.Problem

namespace Glasshouse

/-- One step of a path into a document. -/
inductive Step where
  | key (s : String)
  | index (i : Int)
  deriving DecidableEq, Repr

/-- The step to the value of a key. -/
def Step.ofAtom : Atom → Step
  | .str s => .key s
  | .int n =>
    if -0x8000000000000000 ≤ n && n < 0x8000000000000000 then .index n else .key (toString n)
  | .bool b => .index (if b then 1 else 0)
  | a => .key a.inner

/-- Why a part of a document is refused. -/
inductive Cause where
  | missing
  | unknownKey
  | keyNotText
  | notText
  | textUndecodable
  | textTooShort
  | textTooLong (limit : Nat)
  | textUnmatched
  | notInteger
  | integerUnreadable
  | integerFractional
  | integerOversized
  | notFinite
  | notNumber
  | numberUnreadable
  | notTruth
  | truthUnreadable
  | notList
  | notTable
  | notAbove (bound : Nat)
  | below (bound : Nat)
  | tooFew
  | notMember (members : List String)
  | notLiteral (members : List String)
  | noTag
  | tagUnknown (tag : String) (expected : List String)
  | notNode
  | notDefinition
  | notBody
  | urlNotText
  | urlTooLong
  | urlMalformed (problem : Url.Problem)
  | urlScheme
  | negationArity (count : Nat)
  | weekdayUnknown (name : String)
  | weekdayOutOfRange
  | valueRequired
  | notMoment
  | momentMalformed (reason : String)
  | momentFromDate (reason : String)
  | textMalformed
  deriving DecidableEq, Repr

namespace Cause

/-- Alternatives between single quotes, the last one after "or". -/
def alternatives : List String → String
  | [] => ""
  | [a] => "'" ++ a ++ "'"
  | [a, b] => "'" ++ a ++ "' or '" ++ b ++ "'"
  | a :: r => "'" ++ a ++ "', " ++ alternatives r

/-- The short name of a cause. -/
def kind : Cause → String
  | missing => "missing"
  | unknownKey => "extra_forbidden"
  | keyNotText => "invalid_key"
  | notText => "string_type"
  | textUndecodable => "string_unicode"
  | textTooShort => "string_too_short"
  | textTooLong _ => "string_too_long"
  | textUnmatched => "string_pattern_mismatch"
  | notInteger => "int_type"
  | integerUnreadable => "int_parsing"
  | integerFractional => "int_from_float"
  | integerOversized => "int_parsing_size"
  | notFinite => "finite_number"
  | notNumber => "float_type"
  | numberUnreadable => "float_parsing"
  | notTruth => "bool_type"
  | truthUnreadable => "bool_parsing"
  | notList => "list_type"
  | notTable => "dict_type"
  | notAbove _ => "greater_than"
  | below _ => "greater_than_equal"
  | tooFew => "too_short"
  | notMember _ => "enum"
  | notLiteral _ => "literal_error"
  | noTag => "union_tag_not_found"
  | tagUnknown .. => "union_tag_invalid"
  | notNode | notBody => "model_attributes_type"
  | notDefinition => "model_type"
  | urlNotText => "url_type"
  | urlTooLong => "url_too_long"
  | urlMalformed _ => "url_parsing"
  | urlScheme => "url_scheme"
  | negationArity _ | weekdayUnknown _ | weekdayOutOfRange | valueRequired => "value_error"
  | notMoment => "datetime_type"
  | momentMalformed _ => "datetime_parsing"
  | momentFromDate _ => "datetime_from_date_parsing"
  | textMalformed => "json_invalid"

/-- The wording of a cause. -/
def text : Cause → String
  | missing => "Field required"
  | unknownKey => "Extra inputs are not permitted"
  | keyNotText => "Keys should be strings"
  | notText => "Input should be a valid string"
  | textUndecodable => "Input should be a valid string, unable to parse raw data as a unicode string"
  | textTooShort => "String should have at least 1 character"
  | textTooLong limit => s!"String should have at most {limit} characters"
  | textUnmatched => "String should match pattern '^([01]\\d|2[0-3]):[0-5]\\d$'"
  | notInteger => "Input should be a valid integer"
  | integerUnreadable => "Input should be a valid integer, unable to parse string as an integer"
  | integerFractional => "Input should be a valid integer, got a number with a fractional part"
  | integerOversized => "Unable to parse input string as an integer, exceeded maximum size"
  | notFinite => "Input should be a finite number"
  | notNumber => "Input should be a valid number"
  | numberUnreadable => "Input should be a valid number, unable to parse string as a number"
  | notTruth => "Input should be a valid boolean"
  | truthUnreadable => "Input should be a valid boolean, unable to interpret input"
  | notList => "Input should be a valid list"
  | notTable => "Input should be a valid dictionary"
  | notAbove bound => s!"Input should be greater than {bound}"
  | below bound => s!"Input should be greater than or equal to {bound}"
  | tooFew => "List should have at least 1 item after validation, not 0"
  | notMember members | notLiteral members => "Input should be " ++ alternatives members
  | noTag => "Unable to extract tag using discriminator 'type'"
  | tagUnknown tag expected =>
    "Input tag '" ++ tag ++ "' found using 'type' does not match any of the expected tags: "
      ++ ", ".intercalate (expected.map fun t => "'" ++ t ++ "'")
  | notNode | notBody =>
    "Input should be a valid dictionary or object to extract fields from"
  | notDefinition => "Input should be a valid dictionary or instance of RuleDefinition"
  | urlNotText => "URL input should be a string or URL"
  | urlTooLong => "URL should have at most 2083 characters"
  | urlMalformed problem => "Input should be a valid URL, " ++ problem.text
  | urlScheme => "URL scheme should be 'http' or 'https'"
  | negationArity count => s!"Value error, NOT group expects exactly one child, got {count}"
  | weekdayUnknown name => "Value error, Unknown weekday " ++ Text.quoted name
  | weekdayOutOfRange => "Value error, days_of_week values must be 0 (Sunday) to 6 (Saturday)"
  | valueRequired => "Value error, SET_VALUE requires a value"
  | notMoment => "Input should be a valid datetime"
  | momentMalformed reason => "Input should be a valid datetime, " ++ reason
  | momentFromDate reason => "Input should be a valid datetime or date, " ++ reason
  | textMalformed => "JSON decode error"

end Cause

/-- Something wrong at a place of a document. -/
structure Issue where
  path : List Step
  cause : Cause
  deriving DecidableEq, Repr

namespace Issue

/-- The issue seen from one step further out. -/
def under (s : Step) (i : Issue) : Issue := { i with path := s :: i.path }

/-- The issue as a document: kind, path and wording. -/
def toDoc (i : Issue) : Doc :=
  .record [
    ("type", .str i.cause.kind),
    ("loc", .ofList (fun
      | .key s => .str s
      | .index n => .int n) i.path),
    ("msg", .str i.cause.text)]

end Issue

end Glasshouse
