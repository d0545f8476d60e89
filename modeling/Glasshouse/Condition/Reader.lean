/-
Glasshouse.Condition.Reader — condition trees read from documents. A node is a
table with a tag under `type`, a bare list (all of its elements), or a table
without tag that has `children` or `rules`. Tags, operators, aggregations and
weekdays are read in any case; comparisons also as symbols.
-/
import Glasshouse.Condition
import Glasshouse.Schema
import Glasshouse.Json.Reader
import Glasshouse.Rejection

namespace Glasshouse

open Schema

/-! ## Spellings -/

/-- Symbols for comparisons. -/
def comparisonSymbols : List (String × String) :=
  [(">", "GT"), (">=", "GTE"), ("<", "LT"), ("<=", "LTE"), ("==", "EQ"), ("=", "EQ"), ("!=", "NEQ")]

/-- An operator without blanks around it, in capitals or by its symbol. -/
def operatorName (s : String) : String :=
  let t := Text.trim s
  (comparisonSymbols.lookup t).getD (Text.upper t)

/-- A comparison by name or symbol. -/
def Comparison.read (d : Doc) : Checked Comparison :=
  oneOf .notMember (Comparison.all.map fun c => (c.name, c)) (onText operatorName d)

/-- The operator of a group. -/
def Logic.read (d : Doc) : Checked Logic :=
  oneOf .notMember (Logic.all.map fun c => (c.name, c)) (onText operatorName d)

/-- An aggregation in any case. -/
def Aggregation.read (d : Doc) : Checked Aggregation :=
  oneOf .notMember (Aggregation.all.map fun c => (c.name, c)) (onText Text.upper d)

/-- The direction of a trend. -/
def Trend.read (d : Doc) : Checked Trend :=
  oneOf .notMember (Trend.all.map fun c => (c.name, c)) d

/-! ## Times and weekdays -/

/-- Whether characters are a time of day `HH:MM`; the last digit of the hour
and of the minute may be a digit of any script. -/
def isTimeOfDay : List Char → Bool
  | [h, i, ':', m, n] =>
    (((h == '0' || h == '1') && Text.isDigit i) || (h == '2' && '0' ≤ i && i ≤ '3'))
      && '0' ≤ m && m ≤ '5' && Text.isDigit n
  | _ => false

/-- A time of day. -/
def readTimeOfDay (d : Doc) : Checked String :=
  (text d).andThen fun s => if isTimeOfDay s.toList then .ok s else .flaw .textUnmatched

/-- The names of the weekdays by their first three letters. -/
def weekdays : List (String × Int) :=
  [("sun", 0), ("mon", 1), ("tue", 2), ("wed", 3), ("thu", 4), ("fri", 5), ("sat", 6)]

/-- The weekday with a name, whatever follows its first three letters. -/
def weekdayOf? (s : String) : Option Int :=
  weekdays.lookup (String.ofList ((Text.lower (Text.trim s)).toList.take 3))

/-- Names of weekdays replaced by their numbers; the first unknown name is the issue. -/
def nameDays : List Doc → Checked (List Doc)
  | [] => .ok []
  | .str s :: r =>
    match weekdayOf? s with
    | none => .flaw (.weekdayUnknown s)
    | some n => (nameDays r).map (.int n :: ·)
  | d :: r => (nameDays r).map (d :: ·)

/-- Whether a number lies between 0 and 6; other values have no order with numbers. -/
def isWeekNumber (d : Doc) : Except Fault Bool :=
  match d with
  | .int n => .ok (0 ≤ n && n ≤ 6)
  | .bool _ => .ok true
  | .num x => .ok (0.0 ≤ x && x ≤ 6.0)
  | d => .error (.notComparable d.kindName)

/-- All days lie in a week; the first that does not decides. -/
def checkDays : List Doc → Checked Unit
  | [] => .ok ()
  | d :: r =>
    match isWeekNumber d with
    | .error e => .broken e
    | .ok false => .flaw .weekdayOutOfRange
    | .ok true => checkDays r

/-- Days without repetition; the first of equal ones stays. -/
def distinctDays : List Doc → List Doc
  | [] => []
  | .atom a :: r =>
    let rest := distinctDays r
    .atom a :: rest.filter fun
      | .atom b => !a.sameKey b
      | _ => true
  | d :: r => d :: distinctDays r

/-- The whole part of a day, by which the days of a set are ordered. -/
def dayRank : Doc → Nat
  | .int n => n.toNat
  | .bool b => if b then 1 else 0
  | .num x => x.toUInt64.toNat
  | _ => 0

/-- A set of weekdays: names, or numbers from 0 for Sunday. -/
def readDays : Doc → Checked (Option (List Nat))
  | .null => .ok none
  | d =>
    match d.members with
    | .error e => .broken e
    | .ok ms =>
      (nameDays ms).andThen fun ds =>
        (checkDays ds).andThen fun _ =>
          let ordered := (distinctDays ds).mergeSort fun a b => dayRank a ≤ dayRank b
          (Checked.each integer 0 ordered).map fun ns =>
            some (((ns.map Int.toNat).mergeSort (· ≤ ·)))

/-! ## Leaves -/

namespace Key

def type : FieldName := .same "type"
def operator : FieldName := .same "operator"
def children : FieldName := .same "children"
def field : FieldName := .same "field"
def value : FieldName := .same "value"
def threshold : FieldName := .same "threshold"
def aggregation : FieldName := .same "aggregation"
def trend : FieldName := .same "trend"
def sensorId : FieldName := ⟨"sensor_id", "sensorId"⟩
def deviceId : FieldName := ⟨"device_id", "deviceId"⟩
def expectedStatus : FieldName := ⟨"expected_status", "expectedStatus"⟩
def maxDataAge : FieldName := ⟨"max_data_age_minutes", "maxDataAgeMinutes"⟩
def timeStart : FieldName := ⟨"time_start", "timeStart"⟩
def timeEnd : FieldName := ⟨"time_end", "timeEnd"⟩
def daysOfWeek : FieldName := ⟨"days_of_week", "daysOfWeek"⟩
def windowMinutes : FieldName := ⟨"window_minutes", "windowMinutes"⟩
def slopeThreshold : FieldName := ⟨"slope_threshold", "slopeThreshold"⟩
def timeoutMinutes : FieldName := ⟨"timeout_minutes", "timeoutMinutes"⟩

end Key

/-- A test of a sensor's latest reading. -/
def SensorTest.read (o : Fields) : Checked SensorTest :=
  SensorTest.mk <$> required o Key.sensorId filledText <*> required o Key.field filledText
    <*> required o Key.operator Comparison.read <*> required o Key.value double
    <*> optional o Key.maxDataAge 10 natural
    <* noOthers o [Key.type, Key.sensorId, Key.field, Key.operator, Key.value, Key.maxDataAge]

/-- A test of a device's status. -/
def DeviceTest.read (o : Fields) : Checked DeviceTest :=
  DeviceTest.mk <$> required o Key.deviceId filledText <*> required o Key.expectedStatus filledText
    <* noOthers o [Key.type, Key.deviceId, Key.expectedStatus]

/-- A test of the local time. -/
def TimeTest.read (o : Fields) : Checked TimeTest :=
  TimeTest.mk <$> required o Key.timeStart readTimeOfDay <*> required o Key.timeEnd readTimeOfDay
    <*> optional o Key.daysOfWeek none readDays
    <* noOthers o [Key.type, Key.timeStart, Key.timeEnd, Key.daysOfWeek]

/-- A test of an aggregate. -/
def HistoryTest.read (o : Fields) : Checked HistoryTest :=
  HistoryTest.mk <$> required o Key.sensorId filledText <*> required o Key.field filledText
    <*> required o Key.aggregation Aggregation.read <*> required o Key.windowMinutes positive
    <*> required o Key.operator Comparison.read <*> required o Key.threshold double
    <* noOthers o [Key.type, Key.sensorId, Key.field, Key.aggregation, Key.windowMinutes,
      Key.operator, Key.threshold]

/-- A test of a trend. -/
def TrendTest.read (o : Fields) : Checked TrendTest :=
  TrendTest.mk <$> required o Key.sensorId filledText <*> required o Key.field filledText
    <*> required o Key.trend Trend.read <*> required o Key.windowMinutes positive
    <*> optional o Key.slopeThreshold 0.01 nonNegative
    <* noOthers o [Key.type, Key.sensorId, Key.field, Key.trend, Key.windowMinutes,
      Key.slopeThreshold]

/-- A test of a sign of life. -/
def HeartbeatTest.read (o : Fields) : Checked HeartbeatTest :=
  HeartbeatTest.mk <$> required o Key.sensorId filledText
    <*> required o Key.timeoutMinutes positive
    <* noOthers o [Key.type, Key.sensorId, Key.timeoutMinutes]

/-- The readers of leaves by tag. -/
def leafReaders : List (String × (Fields → Checked Leaf)) := [
  ("sensor", fun o => .sensor <$> SensorTest.read o),
  ("device", fun o => .device <$> DeviceTest.read o),
  ("time", fun o => .time <$> TimeTest.read o),
  ("history", fun o => .history <$> HistoryTest.read o),
  ("trend", fun o => .trend <$> TrendTest.read o),
  ("heartbeat", fun o => .heartbeat <$> HeartbeatTest.read o)]

/-! ## Nodes -/

/-- The tags of nodes in the order in which messages list them. -/
def nodeTags : List String := "group" :: leafReaders.map (·.1)

/-- Longer names of tags. -/
def tagAliases : List (String × String) :=
  [("sensor_history", "history"), ("sensor_trend", "trend"), ("sensor_heartbeat", "heartbeat")]

/-- A tag without blanks around it, in small letters and by its short name. -/
def tagName (s : String) : String :=
  let t := Text.lower (Text.trim s)
  (tagAliases.lookup t).getD t

/-- The tag of a table. A table without one is a group if it has children. -/
def nodeTag? (o : Fields) : Option Doc :=
  match Fields.get? "type" o with
  | some d => some (onText tagName d)
  | none => if Fields.has "rules" o || Fields.has "children" o then some (.str "group") else none

namespace Condition

/-- The children of a group among the readings of its fields: `rules` goes
before `children`, and a group may have neither. -/
def childrenIn (o : List (Atom × Checked (List Condition))) : Checked (List Condition) :=
  let named (k : String) := (o.find? fun p => p.1.isText k).map (·.2)
  ((named "rules").orElse fun _ => named "children").getD (.ok [])

/-- A group from its table and the reading of its children. -/
def readGroup (o : Fields) (children : Checked (List Condition)) : Checked Condition :=
  let o := Fields.erase "rules" o
  let parts := Prod.mk <$> optional o Key.operator .and Logic.read
    <*> children.under (.key "children") <* noOthers o [Key.type, Key.operator, Key.children]
  parts.andThen fun (op, cs) => .ofOption (.negationArity cs.length) (group? op cs)

/-- A node from its table and the readings of its fields as lists of children. -/
def readTable (o : Fields) (children : Checked (List Condition)) : Checked Condition :=
  match nodeTag? o with
  | none => .flaw .noTag
  | some (.str "group") => (readGroup o children).under (.key "group")
  | some tag =>
    match leafReaders.lookup tag.text with
    | some read => (leaf <$> read o).under (.key tag.text)
    | none => .flaw (.tagUnknown tag.text nodeTags)

/-- Values that stand where nodes should, none of them a node. -/
def notNodes (i : Nat) : List Doc → Checked (List Condition)
  | [] => .ok []
  | _ :: r =>
    (fun _ cs => cs) <$> ((.flaw .notNode : Checked Unit).under (.index i)) <*> notNodes (i + 1) r

/-- A scalar, which is no node. A node that nests without end ends the reading. -/
def readAtom : Atom → Checked Condition
  | .endless => .broken .endless
  | _ => .flaw .notNode

mutual

/-- A node. -/
def read : Doc → Checked Condition
  | .list xs => (((readList 0 xs).under (.key "children")).under (.key "group")).map .all
  | .obj o => readTable o (childrenIn (readFields o))
  | .set _ => .flaw .notNode
  | .atom a => readAtom a

/-- The fields of a table, each read as a list of nodes. -/
def readFields : List (Atom × Doc) → List (Atom × Checked (List Condition))
  | [] => []
  | (k, v) :: r => (k, readChildren v) :: readFields r

/-- A list of nodes; other containers have members that are no nodes. -/
def readChildren : Doc → Checked (List Condition)
  | .list xs => readList 0 xs
  | .obj o => notNodes 0 (o.map fun f => .atom f.1)
  | .set xs => notNodes 0 (xs.map .atom)
  | .atom a =>
    match (Doc.atom a).members with
    | .ok ms => notNodes 0 ms
    | .error e => .broken e

/-- The nodes of a list, from index `i` on. -/
def readList (i : Nat) : List Doc → Checked (List Condition)
  | [] => .ok []
  | d :: r => List.cons <$> (read d).under (.index i) <*> readList (i + 1) r

end

/-- The condition tree of a document, which may itself be a JSON text. -/
def parse (d : Doc) : Except Refusal Condition :=
  match d with
  | .str s =>
    match Json.read s with
    | .ok d => accept (read d)
    | .error f => .error (.rejected (.unreadable .conditions (f.message s)))
  | d => accept (read d)
where
  /-- A reading with all of its issues in one rejection. -/
  accept : Checked Condition → Except Refusal Condition
    | .ok c => .ok c
    | .flawed is => .error (.rejected (.tree is))
    | .broken e => .error (.fault e)

end Condition

end Glasshouse
