/-
Glasshouse.Proofs.Rule.Authoring — from an authored document to the rule that is
loaded from the store. A definition that is accepted is stored under its own
columns, and its row is read as the same definition, with the free values of
its actions in plain form, as long as the addresses of its webhooks are read
again. Main statement: `createRule_loads`.

Side conditions of the main statement. None, but that the document is accepted and
stored. Free values come back in plain form: a number that is not finite has none in
JSON and is stored as null. An address that has become too long by its escapes is
refused when it is read again, and with it the row. Escaping and hosts are those of
`Url`, whose limits about names beyond ASCII apply.
-/
import Glasshouse.Proofs.Rule.Actions
import Glasshouse.Proofs.Engine.History

namespace Glasshouse

open Calendar Schema

namespace Schema

theorem boundedText_eq_ok {n : Nat} {d : Doc} {s : String} :
    boundedText n d = .ok s ↔ text d = .ok s ∧ s ≠ "" ∧ s.length ≤ n := by
  unfold boundedText
  rw [Checked.andThen_eq_ok]
  constructor
  · rintro ⟨t, ht, h⟩
    split at h
    · cases h
    · rename_i hempty
      split at h
      · cases h
      · rename_i hlong
        cases h
        exact ⟨ht, fun hs => hempty (by rw [hs]; rfl), Nat.not_lt.1 hlong⟩
  · rintro ⟨ht, hs, hlong⟩
    refine ⟨s, ht, ?_⟩
    rw [if_neg (by simpa using hs), if_neg (Nat.not_lt.2 hlong)]

end Schema

namespace Definition

/-- A definition as it can be read. -/
structure Legible (x : Definition) : Prop where
  named : x.name ≠ ""
  short : x.name.length ≤ maxNameLength
  conditions : Condition.parse x.conditions.toDoc = .ok x.conditions
  actions : ∀ a ∈ x.actions, a.Legible

/-- A definition with the free values of its actions in plain form. -/
def plain (x : Definition) : Definition :=
  { x with actions := x.actions.map Action.plain }

theorem readConditions_eq_ok {o : Fields} {x : Checked Condition} {c : Condition}
    (h : readConditions o = .ok x) (hx : x = .ok c) : ∃ d, Condition.parse d = .ok c := by
  subst hx
  unfold readConditions at h
  split at h
  · obtain ⟨p, -, hp⟩ := read_of_required (Except.ok.inj h)
    cases hp
  · rename_i d _
    obtain ⟨c', hc, hx⟩ := map_eq_ok.1 h
    cases hx
    exact ⟨d, hc⟩

/-- A definition that is accepted is legible; one in a JSON document has JSON documents
for its free values. -/
theorem legible_of_parse {d : Doc} {x : Definition} (h : parse d = .ok x) : x.Legible
    ∧ (d.IsJson → ∀ a ∈ x.actions, ∀ v ∈ a.freeValues, (Doc.obj v).IsJson) := by
  unfold parse at h
  split at h
  · rename_i o
    obtain ⟨y, hy, h⟩ := bind_eq_ok.1 h
    replace h := accept_eq_ok.1 h
    unfold readFields at hy
    obtain ⟨c, hc, hy⟩ := bind_eq_ok.1 hy
    obtain ⟨as, has, hy⟩ := bind_eq_ok.1 hy
    cases hy
    simp only [Checked.seq_eq_ok, Checked.fmap_eq_ok] at h
    obtain ⟨_, _, ⟨_, conditions, ⟨_, _, ⟨_, _, ⟨_, _, ⟨_, _, ⟨name, hname, rfl⟩, -, rfl⟩, -, rfl⟩, -, rfl⟩,
      -, rfl⟩, hconditions, rfl⟩, hactions, rfl⟩ := h
    cases hactions
    obtain ⟨_, -, hname⟩ := read_of_required hname
    obtain ⟨-, hnamed, hshort⟩ := boundedText_eq_ok.1 hname
    obtain ⟨_, hparse⟩ := readConditions_eq_ok hc hconditions
    unfold readActions at has
    cases ha : Fields.get? "actions" o with
    | none =>
      rw [ha] at has
      cases has
      exact ⟨⟨hnamed, hshort, Condition.parse_toDoc hparse, nofun⟩, fun _ => nofun⟩
    | some v =>
      rw [ha] at has
      refine ⟨⟨hnamed, hshort, Condition.parse_toDoc hparse, Action.legible_of_parse has⟩,
        fun hd a hmem => ?_⟩
      obtain ⟨ds, hds, hjson⟩ := Action.read_of_parse has
      obtain ⟨e, he, hread⟩ := exists_of_mem_right hds hmem
      exact Action.isJson_of_read (hjson (hd.get ha) e he) hread
  · cases h

end Definition

namespace Definition

/-- Whether all numbers among the free values of a definition are finite. -/
def finite (x : Definition) : Bool := x.actions.all Action.finite

theorem plain_eq_iff {x : Definition}
    (h : ∀ a ∈ x.actions, ∀ v ∈ a.freeValues, (Doc.obj v).IsJson) :
    x.plain = x ↔ x.finite = true := by
  have hmap : x.plain = x ↔ x.actions.map Action.plain = x.actions :=
    ⟨congrArg Definition.actions, fun h => by rw [plain, h]⟩
  rw [hmap, finite, List.all_eq_true]
  constructor
  · intro heq a ha
    exact (Action.plain_eq_iff (h a ha)).1 (map_eq_self_iff.1 heq a ha)
  · exact fun hall => map_eq_self_iff.2 fun a ha => (Action.plain_eq_iff (h a ha)).2 (hall a ha)

/-- What is wrong with the addresses of a definition's actions when it is loaded. -/
def longAddresses (x : Definition) : List Issue := Action.longAddresses 0 x.actions

end Definition

namespace RuleRow

/-- A row later on: switched on or off, and with a history. -/
def later (row : RuleRow) (on : Bool) (last : Option Instant) (count : Nat) : RuleRow :=
  { row with enabled := on, lastTriggered := last, triggerCount := count }

/-- The columns of a stored definition are read as that definition, unless there are
addresses that are too long. -/
theorem readFields_later {x : Definition} (h : x.Legible) (id : Int) (on : Bool)
    (last : Option Instant) (count : Nat) :
    Definition.readFields ((ofDefinition id x).later on last count).fields
      = if x.longAddresses = [] then .ok (.ok { x.plain with enabled := on })
        else .error (.rejected (.actionList x.longAddresses)) := by
  have hname : boundedText maxNameLength (.str x.name) = .ok x.name :=
    boundedText_eq_ok.2 ⟨rfl, h.named, h.short⟩
  unfold Definition.readFields Definition.longAddresses
  rw [readConditions_fields, readActions_fields]
  simp only [show ((ofDefinition id x).later on last count).conditions = x.conditions.toDoc from rfl,
    show ((ofDefinition id x).later on last count).actions = Action.listToDoc x.actions from rfl,
    h.conditions, Action.parse_listToDoc h.actions]
  by_cases hshort : Action.longAddresses 0 x.actions = []
  · rw [if_pos hshort, if_pos hshort, required_of_find rfl hname,
      optional_of_find rfl (nullable_text x.description), optional_of_find rfl (truth_bool on),
      optional_of_find rfl (integer_int x.priority), optional_of_find rfl (natural_nat x.cooldown)]
    rfl
  · rw [if_neg hshort, if_neg hshort]
    rfl

/-- A stored definition is loaded as a rule that says the same, whatever its history,
unless there are addresses that are too long. -/
theorem toRule_later {x : Definition} (h : x.Legible) (id : Int) (on : Bool)
    (last : Option Instant) (count : Nat) :
    ((ofDefinition id x).later on last count).toRule = if x.longAddresses = []
      then .ok { x.plain with
        enabled := on, id := id, lastTriggered := last.map Moment.ofInstant, triggerCount := count }
      else .error (.rejected (.inRule (toString id) (.actionList x.longAddresses))) := by
  have hcount : natural (.int count) = .ok count := natural_int_eq_ok.2 rfl
  have hid : required ((ofDefinition id x).later on last count).fields Key.id integer = .ok id :=
    required_of_find rfl (integer_int id)
  unfold toRule Rule.ofRecord Rule.read
  rw [readFields_later h, get_triggerCount, hid]
  by_cases hshort : x.longAddresses = []
  · rw [if_pos hshort, if_pos hshort]
    simp only [count_or_zero]
    rw [show ((ofDefinition id x).later on last count).triggerCount = count from rfl, hcount]
    cases last <;> rfl
  · rw [if_neg hshort, if_neg hshort]
    rfl

end RuleRow

namespace Engine

/-- The rules that a tick looks at are those that the rows of the enabled rules hold. -/
theorem rules_of_round {w : World} {now : Moment} {rules : List Rule} {reports : List Report}
    (h : (round.run.run w).1 = .ok (some (.done now rules reports))) :
    rules.Perm w.books.built := by
  have turn := round_turn w
  generalize (round.run.run w).1 = r at h turn
  generalize (round.run.run w).2.books = b at turn
  cases turn with
  | refused => cases h
  | skipped => cases h
  | unloaded => cases h
  | served _ serve =>
    obtain ⟨_, rfl, hround⟩ := map_eq_ok.1 h
    cases hround
    cases serve with
    | done build _ order _ => exact (sift_built build).1 ▸ order

/-- A tick takes a row of its own number into account exactly if it is enabled and holds
a rule. -/
theorem mem_rules_of_round {w : World} {now : Moment} {rules : List Rule} {reports : List Report}
    (h : (round.run.run w).1 = .ok (some (.done now rules reports))) {row : RuleRow}
    (stored : row ∈ w.store.rules) (distinct : w.books.ids.Nodup) :
    row.id ∈ rules.map (·.id) ↔ row.enabled = true ∧ ∃ rule, row.toRule = .ok rule := by
  rw [((rules_of_round h).map _).mem_iff, List.mem_map]
  constructor
  · rintro ⟨rule, hrule, hid⟩
    obtain ⟨other, hother, hr⟩ := List.mem_filterMap.1 hrule
    obtain ⟨hmem, henabled⟩ := Books.mem_enabledRows.1 hother
    have hrule := RuleRow.rule?_eq_some.1 hr
    have hsame : other = row := by
      refine List.inj_on_of_nodup_map distinct hmem stored ?_
      rw [← hid]
      exact ((RuleRow.isOf_of_toRule hrule).1).symm
    subst hsame
    exact ⟨henabled, rule, hrule⟩
  · rintro ⟨henabled, rule, hrule⟩
    refine ⟨rule, List.mem_filterMap.2 ⟨row, Books.mem_enabledRows.2 ⟨stored, henabled⟩,
      RuleRow.rule?_eq_some.2 hrule⟩, (RuleRow.isOf_of_toRule hrule).1⟩

end Engine

/-- What authoring accepts and the store takes is loaded as a rule that says the same, as
long as no address has become too long: name, description, priority, cooldown and
conditions are equal, and so are the actions but for numbers that are not finite, whatever
the history of the row; ticks look at the rule while it is enabled. With an address that
has become too long the row is refused for its addresses, and no tick looks at it. -/
theorem createRule_loads {d : Doc} {x : Definition} {s s' : Store} {row : RuleRow}
    (accepts : Definition.parse d = .ok x) (stores : s.createRule x = .ok (row, s')) :
    row ∈ s'.rules ∧ row = row.later x.enabled none 0
      ∧ (∀ on last count, (row.later on last count).toRule = if x.longAddresses = []
          then .ok { x.plain with
            enabled := on, id := row.id, lastTriggered := last.map Moment.ofInstant,
            triggerCount := count }
          else .error (.rejected (.inRule (toString row.id) (.actionList x.longAddresses))))
      ∧ (d.IsJson → (x.plain = x ↔ x.finite = true))
      ∧ ∀ (w : World) on last count now rules reports, row.later on last count ∈ w.store.rules →
          w.books.ids.Nodup →
          (Engine.round.run.run w).1 = .ok (some (.done now rules reports)) →
          (row.id ∈ rules.map (·.id) ↔ on = true ∧ x.longAddresses = []) := by
  obtain ⟨hlegible, hjson⟩ := Definition.legible_of_parse accepts
  obtain ⟨rfl, -, rfl⟩ := Store.createRule_eq_ok stores
  have hloads := RuleRow.toRule_later hlegible s.nextRule
  refine ⟨by simp, rfl, hloads, fun hd => Definition.plain_eq_iff (hjson hd), ?_⟩
  intro w on last count now rules reports stored distinct hround
  refine (Engine.mem_rules_of_round hround stored distinct).trans (and_congr_right fun _ => ?_)
  rw [hloads]
  by_cases hshort : x.longAddresses = []
  · rw [if_pos hshort]
    exact ⟨fun _ => hshort, fun _ => ⟨_, rfl⟩⟩
  · rw [if_neg hshort]
    exact ⟨nofun, fun h => absurd h hshort⟩

/-! ## Webhooks -/

/-- An authored rule without conditions and with a webhook. -/
def hookDoc (address : String) : Doc := .record [
  ("name", .str "vent"), ("conditions", .list []),
  ("actions", .list [.record [("type", .str "webhook"), ("url", .str address)]])]

/-- A definition without conditions and with a webhook. -/
def Definition.hook (u : Url) : Definition :=
  { name := "vent", conditions := .all [], actions := [.webhook { url := u }] }

theorem Definition.parse_hookDoc {s : String} {u : Url} (h : readUrl (.str s) = .ok u) :
    parse (hookDoc s) = .ok (.hook u) := by
  have hwebhook : Action.read (.record [("type", .str "webhook"), ("url", .str s)])
      = .ok (.webhook { url := u }) := by
    show ((fun o => Action.webhook <$> WebhookAction.read o) _).under (.key "webhook") = _
    dsimp only
    unfold WebhookAction.read
    rw [required_of_find rfl h]
    rfl
  have hactions : Action.parse (.list [.record [("type", .str "webhook"), ("url", .str s)]])
      = .ok [.webhook { url := u }] := by
    simp only [Action.parse, Action.parse.accept, Checked.each, hwebhook]
    rfl
  have hconditions : Condition.parse (.list []) = .ok (.all []) := by
    simp [Condition.parse, Condition.read, Condition.readList, Condition.parse.accept]
  obtain ⟨o, ho⟩ : ∃ o, hookDoc s = .obj o := ⟨_, rfl⟩
  have hread : Definition.readFields o = .ok (.ok (.hook u)) := by
    have hc : Definition.readConditions o = .ok (.ok (.all [])) := by
      cases ho
      show (Condition.parse (.list [])).map Checked.ok = _
      rw [hconditions]
      rfl
    have ha : Definition.readActions o = .ok [.webhook { url := u }] := by
      cases ho
      exact hactions
    unfold Definition.readFields
    rw [hc, ha]
    cases ho
    rfl
  rw [ho]
  show (Definition.readFields o >>= Definition.accept .definition) = _
  rw [hread]
  rfl

/-- The address of a fan. -/
def Url.fan : Url where
  scheme := "http"
  host := .domain "vent.example"
  path := ["fan"]
  query := some "on=1"

/-- A webhook is loaded with its address in normal form, after it has fired three times. -/
theorem createRule_loads_fan :
    Definition.parse (hookDoc " HTTP://Vent.Example:80/a/../fan?on=1 ") = .ok (.hook .fan)
      ∧ ((RuleRow.ofDefinition 1 (.hook .fan)).later true (some 60000000) 3).toRule
        = .ok { Definition.hook .fan with
          id := 1, lastTriggered := some (.ofInstant 60000000), triggerCount := 3 } := by
  have hread : readUrl (.str " HTTP://Vent.Example:80/a/../fan?on=1 ") = .ok .fan :=
    readUrl_eq_ok.2 ⟨_, rfl, by decide +kernel, by decide +kernel⟩
  have hshort : (Definition.hook .fan).longAddresses = [] := by decide +kernel
  have hparse := Definition.parse_hookDoc hread
  have hstores : ({} : Store).createRule (.hook .fan) = .ok (.ofDefinition 1 (.hook .fan),
      { rules := [.ofDefinition 1 (.hook .fan)] }) := rfl
  have hloads := (createRule_loads hparse hstores).2.2.1 true (some 60000000) 3
  rw [if_pos hshort] at hloads
  exact ⟨hparse, hloads⟩

namespace Url

/-- An address whose query is so many signs that have to be escaped, as a text. -/
def signsText (n : Nat) : String := String.ofList ("http://a/?".toList ++ List.replicate n '<')

/-- The address that such a text stands for. -/
def signs (n : Nat) : Url where
  scheme := "http"
  host := .domain "a"
  query := some (String.ofList (encode .query (List.replicate n '<')))

theorem toList_signsText (n : Nat) :
    (signsText n).toList = "http://a/?".toList ++ List.replicate n '<' :=
  String.toList_ofList

/-- Such a text has nothing at its ends that a reader would cut off. -/
theorem clean_signsText (n : Nat) :
    clean (signsText n) = "http://a/?".toList ++ List.replicate n '<' := by
  rw [clean_of_plain, toList_signsText]
  intro c hc
  rw [toList_signsText, List.mem_append, List.mem_replicate] at hc
  have hhead : ∀ c ∈ "http://a/?".toList, 0x20 < c.toNat :=
    List.all_iff_forall_prop.1 (by decide)
  rcases hc with hc | ⟨-, rfl⟩
  · exact hhead c hc
  · decide

/-- Its signs are the query, and each is encoded. -/
theorem readTail_signs (n : Nat) : readTail ('/' :: '?' :: List.replicate n '<')
    = ([""], some (String.ofList (encode .query (List.replicate n '<'))), none) := by
  have hquery : ∀ c ∈ List.replicate n '<', (c != '#') = true := by
    intro c hc
    rw [(List.mem_replicate.1 hc).2]
    rfl
  have hpath : readPath ['/'] = [""] := by decide +kernel
  have hread : readTail (['/'] ++ '?' :: (List.replicate n '<' ++ [])) = _ :=
    readTail_query (by simp) hquery (by simp)
  rwa [List.append_nil, hpath] at hread

theorem readAfterSlashes_signs (n : Nat) :
    readAfterSlashes "http" ('a' :: '/' :: '?' :: List.replicate n '<') = .ok (signs n) := by
  have hhost : Host.read ['a'] = .ok (.domain "a") := by decide +kernel
  have hsplit : splitAtSign ['a'] = (none, ['a']) := by decide +kernel
  have hplace : takeHost false ['a'] = (['a'], []) := by decide +kernel
  have hfilled : ['a'].isEmpty = false := rfl
  unfold readAfterSlashes
  dsimp only
  rw [show ('a' :: '/' :: '?' :: List.replicate n '<').takeWhile (fun c => !endsAuthority c)
      = ['a'] from rfl,
    show ('a' :: '/' :: '?' :: List.replicate n '<').dropWhile (fun c => !endsAuthority c)
      = '/' :: '?' :: List.replicate n '<' from rfl, hsplit, hplace]
  dsimp only
  rw [hfilled, if_neg Bool.false_ne_true, hhost, readTail_signs]
  rfl

theorem read_signsText (n : Nat) : read (signsText n) = .ok (some (signs n)) := by
  have hempty : (signsText n).isEmpty = false := by
    rw [Bool.eq_false_iff, Ne, String.isEmpty_iff]
    intro h
    have htext := toList_signsText n
    rw [h] at htext
    cases htext
  have hsplit : splitScheme? ("http://a/?".toList ++ List.replicate n '<')
      = some ("http", '/' :: '/' :: 'a' :: '/' :: '?' :: List.replicate n '<') := rfl
  unfold read
  rw [hempty, if_neg Bool.false_ne_true, clean_signsText, hsplit]
  show (readAfterSlashes "http" ('a' :: '/' :: '?' :: List.replicate n '<')).map some = _
  rw [readAfterSlashes_signs]
  rfl

theorem length_encode_signs (n : Nat) : (encode .query (List.replicate n '<')).length = 3 * n := by
  have hone : (encodeChar .query '<').length = 3 := by decide +kernel
  rw [encode, List.length_flatMap, List.map_replicate, hone, List.sum_replicate_nat, Nat.mul_comm]

theorem size_signsText (n : Nat) : (signsText n).utf8ByteSize = 10 + n := by
  rw [utf8ByteSize_of_ascii, toList_signsText, List.length_append, List.length_replicate]
  · rfl
  · intro c hc
    rw [toList_signsText, List.mem_append, List.mem_replicate] at hc
    have hhead : ∀ c ∈ "http://a/?".toList, c.toNat < 0x80 :=
      List.all_iff_forall_prop.1 (by decide)
    rcases hc with hc | ⟨-, rfl⟩
    · exact hhead c hc
    · decide

theorem size_signs (n : Nat) : (signs n).text.utf8ByteSize = 10 + 3 * n := by
  have htext : (signs n).text.toList
      = "http://a/?".toList ++ encode .query (List.replicate n '<') := by
    rw [toList_text]
    simp [signs, loginChars, placeChars, tailChars, portChars, pathChars, marked, Host.text]
  rw [utf8ByteSize_of_ascii, htext, List.length_append, length_encode_signs]
  · rfl
  · intro c hc
    rw [htext, List.mem_append] at hc
    have hhead : ∀ c ∈ "http://a/?".toList, c.toNat < 0x80 :=
      List.all_iff_forall_prop.1 (by decide)
    rcases hc with hc | hc
    · exact hhead c hc
    · exact Nat.lt_succ_of_lt ((keeps_encode _ _).printable c hc).2

end Url

/-- The address of 710 characters is accepted and stored, but takes 2110 characters in
normal form: its row is refused, and the tick that loads it looks at no rule. -/
theorem signs_not_loaded :
    Definition.parse (hookDoc (Url.signsText 700)) = .ok (.hook (.signs 700))
      ∧ (Definition.hook (.signs 700)).finite = true
      ∧ ({} : Store).createRule (.hook (.signs 700)) = .ok (.ofDefinition 1 (.hook (.signs 700)),
        { rules := [.ofDefinition 1 (.hook (.signs 700))] })
      ∧ (∀ rule, (RuleRow.ofDefinition 1 (.hook (.signs 700))).toRule ≠ .ok rule)
      ∧ ∀ (w : World) now rules reports,
        w.store.rules = [.ofDefinition 1 (.hook (.signs 700))] →
        (Engine.round.run.run w).1 = .ok (some (.done now rules reports)) → rules = [] := by
  have hparse : Definition.parse (hookDoc (Url.signsText 700)) = .ok (.hook (.signs 700)) := by
    refine Definition.parse_hookDoc (readUrl_eq_ok.2 ⟨_, rfl, ?_, Url.read_signsText 700⟩)
    rw [Url.size_signsText]
    decide
  have hlong : (Definition.hook (.signs 700)).longAddresses ≠ [] := by
    have hover : (Action.webhook { url := .signs 700 }).overlong = true := by
      show decide (Url.maxBytes < (Url.signs 700).text.utf8ByteSize) = true
      rw [Url.size_signs]
      decide
    intro h
    exact absurd (Action.longAddresses_eq_nil.1 h _ (List.mem_cons_self ..)) (by rw [hover]; nofun)
  have hrefused : ∀ rule, (RuleRow.ofDefinition 1 (.hook (.signs 700))).toRule ≠ .ok rule := by
    intro rule h
    have hloads := RuleRow.toRule_later (Definition.legible_of_parse hparse).1 1 true none 0
    rw [if_neg hlong] at hloads
    cases hloads.symm.trans h
  refine ⟨hparse, rfl, rfl, hrefused, fun w now rules reports hrows hround => ?_⟩
  have hbuilt : w.books.built = [] := by
    rw [List.eq_nil_iff_forall_not_mem]
    intro rule hrule
    obtain ⟨row, hrow, hr⟩ := w.books.rows_of_built rule hrule
    rw [show w.books.rules = _ from hrows, List.mem_singleton] at hrow
    exact hrefused rule (hrow ▸ hr)
  have hperm := Engine.rules_of_round hround
  rw [hbuilt] at hperm
  exact hperm.eq_nil

end Glasshouse
