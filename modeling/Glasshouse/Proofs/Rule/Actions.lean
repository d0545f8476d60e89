/-
Glasshouse.Proofs.Rule.Actions — actions and their canonical documents. What the
reader yields is legible: no text is empty, no duration is zero, a command that
sets a value has one, free values stand under text keys. The canonical document
of a legible action is read as that action with its free values in plain form,
unless the text of its address has become too long to be read. Main statements:
`Action.legible_of_read`, `Action.read_toDoc`.
-/
import Glasshouse.Action.Writer
import Glasshouse.Proofs.Url.Address
import Glasshouse.Proofs.Doc.Json
import Glasshouse.Proofs.Condition.Tree

namespace Glasshouse

open Schema

/-! ## Names -/

theorem Command.read_name (c : Command) : Command.read (.str c.name) = .ok c := by
  cases c <;> rfl

theorem Medium.read_name (m : Medium) : Medium.read (onText Text.lower (.str m.name)) = .ok m := by
  cases m <;> rfl

theorem Urgency.read_name (u : Urgency) : Urgency.read (.str u.name) = .ok u := by
  cases u <;> rfl

theorem JobRank.read_name (r : JobRank) : JobRank.read (.str r.name) = .ok r := by
  cases r <;> rfl

theorem Method.read_name (m : Method) : Method.read (.str m.name) = .ok m := by
  cases m <;> rfl

theorem readMedia_ofList (ms : List Medium) :
    readMedia (.ofList (fun m => .str m.name) ms) = .ok ms := by
  show Checked.each Medium.read 0 ((ms.map _).map _) = _
  rw [Checked.each_eq_ok, List.map_map, List.forall₂_map_left_iff]
  exact List.forall₂_same.2 fun m _ => m.read_name

/-! ## Free values -/

/-- Free values in plain form. -/
def Fields.plain (o : Fields) : Fields :=
  ofPairs (Doc.plainFields o)

theorem Doc.plain_obj_eq (o : Fields) : (Doc.obj o).plain = .obj o.plain := by
  rw [Doc.plain, Fields.plain]

theorem Fields.keyed_plain (o : Fields) : o.plain.Keyed := by
  rw [Fields.plain, Doc.plainFields_eq_ofTexts]
  exact keyed_ofPairs _

theorem Schema.table_plain (o : Fields) : table (Doc.obj o).plain = .ok o.plain := by
  rw [Doc.plain_obj_eq]
  exact table_keyed o.keyed_plain

theorem Schema.nullable_table_plain (p : Option Fields) :
    nullable table (.ofOption (fun o => (Doc.obj o).plain) p) = .ok (p.map Fields.plain) := by
  cases p with
  | none => rfl
  | some o =>
    show nullable table (Doc.obj o).plain = _
    rw [Doc.plain_obj_eq]
    show (table (.obj o.plain)).map some = _
    rw [table_keyed o.keyed_plain]
    rfl

theorem Schema.nullable_setting (v : Option Setting) :
    nullable Setting.read (.ofOption Setting.toDoc v) = .ok v := by
  cases v with
  | none => rfl
  | some s => cases s <;> rfl

/-! ## Addresses -/

/-- An address is read from a text of at most so many bytes that stands for it. -/
theorem readUrl_eq_ok {d : Doc} {u : Url} : readUrl d = .ok u ↔
    ∃ s, text d = .ok s ∧ s.utf8ByteSize ≤ Url.maxBytes ∧ Url.read s = .ok (some u) := by
  unfold readUrl
  cases text d with
  | flawed is => simp [Checked.flaw]
  | broken e => simp [Checked.flaw]
  | ok s =>
    simp only [Checked.ok.injEq, exists_eq_left']
    by_cases hlong : Url.maxBytes < s.utf8ByteSize
    · rw [if_pos hlong]
      exact iff_of_false (by rintro ⟨⟩) fun h => Nat.not_le.2 hlong h.1
    · rw [if_neg hlong]
      split
      · rename_i hs
        simp [hs, Checked.flaw]
      · rename_i hs
        simp [hs, Checked.flaw]
      · rename_i v hs
        simp [hs, Nat.not_lt.1 hlong]

/-- The text of an address that was read is read as that address, unless it is too long. -/
theorem readUrl_text {u : Url} (h : u.Normal) : readUrl (.str u.text)
    = if Url.maxBytes < u.text.utf8ByteSize then .flaw .urlTooLong else .ok u := by
  unfold readUrl
  show (if Url.maxBytes < u.text.utf8ByteSize then _ else _) = _
  rw [Url.read_text h]

theorem read_of_readUrl {d : Doc} {u : Url} (h : readUrl d = .ok u) :
    ∃ s, Url.read s = .ok (some u) := by
  obtain ⟨s, -, -, hs⟩ := readUrl_eq_ok.1 h
  exact ⟨s, hs⟩

/-! ## Actions -/

namespace Action

/-- An action as it can be read. -/
def Legible : Action → Prop
  | notice a => a.template ≠ ""
  | device a => a.device ≠ "" ∧ (∀ n, a.duration = some n → 0 < n)
      ∧ (a.command = .setValue → a.value ≠ none)
  | webhook a => ∃ s, Url.read s = .ok (some a.url)
  | job a => a.queue ≠ ""

/-- An action with its free values in plain form. -/
def plain : Action → Action
  | notice a => notice { a with values := a.values.plain }
  | device a => device a
  | webhook a => webhook { a with payload := a.payload.map Fields.plain }
  | job a => job { a with payload := a.payload.plain }

/-- What a reader of actions yields is legible. -/
theorem legible_of_reader {kind : String} {read : Fields → Checked Action}
    (hkind : readers.lookup kind = some read) {o : Fields} {a : Action} (h : read o = .ok a) :
    a.Legible := by
  have hmem := mem_of_lookup hkind
  simp only [readers, List.mem_cons, List.not_mem_nil, or_false, Prod.mk.injEq] at hmem
  rcases hmem with ⟨rfl, rfl⟩ | ⟨rfl, rfl⟩ | ⟨rfl, rfl⟩ | ⟨rfl, rfl⟩
  · obtain ⟨a, ha, rfl⟩ := Checked.fmap_eq_ok.1 h
    simp only [NoticeAction.read, Checked.fmap_eq_ok, Checked.seq_eq_ok, Checked.seqLeft_eq_ok] at ha
    obtain ⟨⟨_, _, ⟨_, _, ⟨_, _, ⟨_, _, ⟨_, -, rfl⟩, htemplate, rfl⟩, -, rfl⟩, -, rfl⟩, -, rfl⟩,
      -⟩ := ha
    exact filled_of_required htemplate
  · obtain ⟨a, ha, rfl⟩ := Checked.fmap_eq_ok.1 h
    obtain ⟨b, hb, hvalue⟩ := Checked.andThen_eq_ok.1 ha
    split at hvalue
    · cases hvalue
    · rename_i hset
      cases hvalue
      simp only [Checked.fmap_eq_ok, Checked.seq_eq_ok, Checked.seqLeft_eq_ok] at hb
      obtain ⟨⟨_, duration, ⟨_, value, ⟨_, command, ⟨_, hdevice, rfl⟩, -, rfl⟩, -, rfl⟩, hduration, rfl⟩,
        -⟩ := hb
      refine ⟨filled_of_required hdevice, ?_, ?_⟩
      · rintro n (rfl : duration = some n)
        rcases read_of_optional hduration with hnone | ⟨_, -, hduration⟩
        · cases hnone
        · exact pos_of_positive (eq_ok_of_nullable hduration)
      · rintro (rfl : command = .setValue) (rfl : value = none)
        exact hset rfl
  · obtain ⟨a, ha, rfl⟩ := Checked.fmap_eq_ok.1 h
    simp only [WebhookAction.read, Checked.fmap_eq_ok, Checked.seq_eq_ok, Checked.seqLeft_eq_ok] at ha
    obtain ⟨⟨_, _, ⟨_, _, ⟨_, _, ⟨_, hurl, rfl⟩, -, rfl⟩, -, rfl⟩, -, rfl⟩, -⟩ := ha
    obtain ⟨_, -, hurl⟩ := read_of_required hurl
    exact read_of_readUrl hurl
  · obtain ⟨a, ha, rfl⟩ := Checked.fmap_eq_ok.1 h
    simp only [JobAction.read, Checked.fmap_eq_ok, Checked.seq_eq_ok, Checked.seqLeft_eq_ok] at ha
    obtain ⟨⟨_, _, ⟨_, _, ⟨_, hqueue, rfl⟩, -, rfl⟩, -, rfl⟩, -⟩ := ha
    exact filled_of_required hqueue

theorem legible_of_read {d : Doc} {a : Action} (h : read d = .ok a) : a.Legible := by
  unfold read at h
  split at h
  · split at h
    · cases h
    · dsimp only at h
      split at h
      · rename_i hkind
        exact legible_of_reader hkind (Checked.under_eq_ok.1 h)
      · cases h
  · cases h

/-! ## Canonical documents -/

/-- The fields of the canonical document of an action. -/
def fields (a : Action) : Fields :=
  match a.toDoc with
  | .obj o => o
  | _ => []

end Action

theorem NoticeAction.read_fields {a : NoticeAction} (h : (Action.notice a).Legible) :
    NoticeAction.read (Action.notice a).fields = .ok { a with values := a.values.plain } := by
  unfold NoticeAction.read
  rw [optional_of_find rfl (readMedia_ofList a.media), required_of_find rfl (filledText_str h),
    optional_of_find rfl (nullable_text a.title), optional_of_find rfl a.urgency.read_name,
    optional_of_find rfl (table_plain a.values)]
  rfl

theorem DeviceAction.read_fields {a : DeviceAction} (h : (Action.device a).Legible) :
    DeviceAction.read (Action.device a).fields = .ok a := by
  unfold DeviceAction.read
  rw [required_of_find rfl (filledText_str h.1), required_of_find rfl a.command.read_name,
    optional_of_find rfl (nullable_setting a.value), optional_of_find rfl (nullable_positive h.2.1)]
  refine if_neg ?_
  rw [Bool.and_eq_true, beq_iff_eq, Option.isNone_iff_eq_none]
  exact fun hset => h.2.2 hset.1 hset.2

/-- The document of a webhook is read as it is, but for its address, which is read anew. -/
theorem WebhookAction.read_fields (a : WebhookAction) :
    WebhookAction.read (Action.webhook a).fields = (fun u => { a with
      url := u, payload := a.payload.map Fields.plain }) <$>
        (readUrl (.str a.url.text)).under (.key "url") := by
  unfold WebhookAction.read
  rw [optional_of_find rfl a.method.read_name, optional_of_find rfl (textTable_record a.headers),
    optional_of_find rfl (nullable_table_plain a.payload)]
  show WebhookAction.mk <$> (readUrl (.str a.url.text)).under (.key "url") <*> _ <*> _ <*> _ <* _ = _
  cases readUrl (.str a.url.text) <;> rfl

theorem JobAction.read_fields {a : JobAction} (h : (Action.job a).Legible) :
    JobAction.read (Action.job a).fields = .ok { a with payload := a.payload.plain } := by
  unfold JobAction.read
  rw [required_of_find rfl (filledText_str h), optional_of_find rfl a.rank.read_name,
    optional_of_find rfl (table_plain a.payload)]
  rfl

namespace Action

/-- Whether the text of an action's address is longer than a text that is read. -/
def overlong : Action → Bool
  | webhook a => Url.maxBytes < a.url.text.utf8ByteSize
  | _ => false

/-- What is wrong with the addresses of actions, from index `i` on. -/
def longAddresses (i : Nat) : List Action → List Issue
  | [] => []
  | a :: r =>
    (if a.overlong then [⟨[.index i, .key "webhook", .key "url"], .urlTooLong⟩] else [])
      ++ longAddresses (i + 1) r

theorem read_toDoc_webhook (a : WebhookAction) :
    read (webhook a).toDoc = (fun u => webhook { a with
      url := u, payload := a.payload.map Fields.plain }) <$>
        ((readUrl (.str a.url.text)).under (.key "url")).under (.key "webhook") := by
  show ((fun o => webhook <$> WebhookAction.read o) (webhook a).fields).under (.key "webhook") = _
  dsimp only
  rw [WebhookAction.read_fields]
  cases readUrl (.str a.url.text) <;> rfl

/-- The canonical document of a legible action is read as that action in plain form, unless
its address is too long. -/
theorem read_toDoc {a : Action} (h : a.Legible) : read a.toDoc
    = if a.overlong then .flawed [⟨[.key "webhook", .key "url"], .urlTooLong⟩]
      else .ok a.plain := by
  have under : ∀ {α : Type} {f : α → Action} {x : Checked α} {a : α} {k : String}, x = .ok a →
      (f <$> x).under (.key k) = .ok (f a) := by
    rintro α f x a k rfl
    rfl
  cases a with
  | notice a => exact under (NoticeAction.read_fields h)
  | device a => exact under (DeviceAction.read_fields h)
  | webhook a =>
    obtain ⟨s, hs⟩ := h
    rw [read_toDoc_webhook, readUrl_text (Url.normal_of_read hs)]
    by_cases hlong : Url.maxBytes < a.url.text.utf8ByteSize
    · have hover : (webhook a).overlong = true := decide_eq_true hlong
      rw [if_pos hlong, if_pos hover]
      rfl
    · have hover : (webhook a).overlong = false := decide_eq_false hlong
      rw [if_neg hlong, hover]
      rfl
  | job a => exact under (JobAction.read_fields h)

theorem longAddresses_eq_nil {as : List Action} {i : Nat} :
    longAddresses i as = [] ↔ ∀ a ∈ as, a.overlong = false := by
  induction as generalizing i with
  | nil => simp [longAddresses]
  | cons a as ih =>
    rw [longAddresses, List.append_eq_nil_iff, ih, List.forall_mem_cons]
    cases a.overlong <;> simp

/-- The canonical documents of legible actions are read as these actions in plain form,
unless there are addresses that are too long. -/
theorem each_toDoc {as : List Action} (h : ∀ a ∈ as, a.Legible) (i : Nat) :
    Checked.each read i (as.map toDoc) = if longAddresses i as = [] then .ok (as.map plain)
      else .flawed (longAddresses i as) := by
  induction as generalizing i with
  | nil => rfl
  | cons a as ih =>
    have hrest := ih (fun b hb => h b (List.mem_cons_of_mem _ hb)) (i + 1)
    rw [List.map_cons, Checked.each, read_toDoc (h a (List.mem_cons_self ..)), hrest, longAddresses]
    cases a.overlong with
    | true => cases hlong : longAddresses (i + 1) as <;> rfl
    | false =>
      rw [if_neg Bool.false_ne_true, if_neg Bool.false_ne_true, List.nil_append]
      split <;> rfl

theorem parse_listToDoc {as : List Action} (h : ∀ a ∈ as, a.Legible) :
    parse (listToDoc as) = if longAddresses 0 as = [] then .ok (as.map plain)
      else .error (.rejected (.actionList (longAddresses 0 as))) := by
  show parse.accept (.list (as.map toDoc)) = _
  simp only [parse.accept, each_toDoc h]
  by_cases hshort : longAddresses 0 as = []
  · rw [if_pos hshort, if_pos hshort]
  · rw [if_neg hshort, if_neg hshort]

/-- What is parsed as actions is a list of documents each read as its action, or there
are none; a JSON document holds JSON documents. -/
theorem read_of_parse {d : Doc} {as : List Action} (h : parse d = .ok as) :
    ∃ ds, List.Forall₂ (fun d a => read d = .ok a) ds as ∧ (d.IsJson → ∀ x ∈ ds, x.IsJson) := by
  have haccept : ∀ d, parse.accept d = .ok as →
      ∃ ds, List.Forall₂ (fun d a => read d = .ok a) ds as ∧ (d.IsJson → ∀ x ∈ ds, x.IsJson) := by
    intro d h
    unfold parse.accept at h
    split at h
    · rename_i xs
      cases hx : Checked.each read 0 xs with
      | ok bs =>
        rw [hx] at h
        cases h
        exact ⟨xs, Checked.each_eq_ok.1 hx, Doc.IsJson.items⟩
      | flawed is => rw [hx] at h; cases h
      | broken e => rw [hx] at h; cases h
    · cases h
  unfold parse at h
  split at h
  · cases h
    exact ⟨[], .nil, fun _ => nofun⟩
  · split at h
    · rename_i hs
      obtain ⟨ds, hds, hjson⟩ := haccept _ h
      exact ⟨ds, hds, fun _ => hjson (Json.read_isJson hs)⟩
    · cases h
  · exact haccept _ h

theorem legible_of_parse {d : Doc} {as : List Action} (h : parse d = .ok as) :
    ∀ a ∈ as, a.Legible := by
  obtain ⟨ds, hds, -⟩ := read_of_parse h
  intro a ha
  obtain ⟨d, -, hd⟩ := exists_of_mem_right hds ha
  exact legible_of_read hd

/-! ## Free values of JSON documents -/

/-- The free values of an action: tables that are passed on as they are. -/
def freeValues : Action → List Fields
  | notice a => [a.values]
  | device _ => []
  | webhook a => a.payload.toList
  | job a => [a.payload]

/-- Whether all numbers among the free values of an action are finite. -/
def finite (a : Action) : Bool :=
  a.freeValues.all Doc.finiteFields

theorem isJson_of_find {o : Fields} (ho : (Doc.obj o).IsJson) {f : FieldName} {p : String × Doc}
    (h : f.find? o = some p) : p.2.IsJson := by
  unfold FieldName.find? at h
  split at h
  · rename_i hv
    cases h
    exact ho.get hv
  · obtain ⟨v, hv, rfl⟩ := Option.map_eq_some_iff.1 h
    exact ho.get hv

theorem isJson_of_table {d : Doc} (hd : d.IsJson) {o : Fields} (h : table d = .ok o) :
    (Doc.obj o).IsJson := by
  cases d with
  | obj fs =>
    rw [table_keyed hd.keyed] at h
    cases h
    exact hd
  | atom a => cases h
  | list xs => cases h
  | set xs => cases h

theorem isJson_of_optional {o : Fields} (ho : (Doc.obj o).IsJson) {f : FieldName} {v : Fields}
    (h : optional o f [] table = .ok v) : (Doc.obj v).IsJson := by
  rcases read_of_optional h with rfl | ⟨p, hp, hread⟩
  · exact Doc.isJson_empty
  · exact isJson_of_table (isJson_of_find ho hp) hread

/-- The free values of an action that is read from a JSON document are JSON documents. -/
theorem isJson_of_read {d : Doc} (hd : d.IsJson) {a : Action} (h : read d = .ok a) :
    ∀ v ∈ a.freeValues, (Doc.obj v).IsJson := by
  unfold read at h
  split at h
  · rename_i o
    split at h
    · cases h
    · dsimp only at h
      split at h
      · rename_i hkind
        replace h := Checked.under_eq_ok.1 h
        have hmem := mem_of_lookup hkind
        simp only [readers, List.mem_cons, List.not_mem_nil, or_false, Prod.mk.injEq] at hmem
        rcases hmem with ⟨-, rfl⟩ | ⟨-, rfl⟩ | ⟨-, rfl⟩ | ⟨-, rfl⟩
        · obtain ⟨a, ha, rfl⟩ := Checked.fmap_eq_ok.1 h
          simp only [NoticeAction.read, Checked.seq_eq_ok, Checked.seqLeft_eq_ok,
            Checked.fmap_eq_ok] at ha
          obtain ⟨⟨_, values, ⟨_, _, ⟨_, _, ⟨_, _, ⟨_, -, rfl⟩, -, rfl⟩, -, rfl⟩, -, rfl⟩, hvalues, rfl⟩,
            -⟩ := ha
          rintro v hv
          obtain rfl : v = values := List.mem_singleton.1 hv
          exact isJson_of_optional hd hvalues
        · obtain ⟨a, -, rfl⟩ := Checked.fmap_eq_ok.1 h
          exact fun v hv => absurd hv List.not_mem_nil
        · obtain ⟨a, ha, rfl⟩ := Checked.fmap_eq_ok.1 h
          simp only [WebhookAction.read, Checked.seq_eq_ok, Checked.seqLeft_eq_ok,
            Checked.fmap_eq_ok] at ha
          obtain ⟨⟨_, payload, ⟨_, _, ⟨_, _, ⟨_, -, rfl⟩, -, rfl⟩, -, rfl⟩, hpayload, rfl⟩, -⟩ := ha
          rintro v hv
          obtain rfl : payload = some v := Option.mem_toList.1 hv
          rcases read_of_optional hpayload with hnone | ⟨p, hp, hread⟩
          · cases hnone
          · exact isJson_of_table (isJson_of_find hd hp) (eq_ok_of_nullable hread)
        · obtain ⟨a, ha, rfl⟩ := Checked.fmap_eq_ok.1 h
          simp only [JobAction.read, Checked.seq_eq_ok, Checked.seqLeft_eq_ok,
            Checked.fmap_eq_ok] at ha
          obtain ⟨⟨_, payload, ⟨_, _, ⟨_, -, rfl⟩, -, rfl⟩, hpayload, rfl⟩, -⟩ := ha
          rintro v hv
          obtain rfl : v = payload := List.mem_singleton.1 hv
          exact isJson_of_optional hd hpayload
      · cases h
  · cases h

/-- In an action read from JSON documents the plain form changes what is not finite, and
nothing else. -/
theorem plain_eq_iff {a : Action} (h : ∀ v ∈ a.freeValues, (Doc.obj v).IsJson) :
    a.plain = a ↔ a.finite = true := by
  have hone : ∀ v ∈ a.freeValues, (v.plain = v ↔ Doc.finiteFields v = true) := by
    intro v hv
    have := (h v hv).plain_eq_iff
    rwa [Doc.plain_obj_eq, Doc.obj.injEq, Doc.finite] at this
  unfold finite
  cases a with
  | notice a =>
    have ha := hone a.values (List.mem_singleton.2 rfl)
    rw [freeValues, List.all_cons, List.all_nil, Bool.and_true, ← ha, plain, notice.injEq]
    exact ⟨congrArg NoticeAction.values, fun h => by rw [h]⟩
  | device a => simp [plain, freeValues]
  | webhook a =>
    obtain ⟨url, method, headers, payload⟩ := a
    cases payload with
    | none => exact ⟨fun _ => rfl, fun _ => rfl⟩
    | some v =>
      have ha := hone v (List.mem_singleton.2 rfl)
      simp only [freeValues, Option.toList_some, List.all_cons, List.all_nil, Bool.and_true, ← ha,
        plain, Option.map_some, webhook.injEq, WebhookAction.mk.injEq, true_and, Option.some.injEq]
  | job a =>
    have ha := hone a.payload (List.mem_singleton.2 rfl)
    rw [freeValues, List.all_cons, List.all_nil, Bool.and_true, ← ha, plain, job.injEq]
    exact ⟨congrArg JobAction.payload, fun h => by rw [h]⟩

end Action

end Glasshouse
