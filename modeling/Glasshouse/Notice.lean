/-
Glasshouse.Notice — notices to people over several media. Each medium is tried
on its own: one that is not configured, or whose line fails, counts as not
delivered, and the next is tried all the same.
-/
import Glasshouse.World

namespace Glasshouse

/-- A notice to people. -/
structure Notice where
  message : String
  title : Option String := none
  media : List String := []
  urgency : String := "normal"
  metadata : Doc := .null

/-- Whether each medium delivered. -/
abbrev Delivered := Table String Bool

/-- The media and what became of them, as a document. -/
def Delivered.toDoc (d : Delivered) : Doc := .record (d.map fun p => (p.1, .bool p.2))

/-- The media that did not deliver. -/
def Delivered.failed (d : Delivered) : List String :=
  (d.filter fun p => !p.2).map (·.1)

namespace Notice

/-- What stands in front of a notice, by its urgency. -/
def mark (urgency : String) : String :=
  if urgency == "high" then "⚠️ " else if urgency == "critical" then "🚨 " else ""

/-- The text of a notice with its mark and title. -/
def text (n : Notice) : String :=
  let title := n.title.getD ""
  mark n.urgency ++ (if title.isEmpty then "" else title ++ "\n\n") ++ n.message

/-- The heading of notices to chats. -/
def heading : String := "🌱 HortiFlow\n\n"

/-- The media of a notice; without any, the log. -/
def mediaOrLog (n : Notice) : List String :=
  if n.media.isEmpty then [Medium.log.name] else n.media

/-- A fault of the line itself, which only means that a medium did not deliver. -/
def isLineFault : Fault → Bool
  | .badStatus _ => true
  | .foreign kind _ => kind.isTransport
  | _ => false

/-- A document posted; whether it was taken. -/
def post (url : String) (headers : List (String × String)) (body : Doc) : Work Bool :=
  tryCatch
    (do
      let _ ← Work.exchangeOk .notice (Wire.prepare "POST" url headers (some body))
      pure true)
    fun e => if isLineFault e then pure false else throw e

/-- The request that delivers a notice by a medium, where it is configured. -/
def letter? (s : Settings) (n : Notice) :
    Medium → Option (String × List (String × String) × Doc)
  | .log => none
  | .telegram =>
    if s.telegramToken.isEmpty || s.telegramChat.isEmpty then none
    else some ("https://api.telegram.org/bot" ++ s.telegramToken ++ "/sendMessage", [],
      .record [("chat_id", .str s.telegramChat), ("text", .str (heading ++ n.text)),
        ("parse_mode", .str "HTML")])
  | .whatsapp =>
    if s.whatsappUrl.isEmpty || s.whatsappKey.isEmpty then none
    else some (s.whatsappUrl, [("Authorization", s.whatsappKey)],
      .record [("message", .str (heading ++ n.text))])
  | .webhook =>
    if s.noticeWebhookUrl.isEmpty then none
    else some (s.noticeWebhookUrl, [],
      .record [("title", .ofOption .str n.title), ("message", .str n.text),
        ("priority", .str n.urgency),
        ("metadata", if n.metadata.truthy then n.metadata else .obj [])])

/-- A notice by one medium; whether it was delivered. -/
def deliverBy (s : Settings) (n : Notice) (medium : String) : Work Bool :=
  match Medium.ofName? medium with
  | some .log => pure true
  | some m =>
    match letter? s n m with
    | some (url, headers, body) => post url headers body
    | none => pure false
  | none => pure false

/-- A notice by media one after the other. -/
def deliverAll (s : Settings) (n : Notice) : List String → Delivered → Work Delivered
  | [], d => pure d
  | m :: r, d => do
    let ok ← deliverBy s n m
    deliverAll s n r (d.put m ok)

/-- A notice sent. Without notices to people, everything goes to the log. -/
def send (n : Notice) : Work Delivered := do
  let s ← ExceptT.lift (Plan.look World.settings)
  if s.notificationEnabled then deliverAll s n n.mediaOrLog []
  else pure (n.mediaOrLog.foldl (fun d m => d.put m true) [])

/-- A notice sent and kept as it was asked for, with what became of it. -/
def sendNoted (n : Notice) (asked : List (String × Doc)) : Work Delivered := do
  let d ← n.send
  ExceptT.lift (Plan.modify fun w =>
    { w with sent := w.sent ++ [.record (asked ++ [("delivered", d.toDoc)])] })
  pure d

end Notice

end Glasshouse
