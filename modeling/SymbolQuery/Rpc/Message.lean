/-
The messages between a client and a language server.

A message is a request, a notification or a response. Which of them a JSON object is
depends on three keys: a request has an id that is not null and a method, a
notification a method and no such id, and what has no method but a result or an error
is a response. Anything else is no message.
-/
import SymbolQuery.Json.Parser
import SymbolQuery.Json.Record

set_option autoImplicit false

namespace SymbolQuery.Rpc

/-! ## Ids and errors -/

/-- The id of a request. -/
inductive Id
  | number (n : Nat)
  | text (s : String)
  deriving DecidableEq, Repr, Inhabited

namespace Id

/-- The number of an id; some servers send a number back as text. -/
def number? : Id → Option Nat
  | .number n => some n
  | .text s => Text.unsigned? Text.max64 s

/-- An id in JSON. -/
def toJson : Id → Json
  | .number n => .ofNat n
  | .text s => .str s

/-- Reads an id. -/
def ofJson : Json → Json.Decoded Id :=
  Json.firstOf "RequestId"
    [fun v => (Json.asU64 v).map Id.number, fun v => (Json.asText v).map Id.text]

end Id

/-- What a server answers to a request that it could not serve. -/
structure ErrorInfo where
  code : Int
  message : String
  data : Option Json := none
  deriving Repr, Inhabited

namespace ErrorInfo

/-- The text of an error. -/
def text (e : ErrorInfo) : String := s!"[{e.code}] {e.message}"

/-- The JSON object of an error. -/
def toJson (e : ErrorInfo) : Json :=
  .obj ([("code", .ofInt e.code), ("message", .str e.message)] ++ Json.field? "data" e.data)

/-- The record type of errors. -/
def record : Json.RecordType := ⟨"struct ResponseError", 3⟩

/-- Reads an error. -/
def ofJson : Json → Json.Decoded ErrorInfo :=
  Json.readRecord record fun s =>
    ErrorInfo.mk <$> Json.required record s 0 "code" Json.asI32
      <*> Json.required record s 1 "message" Json.asText
      <*> Json.optional record s 2 "data" Json.asValue

end ErrorInfo

/-! ## Requests, notifications and responses -/

/-- A request: it is answered under its id. -/
structure Request where
  version : String := "2.0"
  id : Id
  method : String
  params : Option Json := none
  deriving Repr, Inhabited

/-- A notification: it is not answered. -/
structure Notification where
  version : String := "2.0"
  method : String
  params : Option Json := none
  deriving Repr, Inhabited

/-- The answer to a request. -/
structure Response where
  version : String := "2.0"
  id : Option Id
  result : Option Json := none
  error : Option ErrorInfo := none
  deriving Repr, Inhabited

namespace Request

/-- The JSON object of a request. -/
def toJson (r : Request) : Json :=
  .obj ([("jsonrpc", .str r.version), ("id", r.id.toJson), ("method", .str r.method)]
    ++ Json.field? "params" r.params)

/-- The record type of requests. -/
def record : Json.RecordType := ⟨"struct Request", 4⟩

/-- Reads a request. -/
def ofJson : Json → Json.Decoded Request :=
  Json.readRecord record fun s =>
    Request.mk <$> Json.required record s 0 "jsonrpc" Json.asText
      <*> Json.required record s 1 "id" Id.ofJson
      <*> Json.required record s 2 "method" Json.asText
      <*> Json.optional record s 3 "params" Json.asValue

end Request

namespace Notification

/-- The JSON object of a notification. -/
def toJson (n : Notification) : Json :=
  .obj ([("jsonrpc", .str n.version), ("method", .str n.method)] ++ Json.field? "params" n.params)

/-- The record type of notifications. -/
def record : Json.RecordType := ⟨"struct Notification", 3⟩

/-- Reads a notification. -/
def ofJson : Json → Json.Decoded Notification :=
  Json.readRecord record fun s =>
    Notification.mk <$> Json.required record s 0 "jsonrpc" Json.asText
      <*> Json.required record s 1 "method" Json.asText
      <*> Json.optional record s 2 "params" Json.asValue

end Notification

namespace Response

/-- The answer that a request was served. -/
def success (id : Id) (result : Json) : Response := { id := some id, result := some result }

/-- The answer that a request could not be served. -/
def failure (id : Id) (error : ErrorInfo) : Response := { id := some id, error := some error }

/-- Whether no error is reported. -/
def isSuccess (r : Response) : Bool := r.error.isNone

/-- The outcome: an error where there is one, else the result, null if there is none. -/
def outcome (r : Response) : Except ErrorInfo Json :=
  match r.error with
  | some e => .error e
  | none => .ok (r.result.getD .null)

/-- The JSON object of a response. -/
def toJson (r : Response) : Json :=
  .obj ([("jsonrpc", .str r.version), ("id", match r.id with | some i => i.toJson | none => .null)]
    ++ Json.field? "result" r.result ++ Json.field? "error" (r.error.map ErrorInfo.toJson))

/-- The record type of responses. -/
def record : Json.RecordType := ⟨"struct Response", 4⟩

/-- Reads a response. -/
def ofJson : Json → Json.Decoded Response :=
  Json.readRecord record fun s =>
    Response.mk <$> Json.required record s 0 "jsonrpc" Json.asText
      <*> Json.optional record s 1 "id" Id.ofJson
      <*> Json.optional record s 2 "result" Json.asValue
      <*> Json.optional record s 3 "error" ErrorInfo.ofJson

end Response

/-! ## Classification -/

/-- A message of any of the three kinds. -/
inductive Message
  | request (r : Request)
  | notification (n : Notification)
  | response (r : Response)
  deriving Repr, Inhabited

/-- Why a text is no message. -/
inductive MessageFault
  | notJson (text : List Char) (fault : Json.SyntaxFault)
  | wrongForm (fault : Json.ReadFault)
  | notAMessage

namespace MessageFault

/-- The wording of a fault. -/
def message : MessageFault → String
  | .notJson text fault => fault.message text
  | .wrongForm fault => fault.message
  | .notAMessage => "Invalid LSP message"

end MessageFault

namespace Message

/-- Which kind of message an object claims to be. -/
inductive Kind
  | request
  | notification
  | response
  deriving DecidableEq, Repr

/-- The kind of message that a value is, by its keys. -/
def kindOf (v : Json) : Option Kind :=
  let hasId := match v.get? "id" with | some i => !i.isNull | none => false
  let hasMethod := (v.get? "method").isSome
  let hasOutcome := (v.get? "result").isSome || (v.get? "error").isSome
  if hasId && hasMethod then some .request
  else if !hasMethod && hasOutcome then some .response
  else if !hasId && hasMethod then some .notification
  else none

/-- Reads a message from a JSON value. -/
def ofJson (v : Json) : Except MessageFault Message :=
  match kindOf v with
  | some .request => ((Request.ofJson v).map Message.request).mapError .wrongForm
  | some .notification => ((Notification.ofJson v).map Message.notification).mapError .wrongForm
  | some .response => ((Response.ofJson v).map Message.response).mapError .wrongForm
  | none => .error .notAMessage

/-- Reads a message from its text. -/
def parseChars (text : List Char) : Except MessageFault Message :=
  match Json.parseChars text with
  | .error fault => .error (.notJson text fault)
  | .ok v => ofJson v

/-- The JSON object of a message. -/
def toJson : Message → Json
  | .request r => r.toJson
  | .notification n => n.toJson
  | .response r => r.toJson

/-- The number of the id of a message. -/
def idNumber? : Message → Option Nat
  | .request r => r.id.number?
  | .notification _ => none
  | .response r => r.id.bind Id.number?

end Message

end SymbolQuery.Rpc
