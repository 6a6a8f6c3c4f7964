import Harp.Gateway.ContainerReply
import Harp.Lib.Program

/-
  The server of a container (`src/container/src/server.ts`).

  The request body is cast to the wire type without a look at it, so here it is any JSON value. The
  contained provider is code from outside, and so is the text of what it rejects with, since
  reading it may run code of the value. A reply is the JSON value of its body: a member that is
  `undefined` is left out, and a number that is not finite is written as `null`.
-/

namespace Harp

open Prog

/-- A number, with one value for those that JSON has no text for. -/
inductive JsNumber where
  | finite (mantissa exponent : Int)
  | nonFinite
  deriving DecidableEq, Repr

def JsNumber.json : JsNumber → Json
  | finite m e => .num m e
  | nonFinite => .null

/-- What the provider gets: properties of an unchecked value. -/
structure ProviderInput where
  modelClass : Option Json
  systemPrompt : Option Json
  userPrompt : Option Json
  temperature : Option Json
  highRisk : Option Json
  deadlineMs : Option Json

structure ProviderOutput where
  text : String
  modelUsed : String
  modelClass : WireModelClass
  inputTokens : JsNumber
  outputTokens : JsNumber
  estimatedCostUsd : JsNumber
  latencyMs : JsNumber
  deriving DecidableEq, Repr

/-- A request; `body` is what reading it resolves or rejects with. -/
structure IncomingMessage (E : Type) where
  method : String
  url : String
  body : Except E String

inductive ServerOp (E : Type) where
  /-- `options.provider.generate(input)`. -/
  | generate (input : ProviderInput)
  /-- `error instanceof Error ? error.message : String(error)`. -/
  | errorText (error : E)
  /-- `sendJson(res, status, body)`. -/
  | sendJson (status : ℕ) (body : Json)

abbrev ServerOp.Res {E : Type} : ServerOp E → Type
  | generate _ => Except E ProviderOutput
  | errorText _ => Except E String
  | sendJson .. => Unit

/-- What the handler can throw: an error of the engine's own, or a value from outside. -/
inductive ServerError (E : Type) where
  | typeError (message : String)
  | thrown (error : E)

/-- What the engine prints: numbers, and the messages of its two errors. -/
structure Engine where
  number : Int → Int → String
  /-- "Cannot read properties of null …". -/
  readOfNull : String
  /-- "Cannot convert object to primitive value". -/
  noPrimitive : String

namespace ContainerServer

/-- Code that may throw. -/
abbrev Call (E α : Type) := ExceptT (ServerError E) (Prog (ServerOp E) ServerOp.Res) α

variable {E : Type}

def generate (input : ProviderInput) : Call E ProviderOutput :=
  ExceptT.mk (perform (ServerOp.generate input) >>= fun answer =>
    pure (answer.mapError ServerError.thrown))

def errorText : ServerError E → Call E String
  | .typeError message => pure message
  | .thrown error =>
    ExceptT.mk (perform (ServerOp.errorText error) >>= fun answer =>
      pure (answer.mapError ServerError.thrown))

def sendJson (status : ℕ) (body : Json) : Call E Unit :=
  ExceptT.lift (perform (ServerOp.sendJson status body))

/-- The members of an object literal that are not `undefined`. -/
def literal (members : List (String × Option Json)) : Json :=
  .obj (members.filterMap fun m => m.2.map (m.1, ·))

def failure (correlationId : Option Json) (kind : ContainerFailureKind) (message : String)
    (retryable : Bool) : Json :=
  literal [("ok", some (.bool false)),
    ("protocolVersion", some (.str wireProtocolVersion)),
    ("correlationId", correlationId),
    ("kind", some (.str kind.text)),
    ("message", some (.str message)),
    ("retryable", some (.bool retryable))]

def success (correlationId : Option Json) (out : ProviderOutput) : Json :=
  literal [("ok", some (.bool true)),
    ("protocolVersion", some (.str wireProtocolVersion)),
    ("correlationId", correlationId),
    ("text", some (.str out.text)),
    ("modelUsed", some (.str out.modelUsed)),
    ("modelClass", some (.str out.modelClass.text)),
    ("inputTokens", some out.inputTokens.json),
    ("outputTokens", some out.outputTokens.json),
    ("estimatedCostUsd", some out.estimatedCostUsd.json),
    ("latencyMs", some out.latencyMs.json)]

/-- The reply of the outer `catch`. -/
def outerFailure (message : String) : Json :=
  .obj [("ok", .bool false), ("message", .str message)]

def healthResponse (descriptor : ContainerDescriptor) : Json :=
  .obj [("ok", .bool true),
    ("descriptor", .obj [("id", .str descriptor.id),
      ("servesClasses", .arr (descriptor.servesClasses.map fun c => .str c.text)),
      ("tier", .str (match descriptor.tier with | .primary => "primary" | .backup => "backup")),
      ("providerFamily", .str descriptor.providerFamily)]),
    ("protocolVersion", .str wireProtocolVersion)]

def malformed : Json := failure (some (.str "unknown")) .badRequest "Malformed JSON body." false

def mismatch (request : Json) (got : String) : Json :=
  failure (request.get "correlationId") .badRequest
    ("Protocol mismatch: got " ++ got ++ ", want " ++ wireProtocolVersion ++ ".") false

def inputOf (request : Json) : ProviderInput where
  modelClass := request.get "modelClass"
  systemPrompt := request.get "systemPrompt"
  userPrompt := request.get "userPrompt"
  temperature := request.get "temperature"
  highRisk := request.get "highRisk"
  deadlineMs := request.get "deadlineMs"

/-- `request.protocolVersion === WIRE_PROTOCOL_VERSION`. -/
def versionMatches (request : Json) : Bool :=
  Json.isStr wireProtocolVersion (request.get "protocolVersion")

/-- The contained provider is called, and what it rejects with is answered. -/
def callProvider (request : Json) : Call E Unit :=
  tryCatch
    (do
      let out ← generate (inputOf request)
      sendJson 200 (success (request.get "correlationId") out))
    fun error => do
      let message ← errorText error
      sendJson 502 (failure (request.get "correlationId") .providerError message true)

/-- `POST /v1/generate`, once the body is read. -/
def handleGenerate (engine : Engine) (raw : String) : Call E Unit :=
  match Json.parse raw.toList with
  | none => sendJson 400 malformed
  | some request =>
    if request.isNull then throw (.typeError engine.readOfNull)
    else if !versionMatches request then
      match Json.textOf engine.number (request.get "protocolVersion") with
      | some got => sendJson 400 (mismatch request got)
      | none => throw (.typeError engine.noPrimitive)
    else callProvider request

/-- The request handler. -/
def handle (engine : Engine) (descriptor : ContainerDescriptor) (req : IncomingMessage E) :
    Call E Unit :=
  tryCatch
    (if req.method = "GET" ∧ req.url = "/v1/health" then
      sendJson 200 (healthResponse descriptor)
    else if req.method = "POST" ∧ req.url = "/v1/generate" then
      match req.body with
      | .error e => throw (.thrown e)
      | .ok raw => handleGenerate engine raw
    else sendJson 404 (outerFailure "Not found"))
    fun error => do
      let message ← errorText error
      sendJson 500 (outerFailure message)

/-- A request to generate whose body has been read. -/
def post (raw : String) : IncomingMessage E where
  method := "POST"
  url := "/v1/generate"
  body := .ok raw

end ContainerServer

end Harp
