import Harp.Container.Answers
import Harp.Gateway.WireRefinement
import Harp.Lib.JsonNumbers

/-
  Both ends of the wire (`src/gateway/concierge/MtlsHttpTransport.ts`,
  `src/container/src/server.ts`, `src/container/src/Provider.ts`).

  `Network.wire` is what the concierge reaches over HTTPS when the containers run the
  repository's own server: the request is written as JSON, the server reads it, asks its
  provider and writes its reply, the transport reads that. `Network.direct` asks the
  providers without a wire between. What the network itself does to an exchange is a `Fate`.
-/

namespace Harp

open Prog ContainerServer

/-- `JSON.stringify(request)` is the text of this value; `decimal` gives the digits and the exponent
    that a number is written with. -/
def ContainerRequest.json (decimal : ℚ → ℤ × ℤ) (request : ContainerRequest) : Json :=
  literal [("protocolVersion", some (.str request.protocolVersion)),
    ("correlationId", some (.str request.correlationId)),
    ("modelClass", some (.str request.modelClass.text)),
    ("systemPrompt", some (.str request.systemPrompt)),
    ("userPrompt", some (.str request.userPrompt)),
    ("temperature", request.temperature.map fun t => .num (decimal t).1 (decimal t).2),
    ("highRisk", some (.bool request.highRisk)),
    ("deadlineMs", some (.num (decimal request.deadlineMs).1 (decimal request.deadlineMs).2))]

/-! ## Providers that are asked, and answer, as declared -/

/-- `ProviderInput`, every field of its declared type. -/
structure Asked where
  modelClass : WireModelClass
  systemPrompt : String
  userPrompt : String
  temperature : Option ℚ
  highRisk : Bool
  deadlineMs : ℕ

/-- `ProviderOutput`, every field of its declared type. -/
structure Provided where
  text : String
  modelUsed : String
  modelClass : WireModelClass
  inputTokens : ℕ
  outputTokens : ℕ
  estimatedCostUsd : ℚ
  latencyMs : ℚ

namespace ProviderInput

def stringOf : Option Json → Option String
  | some (.str s) => some s
  | _ => none

def boolOf : Option Json → Option Bool
  | some (.bool b) => some b
  | _ => none

def modelClassOf (value : Option Json) : Option WireModelClass :=
  wireModelClasses.find? fun c => Json.isStr c.text value

def numberOf : Option Json → Option ℚ
  | some (.num m e) => some (m * 10 ^ e)
  | _ => none

/-- A number that may be missing. -/
def optionalOf : Option Json → Option (Option ℚ)
  | none => some none
  | some v => (numberOf (some v)).map some

def naturalOf (value : Option Json) : Option ℕ :=
  (numberOf value).bind fun q => if q.den = 1 ∧ 0 ≤ q.num then some q.num.toNat else none

/-- The input, if every field has its declared type. -/
def asked (input : ProviderInput) : Option Asked := do
  pure {
    modelClass := ← modelClassOf input.modelClass
    systemPrompt := ← stringOf input.systemPrompt
    userPrompt := ← stringOf input.userPrompt
    temperature := ← optionalOf input.temperature
    highRisk := ← boolOf input.highRisk
    deadlineMs := ← naturalOf input.deadlineMs }

end ProviderInput

/-- What a container's provider is asked for a request. -/
def ContainerRequest.asked (request : ContainerRequest) : Asked where
  modelClass := request.modelClass
  systemPrompt := request.systemPrompt
  userPrompt := request.userPrompt
  temperature := request.temperature
  highRisk := request.highRisk
  deadlineMs := request.deadlineMs

namespace Provided

def output (decimal : ℚ → ℤ × ℤ) (out : Provided) : ProviderOutput where
  text := out.text
  modelUsed := out.modelUsed
  modelClass := out.modelClass
  inputTokens := .finite (decimal out.inputTokens).1 (decimal out.inputTokens).2
  outputTokens := .finite (decimal out.outputTokens).1 (decimal out.outputTokens).2
  estimatedCostUsd := .finite (decimal out.estimatedCostUsd).1 (decimal out.estimatedCostUsd).2
  latencyMs := .finite (decimal out.latencyMs).1 (decimal out.latencyMs).2

/-- The response that says so. -/
def success (correlationId : String) (out : Provided) : ContainerSuccess where
  protocolVersion := wireProtocolVersion
  correlationId := correlationId
  text := out.text
  modelUsed := out.modelUsed
  modelClass := out.modelClass
  inputTokens := out.inputTokens
  outputTokens := out.outputTokens
  estimatedCostUsd := out.estimatedCostUsd
  latencyMs := out.latencyMs

end Provided

/-- The code inside a container that is not the server's. Its provider is written against the
    declared types, and what it rejects with can be printed. -/
structure ContainerHost (E ε : Type) where
  descriptor : ContainerDescriptor
  /-- `options.provider.generate(input)`. -/
  generate : Asked → ε → Except E Provided × ε
  /-- The same for an input that is not of the declared type. -/
  undeclared : ProviderInput → ε → Except E ProviderOutput × ε
  /-- `error instanceof Error ? error.message : String(error)`. -/
  errorText : E → ε → String × ε

namespace ContainerHost

variable {E ε : Type}

def handler (decimal : ℚ → ℤ × ℤ) (host : ContainerHost E ε) :
    Handler (ServerOp E) ServerOp.Res ε
  | .generate input, e =>
    match input.asked with
    | some asked =>
      ((host.generate asked e).1.map (Provided.output decimal), (host.generate asked e).2)
    | none => host.undeclared input e
  | .errorText error, e => (.ok (host.errorText error e).1, (host.errorText error e).2)
  | .sendJson .., e => ((), e)

/-- The reply of the container's server to a request to generate, if it sends one. -/
def serve (engine : Engine) (decimal : ℚ → ℤ × ℤ) (host : ContainerHost E ε) (raw : String)
    (e : ε) : Option (ℕ × Json) × ε :=
  let p := (handle engine host.descriptor (post raw : IncomingMessage E)).run
  ((replies (trace (host.handler decimal) p e)).head?, (run (host.handler decimal) p e).2)

/-- The response that the provider's answer makes. -/
def answer (host : ContainerHost E ε) (request : ContainerRequest) (e : ε) :
    ContainerResponse × ε :=
  match host.generate request.asked e with
  | (.ok out, e) => (.success (out.success request.correlationId), e)
  | (.error error, e) =>
    (.failure {
      protocolVersion := wireProtocolVersion
      correlationId := request.correlationId
      kind := .providerError
      message := (host.errorText error e).1
      retryable := true }, (host.errorText error e).2)

end ContainerHost

/-! ## The network -/

/-- What becomes of an exchange: it throws before it is sent, it fails before it is served or
    after, or it is served and the reply arrives. -/
inductive Fate where
  | unsent (e : Thrown)
  | failed (message : String)
  | lost (message : String)
  | served

structure Network (E ε : Type) where
  randomUUID : ε → String × ε
  fate : RegisteredContainer → ContainerRequest → ε → Fate × ε
  /-- The container behind an address. -/
  host : RegisteredContainer → ContainerHost E ε
  /-- What other calls do to the registry meanwhile. -/
  others : ContainerRegistry → ε → ContainerRegistry × ε

namespace Network

variable {E ε : Type}

/-- The error of an exchange that fails, as a response. -/
def failure (request : ContainerRequest) (message : String) : ContainerResponse :=
  .failure {
    protocolVersion := request.protocolVersion
    correlationId := request.correlationId
    kind := if Js.testIgnoreCase "timeout" message || Js.testIgnoreCase "deadline" message
      then .timeout else .internal
    message := message
    retryable := true }

/-- The text of a JSON value. -/
def text (engine : Engine) (v : Json) : String := String.ofList (Json.stringify engine.number v)

/-- How an exchange ends for the client; a server that never replies runs into the deadline. -/
def outcome (engine : Engine) (decimal : ℚ → ℤ × ℤ) (net : Network E ε)
    (container : RegisteredContainer) (request : ContainerRequest) (e : ε) : HttpOutcome × ε :=
  let served := (net.host container).serve engine decimal (text engine (request.json decimal))
  match net.fate container request e with
  | (.unsent t, e) => (.unsent t, e)
  | (.failed message, e) => (.failed message, e)
  | (.lost message, e) => (.failed message, (served e).2)
  | (.served, e) =>
    match served e with
    | (some (status, body), e) => (.reply status (text engine body), e)
    | (none, e) => (.failed "deadline exceeded", e)

/-- The same exchange, if the provider is asked without a wire between. -/
def delivery (net : Network E ε) (container : RegisteredContainer) (request : ContainerRequest)
    (e : ε) : DeliveryAnswer × ε :=
  match net.fate container request e with
  | (.unsent t, e) => (.error t, e)
  | (.failed message, e) => (.ok (failure request message), e)
  | (.lost message, e) =>
    (.ok (failure request message), ((net.host container).answer request e).2)
  | (.served, e) =>
    (.ok ((net.host container).answer request e).1, ((net.host container).answer request e).2)

/-- The surroundings of a concierge over HTTPS. -/
def wire (engine : Engine) (decimal : ℚ → ℤ × ℤ) (net : Network E ε) : WireEnv ε where
  randomUUID := net.randomUUID
  log _ e := e
  exchange container request registry e :=
    ((outcome engine decimal net container request e).1,
      net.others registry (outcome engine decimal net container request e).2)

/-- The surroundings of a concierge that asks the providers directly. -/
def direct (net : Network E ε) : GatewayEnv ε where
  randomUUID := net.randomUUID
  log _ e := e
  deliver container request registry e :=
    ((delivery net container request e).1,
      net.others registry (delivery net container request e).2)

end Network

end Harp
