import Harp.Gateway.Concierge
import Harp.Lib.Json

/-
  The concierge over the mTLS transport (`src/gateway/concierge/MtlsHttpTransport.ts`,
  `src/gateway/concierge/Concierge.ts`).

  `deliver` casts what `JSON.parse` returns to a response without looking at it, so here a
  response is any JSON value and `generate` reads its properties as JavaScript does: a missing
  one is `undefined` (`none`), a condition takes a value as true or false, and reading a
  property of `null` or printing an object that has a `toString` of its own throws a
  `TypeError`. How a number prints is a parameter.
-/

namespace Harp

open Prog

/-! ## The transport -/

/-- How an exchange with a container ends: `new URL` or `https.request` throws, the request
    emits an error (with `err.message`, or "deadline exceeded"), or a whole reply arrives. -/
inductive HttpOutcome where
  | unsent (e : Thrown)
  | failed (message : String)
  | reply (status : Nat) (body : String)

namespace MtlsHttpTransport

def fail (request : ContainerRequest) (kind : ContainerFailureKind) (message : String)
    (retryable : Bool) : Json :=
  .obj [("ok", .bool false),
    ("protocolVersion", .str request.protocolVersion),
    ("correlationId", .str request.correlationId),
    ("kind", .str kind.text),
    ("message", .str message),
    ("retryable", .bool retryable)]

/-- What `deliver` resolves or rejects with. -/
def response (request : ContainerRequest) : HttpOutcome → Except Thrown Json
  | .unsent e => .error e
  | .failed message =>
    let kind := if Js.testIgnoreCase "timeout" message || Js.testIgnoreCase "deadline" message
      then ContainerFailureKind.timeout else .internal
    .ok (fail request kind message true)
  | .reply status body =>
    if status = 401 ∨ status = 403 then
      .ok (fail request .unauthorized ("HTTP " ++ toString status) false)
    else if status = 503 then .ok (fail request .overloaded "Container overloaded" true)
    else match Json.parse body.toList with
      | some v => .ok v
      | none => .ok (fail request .internal "Unparseable container response" true)

end MtlsHttpTransport

/-! ## The concierge, on unchecked responses -/

/-- The fields of a log line; what is copied from a response is any value. -/
structure WireLogFields where
  event : String
  correlationId : Option String := none
  containerId : Option String := none
  modelClass : Option Json := none
  outcome : Option LogOutcome := none
  failureKind : Option Json := none
  attempt : Option Nat := none
  latencyMs : Option Json := none
  inputTokens : Option Json := none
  outputTokens : Option Json := none
  redactions : Option (List RedactionFinding) := none

inductive WireOp where
  /-- `randomUUID()`. -/
  | randomUUID
  /-- `logger.log(fields)`. -/
  | log (fields : WireLogFields)
  /-- `registry.serving(modelClass)`, read by the router. -/
  | serving (modelClass : WireModelClass)
  /-- One HTTPS exchange with a container. -/
  | exchange (container : RegisteredContainer) (request : ContainerRequest)
  /-- `registry.markHealth(id, healthy)`. -/
  | markHealth (id : String) (healthy : Bool)

abbrev WireOp.Res : WireOp → Type
  | randomUUID => String
  | log _ => Unit
  | serving _ => List RegisteredContainer
  | exchange .. => HttpOutcome
  | markHealth .. => Unit

abbrev WireProg := Prog WireOp WireOp.Res

/-- The object `generate` resolves with; a field that the response lacks is `undefined`. -/
structure WireResponse where
  text : Option Json
  modelUsed : Option Json
  modelClass : Option Json
  inputTokens : Option Json
  outputTokens : Option Json
  estimatedCostUsd : Option Json
  latencyMs : Option Json

/-- What `generate` rejects with. -/
inductive WireThrown where
  | conciergeError (message : String) (lastKind : Option Json)
  | typeError

namespace WireConcierge

open Concierge (Config Envelope envelope)

inductive Tried where
  | resolved (r : WireResponse)
  | thrown (e : WireThrown)
  | moveOn (lastKind : Option Json)

def coreResponse (response : Json) : WireResponse where
  text := response.get "text"
  modelUsed := response.get "modelUsed"
  modelClass := response.get "modelClass"
  inputTokens := response.get "inputTokens"
  outputTokens := response.get "outputTokens"
  estimatedCostUsd := response.get "estimatedCostUsd"
  latencyMs := response.get "latencyMs"

/-- A property taken as a condition; `undefined` is false. -/
def holds (value : Option Json) : Bool := (value.map Json.truthy).getD false

def fatal (kind : Option Json) : Bool :=
  Json.isStr "unauthorized" kind || Json.isStr "bad_request" kind

section Errors

variable (number : Int → Int → String)

/-- The error of a fatal response, whose `kind` is one of two strings. -/
def fatalError (container : RegisteredContainer) (response : Json) : WireThrown :=
  match Json.textOf number (response.get "kind"), Json.textOf number (response.get "message") with
  | some kind, some message =>
    .conciergeError ("Container " ++ container.descriptor.id ++ " returned " ++ kind ++ ": " ++
      message) (response.get "kind")
  | _, _ => .typeError

def noRouteError (modelClass : WireModelClass) : WireThrown :=
  .conciergeError ("No healthy container serves model class \"" ++ modelClass.text ++ "\". " ++
    "Reporting to core rather than downgrading.") (some (.str "no_route"))

/-- `value ?? "unknown"`. -/
def orUnknown : Option Json → Json
  | none | some .null => .str "unknown"
  | some v => v

def exhaustedError (modelClass : WireModelClass) (lastKind : Option Json) : WireThrown :=
  match (orUnknown lastKind).toText number with
  | some kind =>
    .conciergeError ("All containers for class \"" ++ modelClass.text ++ "\" failed (last: " ++
      kind ++ "). " ++ "Reporting to core; no weaker model substituted.") lastKind
  | none => .typeError

end Errors

/-- `transport.deliver(container, request)`. -/
def deliver (container : RegisteredContainer) (request : ContainerRequest) :
    WireProg (Except Thrown Json) := do
  let outcome ← perform (WireOp.exchange container request)
  pure (MtlsHttpTransport.response request outcome)

/-- The attempts on one container; `left` of the router's retries are left. -/
def attempts (number : Int → Int → String) (retries : Nat) (env : Envelope)
    (container : RegisteredContainer) : Nat → Option Json → WireProg Tried
  | 0, lastKind => pure (.moveOn lastKind)
  | left + 1, _ => do
    let attempt := retries - left
    match ← deliver container env.request with
    | .error _ => do
      perform (WireOp.log {
        event := "concierge.transport_error"
        correlationId := some env.correlationId
        containerId := some container.descriptor.id
        attempt := some attempt
        outcome := some (if attempt < retries then .retry else .failover)
        failureKind := some (.str "transport") })
      attempts number retries env container left (some (.str "transport"))
    | .ok response =>
      -- `response.ok` of `null`
      if response.isNull then pure (.thrown .typeError)
      else if holds (response.get "ok") then do
        perform (WireOp.log {
          event := "concierge.success"
          correlationId := some env.correlationId
          containerId := some container.descriptor.id
          modelClass := response.get "modelClass"
          outcome := some .success
          attempt := some attempt
          latencyMs := response.get "latencyMs"
          inputTokens := response.get "inputTokens"
          outputTokens := response.get "outputTokens" })
        pure (.resolved (coreResponse response))
      else
        let kind := response.get "kind"
        if fatal kind then do
          perform (WireOp.log {
            event := "concierge.fatal_failure"
            correlationId := some env.correlationId
            containerId := some container.descriptor.id
            outcome := some .failure
            failureKind := kind
            attempt := some attempt })
          pure (.thrown (fatalError number container response))
        else do
          let willRetrySame := holds (response.get "retryable") && decide (attempt < retries)
          perform (WireOp.log {
            event := "concierge.container_failure"
            correlationId := some env.correlationId
            containerId := some container.descriptor.id
            failureKind := kind
            attempt := some attempt
            outcome := some (if willRetrySame then .retry else .failover) })
          if willRetrySame then attempts number retries env container left kind
          else do
            perform (WireOp.markHealth container.descriptor.id false)
            pure (.moveOn kind)

/-- The containers of the plan, one after the other. -/
def failover (number : Int → Int → String) (retries : Nat) (env : Envelope) :
    List RegisteredContainer → Option Json → WireProg (Except WireThrown WireResponse)
  | [], lastKind => do
    perform (WireOp.log {
      event := "concierge.exhausted"
      correlationId := some env.correlationId
      modelClass := some (.str env.modelClass.text)
      outcome := some .failure
      failureKind := lastKind })
    pure (.error (exhaustedError number env.modelClass lastKind))
  | container :: rest, lastKind => do
    match ← attempts number retries env container retries lastKind with
    | .resolved r => pure (.ok r)
    | .thrown e => pure (.error e)
    | .moveOn lastKind => failover number retries env rest lastKind

/-- The deliveries along a plan that has been made. -/
def deliverAlong (number : Int → Int → String) (config : Config) (request : CoreModelRequest)
    (correlationId : String) (plan : List RegisteredContainer) :
    WireProg (Except WireThrown WireResponse) :=
  if plan.length = 0 then do
    perform (WireOp.log {
      event := "concierge.no_route"
      correlationId := some correlationId
      modelClass := some (.str request.modelClass.text)
      outcome := some .failure })
    pure (.error (noRouteError request.modelClass))
  else
    failover number config.retriesPerContainer (envelope config request correlationId) plan none

def generate (number : Int → Int → String) (config : Config) (request : CoreModelRequest) :
    WireProg (Except WireThrown WireResponse) := do
  let correlationId ← perform WireOp.randomUUID
  let redactions := (config.redact request.systemPrompt).findings ++
    (config.redact request.userPrompt).findings
  perform (WireOp.log {
    event := "concierge.request"
    correlationId := some correlationId
    modelClass := some (.str request.modelClass.text)
    redactions := if redactions.length = 0 then none else some redactions })
  let serving ← perform (WireOp.serving request.modelClass)
  deliverAlong number config request correlationId (Router.tiered serving)

end WireConcierge

/-! ## The world of a concierge over HTTPS -/

/-- Everything outside: ids, the log, and the containers behind the network. -/
structure WireEnv (ε : Type) where
  randomUUID : ε → String × ε
  log : WireLogFields → ε → ε
  exchange : RegisteredContainer → ContainerRequest → ContainerRegistry → ε →
    HttpOutcome × ContainerRegistry × ε

def wireHandler {ε : Type} (env : WireEnv ε) : Handler WireOp WireOp.Res (GatewayWorld ε)
  | .randomUUID, w => ((env.randomUUID w.env).1, { w with env := (env.randomUUID w.env).2 })
  | .log fields, w => ((), { w with env := env.log fields w.env })
  | .serving modelClass, w => (w.registry.serving modelClass, w)
  | .exchange container request, w =>
    let d := env.exchange container request w.registry w.env
    (d.1, { env := d.2.2, registry := d.2.1 })
  | .markHealth id healthy, w => ((), { w with registry := w.registry.markHealth id healthy })

end Harp
