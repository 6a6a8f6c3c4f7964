import Harp.Gateway.Router
import Harp.Lib.Program

/-
  The concierge (`src/gateway/concierge/Concierge.ts`).

  `generate` is a program over what the concierge reaches outside itself: the id source, the
  logger, the registry and the transport. The two nested loops are two recursions: over the
  attempts left on one container, and over the containers left in the plan. The redactor is
  any function (`Redactor` is an interface).
-/

namespace Harp

open Prog

structure CoreModelRequest where
  modelClass : WireModelClass
  systemPrompt : String
  userPrompt : String
  temperature : Option ℚ
  agentId : Option String
  taskId : Option String
  workflowId : Option String
  highRisk : Option Bool

structure CoreModelResponse where
  text : String
  modelUsed : String
  modelClass : WireModelClass
  inputTokens : Nat
  outputTokens : Nat
  estimatedCostUsd : ℚ
  latencyMs : ℚ
  deriving DecidableEq

inductive GatewayOp where
  /-- `randomUUID()`. -/
  | randomUUID
  /-- `logger.log(fields)`. -/
  | log (fields : SafeLogFields)
  /-- `registry.serving(modelClass)`, read by the router. -/
  | serving (modelClass : WireModelClass)
  /-- `transport.deliver(container, request)`. -/
  | deliver (container : RegisteredContainer) (request : ContainerRequest)
  /-- `registry.markHealth(id, healthy)`. -/
  | markHealth (id : String) (healthy : Bool)

/-- What a delivery comes back with: the transport may throw. -/
abbrev DeliveryAnswer := Except Thrown ContainerResponse

abbrev GatewayOp.Res : GatewayOp → Type
  | randomUUID => String
  | log _ => Unit
  | serving _ => List RegisteredContainer
  | deliver .. => DeliveryAnswer
  | markHealth .. => Unit

abbrev GatewayProg := Prog GatewayOp GatewayOp.Res

namespace Concierge

/-- What a concierge is built with: the router's retries, the redactor and the deadline. -/
structure Config where
  retriesPerContainer : Nat
  redact : String → RedactionResult
  deadlineMs : Option Nat

/-- What one request fixes for all its deliveries. -/
structure Envelope where
  correlationId : String
  modelClass : WireModelClass
  request : ContainerRequest

/-- "unauthorized" and "bad_request" are neither retryable nor a health problem. -/
def fatal (kind : ContainerFailureKind) : Bool := kind == .unauthorized || kind == .badRequest

def coreResponse (r : ContainerSuccess) : CoreModelResponse where
  text := r.text
  modelUsed := r.modelUsed
  modelClass := r.modelClass
  inputTokens := r.inputTokens
  outputTokens := r.outputTokens
  estimatedCostUsd := r.estimatedCostUsd
  latencyMs := r.latencyMs

def fatalError (container : RegisteredContainer) (f : ContainerFailure) : Thrown :=
  .conciergeError ("Container " ++ container.descriptor.id ++ " returned " ++ f.kind.text ++ ": " ++
    f.message) (some f.kind.text)

def noRouteError (modelClass : WireModelClass) : Thrown :=
  .conciergeError ("No healthy container serves model class \"" ++ modelClass.text ++ "\". " ++
    "Reporting to core rather than downgrading.") (some "no_route")

def exhaustedError (modelClass : WireModelClass) (lastKind : Option String) : Thrown :=
  .conciergeError ("All containers for class \"" ++ modelClass.text ++ "\" failed (last: " ++
    lastKind.getD "unknown" ++ "). " ++ "Reporting to core; no weaker model substituted.") lastKind

/-- How the deliveries to one container end. -/
inductive Tried where
  | resolved (r : CoreModelResponse)
  | thrown (e : Thrown)
  /-- On to the next container, with `lastKind`. -/
  | moveOn (lastKind : Option String)

/-- The attempts on one container; `left` of the router's retries are left. -/
def attempts (retries : Nat) (env : Envelope) (container : RegisteredContainer) :
    Nat → Option String → GatewayProg Tried
  | 0, lastKind => pure (.moveOn lastKind)
  | left + 1, _ => do
    let attempt := retries - left
    match ← perform (GatewayOp.deliver container env.request) with
    | .error _ => do
      perform (GatewayOp.log {
        event := "concierge.transport_error"
        correlationId := some env.correlationId
        containerId := some container.descriptor.id
        attempt := some attempt
        outcome := some (if attempt < retries then .retry else .failover)
        failureKind := some "transport" })
      attempts retries env container left (some "transport")
    | .ok (.success r) => do
      perform (GatewayOp.log {
        event := "concierge.success"
        correlationId := some env.correlationId
        containerId := some container.descriptor.id
        modelClass := some r.modelClass
        outcome := some .success
        attempt := some attempt
        latencyMs := some r.latencyMs
        inputTokens := some r.inputTokens
        outputTokens := some r.outputTokens })
      pure (.resolved (coreResponse r))
    | .ok (.failure f) =>
      if fatal f.kind then do
        perform (GatewayOp.log {
          event := "concierge.fatal_failure"
          correlationId := some env.correlationId
          containerId := some container.descriptor.id
          outcome := some .failure
          failureKind := some f.kind.text
          attempt := some attempt })
        pure (.thrown (fatalError container f))
      else do
        let willRetrySame := f.retryable && decide (attempt < retries)
        perform (GatewayOp.log {
          event := "concierge.container_failure"
          correlationId := some env.correlationId
          containerId := some container.descriptor.id
          failureKind := some f.kind.text
          attempt := some attempt
          outcome := some (if willRetrySame then .retry else .failover) })
        if willRetrySame then attempts retries env container left (some f.kind.text)
        else do
          perform (GatewayOp.markHealth container.descriptor.id false)
          pure (.moveOn (some f.kind.text))

/-- The containers of the plan, one after the other. -/
def failover (retries : Nat) (env : Envelope) :
    List RegisteredContainer → Option String →
      GatewayProg (Except Thrown CoreModelResponse)
  | [], lastKind => do
    perform (GatewayOp.log {
      event := "concierge.exhausted"
      correlationId := some env.correlationId
      modelClass := some env.modelClass
      outcome := some .failure
      failureKind := lastKind })
    pure (.error (exhaustedError env.modelClass lastKind))
  | container :: rest, lastKind => do
    match ← attempts retries env container retries lastKind with
    | .resolved r => pure (.ok r)
    | .thrown e => pure (.error e)
    | .moveOn lastKind => failover retries env rest lastKind

def envelope (config : Config) (request : CoreModelRequest) (correlationId : String) :
    Envelope where
  correlationId := correlationId
  modelClass := request.modelClass
  request := {
    protocolVersion := wireProtocolVersion
    correlationId := correlationId
    modelClass := request.modelClass
    systemPrompt := (config.redact request.systemPrompt).text
    userPrompt := (config.redact request.userPrompt).text
    temperature := request.temperature
    highRisk := request.highRisk.getD false
    deadlineMs := config.deadlineMs.getD 60000 }

/-- The deliveries along a plan that has been made. -/
def deliverAlong (config : Config) (request : CoreModelRequest) (correlationId : String)
    (plan : List RegisteredContainer) : GatewayProg (Except Thrown CoreModelResponse) :=
  if plan.length = 0 then do
    perform (GatewayOp.log {
      event := "concierge.no_route"
      correlationId := some correlationId
      modelClass := some request.modelClass
      outcome := some .failure })
    pure (.error (noRouteError request.modelClass))
  else failover config.retriesPerContainer (envelope config request correlationId) plan none

def generate (config : Config) (request : CoreModelRequest) :
    GatewayProg (Except Thrown CoreModelResponse) := do
  let correlationId ← perform GatewayOp.randomUUID
  let redactions := (config.redact request.systemPrompt).findings ++
    (config.redact request.userPrompt).findings
  perform (GatewayOp.log {
    event := "concierge.request"
    correlationId := some correlationId
    modelClass := some request.modelClass
    redactions := if redactions.length = 0 then none else some redactions })
  let serving ← perform (GatewayOp.serving request.modelClass)
  deliverAlong config request correlationId (Router.tiered serving)

end Concierge

/-! ## The world of a concierge -/

/-- Everything outside: ids, the log, and a transport. It keeps a hidden state, so a delivery
    may depend on the whole history; while one is under way other calls may change the
    registry, so a delivery also returns the registry it leaves. -/
structure GatewayEnv (ε : Type) where
  randomUUID : ε → String × ε
  log : SafeLogFields → ε → ε
  deliver : RegisteredContainer → ContainerRequest → ContainerRegistry → ε →
    DeliveryAnswer × ContainerRegistry × ε

structure GatewayWorld (ε : Type) where
  env : ε
  registry : ContainerRegistry

def gatewayHandler {ε : Type} (env : GatewayEnv ε) :
    Handler GatewayOp GatewayOp.Res (GatewayWorld ε)
  | .randomUUID, w => ((env.randomUUID w.env).1, { w with env := (env.randomUUID w.env).2 })
  | .log fields, w => ((), { w with env := env.log fields w.env })
  | .serving modelClass, w => (w.registry.serving modelClass, w)
  | .deliver container request, w =>
    let d := env.deliver container request w.registry w.env
    (d.1, { env := d.2.2, registry := d.2.1 })
  | .markHealth id healthy, w => ((), { w with registry := w.registry.markHealth id healthy })

end Harp
