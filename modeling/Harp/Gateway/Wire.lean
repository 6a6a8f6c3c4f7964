import Harp.Core.Types

/-
  The wire contracts of the gateway (`src/gateway/contracts/wire.ts`), the metadata that the
  safe logger takes (`src/gateway/security/SafeLogger.ts`), and the result of a redactor
  (`src/gateway/redaction/Redactor.ts`). `WireModelClass` mirrors the core's classes.
-/

namespace Harp

abbrev WireModelClass := ModelClass

def wireProtocolVersion : String := "1.0.0"

structure ContainerRequest where
  protocolVersion : String
  correlationId : String
  modelClass : WireModelClass
  systemPrompt : String
  userPrompt : String
  temperature : Option ℚ
  highRisk : Bool
  deadlineMs : Nat

structure ContainerSuccess where
  protocolVersion : String
  correlationId : String
  text : String
  modelUsed : String
  modelClass : WireModelClass
  inputTokens : Nat
  outputTokens : Nat
  estimatedCostUsd : ℚ
  latencyMs : ℚ

inductive ContainerFailureKind where
  | timeout
  | providerError
  | overloaded
  | badRequest
  | unauthorized
  | internal
  deriving DecidableEq, Repr

def ContainerFailureKind.text : ContainerFailureKind → String
  | timeout => "timeout"
  | providerError => "provider_error"
  | overloaded => "overloaded"
  | badRequest => "bad_request"
  | unauthorized => "unauthorized"
  | internal => "internal"

structure ContainerFailure where
  protocolVersion : String
  correlationId : String
  kind : ContainerFailureKind
  message : String
  retryable : Bool

/-- A discriminated result: failures are data. -/
inductive ContainerResponse where
  | success (r : ContainerSuccess)
  | failure (f : ContainerFailure)

inductive Tier where
  | primary
  | backup
  deriving DecidableEq, Repr

structure ContainerDescriptor where
  id : String
  servesClasses : List WireModelClass
  tier : Tier
  providerFamily : String
  deriving DecidableEq

/-! ## Redaction and logging -/

structure RedactionFinding where
  kind : String
  count : Nat
  deriving DecidableEq, Repr

structure RedactionResult where
  text : String
  findings : List RedactionFinding
  deriving DecidableEq, Repr

inductive LogOutcome where
  | success
  | failure
  | retry
  | failover
  deriving DecidableEq, Repr

/-- The fields a log line may carry; a line names the ones it sets. -/
structure SafeLogFields where
  event : String
  correlationId : Option String := none
  containerId : Option String := none
  modelClass : Option WireModelClass := none
  outcome : Option LogOutcome := none
  failureKind : Option String := none
  attempt : Option Nat := none
  latencyMs : Option ℚ := none
  inputTokens : Option Nat := none
  outputTokens : Option Nat := none
  redactions : Option (List RedactionFinding) := none

end Harp
