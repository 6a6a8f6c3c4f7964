import Harp.Gateway.Wire
import Harp.Lib.Json

/-
  Which JSON values are container responses (`src/gateway/contracts/wire.ts`).

  A type of TypeScript is checked nowhere at run time. `isSuccess` and `isFailure` check a value
  for the fields of `ContainerSuccess` and of `ContainerFailure`; what else a value has does not
  matter.
-/

namespace Json

def isString : Option Json → Bool
  | some (.str _) => true
  | _ => false

def isNumber : Option Json → Bool
  | some (.num _ _) => true
  | _ => false

def isBool (b : Bool) : Option Json → Bool
  | some (.bool b') => b' == b
  | _ => false

end Json

namespace Harp

def wireModelClasses : List WireModelClass :=
  [.localFast, .localReasoning, .cloudFast, .cloudReasoning, .cloudCoding, .frontierReasoning,
    .embedding, .reranker, .securitySpecialist, .longContext]

def containerFailureKinds : List ContainerFailureKind :=
  [.timeout, .providerError, .overloaded, .badRequest, .unauthorized, .internal]

theorem mem_containerFailureKinds (k : ContainerFailureKind) : k ∈ containerFailureKinds := by
  cases k <;> decide

namespace ContainerReply

def isSuccess (v : Json) : Bool :=
  Json.isBool true (v.get "ok") && Json.isString (v.get "protocolVersion") &&
    Json.isString (v.get "correlationId") && Json.isString (v.get "text") &&
    Json.isString (v.get "modelUsed") &&
    wireModelClasses.any (fun c => Json.isStr c.text (v.get "modelClass")) &&
    Json.isNumber (v.get "inputTokens") && Json.isNumber (v.get "outputTokens") &&
    Json.isNumber (v.get "estimatedCostUsd") && Json.isNumber (v.get "latencyMs")

def isFailure (v : Json) : Bool :=
  Json.isBool false (v.get "ok") && Json.isString (v.get "protocolVersion") &&
    Json.isString (v.get "correlationId") &&
    containerFailureKinds.any (fun k => Json.isStr k.text (v.get "kind")) &&
    Json.isString (v.get "message") &&
    (Json.isBool true (v.get "retryable") || Json.isBool false (v.get "retryable"))

/-- The value is a container response. -/
def wellFormed (v : Json) : Bool := isSuccess v || isFailure v

theorem any_kind (k : ContainerFailureKind) :
    containerFailureKinds.any (fun k' => Json.isStr k'.text (some (.str k.text))) = true :=
  List.any_eq_true.mpr ⟨k, mem_containerFailureKinds k, by simp [Json.isStr]⟩

end ContainerReply

end Harp
