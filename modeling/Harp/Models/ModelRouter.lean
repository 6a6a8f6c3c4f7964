import Harp.Core.AgentConfig
import Harp.Core.Ops

/-
  The model router (`src/models/ModelRouter.ts`): its state, and `generate` as a program
  that reads the usage counter, awaits the provider and then updates counter and records.
-/

namespace Harp

open Prog

/-- The mutable state of a `ModelRouter`; a missing entry of the usage map counts as zero.
    The budget is fixed when a router is built, so it is an argument where it is read. -/
structure ModelRouter where
  usageByWorkflow : String → Option Nat
  records : List ModelCallRecord

namespace ModelRouter

/-- The budget of `new ModelRouter(provider, { workflowTokenBudget })`. -/
def budgetOf (workflowTokenBudget : Option Nat) : Nat :=
  workflowTokenBudget.getD defaultWorkflowTokenBudget

/-- The state of a new router. -/
def create : ModelRouter where
  usageByWorkflow _ := none
  records := []

def usage (router : ModelRouter) (workflowId : String) : Nat :=
  (router.usageByWorkflow workflowId).getD 0

def remainingBudget (budget : Nat) (router : ModelRouter) (workflowId : String) : Nat :=
  budget - router.usage workflowId

def callRecords (router : ModelRouter) : List ModelCallRecord := router.records

/-- The record that `generate` pushes for a response. -/
def recordOf (request : ModelRequest) (response : ModelResponse) (timestamp : String) :
    ModelCallRecord where
  agentId := request.agentId
  taskId := request.taskId
  workflowId := request.workflowId
  modelUsed := response.modelUsed
  modelClass := response.modelClass
  inputTokens := response.inputTokens
  outputTokens := response.outputTokens
  estimatedCostUsd := response.estimatedCostUsd
  latencyMs := response.latencyMs
  timestamp := timestamp

/-- The state after a response: the counter is set to `total` and the call is recorded. -/
def recordCall (router : ModelRouter) (workflowId : String) (total : Nat)
    (request : ModelRequest) (response : ModelResponse) (timestamp : String) : ModelRouter :=
  { usageByWorkflow := Function.update router.usageByWorkflow workflowId (some total)
    records := router.records ++ [recordOf request response timestamp] }

/-- The key under which a request is accounted: `request.workflowId ?? "unscoped"`. -/
def keyOf (workflowId : Option String) : String := workflowId.getD "unscoped"

/-- `generate` after the provider answered `answer` to a call that had read `usedSoFar`. -/
def generateSettled (request : ModelRequest) (usedSoFar : Nat)
    (answer : Except Thrown ModelResponse) : SysProg (Except Thrown ModelResponse) :=
  match answer with
  | .error e => pure (.error e)
  | .ok response => do
    let totalTokens := response.inputTokens + response.outputTokens
    perform (SysOp.recordCall (keyOf request.workflowId) (usedSoFar + totalTokens) request
      response)
    pure (.ok response)

/-- `generate` after it has read `usedSoFar` from the usage map. -/
def generateChecked (budget : Nat) (request : ModelRequest) (usedSoFar : Nat) :
    SysProg (Except Thrown ModelResponse) :=
  if usedSoFar ≥ budget then
    pure (.error (.tokenBudgetExceeded (keyOf request.workflowId) usedSoFar budget))
  else do
    let answer ← perform (SysOp.providerGenerate request)
    generateSettled request usedSoFar answer

def generate (budget : Nat) (request : ModelRequest) : SysProg (Except Thrown ModelResponse) := do
  let usedSoFar ← perform (SysOp.usage (keyOf request.workflowId))
  generateChecked budget request usedSoFar

@[simp] theorem usage_create (key : String) : create.usage key = 0 := rfl

@[simp] theorem records_recordCall (router : ModelRouter) (key : String) (total : Nat)
    (request : ModelRequest) (response : ModelResponse) (t : String) :
    (router.recordCall key total request response t).records =
      router.records ++ [recordOf request response t] := rfl

theorem usage_recordCall (router : ModelRouter) (key key' : String) (total : Nat)
    (request : ModelRequest) (response : ModelResponse) (t : String) :
    (router.recordCall key total request response t).usage key' =
      if key' = key then total else router.usage key' := by
  unfold usage recordCall
  by_cases h : key' = key
  · subst h; simp
  · simp [h]

end ModelRouter

end Harp
