import Harp.Core.Types
import Harp.Lib.Program

/-
  The operations of a run: what happens between two awaits and touches something outside
  the running call.

  JavaScript runs the code between two awaits without interruption. Each operation below is
  such a piece: a draw of an id or of the time, one write to the audit log or to the
  artifact store, one question to the approval provider or to the model provider, one read
  of the usage counter, and the update of counter and call records after a response (one
  piece, since no await stands between the two).
-/

namespace Harp

structure ModelCallRecord where
  agentId : Option AgentId
  taskId : Option String
  workflowId : Option String
  modelUsed : String
  modelClass : ModelClass
  inputTokens : Nat
  outputTokens : Nat
  estimatedCostUsd : ℚ
  latencyMs : ℚ
  timestamp : String
  deriving DecidableEq

inductive SysOp where
  /-- `new Date().toISOString()`. -/
  | now
  /-- `randomUUID()`. -/
  | randomUUID
  /-- `auditLogger.write(event)`. -/
  | auditWrite (event : AuditEntry)
  /-- `memoryStore.append(artifact)`. -/
  | memoryAppend (artifact : Artifact)
  /-- `approvalProvider.requestApproval(request)`. -/
  | requestApproval (request : ApprovalRequest)
  /-- `usageByWorkflow.get(workflowId) ?? 0`. -/
  | usage (workflowId : String)
  /-- `provider.generate(request)`. -/
  | providerGenerate (request : ModelRequest)
  /-- `usageByWorkflow.set(workflowId, total)` and `records.push(…)` for a response. -/
  | recordCall (workflowId : String) (total : Nat) (request : ModelRequest)
      (response : ModelResponse)

/-- What an operation answers; the two providers may reject. -/
abbrev SysOp.Res : SysOp → Type
  | now => String
  | randomUUID => String
  | auditWrite _ => AuditEvent
  | memoryAppend _ => Unit
  | requestApproval _ => Except Thrown ApprovalDecision
  | usage _ => Nat
  | providerGenerate _ => Except Thrown ModelResponse
  | recordCall .. => Unit

/-- A program over these operations. -/
abbrev SysProg := Prog SysOp SysOp.Res

/-- What a call hands to an agent (`AgentExecuteInput`). -/
structure AgentExecuteInput where
  context : ScopedContext
  workflowId : String

/-- The operations of the orchestrator: those above, and running an agent. -/
inductive OrchOp where
  | sys (o : SysOp)
  /-- `agents.get(agentId).execute(input)`. -/
  | agentExecute (agentId : AgentId) (input : AgentExecuteInput)

abbrev OrchOp.Res : OrchOp → Type
  | sys o => o.Res
  | agentExecute .. => Except Thrown AgentResult

abbrev OrchProg := Prog OrchOp OrchOp.Res

end Harp
