import Harp.Core.AgentConfig
import Harp.Core.Ops
import Harp.Lib.Text

/-
  The approval gate (`src/security/ApprovalGate.ts`).
-/

namespace Harp

open Prog

namespace ApprovalGate

/-- The task/action combination demands human approval. -/
def requiresApproval (task : AgentTask) (action : String) : Bool :=
  if approvalForcingRisk task.riskLevel then true
  else if task.requiresRepoWrite.getD false || task.touchesSecrets.getD false then true
  else stateChangingActionMarkers.any fun marker => Js.includes (Js.toLowerCase action) marker

def evaluate (request : ApprovalRequest) : OrchProg (Except Thrown ApprovalDecision) :=
  if requiresApproval request.task request.action then
    perform (OrchOp.sys (.requestApproval request))
  else do
    let timestamp ← perform (OrchOp.sys .now)
    pure (.ok {
      required := false
      approved := true
      reason := "Approval not required."
      approverId := none
      timestamp := timestamp })

/-- The action of the orchestrator's only gate is itself one of the markers. -/
theorem requiresApproval_repo_write (task : AgentTask) :
    requiresApproval task "repo.write" = true := by
  have hm : (stateChangingActionMarkers.any fun marker =>
      Js.includes (Js.toLowerCase "repo.write") marker) = true := by decide
  unfold requiresApproval
  rw [hm]
  simp

end ApprovalGate

/-- A decision on which the orchestrator goes on: approved, or not needed. -/
def ApprovalDecision.passes (d : ApprovalDecision) : Bool := !d.required || d.approved

/-! ## The providers of the source -/

section Providers

variable {ε : Type} (now : ε → String × ε)

/-- Without a human approval integration, what must be approved is held back. -/
def ConsoleApprovalProvider.requestApproval (input : ApprovalRequest) (e : ε) :
    Except Thrown ApprovalDecision × ε :=
  (.ok {
    required := true
    approved := false
    reason := "Approval required for phase \"" ++ input.phase ++ "\" (action: " ++ input.action ++
      "). " ++ "Console logging is not a production approval mechanism; route this to a human " ++
      "approval UI, PR review, or signed approval event."
    approverId := none
    timestamp := (now e).1 }, (now e).2)

/-- For tests and bounded low-risk automation; `approverId` is "test-harness" by default. -/
def AutoApproveProvider.requestApproval (approverId : String) (input : ApprovalRequest) (e : ε) :
    Except Thrown ApprovalDecision × ε :=
  (.ok {
    required := true
    approved := true
    reason := "Auto-approved for " ++ input.phase ++ "."
    approverId := some approverId
    timestamp := (now e).1 }, (now e).2)

end Providers

end Harp
