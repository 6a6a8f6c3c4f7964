import Harp.Agents.HarpAgent
import Harp.Orchestration.ContextManager
import Harp.Orchestration.StrategySelector
import Harp.Security.ApprovalGate

/-
  The orchestrator (`src/orchestration/HarpOrchestrator.ts`).

  `execute` draws the start time and the workflow id and goes on as `executeAs`: select the
  strategy, audit the start, run the agent loop, and end in one of three ways. The arrays
  that the source pushes to are `Locals`; they survive an exception, as there. An
  exception inside the `try` is `LoopEnd.thrown`. The `catch` block reads its text before it
  audits, outside any `try`: a text that cannot be read makes `execute` itself reject.
-/

namespace Harp

open Prog

namespace HarpOrchestrator

/-- What `execute` is called with. -/
structure Input where
  task : AgentTask
  projectContext : ProjectContext
  forceStrategy : Option CoordinationStrategy

/-- What stays fixed during one call: the input, the strategy, the id and the start time. -/
structure Call where
  task : AgentTask
  projectContext : ProjectContext
  strategy : CoordinationStrategy
  workflowId : String
  startedAt : String

/-- The arrays that one call fills. -/
structure Locals where
  artifacts : List Artifact
  agentResults : List AgentResult
  completedAgents : List AgentId
  deriving DecidableEq

def Locals.empty : Locals where
  artifacts := []
  agentResults := []
  completedAgents := []

/-- After an agent returned: its result and its artifacts are pushed. -/
def Locals.push (l : Locals) (agentId : AgentId) (result : AgentResult) : Locals where
  artifacts := l.artifacts ++ result.artifacts
  agentResults := l.agentResults ++ [result]
  completedAgents := l.completedAgents ++ [agentId]

/-- How the `try` block is left. -/
inductive LoopEnd where
  /-- The sequence is done, or the strategy stopped it. -/
  | finished
  /-- `return blocked`. -/
  | blocked (result : WorkflowResult)
  | thrown (error : Thrown)

/-- How one pass of the loop ends. -/
inductive TurnEnd where
  | next
  | leave (e : LoopEnd)

def result (call : Call) (status : WorkflowStatus) (l : Locals) (approvalRequired : Bool)
    (finalRecommendation : String) (failure : Option WorkflowFailure) :
    OrchProg WorkflowResult := do
  let completedAt ← perform (OrchOp.sys .now)
  pure {
    id := call.workflowId
    task := call.task
    status := status
    strategy := call.strategy.name
    artifacts := l.artifacts
    agentResults := l.agentResults
    approvalRequired := approvalRequired
    finalRecommendation := finalRecommendation
    failure := failure
    startedAt := call.startedAt
    completedAt := completedAt }

/-- A workflow event of this call. -/
def entry (call : Call) (action : String) (approvalState : Option ApprovalState)
    (details : List (String × Detail)) : AuditEntry where
  actor := .system
  action := action
  target := some call.task.id
  workflowId := some call.workflowId
  taskId := some call.task.id
  riskLevel := some call.task.riskLevel
  approvalState := approvalState
  details := details

def optionalText : Option String → Detail
  | some s => .text s
  | none => .undefined

/-! ## The approval gate -/

def approvalRequest (call : Call) (r : AgentResult) : ApprovalRequest where
  task := call.task
  workflowId := call.workflowId
  phase := "production"
  action := "repo.write"
  details := r.summary
  artifactIds := r.artifacts.map (·.id)

def evaluatedEntry (call : Call) (decision : ApprovalDecision) : AuditEntry :=
  entry call "workflow.approval_evaluated"
    (some (if decision.required then .granted else .notRequired))
    [("reason", .text decision.reason), ("approverId", optionalText decision.approverId)]

def requiredEntry (call : Call) (decision : ApprovalDecision) : AuditEntry :=
  entry call "workflow.approval_required" (some .denied) [("reason", .text decision.reason)]

def approvalArtifact (call : Call) (decision : ApprovalDecision) (id timestamp : String) :
    Artifact where
  id := id
  type := .approvalRequest
  title := "Human Approval Required"
  content := decision.reason
  author := .pharaoh
  timestamp := timestamp
  taskId := call.task.id
  workflowId := call.workflowId
  contextSourceIds := []
  modelRoute := none
  metadata := [("blockedAgent", "ra")]

def blockedRecommendation : String :=
  "H.A.R.P. generated implementation output, but production execution is blocked pending " ++
    "human approval."

/-- `enforceApproval` on a decision that holds the work back. -/
def blockForApproval (call : Call) (l : Locals) (decision : ApprovalDecision) :
    OrchProg (WorkflowResult × Locals) := do
  let id ← perform (OrchOp.sys .randomUUID)
  let timestamp ← perform (OrchOp.sys .now)
  let artifact := approvalArtifact call decision id timestamp
  let l := { l with artifacts := l.artifacts ++ [artifact] }
  perform (OrchOp.sys (.memoryAppend artifact))
  let _ ← perform (OrchOp.sys (.auditWrite (requiredEntry call decision)))
  let blocked ← result call .approvalRequired l true blockedRecommendation none
  pure (blocked, l)

/-- Applies the gate to Ra's result `r`; a blocking result, or `none` to go on. -/
def enforceApproval (call : Call) (l : Locals) (r : AgentResult) :
    OrchProg (Except Thrown (Option WorkflowResult) × Locals) := do
  match ← ApprovalGate.evaluate (approvalRequest call r) with
  | .error e => pure (.error e, l)
  | .ok decision =>
    if decision.passes then do
      let _ ← perform (OrchOp.sys (.auditWrite (evaluatedEntry call decision)))
      pure (.ok none, l)
    else do
      let (blocked, l) ← blockForApproval call l decision
      pure (.ok (some blocked), l)

/-! ## The agent loop -/

/-- `for (const artifact of artifacts) await memoryStore.append(artifact)`. -/
def appendAll : List Artifact → OrchProg Unit
  | [] => pure ()
  | a :: as => do
    perform (OrchOp.sys (.memoryAppend a))
    appendAll as

/-- The strategy-defined early stop that ends a pass. -/
def stopCheck (call : Call) (l : Locals) : TurnEnd :=
  let state : WorkflowState :=
    { task := call.task
      completedAgents := l.completedAgents
      results := l.agentResults
      blockedForApproval := false }
  match call.strategy.stops state with
  | .error e => .leave (.thrown e)
  | .ok true => .leave .finished
  | .ok false => .next

/-- One pass of the loop, for one agent of the sequence. -/
def turn (call : Call) (agentId : AgentId) (l : Locals) : OrchProg (TurnEnd × Locals) := do
  let snapshotAt ← perform (OrchOp.sys .now)
  let context := ContextManager.createScopedContext agentId call.task call.projectContext
    l.artifacts snapshotAt
  match ← perform (OrchOp.agentExecute agentId
      { context := context, workflowId := call.workflowId }) with
  | .error e => pure (.leave (.thrown e), l)
  | .ok r => do
    let l := l.push agentId r
    appendAll r.artifacts
    if agentId = .ra then do
      match ← enforceApproval call l r with
      | (.error e, l) => pure (.leave (.thrown e), l)
      | (.ok (some blocked), l) => pure (.leave (.blocked blocked), l)
      | (.ok none, l) => pure (stopCheck call l, l)
    else pure (stopCheck call l, l)

def agentLoop (call : Call) : List AgentId → Locals → OrchProg (LoopEnd × Locals)
  | [], l => pure (.finished, l)
  | agentId :: rest, l => do
    match ← turn call agentId l with
    | (.leave e, l) => pure (e, l)
    | (.next, l) => agentLoop call rest l

/-! ## The three ends -/

def completedRecommendation : String :=
  "H.A.R.P. completed the review-build-validation loop. Apply changes only after final human " ++
    "approval and CI validation."

def completedEntry (call : Call) (l : Locals) : AuditEntry :=
  entry call "workflow.completed" none
    [("artifactCount", .number l.artifacts.length),
      ("agentRuns", .texts (l.agentResults.map fun r => r.agentId.text)),
      ("strategy", .text call.strategy.name.text)]

def complete (call : Call) (l : Locals) : OrchProg WorkflowResult := do
  let _ ← perform (OrchOp.sys (.auditWrite (completedEntry call l)))
  let approvalRequired := l.agentResults.any (·.approvalRequired)
  result call .completed l approvalRequired completedRecommendation none

/-- The last agent that completed, else the system. -/
def failedActor (completedAgents : List AgentId) : Actor :=
  match completedAgents.getLast? with
  | some a => .agent a
  | none => .system

def failedEntry (call : Call) (error : Thrown) (reason : String) : AuditEntry :=
  entry call "workflow.failed" none
    [("reason", .text reason), ("budgetExceeded", .flag error.isTokenBudgetExceeded)]

def failure (error : Thrown) (reason : String) (completedAgents : List AgentId)
    (auditEventId : String) : WorkflowFailure where
  phase := if error.isTokenBudgetExceeded then "model-routing" else "agent-execution"
  failedActor := failedActor completedAgents
  reason := reason
  auditEventId := auditEventId
  recoveryRecommendation :=
    if error.isTokenBudgetExceeded then
      "Lower model tier or increase DEFAULT_WORKFLOW_TOKEN_BUDGET."
    else "Inspect the failed agent's audit trail; fix root cause; re-run."

def failedRecommendation (error : Thrown) : String :=
  if error.isTokenBudgetExceeded then
    "Token budget exhausted. Downshift model class or raise the budget, then resume."
  else "H.A.R.P. workflow failed. Review audit logs before retrying."

/-- `handleFailure` once the text has been read. `completedAgents` is read off the results, as
    in the source. -/
def failWith (call : Call) (l : Locals) (error : Thrown) (reason : String) :
    OrchProg WorkflowResult := do
  let audit ← perform (OrchOp.sys (.auditWrite (failedEntry call error reason)))
  result call .failed l true (failedRecommendation error)
    (some (failure error reason (l.agentResults.map (·.agentId)) audit.id))

/-- Rejects with what reading the text throws, before anything is audited. -/
def handleFailure (call : Call) (l : Locals) (error : Thrown) :
    OrchProg (Except Thrown WorkflowResult) :=
  match error.reason with
  | .error thrown => pure (.error thrown)
  | .ok reason => do
    let failed ← failWith call l error reason
    pure (.ok failed)

/-! ## Execute -/

/-- `input.forceStrategy ?? selection.chosen`. -/
def strategyFor (input : Input) : CoordinationStrategy :=
  input.forceStrategy.getD (StrategySelector.select input.task).chosen

def startedEntry (call : Call) (rationale : String) (sequence : List AgentId) : AuditEntry :=
  entry call "workflow.started" none
    [("title", .text call.task.title),
      ("repo", optionalText call.task.repo),
      ("strategy", .text call.strategy.name.text),
      ("rationale", .text rationale),
      ("sequence", .texts (sequence.map (·.text)))]

def callOf (input : Input) (workflowId startedAt : String) : Call where
  task := input.task
  projectContext := input.projectContext
  strategy := strategyFor input
  workflowId := workflowId
  startedAt := startedAt

/-- What follows the loop. -/
def conclude (call : Call) : LoopEnd × Locals → OrchProg (Except Thrown WorkflowResult)
  | (.blocked r, _) => pure (.ok r)
  | (.finished, l) => do
    let completed ← complete call l
    pure (.ok completed)
  | (.thrown e, l) => handleFailure call l e

/-- `execute` from the point where the id and the start time are drawn. -/
def executeAs (input : Input) (workflowId startedAt : String) :
    OrchProg (Except Thrown WorkflowResult) := do
  let call := callOf input workflowId startedAt
  let sequence := call.strategy.selectSequence input.task
  let _ ← perform (OrchOp.sys (.auditWrite (startedEntry call
    (StrategySelector.select input.task).rationale sequence)))
  let ended ← agentLoop call sequence Locals.empty
  conclude call ended

/-- The promise of a call: a result, or what its `catch` block throws. -/
def execute (input : Input) : OrchProg (Except Thrown WorkflowResult) := do
  let startedAt ← perform (OrchOp.sys .now)
  let workflowId ← perform (OrchOp.sys .randomUUID)
  executeAs input workflowId startedAt

/-! ## The system: the orchestrator over the four agents -/

/-- Runs the agents of the registry. -/
def lower (budget : Nat) : (o : OrchOp) → SysProg o.Res
  | .sys o => perform o
  | .agentExecute agentId input => HarpAgent.execute budget agentId input

/-- A call on the system of `createHarpSystem`, down to the operations. -/
def system (budget : Nat) (input : Input) (workflowId startedAt : String) :
    SysProg (Except Thrown WorkflowResult) :=
  interp (lower budget) (executeAs input workflowId startedAt)

/-- The four agents, as the orchestrator sees them. -/
def coreFour {ε : Type} (env : Env ε) (budget : Nat) : Agents ε :=
  fun agentId input w => run (sysHandler env) (HarpAgent.execute budget agentId input) w

/-- Running the system is running the orchestrator over the four agents. -/
theorem run_system {ε : Type} (env : Env ε) (budget : Nat) (input : Input)
    (workflowId startedAt : String) (w : World ε) :
    run (sysHandler env) (system budget input workflowId startedAt) w =
      run (orchHandler env (coreFour env budget)) (executeAs input workflowId startedAt) w := by
  unfold system
  rw [run_interp]
  congr 1
  funext o
  cases o <;> rfl

end HarpOrchestrator

end Harp
