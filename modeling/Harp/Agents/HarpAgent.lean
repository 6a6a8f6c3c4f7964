import Harp.Agents.ModelOutput
import Harp.Core.World

/-
  The four agents (`src/agents/BaseAgent.ts`, `Pharaoh.ts`, `HorusNexus.ts`,
  `AnubisSentinel.ts`, `Ra.ts`).

  `HarpAgent.execute` is the shared algorithm: audit the start, ask the model through the
  router, build the agent's own result or the blocked one, audit the end. What a subclass
  overrides is a function of the agent's id.
-/

namespace Harp

open Prog

namespace HarpAgent

def artifactType : AgentId → ArtifactType
  | .pharaoh => .finalReport
  | .horusNexus => .review
  | .anubisSentinel => .riskReport
  | .ra => .code

def temperature : AgentId → ℚ
  | .pharaoh => temperatureEvaluation
  | .horusNexus => temperatureCodeReview
  | .anubisSentinel => temperatureSecurityReview
  | .ra => temperatureImplementation

/-- `riskLevel === "high" || riskLevel === "critical"`. -/
def highRisk (task : AgentTask) : Bool :=
  task.riskLevel == .high || task.riskLevel == .critical

def modelClassFor (agent : AgentId) (context : ScopedContext) : ModelClass :=
  if highRisk context.task then (agentConfigs agent).highRiskModel
  else (agentConfigs agent).preferredModel

/-! ## The prompt -/

def outputSchema (agent : AgentId) : String :=
  let base := "\x7b \"summary\": string, \"findings\": string[], \"risks\": string[], " ++
    "\"recommendations\": string[], \"unknowns\": string[], \"nextSafeStep\": string, " ++
    "\"assumptions\": string[]"
  if agent = .ra then
    base ++ ", \"filesAffected\": string[], \"testPlan\": string[], " ++
      "\"rollbackPlan\": string[], \"validationCommands\": string[] \x7d"
  else base ++ " \x7d"

def bullets (xs : List String) : List String := xs.map ("- " ++ ·)

def priorArtifactLines (summaries : List ArtifactSummary) : List String :=
  summaries.flatMap fun a =>
    ("- [" ++ a.author.text ++ "] " ++ a.title) :: a.claims.map ("    • " ++ ·)

def buildPrompt (agent : AgentId) (context : ScopedContext) : String :=
  let config := agentConfigs agent
  let sources := Js.join ", " context.contextSourceIds
  Js.join "\n" (
    ["Agent: " ++ config.displayName,
      "Role: " ++ config.role,
      "Mission: " ++ config.mission,
      "",
      "Task: " ++ context.task.title,
      "Description: " ++ context.task.description,
      "Risk Level: " ++ context.task.riskLevel.text,
      "Context snapshot: " ++ context.snapshotAt,
      "Context sources: " ++ (if sources = "" then "none" else sources),
      "",
      "Constraints:"] ++ bullets context.constraints ++
    ["", "Architecture Docs:"] ++ bullets context.architectureDocs ++
    ["", "SOPs:"] ++ bullets context.standardOperatingProcedures ++
    ["", "Prior Decisions:"] ++ bullets context.priorDecisions ++
    ["", "Open Issues:"] ++ bullets context.openIssues ++
    ["", "Prior Artifacts (claims only):"] ++ priorArtifactLines context.priorArtifacts ++
    ["", "Unresolved unknowns:"] ++ bullets context.unresolvedUnknowns ++
    ["", "Evaluation Criteria:"] ++ bullets config.evaluationCriteria ++
    ["",
      "Respond ONLY with a JSON object (no prose, no markdown fences) with keys:",
      outputSchema agent])

/-! ## Artifacts and results -/

def makeArtifact (agent : AgentId) (title content : String) (context : ScopedContext)
    (workflowId : String) (modelClass : ModelClass) : SysProg Artifact := do
  let id ← perform SysOp.randomUUID
  let timestamp ← perform SysOp.now
  pure {
    id := id
    type := artifactType agent
    title := title
    content := content
    author := agent
    timestamp := timestamp
    taskId := context.task.id
    workflowId := workflowId
    contextSourceIds := context.contextSourceIds
    modelRoute := some modelClass
    metadata := [] }

/-- The blocked result, once its artifact is made. -/
def blockedResult (agent : AgentId) (artifact : Artifact) : AgentResult where
  agentId := agent
  status := .blocked
  summary := (agentConfigs agent).displayName ++
    " could not parse model output; blocking rather than guessing."
  findings := []
  risks := ["Model returned malformed output; no findings can be trusted."]
  recommendations := ["Retry with a stricter prompt or a different model."]
  artifacts := [artifact]
  approvalRequired := true
  unknowns := ["All — model output was unusable."]
  nextSafeStep := "Re-run this agent; if it persists, escalate to a human."
  codeWork := none
  assumptions := []

/-- Safe fallback when the model returns unusable output. -/
def buildBlockedResult (agent : AgentId) (context : ScopedContext) (workflowId : String)
    (modelClass : ModelClass) (rawText : String) : SysProg AgentResult := do
  let artifact ← makeArtifact agent
    ((agentConfigs agent).displayName ++ " — unpar-seable model output")
    ("Model output could not be parsed into the required schema.\n\n" ++
      "Raw (truncated):\n" ++ String.ofList (Js.sliceTo 500 rawText.toList))
    context workflowId modelClass
  pure (blockedResult agent artifact)

end HarpAgent

/-! ## What each agent builds from a parsed answer -/

namespace Pharaoh

def content (output : ModelOutput) : String :=
  Js.join "\n" (
    ["Executive orchestration complete.",
      "",
      "Pharaoh confirms the workflow proceeded through controlled review,",
      "validation, and approval gates.",
      "",
      "Summary:",
      output.summary,
      "",
      "Recommendations:"] ++ HarpAgent.bullets output.recommendations)

def result (output : ModelOutput) (task : AgentTask) (artifact : Artifact) : AgentResult where
  agentId := .pharaoh
  status := .success
  summary := output.summary
  findings := output.findings
  risks := output.risks
  recommendations := output.recommendations
  artifacts := [artifact]
  approvalRequired := HarpAgent.highRisk task
  unknowns := output.unknowns
  nextSafeStep := output.nextSafeStep
  codeWork := none
  assumptions := output.assumptions

def buildResult (output : ModelOutput) (context : ScopedContext) (workflowId : String)
    (modelClass : ModelClass) : SysProg AgentResult := do
  let artifact ← HarpAgent.makeArtifact .pharaoh "Pharaoh Final Recommendation" (content output)
    context workflowId modelClass
  pure (result output context.task artifact)

end Pharaoh

namespace HorusNexus

def content (output : ModelOutput) : String :=
  Js.join "\n" (
    ["Observation / Review / Long-term Planning",
      "",
      "Findings:"] ++ HarpAgent.bullets output.findings ++
    ["", "Recommendations:"] ++ HarpAgent.bullets output.recommendations)

def result (output : ModelOutput) (artifact : Artifact) : AgentResult where
  agentId := .horusNexus
  status := .success
  summary := output.summary
  findings := output.findings
  risks := output.risks
  recommendations := output.recommendations
  artifacts := [artifact]
  approvalRequired := false
  unknowns := output.unknowns
  nextSafeStep := output.nextSafeStep
  codeWork := none
  assumptions := output.assumptions

def buildResult (output : ModelOutput) (context : ScopedContext) (workflowId : String)
    (modelClass : ModelClass) : SysProg AgentResult := do
  let artifact ← HarpAgent.makeArtifact .horusNexus "Horus Nexus Architecture Review"
    (content output) context workflowId modelClass
  pure (result output artifact)

end HorusNexus

namespace AnubisSentinel

def approvalRisk : String :=
  "Security-sensitive or state-changing work: human approval required before execution."

/-- The output's risks, with the approval risk appended for sensitive tasks. -/
def risks (output : ModelOutput) (task : AgentTask) : List String :=
  if task.requiresRepoWrite.getD false || task.touchesSecrets.getD false ||
      HarpAgent.highRisk task
  then output.risks ++ [approvalRisk] else output.risks

def content (output : ModelOutput) (task : AgentTask) : String :=
  Js.join "\n" ((
    ["Validation / Risk / Security Monitoring",
      (if HarpAgent.highRisk task then "(adversarial review mode)" else ""),
      "",
      "Risks:"] ++ HarpAgent.bullets (risks output task) ++
    ["", "Findings:"] ++ HarpAgent.bullets output.findings).filter (· != ""))

def result (output : ModelOutput) (task : AgentTask) (artifact : Artifact) : AgentResult where
  agentId := .anubisSentinel
  status := .success
  summary := output.summary
  findings := output.findings
  risks := risks output task
  recommendations := output.recommendations
  artifacts := [artifact]
  approvalRequired := HarpAgent.highRisk task ||
    decide ((risks output task).length > output.risks.length)
  unknowns := output.unknowns
  nextSafeStep := output.nextSafeStep
  codeWork := none
  assumptions := output.assumptions

def buildResult (output : ModelOutput) (context : ScopedContext) (workflowId : String)
    (modelClass : ModelClass) : SysProg AgentResult := do
  let artifact ← HarpAgent.makeArtifact .anubisSentinel "Anubis Sentinel Risk & Security Review"
    (content output context.task) context workflowId modelClass
  pure (result output context.task artifact)

end AnubisSentinel

namespace Ra

/-- The work details, each list with Ra's default. -/
def codeWork (output : ModelOutput) : CodeWorkDetails where
  filesAffected := output.filesAffected.getD ["(proposal only)"]
  testPlan := output.testPlan.getD ["Add unit tests for the proposed change."]
  rollbackPlan := output.rollbackPlan.getD
    ["Revert the proposal branch; no production state is touched."]
  validationCommands := output.validationCommands.getD
    ["pnpm install", "pnpm run typecheck", "pnpm run build", "pnpm test"]

def content (output : ModelOutput) : String :=
  Js.join "\n" (
    ["Generation / Creation / Scheduling / Automation",
      "",
      "This is an implementation PROPOSAL, not a committed patch.",
      "",
      "Summary:",
      output.summary,
      "",
      "Files affected:"] ++ HarpAgent.bullets (codeWork output).filesAffected ++
    ["", "Test plan:"] ++ HarpAgent.bullets (codeWork output).testPlan ++
    ["", "Rollback plan:"] ++ HarpAgent.bullets (codeWork output).rollbackPlan)

def result (output : ModelOutput) (artifact : Artifact) : AgentResult where
  agentId := .ra
  status := .success
  summary := output.summary
  findings := output.findings
  risks := output.risks ++
    ["Generated code must pass review and approval before any repo write."]
  recommendations := output.recommendations
  artifacts := [artifact]
  approvalRequired := true
  unknowns := output.unknowns
  nextSafeStep := output.nextSafeStep
  codeWork := some (codeWork output)
  assumptions := output.assumptions

def buildResult (output : ModelOutput) (context : ScopedContext) (workflowId : String)
    (modelClass : ModelClass) : SysProg AgentResult := do
  let artifact ← HarpAgent.makeArtifact .ra "Ra Implementation Proposal" (content output)
    context workflowId modelClass
  pure (result output artifact)

end Ra

/-! ## Execution -/

namespace HarpAgent

/-- The override of the agent's class. -/
def buildResult : AgentId → ModelOutput → ScopedContext → String → ModelClass →
    SysProg AgentResult
  | .pharaoh => Pharaoh.buildResult
  | .horusNexus => HorusNexus.buildResult
  | .anubisSentinel => AnubisSentinel.buildResult
  | .ra => Ra.buildResult

def startedEntry (agent : AgentId) (input : AgentExecuteInput) : AuditEntry where
  actor := .agent agent
  action := "agent.started"
  target := some input.context.task.id
  workflowId := some input.workflowId
  taskId := some input.context.task.id
  riskLevel := some input.context.task.riskLevel
  approvalState := none
  details := [("role", .text (agentConfigs agent).role),
    ("modelClass", .text (modelClassFor agent input.context).text)]

def completedEntry (agent : AgentId) (input : AgentExecuteInput) (result : AgentResult)
    (parsed : Bool) : AuditEntry where
  actor := .agent agent
  action := "agent.completed"
  target := some input.context.task.id
  workflowId := some input.workflowId
  taskId := some input.context.task.id
  riskLevel := some input.context.task.riskLevel
  approvalState := none
  details := [
    ("status", .text (match result.status with
      | .success => "success"
      | .blocked => "blocked"
      | .failed => "failed")),
    ("artifacts", .number result.artifacts.length),
    ("approvalRequired", .flag result.approvalRequired),
    ("parsed", .flag parsed)]

def modelRequest (agent : AgentId) (input : AgentExecuteInput) : ModelRequest where
  modelClass := modelClassFor agent input.context
  systemPrompt := (agentConfigs agent).systemPrompt
  userPrompt := buildPrompt agent input.context
  temperature := some (temperature agent)
  agentId := some agent
  taskId := some input.context.task.id
  workflowId := some input.workflowId

/-- `parsed ? this.buildResult(…) : this.buildBlockedResult(…)`. -/
def resultFor (agent : AgentId) (input : AgentExecuteInput) (text : String) :
    SysProg AgentResult :=
  let modelClass := modelClassFor agent input.context
  match parseModelOutput text with
  | some output => buildResult agent output input.context input.workflowId modelClass
  | none => buildBlockedResult agent input.context input.workflowId modelClass text

def execute (budget : Nat) (agent : AgentId) (input : AgentExecuteInput) :
    SysProg (Except Thrown AgentResult) := do
  let _ ← perform (SysOp.auditWrite (startedEntry agent input))
  match ← ModelRouter.generate budget (modelRequest agent input) with
  | .error e => pure (.error e)
  | .ok response => do
    let result ← resultFor agent input response.text
    let _ ← perform (SysOp.auditWrite
      (completedEntry agent input result (parseModelOutput response.text).isSome))
    pure (.ok result)

end HarpAgent

end Harp
