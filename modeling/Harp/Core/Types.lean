import Mathlib.Data.Rat.Defs
import Mathlib.Tactic.Common

/-
  The shared shapes (`src/core/types.ts`).

  An optional field is an `Option`. Token counts are natural numbers; costs, latencies and
  temperatures are rationals. Fields that no modelled function reads or writes are left out.
-/

namespace Harp

inductive AgentId where
  | pharaoh
  | horusNexus
  | anubisSentinel
  | ra
  deriving DecidableEq, Repr

inductive Actor where
  | agent (id : AgentId)
  | system
  | user
  deriving DecidableEq, Repr

inductive RiskLevel where
  | low
  | medium
  | high
  | critical
  deriving DecidableEq, Repr

inductive WorkflowStatus where
  | pending
  | planning
  | review
  | validation
  | production
  | approvalRequired
  | completed
  | failed
  deriving DecidableEq, Repr

inductive Permission where
  | repoRead
  | repoWrite
  | repoReview
  | issueRead
  | knowledgeRead
  | knowledgeWrite
  | memoryRead
  | memoryWrite
  | securityScan
  | workflowPlan
  | workflowApprove
  | scheduleCreate
  | auditWrite
  deriving DecidableEq, Repr

inductive ModelClass where
  | localFast
  | localReasoning
  | cloudFast
  | cloudReasoning
  | cloudCoding
  | frontierReasoning
  | embedding
  | reranker
  | securitySpecialist
  | longContext
  deriving DecidableEq, Repr

inductive ArtifactType where
  | code
  | spec
  | doc
  | review
  | riskReport
  | securityReport
  | schedule
  | approvalRequest
  | finalReport
  deriving DecidableEq, Repr

inductive CoordinationStrategyName where
  | sequentialReview
  | parallelReview
  | arbitration
  | negotiation
  | voting
  | escalation
  deriving DecidableEq, Repr

/-- The text of an identifier, as the source spells it. -/
def AgentId.text : AgentId → String
  | pharaoh => "pharaoh"
  | horusNexus => "horus-nexus"
  | anubisSentinel => "anubis-sentinel"
  | ra => "ra"

def RiskLevel.text : RiskLevel → String
  | low => "low"
  | medium => "medium"
  | high => "high"
  | critical => "critical"

def Permission.text : Permission → String
  | repoRead => "repo:read"
  | repoWrite => "repo:write"
  | repoReview => "repo:review"
  | issueRead => "issue:read"
  | knowledgeRead => "knowledge:read"
  | knowledgeWrite => "knowledge:write"
  | memoryRead => "memory:read"
  | memoryWrite => "memory:write"
  | securityScan => "security:scan"
  | workflowPlan => "workflow:plan"
  | workflowApprove => "workflow:approve"
  | scheduleCreate => "schedule:create"
  | auditWrite => "audit:write"

def ModelClass.text : ModelClass → String
  | localFast => "local-fast"
  | localReasoning => "local-reasoning"
  | cloudFast => "cloud-fast"
  | cloudReasoning => "cloud-reasoning"
  | cloudCoding => "cloud-coding"
  | frontierReasoning => "frontier-reasoning"
  | embedding => "embedding"
  | reranker => "reranker"
  | securitySpecialist => "security-specialist"
  | longContext => "long-context"

def CoordinationStrategyName.text : CoordinationStrategyName → String
  | sequentialReview => "sequential-review"
  | parallelReview => "parallel-review"
  | arbitration => "arbitration"
  | negotiation => "negotiation"
  | voting => "voting"
  | escalation => "escalation"

/-! ## Tasks and context -/

structure AgentTask where
  id : String
  title : String
  description : String
  repo : Option String
  riskLevel : RiskLevel
  requiresRepoWrite : Option Bool
  touchesSecrets : Option Bool
  reversible : Option Bool
  deriving Repr, DecidableEq

structure ProjectContext where
  architectureDocs : List String
  standardOperatingProcedures : List String
  glossary : List (String × String)
  priorDecisions : List String
  openIssues : List String
  workflowHistory : List String

/-- What a downstream agent sees of an artifact. -/
structure ArtifactSummary where
  id : String
  type : ArtifactType
  title : String
  author : AgentId
  claims : List String

structure ScopedContext where
  task : AgentTask
  contextSourceIds : List String
  snapshotAt : String
  architectureDocs : List String
  standardOperatingProcedures : List String
  glossary : List (String × String)
  priorDecisions : List String
  openIssues : List String
  workflowHistory : List String
  priorArtifacts : List ArtifactSummary
  constraints : List String
  unresolvedUnknowns : List String

/-! ## Artifacts and agent results -/

structure Artifact where
  id : String
  type : ArtifactType
  title : String
  content : String
  author : AgentId
  timestamp : String
  taskId : String
  workflowId : String
  contextSourceIds : List String
  modelRoute : Option ModelClass
  metadata : List (String × String)
  deriving Repr, DecidableEq

structure CodeWorkDetails where
  filesAffected : List String
  testPlan : List String
  rollbackPlan : List String
  validationCommands : List String
  deriving Repr, DecidableEq

inductive AgentStatus where
  | success
  | blocked
  | failed
  deriving DecidableEq, Repr

structure AgentResult where
  agentId : AgentId
  status : AgentStatus
  summary : String
  findings : List String
  risks : List String
  recommendations : List String
  artifacts : List Artifact
  approvalRequired : Bool
  unknowns : List String
  nextSafeStep : String
  codeWork : Option CodeWorkDetails
  assumptions : List String
  deriving Repr, DecidableEq

/-! ## Workflow -/

structure WorkflowFailure where
  phase : String
  failedActor : Actor
  reason : String
  auditEventId : String
  recoveryRecommendation : String
  deriving Repr, DecidableEq

structure WorkflowResult where
  id : String
  task : AgentTask
  status : WorkflowStatus
  strategy : CoordinationStrategyName
  artifacts : List Artifact
  agentResults : List AgentResult
  approvalRequired : Bool
  finalRecommendation : String
  failure : Option WorkflowFailure
  startedAt : String
  completedAt : String
  deriving Repr, DecidableEq

/-! ## Audit -/

inductive ApprovalState where
  | notRequired
  | required
  | granted
  | denied
  deriving DecidableEq, Repr

/-- A value of an audit event's `details` record. -/
inductive Detail where
  | text (s : String)
  | texts (xs : List String)
  | number (n : Nat)
  | flag (b : Bool)
  | undefined
  deriving DecidableEq, Repr

/-- `Omit<AuditEvent, "id" | "timestamp">`, what a caller of the logger supplies. -/
structure AuditEntry where
  actor : Actor
  action : String
  target : Option String
  workflowId : Option String
  taskId : Option String
  riskLevel : Option RiskLevel
  approvalState : Option ApprovalState
  details : List (String × Detail)
  deriving DecidableEq, Repr

structure AuditEvent extends AuditEntry where
  id : String
  timestamp : String
  deriving DecidableEq, Repr

/-! ## Models -/

structure ModelRequest where
  modelClass : ModelClass
  systemPrompt : String
  userPrompt : String
  temperature : Option ℚ
  agentId : Option AgentId
  taskId : Option String
  workflowId : Option String

structure ModelResponse where
  text : String
  modelUsed : String
  modelClass : ModelClass
  inputTokens : Nat
  outputTokens : Nat
  estimatedCostUsd : ℚ
  latencyMs : ℚ
  deriving DecidableEq

/-! ## Approval -/

structure ApprovalDecision where
  required : Bool
  approved : Bool
  reason : String
  approverId : Option String
  timestamp : String
  deriving Repr, DecidableEq

structure ApprovalRequest where
  task : AgentTask
  workflowId : String
  phase : String
  action : String
  details : String
  artifactIds : List String

/-! ## What is thrown -/

/-- A promise that has been fulfilled carries a value. -/
theorem exists_of_isOk {ε α : Type} {x : Except ε α} (h : x.isOk = true) : ∃ a, x = .ok a := by
  cases x with
  | error => cases h
  | ok a => exact ⟨a, rfl⟩

theorem exists_of_any {ε α : Type} {x : Except ε α} {p : α → Bool}
    (h : x.toOption.any p = true) : ∃ a, x = .ok a ∧ p a = true := by
  cases x with
  | error => cases h
  | ok a => exact ⟨a, rfl, h⟩

/-- A value that a `throw` or a rejected promise carries: the error classes that a modelled
    function tells apart, any other `Error`, a value that is no `Error` (with its
    `String(value)`), and a value whose text cannot be read. -/
inductive Thrown where
  | tokenBudgetExceeded (workflowId : String) (used budget : Nat)
  | conciergeError (message : String) (lastKind : Option String)
  | error (message : String)
  | value (asString : String)
  /-- Reading the text throws `thrown`, as for `Object.create(null)`. -/
  | unreadable (thrown : Thrown)
  deriving DecidableEq, Repr

/-- `error instanceof Error ? error.message : String(error)`, which may throw itself. -/
def Thrown.reason : Thrown → Except Thrown String
  | tokenBudgetExceeded workflowId used budget =>
    .ok ("Token budget exceeded for workflow " ++ workflowId ++ ": used " ++ toString used ++
      " of " ++ toString budget ++ ".")
  | conciergeError message _ => .ok message
  | error message => .ok message
  | value asString => .ok asString
  | unreadable thrown => .error thrown

/-- Reading the text of the value returns. -/
def Thrown.Readable (e : Thrown) : Prop := e.reason.isOk = true

instance (e : Thrown) : Decidable e.Readable := inferInstanceAs (Decidable (_ = true))

theorem Thrown.readable_iff {e : Thrown} : e.Readable ↔ ∃ reason, e.reason = .ok reason := by
  cases e <;> simp [Readable, reason, Except.isOk, Except.toBool]

theorem Thrown.not_readable_iff {e : Thrown} : ¬ e.Readable ↔ ∃ t, e.reason = .error t := by
  cases e <;> simp [Readable, reason, Except.isOk, Except.toBool]

/-- `error instanceof TokenBudgetExceededError`. -/
def Thrown.isTokenBudgetExceeded : Thrown → Bool
  | tokenBudgetExceeded .. => true
  | _ => false

end Harp
