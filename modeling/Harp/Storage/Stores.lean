import Harp.Core.Types

/-
  The in-memory audit logger and artifact store (`src/storage/AuditLogger.ts`,
  `src/storage/MemoryStore.ts`). The id and the timestamp that `write` draws are arguments.
-/

namespace Harp

structure AuditQuery where
  workflowId : Option String
  taskId : Option String
  actor : Option Actor
  riskLevel : Option RiskLevel
  approvalState : Option ApprovalState

structure InMemoryAuditLogger where
  events : List AuditEvent
  deriving DecidableEq

namespace InMemoryAuditLogger

def write (log : InMemoryAuditLogger) (event : AuditEntry) (id timestamp : String) :
    AuditEvent × InMemoryAuditLogger :=
  let saved : AuditEvent := { event with id := id, timestamp := timestamp }
  (saved, { events := log.events ++ [saved] })

def list (log : InMemoryAuditLogger) : List AuditEvent := log.events

/-- A filter `filter.f && event.f !== filter.f` of a string field: an empty filter is off. -/
def stringFilter (filter actual : Option String) : Bool :=
  match filter with
  | none => true
  | some wanted => wanted == "" || actual == some wanted

/-- The same for a field whose values are never empty. -/
def fieldFilter {α : Type} [DecidableEq α] (filter actual : Option α) : Bool :=
  match filter with
  | none => true
  | some wanted => actual == some wanted

def query (log : InMemoryAuditLogger) (filter : AuditQuery) : List AuditEvent :=
  log.events.filter fun event =>
    stringFilter filter.workflowId event.workflowId &&
    stringFilter filter.taskId event.taskId &&
    fieldFilter filter.actor (some event.actor) &&
    fieldFilter filter.riskLevel event.riskLevel &&
    fieldFilter filter.approvalState event.approvalState

/-- `query({ workflowId })`. -/
def byWorkflow (log : InMemoryAuditLogger) (workflowId : String) : List AuditEvent :=
  log.query {
    workflowId := some workflowId
    taskId := none
    actor := none
    riskLevel := none
    approvalState := none }

/-- A query for a workflow keeps the events of that id, unless the id is empty. -/
theorem byWorkflow_eq (log : InMemoryAuditLogger) {workflowId : String} (h : workflowId ≠ "") :
    log.byWorkflow workflowId = log.events.filter (·.workflowId == some workflowId) := by
  unfold byWorkflow query
  refine List.filter_congr fun event _ => ?_
  simp [stringFilter, fieldFilter, h]

end InMemoryAuditLogger

structure InMemoryArtifactStore where
  artifacts : List Artifact
  deriving DecidableEq

namespace InMemoryArtifactStore

def append (store : InMemoryArtifactStore) (artifact : Artifact) : InMemoryArtifactStore :=
  { artifacts := store.artifacts ++ [artifact] }

def list (store : InMemoryArtifactStore) : List Artifact := store.artifacts

def byWorkflow (store : InMemoryArtifactStore) (workflowId : String) : List Artifact :=
  store.artifacts.filter (·.workflowId == workflowId)

def byId (store : InMemoryArtifactStore) (id : String) : Option Artifact :=
  store.artifacts.find? (·.id == id)

@[simp] theorem artifacts_append (store : InMemoryArtifactStore) (artifact : Artifact) :
    (store.append artifact).artifacts = store.artifacts ++ [artifact] := rfl

end InMemoryArtifactStore

end Harp
