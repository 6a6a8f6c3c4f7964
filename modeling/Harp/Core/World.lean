import Harp.Models.ModelRouter
import Harp.Storage.Stores

/-
  The world a call runs in, and how it answers the operations.

  `Env ε` is everything outside the modelled code: the id source, the clock, the model
  provider and the approval provider. It is a machine with hidden state `ε`, so an answer
  may depend on the whole history, and nothing is assumed about it. `World ε` adds the
  state that the modelled code shares between calls: audit log, artifact store, router.

  `Env.recorded` is the same environment, which also writes down what the two providers
  were asked and what they answered.
-/

namespace Harp

/-- The surroundings of the modelled code. -/
structure Env (ε : Type) where
  randomUUID : ε → String × ε
  now : ε → String × ε
  generate : ModelRequest → ε → Except Thrown ModelResponse × ε
  requestApproval : ApprovalRequest → ε → Except Thrown ApprovalDecision × ε

structure World (ε : Type) where
  env : ε
  auditLogger : InMemoryAuditLogger
  memoryStore : InMemoryArtifactStore
  modelRouter : ModelRouter

namespace World

variable {ε : Type} (env : Env ε)

def now (w : World ε) : String × World ε :=
  ((env.now w.env).1, { w with env := (env.now w.env).2 })

def randomUUID (w : World ε) : String × World ε :=
  ((env.randomUUID w.env).1, { w with env := (env.randomUUID w.env).2 })

/-- `auditLogger.write(event)` draws the id, then the timestamp. -/
def auditWrite (w : World ε) (event : AuditEntry) : AuditEvent × World ε :=
  let id := w.randomUUID env
  let timestamp := id.2.now env
  let saved := w.auditLogger.write event id.1 timestamp.1
  (saved.1, { timestamp.2 with auditLogger := saved.2 })

def memoryAppend (w : World ε) (artifact : Artifact) : World ε :=
  { w with memoryStore := w.memoryStore.append artifact }

def memoryAppendAll (w : World ε) (artifacts : List Artifact) : World ε :=
  artifacts.foldl memoryAppend w

def requestApproval (w : World ε) (request : ApprovalRequest) :
    Except Thrown ApprovalDecision × World ε :=
  ((env.requestApproval request w.env).1, { w with env := (env.requestApproval request w.env).2 })

def providerGenerate (w : World ε) (request : ModelRequest) :
    Except Thrown ModelResponse × World ε :=
  ((env.generate request w.env).1, { w with env := (env.generate request w.env).2 })

/-- The update after a response; the record is stamped with the time. -/
def recordCall (w : World ε) (workflowId : String) (total : Nat) (request : ModelRequest)
    (response : ModelResponse) : World ε :=
  { (w.now env).2 with
    modelRouter := w.modelRouter.recordCall workflowId total request response (w.now env).1 }

end World

/-- How a world answers an operation. -/
def sysHandler {ε : Type} (env : Env ε) : Handler SysOp SysOp.Res (World ε)
  | .now, w => w.now env
  | .randomUUID, w => w.randomUUID env
  | .auditWrite event, w => w.auditWrite env event
  | .memoryAppend artifact, w => ((), w.memoryAppend artifact)
  | .requestApproval request, w => w.requestApproval env request
  | .usage workflowId, w => (w.modelRouter.usage workflowId, w)
  | .providerGenerate request, w => w.providerGenerate env request
  | .recordCall workflowId total request response, w =>
    ((), w.recordCall env workflowId total request response)

/-- The agents as the orchestrator sees them: any function of the input and of the world. -/
abbrev Agents (ε : Type) :=
  AgentId → AgentExecuteInput → World ε → Except Thrown AgentResult × World ε

def orchHandler {ε : Type} (env : Env ε) (agents : Agents ε) :
    Handler OrchOp OrchOp.Res (World ε)
  | .sys o, w => sysHandler env o w
  | .agentExecute agentId input, w => agents agentId input w

section Fields

variable {ε : Type} (env : Env ε) (w : World ε)

@[simp] theorem auditLogger_now : (w.now env).2.auditLogger = w.auditLogger := rfl
@[simp] theorem memoryStore_now : (w.now env).2.memoryStore = w.memoryStore := rfl
@[simp] theorem modelRouter_now : (w.now env).2.modelRouter = w.modelRouter := rfl

@[simp] theorem auditLogger_randomUUID : (w.randomUUID env).2.auditLogger = w.auditLogger := rfl
@[simp] theorem memoryStore_randomUUID : (w.randomUUID env).2.memoryStore = w.memoryStore := rfl
@[simp] theorem modelRouter_randomUUID : (w.randomUUID env).2.modelRouter = w.modelRouter := rfl

@[simp] theorem memoryStore_auditWrite (e : AuditEntry) :
    (w.auditWrite env e).2.memoryStore = w.memoryStore := rfl
@[simp] theorem modelRouter_auditWrite (e : AuditEntry) :
    (w.auditWrite env e).2.modelRouter = w.modelRouter := rfl
@[simp] theorem events_auditWrite (e : AuditEntry) :
    (w.auditWrite env e).2.auditLogger.events = w.auditLogger.events ++ [(w.auditWrite env e).1] :=
  rfl
@[simp] theorem entry_auditWrite (e : AuditEntry) :
    (w.auditWrite env e).1.toAuditEntry = e := rfl

@[simp] theorem env_memoryAppend (a : Artifact) : (w.memoryAppend a).env = w.env := rfl
@[simp] theorem auditLogger_memoryAppend (a : Artifact) :
    (w.memoryAppend a).auditLogger = w.auditLogger := rfl
@[simp] theorem modelRouter_memoryAppend (a : Artifact) :
    (w.memoryAppend a).modelRouter = w.modelRouter := rfl
@[simp] theorem artifacts_memoryAppend (a : Artifact) :
    (w.memoryAppend a).memoryStore.artifacts = w.memoryStore.artifacts ++ [a] := rfl

@[simp] theorem auditLogger_requestApproval (r : ApprovalRequest) :
    (w.requestApproval env r).2.auditLogger = w.auditLogger := rfl
@[simp] theorem memoryStore_requestApproval (r : ApprovalRequest) :
    (w.requestApproval env r).2.memoryStore = w.memoryStore := rfl
@[simp] theorem modelRouter_requestApproval (r : ApprovalRequest) :
    (w.requestApproval env r).2.modelRouter = w.modelRouter := rfl

@[simp] theorem auditLogger_providerGenerate (r : ModelRequest) :
    (w.providerGenerate env r).2.auditLogger = w.auditLogger := rfl
@[simp] theorem memoryStore_providerGenerate (r : ModelRequest) :
    (w.providerGenerate env r).2.memoryStore = w.memoryStore := rfl
@[simp] theorem modelRouter_providerGenerate (r : ModelRequest) :
    (w.providerGenerate env r).2.modelRouter = w.modelRouter := rfl

variable (key : String) (total : Nat) (request : ModelRequest) (response : ModelResponse)

@[simp] theorem auditLogger_recordCall :
    (w.recordCall env key total request response).auditLogger = w.auditLogger := rfl
@[simp] theorem memoryStore_recordCall :
    (w.recordCall env key total request response).memoryStore = w.memoryStore := rfl

@[simp] theorem env_memoryAppendAll (as : List Artifact) :
    (w.memoryAppendAll as).env = w.env := by
  induction as generalizing w with
  | nil => rfl
  | cons a as ih => exact ih (w.memoryAppend a)
@[simp] theorem auditLogger_memoryAppendAll (as : List Artifact) :
    (w.memoryAppendAll as).auditLogger = w.auditLogger := by
  induction as generalizing w with
  | nil => rfl
  | cons a as ih => exact ih (w.memoryAppend a)
@[simp] theorem modelRouter_memoryAppendAll (as : List Artifact) :
    (w.memoryAppendAll as).modelRouter = w.modelRouter := by
  induction as generalizing w with
  | nil => rfl
  | cons a as ih => exact ih (w.memoryAppend a)
@[simp] theorem artifacts_memoryAppendAll (as : List Artifact) :
    (w.memoryAppendAll as).memoryStore.artifacts = w.memoryStore.artifacts ++ as := by
  induction as generalizing w with
  | nil => simp [World.memoryAppendAll]
  | cons a as ih =>
    rw [show w.memoryAppendAll (a :: as) = (w.memoryAppend a).memoryAppendAll as from rfl, ih]
    simp

end Fields

/-- A world with empty stores and a new router, in the state `e` of its environment. -/
def World.create {ε : Type} (e : ε) : World ε where
  env := e
  auditLogger := { events := [] }
  memoryStore := { artifacts := [] }
  modelRouter := ModelRouter.create

/-- An environment with constant answers: the model says `text`, the approver `approved`. -/
def Env.constant (text : String) (approved : Bool) : Env Unit where
  randomUUID _ := ("3f2c", ())
  now _ := ("2026-01-01T00:00:00.000Z", ())
  generate request _ := (.ok {
    text := text
    modelUsed := "stub"
    modelClass := request.modelClass
    inputTokens := 1
    outputTokens := 1
    estimatedCostUsd := 0
    latencyMs := 0 }, ())
  requestApproval _ _ := (.ok {
    required := true
    approved := approved
    reason := "constant"
    approverId := none
    timestamp := "2026-01-01T00:00:00.000Z" }, ())

/-! ## Writing down what the providers were asked -/

/-- One question to a provider, with its answer. -/
inductive Exchange where
  | model (request : ModelRequest) (answer : Except Thrown ModelResponse)
  | approval (request : ApprovalRequest) (answer : Except Thrown ApprovalDecision)

/-- The same environment, which keeps the exchanges so far beside its own state. -/
def Env.recorded {ε : Type} (env : Env ε) : Env (ε × List Exchange) where
  randomUUID s := ((env.randomUUID s.1).1, (env.randomUUID s.1).2, s.2)
  now s := ((env.now s.1).1, (env.now s.1).2, s.2)
  generate request s :=
    let r := env.generate request s.1
    (r.1, r.2, s.2 ++ [.model request r.1])
  requestApproval request s :=
    let r := env.requestApproval request s.1
    (r.1, r.2, s.2 ++ [.approval request r.1])

namespace World

variable {ε : Type}

/-- The world with an empty list of exchanges to fill. -/
def recording (w : World ε) : World (ε × List Exchange) where
  env := (w.env, [])
  auditLogger := w.auditLogger
  memoryStore := w.memoryStore
  modelRouter := w.modelRouter

/-- The world without the list of exchanges. -/
def forget (w : World (ε × List Exchange)) : World ε where
  env := w.env.1
  auditLogger := w.auditLogger
  memoryStore := w.memoryStore
  modelRouter := w.modelRouter

@[simp] theorem forget_recording (w : World ε) : w.recording.forget = w := rfl

end World

/-- Keeping the exchanges changes no answer and nothing else of the world. -/
theorem sysHandler_forget {ε : Type} (env : Env ε) (o : SysOp) (w : World (ε × List Exchange)) :
    sysHandler env o w.forget =
      ((sysHandler env.recorded o w).1, (sysHandler env.recorded o w).2.forget) := by
  cases o <;> rfl

end Harp
