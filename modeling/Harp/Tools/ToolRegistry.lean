import Harp.Lib.Program
import Harp.Security.PermissionGuard
import Harp.Storage.Stores
import Mathlib.Data.List.Nodup

/-
  The tool registry (`src/tools/ToolRegistry.ts`) over the in-memory audit logger.

  A tool is code from outside: what its `run` resolves or rejects with is an answer, and so is
  the text of a value it rejects with, since reading that text may run code of the value. A
  registry carries the fact that the names of its tools are distinct.
-/

namespace Harp

open Prog

structure ToolDefinition where
  name : String
  requiredPermission : Permission
  stateChanging : Bool
  deriving DecidableEq, Repr

structure ToolContext where
  agentId : AgentId
  task : AgentTask
  workflowId : String
  approvalGranted : Bool
  deriving DecidableEq, Repr

structure ToolResult (O : Type) where
  toolName : String
  ok : Bool
  output : Option O
  error : Option String
  auditId : Option String
  deriving DecidableEq, Repr

structure ToolRegistry where
  tools : List ToolDefinition
  nodup : (tools.map (·.name)).Nodup

/-! ## The operations of a call -/

/-- What a call of the registry does between two awaits, or asks of code outside. -/
inductive ToolOp (I E : Type) where
  /-- `tools.has(tool.name)`, and `tools.set(tool.name, tool)` if it is free. -/
  | register (tool : ToolDefinition)
  /-- `tools.get(name)`. -/
  | lookup (name : String)
  /-- `auditLogger.write(event)`. -/
  | auditWrite (event : AuditEntry)
  /-- `tool.run(input, context)`, up to its promise. -/
  | callRun (tool : ToolDefinition) (input : I) (context : ToolContext)
  /-- The promise of `tool.run` settles. -/
  | settleRun
  /-- `error instanceof Error ? error.message : String(error)`. -/
  | errorText (error : E)

/-- What an operation answers; `E` holds what JavaScript code may throw. -/
abbrev ToolOp.Res (O : Type) {I E : Type} : ToolOp I E → Type
  | register _ => Except Thrown Unit
  | lookup _ => Option ToolDefinition
  | auditWrite _ => AuditEvent
  | callRun .. => Unit
  | settleRun => Except E O
  | errorText _ => Except E String

abbrev ToolProg (I O E : Type) := Prog (ToolOp I E) (ToolOp.Res O)

namespace ToolProg

variable {I O E : Type}

def lookup (name : String) : ToolProg I O E (Option ToolDefinition) := perform (ToolOp.lookup name)

def auditWrite (event : AuditEntry) : ToolProg I O E AuditEvent := perform (ToolOp.auditWrite event)

def callRun (tool : ToolDefinition) (input : I) (context : ToolContext) : ToolProg I O E Unit :=
  perform (ToolOp.callRun tool input context)

def settleRun : ToolProg I O E (Except E O) := perform ToolOp.settleRun

def errorText (error : E) : ToolProg I O E (Except E String) := perform (ToolOp.errorText error)

section

variable {α : Type}

@[simp] theorem lookup_bind (name : String) (k : Option ToolDefinition → ToolProg I O E α) :
    (lookup name >>= k) = .call (.lookup name) k := rfl

@[simp] theorem auditWrite_bind (event : AuditEntry) (k : AuditEvent → ToolProg I O E α) :
    (auditWrite event >>= k) = .call (.auditWrite event) k := rfl

@[simp] theorem callRun_bind (tool : ToolDefinition) (input : I) (context : ToolContext)
    (k : Unit → ToolProg I O E α) :
    (callRun tool input context >>= k) = .call (.callRun tool input context) k := rfl

@[simp] theorem settleRun_bind (k : Except E O → ToolProg I O E α) :
    (settleRun >>= k) = .call .settleRun k := rfl

@[simp] theorem errorText_bind (error : E) (k : Except E String → ToolProg I O E α) :
    (errorText error >>= k) = .call (.errorText error) k := rfl

end

end ToolProg

namespace ToolRegistry

def empty : ToolRegistry := ⟨[], List.nodup_nil⟩

def has (registry : ToolRegistry) (name : String) : Bool := registry.tools.any (·.name == name)

def get (registry : ToolRegistry) (name : String) : Option ToolDefinition :=
  registry.tools.find? (·.name == name)

/-- `list()`. -/
def list (registry : ToolRegistry) : List ToolDefinition := registry.tools

/-- The tools that an agent is permitted to invoke. -/
def availableTo (registry : ToolRegistry) (agentId : AgentId) : List ToolDefinition :=
  registry.list.filter fun tool => PermissionGuard.can agentId tool.requiredPermission

/-- Throws if the name is taken. -/
def register (registry : ToolRegistry) (tool : ToolDefinition) : Except Thrown ToolRegistry :=
  if h : registry.has tool.name then
    .error (.error ("Tool already registered: " ++ tool.name))
  else
    .ok {
      tools := registry.tools ++ [tool]
      nodup := by
        have hnew : tool.name ∉ registry.tools.map (·.name) := by simpa [has] using h
        rw [List.map_append, List.map_singleton]
        exact List.nodup_append.mpr ⟨registry.nodup, List.nodup_singleton _,
          fun a ha b hb hab => hnew (by rwa [← List.mem_singleton.mp hb, ← hab])⟩ }

/-- Names are distinct, so a name finds its tool. -/
theorem get_eq_some {registry : ToolRegistry} {name : String} {tool : ToolDefinition} :
    registry.get name = some tool ↔ tool ∈ registry.tools ∧ tool.name = name := by
  unfold get
  constructor
  · intro h
    exact ⟨List.mem_of_find?_eq_some h, by simpa using List.find?_some h⟩
  · rintro ⟨hmem, rfl⟩
    cases hfound : registry.tools.find? (·.name == tool.name) with
    | none => exact absurd (List.find?_eq_none.mp hfound tool hmem) (by simp)
    | some other =>
      have hname : other.name = tool.name := by simpa using List.find?_some hfound
      rw [List.inj_on_of_nodup_map registry.nodup (List.mem_of_find?_eq_some hfound) hmem hname]

theorem register_tools {registry registry' : ToolRegistry} {tool : ToolDefinition}
    (h : registry.register tool = .ok registry') : registry'.tools = registry.tools ++ [tool] := by
  unfold register at h
  split at h
  case isTrue => cases h
  case isFalse =>
    obtain rfl := Except.ok.inj h
    rfl

/-- What every audit event of a call has in common. -/
def auditEntry (name : String) (context : ToolContext) (action : String)
    (approvalState : Option ApprovalState) (details : List (String × Detail)) : AuditEntry where
  actor := .agent context.agentId
  action := action
  target := some name
  workflowId := some context.workflowId
  taskId := some context.task.id
  riskLevel := some context.task.riskLevel
  approvalState := approvalState
  details := details

variable {I O E : Type}

/-- The rest of the `try` block when the run has resolved, and the `catch` block when it has
    rejected. -/
def afterRun (name : String) (tool : ToolDefinition) (context : ToolContext) :
    Except E O → ToolProg I O E (Except E (ToolResult O))
  | .ok output => do
    let audit ← ToolProg.auditWrite (auditEntry name context "tool.invoked" none
      [("stateChanging", .flag tool.stateChanging)])
    return .ok {
      toolName := name, ok := true, output := some output, error := none
      auditId := some audit.id }
  | .error error => do
    match ← ToolProg.errorText error with
    | .error thrown => return .error thrown
    | .ok detail =>
      let audit ← ToolProg.auditWrite (auditEntry name context "tool.failed" none
        [("error", .text detail)])
      match ← ToolProg.errorText error with
      | .error thrown => return .error thrown
      | .ok message =>
        return .ok {
          toolName := name, ok := false, output := none, error := some message
          auditId := some audit.id }

/-- A call either returns a result, or rejects with what the reading of an error throws. -/
def invoke (name : String) (input : I) (context : ToolContext) :
    ToolProg I O E (Except E (ToolResult O)) := do
  match ← ToolProg.lookup name with
  | none =>
    return .ok {
      toolName := name, ok := false, output := none
      error := some ("Unknown tool: " ++ name)
      auditId := none }
  | some tool =>
    if !PermissionGuard.can context.agentId tool.requiredPermission then
      let audit ← ToolProg.auditWrite (auditEntry name context "tool.permission_denied" none
        [("requiredPermission", .text tool.requiredPermission.text)])
      return .ok {
        toolName := name, ok := false, output := none
        error := some ("Permission denied: " ++ context.agentId.text ++ " lacks " ++
          tool.requiredPermission.text)
        auditId := some audit.id }
    else if tool.stateChanging && !context.approvalGranted then
      let audit ← ToolProg.auditWrite (auditEntry name context "tool.approval_required"
        (some .required)
        [("reason", .text "State-changing tool invoked without approval.")])
      return .ok {
        toolName := name, ok := false, output := none
        error := some ("Approval required before invoking state-changing tool: " ++ name)
        auditId := some audit.id }
    else
      ToolProg.callRun tool input context
      let outcome ← ToolProg.settleRun
      afterRun name tool context outcome

end ToolRegistry

/-! ## The calls of a system -/

/-- A call of the registry from outside. -/
inductive ToolCall (I : Type) where
  | register (tool : ToolDefinition)
  | invoke (name : String) (input : I) (context : ToolContext)

/-- How a call ends. -/
inductive ToolReturn (O E : Type) where
  | registered (r : Except Thrown Unit)
  | invoked (r : Except E (ToolResult O))

def ToolCall.program {I O E : Type} : ToolCall I → ToolProg I O E (ToolReturn O E)
  | register tool => .call (.register tool) fun r => .ret (.registered r)
  | invoke name input context => do return .invoked (← ToolRegistry.invoke name input context)

structure ToolWorld where
  registry : ToolRegistry
  auditLogger : InMemoryAuditLogger

/-- What a step may draw from outside: an id and the time for an audit event, how a run
    settles, and what the reading of an error gives. -/
structure ToolDraw (O E : Type) where
  uuid : String
  time : String
  outcome : Except E O
  reading : Except E String

/-- How a step with the draw `d` answers its operation. -/
def toolHandler {I O E : Type} (d : ToolDraw O E) : Handler (ToolOp I E) (ToolOp.Res O) ToolWorld
  | .register tool, w =>
    match w.registry.register tool with
    | .error thrown => (.error thrown, w)
    | .ok registry => (.ok (), { w with registry := registry })
  | .lookup name, w => (w.registry.get name, w)
  | .auditWrite event, w =>
    let (saved, auditLogger) := w.auditLogger.write event d.uuid d.time
    (saved, { w with auditLogger := auditLogger })
  | .callRun .., w => ((), w)
  | .settleRun, w => (d.outcome, w)
  | .errorText _, w => (d.reading, w)

section

variable {I O E : Type} {w : ToolWorld} {tool : ToolDefinition} (d : ToolDraw O E)

theorem toolHandler_register_error {thrown : Thrown}
    (h : w.registry.register tool = .error thrown) :
    toolHandler (I := I) d (.register tool) w = (.error thrown, w) := by
  simp only [toolHandler, h]

theorem toolHandler_register_ok {registry : ToolRegistry}
    (h : w.registry.register tool = .ok registry) :
    toolHandler (I := I) d (.register tool) w = (.ok (), { w with registry := registry }) := by
  simp only [toolHandler, h]

end

end Harp
