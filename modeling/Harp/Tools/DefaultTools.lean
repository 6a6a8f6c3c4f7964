import Harp.Tools.DangerousPermissions

/-
  The default tools (`src/tools/defaultTools.ts`) in the registry that `createHarpSystem` fills
  (`src/index.ts`), and what the registry lists for an agent.

  What a listing promises is what calls can do: an approved call gets a tool to run in some
  interleaving exactly if the tool is listed for its agent at some moment (`run_iff_availableTo`).
  In the default registry that comes down to a table of agents and names (`default_run_iff`).
-/

namespace Harp

open Prog

/-! ## The tools -/

namespace DefaultTools

def knowledgeSearch : ToolDefinition where
  name := "knowledge.search"
  requiredPermission := .knowledgeRead
  stateChanging := false

def repoRead : ToolDefinition where
  name := "repo.read"
  requiredPermission := .repoRead
  stateChanging := false

def repoWrite : ToolDefinition where
  name := "repo.write"
  requiredPermission := .repoWrite
  stateChanging := true

def scheduleCreate : ToolDefinition where
  name := "schedule.create"
  requiredPermission := .scheduleCreate
  stateChanging := true

def securityScan : ToolDefinition where
  name := "security.scan"
  requiredPermission := .securityScan
  stateChanging := false

end DefaultTools

/-- The definitions of the default tools; their `run`s are code that the registry calls. -/
def createDefaultTools : List ToolDefinition :=
  [DefaultTools.knowledgeSearch, DefaultTools.repoRead, DefaultTools.repoWrite,
    DefaultTools.scheduleCreate, DefaultTools.securityScan]

namespace ToolRegistry

/-- The loop of `createHarpSystem` over the tools. -/
def registerAll (tools : List ToolDefinition) : Except Thrown ToolRegistry :=
  tools.foldlM register empty

/-- The registry of the default system. -/
def default : ToolRegistry where
  tools := createDefaultTools
  nodup := by decide

/-- The default tools have different names, so their registration does not throw. -/
theorem registerAll_default : registerAll createDefaultTools = .ok default := rfl

theorem mem_availableTo {registry : ToolRegistry} {agentId : AgentId} {tool : ToolDefinition} :
    tool ∈ registry.availableTo agentId ↔
      tool ∈ registry.tools ∧ PermissionGuard.can agentId tool.requiredPermission = true :=
  List.mem_filter

/-! ## What a listing promises -/

section Available

variable {I O E ι : Type} [DecidableEq ι] {calls : ι → ToolCall I} {w : ToolWorld}

/-- Which calls get a tool to run: those of its name whose gate it passes, if it is available. -/
theorem run_iff_available {i : ι} {name : String} {input : I} {context : ToolContext}
    (hi : calls i = .invoke name input context) (tool : ToolDefinition) (d : ToolDraw O E) :
    (∃ schedule : List (ι × ToolDraw O E),
        (i, (⟨.callRun tool input context, ()⟩ : ToolStep I O E)) ∈ performed calls w schedule) ↔
      Available calls w name tool ∧ Permitted tool context := by
  constructor
  · rintro ⟨schedule, hrun⟩
    obtain ⟨name', hname, havailable, hgate⟩ :=
      called_available hrun (List.mem_singleton.mpr rfl)
    rw [hi] at hname
    obtain ⟨rfl, -, -⟩ := ToolCall.invoke.inj hname
    exact ⟨havailable, hgate⟩
  · rintro ⟨havailable, hgate⟩
    exact exists_called hi havailable hgate d

/-- An approved call gets a tool of its name to run in some interleaving exactly if, at a moment of
    some interleaving, the registry lists the tool for the agent. -/
theorem run_iff_availableTo {i : ι} {name : String} {input : I} {context : ToolContext}
    (hi : calls i = .invoke name input context) (happroved : context.approvalGranted = true)
    (tool : ToolDefinition) (d : ToolDraw O E) :
    (∃ schedule : List (ι × ToolDraw O E),
        (i, (⟨.callRun tool input context, ()⟩ : ToolStep I O E)) ∈ performed calls w schedule) ↔
      tool.name = name ∧ ∃ schedule : List (ι × ToolDraw O E),
        tool ∈ (ended calls w schedule).state.registry.availableTo context.agentId := by
  rw [run_iff_available hi tool d]
  constructor
  · rintro ⟨havailable, hcan, -⟩
    obtain ⟨schedule, -, hget⟩ := havailable.exists_get d
    obtain ⟨hmem, hname⟩ := get_eq_some.mp hget
    exact ⟨hname, schedule, mem_availableTo.mpr ⟨hmem, hcan⟩⟩
  · rintro ⟨hname, schedule, hlisted⟩
    obtain ⟨hmem, hcan⟩ := mem_availableTo.mp hlisted
    exact ⟨found_available (get_eq_some.mpr ⟨hmem, hname⟩), hcan, fun _ => happroved⟩

end Available

/-! ## The default registry -/

/-- Which agent may have which default tool run, and with which approval. -/
def Grants (agentId : AgentId) (name : String) (approved : Bool) : Prop :=
  name = "knowledge.search" ∨
    (name = "repo.read" ∧ agentId ≠ .pharaoh) ∨
    (name = "security.scan" ∧ agentId = .anubisSentinel) ∨
    ((name = "repo.write" ∨ name = "schedule.create") ∧ agentId = .ra ∧ approved = true)

theorem permitted_default_iff {tool : ToolDefinition} (htool : tool ∈ createDefaultTools)
    (context : ToolContext) :
    Permitted tool context ↔ Grants context.agentId tool.name context.approvalGranted := by
  obtain ⟨agentId, task, workflowId, approved⟩ := context
  simp only [createDefaultTools, List.mem_cons, List.not_mem_nil, or_false] at htool
  rcases htool with rfl | rfl | rfl | rfl | rfl <;> cases agentId <;> cases approved <;>
    simp [Permitted, Grants, PermissionGuard.can, agentConfigs, DefaultTools.knowledgeSearch,
      DefaultTools.repoRead, DefaultTools.repoWrite, DefaultTools.scheduleCreate,
      DefaultTools.securityScan]

/-- In the default system, while nobody registers more tools: a call has a tool run in some
    interleaving with any other calls exactly if the table grants it. -/
theorem default_run_iff {I O E ι : Type} [DecidableEq ι] {calls : ι → ToolCall I}
    (hinvokes : ∀ j tool, calls j ≠ .register tool) {i : ι} {name : String} {input : I}
    {context : ToolContext} (hi : calls i = .invoke name input context)
    (auditLogger : InMemoryAuditLogger) (d : ToolDraw O E) :
    (∃ tool, ∃ schedule : List (ι × ToolDraw O E),
        (i, (⟨.callRun tool input context, ()⟩ : ToolStep I O E)) ∈
          performed calls ⟨default, auditLogger⟩ schedule) ↔
      Grants context.agentId name context.approvalGranted := by
  have havailable (tool : ToolDefinition) :
      Available calls ⟨default, auditLogger⟩ name tool ↔
        tool ∈ createDefaultTools ∧ tool.name = name := by
    rw [show createDefaultTools = default.tools from rfl, ← get_eq_some]
    constructor
    · rintro (hget | ⟨-, -, j, hj⟩)
      · exact hget
      · exact absurd hj (hinvokes j tool)
    · exact .inl
  constructor
  · rintro ⟨tool, hrun⟩
    obtain ⟨hthere, hgate⟩ := (run_iff_available hi tool d).mp hrun
    obtain ⟨hmem, rfl⟩ := (havailable tool).mp hthere
    exact (permitted_default_iff hmem context).mp hgate
  · intro hgrants
    obtain ⟨tool, hmem, rfl⟩ : ∃ tool ∈ createDefaultTools, tool.name = name := by
      rcases hgrants with rfl | ⟨rfl, -⟩ | ⟨rfl, -⟩ | ⟨rfl | rfl, -⟩
      · exact ⟨DefaultTools.knowledgeSearch, by decide, rfl⟩
      · exact ⟨DefaultTools.repoRead, by decide, rfl⟩
      · exact ⟨DefaultTools.securityScan, by decide, rfl⟩
      · exact ⟨DefaultTools.repoWrite, by decide, rfl⟩
      · exact ⟨DefaultTools.scheduleCreate, by decide, rfl⟩
    exact ⟨tool, (run_iff_available hi tool d).mpr
      ⟨(havailable tool).mpr ⟨hmem, rfl⟩, (permitted_default_iff hmem context).mpr hgrants⟩⟩

/-! ## Ra's write -/

/-- Ra, with an approval. -/
def approvedRa : ToolContext := { readContext with approvalGranted := true }

/-- One call writes with the approval, the other one without. -/
def writeCalls (approved : Bool) : ToolCall Unit :=
  .invoke "repo.write" () (cond approved approvedRa readContext)

theorem run_iff_availableTo_write :
    (∃ schedule : List (Bool × ToolDraw Unit String),
        (true, (⟨.callRun DefaultTools.repoWrite () approvedRa, ()⟩ : ToolStep Unit Unit String)) ∈
          performed writeCalls ⟨default, ⟨[]⟩⟩ schedule) ↔
      DefaultTools.repoWrite.name = "repo.write" ∧
        ∃ schedule : List (Bool × ToolDraw Unit String), DefaultTools.repoWrite ∈
          (ended writeCalls ⟨default, ⟨[]⟩⟩ schedule).state.registry.availableTo .ra := by
  have hi : writeCalls true = .invoke "repo.write" () approvedRa := rfl
  exact run_iff_availableTo hi rfl DefaultTools.repoWrite bareObject

theorem default_run_iff_write :
    (∃ tool, ∃ schedule : List (Bool × ToolDraw Unit String),
        (false, (⟨.callRun tool () readContext, ()⟩ : ToolStep Unit Unit String)) ∈
          performed writeCalls ⟨default, ⟨[]⟩⟩ schedule) ↔ Grants .ra "repo.write" false := by
  have hinvokes : ∀ j tool, writeCalls j ≠ .register tool := fun _ _ h => by cases h
  have hi : writeCalls false = .invoke "repo.write" () readContext := rfl
  exact default_run_iff hinvokes hi ⟨[]⟩ bareObject

end ToolRegistry

end Harp
