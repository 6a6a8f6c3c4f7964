import Harp.Agents.AgentRuns
import Harp.Knowledge.KnowledgeStore
import Harp.Orchestration.ContextManager

/-
  The source ids of a scoped context (`createScopedContext` and `sourceIds` of
  `src/orchestration/ContextManager.ts`).

  The documents are filtered by role in one place, and the ids are made in another from the
  scope: the ids name whole kinds (`mem_sourceIds`), and never a procedure or the history.
  `provenance_iff` says for which project contexts the two agree, agent by agent.
-/

namespace Harp

namespace KnowledgeKind

/-- The documents of a kind that a scoped context holds. -/
def shown (context : ScopedContext) : KnowledgeKind → List String
  | architecture => context.architectureDocs
  | sop => context.standardOperatingProcedures
  | decision => context.priorDecisions
  | issue => context.openIssues
  | history => context.workflowHistory

/-- The scopes in which `sourceIds` names the documents of a kind. -/
def Listed (scope : ContextManager.Scope) : KnowledgeKind → Prop
  | architecture => True
  | decision => scope = .all ∨ scope = .security
  | issue => True
  | sop => False
  | history => False

end KnowledgeKind

namespace ContextManager

open KnowledgeKind

theorem mem_numbered (kind kind' : KnowledgeKind) (docs : List String) (i : ℕ) :
    kind.sourceId i ∈ numbered kind'.idText docs ↔ kind = kind' ∧ i < docs.length := by
  unfold numbered
  rw [List.mem_map]
  constructor
  · rintro ⟨⟨doc, j⟩, hp, hid⟩
    obtain ⟨rfl, rfl⟩ := sourceId_inj.mp hid.symm
    have hdoc : docs[i]? = some doc := List.mem_zipIdx_iff_getElem?.mp hp
    exact ⟨rfl, (List.getElem?_eq_some_iff.mp hdoc).1⟩
  · rintro ⟨rfl, hi⟩
    exact ⟨(docs[i], i), List.mem_zipIdx_iff_getElem?.mpr (List.getElem?_eq_getElem hi), rfl⟩

/-- An id is listed when its kind is, and its document exists. -/
theorem mem_sourceIds (context : ProjectContext) (scope : Scope) (kind : KnowledgeKind) (i : ℕ) :
    kind.sourceId i ∈ sourceIds context scope ↔
      kind.Listed scope ∧ i < (kind.documents context).length := by
  unfold sourceIds
  rw [show ("arch" : String) = architecture.idText from rfl,
    show ("decision" : String) = decision.idText from rfl,
    show ("issue" : String) = issue.idText from rfl]
  simp only [List.mem_append, List.mem_ite_nil_right, mem_numbered]
  cases kind <;> simp [Listed, documents]

/-- The ids name exactly the documents of the project that the scoped context holds. -/
def Names (ids : List String) (projectContext : ProjectContext) (context : ScopedContext) : Prop :=
  ∀ (kind : KnowledgeKind) (i : ℕ), kind.sourceId i ∈ ids ↔
    ∃ doc, (kind.documents projectContext)[i]? = some doc ∧ doc ∈ kind.shown context

/-- The ids of a scoped context are exact, and so are those on the artifacts that its agent makes
    of it. -/
structure Exact (agentId : AgentId) (projectContext : ProjectContext) (context : ScopedContext) :
    Prop where
  shown : Names context.contextSourceIds projectContext context
  artifacts : ∀ {ε : Type} (env : Env ε) (budget : ℕ) (workflowId : String) (w : World ε) r,
    (Prog.run (sysHandler env) (HarpAgent.execute budget agentId ⟨context, workflowId⟩) w).1 =
        .ok r →
      ∀ a ∈ r.artifacts, Names a.contextSourceIds projectContext context

/-- For one kind: the ids agree with what is shown when all its documents are listed and shown,
    or none is listed and none shown. -/
theorem forall_ids_iff {listed : Prop} {docs shown : List String}
    (hsub : ∀ doc ∈ shown, doc ∈ docs) :
    (∀ i : ℕ, listed ∧ i < docs.length ↔ ∃ doc, docs[i]? = some doc ∧ doc ∈ shown) ↔
      (listed → ∀ doc ∈ docs, doc ∈ shown) ∧ (¬ listed → shown = []) := by
  constructor
  · intro h
    refine ⟨fun hlisted doc hdoc => ?_, fun hunlisted => ?_⟩
    · obtain ⟨i, hi⟩ := List.getElem?_of_mem hdoc
      obtain ⟨doc', hi', hshown⟩ := (h i).mp ⟨hlisted, (List.getElem?_eq_some_iff.mp hi).1⟩
      obtain rfl := Option.some.inj (hi.symm.trans hi')
      exact hshown
    · apply List.eq_nil_iff_forall_not_mem.mpr
      intro doc hshown
      obtain ⟨i, hi⟩ := List.getElem?_of_mem (hsub doc hshown)
      exact hunlisted ((h i).mpr ⟨doc, hi, hshown⟩).1
  · intro h i
    constructor
    · rintro ⟨hlisted, hi⟩
      exact ⟨docs[i], List.getElem?_eq_getElem hi, h.1 hlisted _ (List.getElem_mem hi)⟩
    · rintro ⟨doc, hi, hshown⟩
      refine ⟨?_, (List.getElem?_eq_some_iff.mp hi).1⟩
      by_contra hunlisted
      rw [h.2 hunlisted] at hshown
      exact absurd hshown List.not_mem_nil

/-- The words by which the procedures of an agent are picked; Pharaoh gets them all. -/
def procedureWords : AgentId → Option (List String)
  | .pharaoh => none
  | .horusNexus => some ["architect", "maintain", "scal", "debt", "design"]
  | .anubisSentinel => some ["security", "risk", "compliance", "permission", "approval", "secret"]
  | .ra => some ["implement", "test", "review", "approv", "constraint"]

/-- A procedure that the agent is shown. -/
def ShowsProcedure (agentId : AgentId) (sop : String) : Prop :=
  ∀ words ∈ procedureWords agentId, ∃ word ∈ words, Js.testIgnoreCase word sop = true

/-- The project contexts whose documents the ids of an agent name: it is shown no procedure and
    no history, Horus Nexus no decisions, and there are no architecture docs that Ra would not be
    shown. -/
structure Nameable (agentId : AgentId) (projectContext : ProjectContext) : Prop where
  procedures : ∀ sop ∈ projectContext.standardOperatingProcedures, ¬ ShowsProcedure agentId sop
  history : agentId ≠ .ra → projectContext.workflowHistory = []
  decisions : agentId = .horusNexus → projectContext.priorDecisions = []
  architecture : agentId = .ra → projectContext.architectureDocs = []

/-- The scope that the ids of an agent are made for. -/
def scopeOf : AgentId → Scope
  | .pharaoh => .all
  | .horusNexus => .architecture
  | .anubisSentinel => .security
  | .ra => .implementation

theorem createScopedContext_contextSourceIds (agentId : AgentId) (task : AgentTask)
    (projectContext : ProjectContext) (priorArtifacts : List Artifact) (snapshotAt : String) :
    (createScopedContext agentId task projectContext priorArtifacts snapshotAt).contextSourceIds =
      sourceIds projectContext (scopeOf agentId) := by
  cases agentId <;> rfl

/-- An agent is shown documents of the project only. -/
theorem shown_subset (agentId : AgentId) (task : AgentTask) (projectContext : ProjectContext)
    (priorArtifacts : List Artifact) (snapshotAt : String) (kind : KnowledgeKind) :
    ∀ doc ∈ kind.shown
        (createScopedContext agentId task projectContext priorArtifacts snapshotAt),
      doc ∈ kind.documents projectContext := by
  cases agentId <;> cases kind <;>
    simp +contextual [createScopedContext, shown, documents, procedures]

theorem forall_kind {p : KnowledgeKind → Prop} :
    (∀ kind, p kind) ↔ p architecture ∧ p sop ∧ p decision ∧ p issue ∧ p history := by
  constructor
  · exact fun h => ⟨h _, h _, h _, h _, h _⟩
  · rintro ⟨ha, hs, hd, hi, hh⟩ kind
    cases kind <;> assumption

/-- The artifacts carry the ids of the context. -/
theorem exact_iff_names {agentId : AgentId} {projectContext : ProjectContext}
    {context : ScopedContext} : Exact agentId projectContext context ↔
      Names context.contextSourceIds projectContext context := by
  constructor
  · exact fun h => h.shown
  · intro h
    refine ⟨h, fun env budget workflowId w r hr a ha => ?_⟩
    rw [HarpAgent.execute_sources env agentId ⟨context, workflowId⟩ budget w hr a ha]
    exact h

theorem exact_iff (agentId : AgentId) (task : AgentTask) (projectContext : ProjectContext)
    (priorArtifacts : List Artifact) (snapshotAt : String) :
    Exact agentId projectContext
        (createScopedContext agentId task projectContext priorArtifacts snapshotAt) ↔
      ∀ kind : KnowledgeKind,
        (kind.Listed (scopeOf agentId) → ∀ doc ∈ kind.documents projectContext, doc ∈ kind.shown
          (createScopedContext agentId task projectContext priorArtifacts snapshotAt)) ∧
        (¬ kind.Listed (scopeOf agentId) → kind.shown
          (createScopedContext agentId task projectContext priorArtifacts snapshotAt) = []) := by
  rw [exact_iff_names]
  unfold Names
  apply forall_congr'
  intro kind
  rw [createScopedContext_contextSourceIds]
  simp only [mem_sourceIds]
  exact forall_ids_iff (shown_subset agentId task projectContext priorArtifacts snapshotAt kind)

/-- An agent is shown no procedure exactly when none is for it. -/
theorem no_procedures_iff (agentId : AgentId) (task : AgentTask) (projectContext : ProjectContext)
    (priorArtifacts : List Artifact) (snapshotAt : String) :
    (createScopedContext agentId task projectContext priorArtifacts
        snapshotAt).standardOperatingProcedures = [] ↔
      ∀ sop ∈ projectContext.standardOperatingProcedures, ¬ ShowsProcedure agentId sop := by
  cases agentId with
  | pharaoh =>
    have hall : (createScopedContext .pharaoh task projectContext priorArtifacts
        snapshotAt).standardOperatingProcedures =
          projectContext.standardOperatingProcedures := rfl
    rw [hall, List.eq_nil_iff_forall_not_mem]
    simp [ShowsProcedure, procedureWords]
  | horusNexus => simp [createScopedContext, procedures, ShowsProcedure, procedureWords]
  | anubisSentinel => simp [createScopedContext, procedures, ShowsProcedure, procedureWords]
  | ra => simp [createScopedContext, procedures, ShowsProcedure, procedureWords]

/-- The source ids of a scoped context are exact precisely for the project contexts that they can
    name. -/
theorem provenance_iff (agentId : AgentId) (task : AgentTask) (projectContext : ProjectContext)
    (priorArtifacts : List Artifact) (snapshotAt : String) :
    Exact agentId projectContext
        (createScopedContext agentId task projectContext priorArtifacts snapshotAt) ↔
      Nameable agentId projectContext := by
  rw [exact_iff, forall_kind]
  have hprocedures := no_procedures_iff agentId task projectContext priorArtifacts snapshotAt
  constructor
  · rintro ⟨harchitecture, hsop, hdecision, -, hhistory⟩
    refine ⟨hprocedures.mp (hsop.2 id), ?_, ?_, ?_⟩
    · intro hne
      have hnone := hhistory.2 id
      cases agentId with
      | ra => exact absurd rfl hne
      | _ => exact hnone
    · rintro rfl
      exact hdecision.2 (by simp [Listed, scopeOf])
    · rintro rfl
      exact List.eq_nil_iff_forall_not_mem.mpr fun doc hdoc =>
        absurd (harchitecture.1 trivial doc hdoc) List.not_mem_nil
  · rintro ⟨hsop, hhistory, hdecisions, harchitecture⟩
    refine ⟨⟨fun _ doc hdoc => ?_, fun h => absurd trivial h⟩,
      ⟨fun h => h.elim, fun _ => hprocedures.mpr hsop⟩, ⟨fun hlisted doc hdoc => ?_, fun h => ?_⟩,
      ⟨fun _ doc hdoc => ?_, fun h => absurd trivial h⟩, ⟨fun h => h.elim, fun _ => ?_⟩⟩
    · cases agentId with
      | ra =>
        rw [show architecture.documents projectContext = [] from harchitecture rfl] at hdoc
        exact absurd hdoc List.not_mem_nil
      | _ => exact hdoc
    · cases agentId with
      | pharaoh => exact hdoc
      | anubisSentinel => exact hdoc
      | horusNexus => simp [Listed, scopeOf] at hlisted
      | ra => simp [Listed, scopeOf] at hlisted
    · cases agentId with
      | pharaoh => exact absurd (.inl rfl) h
      | horusNexus => exact hdecisions rfl
      | anubisSentinel => exact absurd (.inr rfl) h
      | ra => rfl
    · cases agentId <;> exact hdoc
    · cases agentId with
      | ra => rfl
      | _ => exact hhistory nofun

/-! ## Ra and the architecture -/

/-- One architecture doc, and nothing else. -/
def oneDoc : ProjectContext where
  architectureDocs := ["Events are append-only."]
  standardOperatingProcedures := []
  glossary := []
  priorDecisions := []
  openIssues := []
  workflowHistory := []

/-- A task without marks. -/
def plainTask : AgentTask where
  id := "t-1"
  title := "Rename"
  description := "Rename a column."
  repo := none
  riskLevel := .low
  requiresRepoWrite := none
  touchesSecrets := none
  reversible := none

/-- Ra's ids name a document that Ra is not shown. -/
theorem ra_names_unshown :
    let context := createScopedContext .ra plainTask oneDoc [] "2026-01-01T00:00:00.000Z"
    context.contextSourceIds = ["arch:0"] ∧ context.architectureDocs = [] ∧
      ¬ Exact .ra oneDoc context := by
  intro context
  refine ⟨rfl, rfl, ?_⟩
  intro h
  obtain ⟨doc, -, hshown⟩ := (h.shown .architecture 0).mp (List.mem_singleton.mpr rfl)
  exact absurd hshown List.not_mem_nil

end ContextManager

end Harp
