import Harp.Orchestration.Claims

/-
  How far the approval risk of Anubis Sentinel is handed on (`AnubisSentinel.buildResult`,
  `ContextManager.summarise`).

  Anubis appends the risk to the model's own, so that it stands behind their bullet lines in the
  artifact; a summary takes the first six. The risk reaches the later agents exactly when it
  still fits (`approvalRisk_claimed_iff`).
-/

namespace Harp

open Prog

namespace HarpAgent

open ContextManager

/-- The bullet lines that the model's own risks become. -/
def riskLines (output : ModelOutput) : List String :=
  output.risks.flatMap fun e => bulletLines ("- " ++ e)

theorem plain_approvalRisk : Plain AnubisSentinel.approvalRisk := by decide

/-- An entry behind others is among the first `n` if fewer than `n` stand before it. -/
theorem mem_take_behind {α : Type} (a : α) (xs ys : List α) (n : ℕ) :
    a ∈ (xs ++ a :: ys).take n ↔ xs.length < n ∨ a ∈ xs.take n := by
  rw [List.take_append, List.mem_append]
  constructor
  · rintro (h | h)
    · exact .inr h
    · by_contra hn
      rw [not_or, Nat.not_lt] at hn
      rw [Nat.sub_eq_zero_of_le hn.1, List.take_zero] at h
      exact absurd h List.not_mem_nil
  · rintro (h | h)
    · right
      obtain ⟨k, hk⟩ : ∃ k, n - xs.length = k + 1 := ⟨n - xs.length - 1, by omega⟩
      rw [hk, List.take_succ_cons]
      exact List.mem_cons_self
    · exact .inl h

/-- The bullet lines of Anubis's artifact for a sensitive task. -/
theorem bulletLines_anubisSentinel (output : ModelOutput) {task : AgentTask}
    (htask : sensitive task = true) :
    bulletLines (AnubisSentinel.content output task) =
      riskLines output ++ AnubisSentinel.approvalRisk ::
        output.findings.flatMap fun e => bulletLines ("- " ++ e) := by
  have hrisks : AnubisSentinel.risks output task = output.risks ++ [AnubisSentinel.approvalRisk] :=
    if_pos htask
  have hrenders := renders_anubisSentinel output task
  unfold Renders at hrenders
  rw [hrenders, hrisks, bulletLines_empty, List.nil_append, List.flatMap_append,
    List.flatMap_append, List.flatMap_singleton, bulletLines_bullet plain_approvalRisk,
    List.append_assoc]
  rfl

section

variable {ε : Type} (env : Env ε) (budget : ℕ) (input : AgentExecuteInput) {w w' : World ε}
  {response : ModelResponse} {output : ModelOutput}

/-- For a sensitive task, the summary that later agents get of Anubis's artifact holds the approval
    risk exactly when fewer than six bullet lines come from the model's own risks, or one of the
    first six of these reads like it. Plain risks are their own bullet lines. -/
theorem approvalRisk_claimed_iff (hbudget : w.modelRouter.usage input.workflowId < budget)
    (hanswer : (startedWorld env .anubisSentinel input w).providerGenerate env
      (modelRequest .anubisSentinel input) = (.ok response, w'))
    (hparse : parseModelOutput response.text = some output)
    (htask : sensitive input.context.task = true) :
    ∃ r artifact, (run (sysHandler env) (execute budget .anubisSentinel input) w).1 = .ok r ∧
      r.artifacts = [artifact] ∧
      (∀ agentId task projectContext before after snapshotAt,
        (createScopedContext agentId task projectContext (before ++ artifact :: after)
            snapshotAt).priorArtifacts =
          before.map summarise ++ summarise artifact :: after.map summarise) ∧
      (AnubisSentinel.approvalRisk ∈ (summarise artifact).claims ↔
        (riskLines output).length < claimLimit ∨
          AnubisSentinel.approvalRisk ∈ (riskLines output).take claimLimit) ∧
      ((∀ e ∈ output.risks, Plain e) → riskLines output = output.risks) := by
  obtain ⟨r, artifact, hrun, hr, -, hcontent⟩ :=
    execute_artifact env budget .anubisSentinel input hbudget hanswer
  refine ⟨r, artifact, hrun, hr, ?_, ?_, flatMap_plain⟩
  · intro agentId task projectContext before after snapshotAt
    have hmap : (before ++ artifact :: after).map summarise =
        before.map summarise ++ summarise artifact :: after.map summarise := List.map_append
    rw [← hmap]
    cases agentId <;> rfl
  · have hlines : bulletLines artifact.content = riskLines output ++
        AnubisSentinel.approvalRisk ::
          output.findings.flatMap fun e => bulletLines ("- " ++ e) := by
      rw [hcontent]
      unfold contentOf
      rw [hparse]
      exact bulletLines_anubisSentinel output htask
    have hne : bulletLines artifact.content ≠ [] := by
      rw [hlines]
      exact List.append_ne_nil_of_right_ne_nil _ (List.cons_ne_nil _ _)
    rw [claims_eq, if_neg hne, hlines]
    exact mem_take_behind _ _ _ _

end

/-! ## Six risks of the model -/

/-- Anubis on a task that touches secrets. -/
def secretsCall : AgentExecuteInput where
  context := createScopedContext .anubisSentinel
    { HarpOrchestrator.irreversibleTask with touchesSecrets := some true }
    (HarpOrchestrator.bareInput HarpOrchestrator.irreversibleTask none).projectContext []
    "2026-01-01T00:00:00.000Z"
  workflowId := "w-1"

theorem approvalRisk_claimed_iff_listed :
    ∃ output, parseModelOutput listedAnswer = some output ∧ riskLines output = ["Loss."] ∧
      ∃ r artifact, (run (sysHandler (Env.constant listedAnswer true))
          (execute 200000 .anubisSentinel secretsCall) (World.create ())).1 = .ok r ∧
        r.artifacts = [artifact] ∧
        (∀ agentId task projectContext before after snapshotAt,
          (createScopedContext agentId task projectContext (before ++ artifact :: after)
              snapshotAt).priorArtifacts =
            before.map summarise ++ summarise artifact :: after.map summarise) ∧
        (AnubisSentinel.approvalRisk ∈ (summarise artifact).claims ↔
          (riskLines output).length < claimLimit ∨
            AnubisSentinel.approvalRisk ∈ (riskLines output).take claimLimit) ∧
        ((∀ e ∈ output.risks, Plain e) → riskLines output = output.risks) := by
  have hbudget : (World.create ()).modelRouter.usage secretsCall.workflowId < 200000 := by decide
  have hlines : (parseModelOutput listedAnswer).map riskLines = some ["Loss."] := by decide +kernel
  obtain ⟨output, hparse, hrisks⟩ := Option.map_eq_some_iff.mp hlines
  exact ⟨output, hparse, hrisks, approvalRisk_claimed_iff (Env.constant listedAnswer true) 200000
    secretsCall hbudget rfl hparse rfl⟩

/-- An answer with six risks. -/
def sixRisks : String := "\x7b\"risks\": [\"1\", \"2\", \"3\", \"4\", \"5\", \"6\"]\x7d"

/-- Later agents are told the six risks of the model, and no approval risk. -/
theorem six_risks_push_out :
    ∃ r artifact, (run (sysHandler (Env.constant sixRisks true))
        (execute 200000 .anubisSentinel secretsCall) (World.create ())).1 = .ok r ∧
      r.artifacts = [artifact] ∧
      (summarise artifact).claims = ["1", "2", "3", "4", "5", "6"] ∧
      AnubisSentinel.approvalRisk ∉ (summarise artifact).claims := by
  have hbudget : (World.create ()).modelRouter.usage secretsCall.workflowId < 200000 := by decide
  obtain ⟨r, artifact, hrun, hr, -, hcontent⟩ := execute_artifact (Env.constant sixRisks true)
    200000 .anubisSentinel secretsCall hbudget rfl
  have hlines : bulletLines (contentOf .anubisSentinel secretsCall.context.task sixRisks) =
      ["1", "2", "3", "4", "5", "6", AnubisSentinel.approvalRisk] := by
    decide +kernel
  have hclaims : (summarise artifact).claims = ["1", "2", "3", "4", "5", "6"] := by
    rw [claims_eq, hcontent, hlines]
    rfl
  refine ⟨r, artifact, hrun, hr, hclaims, ?_⟩
  rw [hclaims]
  decide

end HarpAgent

end Harp
