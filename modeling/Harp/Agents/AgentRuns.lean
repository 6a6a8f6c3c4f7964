import Harp.Agents.HarpAgent

/-
  What a run of one agent can do.

  An agent audits its start and asks the model through the router: the budget refuses the
  call, the provider rejects it, or it answers, and then the agent's result depends on the
  answer only through `resultOf`. Which status and which approval flag a result carries is
  decided by one bit of the answer, whether it parses.
-/

namespace Harp

open Prog

section Handler

variable {ε : Type} (env : Env ε)

@[simp] theorem sysHandler_now (w : World ε) : sysHandler env .now w = w.now env := rfl
@[simp] theorem sysHandler_randomUUID (w : World ε) :
    sysHandler env .randomUUID w = w.randomUUID env := rfl
@[simp] theorem sysHandler_auditWrite (e : AuditEntry) (w : World ε) :
    sysHandler env (.auditWrite e) w = w.auditWrite env e := rfl
@[simp] theorem sysHandler_memoryAppend (a : Artifact) (w : World ε) :
    sysHandler env (.memoryAppend a) w = ((), w.memoryAppend a) := rfl
@[simp] theorem sysHandler_requestApproval (q : ApprovalRequest) (w : World ε) :
    sysHandler env (.requestApproval q) w = w.requestApproval env q := rfl
@[simp] theorem sysHandler_usage (key : String) (w : World ε) :
    sysHandler env (.usage key) w = (w.modelRouter.usage key, w) := rfl
@[simp] theorem sysHandler_providerGenerate (q : ModelRequest) (w : World ε) :
    sysHandler env (.providerGenerate q) w = w.providerGenerate env q := rfl
@[simp] theorem sysHandler_recordCall (key : String) (total : Nat) (q : ModelRequest)
    (r : ModelResponse) (w : World ε) :
    sysHandler env (.recordCall key total q r) w = ((), w.recordCall env key total q r) := rfl

end Handler

/-- A call of the router: refused by the budget, or asked of the provider and, on a response,
    recorded. -/
theorem ModelRouter.run_generate {ε : Type} (env : Env ε) (budget : Nat) (request : ModelRequest)
    (w : World ε) :
    run (sysHandler env) (generate budget request) w =
      let key := keyOf request.workflowId
      if w.modelRouter.usage key ≥ budget then
        (.error (.tokenBudgetExceeded key (w.modelRouter.usage key) budget), w)
      else
        match w.providerGenerate env request with
        | (.error e, w') => (.error e, w')
        | (.ok response, w') =>
          (.ok response, w'.recordCall env key
            (w.modelRouter.usage key + (response.inputTokens + response.outputTokens)) request
            response) := by
  unfold generate generateChecked
  simp only [perform_bind, run_call, sysHandler_usage]
  by_cases hb : w.modelRouter.usage (keyOf request.workflowId) ≥ budget
  · simp [hb]
  · simp only [hb, if_false, run_call, sysHandler_providerGenerate]
    rcases w.providerGenerate env request with ⟨e | response, w'⟩ <;> rfl

namespace HarpAgent

/-- The result `agent` builds from the model's text, around the artifact it makes. -/
def resultOf (agent : AgentId) (task : AgentTask) (text : String) (artifact : Artifact) :
    AgentResult :=
  match parseModelOutput text with
  | none => blockedResult agent artifact
  | some output =>
    match agent with
    | .pharaoh => Pharaoh.result output task artifact
    | .horusNexus => HorusNexus.result output artifact
    | .anubisSentinel => AnubisSentinel.result output task artifact
    | .ra => Ra.result output artifact

/-- The model's text is usable. -/
def accepts (text : String) : Bool := (parseModelOutput text).isSome

/-- The task is marked for Anubis to demand an approval. -/
def sensitive (task : AgentTask) : Bool :=
  task.requiresRepoWrite.getD false || task.touchesSecrets.getD false || highRisk task

/-- The approval flag of a result, given whether the text was usable. -/
def approvalFlag (agent : AgentId) (task : AgentTask) (accepted : Bool) : Bool :=
  !accepted ||
    match agent with
    | .pharaoh => highRisk task
    | .horusNexus => false
    | .anubisSentinel => sensitive task
    | .ra => true

section ResultOf

variable (agent : AgentId) (task : AgentTask) (text : String) (artifact : Artifact)

@[simp] theorem resultOf_agentId : (resultOf agent task text artifact).agentId = agent := by
  unfold resultOf
  cases parseModelOutput text <;> cases agent <;> rfl

@[simp] theorem resultOf_artifacts :
    (resultOf agent task text artifact).artifacts = [artifact] := by
  unfold resultOf
  cases parseModelOutput text <;> cases agent <;> rfl

/-- A usable text gives a success, any other text a blocked result. -/
theorem resultOf_status :
    (resultOf agent task text artifact).status =
      if accepts text then .success else .blocked := by
  unfold resultOf accepts
  cases parseModelOutput text <;> cases agent <;> rfl

/-- Anubis's list of risks is longer than the output's exactly for a sensitive task. -/
theorem length_risks (output : ModelOutput) :
    (AnubisSentinel.risks output task).length > output.risks.length ↔ sensitive task = true := by
  unfold AnubisSentinel.risks sensitive
  split
  · simp [*]
  · simp [*]

theorem anubis_approvalRequired (output : ModelOutput) :
    (AnubisSentinel.result output task artifact).approvalRequired = sensitive task := by
  simp only [AnubisSentinel.result, length_risks, Bool.decide_eq_true, sensitive]
  cases highRisk task <;> simp

/-- The flag does not depend on the text beyond its being usable. -/
theorem resultOf_approvalRequired :
    (resultOf agent task text artifact).approvalRequired =
      approvalFlag agent task (accepts text) := by
  unfold resultOf accepts approvalFlag
  cases parseModelOutput text with
  | none => rfl
  | some output =>
    cases agent with
    | anubisSentinel => exact anubis_approvalRequired task artifact output
    | pharaoh => rfl
    | horusNexus => rfl
    | ra => rfl

end ResultOf

/-! ## The artifact of a result -/

/-- The title of the artifact that `agent` makes of the model's text. -/
def titleOf (agent : AgentId) (text : String) : String :=
  match parseModelOutput text with
  | none => (agentConfigs agent).displayName ++ " — unpar-seable model output"
  | some _ =>
    match agent with
    | .pharaoh => "Pharaoh Final Recommendation"
    | .horusNexus => "Horus Nexus Architecture Review"
    | .anubisSentinel => "Anubis Sentinel Risk & Security Review"
    | .ra => "Ra Implementation Proposal"

/-- Its content. -/
def contentOf (agent : AgentId) (task : AgentTask) (text : String) : String :=
  match parseModelOutput text with
  | none => "Model output could not be parsed into the required schema.\n\n" ++
      "Raw (truncated):\n" ++ String.ofList (Js.sliceTo 500 text.toList)
  | some output =>
    match agent with
    | .pharaoh => Pharaoh.content output
    | .horusNexus => HorusNexus.content output
    | .anubisSentinel => AnubisSentinel.content output task
    | .ra => Ra.content output

/-! ## Runs -/

section Runs

variable {ε : Type} (env : Env ε) (agent : AgentId) (input : AgentExecuteInput)

/-- Building the result draws an id and the time for its artifact, and nothing else. -/
theorem run_resultFor (text : String) (w : World ε) :
    ∃ artifact : Artifact, artifact.workflowId = input.workflowId ∧
      artifact.title = titleOf agent text ∧
      artifact.content = contentOf agent input.context.task text ∧
      run (sysHandler env) (resultFor agent input text) w =
        (resultOf agent input.context.task text artifact, ((w.randomUUID env).2.now env).2) := by
  unfold resultFor resultOf titleOf contentOf
  cases parseModelOutput text with
  | none => exact ⟨_, rfl, rfl, rfl, rfl⟩
  | some output => cases agent <;> exact ⟨_, rfl, rfl, rfl, rfl⟩

/-- The world in which the model is asked: the start has been audited. -/
def startedWorld (w : World ε) : World ε := (w.auditWrite env (startedEntry agent input)).2

/-- The ways an agent's run can go. -/
inductive AgentRun (w : World ε) : Except Thrown AgentResult → World ε → Prop
  | refused (used budget : Nat) :
      AgentRun w (.error (.tokenBudgetExceeded input.workflowId used budget))
        (startedWorld env agent input w)
  | rejected {e : Thrown} {w' : World ε}
      (h : (startedWorld env agent input w).providerGenerate env (modelRequest agent input) =
        (.error e, w')) :
      AgentRun w (.error e) w'
  | answered {response : ModelResponse} {w' : World ε} (total : Nat) {artifact : Artifact}
      (h : (startedWorld env agent input w).providerGenerate env (modelRequest agent input) =
        (.ok response, w'))
      (ha : artifact.workflowId = input.workflowId) :
      AgentRun w (.ok (resultOf agent input.context.task response.text artifact))
        ((((w'.recordCall env input.workflowId total (modelRequest agent input)
          response).randomUUID env).2.now env).2.auditWrite env
            (completedEntry agent input (resultOf agent input.context.task response.text artifact)
              (accepts response.text))).2

theorem execute_runs (budget : Nat) (w : World ε) :
    AgentRun env agent input w (run (sysHandler env) (execute budget agent input) w).1
      (run (sysHandler env) (execute budget agent input) w).2 := by
  unfold execute
  simp only [perform_bind, run_call, sysHandler_auditWrite, run_bind, ModelRouter.run_generate]
  rw [show ModelRouter.keyOf (modelRequest agent input).workflowId = input.workflowId from rfl]
  by_cases hb : (w.auditWrite env (startedEntry agent input)).2.modelRouter.usage
      input.workflowId ≥ budget
  · simp only [if_pos hb]
    exact .refused _ _
  simp only [if_neg hb]
  rcases h : (w.auditWrite env (startedEntry agent input)).2.providerGenerate env
    (modelRequest agent input) with ⟨e | response, w'⟩
  · exact .rejected h
  · obtain ⟨artifact, ha, -, -, hrun⟩ := run_resultFor env agent input response.text
      (w'.recordCall env input.workflowId
        (w.modelRouter.usage input.workflowId + (response.inputTokens + response.outputTokens))
        (modelRequest agent input) response)
    rw [modelRouter_auditWrite, run_bind, hrun]
    exact .answered _ h ha

/-- An agent that is answered returns its result, around the artifact made of the text, and its
    tokens are counted. -/
theorem execute_answered {budget : Nat} {w w' : World ε} {response : ModelResponse}
    (hbudget : w.modelRouter.usage input.workflowId < budget)
    (hanswer : (startedWorld env agent input w).providerGenerate env (modelRequest agent input) =
      (.ok response, w')) :
    ∃ artifact : Artifact, artifact.title = titleOf agent response.text ∧
      artifact.content = contentOf agent input.context.task response.text ∧
      (run (sysHandler env) (execute budget agent input) w).1 =
        .ok (resultOf agent input.context.task response.text artifact) ∧
      (run (sysHandler env) (execute budget agent input) w).2.modelRouter.usage input.workflowId =
        w.modelRouter.usage input.workflowId + (response.inputTokens + response.outputTokens) := by
  unfold startedWorld at hanswer
  have hlt : ¬ (w.auditWrite env (startedEntry agent input)).2.modelRouter.usage
      input.workflowId ≥ budget := Nat.not_le.mpr hbudget
  have hkey : ModelRouter.keyOf (modelRequest agent input).workflowId = input.workflowId := rfl
  unfold execute
  simp only [perform_bind, run_call, sysHandler_auditWrite, run_bind, ModelRouter.run_generate,
    hkey, if_neg hlt, hanswer]
  obtain ⟨artifact, -, htitle, hcontent, hrun⟩ := run_resultFor env agent input response.text
    (w'.recordCall env input.workflowId
      ((w.auditWrite env (startedEntry agent input)).2.modelRouter.usage input.workflowId +
        (response.inputTokens + response.outputTokens)) (modelRequest agent input) response)
  rw [hrun]
  refine ⟨artifact, htitle, hcontent, rfl, ?_⟩
  exact (ModelRouter.usage_recordCall _ _ _ _ _ _ _).trans (if_pos rfl)

/-- What an agent makes carries the source ids of its context. -/
theorem resultFor_sources (text : String) (w : World ε) :
    ∀ a ∈ (run (sysHandler env) (resultFor agent input text) w).1.artifacts,
      a.contextSourceIds = input.context.contextSourceIds := by
  intro a ha
  unfold resultFor at ha
  cases hparse : parseModelOutput text with
  | none =>
    rw [hparse] at ha
    rw [List.mem_singleton.mp ha]
  | some output =>
    rw [hparse] at ha
    cases agent <;> rw [List.mem_singleton.mp ha]

theorem execute_sources (budget : Nat) (w : World ε) {r : AgentResult}
    (h : (run (sysHandler env) (execute budget agent input) w).1 = .ok r) :
    ∀ a ∈ r.artifacts, a.contextSourceIds = input.context.contextSourceIds := by
  unfold execute at h
  simp only [perform_bind, run_call, sysHandler_auditWrite, run_bind] at h
  rcases hgen : run (sysHandler env) (ModelRouter.generate budget (modelRequest agent input))
    (w.auditWrite env (startedEntry agent input)).2 with ⟨e | response, w'⟩
  · rw [hgen] at h
    cases h
  · rw [hgen] at h
    simp only [run_bind, run_call, run_pure] at h
    obtain rfl := Except.ok.inj h
    exact resultFor_sources env agent input response.text w'

end Runs

end HarpAgent

end Harp
