import Harp.Agents.AgentRuns
import Harp.Lib.JsonText

/-
  Which model answers an agent takes as a success (`HarpAgent.execute`,
  `HarpAgent.parseModelOutput`).

  The answer must hold a JSON object between its first and its last brace; the fields of the object
  are read leniently. So an object without any of the required fields makes a success as well
  (`execute_success_iff`), while an answer that holds no object blocks.
-/

namespace Harp

open Prog

namespace HarpAgent

/-- The members of the JSON object that the answer holds. -/
def objectOf (text : String) : Option (List (String × Json)) :=
  match (candidate (cleaned text)).bind Json.parse with
  | some (.obj ms) => some ms
  | _ => none

/-- The object gives `output` in the contract's own types: texts for texts and lists of texts for
    lists. -/
structure Gives (ms : List (String × Json)) (output : ModelOutput) : Prop where
  summary : (Json.obj ms).get "summary" = some (.str output.summary)
  findings : (Json.obj ms).get "findings" = some (.arr (output.findings.map .str))
  risks : (Json.obj ms).get "risks" = some (.arr (output.risks.map .str))
  recommendations : (Json.obj ms).get "recommendations" =
    some (.arr (output.recommendations.map .str))
  unknowns : (Json.obj ms).get "unknowns" = some (.arr (output.unknowns.map .str))
  nextSafeStep : (Json.obj ms).get "nextSafeStep" = some (.str output.nextSafeStep)
  assumptions : (Json.obj ms).get "assumptions" = some (.arr (output.assumptions.map .str))

/-- The object has the seven required fields, each of its type. -/
def Conforming (ms : List (String × Json)) : Prop := ∃ output, Gives ms output

/-! ## Reading the object -/

/-- A conforming object is read as it stands. -/
theorem conforming_iff (ms : List (String × Json)) :
    Conforming ms ↔ Gives ms (outputOf (.obj ms)) := by
  constructor
  · intro ⟨output, h⟩
    constructor
    · simp only [outputOf, h.summary, str]
    · simp only [outputOf, h.findings, strArray_map_str]
    · simp only [outputOf, h.risks, strArray_map_str]
    · simp only [outputOf, h.recommendations, strArray_map_str]
    · simp only [outputOf, h.unknowns, strArray_map_str]
    · simp only [outputOf, h.nextSafeStep, str]
    · simp only [outputOf, h.assumptions, strArray_map_str]
  · intro h
    exact ⟨_, h⟩

/-- The span that is parsed opens with a brace. -/
theorem candidate_brace {cs span : List Char} (h : candidate cs = some span) :
    ∃ rest, span = '{' :: rest := by
  unfold candidate at h
  split at h
  case h_2 => cases h
  case h_1 first last hfirst hlast =>
    obtain ⟨hlt, hc, -⟩ := List.findIdx?_eq_some_iff_getElem.mp hfirst
    split at h
    · cases h
    · have hle : first < last + 1 := by omega
      have htake : first < (cs.take (last + 1)).length := by
        rw [List.length_take]
        omega
      obtain rfl := Option.some.inj h
      refine ⟨(cs.take (last + 1)).drop (first + 1), ?_⟩
      unfold Js.slice
      rw [List.drop_eq_getElem_cons htake, List.getElem_take, beq_iff_eq.mp hc]

/-- The parse of an answer is the lenient reading of the object in it. -/
theorem parseModelOutput_eq (text : String) :
    parseModelOutput text = (objectOf text).map fun ms => outputOf (.obj ms) := by
  unfold parseModelOutput objectOf
  cases hspan : candidate (cleaned text) with
  | none => rfl
  | some span =>
    obtain ⟨rest, rfl⟩ := candidate_brace hspan
    cases hv : Json.parse ('{' :: rest) with
    | none => simp [hv]
    | some v =>
      obtain ⟨ms, rfl⟩ := Json.parse_brace hv
      simp [hv]

theorem accepts_iff (text : String) : accepts text = true ↔ ∃ ms, objectOf text = some ms := by
  unfold accepts
  rw [parseModelOutput_eq, Option.isSome_map, Option.isSome_iff_exists]

theorem resultOf_blocked (agent : AgentId) (task : AgentTask) (artifact : Artifact)
    {text : String} (h : parseModelOutput text = none) :
    resultOf agent task text artifact = blockedResult agent artifact := by
  unfold resultOf
  rw [h]

/-! ## What a run returns -/

section

variable {ε : Type} (env : Env ε) (budget : ℕ) (agent : AgentId) (input : AgentExecuteInput)
  {w w' : World ε} {response : ModelResponse}

/-- An answered agent returns a success exactly when the answer holds a JSON object, which is read
    leniently and, where it conforms to the contract, as it stands; on any other answer it returns
    the blocked result. -/
theorem execute_success_iff (hbudget : w.modelRouter.usage input.workflowId < budget)
    (hanswer : (startedWorld env agent input w).providerGenerate env (modelRequest agent input) =
      (.ok response, w')) :
    ∃ r, (run (sysHandler env) (execute budget agent input) w).1 = .ok r ∧
      (r.status = .success ↔ ∃ ms, objectOf response.text = some ms) ∧
      (∀ ms, objectOf response.text = some ms →
        parseModelOutput response.text = some (outputOf (.obj ms)) ∧
        (Conforming ms ↔ Gives ms (outputOf (.obj ms)))) ∧
      (objectOf response.text = none →
        parseModelOutput response.text = none ∧ r.status = .blocked ∧
          r.approvalRequired = true ∧ r.findings = []) := by
  obtain ⟨artifact, -, -, hrun, -⟩ := execute_answered env agent input hbudget hanswer
  refine ⟨_, hrun, ?_, ?_, ?_⟩
  · rw [resultOf_status, ← accepts_iff]
    cases accepts response.text <;> decide
  · intro ms hms
    have hparse := parseModelOutput_eq response.text
    rw [hms] at hparse
    exact ⟨hparse, conforming_iff ms⟩
  · intro hnone
    have hparse : parseModelOutput response.text = none := by
      rw [parseModelOutput_eq, hnone]
      rfl
    rw [resultOf_blocked agent input.context.task artifact hparse]
    exact ⟨hparse, rfl, rfl, rfl⟩

end

/-! ## An empty object -/

/-- A call without any project context. -/
def renameCall : AgentExecuteInput where
  context := {
    task := {
      id := "t-1"
      title := "Rename"
      description := "Rename a column."
      repo := none
      riskLevel := .low
      requiresRepoWrite := none
      touchesSecrets := none
      reversible := none }
    contextSourceIds := []
    snapshotAt := "2026-01-01T00:00:00.000Z"
    architectureDocs := []
    standardOperatingProcedures := []
    glossary := []
    priorDecisions := []
    openIssues := []
    workflowHistory := []
    priorArtifacts := []
    constraints := []
    unresolvedUnknowns := [] }
  workflowId := "w-1"

theorem renameCall_budget :
    (World.create ()).modelRouter.usage renameCall.workflowId < 200000 := by decide

theorem objectOf_empty : objectOf "\x7b\x7d" = some [] := by
  have hspan : candidate (cleaned "\x7b\x7d") = some ['{', '}'] := by decide
  unfold objectOf
  rw [hspan]
  rfl

/-- An answer with every field of the contract, and prose around it. -/
def fullAnswer : String :=
  "Here: \x7b\"summary\":\"Go.\",\"findings\":[\"A.\"],\"risks\":[]," ++
    "\"recommendations\":[\"B.\"],\"unknowns\":[],\"nextSafeStep\":\"C.\",\"assumptions\":[]\x7d"

def fullOutput : ModelOutput where
  summary := "Go."
  findings := ["A."]
  risks := []
  recommendations := ["B."]
  unknowns := []
  nextSafeStep := "C."
  assumptions := []
  filesAffected := none
  testPlan := none
  rollbackPlan := none
  validationCommands := none

theorem execute_success_iff_full :
    parseModelOutput fullAnswer = some fullOutput ∧
      ∃ r, (run (sysHandler (Env.constant fullAnswer true)) (execute 200000 .ra renameCall)
          (World.create ())).1 = .ok r ∧
        (r.status = .success ↔ ∃ ms, objectOf fullAnswer = some ms) ∧
        (∀ ms, objectOf fullAnswer = some ms →
          parseModelOutput fullAnswer = some (outputOf (.obj ms)) ∧
          (Conforming ms ↔ Gives ms (outputOf (.obj ms)))) ∧
        (objectOf fullAnswer = none →
          parseModelOutput fullAnswer = none ∧ r.status = .blocked ∧
            r.approvalRequired = true ∧ r.findings = []) := by
  have hparse : parseModelOutput fullAnswer = some fullOutput := by decide +kernel
  have hsuccess := execute_success_iff (Env.constant fullAnswer true) 200000 .ra renameCall
    renameCall_budget rfl
  exact ⟨hparse, hsuccess⟩

/-- An object without members makes a success, though it has none of the required fields. -/
theorem empty_object_succeeds :
    ∃ r, (run (sysHandler (Env.constant "\x7b\x7d" true)) (execute 200000 .horusNexus renameCall)
        (World.create ())).1 = .ok r ∧
      r.status = .success ∧ r.approvalRequired = false ∧
      ¬ ∃ ms, objectOf "\x7b\x7d" = some ms ∧ Conforming ms := by
  obtain ⟨artifact, -, -, hrun, -⟩ := execute_answered (Env.constant "\x7b\x7d" true) .horusNexus
    renameCall renameCall_budget rfl
  have haccepts : accepts "\x7b\x7d" = true := by
    rw [accepts_iff]
    exact ⟨[], objectOf_empty⟩
  refine ⟨_, hrun, ?_, ?_, ?_⟩
  · rw [resultOf_status]
    exact if_pos haccepts
  · rw [resultOf_approvalRequired]
    show approvalFlag _ _ (accepts "\x7b\x7d") = false
    rw [haccepts]
    rfl
  · intro ⟨ms, hms, output, h⟩
    rw [objectOf_empty] at hms
    obtain rfl := Option.some.inj hms
    have hsummary := h.summary
    cases hsummary

end HarpAgent

end Harp
