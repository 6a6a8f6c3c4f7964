import Harp.Agents.AgentRuns
import Harp.Agents.AnswerText

/-
  The stub model provider (`src/models/providers/StubModelProvider.ts`).

  It writes its payload in the contract that the agents read, and no string of it looks like a
  code fence, so an agent reads the payload back as it stands (`parseModelOutput_text`).
-/

namespace Harp

namespace HarpAgent

/-- An encoded output is always usable. -/
theorem accepts_stringified (number : Int → Int → String) (o : ModelOutput) :
    accepts (stringified number o.members) = true := by
  have hempty : BraceFree "" := by decide
  have hread := parseModelOutput_stringify number (List.Perm.refl o.members) hempty hempty
  rw [String.empty_append, String.append_empty] at hread
  rw [accepts, hread, Option.isSome_some]

theorem not_includes_fence {s : String} (h : backtick ∉ s.toList) :
    Js.includes s "```" = false := by
  refine Js.not_includesBy_cons fun c hc => ?_
  rw [beq_eq_false_iff_ne]
  rintro rfl
  exact h hc

/-- Without a fence in a string it is read as it stands. -/
theorem parseModelOutput_stringified (number : Int → Int → String) {o : ModelOutput}
    (h : ∀ s ∈ o.strings, Js.includes s "```" = false) :
    parseModelOutput (stringified number o.members) = some o := by
  have hempty : BraceFree "" := by decide
  have hread := parseModelOutput_stringify number (List.Perm.refl o.members) hempty hempty
  rw [String.empty_append, String.append_empty] at hread
  rw [hread, (ModelOutput.mapTexts_eq_self_iff cleanText o).mpr fun s hs =>
    (cleanText_eq_self_iff s).mpr (h s hs)]

end HarpAgent

namespace StubModelProvider

def isRa (request : ModelRequest) : Bool := request.agentId == some .ra

/-- The payload, before the fields of an implementation are added for Ra. -/
def basePayload (request : ModelRequest) : ModelOutput where
  summary := "Stub " ++ request.modelClass.text ++ " response for agent " ++
    (request.agentId.map (·.text)).getD "unknown" ++ "."
  findings := ["Context was received and parsed.",
    "No live model is connected; this is deterministic stub output."]
  risks :=
    if isRa request then
      ["Generated code must pass review and approval before any repo write."]
    else []
  recommendations := ["Replace StubModelProvider with a real provider before production."]
  unknowns := ["Real model judgement is unavailable in stub mode."]
  nextSafeStep := "Connect a real ModelProvider, then re-run the workflow under approval gates."
  assumptions := ["Stub mode assumes no external model access."]
  filesAffected := none
  testPlan := none
  rollbackPlan := none
  validationCommands := none

def payload (request : ModelRequest) : ModelOutput :=
  if isRa request then
    { basePayload request with
      filesAffected := some ["(proposal only — no files written)"]
      testPlan := some ["Add unit tests covering the proposed change.",
        "Run pnpm run typecheck and pnpm test."]
      rollbackPlan := some ["Revert the proposal branch; no production state is touched."]
      validationCommands := some
        ["pnpm install", "pnpm run typecheck", "pnpm run build", "pnpm test"] }
  else basePayload request

variable (number : Int → Int → String)

/-- `JSON.stringify(payload)`. -/
def text (request : ModelRequest) : String :=
  HarpAgent.stringified number (payload request).members

/-- `generate`; the clock is read before and after. -/
def generate {ε : Type} (dateNow : ε → ℤ × ε) (request : ModelRequest) (e : ε) :
    Except Thrown ModelResponse × ε :=
  let start := dateNow e
  let text := text number request
  let done := dateNow start.2
  (.ok {
    text := text
    modelUsed := "stub:" ++ request.modelClass.text
    modelClass := request.modelClass
    inputTokens :=
      (Js.length request.systemPrompt.toList + Js.length request.userPrompt.toList + 3) / 4
    outputTokens := (Js.length text.toList + 3) / 4
    estimatedCostUsd := 0
    latencyMs := done.1 - start.1 }, done.2)

theorem modelClass_text (modelClass : ModelClass) :
    HarpAgent.backtick ∉ modelClass.text.toList := by
  cases modelClass <;> decide

theorem agentId_text (agentId : Option AgentId) :
    HarpAgent.backtick ∉ ((agentId.map (·.text)).getD "unknown").toList := by
  rcases agentId with _ | _ | _ | _ | _ <;> decide

theorem payload_texts (request : ModelRequest) :
    ∀ s ∈ (payload request).strings, HarpAgent.backtick ∉ s.toList := by
  have hsummary : HarpAgent.backtick ∉ (basePayload request).summary.toList := by
    have hbefore : HarpAgent.backtick ∉ "Stub ".toList := by decide
    have hbetween : HarpAgent.backtick ∉ " response for agent ".toList := by decide
    have hafter : HarpAgent.backtick ∉ ".".toList := by decide
    simp only [basePayload, String.toList_append, List.mem_append, hbefore, hbetween, hafter,
      modelClass_text, agentId_text, or_self, not_false_eq_true]
  cases h : isRa request <;>
    simp only [payload, basePayload, h, ModelOutput.strings, Bool.false_eq_true, if_true, if_false,
      Option.getD_some, Option.getD_none, List.append_nil, List.cons_append, List.nil_append,
      List.forall_mem_cons] at hsummary ⊢ <;>
    exact ⟨hsummary, by decide +kernel⟩

/-- Every agent reads the payload back as it stands. -/
theorem parseModelOutput_text (request : ModelRequest) :
    HarpAgent.parseModelOutput (text number request) = some (payload request) :=
  HarpAgent.parseModelOutput_stringified number fun s hs =>
    HarpAgent.not_includes_fence (payload_texts request s hs)

end StubModelProvider

end Harp
