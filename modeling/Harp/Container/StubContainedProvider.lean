import Harp.Gateway.EndToEnd
import Harp.Models.StubModelProvider

/-
  The stub provider of a container (`src/container/src/Provider.ts`).

  A network of containers that run it answers every call that it answers at all with a text that
  the agents can read (`generate_stubbed`).
-/

namespace Harp

open Prog

namespace StubContainedProvider

def payload (descriptor : ContainerDescriptor) (input : Asked) : ModelOutput where
  summary := "Stub " ++ input.modelClass.text ++ " response from container " ++ descriptor.id ++ "."
  findings := ["Secure pipe exercised end to end.", "Provider executed inside its container."]
  risks :=
    if input.highRisk then ["High-risk task: human approval required before execution."] else []
  recommendations := ["Replace stub with a real model SDK inside this container."]
  unknowns := ["Real model judgement unavailable in stub mode."]
  nextSafeStep := "Wire a real provider; keep the concierge and core unchanged."
  assumptions := ["Stub mode assumes no upstream model access."]
  filesAffected := none
  testPlan := none
  rollbackPlan := none
  validationCommands := none

section

variable {E ε : Type} (engine : Engine) (dateNow : ε → ℤ × ε) (descriptor : ContainerDescriptor)

/-- `JSON.stringify(payload)`. -/
def text (input : Asked) : String :=
  HarpAgent.stringified engine.number (payload descriptor input).members

/-- `generate`; the clock is read before and after. -/
def generate (input : Asked) (e : ε) : Except E Provided × ε :=
  let start := dateNow e
  let text := text engine descriptor input
  let done := dateNow start.2
  (.ok {
    text := text
    modelUsed := "stub:" ++ descriptor.providerFamily ++ ":" ++ input.modelClass.text
    modelClass := input.modelClass
    inputTokens :=
      (Js.length input.systemPrompt.toList + Js.length input.userPrompt.toList + 3) / 4
    outputTokens := (Js.length text.toList + 3) / 4
    estimatedCostUsd := 0
    latencyMs := done.1 - start.1 }, done.2)

/-- The code of a container that runs the stub, given what it does with an input that is not of the
    declared type. -/
def host (undeclared : ProviderInput → ε → Except E ProviderOutput × ε)
    (errorText : E → ε → String × ε) : ContainerHost E ε where
  descriptor := descriptor
  generate := generate engine dateNow descriptor
  undeclared := undeclared
  errorText := errorText

end

/-! ## What it answers -/

/-- An answer to what was asked, in a text that an agent can read. -/
structure Answers (asked : Asked) (out : Provided) : Prop where
  text : HarpAgent.accepts out.text = true
  modelClass : out.modelClass = asked.modelClass
  estimatedCostUsd : out.estimatedCostUsd = 0

/-- The container runs the stub. -/
def Runs {E ε : Type} (engine : Engine) (dateNow : ε → ℤ × ε) (h : ContainerHost E ε) : Prop :=
  ∃ descriptor undeclared errorText, h = host engine dateNow descriptor undeclared errorText

section

variable {E ε : Type} {engine : Engine} {decimal : ℚ → ℤ × ℤ} {dateNow : ε → ℤ × ε}
  {h : ContainerHost E ε}

/-- It never rejects. -/
theorem Runs.provides (hruns : Runs engine dateNow h) (K : Option String → Prop) :
    Provides Answers K h := by
  obtain ⟨descriptor, undeclared, errorText, rfl⟩ := hruns
  constructor
  · intro asked e out hout
    obtain rfl := Except.ok.inj hout
    exact ⟨HarpAgent.accepts_stringified engine.number _, rfl, rfl⟩
  · intro asked e error herror
    cases herror

end

end StubContainedProvider

/-! ## Whole calls -/

/-- A response of the class that was asked for, in a text that an agent can read. -/
structure StubbedResponse (request : CoreModelRequest) (r : CoreModelResponse) : Prop where
  text : HarpAgent.accepts r.text = true
  modelClass : r.modelClass = request.modelClass
  estimatedCostUsd : r.estimatedCostUsd = 0

section Stubbed

variable {E ε : Type} {engine : Engine} {decimal : ℚ → ℤ × ℤ} {dateNow : ε → ℤ × ε}
  {config : Concierge.Config} {request : CoreModelRequest}

theorem StubContainedProvider.Answers.response {out : Provided}
    (h : Answers (request.asked config) out) (correlationId : String) :
    StubbedResponse request (Concierge.coreResponse (out.success correlationId)) :=
  ⟨h.text, h.modelClass, h.estimatedCostUsd⟩

end Stubbed

/-- A network without faults, in which every container runs the stub. -/
def Network.stubbed : Network Empty Unit where
  randomUUID _ := ("uuid", ())
  fate _ _ _ := (.served, ())
  host container := StubContainedProvider.host decimalEngine (fun _ => (0, ())) container.descriptor
    (fun _ _ => (.ok ⟨"", "", .localFast, .nonFinite, .nonFinite, .nonFinite, .nonFinite⟩, ()))
    (fun e _ => e.elim)
  others registry _ := (registry, ())

end Harp
