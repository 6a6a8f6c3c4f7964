import Harp.Gateway.Failover
import Mathlib.Data.List.Forall2

/-
  What of a prompt crosses the gateway (`src/gateway/concierge/Concierge.ts`).

  `generate_congr` says that a call depends on its request through the redaction results, the
  class, the temperature and the risk alone. Two such calls draw their own correlation ids:
  `generate_inStep` compares their programs operation by operation, and `mask` forgets the id
  in what was performed and answered. The induction is on the retries left, then on the plan.
-/

namespace Harp.Concierge

open Prog

/-- What of a request and its redaction a call may use. -/
structure SameRedacted (config : Config) (r r' : CoreModelRequest) : Prop where
  modelClass : r.modelClass = r'.modelClass
  temperature : r.temperature = r'.temperature
  highRisk : r.highRisk = r'.highRisk
  system : config.redact r.systemPrompt = config.redact r'.systemPrompt
  user : config.redact r.userPrompt = config.redact r'.userPrompt

/-- Requests with the same redacted form are the same to a call, in every world. -/
theorem generate_congr {config : Config} {r r' : CoreModelRequest}
    (h : SameRedacted config r r') : generate config r = generate config r' := by
  have henv : envelope config r = envelope config r' := by
    unfold envelope
    rw [h.modelClass, h.temperature, h.highRisk, h.system, h.user]
  have hdeliver : deliverAlong config r = deliverAlong config r' := by
    unfold deliverAlong
    rw [henv, h.modelClass]
  unfold generate
  rw [hdeliver, h.modelClass, h.system, h.user]

/-! ## Up to the correlation id -/

/-- A reply without its correlation id. -/
def maskAnswer : DeliveryAnswer → DeliveryAnswer
  | .error e => .error e
  | .ok (.success r) => .ok (.success { r with correlationId := "" })
  | .ok (.failure f) => .ok (.failure { f with correlationId := "" })

/-- What was performed and answered, without the correlation id. -/
def mask : ((o : GatewayOp) × GatewayOp.Res o) → (o : GatewayOp) × GatewayOp.Res o
  | ⟨.randomUUID, _⟩ => ⟨.randomUUID, ""⟩
  | ⟨.log fields, u⟩ => ⟨.log { fields with correlationId := none }, u⟩
  | ⟨.serving modelClass, containers⟩ => ⟨.serving modelClass, containers⟩
  | ⟨.deliver container request, answer⟩ =>
    ⟨.deliver container { request with correlationId := "" }, maskAnswer answer⟩
  | ⟨.markHealth id healthy, u⟩ => ⟨.markHealth id healthy, u⟩

/-- The same operation, under the ids `u` and `u'`. -/
def InStep (u u' : String) : GatewayOp → GatewayOp → Prop
  | .randomUUID, .randomUUID => True
  | .log fields, .log fields' =>
    fields.correlationId = some u ∧ fields'.correlationId = some u' ∧
      { fields with correlationId := none } = { fields' with correlationId := none }
  | .serving modelClass, .serving modelClass' => modelClass = modelClass'
  | .deliver container request, .deliver container' request' =>
    container = container' ∧ request.correlationId = u ∧ request'.correlationId = u' ∧
      { request with correlationId := "" } = { request' with correlationId := "" }
  | .markHealth id healthy, .markHealth id' healthy' => id = id' ∧ healthy = healthy'
  | _, _ => False

/-- The same answer, where the ids drawn are `u` and `u'`. -/
def Answered (u u' : String) : (o o' : GatewayOp) → GatewayOp.Res o → GatewayOp.Res o' → Prop
  | .randomUUID, .randomUUID, id, id' => id = u ∧ id' = u'
  | .log _, .log _, _, _ => True
  | .serving _, .serving _, containers, containers' => containers = containers'
  | .deliver .., .deliver .., answer, answer' => maskAnswer answer = maskAnswer answer'
  | .markHealth .., .markHealth .., _, _ => True
  | _, _, _, _ => False

theorem mask_eq {u u' : String} {x y : (o : GatewayOp) × GatewayOp.Res o}
    (ho : InStep u u' x.1 y.1) (hr : Answered u u' x.1 y.1 x.2 y.2) : mask x = mask y := by
  obtain ⟨o, r⟩ := x
  obtain ⟨o', r'⟩ := y
  cases o <;> cases o' <;> try exact False.elim ho
  case randomUUID.randomUUID => rfl
  case log.log =>
    simp only [mask]
    rw [ho.2.2]
  case serving.serving =>
    cases ho
    exact congrArg (Sigma.mk _) hr
  case deliver.deliver =>
    obtain ⟨rfl, -, -, hrequest⟩ := ho
    simp only [mask]
    rw [hrequest]
    exact congrArg (Sigma.mk _) hr
  case markHealth.markHealth =>
    obtain ⟨rfl, rfl⟩ := ho
    rfl

/-- Answers that agree up to their correlation id are of one shape. -/
theorem maskAnswer_cases {a a' : DeliveryAnswer} (h : maskAnswer a = maskAnswer a') :
    (∃ e, a = .error e ∧ a' = .error e) ∨
    (∃ (r : ContainerSuccess) (v v' : String),
      a = .ok (.success { r with correlationId := v }) ∧
      a' = .ok (.success { r with correlationId := v' })) ∨
    ∃ (f : ContainerFailure) (v v' : String),
      a = .ok (.failure { f with correlationId := v }) ∧
      a' = .ok (.failure { f with correlationId := v' }) := by
  match a, a', h with
  | .error e, .error e', h => exact .inl ⟨e, rfl, by cases h; rfl⟩
  | .ok (.success r), .ok (.success r'), h =>
    cases r
    cases r'
    cases h
    exact .inr (.inl ⟨⟨_, "", _, _, _, _, _, _, _⟩, _, _, rfl, rfl⟩)
  | .ok (.failure f), .ok (.failure f'), h =>
    cases f
    cases f'
    cases h
    exact .inr (.inr ⟨⟨_, "", _, _, _⟩, _, _, rfl, rfl⟩)

/-! ## Two calls in step -/

section InStep

variable {u u' : String} {env env' : Envelope}

/-- Two envelopes that differ in their correlation ids `u` and `u'` only. -/
def SameEnvelope (u u' : String) (env env' : Envelope) : Prop :=
  ∃ (modelClass : WireModelClass) (request : ContainerRequest),
    env = ⟨u, modelClass, { request with correlationId := u }⟩ ∧
    env' = ⟨u', modelClass, { request with correlationId := u' }⟩

theorem attempts_inStep (retries : Nat) (henv : SameEnvelope u u' env env')
    (container : RegisteredContainer) (left : Nat) (lastKind : Option String) :
    Related (InStep u u') (Answered u u') Eq (attempts retries env container left lastKind)
      (attempts retries env' container left lastKind) := by
  obtain ⟨modelClass, request, rfl, rfl⟩ := henv
  induction left generalizing lastKind with
  | zero => exact related_pure _ _ |>.mpr rfl
  | succ left ih =>
    rw [attempts, attempts]
    refine ⟨⟨rfl, rfl, rfl, rfl⟩, fun a a' ha => ?_⟩
    obtain ⟨e, rfl, rfl⟩ | ⟨r, v, v', rfl, rfl⟩ | ⟨f, v, v', rfl, rfl⟩ := maskAnswer_cases ha
    · exact ⟨⟨rfl, rfl, rfl⟩, fun _ _ _ => ih _⟩
    · exact ⟨⟨rfl, rfl, rfl⟩, fun _ _ _ => rfl⟩
    · dsimp only [Prog.bind]
      by_cases hf : fatal f.kind = true
      · rw [if_pos hf, if_pos hf]
        exact ⟨⟨rfl, rfl, rfl⟩, fun _ _ _ => rfl⟩
      · rw [if_neg hf, if_neg hf]
        refine ⟨⟨rfl, rfl, rfl⟩, fun _ _ _ => ?_⟩
        by_cases hr : (f.retryable && decide (retries - left < retries)) = true
        · simp only [if_pos hr]
          exact ih _
        · simp only [if_neg hr]
          exact ⟨⟨rfl, rfl⟩, fun _ _ _ => rfl⟩

theorem failover_inStep (retries : Nat) (henv : SameEnvelope u u' env env')
    (plan : List RegisteredContainer) (lastKind : Option String) :
    Related (InStep u u') (Answered u u') Eq (failover retries env plan lastKind)
      (failover retries env' plan lastKind) := by
  induction plan generalizing lastKind with
  | nil =>
    obtain ⟨modelClass, request, rfl, rfl⟩ := henv
    exact ⟨⟨rfl, rfl, rfl⟩, fun _ _ _ => rfl⟩
  | cons container rest ih =>
    rw [failover, failover]
    refine (attempts_inStep retries henv container retries lastKind).bind ?_
    rintro tried _ rfl
    cases tried with
    | resolved r => exact rfl
    | thrown e => exact rfl
    | moveOn lastKind' => exact ih lastKind'

/-- Two calls for requests with the same redacted form. -/
theorem generate_inStep {config : Config} {r r' : CoreModelRequest}
    (h : SameRedacted config r r') :
    Related (InStep u u') (Answered u u') Eq (generate config r) (generate config r') := by
  rw [generate_congr h]
  refine ⟨trivial, ?_⟩
  rintro _ _ ⟨rfl, rfl⟩
  refine ⟨⟨rfl, rfl, rfl⟩, fun _ _ _ => ⟨rfl, ?_⟩⟩
  rintro serving _ rfl
  unfold deliverAlong
  dsimp only [Prog.bind]
  by_cases hp : (Router.tiered serving).length = 0
  · rw [if_pos hp, if_pos hp]
    exact ⟨⟨rfl, rfl, rfl⟩, fun _ _ _ => rfl⟩
  · rw [if_neg hp, if_neg hp]
    exact failover_inStep _ ⟨_, (envelope config r' "").request, rfl, rfl⟩ _ none

end InStep

/-! ## Two runs -/

/-- A transport that behaves as a function of the deliveries made to it, the last one the one
    to answer, and the id that `randomUUID` gives. -/
def observing (transport : List (RegisteredContainer × ContainerRequest) → DeliveryAnswer)
    (correlationId : String) : GatewayEnv (List (RegisteredContainer × ContainerRequest)) where
  randomUUID ds := (correlationId, ds)
  log _ ds := ds
  deliver container request registry ds :=
    (transport (ds ++ [(container, request)]), registry, ds ++ [(container, request)])

/-- Deliveries under another correlation id. -/
def withId (u : String) (ds : List (RegisteredContainer × ContainerRequest)) :
    List (RegisteredContainer × ContainerRequest) :=
  ds.map fun d => (d.1, { d.2 with correlationId := u })

/-- Two worlds whose transports saw the same deliveries, under the ids `u` and `u'`. -/
def SameWorld (u u' : String)
    (w w' : GatewayWorld (List (RegisteredContainer × ContainerRequest))) : Prop :=
  w.registry = w'.registry ∧ ∃ ds, w.env = withId u ds ∧ w'.env = withId u' ds

theorem observing_step
    {transport : List (RegisteredContainer × ContainerRequest) → DeliveryAnswer} {u u' : String}
    (htransport : ∀ ds,
      maskAnswer (transport (withId u ds)) = maskAnswer (transport (withId u' ds)))
    (o o' : GatewayOp) (w w' : GatewayWorld (List (RegisteredContainer × ContainerRequest)))
    (ho : InStep u u' o o') (hw : SameWorld u u' w w') :
    Answered u u' o o' (gatewayHandler (observing transport u) o w).1
        (gatewayHandler (observing transport u') o' w').1 ∧
      SameWorld u u' (gatewayHandler (observing transport u) o w).2
        (gatewayHandler (observing transport u') o' w').2 := by
  obtain ⟨ds, registry⟩ := w
  obtain ⟨ds', registry'⟩ := w'
  obtain ⟨hregistry, ds, henv, henv'⟩ := hw
  simp only at hregistry henv henv'
  subst hregistry henv henv'
  cases o <;> cases o' <;> try exact False.elim ho
  case randomUUID.randomUUID => exact ⟨⟨rfl, rfl⟩, rfl, ds, rfl, rfl⟩
  case log.log => exact ⟨trivial, rfl, ds, rfl, rfl⟩
  case serving.serving =>
    obtain rfl := ho
    exact ⟨rfl, rfl, ds, rfl, rfl⟩
  case deliver.deliver container request container' request' =>
    obtain ⟨rfl, rfl, rfl, hrequest⟩ := ho
    have hsnoc : withId request.correlationId ds ++ [(container, request)] =
        withId request.correlationId (ds ++ [(container, request)]) := by simp [withId]
    have hsnoc' : withId request'.correlationId ds ++ [(container, request')] =
        withId request'.correlationId (ds ++ [(container, request)]) := by
      have : request' = { request with correlationId := request'.correlationId } :=
        congrArg (fun q : ContainerRequest =>
          { q with correlationId := request'.correlationId }) hrequest.symm
      simp [withId, ← this]
    refine ⟨?_, rfl, ds ++ [(container, request)], hsnoc, hsnoc'⟩
    simp only [Answered, gatewayHandler, observing]
    rw [hsnoc, hsnoc']
    exact htransport _
  case markHealth.markHealth =>
    obtain ⟨rfl, rfl⟩ := ho
    exact ⟨trivial, rfl, ds, rfl, rfl⟩

/-- Nothing of a prompt but its redacted form leaves a call: two requests with the same redacted
    form are one program, and under ids of their own they perform the same operations with the
    same answers, up to the id, and end alike. -/
theorem generate_private (config : Config) (r r' : CoreModelRequest)
    (h : SameRedacted config r r')
    (transport : List (RegisteredContainer × ContainerRequest) → DeliveryAnswer) (u u' : String)
    (htransport : ∀ ds,
      maskAnswer (transport (withId u ds)) = maskAnswer (transport (withId u' ds)))
    (registry : ContainerRegistry) :
    let call := generate config r
    let call' := generate config r'
    let handler := gatewayHandler (observing transport u)
    let handler' := gatewayHandler (observing transport u')
    call = call' ∧
      (trace handler call ⟨[], registry⟩).map mask =
        (trace handler' call' ⟨[], registry⟩).map mask ∧
      (run handler call ⟨[], registry⟩).1 = (run handler' call' ⟨[], registry⟩).1 ∧
      (run handler call ⟨[], registry⟩).2.registry =
        (run handler' call' ⟨[], registry⟩).2.registry := by
  intro call call' handler handler'
  have hstart : SameWorld u u' ⟨[], registry⟩ ⟨[], registry⟩ := ⟨rfl, [], rfl, rfl⟩
  obtain ⟨hout, hend, htrace⟩ :=
    Related.runs (observing_step htransport) (generate_inStep h) hstart
  refine ⟨generate_congr h, ?_, hout, hend.1⟩
  have hmask := htrace.imp fun x y hxy => mask_eq hxy.1 hxy.2
  rw [← List.forall₂_eq_eq_eq, List.forall₂_map_left_iff, List.forall₂_map_right_iff]
  exact hmask

/-- A transport that throws at its first delivery and then answers, and a redactor that keeps
    nothing: two different prompts of different workflows. -/
theorem generate_private_two :
    let config : Config := ⟨2, fun _ => ⟨"", [⟨"text", 1⟩]⟩, none⟩
    let call := generate config
      ⟨.cloudReasoning, "system", "user", none, some "ra", some "t1", some "wf1", none⟩
    let call' := generate config
      ⟨.cloudReasoning, "other", "words", none, some "pharaoh", none, some "wf2", none⟩
    let handler u := gatewayHandler (observing (fun ds => if ds.length < 2 then .error (.error "")
      else .ok (.success ⟨"1.0.0", "", "{}", "m", .cloudReasoning, 1, 1, 0, 0⟩)) u)
    call = call' ∧
      (trace (handler "a") call ⟨[], twoContainers⟩).map mask =
        (trace (handler "b") call' ⟨[], twoContainers⟩).map mask ∧
      (run (handler "a") call ⟨[], twoContainers⟩).1 =
        (run (handler "b") call' ⟨[], twoContainers⟩).1 ∧
      (run (handler "a") call ⟨[], twoContainers⟩).2.registry =
        (run (handler "b") call' ⟨[], twoContainers⟩).2.registry :=
  generate_private ⟨2, fun _ => ⟨"", [⟨"text", 1⟩]⟩, none⟩ _ _ ⟨rfl, rfl, rfl, rfl, rfl⟩ _ "a" "b"
    (fun ds => by simp [withId]) twoContainers

end Harp.Concierge
