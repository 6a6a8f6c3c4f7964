import Harp.Core.World
import Harp.Gateway.Failover
import Harp.Gateway.Redactor

/-
  The model provider that the core is given in the mode "concierge" (`src/modelProvider.ts`).

  `conciergeAsProvider` adapts the concierge to the contract of the core. `SystemEnv` is what
  then lies outside of core and gateway together, and `SystemEnv.core` answers the core's
  question to its provider by running the concierge. `SystemEnv.recorded` is the same
  surroundings, which also keep what was delivered, and to whom.
-/

namespace Harp

open Prog

namespace ModelProvider

/-- An entry of `HARP_CONTAINERS`. -/
structure ContainerEnvEntry where
  id : String
  baseUrl : String
  tier : Tier
  classes : List WireModelClass
  providerFamily : String

/-- The container that an entry registers. -/
def registered (c : ContainerEnvEntry) : RegisteredContainer where
  descriptor := {
    id := c.id
    servesClasses := c.classes
    tier := c.tier
    providerFamily := c.providerFamily }
  baseUrl := c.baseUrl
  healthy := true

/-- The registry that `buildModelProvider` fills; an id that comes twice throws. -/
def registryOf (cs : List ContainerEnvEntry) : Except Thrown ContainerRegistry :=
  cs.foldlM (fun registry c => registry.register (registered c)) .empty

/-- What `buildModelProvider` builds the concierge with. -/
def config : Concierge.Config where
  retriesPerContainer := 2
  redact := DefaultRedactor.redact []
  deadlineMs := none

/-- The request that the adapter makes of the core's request. -/
def coreModelRequest (request : ModelRequest) : CoreModelRequest where
  modelClass := request.modelClass
  systemPrompt := request.systemPrompt
  userPrompt := request.userPrompt
  temperature := request.temperature
  agentId := request.agentId.map (·.text)
  taskId := request.taskId
  workflowId := request.workflowId
  highRisk := some false

/-- The response of the concierge, as the core sees it. -/
def modelResponse (r : CoreModelResponse) : ModelResponse where
  text := r.text
  modelUsed := r.modelUsed
  modelClass := r.modelClass
  inputTokens := r.inputTokens
  outputTokens := r.outputTokens
  estimatedCostUsd := r.estimatedCostUsd
  latencyMs := r.latencyMs

/-- `conciergeAsProvider(concierge).generate(request)`. -/
def conciergeAsProvider (config : Concierge.Config) (request : ModelRequest) :
    GatewayProg (Except Thrown ModelResponse) := do
  match ← Concierge.generate config (coreModelRequest request) with
  | .error e => pure (.error e)
  | .ok res => pure (.ok (modelResponse res))

end ModelProvider

/-! ## Core and gateway together -/

/-- Everything outside of core and gateway. Other calls may change the registry while a
    delivery or a decision is awaited. -/
structure SystemEnv (ε : Type) extends GatewayEnv ε where
  now : ε → String × ε
  requestApproval : ApprovalRequest → ContainerRegistry → ε →
    Except Thrown ApprovalDecision × ContainerRegistry × ε

/-- What was delivered, and to whom. -/
abbrev Delivered := RegisteredContainer × ContainerRequest

namespace SystemEnv

variable {ε : Type}

/-- The surroundings of the core, whose provider is the concierge. -/
def core (env : SystemEnv ε) : Env (GatewayWorld ε) where
  randomUUID g := ((env.randomUUID g.env).1, { g with env := (env.randomUUID g.env).2 })
  now g := ((env.now g.env).1, { g with env := (env.now g.env).2 })
  generate request g :=
    run (gatewayHandler env.toGatewayEnv)
      (ModelProvider.conciergeAsProvider ModelProvider.config request) g
  requestApproval request g :=
    let d := env.requestApproval request g.registry g.env
    (d.1, { env := d.2.2, registry := d.2.1 })

/-- The same surroundings, which keep the deliveries so far beside their own state. -/
def recorded (env : SystemEnv ε) : SystemEnv (ε × List Delivered) where
  randomUUID s := ((env.randomUUID s.1).1, (env.randomUUID s.1).2, s.2)
  log fields s := (env.log fields s.1, s.2)
  deliver container request registry s :=
    let d := env.deliver container request registry s.1
    (d.1, d.2.1, d.2.2, s.2 ++ [(container, request)])
  now s := ((env.now s.1).1, (env.now s.1).2, s.2)
  requestApproval request registry s :=
    let d := env.requestApproval request registry s.1
    (d.1, d.2.1, d.2.2, s.2)

end SystemEnv

namespace GatewayWorld

variable {ε : Type}

/-- The world with an empty list of deliveries to fill. -/
def recording (g : GatewayWorld ε) : GatewayWorld (ε × List Delivered) :=
  { env := (g.env, []), registry := g.registry }

/-- The world without the list of deliveries. -/
def forget (g : GatewayWorld (ε × List Delivered)) : GatewayWorld ε :=
  { env := g.env.1, registry := g.registry }

@[simp] theorem forget_recording (g : GatewayWorld ε) : g.recording.forget = g := rfl

end GatewayWorld

/-- The world with another state of its environment. -/
def World.mapEnv {α β : Type} (f : α → β) (w : World α) : World β where
  env := f w.env
  auditLogger := w.auditLogger
  memoryStore := w.memoryStore
  modelRouter := w.modelRouter

namespace SystemEnv

variable {ε : Type} (env : SystemEnv ε)

/-- Keeping the deliveries changes no answer of the gateway. -/
theorem gatewayHandler_forget (o : GatewayOp) (g : GatewayWorld (ε × List Delivered)) :
    gatewayHandler env.toGatewayEnv o g.forget =
      ((gatewayHandler env.recorded.toGatewayEnv o g).1,
        (gatewayHandler env.recorded.toGatewayEnv o g).2.forget) := by
  cases o <;> rfl

/-- Keeping the deliveries changes no answer of the system. -/
theorem sysHandler_forget (o : SysOp) (w : World (GatewayWorld (ε × List Delivered))) :
    sysHandler env.core o (w.mapEnv GatewayWorld.forget) =
      ((sysHandler env.recorded.core o w).1,
        (sysHandler env.recorded.core o w).2.mapEnv GatewayWorld.forget) := by
  cases o with
  | providerGenerate request =>
    have hrun := run_map _ GatewayWorld.forget (gatewayHandler_forget env)
      (ModelProvider.conciergeAsProvider ModelProvider.config request) w.env
    simp only [sysHandler, World.providerGenerate, core, World.mapEnv]
    rw [hrun]
  | _ => rfl

end SystemEnv

/-! ## What the provider delivers -/

namespace Concierge

/-- A request that is delivered is one of `P`. -/
def Sends (P : ContainerRequest → Prop) : GatewayOp → Prop
  | .deliver _ request => P request
  | _ => True

variable {P : ContainerRequest → Prop} {env : Envelope} {retries : Nat}

theorem attempts_sends (henv : P env.request) (container : RegisteredContainer) (left : Nat)
    (lastKind : Option String) :
    Meets (Sends P) (fun _ _ => True) (fun _ => True)
      (attempts retries env container left lastKind) := by
  induction left generalizing lastKind with
  | zero => trivial
  | succ left ih =>
    simp only [attempts, perform_bind, meets_call]
    refine ⟨henv, fun a _ => ?_⟩
    rcases a with t | r | f
    · exact ⟨trivial, fun _ _ => ih _⟩
    · exact ⟨trivial, fun _ _ => trivial⟩
    · by_cases hfatal : fatal f.kind = true
      · simp only [hfatal, if_true]
        exact ⟨trivial, fun _ _ => trivial⟩
      · by_cases hagain : (f.retryable && decide (retries - left < retries)) = true
        · simp only [hfatal, hagain, if_true]
          exact ⟨trivial, fun _ _ => ih _⟩
        · simp only [hfatal, hagain]
          exact ⟨trivial, fun _ _ => ⟨trivial, fun _ _ => trivial⟩⟩

theorem failover_sends (henv : P env.request) (plan : List RegisteredContainer)
    (lastKind : Option String) :
    Meets (Sends P) (fun _ _ => True) (fun _ => True) (failover retries env plan lastKind) := by
  induction plan generalizing lastKind with
  | nil => exact ⟨trivial, fun _ _ => trivial⟩
  | cons container rest ih =>
    refine (attempts_sends henv container retries lastKind).bind fun tried _ => ?_
    cases tried with
    | resolved r => trivial
    | thrown e => trivial
    | moveOn lastKind => exact ih lastKind

/-- A call delivers its own envelope only. -/
theorem generate_sends (config : Config) (request : CoreModelRequest)
    (henv : ∀ correlationId, P (envelope config request correlationId).request) :
    Meets (Sends P) (fun _ _ => True) (fun _ => True) (generate config request) := by
  simp only [generate, perform_bind, meets_call]
  refine ⟨trivial, fun correlationId _ => ⟨trivial, fun _ _ => ⟨trivial, fun serving _ => ?_⟩⟩⟩
  unfold deliverAlong
  by_cases hplan : (Router.tiered serving).length = 0
  · rw [if_pos hplan]
    exact ⟨trivial, fun _ _ => trivial⟩
  · rw [if_neg hplan]
    exact failover_sends (henv correlationId) _ none

end Concierge

/-- Every request that the adapter's concierge delivers is unmarked. -/
theorem ModelProvider.conciergeAsProvider_sends (config : Concierge.Config)
    (request : ModelRequest) :
    Meets (Concierge.Sends (·.highRisk = false)) (fun _ _ => True) (fun _ => True)
      (conciergeAsProvider config request) := by
  refine (Concierge.generate_sends config (coreModelRequest request) fun _ => rfl).bind
    fun answer _ => ?_
  cases answer <;> trivial

namespace Concierge

/-- Without a plan a call delivers nothing and throws; with one it delivers. -/
theorem Follows.delivers {retries : Nat} {plan : List RegisteredContainer} {ds : List Delivery}
    {e : Thrown} {out : Except Thrown CoreModelResponse} (h : Follows retries plan ds e out) :
    (plan = [] → ds = [] ∧ out = .error e) ∧ (plan ≠ [] → ds ≠ []) := by
  obtain ⟨blocks, hbs, hds, -, hall⟩ := h.blocks
  constructor
  · rintro rfl
    have hnil : ds = [] := by rw [hds]; rfl
    exact ⟨hnil, h.unsettled (by simp [hnil])⟩
  · intro hplan hnil
    have hlen := hall (by simp [hnil])
    obtain ⟨container, rest, rfl⟩ := List.exists_cons_of_ne_nil hplan
    cases blocks with
    | nil => simp at hlen
    | cons b blocks =>
      have hb := (hbs b List.mem_cons_self).ne_nil
      rw [hnil] at hds
      simp [hb] at hds

end Concierge

namespace SystemEnv

variable {ε : Type} (env : SystemEnv ε)

/-- What a run adds to the list of deliveries are the deliveries of its trace. -/
theorem delivered_trace {α : Type} (p : GatewayProg α) (g : GatewayWorld (ε × List Delivered)) :
    ∃ sent, (run (gatewayHandler env.recorded.toGatewayEnv) p g).2.env.2 = g.env.2 ++ sent ∧
      sent.map (·.1) = (Concierge.deliveries
        (trace (gatewayHandler env.recorded.toGatewayEnv) p g)).map (·.1) := by
  induction p generalizing g with
  | ret a => exact ⟨[], (List.append_nil _).symm, rfl⟩
  | call o k ih =>
    rw [run_call, trace_call]
    obtain ⟨sent, hsent, hmap⟩ := ih (gatewayHandler env.recorded.toGatewayEnv o g).1
      (gatewayHandler env.recorded.toGatewayEnv o g).2
    rw [hsent]
    cases o with
    | deliver c q =>
      refine ⟨(c, q) :: sent, ?_, ?_⟩
      · simp [gatewayHandler, recorded]
      · rw [Concierge.deliveries_deliver, List.map_cons, List.map_cons, hmap]
    | _ => exact ⟨sent, rfl, hmap⟩

/-- The adapter answers with what the concierge returned, and does nothing beside. -/
theorem run_conciergeAsProvider (config : Concierge.Config) (request : ModelRequest)
    (g : GatewayWorld ε) :
    let out := run (gatewayHandler env.toGatewayEnv)
      (Concierge.generate config (ModelProvider.coreModelRequest request)) g
    run (gatewayHandler env.toGatewayEnv) (ModelProvider.conciergeAsProvider config request) g =
      (out.1.map ModelProvider.modelResponse, out.2) := by
  intro out
  unfold ModelProvider.conciergeAsProvider
  rw [run_bind, show run (gatewayHandler env.toGatewayEnv) (Concierge.generate config
    (ModelProvider.coreModelRequest request)) g = out from rfl]
  obtain ⟨e | r, g'⟩ := out
  · rfl
  · rfl

/-- Without a healthy container for its class the provider rejects and delivers nothing; with
    one it delivers. -/
theorem provider_delivers (request : ModelRequest) (g : GatewayWorld (ε × List Delivered)) :
    let out := env.recorded.core.generate request g
    let plan := Router.plan g.registry request.modelClass
    (plan = [] → (∃ e, out.1 = .error e) ∧ out.2.env.2 = g.env.2) ∧
      (plan ≠ [] → out.2.env.2 ≠ []) := by
  intro out plan
  have hout : out = _ := env.recorded.run_conciergeAsProvider ModelProvider.config request g
  obtain ⟨hnone, hsome⟩ := (Concierge.generate_follows env.recorded.toGatewayEnv
    ModelProvider.config (ModelProvider.coreModelRequest request) (by decide) g).delivers
  obtain ⟨sent, hsent, hmap⟩ := env.delivered_trace (Concierge.generate ModelProvider.config
    (ModelProvider.coreModelRequest request)) g
  rw [hout]
  constructor
  · intro hplan
    obtain ⟨hds, herr⟩ := hnone hplan
    rw [hds] at hmap
    obtain rfl := List.map_eq_nil_iff.mp hmap
    refine ⟨⟨_, by rw [herr]; rfl⟩, ?_⟩
    rw [hsent, List.append_nil]
  · intro hplan hnil
    rw [hsent] at hnil
    rw [(List.append_eq_nil_iff.mp hnil).2, List.map_nil] at hmap
    exact hsome hplan (List.map_eq_nil_iff.mp hmap.symm)

end SystemEnv

end Harp
