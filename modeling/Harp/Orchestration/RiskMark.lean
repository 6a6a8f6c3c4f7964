import Harp.Gateway.ModelProvider
import Harp.Orchestration.SystemRuns

/-
  The high-risk mark of the requests that a whole call delivers, when the core's provider is
  the concierge (`src/modelProvider.ts`, `src/agents/BaseAgent.ts`,
  `src/gateway/concierge/Concierge.ts`).

  A call delivers through its provider only, and the provider's adapter leaves every request
  unmarked. So the mark is right in the calls that deliver nothing. Whether a call does is
  decided by its first agent: the budget refuses it, no container serves its class, or the
  first container of its plan gets the request.
-/

namespace Harp

open Prog

namespace HarpOrchestrator

section

variable {ε : Type} (env : SystemEnv ε) (budget : Nat)

/-- What a call delivers, in order. -/
def delivered (input : Input) (w : World (GatewayWorld ε)) : List Delivered :=
  (run (systemHandler env.recorded.core budget) (execute input)
    (w.mapEnv GatewayWorld.recording)).2.env.env.2

/-- Keeping the deliveries changes nothing of a call. -/
theorem run_delivered (input : Input) (w : World (GatewayWorld ε)) :
    let out := run (systemHandler env.recorded.core budget) (execute input)
      (w.mapEnv GatewayWorld.recording)
    run (systemHandler env.core budget) (execute input) w =
      (out.1, out.2.mapEnv GatewayWorld.forget) := by
  have hsys (o : OrchOp) (v : World (GatewayWorld (ε × List Delivered))) :
      systemHandler env.core budget o (v.mapEnv GatewayWorld.forget) =
        ((systemHandler env.recorded.core budget o v).1,
          (systemHandler env.recorded.core budget o v).2.mapEnv GatewayWorld.forget) := by
    cases o with
    | sys o => exact env.sysHandler_forget o v
    | agentExecute a input =>
      exact run_map _ (World.mapEnv GatewayWorld.forget) env.sysHandler_forget _ v
  exact run_map _ (World.mapEnv GatewayWorld.forget) hsys (execute input)
    (w.mapEnv GatewayWorld.recording)

/-! ## Every delivery is unmarked -/

section Keeps

variable {I : List Delivered → Prop}
  (hI : ∀ c q ds, q.highRisk = false → I ds → I (ds ++ [(c, q)]))
include hI

theorem provider_keeps (request : ModelRequest) {g : GatewayWorld (ε × List Delivered)}
    (hg : I g.env.2) : I (env.recorded.core.generate request g).2.env.2 := by
  have hop (o : GatewayOp) (g : GatewayWorld (ε × List Delivered))
      (ho : Concierge.Sends (·.highRisk = false) o) (hg : I g.env.2) :
      I (gatewayHandler env.recorded.toGatewayEnv o g).2.env.2 := by
    cases o with
    | deliver c q => exact hI c q _ ho hg
    | _ => exact hg
  exact (ModelProvider.conciergeAsProvider_sends ModelProvider.config request).keeps
    (I := fun g : GatewayWorld (ε × List Delivered) => I g.env.2) hop hg

theorem sysHandler_keeps (o : SysOp) (w : World (GatewayWorld (ε × List Delivered)))
    (hw : I w.env.env.2) : I (sysHandler env.recorded.core o w).2.env.env.2 := by
  cases o with
  | providerGenerate request => exact provider_keeps env hI request hw
  | _ => exact hw

/-- Whatever unmarked deliveries keep, every operation of a call keeps. -/
theorem systemHandler_keeps (o : OrchOp) (w : World (GatewayWorld (ε × List Delivered)))
    (hw : I w.env.env.2) : I (systemHandler env.recorded.core budget o w).2.env.env.2 := by
  cases o with
  | sys o => exact sysHandler_keeps env hI o w hw
  | agentExecute a input =>
    exact run_keeps (I := fun w : World (GatewayWorld (ε × List Delivered)) => I w.env.env.2)
      (sysHandler_keeps env hI) (HarpAgent.execute budget a input) hw

end Keeps

theorem delivered_unmarked (input : Input) (w : World (GatewayWorld ε)) :
    ∀ d ∈ delivered env budget input w, d.2.highRisk = false := by
  have hkeep : ∀ (c : RegisteredContainer) (q : ContainerRequest) (ds : List Delivered),
      q.highRisk = false → (∀ d ∈ ds, d.2.highRisk = false) →
        ∀ d ∈ ds ++ [(c, q)], d.2.highRisk = false := by
    intro c q ds hq hds d hd
    rcases List.mem_append.mp hd with hd | hd
    · exact hds d hd
    · obtain rfl := List.mem_singleton.mp hd
      exact hq
  exact run_keeps
    (I := fun w : World (GatewayWorld (ε × List Delivered)) =>
      ∀ d ∈ w.env.env.2, d.2.highRisk = false)
    (systemHandler_keeps env budget hkeep) (execute input)
    (by simp [World.mapEnv, GatewayWorld.recording])

/-! ## The first agent -/

/-- Once something was delivered, it stays delivered. -/
theorem append_ne_nil (c : RegisteredContainer) (q : ContainerRequest) (ds : List Delivered)
    (_ : q.highRisk = false) (_ : ds ≠ []) : ds ++ [(c, q)] ≠ [] := by simp

section Agent

variable {a : AgentId} {input : AgentExecuteInput}
  {w : World (GatewayWorld (ε × List Delivered))}

/-- An agent without tokens, or without a container for its class, throws and nothing is
    delivered. -/
theorem agent_unreached
    (h : budget ≤ w.modelRouter.usage input.workflowId ∨
      Router.plan w.env.registry (HarpAgent.modelClassFor a input.context) = []) :
    ∃ e w', coreFour env.recorded.core budget a input w = (.error e, w') ∧
      w'.env.env.2 = w.env.env.2 := by
  unfold coreFour HarpAgent.execute
  simp only [perform_bind, run_call, sysHandler_auditWrite, run_bind, ModelRouter.run_generate]
  rw [show ModelRouter.keyOf (HarpAgent.modelRequest a input).workflowId = input.workflowId
    from rfl]
  by_cases hb : (w.auditWrite env.recorded.core
      (HarpAgent.startedEntry a input)).2.modelRouter.usage input.workflowId ≥ budget
  · rw [if_pos hb]
    exact ⟨_, _, rfl, rfl⟩
  · rw [if_neg hb]
    have hplan := h.resolve_left hb
    obtain ⟨⟨e, he⟩, hds⟩ := (env.provider_delivers (HarpAgent.modelRequest a input)
      (w.auditWrite env.recorded.core (HarpAgent.startedEntry a input)).2.env).1 hplan
    unfold World.providerGenerate
    rw [he]
    exact ⟨e, _, rfl, hds⟩

/-- An agent with tokens and a container for its class delivers. -/
theorem agent_reached (hb : w.modelRouter.usage input.workflowId < budget)
    (hplan : Router.plan w.env.registry (HarpAgent.modelClassFor a input.context) ≠ []) :
    (coreFour env.recorded.core budget a input w).2.env.env.2 ≠ [] := by
  unfold coreFour HarpAgent.execute
  simp only [perform_bind, run_call, sysHandler_auditWrite, run_bind]
  apply run_keeps (I := fun w : World (GatewayWorld (ε × List Delivered)) => w.env.env.2 ≠ [])
    (sysHandler_keeps env append_ne_nil)
  rw [ModelRouter.run_generate]
  have hlt : ¬ (w.auditWrite env.recorded.core
      (HarpAgent.startedEntry a input)).2.modelRouter.usage input.workflowId ≥ budget :=
    Nat.not_le.mpr hb
  have hds := (env.provider_delivers (HarpAgent.modelRequest a input)
    (w.auditWrite env.recorded.core (HarpAgent.startedEntry a input)).2.env).2 hplan
  simp only [show ModelRouter.keyOf (HarpAgent.modelRequest a input).workflowId = input.workflowId
    from rfl, if_neg hlt, World.providerGenerate]
  generalize env.recorded.core.generate (HarpAgent.modelRequest a input) _ = out at hds ⊢
  obtain ⟨e | response, g⟩ := out
  · exact hds
  · exact hds

end Agent

/-! ## The whole call -/

/-- The first agent of a call finds tokens left, and a healthy container for the class that it
    asks for when the risk is high. -/
def Reaches (input : Input) (workflowId : String) (w : World (GatewayWorld ε)) : Prop :=
  ∃ a rest, (strategyFor input).selectSequence input.task = a :: rest ∧
    w.modelRouter.usage workflowId < budget ∧
    ∃ c ∈ w.env.registry.containers, c.healthy = true ∧
      (agentConfigs a).highRiskModel ∈ c.descriptor.servesClasses

theorem plan_ne_nil_iff {registry : ContainerRegistry} {modelClass : WireModelClass} :
    Router.plan registry modelClass ≠ [] ↔
      ∃ c ∈ registry.containers, c.healthy = true ∧ modelClass ∈ c.descriptor.servesClasses := by
  have hmem := (Router.plan_isPlan registry modelClass).mem
  constructor
  · intro h
    obtain ⟨c, hc⟩ := List.exists_mem_of_ne_nil _ h
    exact ⟨c, (hmem c).mp hc⟩
  · rintro ⟨c, hc⟩
    exact List.ne_nil_of_mem ((hmem c).mpr hc)

theorem modelClassFor_highRisk {input : AgentExecuteInput}
    (h : HarpAgent.highRisk input.context.task = true) (a : AgentId) :
    HarpAgent.modelClassFor a input.context = (agentConfigs a).highRiskModel := by
  unfold HarpAgent.modelClassFor
  rw [if_pos h]

/-- What follows the loop delivers nothing. -/
theorem conclude_delivers_nothing (call : Call) (ended : LoopEnd × Locals)
    (w : World (GatewayWorld (ε × List Delivered))) :
    (run (systemHandler env.recorded.core budget) (conclude call ended) w).2.env.env.2 =
      w.env.env.2 := by
  obtain ⟨e, l⟩ := ended
  cases e with
  | blocked => rfl
  | finished => rfl
  | thrown err =>
    cases hr : err.reason with
    | error t => rw [run_conclude_unreadable _ _ _ hr]
    | ok reason =>
      rw [run_conclude_readable _ _ _ hr]
      rfl

/-- A loop whose first agent throws without a delivery delivers nothing. -/
theorem LoopRun.unreached {call : Call} {seq : List AgentId} {l l' : Locals}
    {w w' : World (GatewayWorld (ε × List Delivered))} {st : List Step} {e : LoopEnd}
    (h : LoopRun env.recorded.core (coreFour env.recorded.core budget) call seq l w st e l' w')
    (hfirst : ∀ a rest, seq = a :: rest → ∃ e w₁, coreFour env.recorded.core budget a
      (agentInput env.recorded.core call a l w) (w.now env.recorded.core).2 = (.error e, w₁) ∧
        w₁.env.env.2 = w.env.env.2) :
    w'.env.env.2 = w.env.env.2 := by
  have hturn {a : AgentId} {rest : List AgentId} {te : TurnEnd} {l' : Locals}
      {w' : World (GatewayWorld (ε × List Delivered))} {st : List Step} (hseq : seq = a :: rest)
      (ht : Turn env.recorded.core (coreFour env.recorded.core budget) call a l w st te l' w') :
      (∃ e, te = .leave e) ∧ w'.env.env.2 = w.env.env.2 := by
    obtain ⟨e, w₁, herr, hds⟩ := hfirst a rest hseq
    cases ht with
    | threw h =>
      obtain ⟨-, rfl⟩ := Prod.mk.inj (herr.symm.trans h)
      exact ⟨⟨_, rfl⟩, hds⟩
    | returned _ h => cases (Prod.mk.inj (herr.symm.trans h)).1
    | gateThrew _ h => cases (Prod.mk.inj (herr.symm.trans h)).1
    | passed _ h => cases (Prod.mk.inj (herr.symm.trans h)).1
    | denied _ h => cases (Prod.mk.inj (herr.symm.trans h)).1
  cases h with
  | done => rfl
  | leave ht => exact (hturn rfl ht).2
  | next ht =>
    obtain ⟨e, he⟩ := (hturn rfl ht).1
    cases he

/-- A loop whose first agent delivers has delivered in the end. -/
theorem agentLoop_reached {call : Call} {a : AgentId} (rest : List AgentId) {l : Locals}
    {w : World (GatewayWorld (ε × List Delivered))}
    (hfirst : (coreFour env.recorded.core budget a (agentInput env.recorded.core call a l w)
      (w.now env.recorded.core).2).2.env.env.2 ≠ []) :
    (run (systemHandler env.recorded.core budget) (agentLoop call (a :: rest) l) w).2.env.env.2
      ≠ [] := by
  have hkeeps := systemHandler_keeps env budget append_ne_nil
  unfold agentLoop
  rw [run_bind]
  apply run_keeps (I := fun w : World (GatewayWorld (ε × List Delivered)) => w.env.env.2 ≠ [])
    hkeeps
  unfold turn
  simp only [perform_bind, run_call]
  apply run_keeps (I := fun w : World (GatewayWorld (ε × List Delivered)) => w.env.env.2 ≠ [])
    hkeeps
  exact hfirst

/-- A call on a risky task delivers something exactly when its first agent does. -/
theorem delivered_ne_nil_iff (input : Input) (w : World (GatewayWorld ε))
    (hrisk : HarpAgent.highRisk input.task = true) :
    delivered env budget input w ≠ [] ↔
      Reaches budget input ((w.now env.core).2.randomUUID env.core).1 w := by
  let recorded := env.recorded.core
  let started := ((w.mapEnv GatewayWorld.recording).now recorded)
  let drawn := started.2.randomUUID recorded
  let call := callOf input drawn.1 started.1
  let looping := startedWorld recorded input call drawn.2
  have hclass (a : AgentId) (l : Locals) :
      HarpAgent.modelClassFor a (agentInput recorded call a l looping).context =
        (agentConfigs a).highRiskModel := by
    apply modelClassFor_highRisk
    rw [(agentInput_fits recorded call a l looping).task]
    exact hrisk
  constructor
  · intro hds
    by_contra hno
    apply hds
    obtain ⟨e, l, w', hl, hrun⟩ := executeAs_runs recorded (coreFour recorded budget) input drawn.1
      started.1 drawn.2
    have hlist : w'.env.env.2 = looping.env.env.2 := by
      apply LoopRun.unreached env budget hl
      intro a rest hseq
      apply agent_unreached env budget
      rw [hclass]
      by_contra hreach
      obtain ⟨hb, hplan⟩ := not_or.mp hreach
      exact hno ⟨a, rest, hseq, Nat.not_le.mp hb, plan_ne_nil_iff.mp hplan⟩
    have hexec : run (systemHandler recorded budget) (execute input)
        (w.mapEnv GatewayWorld.recording) =
          run (systemHandler recorded budget) (conclude call (e, l)) w' := hrun
    unfold delivered
    rw [hexec, conclude_delivers_nothing, hlist]
    rfl
  · rintro ⟨a, rest, hseq, hb, hc⟩
    have hplan := plan_ne_nil_iff.mpr hc
    rw [← hclass a .empty] at hplan
    have hfirst : (coreFour recorded budget a (agentInput recorded call a .empty looping)
        (looping.now recorded).2).2.env.env.2 ≠ [] := agent_reached env budget hb hplan
    have hloop := agentLoop_reached env budget rest hfirst
    have hexec : run (systemHandler recorded budget) (execute input)
        (w.mapEnv GatewayWorld.recording) =
          run (systemHandler recorded budget) (agentLoop call (a :: rest) .empty >>= conclude call)
            looping := by
      rw [← hseq]
      rfl
    unfold delivered
    rw [hexec, run_bind, conclude_delivers_nothing]
    exact hloop

/-- Every request that a call on a risky task delivers carries the high-risk mark, exactly when
    the call's first agent finds no tokens or no container, so that nothing is delivered. -/
theorem delivered_marked_iff (input : Input) (w : World (GatewayWorld ε))
    (hrisk : input.task.riskLevel = .high ∨ input.task.riskLevel = .critical) :
    (∀ d ∈ delivered env budget input w, d.2.highRisk = true) ↔
      ¬ Reaches budget input ((w.now env.core).2.randomUUID env.core).1 w := by
  have hhigh : HarpAgent.highRisk input.task = true := by
    unfold HarpAgent.highRisk
    rcases hrisk with h | h <;> simp [h]
  rw [← delivered_ne_nil_iff env budget input w hhigh]
  constructor
  · intro hmarked hne
    obtain ⟨d, hd⟩ := List.exists_mem_of_ne_nil _ hne
    have hunmarked := delivered_unmarked env budget input w d hd
    rw [hmarked d hd] at hunmarked
    cases hunmarked
  · intro hnil d hd
    exact absurd (List.ne_nil_of_mem hd) hnil

end

/-! ## A critical task -/

/-- A task of critical risk. -/
def criticalTask : AgentTask := { irreversibleTask with riskLevel := .critical }

/-- A container for the classes that the escalation of a risky task asks for. -/
def stubPrimary : ModelProvider.ContainerEnvEntry where
  id := "stub-primary"
  baseUrl := "https://harp-container-primary:8443"
  tier := .primary
  classes := [.frontierReasoning, .securitySpecialist]
  providerFamily := "stub"

/-- Surroundings with constant answers: a container says `text`, the approver approves. -/
def stubEnv (text : String) : SystemEnv Unit where
  randomUUID _ := ("3f2c", ())
  log _ _ := ()
  deliver _ request registry _ := (.ok (.success {
    protocolVersion := request.protocolVersion
    correlationId := request.correlationId
    text := text
    modelUsed := "stub"
    modelClass := request.modelClass
    inputTokens := 1
    outputTokens := 1
    estimatedCostUsd := 0
    latencyMs := 0 }), registry, ())
  now _ := ("2026-01-01T00:00:00.000Z", ())
  requestApproval _ registry _ := (.ok {
    required := true
    approved := true
    reason := "constant"
    approverId := none
    timestamp := "2026-01-01T00:00:00.000Z" }, registry, ())

/-- The registry of a system with that one container. -/
def stubRegistry : ContainerRegistry where
  containers := [ModelProvider.registered stubPrimary]
  nodup := List.nodup_singleton _

theorem delivered_marked_iff_critical :
    (∀ d ∈ delivered (stubEnv "{}") 200000 (bareInput criticalTask none)
      (World.create ⟨(), stubRegistry⟩), d.2.highRisk = true) ↔
    ¬ Reaches 200000 (bareInput criticalTask none) "3f2c" (World.create ⟨(), stubRegistry⟩) :=
  delivered_marked_iff (stubEnv "{}") 200000 (bareInput criticalTask none)
    (World.create ⟨(), stubRegistry⟩) (.inr rfl)

/-- In the system that `buildModelProvider` sets up with that container, a critical task is
    delivered without the mark. -/
theorem critical_unmarked :
    ModelProvider.registryOf [stubPrimary] = .ok stubRegistry ∧
      ¬ ∀ d ∈ delivered (stubEnv "{}") 200000 (bareInput criticalTask none)
        (World.create ⟨(), stubRegistry⟩), d.2.highRisk = true := by
  refine ⟨rfl, ?_⟩
  intro hmarked
  have hesc : strategyFor (bareInput criticalTask none) = escalationStrategy :=
    StrategySelector.select_forced (by decide)
  have hreach : Reaches 200000 (bareInput criticalTask none) "3f2c"
      (World.create (GatewayWorld.mk () stubRegistry)) := by
    refine ⟨.pharaoh, [.anubisSentinel, .pharaoh], by rw [hesc]; rfl, by decide, ?_⟩
    exact ⟨_, List.mem_cons_self, rfl, List.mem_cons_self⟩
  have hne := (delivered_ne_nil_iff (stubEnv "{}") 200000 (bareInput criticalTask none)
    (World.create ⟨(), stubRegistry⟩) rfl).mpr hreach
  obtain ⟨d, hd⟩ := List.exists_mem_of_ne_nil _ hne
  have hunmarked := delivered_unmarked (stubEnv "{}") 200000 (bareInput criticalTask none)
    (World.create ⟨(), stubRegistry⟩) d hd
  rw [hmarked d hd] at hunmarked
  cases hunmarked

end HarpOrchestrator

end Harp
