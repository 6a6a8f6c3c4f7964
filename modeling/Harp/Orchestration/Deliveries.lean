import Harp.Gateway.ConcurrentCalls
import Harp.Gateway.RedactionSafety
import Harp.Gateway.Startup
import Harp.Lib.Cost
import Harp.Orchestration.Deployment

/-
  What the workflows of a process hand to the transport (`src/modelProvider.ts`,
  `src/gateway/concierge/Concierge.ts`).

  A call asks its provider through its agents only, and the concierge delivers nothing but the
  redaction of what it is asked. This is said of the program of a call, operation by operation, so
  it holds whatever the operations are answered and however the calls interleave.
-/

namespace Harp

open Prog Redactor Pattern HarpOrchestrator

/-! ## Redacted prompts -/

/-- The rules whose matches never survive. -/
def alwaysMasked : List RuleKind := [.ip, .email, .ssn, .creditCard, .phone]

/-- No such rule matches in the text. -/
def Masked (text : String) : Prop :=
  ∀ k ∈ alwaysMasked, ¬ k.rule.pattern.Occurs text.toList

theorem not_exposed {k : RuleKind} (h : k ∈ alwaysMasked) : Exposed k = fun _ _ => False := by
  simp only [alwaysMasked, List.mem_cons, List.not_mem_nil, or_false] at h
  rcases h with rfl | rfl | rfl | rfl | rfl <;> rfl

theorem masked_redact (text : String) : Masked (DefaultRedactor.redact [] text).text := by
  intro k hk hocc
  rw [text_redact] at hocc
  have honly := spans_only text k
  rw [not_exposed hk] at honly
  exact only_false_iff.mp honly ((occurs_render k.passesOver (spans text)).mp hocc)

/-! ## What a call asks -/

/-- The input is the scoped context of the call's own task, for some artifacts and time. -/
def Scoped (task : AgentTask) (projectContext : ProjectContext) (a : AgentId)
    (input : AgentExecuteInput) : Prop :=
  ∃ artifacts snapshotAt,
    input.context = ContextManager.createScopedContext a task projectContext artifacts snapshotAt

/-- The provider is asked only what an agent asks on such an input. -/
def AsksScoped (task : AgentTask) (projectContext : ProjectContext) : SysOp → Prop
  | .providerGenerate q =>
    ∃ a input, Scoped task projectContext a input ∧ q = HarpAgent.modelRequest a input
  | _ => True

/-- Agents are run on such inputs only. -/
def RunsScoped (task : AgentTask) (projectContext : ProjectContext) : OrchOp → Prop
  | .sys o => AsksScoped task projectContext o
  | .agentExecute a input => Scoped task projectContext a input

/-- What an agent asks, as it crosses the wire. -/
structure SentFor (task : AgentTask) (projectContext : ProjectContext)
    (request : ContainerRequest) : Prop where
  asked : ∃ a input correlationId, Scoped task projectContext a input ∧
    request = (Concierge.envelope ModelProvider.config
      (ModelProvider.coreModelRequest (HarpAgent.modelRequest a input)) correlationId).request
  systemPrompt : Masked request.systemPrompt
  userPrompt : Masked request.userPrompt

/-- The transport is handed such requests only. -/
def HandsOver (task : AgentTask) (projectContext : ProjectContext) : ProcessOp → Prop
  | .gateway (.deliver _ request) => SentFor task projectContext request
  | _ => True

section Orchestrator

/-- A program of the orchestrator that does so. -/
abbrev KeepsScope (call : Call) {α : Type} (p : OrchProg α) : Prop :=
  Meets (RunsScoped call.task call.projectContext) (fun _ _ => True) (fun _ => True) p

variable (call : Call) (l : Locals)

theorem result_scoped (status : WorkflowStatus) (approvalRequired : Bool)
    (recommendation : String) (failure : Option WorkflowFailure) :
    KeepsScope call (result call status l approvalRequired recommendation failure) :=
  ⟨trivial, fun _ _ => trivial⟩

theorem appendAll_scoped (artifacts : List Artifact) : KeepsScope call (appendAll artifacts) := by
  induction artifacts with
  | nil => trivial
  | cons a as ih => exact ⟨trivial, fun _ _ => ih⟩

theorem enforceApproval_scoped (r : AgentResult) : KeepsScope call (enforceApproval call l r) := by
  unfold enforceApproval
  rw [evaluate_approvalRequest, perform_bind]
  refine ⟨trivial, fun answer _ => ?_⟩
  cases answer with
  | error t => trivial
  | ok d =>
    cases hd : d.passes with
    | true =>
      simp only [hd, if_true]
      exact ⟨trivial, fun _ _ => trivial⟩
    | false =>
      simp only [hd]
      have hblock : KeepsScope call (blockForApproval call l d) :=
        ⟨trivial, fun _ _ => ⟨trivial, fun _ _ => ⟨trivial, fun _ _ => ⟨trivial, fun _ _ =>
          (result_scoped call _ _ _ _ _).bind fun _ _ => trivial⟩⟩⟩⟩
      exact hblock.bind fun _ _ => trivial

theorem turn_scoped (a : AgentId) : KeepsScope call (turn call a l) := by
  unfold turn
  rw [perform_bind]
  refine ⟨trivial, fun snapshotAt _ => ?_⟩
  dsimp only
  rw [perform_bind]
  refine ⟨⟨l.artifacts, snapshotAt, rfl⟩, fun answer _ => ?_⟩
  cases answer with
  | error t => trivial
  | ok r =>
    refine (appendAll_scoped call r.artifacts).bind fun _ _ => ?_
    by_cases ha : a = .ra
    · rw [if_pos ha]
      refine (enforceApproval_scoped call _ r).bind fun ended _ => ?_
      obtain ⟨t | blocked, l'⟩ := ended
      · trivial
      · cases blocked <;> trivial
    · rw [if_neg ha]
      trivial

theorem agentLoop_scoped (seq : List AgentId) : KeepsScope call (agentLoop call seq l) := by
  induction seq generalizing l with
  | nil => trivial
  | cons a rest ih =>
    refine (turn_scoped call l a).bind fun ended _ => ?_
    obtain ⟨te, l'⟩ := ended
    cases te with
    | leave e => trivial
    | next => exact ih l'

theorem conclude_scoped (ended : LoopEnd × Locals) : KeepsScope call (conclude call ended) :=
  conclude_meets call trivial (fun _ => trivial) (fun _ _ => trivial) ended

end Orchestrator

theorem executeAs_scoped (input : Input) (workflowId startedAt : String) :
    Meets (RunsScoped input.task input.projectContext) (fun _ _ => True) (fun _ => True)
      (executeAs input workflowId startedAt) :=
  ⟨trivial, fun _ _ => (agentLoop_scoped (callOf input workflowId startedAt) _ _).bind
    fun ended _ => conclude_scoped (callOf input workflowId startedAt) ended⟩

/-! ## Down to the transport -/

section Process

variable {task : AgentTask} {projectContext : ProjectContext}

theorem execute_asks (budget : ℕ) {a : AgentId} {input : AgentExecuteInput}
    (h : Scoped task projectContext a input) :
    Meets (AsksScoped task projectContext) (fun _ _ => True) (fun _ => True)
      (HarpAgent.execute budget a input) := by
  have hmake (title content : String) (modelClass : ModelClass) :
      Meets (AsksScoped task projectContext) (fun _ _ => True) (fun _ => True)
        (HarpAgent.makeArtifact a title content input.context input.workflowId modelClass) :=
    ⟨trivial, fun _ _ => ⟨trivial, fun _ _ => trivial⟩⟩
  have hresult (text : String) : Meets (AsksScoped task projectContext) (fun _ _ => True)
      (fun _ => True) (HarpAgent.resultFor a input text) := by
    unfold HarpAgent.resultFor
    cases HarpAgent.parseModelOutput text with
    | none => exact (hmake _ _ _).bind fun _ _ => trivial
    | some output => cases a <;> exact (hmake _ _ _).bind fun _ _ => trivial
  unfold HarpAgent.execute ModelRouter.generate ModelRouter.generateChecked
  simp only [perform_bind, call_bind, meets_call]
  refine ⟨trivial, fun _ _ => ⟨trivial, fun used _ => ?_⟩⟩
  by_cases hb : used ≥ budget
  · rw [if_pos hb]
    trivial
  · rw [if_neg hb]
    refine ⟨⟨a, input, h, rfl⟩, fun answer _ => ?_⟩
    cases answer with
    | error t => trivial
    | ok response =>
      refine ⟨trivial, fun _ _ => ?_⟩
      exact (hresult response.text).bind fun _ _ => ⟨trivial, fun _ _ => trivial⟩

theorem lower_handsOver {o : SysOp} (h : AsksScoped task projectContext o) :
    Meets (HandsOver task projectContext) (fun _ _ => True) (fun _ => True)
      (ProcessOp.lower o) := by
  cases o with
  | providerGenerate q =>
    obtain ⟨a, input, hscoped, rfl⟩ := h
    have hsends := Concierge.generate_sends (P := SentFor task projectContext) ModelProvider.config
      (ModelProvider.coreModelRequest (HarpAgent.modelRequest a input)) fun correlationId =>
        ⟨⟨a, input, correlationId, hscoped, rfl⟩, masked_redact _, masked_redact _⟩
    have hcall : Meets (Concierge.Sends (SentFor task projectContext)) (fun _ _ => True)
        (fun _ => True) (ModelProvider.conciergeAsProvider ModelProvider.config
          (HarpAgent.modelRequest a input)) :=
      hsends.bind fun answer _ => by cases answer <;> trivial
    refine hcall.interp fun o ho => ?_
    cases o with
    | deliver container request => exact ⟨ho, fun _ _ => trivial⟩
    | _ => exact ⟨trivial, fun _ _ => trivial⟩
  | _ => exact ⟨trivial, fun _ _ => trivial⟩

/-- A call hands over the redaction of what its own agents ask, and nothing else. -/
theorem process_handsOver (budget : ℕ) (input : Input) (workflowId startedAt : String) :
    Meets (HandsOver input.task input.projectContext) (fun _ _ => True) (fun _ => True)
      (process budget input workflowId startedAt) := by
  have hsystem : Meets (AsksScoped input.task input.projectContext) (fun _ _ => True)
      (fun _ => True) (system budget input workflowId startedAt) := by
    refine (executeAs_scoped input workflowId startedAt).interp fun o ho => ?_
    cases o with
    | sys o => exact ⟨ho, fun _ _ => trivial⟩
    | agentExecute a agentInput => exact execute_asks budget ho
  exact hsystem.interp fun o ho => lower_handsOver ho

end Process

/-- The request that an operation hands to the transport. -/
def handedOver : ((o : ProcessOp) × o.Res) → Option ContainerRequest
  | ⟨.gateway (.deliver _ request), _⟩ => some request
  | _ => none

/-- Whatever the surroundings answer, and however any number of workflows interleave: each hands to
    the transport the redaction of what its own agents ask about its own task, and nothing that it
    hands over holds an address, a number or an e-mail that the default rules mask. -/
theorem deliveries_masked {ι σ δ : Type} [DecidableEq ι]
    (h : δ → Handler ProcessOp ProcessOp.Res σ) (budget : ℕ) (inputs : ι → Input)
    (ids startedAt : ι → String) (s : σ) (schedule : List (ι × δ)) (i : ι) :
    ∀ request ∈ (Pool.own i (Pool.trace h schedule
        (deployed budget inputs ids startedAt s))).filterMap handedOver,
      SentFor (inputs i).task (inputs i).projectContext request := by
  intro request hrequest
  obtain ⟨⟨o, r⟩, hx, heq⟩ := List.mem_filterMap.mp hrequest
  have ho := (Pool.path h i schedule (deployed budget inputs ids startedAt s)).meets
    (process_handsOver budget (inputs i) (ids i) (startedAt i)) (fun _ _ => trivial) _ hx
  cases o with
  | core o => cases heq
  | gateway o =>
    cases o with
    | deliver container request' =>
      obtain rfl := Option.some.inj heq
      exact ho
    | _ => cases heq

/-- The first agent of each of the two workflows asks through the gateway. -/
theorem deliveries_masked_two :
    let input := bareInput irreversibleTask (some escalationStrategy)
    let schedule := (List.replicate 8 [(true, ()), (false, ())]).flatten
    ∃ request ∈ (Pool.own true (Pool.trace
        (fun _ => processHandler (conciergeMode Network.stubbed fixedSurroundings.now)) schedule
        (deployed 1 (fun _ => input) (fun i => cond i "wf-a" "wf-b") (fun _ => "")
          (World.create ⟨(), Concierge.twoContainers⟩)))).filterMap handedOver,
      SentFor irreversibleTask input.projectContext request := by
  intro input schedule
  have hsome : 0 < (List.filterMap handedOver (Pool.own true (Pool.trace
      (fun _ => processHandler (conciergeMode Network.stubbed fixedSurroundings.now)) schedule
      (deployed 1 (fun _ => input) (fun i => cond i "wf-a" "wf-b") (fun _ => "")
        (World.create ⟨(), Concierge.twoContainers⟩))))).length := by decide
  exact ⟨_, List.getElem_mem hsome, deliveries_masked
    (fun _ : Unit => processHandler (conciergeMode Network.stubbed fixedSurroundings.now)) 1
    (fun _ => input) (fun i => cond i "wf-a" "wf-b") (fun _ => "")
    (World.create ⟨(), Concierge.twoContainers⟩) schedule true _ (List.getElem_mem hsome)⟩

/-! ## To whom -/

/-- A container of the configuration that serves the class. -/
def Serves (known : List (ContainerDescriptor × String)) (modelClass : WireModelClass)
    (c : RegisteredContainer) : Prop :=
  (c.descriptor, c.baseUrl) ∈ known ∧ modelClass ∈ c.descriptor.servesClasses

namespace Concierge

variable {known : List (ContainerDescriptor × String)}

/-- Deliveries go to such containers. -/
def GoesTo (known : List (ContainerDescriptor × String)) : GatewayOp → Prop
  | .deliver container request => Serves known request.modelClass container
  | _ => True

/-- The registry names such containers. -/
def Names (known : List (ContainerDescriptor × String)) : (o : GatewayOp) → o.Res → Prop
  | .serving modelClass, serving => ∀ c ∈ serving, Serves known modelClass c
  | _, _ => True

/-- A program of the gateway that delivers to such containers only. -/
abbrev KeepsTo (known : List (ContainerDescriptor × String)) {α : Type}
    (p : GatewayProg α) : Prop :=
  Meets (GoesTo known) (Names known) (fun _ => True) p

theorem generate_keepsTo (config : Config) (request : CoreModelRequest) :
    KeepsTo known (generate config request) := by
  refine ⟨trivial, fun correlationId _ => ⟨trivial, fun _ _ => ⟨trivial, fun serving h => ?_⟩⟩⟩
  have hplan : Meets (Delivering fun c request => Serves known request.modelClass c)
      (fun _ _ => True) (fun _ => True)
      (deliverAlong config request correlationId (Router.tiered serving)) :=
    deliverAlong_delivering fun c hc => h c ((Router.mem_tiered serving c).mp hc)
  have hgoes (o : GatewayOp)
      (ho : Delivering (fun c request => Serves known request.modelClass c) o) :
      GoesTo known o := by
    cases o with
    | deliver container request => exact ho
    | _ => trivial
  exact (hplan.weaken hgoes).assuming fun _ _ _ => trivial

end Concierge

section Configured

variable {known : List (ContainerDescriptor × String)}

/-- The same of the process. -/
def ProcessGoesTo (known : List (ContainerDescriptor × String)) : ProcessOp → Prop
  | .core _ => True
  | .gateway o => Concierge.GoesTo known o

def ProcessNames (known : List (ContainerDescriptor × String)) : (o : ProcessOp) → o.Res → Prop
  | .core _, _ => True
  | .gateway o, r => Concierge.Names known o r

theorem process_keepsTo (budget : ℕ) (input : Input) (workflowId startedAt : String) :
    Meets (ProcessGoesTo known) (ProcessNames known) (fun _ => True)
      (process budget input workflowId startedAt) := by
  have hsystem : Meets (fun _ => True) (fun _ _ => True) (fun _ => True)
      (system budget input workflowId startedAt) := by
    generalize system budget input workflowId startedAt = p
    induction p with
    | ret a => trivial
    | call o k ih => exact ⟨trivial, fun r _ => ih r⟩
  refine Meets.interp (fun o _ => ?_) hsystem
  cases o with
  | providerGenerate request =>
    have hcall : Concierge.KeepsTo known
        (ModelProvider.conciergeAsProvider ModelProvider.config request) :=
      (Concierge.generate_keepsTo _ _).bind fun answer _ => by cases answer <;> trivial
    exact hcall.interp fun o ho => ⟨ho, fun _ h => h⟩
  | _ => exact ⟨trivial, fun _ _ => trivial⟩

theorem processHandler_names {ε : Type} {env : SystemEnv ε} (o : ProcessOp)
    (w : World (GatewayWorld ε)) (hw : w.env.registry.configured = known) :
    ProcessNames known o (processHandler env o w).1 := by
  cases o with
  | core o => trivial
  | gateway o =>
    cases o with
    | serving modelClass =>
      intro c hc
      obtain ⟨hmem, hserves⟩ := List.mem_filter.mp hc
      rw [Bool.and_eq_true] at hserves
      refine ⟨?_, List.contains_iff_mem.mp hserves.2⟩
      rw [← hw]
      exact List.mem_map.mpr ⟨c, hmem, rfl⟩
    | _ => trivial

end Configured

/-- A delivery: the container and the request. -/
def delivery : ((o : ProcessOp) × o.Res) → Option Delivered
  | ⟨.gateway (.deliver container request), _⟩ => some (container, request)
  | _ => none

/-- From the entries of `HARP_CONTAINERS` on: however the workflows interleave and whatever is
    answered, a delivery goes to the address of an entry that lists the class asked for. -/
theorem deliveries_configured {ι δ ε : Type} [DecidableEq ι]
    {cs : List ModelProvider.ContainerEnvEntry} {registry : ContainerRegistry}
    (hregistry : ModelProvider.registryOf cs = .ok registry) (env : δ → SystemEnv ε)
    (henv : ∀ d, (env d).OnlyMarks) (budget : ℕ) (inputs : ι → Input) (ids startedAt : ι → String)
    (e : ε) (schedule : List (ι × δ)) (i : ι) :
    ∀ d ∈ (Pool.own i (Pool.trace (fun d => processHandler (env d)) schedule
        (deployed budget inputs ids startedAt
          (World.create (GatewayWorld.mk e registry))))).filterMap delivery,
      ∃ c ∈ cs, d.1.descriptor = (ModelProvider.registered c).descriptor ∧
        d.1.baseUrl = c.baseUrl ∧ d.2.modelClass ∈ c.classes := by
  intro d hd
  obtain ⟨⟨o, r⟩, hx, heq⟩ := List.mem_filterMap.mp hd
  have hnames := Pool.answers_under (p := deployed budget inputs ids startedAt
      (World.create (GatewayWorld.mk e registry))) (fun d => processHandler (env d))
    (fun d => processHandler_configured (henv d)) (fun _ => processHandler_names) rfl schedule
  have ho := (Pool.path _ i schedule _).meets
    (process_keepsTo budget (inputs i) (ids i) (startedAt i))
    (fun x hx => hnames _ (Pool.mem_of_own hx)) _ hx
  cases o with
  | core o => cases heq
  | gateway o =>
    cases o with
    | deliver container request =>
      obtain rfl := Option.some.inj heq
      obtain ⟨hknown, hclass⟩ := ho
      have hconfigured : registry.configured = cs.map fun c =>
          ((ModelProvider.registered c).descriptor, c.baseUrl) := by
        unfold ContainerRegistry.configured
        rw [(ModelProvider.registryOf_ok cs registry).mp hregistry, List.map_map]
        rfl
      change (container.descriptor, container.baseUrl) ∈ registry.configured at hknown
      rw [hconfigured] at hknown
      obtain ⟨c, hc, hsame⟩ := List.mem_map.mp hknown
      obtain ⟨hdescriptor, hbaseUrl⟩ := Prod.mk.inj hsame
      refine ⟨c, hc, hdescriptor.symm, hbaseUrl.symm, ?_⟩
      rw [← hdescriptor] at hclass
      exact hclass
    | _ => cases heq

/-- The registry of the two entries. -/
def twoRegistry : ContainerRegistry where
  containers := ModelProvider.twoEntries.map ModelProvider.registered
  nodup := by decide

theorem deliveries_configured_two :
    let input := bareInput irreversibleTask (some escalationStrategy)
    let schedule := (List.replicate 8 [(true, ()), (false, ())]).flatten
    ∃ d ∈ (Pool.own true (Pool.trace
        (fun _ => processHandler (conciergeMode Network.stubbed fixedSurroundings.now)) schedule
        (deployed 1 (fun _ => input) (fun i => cond i "wf-a" "wf-b") (fun _ => "")
          (World.create (GatewayWorld.mk () twoRegistry))))).filterMap delivery,
      ∃ c ∈ ModelProvider.twoEntries, d.1.descriptor = (ModelProvider.registered c).descriptor ∧
        d.1.baseUrl = c.baseUrl ∧ d.2.modelClass ∈ c.classes := by
  intro input schedule
  have hregistry : ModelProvider.registryOf ModelProvider.twoEntries = .ok twoRegistry :=
    (ModelProvider.registryOf_ok _ _).mpr rfl
  have hsome : 0 < (List.filterMap delivery (Pool.own true (Pool.trace
      (fun _ => processHandler (conciergeMode Network.stubbed fixedSurroundings.now)) schedule
      (deployed 1 (fun _ => input) (fun i => cond i "wf-a" "wf-b") (fun _ => "")
        (World.create (GatewayWorld.mk () twoRegistry)))))).length := by decide
  exact ⟨_, List.getElem_mem hsome, deliveries_configured hregistry
    (fun _ : Unit => conciergeMode Network.stubbed fixedSurroundings.now)
    (fun _ => ⟨fun _ _ _ _ => rfl, fun _ _ _ => rfl⟩) 1 (fun _ => input)
    (fun i => cond i "wf-a" "wf-b") (fun _ => "") () schedule true _ (List.getElem_mem hsome)⟩

end Harp
