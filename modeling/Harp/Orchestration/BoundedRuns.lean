import Harp.Lib.Cost
import Harp.Orchestration.Deliveries
import Mathlib.Data.List.Perm.Basic

/-
  How much a workflow does before it returns (`src/orchestration/HarpOrchestrator.ts`,
  `src/gateway/concierge/Concierge.ts`).

  Each loop of a call has a bound: the agents of the sequence, the containers of a plan, the
  attempts on a container. So in the mode "concierge" a workflow that gets `stepsOf` steps has
  returned, whatever network, containers and approver answer and however the other workflows
  interleave (`workflow_returns`, and with its end `conciergeMode_settles`). It never hands over
  more than two requests for each agent of its sequence and each container (`handedOver_le`).

  The cost of a delivery is `d` and that of any other operation `o`: with `d = o = 1` steps are
  counted, with `d = 1` and `o = 0` deliveries.
-/

namespace Harp

open Prog HarpOrchestrator

/-! ## Through the concierge -/

theorem Router.length_tiered (serving : List RegisteredContainer) :
    (Router.tiered serving).length = serving.length := by
  have hbackup : (fun c : RegisteredContainer => c.descriptor.tier == .backup) =
      fun c => !(c.descriptor.tier == .primary) := by
    funext c
    cases c.descriptor.tier <;> rfl
  unfold Router.tiered
  rw [hbackup]
  exact (List.filter_append_perm _ serving).length_eq

namespace Concierge

variable {d o n : ℕ}

def gatewayCost (d o : ℕ) : GatewayOp → ℕ
  | .deliver .. => d
  | _ => o

/-- A class is served by at most `n` containers. -/
def ServedBy (n : ℕ) : (o : GatewayOp) → o.Res → Prop
  | .serving _, serving => serving.length ≤ n
  | _, _ => True

/-- What the attempts on one container cost. -/
def containerCost (d o retries : ℕ) : ℕ := retries * (d + o) + o

/-- What a call of the concierge costs. -/
def askCost (d o retries n : ℕ) : ℕ := n * containerCost d o retries + 4 * o

variable (retries : ℕ) (env : Envelope)

theorem attempts_within (container : RegisteredContainer) (left : ℕ) (lastKind : Option String) :
    Within (gatewayCost d o) (ServedBy n) (fun _ => True)
      (attempts retries env container left lastKind) (containerCost d o left) := by
  induction left generalizing lastKind with
  | zero => trivial
  | succ left ih =>
    have hcost : containerCost d o (left + 1) = d + (o + containerCost d o left) := by
      unfold containerCost
      rw [Nat.succ_mul]
      omega
    rw [attempts, perform_bind, hcost]
    refine .call fun answer _ => ?_
    cases answer with
    | error t =>
      rw [perform_bind]
      exact .call fun _ _ => ih _
    | ok response =>
      cases response with
      | success r =>
        rw [perform_bind]
        exact .call fun _ _ => trivial
      | failure f =>
        dsimp only
        by_cases hfatal : fatal f.kind = true
        · rw [if_pos hfatal, perform_bind]
          exact .call fun _ _ => trivial
        · rw [if_neg hfatal, perform_bind]
          refine .call fun _ _ => ?_
          by_cases hretry : (f.retryable && decide (retries - left < retries)) = true
          · rw [if_pos hretry]
            exact ih _
          · rw [if_neg hretry, perform_bind]
            exact .last (Nat.le_add_left _ _) fun _ _ => trivial

theorem failover_within (plan : List RegisteredContainer) (lastKind : Option String) :
    Within (gatewayCost d o) (ServedBy n) (fun _ => True) (failover retries env plan lastKind)
      (plan.length * containerCost d o retries + o) := by
  induction plan generalizing lastKind with
  | nil =>
    rw [failover, perform_bind]
    exact .last (Nat.le_add_left _ _) fun _ _ => trivial
  | cons container rest ih =>
    rw [failover, List.length_cons, Nat.succ_mul, Nat.add_right_comm, Nat.add_comm]
    refine (attempts_within retries env container retries lastKind).bind fun tried _ => ?_
    cases tried with
    | resolved r => trivial
    | thrown e => trivial
    | moveOn lastKind => exact ih _

theorem generate_within (config : Config) (request : CoreModelRequest) :
    Within (gatewayCost d o) (ServedBy n) (fun _ => True) (generate config request)
      (askCost d o config.retriesPerContainer n) := by
  have hcost : askCost d o config.retriesPerContainer n =
      o + (o + (o + (n * containerCost d o config.retriesPerContainer + o))) := by
    unfold askCost
    omega
  unfold generate
  simp only [perform_bind]
  rw [hcost]
  refine .call fun correlationId _ => .call fun _ _ => .call fun serving hserving => ?_
  unfold deliverAlong
  by_cases hnone : (Router.tiered serving).length = 0
  · rw [if_pos hnone, perform_bind]
    exact .last (Nat.le_add_left _ _) fun _ _ => trivial
  · rw [if_neg hnone]
    refine (failover_within _ _ _ _).mono (Nat.add_le_add_right ?_ o)
    rw [Router.length_tiered]
    exact Nat.mul_le_mul_right _ hserving

end Concierge

/-! ## The core -/

section Core

variable {asks o : ℕ}

/-- A question to the provider costs `asks`. -/
def coreCost (asks o : ℕ) : SysOp → ℕ
  | .providerGenerate _ => asks
  | _ => o

/-- An agent answers with one artifact. -/
def OneArtifact : Except Thrown AgentResult → Prop
  | .ok r => r.artifacts.length = 1
  | .error _ => True

def agentCost (asks o : ℕ) : ℕ := asks + 6 * o

namespace HarpAgent

variable (agent : AgentId) (input : AgentExecuteInput)

theorem resultFor_within (text : String) :
    Within (coreCost asks o) (fun _ _ => True) (fun r => r.artifacts.length = 1)
      (resultFor agent input text) (o + o) := by
  have hmake (title content : String) (modelClass : ModelClass) :
      Within (coreCost asks o) (fun _ _ => True) (fun _ => True)
        (makeArtifact agent title content input.context input.workflowId modelClass) (o + o) :=
    .call fun _ _ => .last le_rfl fun _ _ => trivial
  unfold resultFor
  cases parseModelOutput text with
  | none => exact (hmake _ _ _).bind (m := 0) fun _ _ => rfl
  | some output => cases agent <;> exact (hmake _ _ _).bind (m := 0) fun _ _ => rfl

theorem execute_within (budget : ℕ) :
    Within (coreCost asks o) (fun _ _ => True) OneArtifact (execute budget agent input)
      (agentCost asks o) := by
  have hcost : agentCost asks o = o + (o + (asks + (o + (o + o + o)))) := by
    unfold agentCost
    omega
  unfold execute ModelRouter.generate ModelRouter.generateChecked
  simp only [perform_bind, call_bind]
  rw [hcost]
  refine .call fun _ _ => .call fun used _ => ?_
  by_cases hb : used ≥ budget
  · rw [if_pos hb]
    trivial
  · rw [if_neg hb]
    refine .call fun answer _ => ?_
    cases answer with
    | error t => trivial
    | ok response =>
      refine .call fun _ _ => ?_
      refine (resultFor_within agent input response.text).bind fun r hr => ?_
      exact .last le_rfl fun _ _ => hr

end HarpAgent

namespace HarpOrchestrator

/-- An operation of the orchestrator, an agent's work included. -/
def orchCost (asks o : ℕ) : OrchOp → ℕ
  | .sys op => coreCost asks o op
  | .agentExecute .. => agentCost asks o

def AgentsAnswer : (op : OrchOp) → op.Res → Prop
  | .agentExecute .., answer => OneArtifact answer
  | .sys _, _ => True

/-- A pass of the loop; the gate comes with Ra. -/
def turnCost (asks o : ℕ) (a : AgentId) : ℕ :=
  agentCost asks o + 2 * o + if a = .ra then 6 * o else 0

/-- A call whose strategy chose `seq`. -/
def callCost (asks o : ℕ) (seq : List AgentId) : ℕ := 3 * o + (seq.map (turnCost asks o)).sum

section Loop

variable (call : Call) (l : Locals)

/-- What costs at most `n`, whatever it returns. -/
abbrev Costs (asks o : ℕ) {α : Type} (p : OrchProg α) (n : ℕ) : Prop :=
  Within (orchCost asks o) AgentsAnswer (fun _ => True) p n

theorem result_within (status : WorkflowStatus) (approvalRequired : Bool)
    (recommendation : String) (failure : Option WorkflowFailure) :
    Costs asks o (result call status l approvalRequired recommendation failure) o :=
  .last le_rfl fun _ _ => trivial

theorem appendAll_within (artifacts : List Artifact) :
    Costs asks o (appendAll artifacts) (artifacts.length * o) := by
  induction artifacts with
  | nil => trivial
  | cons a as ih =>
    rw [appendAll, perform_bind, List.length_cons, Nat.succ_mul, Nat.add_comm]
    exact .call fun _ _ => ih

theorem blockForApproval_within (decision : ApprovalDecision) :
    Costs asks o (blockForApproval call l decision) (5 * o) := by
  have hcost : 5 * o = o + (o + (o + (o + o))) := by omega
  unfold blockForApproval
  simp only [perform_bind]
  rw [hcost]
  refine .call fun _ _ => .call fun _ _ => .call fun _ _ => .call fun _ _ => ?_
  exact (result_within call _ _ _ _ _).bind (m := 0) fun _ _ => trivial

theorem enforceApproval_within (r : AgentResult) :
    Costs asks o (enforceApproval call l r) (6 * o) := by
  have hcost : 6 * o = o + 5 * o := by omega
  unfold enforceApproval
  rw [evaluate_approvalRequest, perform_bind, hcost]
  refine .call fun answer _ => ?_
  cases answer with
  | error t => trivial
  | ok decision =>
    dsimp only
    by_cases hd : decision.passes = true
    · rw [if_pos hd, perform_bind]
      exact .last (by dsimp only [orchCost, coreCost]; omega) fun _ _ => trivial
    · rw [if_neg hd]
      exact (blockForApproval_within call l decision).bind (m := 0) fun _ _ => trivial

theorem turn_within (a : AgentId) : Costs asks o (turn call a l) (turnCost asks o a) := by
  have hcost : turnCost asks o a =
      o + (agentCost asks o + (1 * o + if a = .ra then 6 * o else 0)) := by
    unfold turnCost
    omega
  unfold turn
  rw [perform_bind, hcost]
  refine .call fun snapshotAt _ => ?_
  dsimp only
  rw [perform_bind]
  refine .call fun answer hanswer => ?_
  cases answer with
  | error t => trivial
  | ok r =>
    have hone : r.artifacts.length = 1 := hanswer
    have happend : Costs asks o (appendAll r.artifacts) (1 * o) :=
      hone ▸ appendAll_within r.artifacts
    refine happend.bind fun _ _ => ?_
    by_cases ha : a = .ra
    · rw [if_pos ha, if_pos ha]
      refine (enforceApproval_within call _ r).bind (m := 0) fun ended _ => ?_
      obtain ⟨t | blocked, l'⟩ := ended
      · trivial
      · cases blocked <;> trivial
    · rw [if_neg ha]
      trivial

theorem agentLoop_within (seq : List AgentId) :
    Costs asks o (agentLoop call seq l) (seq.map (turnCost asks o)).sum := by
  induction seq generalizing l with
  | nil => trivial
  | cons a rest ih =>
    rw [agentLoop, List.map_cons, List.sum_cons]
    refine (turn_within call l a).bind fun ended _ => ?_
    obtain ⟨te, l'⟩ := ended
    cases te with
    | leave e => trivial
    | next => exact ih l'

theorem conclude_within (ended : LoopEnd × Locals) :
    Costs asks o (conclude call ended) (o + o) := by
  obtain ⟨e, l⟩ := ended
  cases e with
  | blocked r => trivial
  | finished =>
    have hcomplete : Costs asks o (complete call l) (o + o) :=
      .call fun _ _ => result_within call l _ _ _ _
    exact hcomplete.bind (m := 0) fun _ _ => trivial
  | thrown t =>
    simp only [conclude, handleFailure]
    cases t.reason with
    | error e => trivial
    | ok reason =>
      have hfail : Costs asks o (failWith call l t reason) (o + o) :=
        .call fun _ _ => result_within call l _ _ _ _
      exact hfail.bind (m := 0) fun _ _ => trivial

end Loop

theorem executeAs_within (input : Input) (workflowId startedAt : String) :
    Costs asks o (executeAs input workflowId startedAt)
      (callCost asks o ((strategyFor input).selectSequence input.task)) := by
  have hcost (seq : List AgentId) :
      callCost asks o seq = o + ((seq.map (turnCost asks o)).sum + (o + o)) := by
    unfold callCost
    omega
  unfold executeAs
  rw [perform_bind, hcost]
  refine .call fun _ _ => ?_
  exact (agentLoop_within (callOf input workflowId startedAt) _ _).bind fun ended _ =>
    conclude_within (callOf input workflowId startedAt) ended

/-- The same down to the operations of the core. -/
theorem system_within (budget : ℕ) (input : Input) (workflowId startedAt : String) :
    Within (coreCost asks o) (fun _ _ => True) (fun _ => True)
      (system budget input workflowId startedAt)
      (callCost asks o ((strategyFor input).selectSequence input.task)) := by
  refine Within.interp (fun op => ?_) (executeAs_within input workflowId startedAt)
  cases op with
  | sys op => exact .last le_rfl fun _ _ => trivial
  | agentExecute a agentInput => exact HarpAgent.execute_within a agentInput budget

end HarpOrchestrator

end Core

/-! ## Core and gateway in one process -/

section Process

variable {d o n : ℕ}

def processCost (d o : ℕ) : ProcessOp → ℕ
  | .core _ => o
  | .gateway op => Concierge.gatewayCost d o op

def ProcessServedBy (n : ℕ) : (op : ProcessOp) → op.Res → Prop
  | .core _, _ => True
  | .gateway op, r => Concierge.ServedBy n op r

theorem lower_within (op : SysOp) :
    Within (processCost d o) (ProcessServedBy n) (fun _ => True) (ProcessOp.lower op)
      (coreCost (Concierge.askCost d o 2 n) o op) := by
  cases op with
  | providerGenerate request =>
    have hcall : Within (Concierge.gatewayCost d o) (Concierge.ServedBy n) (fun _ => True)
        (ModelProvider.conciergeAsProvider ModelProvider.config request)
        (Concierge.askCost d o 2 n) :=
      (Concierge.generate_within _ _).bind (m := 0) fun answer _ => by cases answer <;> trivial
    exact Within.interp (fun op => .last le_rfl fun _ h => h) hcall
  | _ => exact .last le_rfl fun _ _ => trivial

theorem process_within (budget : ℕ) (input : Input) (workflowId startedAt : String) :
    Within (processCost d o) (ProcessServedBy n) (fun _ => True)
      (process budget input workflowId startedAt)
      (callCost (Concierge.askCost d o 2 n) o ((strategyFor input).selectSequence input.task)) :=
  Within.interp lower_within (system_within budget input workflowId startedAt)

end Process

/-! ## In the deployment -/

section Deployment

variable {ι δ ε : Type} [DecidableEq ι]

theorem processHandler_servedBy {env : SystemEnv ε} {known : List (ContainerDescriptor × String)}
    (op : ProcessOp) (w : World (GatewayWorld ε)) (hw : w.env.registry.configured = known) :
    ProcessServedBy known.length op (processHandler env op w).1 := by
  cases op with
  | core op => trivial
  | gateway op =>
    cases op with
    | serving modelClass =>
      have hlength : known.length = w.env.registry.containers.length := by
        rw [← hw]
        exact List.length_map _
      rw [hlength]
      exact List.length_filter_le _ _
    | _ => trivial

/-- How many steps suffice, with `n` containers. -/
def stepsOf (n : ℕ) (seq : List AgentId) : ℕ :=
  3 + (seq.map fun a => 12 + 5 * n + if a = .ra then 6 else 0).sum

theorem callCost_steps (n : ℕ) (seq : List AgentId) :
    callCost (Concierge.askCost 1 1 2 n) 1 seq = stepsOf n seq := by
  have hturn : turnCost (Concierge.askCost 1 1 2 n) 1 =
      fun a => 12 + 5 * n + if a = .ra then 6 else 0 := by
    funext a
    unfold turnCost agentCost Concierge.askCost Concierge.containerCost
    split <;> omega
  unfold callCost stepsOf
  rw [hturn]

theorem callCost_deliveries (n : ℕ) (seq : List AgentId) :
    callCost (Concierge.askCost 1 0 2 n) 0 seq = seq.length * (2 * n) := by
  have hturn : turnCost (Concierge.askCost 1 0 2 n) 0 = fun _ => 2 * n := by
    funext a
    unfold turnCost agentCost Concierge.askCost Concierge.containerCost
    split <;> omega
  unfold callCost
  rw [hturn, List.map_const', List.sum_replicate_nat, Nat.mul_zero, Nat.zero_add]

variable (env : δ → SystemEnv ε) (henv : ∀ d, (env d).OnlyMarks) (budget : ℕ)
  (inputs : ι → Input) (ids startedAt : ι → String) (w : World (GatewayWorld ε))
  (schedule : List (ι × δ)) (i : ι)
include henv

/-- Whatever network, containers and approver answer, and however the workflows interleave, a
    workflow that gets the steps of its sequence has settled. -/
theorem workflow_returns
    (hsteps : stepsOf w.env.registry.configured.length
      ((strategyFor (inputs i)).selectSequence (inputs i).task) ≤
        (Pool.drawsOf i schedule).length) :
    ∃ r, (Pool.run (fun d => processHandler (env d)) schedule
      (deployed budget inputs ids startedAt w)).threads i = ret r := by
  have hcost : processCost 1 1 = fun _ => 1 := by
    funext op
    cases op with
    | core op => rfl
    | gateway op => cases op <;> rfl
  have hwithin := process_within (d := 1) (o := 1) (n := w.env.registry.configured.length) budget
    (inputs i) (ids i) (startedAt i)
  rw [callCost_steps, hcost] at hwithin
  obtain ⟨r, hr, -⟩ := Pool.finishes (p := deployed budget inputs ids startedAt w)
    (fun d => processHandler (env d)) (fun d => processHandler_configured (henv d))
    (fun _ => processHandler_servedBy) rfl hwithin schedule hsteps
  exact ⟨r, hr⟩

/-- At any moment a workflow has handed over at most two requests for each agent of its sequence and
    each container. -/
theorem handedOver_le :
    ((Pool.own i (Pool.trace (fun d => processHandler (env d)) schedule
        (deployed budget inputs ids startedAt w))).filterMap handedOver).length ≤
      ((strategyFor (inputs i)).selectSequence (inputs i).task).length *
        (2 * w.env.registry.configured.length) := by
  have hcount (tr : List ((op : ProcessOp) × op.Res)) :
      (tr.filterMap handedOver).length = spent (processCost 1 0) tr := by
    induction tr with
    | nil => rfl
    | cons x tr ih =>
      obtain ⟨op, r⟩ := x
      rw [spent, ← ih]
      cases op with
      | core op => exact (Nat.zero_add _).symm
      | gateway op =>
        cases op with
        | deliver container request => exact Nat.add_comm _ _
        | _ => exact (Nat.zero_add _).symm
  have hwithin := process_within (d := 1) (o := 0) (n := w.env.registry.configured.length) budget
    (inputs i) (ids i) (startedAt i)
  rw [callCost_deliveries] at hwithin
  rw [hcount]
  exact Pool.spent_le (p := deployed budget inputs ids startedAt w)
    (fun d => processHandler (env d)) (fun d => processHandler_configured (henv d))
    (fun _ => processHandler_servedBy) rfl hwithin schedule

end Deployment

/-- Over containers that run their stub, every workflow that gets its steps has ended, and in front
    of Ra's gate, unless its strategy leaves Ra out, its tokens run out or its concierge gets no
    reply. -/
theorem conciergeMode_settles {ι δ E ε : Type} [DecidableEq ι] {engine : Engine}
    {dateNow : ε → ℤ × ε} (net : δ → Network E ε) (now : δ → ε → String × ε)
    (hnet : ∀ d c, StubContainedProvider.Runs engine dateNow ((net d).host c))
    (hothers : ∀ d registry e, ((net d).others registry e).1.configured = registry.configured)
    (budget : ℕ) (inputs : ι → Input) (ids startedAt : ι → String) (w : World (GatewayWorld ε))
    (schedule : List (ι × δ)) (i : ι)
    (hs : ∀ s, (inputs i).forceStrategy = some s → Known s)
    (hsteps : stepsOf w.env.registry.configured.length
      ((strategyFor (inputs i)).selectSequence (inputs i).task) ≤
        (Pool.drawsOf i schedule).length) :
    ∃ r, (Pool.run (fun d => processHandler (conciergeMode (net d) (now d))) schedule
        (deployed budget inputs ids startedAt w)).threads i = ret r ∧
      Resolves (SteadyEnd Unanswered (ids i) false
        ((strategyFor (inputs i)).selectSequence (inputs i).task)) r := by
  have hmarks (d : δ) : (conciergeMode (net d) (now d)).OnlyMarks :=
    { deliver := fun _ _ registry _ => hothers d registry _
      requestApproval := fun _ registry _ => hothers d registry _ }
  obtain ⟨r, hr⟩ := workflow_returns (fun d => conciergeMode (net d) (now d)) hmarks budget inputs
    ids startedAt w schedule i hsteps
  exact ⟨r, hr, Pool.returns _ (fun d => processHandler_answers (now d) (hnet d))
    (process_ended budget (inputs i) (ids i) (startedAt i) hs) schedule hr⟩

/-- Two workflows over the two containers, with the steps that each needs. -/
theorem conciergeMode_settles_two :
    let input := bareInput irreversibleTask (some escalationStrategy)
    let schedule := (List.replicate 69 [(true, ()), (false, ())]).flatten
    ∃ r, (Pool.run (fun _ => processHandler (conciergeMode Network.stubbed fixedSurroundings.now))
        schedule (deployed 10000 (fun _ => input) (fun i => cond i "wf-a" "wf-b") (fun _ => "")
          (World.create ⟨(), Concierge.twoContainers⟩))).threads true = ret r ∧
      Resolves (SteadyEnd Unanswered "wf-a" false
        ((strategyFor input).selectSequence irreversibleTask)) r := by
  intro input schedule
  exact conciergeMode_settles (fun _ : Unit => Network.stubbed) (fun _ => fixedSurroundings.now)
    (fun _ _ => ⟨_, _, _, rfl⟩) (fun _ _ _ => rfl) 10000 (fun _ => input)
    (fun i => cond i "wf-a" "wf-b") (fun _ => "") (World.create ⟨(), Concierge.twoContainers⟩)
    schedule true (fun s h => .inl (bareInput_forced _ (by simp [allStrategies]) s h)) (by decide)

theorem stubbed_onlyMarks : (conciergeMode Network.stubbed fixedSurroundings.now).OnlyMarks where
  deliver _ _ _ _ := rfl
  requestApproval _ _ _ := rfl

theorem handedOver_le_two :
    let input := bareInput irreversibleTask (some escalationStrategy)
    let schedule := (List.replicate 69 [(true, ()), (false, ())]).flatten
    ((Pool.own true (Pool.trace
        (fun _ => processHandler (conciergeMode Network.stubbed fixedSurroundings.now)) schedule
        (deployed 10000 (fun _ => input) (fun i => cond i "wf-a" "wf-b") (fun _ => "")
          (World.create ⟨(), Concierge.twoContainers⟩)))).filterMap handedOver).length ≤ 12 := by
  intro input schedule
  exact handedOver_le (fun _ : Unit => conciergeMode Network.stubbed fixedSurroundings.now)
    (fun _ => stubbed_onlyMarks) 10000 (fun _ => input) (fun i => cond i "wf-a" "wf-b")
    (fun _ => "") (World.create ⟨(), Concierge.twoContainers⟩) schedule true

end Harp
