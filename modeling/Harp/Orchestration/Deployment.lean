import Harp.Gateway.RedactionSafety
import Harp.Lib.Pool
import Harp.Orchestration.CreateHarpSystem

/-
  Workflows that run at the same time in one process (`createHarpSystem` in `src/index.ts`).

  In the mode "concierge" the operations of the core and of its gateway interleave: a workflow is
  one program over both (`process`), and between two of its operations any of the other workflows
  may run. `run_process` says that such a program, run alone, is the system over a provider that
  answers at once.

  What holds of the end of a call whatever its operations are answered holds in any interleaving
  (`stubMode_concurrent`, `conciergeMode_concurrent`), and so does what holds of everything that a
  call hands to the transport (`deliveries_masked`).
-/

namespace Harp

open Prog HarpOrchestrator

/-! ## Core and gateway in one process -/

/-- An operation of the core, or of its gateway. -/
inductive ProcessOp where
  | core (o : SysOp)
  | gateway (o : GatewayOp)

abbrev ProcessOp.Res : ProcessOp → Type
  | core o => o.Res
  | gateway o => o.Res

abbrev ProcessProg := Prog ProcessOp ProcessOp.Res

/-- The core asks its provider by running the concierge. -/
def ProcessOp.lower : (o : SysOp) → ProcessProg o.Res
  | .providerGenerate request =>
    interp (fun o => perform (ProcessOp.gateway o))
      (ModelProvider.conciergeAsProvider ModelProvider.config request)
  | o => perform (ProcessOp.core o)

/-- A call on the system in the mode "concierge", down to the operations. -/
def process (budget : ℕ) (input : Input) (workflowId startedAt : String) :
    ProcessProg (Except Thrown WorkflowResult) :=
  interp ProcessOp.lower (system budget input workflowId startedAt)

section Run

variable {ε : Type} (env : SystemEnv ε)

def processHandler : Handler ProcessOp ProcessOp.Res (World (GatewayWorld ε))
  | .core o, w => sysHandler env.core o w
  | .gateway o, w =>
    let d := gatewayHandler env.toGatewayEnv o w.env
    (d.1, { w with env := d.2 })

/-- The gateway works on its own part of the world. -/
theorem run_gateway {α : Type} (p : GatewayProg α) (w : World (GatewayWorld ε)) :
    run (processHandler env) (interp (fun o => perform (ProcessOp.gateway o)) p) w =
      let d := run (gatewayHandler env.toGatewayEnv) p w.env
      (d.1, { w with env := d.2 }) := by
  induction p generalizing w with
  | ret a => rfl
  | call o k ih => exact ih _ _

/-- Run alone, it is the system over a provider that answers at once. -/
theorem run_process (budget : ℕ) (input : Input) (workflowId startedAt : String)
    (w : World (GatewayWorld ε)) :
    run (processHandler env) (process budget input workflowId startedAt) w =
      run (sysHandler env.core) (system budget input workflowId startedAt) w := by
  unfold process
  rw [run_interp]
  congr 1
  funext o w
  cases o with
  | providerGenerate request => exact run_gateway env _ w
  | _ => rfl

end Run

/-! ## What is registered -/

/-- The containers as they were registered, their health apart. -/
def ContainerRegistry.configured (registry : ContainerRegistry) :
    List (ContainerDescriptor × String) :=
  registry.containers.map fun c => (c.descriptor, c.baseUrl)

theorem ContainerRegistry.configured_markHealth (registry : ContainerRegistry) (id : String)
    (healthy : Bool) : (registry.markHealth id healthy).configured = registry.configured := by
  unfold configured markHealth
  rw [List.map_map]
  refine List.map_congr_left fun c _ => ?_
  rw [Function.comp_apply]
  split <;> rfl

/-- What others do to the registry meanwhile changes the health of containers only. -/
structure SystemEnv.OnlyMarks {ε : Type} (env : SystemEnv ε) : Prop where
  deliver : ∀ container request registry e,
    (env.deliver container request registry e).2.1.configured = registry.configured
  requestApproval : ∀ request registry e,
    (env.requestApproval request registry e).2.1.configured = registry.configured

section Registered

variable {ε : Type} {env : SystemEnv ε} {known : List (ContainerDescriptor × String)}

theorem gatewayHandler_configured (henv : env.OnlyMarks) (o : GatewayOp) (g : GatewayWorld ε)
    (hg : g.registry.configured = known) :
    (gatewayHandler env.toGatewayEnv o g).2.registry.configured = known := by
  cases o with
  | deliver container request => exact (henv.deliver container request g.registry g.env).trans hg
  | markHealth id healthy => exact (g.registry.configured_markHealth id healthy).trans hg
  | _ => exact hg

theorem processHandler_configured (henv : env.OnlyMarks) (o : ProcessOp)
    (w : World (GatewayWorld ε)) (hw : w.env.registry.configured = known) :
    (processHandler env o w).2.env.registry.configured = known := by
  cases o with
  | gateway o => exact gatewayHandler_configured henv o w.env hw
  | core o =>
    cases o with
    | providerGenerate request =>
      exact run_keeps (I := fun g : GatewayWorld ε => g.registry.configured = known)
        (gatewayHandler_configured henv) _ hw
    | requestApproval request =>
      exact (henv.requestApproval request w.env.registry w.env.env).trans hw
    | _ => exact hw

end Registered

/-! ## How workflows end -/

section Pools

variable {ι σ : Type} (budget : ℕ) (inputs : ι → Input) (ids startedAt : ι → String) (s : σ)

/-- Workflows of the system over one state, each with its id and start time. -/
def concurrently : Pool ι SysOp SysOp.Res (Except Thrown WorkflowResult) σ where
  threads i := system budget (inputs i) (ids i) (startedAt i)
  state := s

/-- The same, with the gateway in the process. -/
def deployed : Pool ι ProcessOp ProcessOp.Res (Except Thrown WorkflowResult) σ where
  threads i := process budget (inputs i) (ids i) (startedAt i)
  state := s

variable [DecidableEq ι]

/-- In the mode "stub", every one of any number of workflows that interleave ends in front of Ra's
    gate, unless its strategy leaves Ra out or its tokens run out. -/
theorem stubMode_concurrent {δ ε : Type} (number : Int → Int → String)
    (outside : δ → Surroundings ε) (w : World ε) (schedule : List (ι × δ)) (i : ι)
    (hs : ∀ s, (inputs i).forceStrategy = some s → Known s)
    {outcome : Except Thrown WorkflowResult}
    (hdone : (Pool.run (fun d => sysHandler (stubMode number (outside d))) schedule
      (concurrently budget inputs ids startedAt w)).threads i = ret outcome) :
    Resolves (SteadyEnd (fun _ => False) (ids i) false
      ((strategyFor (inputs i)).selectSequence (inputs i).task)) outcome :=
  Pool.returns _ (fun d => sysHandler_answers
      (stubModeWith_steady number (outside d) (console_denies (outside d).now)))
    (system_ended (fun _ => False.elim) budget (inputs i) (ids i) (startedAt i) hs) schedule hdone

end Pools

/-- Pharaoh comes first, and Ra next. -/
def votingInput : Input := bareInput irreversibleTask (some votingStrategy)

theorem voting_known : ∀ s, votingInput.forceStrategy = some s → Known s :=
  fun s h => .inl (bareInput_forced irreversibleTask (by simp [allStrategies]) s h)

/-- What the model is asked for Pharaoh. -/
def pharaohRequest : ModelRequest :=
  HarpAgent.modelRequest .pharaoh
    ⟨ContextManager.createScopedContext .pharaoh irreversibleTask votingInput.projectContext []
      "2026-01-01T00:00:00.000Z", "wf-a"⟩

/-- One token more than the answer takes. -/
def votingBudget {ε : Type} (env : Env ε) (e : ε) : ℕ :=
  match (env.generate pharaohRequest e).1 with
  | .ok response => response.inputTokens + response.outputTokens + 1
  | .error _ => 0

theorem voting_atGate {ε : Type} {env : Env ε} {T : Thrown → Prop} {e₀ : ε}
    (hstill : env.Still e₀) (henv : env.Steady T false)
    (hnow : (env.now e₀).1 = "2026-01-01T00:00:00.000Z") {w : World ε} (hw : w.env = e₀)
    (hfresh : w.modelRouter.usage "wf-a" = 0) :
    Resolves (·.status = .approvalRequired)
      (run (sysHandler env) (system (votingBudget env e₀) votingInput "wf-a" "") w).1 := by
  obtain ⟨response, hresponse⟩ := hstill.answers pharaohRequest
  have hbudget : w.modelRouter.usage "wf-a" + (response.inputTokens + response.outputTokens) <
      votingBudget env e₀ := by
    rw [hfresh, Nat.zero_add, votingBudget, hresponse]
    exact Nat.lt_succ_self _
  rw [run_system]
  refine executeAs_atGate hstill henv voting_known (a := .pharaoh) rfl (by decide) hw ?_ hbudget
  rw [hnow]
  exact hresponse

/-- One of two workflows runs up to Ra's gate, after the other has begun. -/
theorem stubMode_concurrent_two :
    let env := stubMode (fun m _ => m.repr) fixedSurroundings
    ∃ n r, (Pool.run (fun _ => sysHandler env)
        (List.replicate 3 (false, ()) ++ List.replicate n (true, ()))
        (concurrently (votingBudget env ()) (fun _ => votingInput) (fun i => cond i "wf-a" "wf-b")
          (fun _ => "") (World.create ()))).threads true = ret (.ok r) ∧
      r.status = .approvalRequired ∧
      Resolves (SteadyEnd (fun _ => False) "wf-a" false
        ((strategyFor votingInput).selectSequence irreversibleTask)) (.ok r) := by
  intro env
  have hstill : env.Still () := ⟨rfl, rfl, fun _ => rfl, fun _ => rfl, fun _ => ⟨_, rfl⟩⟩
  have hsteady : env.Steady (fun _ => False) false :=
    stubModeWith_steady _ _ (console_denies fixedSurroundings.now)
  let p := concurrently (votingBudget env ()) (fun _ => votingInput)
    (fun i => cond i "wf-a" "wf-b") (fun _ => "") (World.create ())
  let begun := Pool.run (fun _ => sysHandler env) (List.replicate 3 (false, ())) p
  obtain ⟨n, hn⟩ := Pool.exists_run_after (fun _ => sysHandler env) true
    (List.replicate 3 (false, ())) (by simp) () p
  obtain ⟨r, hr, hstatus⟩ := voting_atGate (w := begun.state) hstill hsteady rfl rfl rfl
  have hdone := hn.trans (congrArg ret hr)
  exact ⟨n, r, hdone, hstatus, stubMode_concurrent (votingBudget env ()) (fun _ => votingInput)
    (fun i => cond i "wf-a" "wf-b") (fun _ => "") (fun m _ => m.repr)
    (fun _ : Unit => fixedSurroundings) (World.create ()) _ true voting_known hdone⟩

/-! ## The mode "concierge" -/

/-- What is assumed of the answers to core and gateway. -/
def ProcessAnswer (Q : Asked → Provided → Prop) (T : Thrown → Prop) (passes : Bool) :
    (o : ProcessOp) → o.Res → Prop
  | .core o, r => SteadyAnswer T passes o r
  | .gateway o, r => Concierge.Answers (Concierge.Delivers Q Concierge.Undelivered) o r

/-- Over the stub of the containers, a provider call ends as the core is promised. -/
theorem lower_ended {passes : Bool} (o : SysOp) :
    Meets (fun _ => True) (ProcessAnswer StubContainedProvider.Answers Unanswered passes)
      (SteadyAnswer Unanswered passes o) (ProcessOp.lower o) := by
  cases o with
  | providerGenerate request =>
    have hcall : Meets (fun _ => True) (Concierge.Answers (Concierge.Delivers
          StubContainedProvider.Answers Concierge.Undelivered))
        (ProviderEnded (StubbedResponse (ModelProvider.coreModelRequest request)))
        (ModelProvider.conciergeAsProvider ModelProvider.config request) :=
      conciergeAsProvider_ended ModelProvider.config (by decide) request fun _ correlationId h =>
        h.response correlationId
    have hprocess : Meets (fun _ => True)
        (ProcessAnswer StubContainedProvider.Answers Unanswered passes)
        (ProviderEnded (StubbedResponse (ModelProvider.coreModelRequest request)))
        (ProcessOp.lower (.providerGenerate request)) :=
      hcall.interp fun o _ => ⟨trivial, fun _ h => h⟩
    refine hprocess.mono fun answer hanswer => ?_
    cases answer with
    | error t => exact hanswer
    | ok response =>
      obtain ⟨r, hr, rfl⟩ := hanswer
      exact hr.text
  | _ => exact ⟨trivial, fun _ h => h⟩

theorem process_ended {passes : Bool} (budget : ℕ) (input : Input) (workflowId startedAt : String)
    (hs : ∀ s, input.forceStrategy = some s → Known s) :
    Meets (fun _ => True) (ProcessAnswer StubContainedProvider.Answers Unanswered passes)
      (Resolves (SteadyEnd Unanswered workflowId passes
        ((strategyFor input).selectSequence input.task)))
      (process budget input workflowId startedAt) :=
  Meets.interp (fun o _ => lower_ended o)
    (system_ended Unanswered.readable budget input workflowId startedAt hs)

section Concurrent

variable {ι δ E ε : Type} [DecidableEq ι] {engine : Engine} {dateNow : ε → ℤ × ε}

theorem processHandler_answers {net : Network E ε} (now : ε → String × ε)
    (hnet : ∀ c, StubContainedProvider.Runs engine dateNow (net.host c)) (o : ProcessOp)
    (w : World (GatewayWorld ε)) :
    ProcessAnswer StubContainedProvider.Answers Unanswered false o
      (processHandler (conciergeMode net now) o w).1 := by
  cases o with
  | core o => exact sysHandler_answers (conciergeMode_steady net now hnet) o w
  | gateway o => exact Network.answers (fun _ h => h) (fun c => (hnet c).provides _) o w.env

/-- In the mode "concierge", over containers that run their stub, any number of workflows interleave
    at every operation of core and gateway. Each ends in front of Ra's gate, unless its strategy
    leaves Ra out, its tokens run out or its concierge gets no reply. -/
theorem conciergeMode_concurrent (net : δ → Network E ε) (now : δ → ε → String × ε)
    (hnet : ∀ d c, StubContainedProvider.Runs engine dateNow ((net d).host c)) (budget : ℕ)
    (inputs : ι → Input) (ids startedAt : ι → String) (w : World (GatewayWorld ε))
    (schedule : List (ι × δ)) (i : ι) (hs : ∀ s, (inputs i).forceStrategy = some s → Known s)
    {outcome : Except Thrown WorkflowResult}
    (hdone : (Pool.run (fun d => processHandler (conciergeMode (net d) (now d))) schedule
      (deployed budget inputs ids startedAt w)).threads i = ret outcome) :
    Resolves (SteadyEnd Unanswered (ids i) false
      ((strategyFor (inputs i)).selectSequence (inputs i).task)) outcome :=
  Pool.returns _ (fun d => processHandler_answers (now d) (hnet d))
    (process_ended budget (inputs i) (ids i) (startedAt i) hs) schedule hdone

end Concurrent

/-- A container that serves every class. -/
def everyClass : ContainerRegistry where
  containers := [⟨⟨"c", wireModelClasses, .primary, "stub"⟩, "https://c", true⟩]
  nodup := by decide

theorem everyClass_still :
    (conciergeMode Network.stubbed fixedSurroundings.now).core.Still ⟨(), everyClass⟩ where
  randomUUID := rfl
  now := rfl
  generate q := by
    obtain ⟨modelClass, _, _, _, _, _, _⟩ := q
    cases modelClass <;> rfl
  requestApproval _ := rfl
  answers q := by
    obtain ⟨modelClass, _, _, _, _, _, _⟩ := q
    cases modelClass <;> exact ⟨_, rfl⟩

/-- The same two workflows, with a gateway. -/
theorem conciergeMode_concurrent_two :
    let env := conciergeMode Network.stubbed fixedSurroundings.now
    ∃ n r, (Pool.run (fun _ => processHandler env)
        (List.replicate 3 (false, ()) ++ List.replicate n (true, ()))
        (deployed (votingBudget env.core ⟨(), everyClass⟩) (fun _ => votingInput)
          (fun i => cond i "wf-a" "wf-b") (fun _ => "")
          (World.create ⟨(), everyClass⟩))).threads true = ret (.ok r) ∧
      r.status = .approvalRequired ∧
      Resolves (SteadyEnd Unanswered "wf-a" false
        ((strategyFor votingInput).selectSequence irreversibleTask)) (.ok r) := by
  intro env
  have hnet : ∀ c, StubContainedProvider.Runs decimalEngine (fun _ => (0, ()))
      (Network.stubbed.host c) := fun _ => ⟨_, _, _, rfl⟩
  let budget := votingBudget env.core ⟨(), everyClass⟩
  let w : World (GatewayWorld Unit) := World.create ⟨(), everyClass⟩
  let p := deployed budget (fun _ => votingInput) (fun i => cond i "wf-a" "wf-b") (fun _ => "") w
  let begun := Pool.run (fun _ => processHandler env) (List.replicate 3 (false, ())) p
  obtain ⟨n, hn⟩ := Pool.exists_run_after (fun _ => processHandler env) true
    (List.replicate 3 (false, ())) (by simp) () p
  obtain ⟨r, hr, hstatus⟩ := voting_atGate (w := begun.state) everyClass_still
    (conciergeMode_steady Network.stubbed fixedSurroundings.now hnet) rfl rfl rfl
  have hdone := hn.trans (congrArg ret ((congrArg Prod.fst (run_process ..)).trans hr))
  exact ⟨n, r, hdone, hstatus, conciergeMode_concurrent (fun _ : Unit => Network.stubbed)
    (fun _ => fixedSurroundings.now) (fun _ => hnet) budget (fun _ => votingInput)
    (fun i => cond i "wf-a" "wf-b") (fun _ => "") w _ true voting_known hdone⟩

end Harp
