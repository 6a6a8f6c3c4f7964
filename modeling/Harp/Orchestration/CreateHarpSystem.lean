import Harp.Container.StubContainedProvider
import Harp.Orchestration.SteadyRuns

/-
  The system that is built from the default parts (`createHarpSystem` in `src/index.ts`).

  Its approvals come from the console provider, which holds everything back. So in both modes, with
  the stub in the core's process or in containers behind the concierge, no call gets past Ra
  (`stubMode_heldBack`, `conciergeMode_heldBack`). With the provider of the tests in its place every
  call that nobody interrupts runs to its end (`autoApproved_completes`).
-/

namespace Harp

open Prog HarpOrchestrator

/-! ## The approval providers -/

section Approvals

variable {ε : Type} (now : ε → String × ε) (request : ApprovalRequest) (e : ε)

theorem console_denies : ∃ d,
    (ConsoleApprovalProvider.requestApproval now request e).1 = .ok d ∧ d.passes = false :=
  ⟨_, rfl, rfl⟩

theorem autoApprove_passes (approverId : String) : ∃ d,
    (AutoApproveProvider.requestApproval now approverId request e).1 = .ok d ∧ d.passes = true :=
  ⟨_, rfl, rfl⟩

end Approvals

/-! ## The mode "stub" -/

/-- What lies outside of a system whose model is the stub: the ids and the clock. -/
structure Surroundings (ε : Type) where
  randomUUID : ε → String × ε
  now : ε → String × ε
  dateNow : ε → ℤ × ε

section Stub

variable {ε : Type} (number : Int → Int → String) (s : Surroundings ε)

/-- The system in the mode "stub", with any approval provider. -/
def stubModeWith (requestApproval : ApprovalRequest → ε → Except Thrown ApprovalDecision × ε) :
    Env ε where
  randomUUID := s.randomUUID
  now := s.now
  generate := StubModelProvider.generate number s.dateNow
  requestApproval := requestApproval

/-- `createHarpSystem` in the mode "stub". -/
def stubMode : Env ε := stubModeWith number s (ConsoleApprovalProvider.requestApproval s.now)

/-- The same with the provider for tests. -/
def stubModeApproved (approverId : String) : Env ε :=
  stubModeWith number s (AutoApproveProvider.requestApproval s.now approverId)

/-- The stub never throws, and every agent can read it. -/
theorem stubModeWith_steady {requestApproval} {passes : Bool}
    (h : ∀ q e, ∃ d, (requestApproval q e).1 = .ok d ∧ d.passes = passes) :
    (stubModeWith number s requestApproval).Steady (fun _ => False) passes where
  answered q e response hanswer := by
    obtain rfl := Except.ok.inj hanswer
    exact HarpAgent.accepts_stringified number _
  rejected q e t hanswer := by cases hanswer
  decided := h

variable (budget : ℕ) (input : Input) (w : World ε)

/-- In the mode "stub" every call of the system ends in front of Ra's gate, unless its strategy
    leaves Ra out or its tokens run out. -/
theorem stubMode_heldBack (hs : ∀ s, input.forceStrategy = some s → Known s) :
    let env := stubMode number s
    Resolves (SteadyEnd (fun _ => False) ((w.now env).2.randomUUID env).1 false
      ((strategyFor input).selectSequence input.task))
      (run (systemHandler env budget) (execute input) w).1 :=
  execute_steady (fun _ => False.elim) (stubModeWith_steady number s (console_denies s.now)) budget
    input w hs

/-- With approvals a call in the mode "stub" completes with all its agents, unless its tokens run
    out. -/
theorem autoApproved_completes (approverId : String)
    (hs : ∀ s, input.forceStrategy = some s → Known s) :
    let env := stubModeApproved number s approverId
    Resolves (SteadyEnd (fun _ => False) ((w.now env).2.randomUUID env).1 true
      ((strategyFor input).selectSequence input.task))
      (run (systemHandler env budget) (execute input) w).1 :=
  execute_steady (fun _ => False.elim)
    (stubModeWith_steady number s fun q e => autoApprove_passes s.now q e approverId) budget input w
    hs

end Stub

/-- One id and one time. -/
def fixedSurroundings : Surroundings Unit where
  randomUUID _ := ("3f2c", ())
  now _ := ("2026-01-01T00:00:00.000Z", ())
  dateNow _ := (0, ())

/-- No strategy is forced. -/
theorem bareInput_free (task : AgentTask) :
    ∀ s, (bareInput task none).forceStrategy = some s → Known s :=
  fun _ h => absurd h (Option.some_ne_none _).symm

theorem stubMode_heldBack_rename :
    let env := stubMode (fun m _ => m.repr) fixedSurroundings
    Resolves (SteadyEnd (fun _ => False) "3f2c" false
      ((strategyFor (bareInput irreversibleTask none)).selectSequence irreversibleTask))
      (run (systemHandler env 200000) (execute (bareInput irreversibleTask none))
        (World.create ())).1 :=
  stubMode_heldBack (fun m _ => m.repr) fixedSurroundings 200000 (bareInput irreversibleTask none)
    (World.create ()) (bareInput_free irreversibleTask)

theorem autoApproved_completes_rename :
    let env := stubModeApproved (fun m _ => m.repr) fixedSurroundings "test-harness"
    Resolves (SteadyEnd (fun _ => False) "3f2c" true
      ((strategyFor (bareInput irreversibleTask none)).selectSequence irreversibleTask))
      (run (systemHandler env 200000) (execute (bareInput irreversibleTask none))
        (World.create ())).1 :=
  autoApproved_completes (fun m _ => m.repr) fixedSurroundings 200000
    (bareInput irreversibleTask none) (World.create ()) "test-harness"
    (bareInput_free irreversibleTask)

/-! ## The mode "concierge" -/

section Concierge

variable {E ε : Type} (net : Network E ε) (now : ε → String × ε)

/-- `createHarpSystem` in the mode "concierge", over a network of containers. That the wire to them
    does not show is `generate_transparent`. -/
def conciergeMode : SystemEnv ε where
  toGatewayEnv := net.direct
  now := now
  requestApproval request registry e :=
    let d := ConsoleApprovalProvider.requestApproval now request e
    (d.1, net.others registry d.2)

/-- How a call of the concierge throws that gets no reply. -/
def Unanswered (t : Thrown) : Prop :=
  (∃ modelClass, t = Concierge.noRouteError modelClass) ∨
    ∃ modelClass lastKind, t = Concierge.exhaustedError modelClass lastKind ∧
      Concierge.Undelivered lastKind

theorem Unanswered.readable (t : Thrown) (h : Unanswered t) : t.Readable := by
  rcases h with ⟨modelClass, rfl⟩ | ⟨modelClass, lastKind, rfl, -⟩
  · rfl
  · rfl

/-- What the core gets of its provider. -/
def ProviderEnded (S : CoreModelResponse → Prop) : Except Thrown ModelResponse → Prop
  | .ok response => ∃ r, S r ∧ response = ModelProvider.modelResponse r
  | .error t => Unanswered t

theorem conciergeAsProvider_ended {Q : Asked → Provided → Prop} (config : Concierge.Config)
    (hretries : 0 < config.retriesPerContainer) (request : ModelRequest)
    {S : CoreModelResponse → Prop}
    (hS : ∀ out correlationId, Q ((ModelProvider.coreModelRequest request).asked config) out →
      S (Concierge.coreResponse (out.success correlationId))) :
    Meets (fun _ => True) (Concierge.Answers (Concierge.Delivers Q Concierge.Undelivered))
      (ProviderEnded S) (ModelProvider.conciergeAsProvider config request) := by
  have hcall := Concierge.generate_ended (A := Concierge.Delivers Q Concierge.Undelivered) (S := S)
    (T := fun _ => False) config (ModelProvider.coreModelRequest request) hretries
    fun _ a ha => Concierge.Delivers.allowed hS ha
  refine hcall.bind fun outcome houtcome => ?_
  rcases outcome with t | r
  · exact houtcome.resolve_left id
  · exact ⟨r, houtcome, rfl⟩

variable {engine : Engine} {dateNow : ε → ℤ × ε}
  (hnet : ∀ c, StubContainedProvider.Runs engine dateNow (net.host c))
include hnet

theorem conciergeMode_steady : (conciergeMode net now).core.Steady Unanswered false := by
  have hended (q : ModelRequest) (g : GatewayWorld ε) :
      ProviderEnded (StubbedResponse (ModelProvider.coreModelRequest q))
        ((conciergeMode net now).core.generate q g).1 :=
    (conciergeAsProvider_ended ModelProvider.config (by decide) q fun _ correlationId h =>
      h.response correlationId).returns
        (Network.answers (fun _ h => h) fun c => (hnet c).provides _) g
  constructor
  · intro q g response hanswer
    have hq := hended q g
    rw [hanswer] at hq
    obtain ⟨r, hr, rfl⟩ := hq
    exact hr.text
  · intro q g t hanswer
    have hq := hended q g
    rw [hanswer] at hq
    exact hq
  · intro q g
    exact console_denies now q g.env

end Concierge

end Harp
