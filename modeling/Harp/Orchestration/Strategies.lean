import Harp.Core.Types
import Harp.Lib.Text

/-
  Coordination strategies (`src/orchestration/strategies/`).

  A strategy is a planner: the order of agents for a task, and an optional stop check that
  the orchestrator makes after each agent. The check of a strategy that a caller supplies
  may throw. The three advanced strategies ask the activation policy, which reads three
  variables of the process environment.
-/

namespace Harp

/-- What `shouldStop` sees after an agent completed. -/
structure WorkflowState where
  task : AgentTask
  completedAgents : List AgentId
  results : List AgentResult
  blockedForApproval : Bool

structure CoordinationStrategy where
  name : CoordinationStrategyName
  selectSequence : AgentTask → List AgentId
  shouldStop : Option (WorkflowState → Except Thrown Bool)

/-- `strategy.shouldStop?.(state)`, where a strategy without a check goes on. -/
def CoordinationStrategy.stops (s : CoordinationStrategy) (state : WorkflowState) :
    Except Thrown Bool :=
  match s.shouldStop with
  | some f => f state
  | none => .ok false

/-- Stop helper: any agent blocked or failed ends the workflow. -/
def anyBlockedOrFailed (results : List AgentResult) : Bool :=
  results.any fun r => r.status == .blocked || r.status == .failed

/-! ## The six built-in strategies -/

def sequentialReviewStrategy : CoordinationStrategy where
  name := .sequentialReview
  selectSequence _ :=
    [.pharaoh, .horusNexus, .anubisSentinel, .ra, .horusNexus, .anubisSentinel, .pharaoh]
  shouldStop := some fun state =>
    .ok (state.blockedForApproval || anyBlockedOrFailed state.results)

def parallelReviewStrategy : CoordinationStrategy where
  name := .parallelReview
  selectSequence _ := [.pharaoh, .horusNexus, .anubisSentinel, .pharaoh]
  shouldStop := some fun state => .ok (anyBlockedOrFailed state.results)

def arbitrationStrategy : CoordinationStrategy where
  name := .arbitration
  selectSequence _ := [.pharaoh, .horusNexus, .anubisSentinel, .pharaoh]
  shouldStop := none

def negotiationStrategy : CoordinationStrategy where
  name := .negotiation
  selectSequence _ := [.pharaoh, .horusNexus, .anubisSentinel, .horusNexus, .pharaoh]
  shouldStop := none

def votingStrategy : CoordinationStrategy where
  name := .voting
  selectSequence _ := [.pharaoh, .ra, .horusNexus, .anubisSentinel, .pharaoh]
  shouldStop := none

def escalationStrategy : CoordinationStrategy where
  name := .escalation
  selectSequence _ := [.pharaoh, .anubisSentinel, .pharaoh]
  shouldStop := some fun state => .ok state.blockedForApproval

def allStrategies : List CoordinationStrategy :=
  [sequentialReviewStrategy, parallelReviewStrategy, arbitrationStrategy, negotiationStrategy,
    votingStrategy, escalationStrategy]

/-! ## The activation policy -/

inductive AdvancedStrategyName where
  | chainOfDebates
  | looseCoalitions
  | aufheben
  deriving DecidableEq, Repr

def AdvancedStrategyName.text : AdvancedStrategyName → String
  | chainOfDebates => "chain-of-debates"
  | looseCoalitions => "loose-coalitions"
  | aufheben => "aufheben"

structure ActivationVerdict where
  allowed : Bool
  reason : String
  deriving DecidableEq

/-- The variables of `process.env` that the policy reads. -/
structure ActivationEnv where
  harpEnableAdvancedStrategies : Option String
  harpEnabledStrategies : Option String
  harpModelValidated : Option String

namespace StrategyActivationPolicy

def enabledSet (env : ActivationEnv) : List String :=
  let raw := env.harpEnabledStrategies.getD ""
  ((Js.split ',' raw.toList).map fun s => String.ofList (Js.trimChars s)).filter (· != "")

def evaluate (env : ActivationEnv) (name : AdvancedStrategyName) : ActivationVerdict :=
  if Js.toLowerCase (env.harpEnableAdvancedStrategies.getD "false") != "true" then
    { allowed := false
      reason := "Advanced strategies are globally disabled " ++
        "(HARP_ENABLE_ADVANCED_STRATEGIES != true)." }
  else if !(enabledSet env).contains name.text then
    { allowed := false
      reason := "Strategy \"" ++ name.text ++ "\" is not in HARP_ENABLED_STRATEGIES." }
  else if Js.toLowerCase (env.harpModelValidated.getD "false") != "true" then
    { allowed := false
      reason := "Real-model validation not confirmed (HARP_MODEL_VALIDATED != true). " ++
        "Advanced coordination is meaningless on a stub provider and stays gated." }
  else
    { allowed := true
      reason := "Strategy \"" ++ name.text ++ "\" activated by explicit policy." }

end StrategyActivationPolicy

/-! ## The three advanced strategies -/

/-- `SAFE_FALLBACK`. -/
def safeFallback : List AgentId :=
  [.pharaoh, .horusNexus, .anubisSentinel, .ra, .horusNexus, .anubisSentinel, .pharaoh]

/-- `GatedAdvancedStrategy`: the activated sequence if the policy allows it, else the safe
    fallback. -/
def gatedAdvancedStrategy (env : ActivationEnv) (name : CoordinationStrategyName)
    (advancedName : AdvancedStrategyName) (activatedSequence : List AgentId) :
    CoordinationStrategy where
  name := name
  selectSequence _ :=
    if (StrategyActivationPolicy.evaluate env advancedName).allowed then activatedSequence
    else safeFallback
  shouldStop := some fun state => .ok (state.blockedForApproval ||
    state.results.any fun r => r.status == .blocked || r.status == .failed)

def chainOfDebatesStrategy (env : ActivationEnv) : CoordinationStrategy :=
  gatedAdvancedStrategy env .arbitration .chainOfDebates
    [.pharaoh, .horusNexus, .horusNexus, .anubisSentinel, .anubisSentinel, .pharaoh]

def looseCoalitionsStrategy (env : ActivationEnv) : CoordinationStrategy :=
  gatedAdvancedStrategy env .negotiation .looseCoalitions
    [.pharaoh, .horusNexus, .anubisSentinel, .pharaoh]

def aufhebenStrategy (env : ActivationEnv) : CoordinationStrategy :=
  gatedAdvancedStrategy env .negotiation .aufheben
    [.pharaoh, .ra, .anubisSentinel, .pharaoh, .horusNexus, .pharaoh]

def buildAdvancedStrategies (env : ActivationEnv) : List CoordinationStrategy :=
  [chainOfDebatesStrategy env, looseCoalitionsStrategy env, aufhebenStrategy env]

/-! ## What the checks of the source's strategies have in common -/

/-- Unless the gate has blocked, the check does not throw, and stops only on a result that is
    blocked or failed. -/
def CoordinationStrategy.StopsOnBlocked (s : CoordinationStrategy) : Prop :=
  ∀ state : WorkflowState, state.blockedForApproval = false →
    ∃ b, s.stops state = .ok b ∧ (b = true → anyBlockedOrFailed state.results = true)

theorem stopsOnBlocked_of_mem {s : CoordinationStrategy} (h : s ∈ allStrategies) :
    s.StopsOnBlocked := by
  intro state hb
  simp only [allStrategies, List.mem_cons, List.not_mem_nil, or_false] at h
  rcases h with rfl | rfl | rfl | rfl | rfl | rfl
  · exact ⟨_, rfl, fun h => by rwa [hb, Bool.false_or] at h⟩
  · exact ⟨_, rfl, id⟩
  · exact ⟨_, rfl, nofun⟩
  · exact ⟨_, rfl, nofun⟩
  · exact ⟨_, rfl, nofun⟩
  · exact ⟨_, rfl, fun h => absurd (hb.symm.trans h) nofun⟩

theorem stopsOnBlocked_of_advanced {env : ActivationEnv} {s : CoordinationStrategy}
    (h : s ∈ buildAdvancedStrategies env) : s.StopsOnBlocked := by
  have gated (name : CoordinationStrategyName) (advanced : AdvancedStrategyName)
      (seq : List AgentId) : (gatedAdvancedStrategy env name advanced seq).StopsOnBlocked := by
    intro state hb
    refine ⟨_, rfl, fun h => ?_⟩
    rw [hb, Bool.false_or] at h
    exact h
  simp only [buildAdvancedStrategies, List.mem_cons, List.not_mem_nil, or_false] at h
  rcases h with rfl | rfl | rfl
  · exact gated _ _ _
  · exact gated _ _ _
  · exact gated _ _ _

end Harp
