import Harp.Core.AgentConfig
import Harp.Orchestration.Strategies
import Mathlib.Algebra.Order.Ring.Unbundled.Rat
import Mathlib.Data.List.Sort

/-
  Strategy selection (`src/orchestration/StrategySelector.ts`). The scores are computed with
  rationals where the source uses doubles.
-/

namespace Harp

structure StrategyScore where
  estimatedTokenCost : ℚ
  estimatedRuntimeMs : ℚ
  expectedQuality : ℚ
  expectedRisk : ℚ
  approvalBurden : ℚ

structure StrategyEvaluation where
  strategy : CoordinationStrategy
  score : StrategyScore
  composite : ℚ
  rationale : String

structure StrategySelection where
  chosen : CoordinationStrategy
  ranking : List StrategyEvaluation
  rationale : String

namespace StrategySelector

def approxTokensPerAgentStep : ℚ := 4000
def approxMsPerAgentStep : ℚ := 1500

def candidates : List CoordinationStrategy :=
  [sequentialReviewStrategy, parallelReviewStrategy, arbitrationStrategy, negotiationStrategy,
    votingStrategy, escalationStrategy]

/-- `{} as AgentTask`, for planners that do not look at the task. -/
def emptyTask : AgentTask where
  id := ""
  title := ""
  description := ""
  repo := none
  riskLevel := .low
  requiresRepoWrite := none
  touchesSecrets := none
  reversible := none

/-- A reviewer runs after Ra. -/
def coversPostBuildReview (strategy : CoordinationStrategy) : Bool :=
  let seq := strategy.selectSequence emptyTask
  match seq.findIdx? (· == .ra) with
  | none => false
  | some raIndex =>
    (seq.drop (raIndex + 1)).any fun id => id == .horusNexus || id == .anubisSentinel

def residualRisk (strategy : CoordinationStrategy) (riskWeight : ℚ) (coversBuildReview : Bool) :
    ℚ :=
  let base := riskWeight / 4
  let mitigation : ℚ :=
    if strategy.name = .sequentialReview then 1 / 2
    else if strategy.name = .escalation then 6 / 10
    else if coversBuildReview then 35 / 100
    else 2 / 10
  max 0 (base * (1 - mitigation))

def rationaleFor (name : CoordinationStrategyName) (task : AgentTask) : String :=
  (match name with
    | .sequentialReview =>
      "Ordered review-build-validate loop; best safety/quality for risky or " ++
        "production-impacting work."
    | .parallelReview =>
      "Independent reviewer assessment for fast, broad triage of lower-risk work."
    | .arbitration => "Pharaoh arbitrates conflicting reviewer recommendations."
    | .negotiation => "Reviewers reconcile tradeoffs over multiple rounds for design decisions."
    | .voting => "Multiple candidate solutions weighed for low-risk implementation choices."
    | .escalation =>
      "Risk/uncertainty exceeds threshold; assess then defer to human approval.") ++
    " (task risk: " ++ task.riskLevel.text ++ ")"

def evaluate (strategy : CoordinationStrategy) (task : AgentTask) : StrategyEvaluation :=
  let steps : ℚ := (strategy.selectSequence task).length
  let riskW := riskWeight task.riskLevel
  let estimatedTokenCost := steps * approxTokensPerAgentStep
  let estimatedRuntimeMs := steps * approxMsPerAgentStep
  let expectedQuality := min 1 (45 / 100 + steps * (8 / 100))
  let expectedRisk := residualRisk strategy riskW (coversPostBuildReview strategy)
  let approvalBurden := min 1 (steps / 7 * (riskW / 4))
  let safetyWeight : ℚ := 45 / 100
  let qualityWeight : ℚ := 2 / 10 + riskW / 4 * (2 / 10)
  let costWeight : ℚ := 15 / 100 * (1 - riskW / 4)
  let timeWeight : ℚ := 5 / 100
  let normCost := 1 - min 1 (estimatedTokenCost / (7 * approxTokensPerAgentStep))
  let normTime := 1 - min 1 (estimatedRuntimeMs / (7 * approxMsPerAgentStep))
  { strategy := strategy
    score := {
      estimatedTokenCost := estimatedTokenCost
      estimatedRuntimeMs := estimatedRuntimeMs
      expectedQuality := expectedQuality
      expectedRisk := expectedRisk
      approvalBurden := approvalBurden }
    composite := safetyWeight * (1 - expectedRisk) + qualityWeight * expectedQuality +
      costWeight * normCost + timeWeight * normTime - 5 / 100 * approvalBurden
    rationale := rationaleFor strategy.name task }

/-- The candidates, best composite first; the sort is stable. -/
def ranking (task : AgentTask) : List StrategyEvaluation :=
  (candidates.map (evaluate · task)).insertionSort fun a b => b.composite ≤ a.composite

def forceEscalation (task : AgentTask) : Bool :=
  task.riskLevel == .critical || task.touchesSecrets == some true ||
    task.reversible == some false

def select (task : AgentTask) : StrategySelection :=
  let ranking := ranking task
  if forceEscalation task then
    -- `find(…)!`: the candidates hold the strategy looked for (`find_escalation`)
    match ranking.find? fun e => e.strategy.name == .escalation with
    | some escalation =>
      { chosen := escalation.strategy
        ranking := ranking
        rationale := "Forced escalation: critical risk, secrets involvement, or irreversible " ++
          "action." }
    | none => { chosen := escalationStrategy, ranking := ranking, rationale := "" }
  else
    -- `ranking[0]!`
    match ranking with
    | best :: _ => { chosen := best.strategy, ranking := ranking, rationale := best.rationale }
    | [] => { chosen := escalationStrategy, ranking := ranking, rationale := "" }

theorem mem_ranking (task : AgentTask) (e : StrategyEvaluation) :
    e ∈ ranking task ↔ ∃ s ∈ candidates, evaluate s task = e := by
  unfold ranking
  rw [List.mem_insertionSort, List.mem_map]

/-- A ranked strategy is one of the candidates. -/
theorem strategy_of_mem_ranking {task : AgentTask} {e : StrategyEvaluation}
    (h : e ∈ ranking task) : e.strategy ∈ candidates := by
  obtain ⟨s, hs, rfl⟩ := (mem_ranking task e).mp h
  exact hs

theorem escalation_of_name {s : CoordinationStrategy} (h : s ∈ candidates)
    (hn : s.name = .escalation) : s = escalationStrategy := by
  simp only [candidates, List.mem_cons, List.not_mem_nil, or_false] at h
  rcases h with rfl | rfl | rfl | rfl | rfl | rfl <;>
    first | rfl | exact absurd hn (by decide)

/-- The `find` under a forced escalation succeeds, with the escalation strategy. -/
theorem find_escalation (task : AgentTask) :
    ∃ e, (ranking task).find? (fun e => e.strategy.name == .escalation) = some e ∧
      e.strategy = escalationStrategy := by
  have hmem : evaluate escalationStrategy task ∈ ranking task :=
    (mem_ranking task _).mpr ⟨_, by simp [candidates], rfl⟩
  cases hf : (ranking task).find? (fun e => e.strategy.name == .escalation) with
  | none => exact absurd rfl (List.find?_eq_none.mp hf _ hmem)
  | some e =>
    refine ⟨e, rfl, ?_⟩
    have hname : e.strategy.name = .escalation := by simpa using List.find?_some hf
    exact escalation_of_name (strategy_of_mem_ranking (List.mem_of_find?_eq_some hf)) hname

theorem select_forced {task : AgentTask} (h : forceEscalation task = true) :
    (select task).chosen = escalationStrategy := by
  obtain ⟨e, he, hs⟩ := find_escalation task
  unfold select
  simp only [h, if_true, he, hs]

/-- Whatever the task, the selected strategy is one of the six. -/
theorem select_mem (task : AgentTask) : (select task).chosen ∈ candidates := by
  by_cases h : forceEscalation task = true
  · rw [select_forced h]; simp [candidates]
  · unfold select
    simp only [h]
    cases hr : ranking task with
    | nil => simp [candidates]
    | cons best rest =>
      exact strategy_of_mem_ranking (hr ▸ List.mem_cons_self)

end StrategySelector

end Harp
