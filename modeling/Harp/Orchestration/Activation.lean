import Harp.Orchestration.ApprovalFloor
import Harp.Orchestration.TokenBudget

/-
  The activation of the advanced strategies, inside a workflow
  (`src/orchestration/strategies/advanced/`).

  The policy has two entry points: `evaluate`, which only decides, and `authorize`, which also
  audits the decision. A gated strategy asks `evaluate`, so a refused strategy does run the
  safe fallback, and no event of the run says that it was refused: `Passes.actions` lists all
  that a call audits. `refusal_audited_iff` gives the runs after which the log does hold one.
-/

namespace Harp

open Prog

namespace StrategyActivationPolicy

/-- Whom `authorize` is asked for. -/
structure Context where
  workflowId : Option String
  taskId : Option String

/-- The event of a decision. -/
def activationEntry (vars : ActivationEnv) (name : AdvancedStrategyName) (context : Context) :
    AuditEntry where
  actor := .system
  action := if (evaluate vars name).allowed then "strategy.activated"
    else "strategy.activation_refused"
  target := some name.text
  workflowId := context.workflowId
  taskId := context.taskId
  riskLevel := none
  approvalState := none
  details := [("reason", .text (evaluate vars name).reason)]

/-- Check and emit an audit event, in a policy that was built with the audit log. -/
def authorize (vars : ActivationEnv) (name : AdvancedStrategyName) (context : Context) :
    SysProg ActivationVerdict := do
  let verdict := evaluate vars name
  let _ ← perform (SysOp.auditWrite (activationEntry vars name context))
  pure verdict

/-- The log holds a refusal of the strategy for the workflow. -/
def RefusalIn (log : InMemoryAuditLogger) (name : AdvancedStrategyName) (workflowId : String) :
    Prop :=
  ∃ e ∈ log.list, e.action = "strategy.activation_refused" ∧ e.target = some name.text ∧
    e.workflowId = some workflowId

/-- `authorize` audits its refusals. -/
theorem authorize_refusal {ε : Type} (env : Env ε) {vars : ActivationEnv}
    {name : AdvancedStrategyName} (h : (evaluate vars name).allowed = false) (workflowId : String)
    (taskId : Option String) (w : World ε) :
    RefusalIn (run (sysHandler env) (authorize vars name ⟨some workflowId, taskId⟩) w).2.auditLogger
      name workflowId := by
  refine ⟨(w.auditWrite env (activationEntry vars name ⟨some workflowId, taskId⟩)).1, ?_, ?_⟩
  · exact List.mem_append_right _ List.mem_cons_self
  · simp [activationEntry, h]

end StrategyActivationPolicy

/-- The advanced strategy of a name. -/
def advancedStrategy (vars : ActivationEnv) : AdvancedStrategyName → CoordinationStrategy
  | .chainOfDebates => chainOfDebatesStrategy vars
  | .looseCoalitions => looseCoalitionsStrategy vars
  | .aufheben => aufhebenStrategy vars

theorem mem_buildAdvancedStrategies {vars : ActivationEnv} {s : CoordinationStrategy} :
    s ∈ buildAdvancedStrategies vars ↔ ∃ name, s = advancedStrategy vars name := by
  constructor
  · intro h
    simp only [buildAdvancedStrategies, List.mem_cons, List.not_mem_nil, or_false] at h
    rcases h with rfl | rfl | rfl
    · exact ⟨.chainOfDebates, rfl⟩
    · exact ⟨.looseCoalitions, rfl⟩
    · exact ⟨.aufheben, rfl⟩
  · rintro ⟨name, rfl⟩
    cases name <;> simp [advancedStrategy, buildAdvancedStrategies]

/-- A refused strategy plans the safe fallback. -/
theorem selectSequence_refused {vars : ActivationEnv} {name : AdvancedStrategyName}
    (h : (StrategyActivationPolicy.evaluate vars name).allowed = false) (task : AgentTask) :
    (advancedStrategy vars name).selectSequence task = safeFallback := by
  have hgated (n : CoordinationStrategyName) (seq : List AgentId) :
      (gatedAdvancedStrategy vars n name seq).selectSequence task = safeFallback := by
    unfold gatedAdvancedStrategy
    simp [h]
  cases name
  · exact hgated _ _
  · exact hgated _ _
  · exact hgated _ _

namespace HarpOrchestrator

/-! ## Which agents a run asks -/

/-- The agents that were run, in order. -/
def ran (st : List Step) : List AgentId := (agentSteps st).map (·.1)

theorem ran_append (xs ys : List Step) : ran (xs ++ ys) = ran xs ++ ran ys := by
  unfold ran
  rw [agentSteps_append, List.map_append]

theorem Pass.ran {call : Call} {a : AgentId} {l l' : Locals} {rec : Record} {te : TurnEnd}
    (h : Pass call a l rec te l') : ran rec.steps = [a] := by
  cases h <;> rfl

/-- A loop runs the agents of its sequence, in order, up to where it is left. -/
theorem Passes.ran {call : Call} {seq : List AgentId} {l l' : Locals} {rec : Record}
    {e : LoopEnd} (h : Passes call seq l rec e l') : ran rec.steps <+: seq := by
  induction h with
  | done => exact List.nil_prefix
  | @leave a rest _ _ _ _ h =>
    rw [h.ran]
    exact List.prefix_append [a] rest
  | @next a rest _ _ _ _ _ _ h _ ih =>
    rw [Record.steps_append, ran_append, h.ran]
    exact (List.prefix_append_right_inj [a]).mpr ih

/-! ## What a refused activation leaves -/

/-- The run executed the safe fallback: its agents in that order, up to where the run was left,
    and all of them if it completed without a blocked or failed result. -/
structure FellBack (st : List Step) (outcome : Except Thrown WorkflowResult) : Prop where
  order : HarpOrchestrator.ran st <+: safeFallback
  whole : ∀ r, outcome = .ok r → r.status = .completed →
    anyBlockedOrFailed r.agentResults = false → r.agentResults.map (·.agentId) = safeFallback

/-- A call with a gated strategy. -/
def gatedInput (vars : ActivationEnv) (name : AdvancedStrategyName) (task : AgentTask)
    (projectContext : ProjectContext) : Input where
  task := task
  projectContext := projectContext
  forceStrategy := some (advancedStrategy vars name)

section

variable {ε : Type} (env : Env ε) (budget : Nat) {vars : ActivationEnv}
  {name : AdvancedStrategyName} (task : AgentTask) (projectContext : ProjectContext) (w : World ε)

/-- A run whose strategy is refused falls back. -/
theorem refused_fellBack (h : (StrategyActivationPolicy.evaluate vars name).allowed = false) :
    let input := gatedInput vars name task projectContext
    FellBack (steps (trace (systemHandler env budget) (execute input) w))
      (run (systemHandler env budget) (execute input) w).1 := by
  intro input
  obtain ⟨rec, e, l, es, hp, hend, hst, -, -⟩ := execute_passes env budget input w
  have hseq : (strategyFor input).selectSequence input.task = safeFallback :=
    selectSequence_refused h task
  have hstop : (strategyFor input).StopsOnBlocked :=
    stopsOnBlocked_of_advanced (mem_buildAdvancedStrategies.mpr ⟨name, rfl⟩)
  rw [hseq] at hp
  constructor
  · rw [← hst]
    exact hp.ran
  · intro r hok hc hb
    rw [hok] at hend
    have hr := hp.reports hend
    rw [hr.agentResults] at hb ⊢
    rw [hr.status] at hc
    cases e with
    | blocked => cases hc
    | thrown => cases hc
    | finished =>
      obtain ⟨-, hids | hstopped⟩ := hp.finished hstop (by simp [Answered, Locals.empty])
      · simpa [Locals.empty] using hids
      · rw [hb] at hstopped
        cases hstopped

/-- A run adds no refusal to the log. -/
theorem refusalIn_execute (input : Input) (workflowId : String) :
    StrategyActivationPolicy.RefusalIn
        (run (systemHandler env budget) (execute input) w).2.auditLogger name workflowId ↔
      StrategyActivationPolicy.RefusalIn w.auditLogger name workflowId := by
  obtain ⟨evs, hevs, hactions⟩ := execute_actions env budget input w
  unfold StrategyActivationPolicy.RefusalIn InMemoryAuditLogger.list
  rw [hevs]
  constructor
  · rintro ⟨e, he, haction, hrest⟩
    rcases List.mem_append.mp he with he | he
    · exact ⟨e, he, haction, hrest⟩
    · have hmem := hactions e he
      rw [haction] at hmem
      exact absurd hmem (by decide)
  · rintro ⟨e, he, hrest⟩
    exact ⟨e, List.mem_append_left _ he, hrest⟩

/-- The id of a result is the one that the run drew. -/
theorem execute_id (input : Input) {r : WorkflowResult}
    (hr : (run (systemHandler env budget) (execute input) w).1 = .ok r) :
    r.id = ((w.now env).2.randomUUID env).1 := by
  obtain ⟨rec, e, l, es, hp, hend, -, -, -⟩ := execute_passes env budget input w
  rw [hr] at hend
  exact (hp.reports hend).id

/-- A refused activation falls back and is audited for the workflow of the run, exactly when the
    strategy is allowed, or the log held such a refusal already when the run drew its id. -/
theorem refusal_audited_iff (vars : ActivationEnv) (name : AdvancedStrategyName) :
    let input := gatedInput vars name task projectContext
    let out := run (systemHandler env budget) (execute input) w
    let workflowId := ((w.now env).2.randomUUID env).1
    (∀ r, out.1 = .ok r → r.id = workflowId) ∧
      (((StrategyActivationPolicy.evaluate vars name).allowed = false →
          FellBack (steps (trace (systemHandler env budget) (execute input) w)) out.1 ∧
            StrategyActivationPolicy.RefusalIn out.2.auditLogger name workflowId) ↔
        (StrategyActivationPolicy.evaluate vars name).allowed = true ∨
          StrategyActivationPolicy.RefusalIn w.auditLogger name workflowId) := by
  intro input out workflowId
  refine ⟨fun r hr => execute_id env budget w input hr, ?_⟩
  rw [refusalIn_execute]
  cases hallowed : (StrategyActivationPolicy.evaluate vars name).allowed with
  | true => simp
  | false =>
    have hback := refused_fellBack env budget task projectContext w hallowed
    constructor
    · intro h
      exact .inr (h rfl).2
    · rintro (h | h)
      · cases h
      · exact fun _ => ⟨hback, h⟩

end

/-- No variable of the policy is set. -/
def unsetVars : ActivationEnv where
  harpEnableAdvancedStrategies := none
  harpEnabledStrategies := none
  harpModelValidated := none

/-- With no variable set, a run of the dialectical protocol falls back without a word of it in
    the log. -/
theorem refusal_unaudited :
    let input := gatedInput unsetVars .aufheben irreversibleTask
      (bareInput irreversibleTask none).projectContext
    let out := run (systemHandler (Env.constant "{}" true) 200000) (execute input)
      (World.create ())
    (StrategyActivationPolicy.evaluate unsetVars .aufheben).allowed = false ∧
      ∃ r, out.1 = .ok r ∧ r.agentResults.map (·.agentId) = safeFallback ∧
        ¬ StrategyActivationPolicy.RefusalIn out.2.auditLogger .aufheben r.id := by
  intro input out
  have hback : (run (systemHandler (Env.constant "{}" true) 200000)
      (execute (gatedInput unsetVars .aufheben irreversibleTask
        (bareInput irreversibleTask none).projectContext)) (World.create ())).1.toOption.any
      (fun r => r.agentResults.map (·.agentId) = safeFallback) = true := by decide +kernel
  obtain ⟨r, hr, hids⟩ := exists_of_any hback
  refine ⟨by decide, r, hr, of_decide_eq_true hids, ?_⟩
  rw [refusalIn_execute]
  rintro ⟨e, he, -⟩
  exact List.not_mem_nil he

end HarpOrchestrator

end Harp
