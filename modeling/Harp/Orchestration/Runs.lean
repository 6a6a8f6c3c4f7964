import Harp.Agents.AgentRuns
import Harp.Orchestration.HarpOrchestrator

/-
  What a call of the orchestrator can do.

  `Turn` lists the five ways one pass of the agent loop can go, each with the world it
  leaves behind; `LoopRun` chains passes. `turn_cases` and `agentLoop_runs` say that the
  program does nothing else, so a property of every run is proved by cases on `Turn` and by
  induction on `LoopRun`.

  The agents are any function `Agents ε`; nothing here depends on what they do.
-/

namespace Harp

open Prog

/-- What the orchestrator asked of an agent or of the approval provider, and the answer. -/
inductive Step where
  | agent (agentId : AgentId) (answer : Except Thrown AgentResult)
  | consult (request : ApprovalRequest) (answer : Except Thrown ApprovalDecision)

/-- What the agent or the provider rejected with. -/
def Step.rejection : Step → Option Thrown
  | agent _ (.error e) => some e
  | consult _ (.error e) => some e
  | _ => none

def Step.of : (o : OrchOp) × o.Res → Option Step
  | ⟨.agentExecute agentId _, answer⟩ => some (.agent agentId answer)
  | ⟨.sys (.requestApproval request), answer⟩ => some (.consult request answer)
  | _ => none

/-- The steps among the operations of a run. -/
def steps (tr : List ((o : OrchOp) × o.Res)) : List Step := tr.filterMap Step.of

@[simp] theorem steps_nil : steps [] = [] := rfl

@[simp] theorem steps_append (xs ys : List ((o : OrchOp) × o.Res)) :
    steps (xs ++ ys) = steps xs ++ steps ys := List.filterMap_append

@[simp] theorem steps_agentExecute (a : AgentId) (input : AgentExecuteInput)
    (r : Except Thrown AgentResult) (tr : List ((o : OrchOp) × o.Res)) :
    steps (⟨.agentExecute a input, r⟩ :: tr) = .agent a r :: steps tr := rfl

@[simp] theorem steps_requestApproval (q : ApprovalRequest)
    (d : Except Thrown ApprovalDecision) (tr : List ((o : OrchOp) × o.Res)) :
    steps (⟨.sys (.requestApproval q), d⟩ :: tr) = .consult q d :: steps tr := rfl

@[simp] theorem steps_now (t : String) (tr : List ((o : OrchOp) × o.Res)) :
    steps (⟨.sys .now, t⟩ :: tr) = steps tr := rfl

@[simp] theorem steps_randomUUID (t : String) (tr : List ((o : OrchOp) × o.Res)) :
    steps (⟨.sys .randomUUID, t⟩ :: tr) = steps tr := rfl

@[simp] theorem steps_auditWrite (e : AuditEntry) (r : AuditEvent)
    (tr : List ((o : OrchOp) × o.Res)) :
    steps (⟨.sys (.auditWrite e), r⟩ :: tr) = steps tr := rfl

@[simp] theorem steps_memoryAppend (a : Artifact) (r : Unit)
    (tr : List ((o : OrchOp) × o.Res)) :
    steps (⟨.sys (.memoryAppend a), r⟩ :: tr) = steps tr := rfl

namespace HarpOrchestrator

section

variable {ε : Type} (env : Env ε) (agents : Agents ε) (call : Call)

@[simp] theorem orchHandler_sys (o : SysOp) (w : World ε) :
    orchHandler env agents (.sys o) w = sysHandler env o w := rfl

@[simp] theorem orchHandler_agentExecute (a : AgentId) (input : AgentExecuteInput)
    (w : World ε) : orchHandler env agents (.agentExecute a input) w = agents a input w := rfl

/-! ## The pieces of a pass -/

@[simp] theorem run_appendAll (as : List Artifact) (w : World ε) :
    run (orchHandler env agents) (appendAll as) w = ((), w.memoryAppendAll as) := by
  induction as generalizing w with
  | nil => rfl
  | cons a as ih => simp [appendAll, ih, World.memoryAppendAll]

@[simp] theorem steps_appendAll (as : List Artifact) (w : World ε) :
    steps (trace (orchHandler env agents) (appendAll as) w) = [] := by
  induction as generalizing w with
  | nil => rfl
  | cons a as ih => simp [appendAll, ih]

/-- The gate of the orchestrator always asks the provider. -/
theorem evaluate_approvalRequest (r : AgentResult) :
    ApprovalGate.evaluate (approvalRequest call r) =
      perform (OrchOp.sys (.requestApproval (approvalRequest call r))) := by
  unfold ApprovalGate.evaluate
  rw [show (approvalRequest call r).action = "repo.write" from rfl,
    ApprovalGate.requiresApproval_repo_write, if_pos rfl]

/-- The input an agent gets in a pass that starts in `w` with locals `l`. -/
def agentInput (agentId : AgentId) (l : Locals) (w : World ε) : AgentExecuteInput where
  context := ContextManager.createScopedContext agentId call.task call.projectContext
    l.artifacts (w.now env).1
  workflowId := call.workflowId

/-- The world in which the provider is consulted about `r`, and its answer. -/
def consulted (r : AgentResult) (w : World ε) :
    Except Thrown ApprovalDecision × World ε :=
  (w.memoryAppendAll r.artifacts).requestApproval env (approvalRequest call r)

/-- The artifact that a denial stores, drawn in `w`. -/
def denialArtifact (decision : ApprovalDecision) (w : World ε) : Artifact :=
  approvalArtifact call decision (w.randomUUID env).1 ((w.randomUUID env).2.now env).1

/-- The world after a denial has been stored and audited. -/
def denialWorld (decision : ApprovalDecision) (w : World ε) : World ε :=
  ((((w.randomUUID env).2.now env).2.memoryAppend (denialArtifact env call decision w)).auditWrite
    env (requiredEntry call decision)).2

/-- The result a denial returns. -/
def denialResult (l : Locals) (decision : ApprovalDecision) (w : World ε) : WorkflowResult where
  id := call.workflowId
  task := call.task
  status := .approvalRequired
  strategy := call.strategy.name
  artifacts := l.artifacts ++ [denialArtifact env call decision w]
  agentResults := l.agentResults
  approvalRequired := true
  finalRecommendation := blockedRecommendation
  failure := none
  startedAt := call.startedAt
  completedAt := ((denialWorld env call decision w).now env).1

theorem run_blockForApproval (l : Locals) (decision : ApprovalDecision) (w : World ε) :
    run (orchHandler env agents) (blockForApproval call l decision) w =
      ((denialResult env call l decision w,
        { l with artifacts := l.artifacts ++ [denialArtifact env call decision w] }),
        ((denialWorld env call decision w).now env).2) := rfl

theorem steps_blockForApproval (l : Locals) (decision : ApprovalDecision) (w : World ε) :
    steps (trace (orchHandler env agents) (blockForApproval call l decision) w) = [] := rfl

/-- The early stop never blocks for approval. -/
theorem stopCheck_ne_blocked (call : Call) (l : Locals) (b : WorkflowResult) :
    stopCheck call l ≠ .leave (.blocked b) := by
  unfold stopCheck
  dsimp only
  split <;> simp

/-! ## One pass -/

/-- The ways one pass can go: the agent rejects; an agent other than Ra returns; Ra returns
    and the provider rejects, lets the work pass, or holds it back. -/
inductive Turn (a : AgentId) (l : Locals) (w : World ε) :
    List Step → TurnEnd → Locals → World ε → Prop
  | threw {e : Thrown} {w' : World ε}
      (h : agents a (agentInput env call a l w) (w.now env).2 = (.error e, w')) :
      Turn a l w [.agent a (.error e)] (.leave (.thrown e)) l w'
  | returned {r : AgentResult} {w' : World ε} (hne : a ≠ .ra)
      (h : agents a (agentInput env call a l w) (w.now env).2 = (.ok r, w')) :
      Turn a l w [.agent a (.ok r)] (stopCheck call (l.push a r)) (l.push a r)
        (w'.memoryAppendAll r.artifacts)
  | gateThrew {r : AgentResult} {w' : World ε} {e : Thrown} (ha : a = .ra)
      (h : agents a (agentInput env call a l w) (w.now env).2 = (.ok r, w'))
      (hd : (consulted env call r w').1 = .error e) :
      Turn a l w [.agent a (.ok r), .consult (approvalRequest call r) (.error e)]
        (.leave (.thrown e)) (l.push a r) (consulted env call r w').2
  | passed {r : AgentResult} {w' : World ε} {d : ApprovalDecision} (ha : a = .ra)
      (h : agents a (agentInput env call a l w) (w.now env).2 = (.ok r, w'))
      (hd : (consulted env call r w').1 = .ok d) (hp : d.passes = true) :
      Turn a l w [.agent a (.ok r), .consult (approvalRequest call r) (.ok d)]
        (stopCheck call (l.push a r)) (l.push a r)
        ((consulted env call r w').2.auditWrite env (evaluatedEntry call d)).2
  | denied {r : AgentResult} {w' : World ε} {d : ApprovalDecision} (ha : a = .ra)
      (h : agents a (agentInput env call a l w) (w.now env).2 = (.ok r, w'))
      (hd : (consulted env call r w').1 = .ok d) (hp : d.passes = false) :
      Turn a l w [.agent a (.ok r), .consult (approvalRequest call r) (.ok d)]
        (.leave (.blocked (denialResult env call (l.push a r) d (consulted env call r w').2)))
        { l.push a r with
          artifacts := (l.push a r).artifacts ++
            [denialArtifact env call d (consulted env call r w').2] }
        ((denialWorld env call d (consulted env call r w').2).now env).2

theorem turn_cases (a : AgentId) (l : Locals) (w : World ε) :
    Turn env agents call a l w (steps (trace (orchHandler env agents) (turn call a l) w))
      (run (orchHandler env agents) (turn call a l) w).1.1
      (run (orchHandler env agents) (turn call a l) w).1.2
      (run (orchHandler env agents) (turn call a l) w).2 := by
  unfold turn
  simp only [perform_bind, run_call, trace_call, orchHandler_sys, sysHandler_now,
    orchHandler_agentExecute, steps_now, steps_agentExecute, pure_eq_ret]
  rcases h : agents a (agentInput env call a l w) (w.now env).2 with ⟨e | r, w'⟩
  · have ht := Turn.threw h
    simp only [agentInput] at h
    simpa [h] using ht
  rcases eq_or_ne a .ra with rfl | ha
  · -- Ra returned: the gate asks the provider
    rcases hc : consulted env call r w' with ⟨e | d, wd⟩
    · have ht : Turn env agents call .ra l w _ _ _ _ := .gateThrew rfl h (by rw [hc])
      simp only [agentInput] at h
      rw [hc] at ht
      simp only [consulted] at hc
      simpa [h, hc, enforceApproval, evaluate_approvalRequest, pure_eq_ret] using ht
    · cases hp : d.passes with
      | true =>
        have ht : Turn env agents call .ra l w _ _ _ _ := .passed rfl h (by rw [hc]) hp
        simp only [agentInput] at h
        rw [hc] at ht
        simp only [consulted] at hc
        simpa [h, hc, hp, enforceApproval, evaluate_approvalRequest, pure_eq_ret] using ht
      | false =>
        have ht : Turn env agents call .ra l w _ _ _ _ := .denied rfl h (by rw [hc]) hp
        simp only [agentInput] at h
        rw [hc] at ht
        simp only [consulted] at hc
        simpa [h, hc, hp, enforceApproval, evaluate_approvalRequest, pure_eq_ret,
          run_blockForApproval, steps_blockForApproval] using ht
  · have ht : Turn env agents call a l w _ _ _ _ := .returned ha h
    simp only [agentInput] at h
    simpa [h, ha] using ht

/-! ## The loop -/

/-- The passes of a loop over a sequence of agents: they chain until one leaves the loop. -/
inductive LoopRun : List AgentId → Locals → World ε → List Step → LoopEnd → Locals →
    World ε → Prop
  | done (l : Locals) (w : World ε) : LoopRun [] l w [] .finished l w
  | leave {a : AgentId} {rest : List AgentId} {l l' : Locals} {w w' : World ε}
      {st : List Step} {e : LoopEnd} (ht : Turn env agents call a l w st (.leave e) l' w') :
      LoopRun (a :: rest) l w st e l' w'
  | next {a : AgentId} {rest : List AgentId} {l l' l'' : Locals} {w w' w'' : World ε}
      {st st' : List Step} {e : LoopEnd} (ht : Turn env agents call a l w st .next l' w')
      (hr : LoopRun rest l' w' st' e l'' w'') :
      LoopRun (a :: rest) l w (st ++ st') e l'' w''

theorem agentLoop_runs (seq : List AgentId) (l : Locals) (w : World ε) :
    LoopRun env agents call seq l w
      (steps (trace (orchHandler env agents) (agentLoop call seq l) w))
      (run (orchHandler env agents) (agentLoop call seq l) w).1.1
      (run (orchHandler env agents) (agentLoop call seq l) w).1.2
      (run (orchHandler env agents) (agentLoop call seq l) w).2 := by
  induction seq generalizing l w with
  | nil => exact .done l w
  | cons a rest ih =>
    have ht := turn_cases env agents call a l w
    simp only [agentLoop, run_bind, trace_bind, steps_append]
    rcases hrun : run (orchHandler env agents) (turn call a l) w with ⟨⟨te, l'⟩, w'⟩
    rw [hrun] at ht
    cases te with
    | leave e => simpa [pure_eq_ret] using LoopRun.leave ht
    | next => exact .next ht (ih l' w')

/-! ## The whole call -/

theorem steps_conclude (ended : LoopEnd × Locals) (w : World ε) :
    steps (trace (orchHandler env agents) (conclude call ended) w) = [] := by
  obtain ⟨e, l⟩ := ended
  cases e with
  | finished => rfl
  | blocked => rfl
  | thrown e =>
    cases hr : e.reason <;> simp only [conclude, handleFailure, hr] <;> rfl

theorem run_conclude_blocked (l : Locals) (r : WorkflowResult) (w : World ε) :
    run (orchHandler env agents) (conclude call (.blocked r, l)) w = (.ok r, w) := rfl

/-- A value whose text cannot be read leaves the call at once, with nothing audited. -/
theorem run_conclude_unreadable {e t : Thrown} (he : e.reason = .error t) (l : Locals)
    (w : World ε) :
    run (orchHandler env agents) (conclude call (.thrown e, l)) w = (.error t, w) := by
  simp only [conclude, handleFailure, he]
  rfl

/-- Any other value ends it as failed. -/
theorem run_conclude_readable {e : Thrown} {reason : String} (he : e.reason = .ok reason)
    (l : Locals) (w : World ε) :
    run (orchHandler env agents) (conclude call (.thrown e, l)) w =
      (.ok (run (orchHandler env agents) (failWith call l e reason) w).1,
        (run (orchHandler env agents) (failWith call l e reason) w).2) := by
  simp only [conclude, handleFailure, he, run_bind]
  rfl

/-- What follows the loop performs nothing but the event of its end and a reading of the clock. -/
theorem conclude_meets {P : OrchOp → Prop} {A : (o : OrchOp) → o.Res → Prop}
    (hnow : P (.sys .now)) (hcompleted : ∀ l, P (.sys (.auditWrite (completedEntry call l))))
    (hfailed : ∀ e reason, P (.sys (.auditWrite (failedEntry call e reason))))
    (ended : LoopEnd × Locals) : Meets P A (fun _ => True) (conclude call ended) := by
  obtain ⟨e, l⟩ := ended
  cases e with
  | blocked r => trivial
  | finished => exact ⟨hcompleted l, fun _ _ => ⟨hnow, fun _ _ => trivial⟩⟩
  | thrown e =>
    simp only [conclude, handleFailure]
    cases e.reason with
    | error t => trivial
    | ok reason => exact ⟨hfailed e reason, fun _ _ => ⟨hnow, fun _ _ => trivial⟩⟩

/-- The call returns a result of `Q`. -/
def Resolves (Q : WorkflowResult → Prop) (outcome : Except Thrown WorkflowResult) : Prop :=
  ∃ r, outcome = .ok r ∧ Q r

/-- The world in which the loop starts: the start has been audited. -/
def startedWorld (input : Input) (call : Call) (w : World ε) : World ε :=
  (w.auditWrite env (startedEntry call (StrategySelector.select input.task).rationale
    (call.strategy.selectSequence input.task))).2

/-- A call is its loop followed by `conclude`. -/
theorem executeAs_runs (input : Input) (workflowId startedAt : String) (w : World ε) :
    ∃ e l w', LoopRun env agents (callOf input workflowId startedAt)
        ((strategyFor input).selectSequence input.task) Locals.empty
        (startedWorld env input (callOf input workflowId startedAt) w)
        (steps (trace (orchHandler env agents) (executeAs input workflowId startedAt) w)) e l w' ∧
      run (orchHandler env agents) (executeAs input workflowId startedAt) w =
        run (orchHandler env agents) (conclude (callOf input workflowId startedAt) (e, l)) w' := by
  have hl := agentLoop_runs env agents (callOf input workflowId startedAt)
    ((strategyFor input).selectSequence input.task) Locals.empty
    (startedWorld env input (callOf input workflowId startedAt) w)
  rcases hrun : run (orchHandler env agents) (agentLoop (callOf input workflowId startedAt)
    ((strategyFor input).selectSequence input.task) Locals.empty)
    (startedWorld env input (callOf input workflowId startedAt) w) with ⟨⟨e, l⟩, w'⟩
  rw [hrun] at hl
  refine ⟨e, l, w', ?_, ?_⟩ <;> unfold executeAs
  · simp only [perform_bind, trace_call, trace_bind, orchHandler_sys, sysHandler_auditWrite,
      steps_auditWrite, steps_append, steps_conclude, List.append_nil]
    exact hl
  · simp only [perform_bind, run_call, run_bind, orchHandler_sys, sysHandler_auditWrite]
    exact congrArg (fun p => run (orchHandler env agents)
      (conclude (callOf input workflowId startedAt) p.1) p.2) hrun

end

/-! ## Small inputs, for the runs that are evaluated -/

/-- A low-risk task that cannot be undone. -/
def irreversibleTask : AgentTask where
  id := "t-1"
  title := "Rename"
  description := "Rename a column."
  repo := none
  riskLevel := .low
  requiresRepoWrite := none
  touchesSecrets := none
  reversible := some false

/-- The task without any project context. -/
def bareInput (task : AgentTask) (forceStrategy : Option CoordinationStrategy) : Input where
  task := task
  projectContext := {
    architectureDocs := []
    standardOperatingProcedures := []
    glossary := []
    priorDecisions := []
    openIssues := []
    workflowHistory := [] }
  forceStrategy := forceStrategy

end HarpOrchestrator

end Harp
