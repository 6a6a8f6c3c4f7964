import Harp.Agents.AgentRuns
import Harp.Orchestration.Runs

/-
  What a call can do when the agents are the four of the system.

  `Pass` lists the ways one pass of the loop can go, without the worlds in between: the
  record of what was asked, answered, audited and stored, and the locals it leaves. `Passes`
  chains them and `Ending` adds the end of the call. `executeAs_passes` says that every call
  of the system has such a description, so the properties of whole calls that follow are
  proved by induction on `Passes` alone.
-/

namespace Harp

open Prog

/-- What a stretch of a call leaves behind. -/
structure Record where
  steps : List Step
  exchanges : List Exchange
  entries : List AuditEntry
  artifacts : List Artifact

namespace Record

def empty : Record := ⟨[], [], [], []⟩

def append (r s : Record) : Record :=
  ⟨r.steps ++ s.steps, r.exchanges ++ s.exchanges, r.entries ++ s.entries,
    r.artifacts ++ s.artifacts⟩

instance : Append Record := ⟨append⟩

@[simp] theorem steps_append (r s : Record) : (r ++ s).steps = r.steps ++ s.steps := rfl
@[simp] theorem exchanges_append (r s : Record) :
    (r ++ s).exchanges = r.exchanges ++ s.exchanges := rfl
@[simp] theorem entries_append (r s : Record) : (r ++ s).entries = r.entries ++ s.entries := rfl
@[simp] theorem artifacts_append (r s : Record) :
    (r ++ s).artifacts = r.artifacts ++ s.artifacts := rfl

end Record

/-- The stores of `w'` are those of `w` with what `rec` lists added at the ends. -/
structure Wrote {ε : Type} (w w' : World ε) (rec : Record) : Prop where
  events : ∃ evs, w'.auditLogger.events = w.auditLogger.events ++ evs ∧
    evs.map (·.toAuditEntry) = rec.entries
  artifacts : w'.memoryStore.artifacts = w.memoryStore.artifacts ++ rec.artifacts

/-- The same for the stores and the exchanges. -/
structure Extends {ε : Type} (w w' : World (ε × List Exchange)) (rec : Record) : Prop
    extends Wrote w w' rec where
  exchanges : w'.env.2 = w.env.2 ++ rec.exchanges

namespace Extends

variable {ε : Type} {w w' w'' : World (ε × List Exchange)} {r s : Record}

theorem trans (h : Extends w w' r) (h' : Extends w' w'' s) : Extends w w'' (r ++ s) := by
  obtain ⟨evs, he, hm⟩ := h.events
  obtain ⟨evs', he', hm'⟩ := h'.events
  refine ⟨⟨⟨evs ++ evs', ?_, ?_⟩, ?_⟩, ?_⟩
  · simp [he', he]
  · simp [hm, hm']
  · simp [h'.artifacts, h.artifacts]
  · simp [h'.exchanges, h.exchanges]

/-- The steps of a record say nothing about the worlds. -/
theorem of_eq (h : Extends w w' r) (hx : r.exchanges = s.exchanges) (he : r.entries = s.entries)
    (ha : r.artifacts = s.artifacts) : Extends w w' s :=
  ⟨⟨he ▸ h.events, ha ▸ h.artifacts⟩, hx ▸ h.exchanges⟩

/-- Worlds that differ in nothing the record speaks of. -/
theorem same (hx : w'.env.2 = w.env.2) (he : w'.auditLogger = w.auditLogger)
    (ha : w'.memoryStore = w.memoryStore) : Extends w w' .empty :=
  ⟨⟨⟨[], by simp [he], rfl⟩, by simp [ha, Record.empty]⟩, by simp [hx, Record.empty]⟩

theorem refl : Extends w w .empty := same rfl rfl rfl

variable (env : Env ε)

theorem now : Extends w (w.now env.recorded).2 .empty := same rfl rfl rfl

theorem randomUUID : Extends w (w.randomUUID env.recorded).2 .empty := same rfl rfl rfl

theorem recordCall (key : String) (total : Nat) (q : ModelRequest) (a : ModelResponse) :
    Extends w (w.recordCall env.recorded key total q a) .empty := same rfl rfl rfl

theorem auditWrite (e : AuditEntry) :
    Extends w (w.auditWrite env.recorded e).2 ⟨[], [], [e], []⟩ :=
  ⟨⟨⟨[_], rfl, rfl⟩, (List.append_nil _).symm⟩, (List.append_nil _).symm⟩

theorem memoryAppendAll (as : List Artifact) :
    Extends w (w.memoryAppendAll as) ⟨[], [], [], as⟩ :=
  ⟨⟨⟨[], by simp, rfl⟩, artifacts_memoryAppendAll w as⟩, by simp⟩

theorem providerGenerate {q : ModelRequest} {a : Except Thrown ModelResponse}
    (h : w.providerGenerate env.recorded q = (a, w')) :
    Extends w w' ⟨[], [.model q a], [], []⟩ := by
  unfold World.providerGenerate at h
  obtain ⟨rfl, rfl⟩ := Prod.mk.inj h
  exact ⟨⟨⟨[], (List.append_nil _).symm, rfl⟩, (List.append_nil _).symm⟩, rfl⟩

theorem requestApproval {q : ApprovalRequest} {a : Except Thrown ApprovalDecision}
    (h : (w.requestApproval env.recorded q).1 = a) :
    Extends w (w.requestApproval env.recorded q).2 ⟨[], [.approval q a], [], []⟩ := by
  subst h
  exact ⟨⟨⟨[], (List.append_nil _).symm, rfl⟩, (List.append_nil _).symm⟩, rfl⟩

end Extends

namespace HarpOrchestrator

/-! ## One pass -/

/-- A result that reports the locals `l` of `call`. -/
structure Reports (call : Call) (l : Locals) (status : WorkflowStatus) (approvalRequired : Bool)
    (r : WorkflowResult) : Prop where
  id : r.id = call.workflowId
  status : r.status = status
  artifacts : r.artifacts = l.artifacts
  agentResults : r.agentResults = l.agentResults
  approvalRequired : r.approvalRequired = approvalRequired

/-- The input an agent gets is about the call's task and workflow. -/
structure Fits (call : Call) (input : AgentExecuteInput) : Prop where
  task : input.context.task = call.task
  workflowId : input.workflowId = call.workflowId

theorem agentInput_fits {ε : Type} (env : Env ε) (call : Call) (a : AgentId) (l : Locals)
    (w : World ε) : Fits call (agentInput env call a l w) :=
  ⟨ContextManager.createScopedContext_task _ _ _ _ _, rfl⟩

/-- The record of an agent that was not answered. -/
def unanswered (a : AgentId) (input : AgentExecuteInput) (exchanges : List Exchange)
    (e : Thrown) : Record where
  steps := [.agent a (.error e)]
  exchanges := exchanges
  entries := [HarpAgent.startedEntry a input]
  artifacts := []

/-- The result of an agent that was answered `text`. -/
def answer (call : Call) (a : AgentId) (text : String) (artifact : Artifact) : AgentResult :=
  HarpAgent.resultOf a call.task text artifact

/-- The record of an agent that was answered. -/
def answered (call : Call) (a : AgentId) (input : AgentExecuteInput) (response : ModelResponse)
    (artifact : Artifact) : Record where
  steps := [.agent a (.ok (answer call a response.text artifact))]
  exchanges := [.model (HarpAgent.modelRequest a input) (.ok response)]
  entries := [HarpAgent.startedEntry a input, HarpAgent.completedEntry a input
    (answer call a response.text artifact) (HarpAgent.accepts response.text)]
  artifacts := [artifact]

/-- The record of the gate after a result `r`, and what the gate audits and stores. -/
def gated (call : Call) (r : AgentResult) (decision : Except Thrown ApprovalDecision)
    (entries : List AuditEntry) (artifacts : List Artifact) : Record where
  steps := [.consult (approvalRequest call r) decision]
  exchanges := [.approval (approvalRequest call r) decision]
  entries := entries
  artifacts := artifacts

/-- The locals after a denial stored `artifact`. -/
def Locals.deny (l : Locals) (artifact : Artifact) : Locals :=
  { l with artifacts := l.artifacts ++ [artifact] }

/-- The ways one pass can go: the budget refuses the agent or the provider rejects it; an
    agent other than Ra is answered; Ra is answered and the gate throws, passes or denies. -/
inductive Pass (call : Call) (a : AgentId) (l : Locals) : Record → TurnEnd → Locals → Prop
  | refused {input : AgentExecuteInput} (hin : Fits call input) (used budget : Nat) :
      Pass call a l
        (unanswered a input [] (.tokenBudgetExceeded call.workflowId used budget))
        (.leave (.thrown (.tokenBudgetExceeded call.workflowId used budget))) l
  | rejected {input : AgentExecuteInput} (hin : Fits call input) (e : Thrown) :
      Pass call a l
        (unanswered a input [.model (HarpAgent.modelRequest a input) (.error e)] e)
        (.leave (.thrown e)) l
  | returned {input : AgentExecuteInput} (hin : Fits call input) (hne : a ≠ .ra)
      (response : ModelResponse) {artifact : Artifact}
      (hart : artifact.workflowId = call.workflowId) :
      Pass call a l (answered call a input response artifact)
        (stopCheck call (l.push a (answer call a response.text artifact)))
        (l.push a (answer call a response.text artifact))
  | gateThrew {input : AgentExecuteInput} (hin : Fits call input) (ha : a = .ra)
      (response : ModelResponse) {artifact : Artifact}
      (hart : artifact.workflowId = call.workflowId) (e : Thrown) :
      Pass call a l
        (answered call a input response artifact ++
          gated call (answer call a response.text artifact) (.error e) [] [])
        (.leave (.thrown e)) (l.push a (answer call a response.text artifact))
  | passed {input : AgentExecuteInput} (hin : Fits call input) (ha : a = .ra)
      (response : ModelResponse) {artifact : Artifact}
      (hart : artifact.workflowId = call.workflowId) {d : ApprovalDecision}
      (hd : d.passes = true) :
      Pass call a l
        (answered call a input response artifact ++
          gated call (answer call a response.text artifact) (.ok d) [evaluatedEntry call d] [])
        (stopCheck call (l.push a (answer call a response.text artifact)))
        (l.push a (answer call a response.text artifact))
  | denied {input : AgentExecuteInput} (hin : Fits call input) (ha : a = .ra)
      (response : ModelResponse) {artifact : Artifact}
      (hart : artifact.workflowId = call.workflowId) {d : ApprovalDecision}
      (hd : d.passes = false) {request : Artifact} (hreq : request.workflowId = call.workflowId)
      {b : WorkflowResult}
      (hb : Reports call ((l.push a (answer call a response.text artifact)).deny request)
        .approvalRequired true b) :
      Pass call a l
        (answered call a input response artifact ++
          gated call (answer call a response.text artifact) (.ok d) [requiredEntry call d]
            [request])
        (.leave (.blocked b)) ((l.push a (answer call a response.text artifact)).deny request)

/-- The ways a pass can go after which the loop goes on. -/
inductive Onward (call : Call) (a : AgentId) (l : Locals) : Record → Locals → Prop
  | returned {input : AgentExecuteInput} (hin : Fits call input) (hne : a ≠ .ra)
      (response : ModelResponse) {artifact : Artifact}
      (hart : artifact.workflowId = call.workflowId)
      (hgo : stopCheck call (l.push a (answer call a response.text artifact)) = .next) :
      Onward call a l (answered call a input response artifact)
        (l.push a (answer call a response.text artifact))
  | passed {input : AgentExecuteInput} (hin : Fits call input) (ha : a = .ra)
      (response : ModelResponse) {artifact : Artifact}
      (hart : artifact.workflowId = call.workflowId) {d : ApprovalDecision}
      (hd : d.passes = true)
      (hgo : stopCheck call (l.push a (answer call a response.text artifact)) = .next) :
      Onward call a l
        (answered call a input response artifact ++
          gated call (answer call a response.text artifact) (.ok d) [evaluatedEntry call d] [])
        (l.push a (answer call a response.text artifact))

theorem Pass.onward {call : Call} {a : AgentId} {l l' : Locals} {rec : Record}
    (h : Pass call a l rec .next l') : Onward call a l rec l' := by
  generalize hte : TurnEnd.next = te at h
  cases h with
  | refused => cases hte
  | rejected => cases hte
  | gateThrew => cases hte
  | denied => cases hte
  | returned hin hne response hart => exact .returned hin hne response hart hte.symm
  | passed hin ha response hart hd => exact .passed hin ha response hart hd hte.symm

section

variable {ε : Type} (env : Env ε) (budget : Nat) (call : Call)

/-- An agent that returned: its record, and the world after its artifacts are stored. -/
theorem agent_answered {a : AgentId} {input : AgentExecuteInput} (hin : Fits call input)
    {w w' : World (ε × List Exchange)} {r : AgentResult}
    (h : coreFour env.recorded budget a input w = (.ok r, w')) :
    ∃ response artifact, artifact.workflowId = call.workflowId ∧
      r = answer call a response.text artifact ∧
      Extends w (w'.memoryAppendAll r.artifacts) (answered call a input response artifact) := by
  have hr := HarpAgent.execute_runs env.recorded a input budget w
  rw [show run (sysHandler env.recorded) (HarpAgent.execute budget a input) w = (.ok r, w')
    from h] at hr
  generalize hok : Except.ok r = answer' at hr
  cases hr with
  | refused => cases hok
  | rejected => cases hok
  | @answered response wp total artifact hp ha =>
    obtain rfl := Except.ok.inj hok
    refine ⟨response, artifact, ha.trans hin.workflowId, by rw [answer, hin.task], ?_⟩
    have hx := (Extends.auditWrite (w := w) env (HarpAgent.startedEntry a input)).trans
      ((Extends.providerGenerate env hp).trans
        ((Extends.recordCall env input.workflowId total (HarpAgent.modelRequest a input)
          response).trans ((Extends.randomUUID env).trans ((Extends.now env).trans
            ((Extends.auditWrite env (HarpAgent.completedEntry a input
              (HarpAgent.resultOf a input.context.task response.text artifact)
              (HarpAgent.accepts response.text))).trans
              (Extends.memoryAppendAll [artifact]))))))
    rw [hin.task] at hx ⊢
    rw [HarpAgent.resultOf_artifacts]
    exact hx.of_eq rfl rfl rfl

/-- An agent that threw: it was refused or rejected before anything but its start. -/
theorem agent_unanswered {a : AgentId} {input : AgentExecuteInput} (hin : Fits call input)
    {w w' : World (ε × List Exchange)} {e : Thrown} (l : Locals)
    (h : coreFour env.recorded budget a input w = (.error e, w')) :
    ∃ rec, Pass call a l rec (.leave (.thrown e)) l ∧ rec.steps = [.agent a (.error e)] ∧
      Extends w w' rec := by
  have hr := HarpAgent.execute_runs env.recorded a input budget w
  rw [show run (sysHandler env.recorded) (HarpAgent.execute budget a input) w = (.error e, w')
    from h] at hr
  generalize hok : Except.error e = answer' at hr
  cases hr with
  | refused used budget =>
    obtain rfl := Except.error.inj hok
    rw [hin.workflowId]
    have hx := Extends.auditWrite env (w := w) (HarpAgent.startedEntry a input)
    exact ⟨_, .refused hin used budget, rfl, hx.of_eq rfl rfl rfl⟩
  | rejected hp =>
    obtain rfl := Except.error.inj hok
    have hx := (Extends.auditWrite (w := w) env (HarpAgent.startedEntry a input)).trans
      (Extends.providerGenerate env hp)
    exact ⟨_, .rejected hin e, rfl, hx.of_eq rfl rfl rfl⟩
  | answered => cases hok

/-- What a denial writes. -/
theorem denial_extends (d : ApprovalDecision) (w : World (ε × List Exchange)) :
    Extends w ((denialWorld env.recorded call d w).now env.recorded).2
      ⟨[], [], [requiredEntry call d], [denialArtifact env.recorded call d w]⟩ := by
  have h := (Extends.randomUUID env (w := w)).trans ((Extends.now env).trans
    ((Extends.memoryAppendAll [denialArtifact env.recorded call d w]).trans
      ((Extends.auditWrite env (requiredEntry call d)).trans (Extends.now env))))
  exact h.of_eq rfl rfl rfl

/-- Every pass of the system is one of the ways of `Pass`. -/
theorem Turn.pass {a : AgentId} {l l' : Locals} {w w' : World (ε × List Exchange)}
    {st : List Step} {te : TurnEnd}
    (h : Turn env.recorded (coreFour env.recorded budget) call a l w st te l' w') :
    ∃ rec, Pass call a l rec te l' ∧ rec.steps = st ∧ Extends w w' rec := by
  have hin := agentInput_fits env.recorded call a l w
  have hnow := Extends.now env (w := w)
  cases h with
  | threw h =>
    obtain ⟨rec, hp, hs, hx⟩ := agent_unanswered env budget call hin l h
    exact ⟨rec, hp, hs, hnow.trans hx⟩
  | returned hne h =>
    obtain ⟨response, artifact, hart, rfl, hx⟩ := agent_answered env budget call hin h
    exact ⟨_, .returned hin hne response hart, rfl, hnow.trans hx⟩
  | gateThrew ha h hd =>
    obtain ⟨response, artifact, hart, rfl, hx⟩ := agent_answered env budget call hin h
    have hg := hnow.trans (hx.trans (Extends.requestApproval env hd))
    exact ⟨_, .gateThrew hin ha response hart _, rfl, hg.of_eq rfl rfl rfl⟩
  | @passed r w₁ d ha h hd hp =>
    obtain ⟨response, artifact, hart, rfl, hx⟩ := agent_answered env budget call hin h
    have hg := hnow.trans (hx.trans ((Extends.requestApproval env hd).trans
      (Extends.auditWrite env (evaluatedEntry call d))))
    exact ⟨_, .passed hin ha response hart hp, rfl, hg.of_eq rfl rfl rfl⟩
  | @denied r w₁ d ha h hd hp =>
    obtain ⟨response, artifact, hart, rfl, hx⟩ := agent_answered env budget call hin h
    have hg := hnow.trans (hx.trans ((Extends.requestApproval env hd).trans
      (denial_extends env call d (consulted env.recorded call _ w₁).2)))
    exact ⟨_, .denied hin ha response hart hp rfl ⟨rfl, rfl, rfl, rfl, rfl⟩, rfl,
      hg.of_eq rfl rfl rfl⟩

end

/-! ## The loop and the end -/

/-- Passes that chain until one leaves the loop. -/
inductive Passes (call : Call) : List AgentId → Locals → Record → LoopEnd → Locals → Prop
  | done (l : Locals) : Passes call [] l .empty .finished l
  | leave {a : AgentId} {rest : List AgentId} {l l' : Locals} {rec : Record} {e : LoopEnd}
      (h : Pass call a l rec (.leave e) l') : Passes call (a :: rest) l rec e l'
  | next {a : AgentId} {rest : List AgentId} {l l' l'' : Locals} {rec rec' : Record}
      {e : LoopEnd} (h : Pass call a l rec .next l') (hr : Passes call rest l' rec' e l'') :
      Passes call (a :: rest) l (rec ++ rec') e l''

theorem LoopRun.passes {ε : Type} {env : Env ε} {budget : Nat} {call : Call}
    {seq : List AgentId} {l l' : Locals} {w w' : World (ε × List Exchange)} {st : List Step}
    {e : LoopEnd}
    (h : LoopRun env.recorded (coreFour env.recorded budget) call seq l w st e l' w') :
    ∃ rec, Passes call seq l rec e l' ∧ rec.steps = st ∧ Extends w w' rec := by
  induction h with
  | done l w =>
    exact ⟨_, .done l, rfl, .refl⟩
  | leave ht =>
    obtain ⟨rec, hp, hs, hx⟩ := ht.pass
    exact ⟨rec, .leave hp, hs, hx⟩
  | next ht _ ih =>
    obtain ⟨rec, hp, rfl, hx⟩ := ht.pass
    obtain ⟨rec', hp', rfl, hx'⟩ := ih
    exact ⟨rec ++ rec', .next hp hp', rfl, hx.trans hx'⟩

/-! ## Keeping the exchanges changes nothing -/

section

variable {ε : Type} (env : Env ε) (budget : Nat)

/-- How the operations of the orchestrator are answered when the agents are the four. -/
abbrev systemHandler : Handler OrchOp OrchOp.Res (World ε) :=
  orchHandler env (coreFour env budget)

theorem systemHandler_forget (o : OrchOp) (w : World (ε × List Exchange)) :
    systemHandler env budget o w.forget = ((systemHandler env.recorded budget o w).1,
      (systemHandler env.recorded budget o w).2.forget) := by
  cases o with
  | sys o => exact sysHandler_forget env o w
  | agentExecute a input => exact run_map _ World.forget (sysHandler_forget env) _ w

variable {α : Type} (p : OrchProg α) (w : World ε)

/-- What the providers were asked and answered when the system ran `p` in `w`. -/
def exchanges : List Exchange := (run (systemHandler env.recorded budget) p w.recording).2.env.2

theorem run_recording :
    run (systemHandler env budget) p w =
      ((run (systemHandler env.recorded budget) p w.recording).1,
        (run (systemHandler env.recorded budget) p w.recording).2.forget) :=
  run_map _ World.forget (systemHandler_forget env budget) p w.recording

theorem trace_recording :
    trace (systemHandler env budget) p w =
      trace (systemHandler env.recorded budget) p w.recording :=
  trace_map _ World.forget (systemHandler_forget env budget) p w.recording

end

/-! ## The whole call -/

/-- How a call ends after its loop, and what that audits. -/
inductive Ending (call : Call) (l : Locals) :
    LoopEnd → Except Thrown WorkflowResult → List AuditEntry → Prop
  | completed {r : WorkflowResult}
      (h : Reports call l .completed (l.agentResults.any (·.approvalRequired)) r) :
      Ending call l .finished (.ok r) [completedEntry call l]
  | failed {r : WorkflowResult} {e : Thrown} {reason : String} (he : e.reason = .ok reason)
      (h : Reports call l .failed true r) :
      Ending call l (.thrown e) (.ok r) [failedEntry call e reason]
  | unread {e t : Thrown} (he : e.reason = .error t) : Ending call l (.thrown e) (.error t) []
  | blocked (r : WorkflowResult) : Ending call l (.blocked r) (.ok r) []

theorem conclude_ends {ε : Type} (env : Env ε) (agents : Agents (ε × List Exchange)) (call : Call)
    (e : LoopEnd) (l : Locals) (w : World (ε × List Exchange)) :
    ∃ es, Ending call l e (run (orchHandler env.recorded agents) (conclude call (e, l)) w).1 es ∧
      Extends w (run (orchHandler env.recorded agents) (conclude call (e, l)) w).2
        ⟨[], [], es, []⟩ := by
  cases e with
  | finished =>
    have hx := (Extends.auditWrite (w := w) env (completedEntry call l)).trans (Extends.now env)
    exact ⟨_, .completed ⟨rfl, rfl, rfl, rfl, rfl⟩, hx.of_eq rfl rfl rfl⟩
  | thrown err =>
    cases hr : err.reason with
    | error t =>
      rw [run_conclude_unreadable _ _ _ hr]
      exact ⟨_, .unread hr, Extends.refl⟩
    | ok reason =>
      rw [run_conclude_readable _ _ _ hr]
      have hx := (Extends.auditWrite (w := w) env (failedEntry call err reason)).trans
        (Extends.now env)
      exact ⟨_, .failed hr ⟨rfl, rfl, rfl, rfl, rfl⟩, hx.of_eq rfl rfl rfl⟩
  | blocked b => exact ⟨_, .blocked b, Extends.refl⟩

/-- The record of the start of a call. -/
def started (input : Input) (call : Call) : Record where
  steps := []
  exchanges := []
  entries := [startedEntry call (StrategySelector.select input.task).rationale
    (call.strategy.selectSequence input.task)]
  artifacts := []

/-- Every call of the system: its start, its passes and its end. -/
theorem executeAs_passes {ε : Type} (env : Env ε) (budget : Nat) (input : Input)
    (workflowId startedAt : String) (w : World ε) :
    let p := executeAs input workflowId startedAt
    let out := run (systemHandler env budget) p w
    let call := callOf input workflowId startedAt
    ∃ rec e l es, Passes call ((strategyFor input).selectSequence input.task) .empty rec e l ∧
      Ending call l e out.1 es ∧ rec.steps = steps (trace (systemHandler env budget) p w) ∧
      rec.exchanges = exchanges env budget p w ∧
      Wrote w out.2 (started input call ++ rec ++ ⟨[], [], es, []⟩) := by
  intro p out call
  obtain ⟨e, l, w', hl, hrun⟩ := executeAs_runs env.recorded (coreFour env.recorded budget) input
    workflowId startedAt w.recording
  obtain ⟨rec, hp, hs, hx⟩ := hl.passes
  obtain ⟨es, hend, hxe⟩ := conclude_ends env (coreFour env.recorded budget) call e l w'
  have hst : Extends w.recording (startedWorld env.recorded input call w.recording)
      (started input call) :=
    (Extends.auditWrite env _).of_eq rfl rfl rfl
  have hall := (hst.trans hx).trans hxe
  rw [← hrun] at hend hall
  refine ⟨rec, e, l, es, hp, ?_, ?_, ?_, ?_⟩
  · rw [show out = _ from run_recording env budget p w]
    exact hend
  · rw [trace_recording, hs]
  · rw [exchanges, hall.exchanges]
    simp [started, World.recording]
  · rw [show out = _ from run_recording env budget p w]
    exact ⟨hall.events, hall.artifacts⟩

/-- The same for `execute`, which draws the start time and then the workflow id. -/
theorem execute_passes {ε : Type} (env : Env ε) (budget : Nat) (input : Input) (w : World ε) :
    let out := run (systemHandler env budget) (execute input) w
    let call := callOf input ((w.now env).2.randomUUID env).1 (w.now env).1
    ∃ rec e l es, Passes call ((strategyFor input).selectSequence input.task) .empty rec e l ∧
      Ending call l e out.1 es ∧
      rec.steps = steps (trace (systemHandler env budget) (execute input) w) ∧
      rec.exchanges = exchanges env budget (execute input) w ∧
      Wrote w out.2 (started input call ++ rec ++ ⟨[], [], es, []⟩) := by
  obtain ⟨rec, e, l, es, hp, hend, hs, hx, hw⟩ := executeAs_passes env budget input
    ((w.now env).2.randomUUID env).1 (w.now env).1 ((w.now env).2.randomUUID env).2
  exact ⟨rec, e, l, es, hp, hend, hs, hx, hw.events, hw.artifacts⟩

/-- The status and the approval flag of a call, by how its loop ended. -/
def LoopEnd.status : LoopEnd → WorkflowStatus
  | .finished => .completed
  | .blocked _ => .approvalRequired
  | .thrown _ => .failed

def LoopEnd.approvalRequired (l : Locals) : LoopEnd → Bool
  | .finished => l.agentResults.any (·.approvalRequired)
  | _ => true

theorem Passes.reports_blocked {call : Call} {seq : List AgentId} {l l' : Locals} {rec : Record}
    {b : WorkflowResult} (h : Passes call seq l rec (.blocked b) l') :
    Reports call l' .approvalRequired true b := by
  generalize he : LoopEnd.blocked b = e at h
  induction h with
  | done => cases he
  | next _ _ ih => exact ih he
  | leave h =>
    generalize hte : TurnEnd.leave _ = te at h
    cases h with
    | refused => cases hte; cases he
    | rejected => cases hte; cases he
    | gateThrew => cases hte; cases he
    | returned => exact absurd (he ▸ hte).symm (stopCheck_ne_blocked _ _ _)
    | passed => exact absurd (he ▸ hte).symm (stopCheck_ne_blocked _ _ _)
    | denied _ _ _ _ _ _ hb =>
      cases hte
      cases he
      exact hb

/-- The result that a call returns reports the locals of its loop, with the status of its end. -/
theorem Passes.reports {call : Call} {seq : List AgentId} {l l' : Locals} {rec : Record}
    {e : LoopEnd} {r : WorkflowResult} {es : List AuditEntry} (h : Passes call seq l rec e l')
    (hend : Ending call l' e (.ok r) es) : Reports call l' e.status (e.approvalRequired l') r := by
  cases hend with
  | completed hr => exact hr
  | failed _ hr => exact hr
  | blocked => exact h.reports_blocked

/-! ## What a call audits -/

/-- The actions of the events that the passes of a loop audit. -/
def passActions : List String :=
  ["agent.started", "agent.completed", "workflow.approval_evaluated",
    "workflow.approval_required"]

theorem Pass.actions {call : Call} {a : AgentId} {l l' : Locals} {rec : Record} {te : TurnEnd}
    (h : Pass call a l rec te l') : ∀ x ∈ rec.entries, x.action ∈ passActions := by
  cases h <;> simp [unanswered, answered, gated, HarpAgent.startedEntry, HarpAgent.completedEntry,
    evaluatedEntry, requiredEntry, entry, passActions]

theorem Passes.actions {call : Call} {seq : List AgentId} {l l' : Locals} {rec : Record}
    {e : LoopEnd} (h : Passes call seq l rec e l') :
    ∀ x ∈ rec.entries, x.action ∈ passActions := by
  induction h with
  | done => simp [Record.empty]
  | leave h => exact h.actions
  | next h _ ih => exact fun x hx => (List.mem_append.mp hx).elim (h.actions x) (ih x)

/-- The actions of the events that a call audits. -/
def callActions : List String :=
  "workflow.started" :: passActions ++ ["workflow.completed", "workflow.failed"]

theorem Ending.actions {call : Call} {l : Locals} {e : LoopEnd}
    {outcome : Except Thrown WorkflowResult} {es : List AuditEntry}
    (h : Ending call l e outcome es) : ∀ x ∈ es, x.action ∈ callActions := by
  cases h <;> simp [completedEntry, failedEntry, entry, callActions]

/-- A call audits its own actions, and no others. -/
theorem execute_actions {ε : Type} (env : Env ε) (budget : Nat) (input : Input) (w : World ε) :
    ∃ evs, (run (systemHandler env budget) (execute input) w).2.auditLogger.events =
        w.auditLogger.events ++ evs ∧ ∀ x ∈ evs, x.action ∈ callActions := by
  obtain ⟨rec, e, l, es, hp, hend, -, -, hw⟩ := execute_passes env budget input w
  obtain ⟨evs, hevs, hmap⟩ := hw.events
  refine ⟨evs, hevs, ?_⟩
  have hall : ∀ x ∈ evs.map (·.toAuditEntry), x.action ∈ callActions := by
    intro x hx
    rw [hmap] at hx
    rcases List.mem_append.mp hx with hx | hx
    · rcases List.mem_append.mp hx with hx | hx
      · obtain rfl := List.mem_singleton.mp hx
        simp [startedEntry, entry, callActions]
      · have hpass := hp.actions x hx
        simp [callActions, hpass]
    · exact hend.actions x hx
  intro x hx
  exact hall x.toAuditEntry (List.mem_map_of_mem hx)

/-- With constant answers, the sequential review of the small task returns a result. -/
theorem sequential_isOk :
    (run (systemHandler (Env.constant "{}" true) 200000)
      (execute (bareInput irreversibleTask (some sequentialReviewStrategy)))
      (World.create ())).1.isOk = true := by decide +kernel

end HarpOrchestrator

end Harp
