import Harp.Orchestration.ApprovalFloor

/-
  How calls end when the answers are usable and the approver always decides alike
  (`HarpOrchestrator.execute`).

  Every agent that is answered then succeeds, so no strategy stops the loop early. What is left is
  the decision about Ra's work, the budget, and a provider that throws (`Outcome`). The proof asks
  nothing of the surroundings but the answers of the two providers (`SteadyAnswer`), so it holds of
  a call that runs alone and of a call among others. What the provider throws has a text, and so
  the call itself always returns.
-/

namespace Harp

open Prog

/-- What the providers answer: texts that an agent can read, or an error of `T`, and decisions that
    all pass or all hold the work back. -/
structure Env.Steady {ε : Type} (env : Env ε) (T : Thrown → Prop) (passes : Bool) : Prop where
  answered : ∀ q e response, (env.generate q e).1 = .ok response →
    HarpAgent.accepts response.text = true
  rejected : ∀ q e t, (env.generate q e).1 = .error t → T t
  decided : ∀ q e, ∃ d, (env.requestApproval q e).1 = .ok d ∧ d.passes = passes

/-- The same of the answer to one operation. -/
def SteadyAnswer (T : Thrown → Prop) (passes : Bool) : (o : SysOp) → o.Res → Prop
  | .providerGenerate _, .ok response => HarpAgent.accepts response.text = true
  | .providerGenerate _, .error t => T t
  | .requestApproval _, answer => ∃ d, answer = .ok d ∧ d.passes = passes
  | _, _ => True

theorem sysHandler_answers {ε : Type} {env : Env ε} {T : Thrown → Prop} {passes : Bool}
    (h : env.Steady T passes) (o : SysOp) (w : World ε) :
    SteadyAnswer T passes o (sysHandler env o w).1 := by
  cases o with
  | providerGenerate q =>
    have hanswer : (sysHandler env (.providerGenerate q) w).1 = (env.generate q w.env).1 := rfl
    rw [hanswer]
    cases hcase : (env.generate q w.env).1 with
    | ok response => exact h.answered q w.env response hcase
    | error t => exact h.rejected q w.env t hcase
  | requestApproval q => exact h.decided q w.env
  | _ => trivial

/-! ## One agent -/

/-- An error of the spent budget, or of the provider. -/
def Fails (T : Thrown → Prop) (workflowId : String) (t : Thrown) : Prop :=
  (∃ used budget, t = .tokenBudgetExceeded workflowId used budget) ∨ T t

namespace HarpAgent

/-- What an agent answers: a success of its own, or such an error. -/
def Ended (T : Thrown → Prop) (agent : AgentId) (workflowId : String) :
    Except Thrown AgentResult → Prop
  | .ok r => r.agentId = agent ∧ r.status = .success
  | .error t => Fails T workflowId t

/-- What the router answers. -/
def Routed (T : Thrown → Prop) (workflowId : String) : Except Thrown ModelResponse → Prop
  | .ok response => accepts response.text = true
  | .error t => Fails T workflowId t

section

variable {T : Thrown → Prop} {passes : Bool} (budget : ℕ) (agent : AgentId)
  (input : AgentExecuteInput)

theorem generate_routed :
    Meets (fun _ => True) (SteadyAnswer T passes) (Routed T input.workflowId)
      (ModelRouter.generate budget (modelRequest agent input)) := by
  unfold ModelRouter.generate ModelRouter.generateChecked
  rw [perform_bind, meets_call]
  refine ⟨trivial, fun used _ => ?_⟩
  by_cases hb : used ≥ budget
  · rw [if_pos hb]
    exact .inl ⟨used, budget, rfl⟩
  · rw [if_neg hb, perform_bind, meets_call]
    refine ⟨trivial, fun answer hanswer => ?_⟩
    cases answer with
    | error t => exact .inr hanswer
    | ok response => exact ⟨trivial, fun _ _ => hanswer⟩

theorem resultFor_ended {text : String} (h : accepts text = true) :
    Meets (fun _ => True) (SteadyAnswer T passes)
      (fun r => r.agentId = agent ∧ r.status = .success) (resultFor agent input text) := by
  unfold accepts at h
  obtain ⟨output, houtput⟩ := Option.isSome_iff_exists.mp h
  unfold resultFor
  rw [houtput]
  cases agent <;> exact ⟨trivial, fun _ _ => ⟨trivial, fun _ _ => ⟨rfl, rfl⟩⟩⟩

theorem execute_ended :
    Meets (fun _ => True) (SteadyAnswer T passes) (Ended T agent input.workflowId)
      (execute budget agent input) := by
  unfold execute
  rw [perform_bind, meets_call]
  refine ⟨trivial, fun _ _ => ?_⟩
  refine (generate_routed budget agent input).bind fun answer hanswer => ?_
  cases answer with
  | error t => exact hanswer
  | ok response =>
    exact (resultFor_ended agent input hanswer).bind fun r hr => ⟨trivial, fun _ _ => hr⟩

end

end HarpAgent

namespace HarpOrchestrator

/-! ## The loop -/

/-- Which agents of a sequence return, and how the loop ends: Ra is the last one if the work is held
    back, and an error ends the loop before its agent returns. -/
inductive Outcome (T : Thrown → Prop) (workflowId : String) (passes : Bool) :
    List AgentId → List AgentId → LoopEnd → Prop
  | finished : Outcome T workflowId passes [] [] .finished
  | next {a : AgentId} {rest ran : List AgentId} {e : LoopEnd} (hgo : a = .ra → passes = true)
      (h : Outcome T workflowId passes rest ran e) :
      Outcome T workflowId passes (a :: rest) (a :: ran) e
  | blocked {rest : List AgentId} (b : WorkflowResult) (hstop : passes = false) :
      Outcome T workflowId passes (.ra :: rest) [.ra] (.blocked b)
  | refused (a : AgentId) (rest : List AgentId) (used budget : ℕ) :
      Outcome T workflowId passes (a :: rest) []
        (.thrown (.tokenBudgetExceeded workflowId used budget))
  | rejected (a : AgentId) (rest : List AgentId) {t : Thrown} (ht : T t) :
      Outcome T workflowId passes (a :: rest) [] (.thrown t)

/-- The results so far: the agents `ran` have succeeded. -/
structure Ran (ran : List AgentId) (l : Locals) : Prop where
  success : ∀ r ∈ l.agentResults, r.status = .success
  agents : l.agentResults.map (·.agentId) = ran

theorem ran_empty : Ran [] .empty := ⟨fun _ h => absurd h List.not_mem_nil, rfl⟩

theorem Ran.push {ran : List AgentId} {l : Locals} (h : Ran ran l) {a : AgentId} {r : AgentResult}
    (hr : r.agentId = a ∧ r.status = .success) : Ran (ran ++ [a]) (l.push a r) where
  success := List.forall_mem_append.mpr ⟨h.success, List.forall_mem_singleton.mpr hr.2⟩
  agents := by
    unfold Locals.push
    rw [List.map_append, h.agents, List.map_singleton, hr.1]

/-- How a loop over `seq` ends, after the agents `before`. -/
structure LoopEnded (T : Thrown → Prop) (workflowId : String) (passes : Bool)
    (before seq : List AgentId) (ended : LoopEnd × Locals) : Prop where
  outcome : ∃ ran, Outcome T workflowId passes seq ran ended.1 ∧ Ran (before ++ ran) ended.2
  blocked : ∀ b, ended.1 = .blocked b →
    b.status = .approvalRequired ∧ b.agentResults = ended.2.agentResults

/-- How the gate ends. -/
inductive GateEnded (passes : Bool) (l : Locals) :
    Except Thrown (Option WorkflowResult) × Locals → Prop
  | passed (hpasses : passes = true) : GateEnded passes l (.ok none, l)
  | blocked {b : WorkflowResult} {l' : Locals} (hpasses : passes = false)
      (hl : l'.agentResults = l.agentResults) (hstatus : b.status = .approvalRequired)
      (hresults : b.agentResults = l'.agentResults) : GateEnded passes l (.ok (some b), l')

/-- How one pass ends, after the agents `before`. -/
inductive TurnEnded (T : Thrown → Prop) (workflowId : String) (passes : Bool)
    (before : List AgentId) (a : AgentId) : TurnEnd × Locals → Prop
  | next {l : Locals} (hgo : a = .ra → passes = true) (hl : Ran (before ++ [a]) l) :
      TurnEnded T workflowId passes before a (.next, l)
  | leave {e : LoopEnd} {l : Locals}
      (h : ∀ rest, LoopEnded T workflowId passes before (a :: rest) (e, l)) :
      TurnEnded T workflowId passes before a (.leave e, l)

/-- What is assumed of the answers to the orchestrator. -/
def SteadyOrchAnswer (T : Thrown → Prop) (passes : Bool) : (o : OrchOp) → o.Res → Prop
  | .sys o, r => SteadyAnswer T passes o r
  | .agentExecute a input, answer => HarpAgent.Ended T a input.workflowId answer

section Loop

variable {T : Thrown → Prop} {passes : Bool} {call : Call}

theorem result_ended (status : WorkflowStatus) (l : Locals) (approvalRequired : Bool)
    (recommendation : String) (failure : Option WorkflowFailure) :
    Meets (fun _ => True) (SteadyOrchAnswer T passes)
      (fun r => r.status = status ∧ r.agentResults = l.agentResults ∧ r.failure = failure)
      (result call status l approvalRequired recommendation failure) :=
  ⟨trivial, fun _ _ => ⟨rfl, rfl, rfl⟩⟩

theorem enforceApproval_ended (l : Locals) (r : AgentResult) :
    Meets (fun _ => True) (SteadyOrchAnswer T passes) (GateEnded passes l)
      (enforceApproval call l r) := by
  unfold enforceApproval
  rw [evaluate_approvalRequest, perform_bind]
  refine ⟨trivial, fun answer hanswer => ?_⟩
  obtain ⟨d, rfl, hpasses⟩ := hanswer
  cases hd : d.passes with
  | true =>
    simp only [hd, if_true]
    exact ⟨trivial, fun _ _ => .passed (hpasses.symm.trans hd)⟩
  | false =>
    simp only [hd]
    refine Meets.bind (Q := fun ended => GateEnded passes l (.ok (some ended.1), ended.2))
      ⟨trivial, fun _ _ => ⟨trivial, fun _ _ => ⟨trivial, fun _ _ => ⟨trivial, fun _ _ => ?_⟩⟩⟩⟩
      fun _ h => (meets_pure _).mpr h
    refine (result_ended _ _ _ _ _).bind fun b hb => ?_
    exact .blocked (hpasses.symm.trans hd) rfl hb.1 hb.2.1

theorem appendAll_ended (artifacts : List Artifact) :
    Meets (fun _ => True) (SteadyOrchAnswer T passes) (fun _ => True) (appendAll artifacts) := by
  induction artifacts with
  | nil => trivial
  | cons a as ih => exact ⟨trivial, fun _ _ => ih⟩

theorem turn_ended (hs : call.strategy.StopsOnBlocked) (a : AgentId) {before : List AgentId}
    {l : Locals} (hl : Ran before l) :
    Meets (fun _ => True) (SteadyOrchAnswer T passes)
      (TurnEnded T call.workflowId passes before a) (turn call a l) := by
  unfold turn
  rw [perform_bind]
  refine ⟨trivial, fun snapshotAt _ => ?_⟩
  dsimp only
  rw [perform_bind]
  refine ⟨trivial, fun answer hanswer => ?_⟩
  cases answer with
  | error t =>
    refine .leave fun rest => ⟨⟨[], ?_, by rwa [List.append_nil]⟩, fun b hb => by cases hb⟩
    rcases hanswer with ⟨used, budget, rfl⟩ | ht
    · exact .refused a rest used budget
    · exact .rejected a rest ht
  | ok r =>
    have hran : Ran (before ++ [a]) (l.push a r) := hl.push hanswer
    have hnext : stopCheck call (l.push a r) = .next := stopCheck_of_success hs hran.success
    refine (appendAll_ended r.artifacts).bind fun _ _ => ?_
    by_cases ha : a = .ra
    · rw [if_pos ha]
      refine (enforceApproval_ended (l.push a r) r).bind fun ended hended => ?_
      cases hended with
      | passed hpasses =>
        simp only [hnext]
        exact .next (fun _ => hpasses) hran
      | @blocked b l' hpasses hsame hstatus hresults =>
        subst ha
        refine .leave fun rest => ⟨⟨[.ra], .blocked b hpasses, ?_⟩, fun b' hb => ?_⟩
        · exact ⟨by rw [hsame]; exact hran.success, by rw [hsame]; exact hran.agents⟩
        · obtain rfl := LoopEnd.blocked.inj hb
          exact ⟨hstatus, hresults⟩
    · rw [if_neg ha]
      simp only [hnext]
      exact .next (fun h => absurd h ha) hran

/-- The whole loop. -/
theorem agentLoop_ended (hs : call.strategy.StopsOnBlocked) (seq : List AgentId)
    {before : List AgentId} {l : Locals} (hl : Ran before l) :
    Meets (fun _ => True) (SteadyOrchAnswer T passes)
      (LoopEnded T call.workflowId passes before seq) (agentLoop call seq l) := by
  induction seq generalizing before l with
  | nil => exact ⟨⟨[], .finished, by rwa [List.append_nil]⟩, fun b hb => by cases hb⟩
  | cons a rest ih =>
    refine (turn_ended hs a hl).bind fun ended hended => ?_
    cases hended with
    | leave h => exact h rest
    | next hgo hran =>
      refine (ih hran).mono fun ended hended => ⟨?_, hended.blocked⟩
      obtain ⟨ran, hout, hran⟩ := hended.outcome
      refine ⟨a :: ran, .next hgo hout, ?_⟩
      rwa [List.append_assoc] at hran

end Loop

/-! ## The agents that return -/

section Outcome

variable {T : Thrown → Prop} {workflowId : String} {passes : Bool} {seq ran : List AgentId}
  {e : LoopEnd}

/-- A finished loop has run everybody, and Ra only with an approval. -/
theorem Outcome.of_finished (h : Outcome T workflowId passes seq ran .finished) :
    ran = seq ∧ (.ra ∈ seq → passes = true) := by
  generalize he : LoopEnd.finished = e at h
  induction h with
  | finished => exact ⟨rfl, fun h => absurd h List.not_mem_nil⟩
  | next hgo _ ih =>
    obtain ⟨rfl, hra⟩ := ih he
    refine ⟨rfl, fun hmem => ?_⟩
    rcases List.mem_cons.mp hmem with ha | hmem
    · exact hgo ha.symm
    · exact hra hmem
  | blocked => cases he
  | refused => cases he
  | rejected => cases he

/-- A blocked loop ends with the first Ra. -/
theorem Outcome.of_blocked {b : WorkflowResult}
    (h : Outcome T workflowId passes seq ran (.blocked b)) :
    passes = false ∧ ∃ before after, seq = before ++ .ra :: after ∧ .ra ∉ before ∧
      ran = before ++ [.ra] := by
  generalize he : LoopEnd.blocked b = e at h
  induction h with
  | finished => cases he
  | @next a _ _ _ hgo _ ih =>
    obtain ⟨hpasses, before, after, rfl, hbefore, rfl⟩ := ih he
    refine ⟨hpasses, a :: before, after, rfl, ?_, rfl⟩
    rw [List.mem_cons, not_or]
    refine ⟨fun ha => ?_, hbefore⟩
    rw [hgo ha.symm] at hpasses
    cases hpasses
  | @blocked rest b hstop => exact ⟨hstop, [], rest, rfl, List.not_mem_nil, rfl⟩
  | refused => cases he
  | rejected => cases he

/-- A loop that throws has left an agent without a result, and has passed Ra only with an
    approval. -/
theorem Outcome.of_thrown {t : Thrown} (h : Outcome T workflowId passes seq ran (.thrown t)) :
    ((∃ used budget, t = .tokenBudgetExceeded workflowId used budget) ∨ T t) ∧
      (∃ a rest, seq = ran ++ a :: rest) ∧ (.ra ∈ ran → passes = true) := by
  generalize he : LoopEnd.thrown t = e at h
  induction h with
  | finished => cases he
  | next hgo _ ih =>
    obtain ⟨ht, ⟨a, rest, rfl⟩, hra⟩ := ih he
    refine ⟨ht, ⟨a, rest, rfl⟩, fun hmem => ?_⟩
    rcases List.mem_cons.mp hmem with ha | hmem
    · exact hgo ha.symm
    · exact hra hmem
  | blocked => cases he
  | refused a rest used budget =>
    cases he
    exact ⟨.inl ⟨used, budget, rfl⟩, ⟨a, rest, rfl⟩, fun h => absurd h List.not_mem_nil⟩
  | rejected a rest ht =>
    cases he
    exact ⟨.inr ht, ⟨a, rest, rfl⟩, fun h => absurd h List.not_mem_nil⟩

end Outcome

/-! ## Whole calls -/

/-- The agents whose results a call returns. -/
def returned (r : WorkflowResult) : List AgentId := r.agentResults.map (·.agentId)

/-- What a call returns whose strategy chose the agents `seq`: results of agents that succeeded, and
    one of three ends. -/
structure SteadyEnd (T : Thrown → Prop) (workflowId : String) (passes : Bool) (seq : List AgentId)
    (r : WorkflowResult) : Prop where
  success : ∀ x ∈ r.agentResults, x.status = .success
  completed : r.status = .completed → returned r = seq ∧ (.ra ∈ seq → passes = true)
  blocked : r.status = .approvalRequired → passes = false ∧
    ∃ before after, seq = before ++ .ra :: after ∧ .ra ∉ before ∧ returned r = before ++ [.ra]
  failed : r.status = .failed → (.ra ∈ returned r → passes = true) ∧
    (∃ a rest, seq = returned r ++ a :: rest) ∧
    ∃ t reason auditEventId, t.reason = .ok reason ∧
      r.failure = some (failure t reason (returned r) auditEventId) ∧
      ((∃ used budget, t = .tokenBudgetExceeded workflowId used budget) ∨ T t)
  ends : r.status = .completed ∨ r.status = .approvalRequired ∨ r.status = .failed

section Whole

variable {T : Thrown → Prop} {passes : Bool} (hT : ∀ t, T t → t.Readable)
include hT

/-- The end of a loop is the end of its call. -/
theorem conclude_ended {call : Call} {seq : List AgentId} {ended : LoopEnd × Locals}
    (h : LoopEnded T call.workflowId passes [] seq ended) :
    Meets (fun _ => True) (SteadyOrchAnswer T passes)
      (Resolves (SteadyEnd T call.workflowId passes seq)) (conclude call ended) := by
  obtain ⟨e, l⟩ := ended
  obtain ⟨ran, hout, hran⟩ := h.outcome
  have hids : l.agentResults.map (·.agentId) = ran := hran.agents
  have other {r : WorkflowResult} {status' : WorkflowStatus} {P : Prop} (status : WorkflowStatus)
      (hr : r.status = status) (hne : status ≠ status') (h : r.status = status') : P :=
    absurd (hr.symm.trans h) hne
  cases e with
  | finished =>
    obtain ⟨rfl, hra⟩ := hout.of_finished
    refine ⟨trivial, fun _ _ => (result_ended _ l _ _ _).bind fun r hr => ⟨r, rfl, ?_⟩⟩
    obtain ⟨hstatus, hresults, -⟩ := hr
    have hret : returned r = ran := by rw [returned, hresults, hids]
    exact ⟨by rw [hresults]; exact hran.success, fun _ => ⟨hret, hra⟩,
      other .completed hstatus (by decide), other .completed hstatus (by decide), .inl hstatus⟩
  | blocked b =>
    obtain ⟨hstatus, hresults⟩ := h.blocked b rfl
    have hret : returned b = ran := by rw [returned, hresults, hids]
    obtain ⟨hpasses, hseq⟩ := hout.of_blocked
    exact ⟨b, rfl, by rw [hresults]; exact hran.success,
      other .approvalRequired hstatus (by decide), fun _ => ⟨hpasses, by rwa [hret]⟩,
      other .approvalRequired hstatus (by decide), .inr (.inl hstatus)⟩
  | thrown t =>
    obtain ⟨ht, hseq, hra⟩ := hout.of_thrown
    obtain ⟨reason, hreason⟩ : ∃ reason, t.reason = .ok reason := by
      rcases ht with ⟨used, budget, rfl⟩ | ht
      · exact ⟨_, rfl⟩
      · exact Thrown.readable_iff.mp (hT t ht)
    simp only [conclude, handleFailure, hreason]
    refine ⟨trivial, fun audit _ => (result_ended _ l _ _ _).bind fun r hr => ⟨r, rfl, ?_⟩⟩
    obtain ⟨hstatus, hresults, hfailure⟩ := hr
    have hret : returned r = ran := by rw [returned, hresults, hids]
    have hreported : r.failure = some (failure t reason (returned r) audit.id) := by
      rw [hfailure, hids, hret]
    exact ⟨by rw [hresults]; exact hran.success, other .failed hstatus (by decide),
      other .failed hstatus (by decide),
      fun _ => ⟨by rwa [hret], by rwa [hret], t, reason, audit.id, hreason, hreported, ht⟩,
      .inr (.inr hstatus)⟩

theorem executeAs_ended (input : Input) (workflowId startedAt : String)
    (hs : ∀ s, input.forceStrategy = some s → Known s) :
    Meets (fun _ => True) (SteadyOrchAnswer T passes)
      (Resolves (SteadyEnd T workflowId passes ((strategyFor input).selectSequence input.task)))
      (executeAs input workflowId startedAt) := by
  let call := callOf input workflowId startedAt
  have hstops : call.strategy.StopsOnBlocked := (strategyFor_known hs).stopsOnBlocked
  refine ⟨trivial, fun _ _ => ?_⟩
  exact (agentLoop_ended hstops _ ran_empty).bind fun _ hended => conclude_ended hT hended

/-- The same down to the operations. -/
theorem system_ended (budget : ℕ) (input : Input) (workflowId startedAt : String)
    (hs : ∀ s, input.forceStrategy = some s → Known s) :
    Meets (fun _ => True) (SteadyAnswer T passes)
      (Resolves (SteadyEnd T workflowId passes ((strategyFor input).selectSequence input.task)))
      (system budget input workflowId startedAt) := by
  refine Meets.interp (fun o _ => ?_) (executeAs_ended hT input workflowId startedAt hs)
  cases o with
  | sys o => exact meets_perform trivial fun _ h => h
  | agentExecute a agentInput => exact HarpAgent.execute_ended budget a agentInput

/-- A call that runs alone. -/
theorem execute_steady {ε : Type} {env : Env ε} (henv : env.Steady T passes) (budget : ℕ)
    (input : Input) (w : World ε) (hs : ∀ s, input.forceStrategy = some s → Known s) :
    Resolves (SteadyEnd T ((w.now env).2.randomUUID env).1 passes
      ((strategyFor input).selectSequence input.task))
      (run (systemHandler env budget) (execute input) w).1 := by
  have hanswers (o : OrchOp) (w : World ε) :
      SteadyOrchAnswer T passes o (systemHandler env budget o w).1 := by
    cases o with
    | sys o => exact sysHandler_answers henv o w
    | agentExecute a agentInput =>
      exact (HarpAgent.execute_ended budget a agentInput).returns (sysHandler_answers henv) w
  exact (executeAs_ended hT input _ (w.now env).1 hs).returns hanswers
    ((w.now env).2.randomUUID env).2

end Whole

end HarpOrchestrator

/-! ## Up to the gate -/

/-- Surroundings that stay as they are, with a provider that answers everything. -/
structure Env.Still {ε : Type} (env : Env ε) (e₀ : ε) : Prop where
  randomUUID : (env.randomUUID e₀).2 = e₀
  now : (env.now e₀).2 = e₀
  generate : ∀ q, (env.generate q e₀).2 = e₀
  requestApproval : ∀ q, (env.requestApproval q e₀).2 = e₀
  answers : ∀ q, ∃ response, (env.generate q e₀).1 = .ok response

theorem Env.Still.keeps {ε : Type} {env : Env ε} {e₀ : ε} (h : env.Still e₀) (o : SysOp)
    (w : World ε) (hw : w.env = e₀) : (sysHandler env o w).2.env = e₀ := by
  subst hw
  cases o with
  | now => exact h.now
  | randomUUID => exact h.randomUUID
  | auditWrite event =>
    show (env.now (env.randomUUID w.env).2).2 = w.env
    rw [h.randomUUID, h.now]
  | memoryAppend artifact => rfl
  | requestApproval request => exact h.requestApproval request
  | usage workflowId => rfl
  | providerGenerate request => exact h.generate request
  | recordCall => exact h.now

namespace HarpOrchestrator

section Gate

variable {ε : Type} {env : Env ε} {call : Call}

theorem Turn.next_of_success {agents : Agents ε} {a : AgentId} {l l' : Locals}
    {w w₁ w' : World ε} {st : List Step} {te : TurnEnd} {r : AgentResult}
    (h : Turn env agents call a l w st te l' w') (hs : call.strategy.StopsOnBlocked) (ha : a ≠ .ra)
    (hr : agents a (agentInput env call a l w) (w.now env).2 = (.ok r, w₁))
    (hsuccess : ∀ x ∈ (l.push a r).agentResults, x.status = .success) :
    te = .next ∧ l' = l.push a r ∧ w' = w₁.memoryAppendAll r.artifacts := by
  cases h with
  | threw h =>
    rw [hr] at h
    cases h
  | returned hne h =>
    rw [hr] at h
    cases h
    exact ⟨stopCheck_of_success hs hsuccess, rfl, rfl⟩
  | gateThrew hra => exact absurd hra ha
  | passed hra => exact absurd hra ha
  | denied hra => exact absurd hra ha

theorem Turn.blocked_of_denied {agents : Agents ε} {l l' : Locals} {w w₁ w' : World ε}
    {st : List Step} {te : TurnEnd} {r : AgentResult} {d : ApprovalDecision}
    (h : Turn env agents call .ra l w st te l' w')
    (hr : agents .ra (agentInput env call .ra l w) (w.now env).2 = (.ok r, w₁))
    (hd : (consulted env call r w₁).1 = .ok d) (hp : d.passes = false) :
    ∃ b, te = .leave (.blocked b) ∧ b.status = .approvalRequired := by
  cases h with
  | threw h =>
    rw [hr] at h
    cases h
  | returned hne => exact absurd rfl hne
  | gateThrew _ h hd' =>
    rw [hr] at h
    cases h
    rw [hd] at hd'
    cases hd'
  | passed _ h hd' hp' =>
    rw [hr] at h
    cases h
    rw [hd] at hd'
    cases hd'
    rw [hp] at hp'
    cases hp'
  | denied => exact ⟨_, rfl, rfl⟩

variable {T : Thrown → Prop} {e₀ : ε} {budget : ℕ} {w : World ε}

/-- An agent with tokens left succeeds, and its tokens are counted. -/
theorem coreFour_answered (hstill : env.Still e₀) (henv : env.Steady T false) (a : AgentId)
    (input : AgentExecuteInput) (hw : w.env = e₀)
    (hused : w.modelRouter.usage input.workflowId < budget) {response : ModelResponse}
    (hresponse : (env.generate (HarpAgent.modelRequest a input) e₀).1 = .ok response) :
    ∃ r w', coreFour env budget a input w = (.ok r, w') ∧ r.status = .success ∧ w'.env = e₀ ∧
      w'.modelRouter.usage input.workflowId = w.modelRouter.usage input.workflowId +
        (response.inputTokens + response.outputTokens) := by
  have hstarted : (HarpAgent.startedWorld env a input w).env = e₀ :=
    hstill.keeps (.auditWrite (HarpAgent.startedEntry a input)) w hw
  have hanswer : (HarpAgent.startedWorld env a input w).providerGenerate env
      (HarpAgent.modelRequest a input) = (.ok response,
        ((HarpAgent.startedWorld env a input w).providerGenerate env
          (HarpAgent.modelRequest a input)).2) := by
    rw [← hstarted] at hresponse
    exact Prod.ext hresponse rfl
  obtain ⟨artifact, -, -, hrun, husage⟩ := HarpAgent.execute_answered env a input hused hanswer
  refine ⟨_, _, Prod.ext hrun rfl, ?_, run_keeps hstill.keeps _ hw, husage⟩
  rw [HarpAgent.resultOf_status, if_pos (henv.answered _ _ _ hresponse)]

/-- Ra with tokens left gets to the gate, and no further. -/
theorem LoopRun.atGate (hstill : env.Still e₀) (henv : env.Steady T false) {rest : List AgentId}
    {l l' : Locals} {w' : World ε} {st : List Step} {e : LoopEnd}
    (h : LoopRun env (coreFour env budget) call (.ra :: rest) l w st e l' w') (hw : w.env = e₀)
    (hused : w.modelRouter.usage call.workflowId < budget) :
    ∃ b, e = .blocked b ∧ b.status = .approvalRequired := by
  obtain ⟨response, hresponse⟩ :=
    hstill.answers (HarpAgent.modelRequest .ra (agentInput env call .ra l w))
  obtain ⟨r, w₁, hr, -⟩ :=
    coreFour_answered hstill henv .ra _ (hstill.keeps .now w hw) hused hresponse
  obtain ⟨d, hd, hdenies⟩ := henv.decided (approvalRequest call r)
    (w₁.memoryAppendAll r.artifacts).env
  cases h with
  | leave ht =>
    obtain ⟨b, hleave, hstatus⟩ := ht.blocked_of_denied hr hd hdenies
    exact ⟨b, TurnEnd.leave.inj hleave, hstatus⟩
  | next ht =>
    obtain ⟨b, hleave, -⟩ := ht.blocked_of_denied hr hd hdenies
    cases hleave

/-- A call whose second agent is Ra reaches Ra's gate, and is held back there, if the tokens of its
    first agent leave some of the budget. -/
theorem executeAs_atGate (hstill : env.Still e₀) (henv : env.Steady T false) {input : Input}
    {workflowId startedAt : String} {a : AgentId} {rest : List AgentId}
    {response : ModelResponse} (hs : ∀ s, input.forceStrategy = some s → Known s)
    (hseq : (strategyFor input).selectSequence input.task = a :: .ra :: rest) (ha : a ≠ .ra)
    (hw : w.env = e₀)
    (hresponse : (env.generate (HarpAgent.modelRequest a
      ⟨ContextManager.createScopedContext a input.task input.projectContext [] (env.now e₀).1,
        workflowId⟩) e₀).1 = .ok response)
    (hbudget : w.modelRouter.usage workflowId + (response.inputTokens + response.outputTokens) <
      budget) :
    Resolves (·.status = .approvalRequired)
      (run (systemHandler env budget) (executeAs input workflowId startedAt) w).1 := by
  let call := callOf input workflowId startedAt
  have hstops : call.strategy.StopsOnBlocked := (strategyFor_known hs).stopsOnBlocked
  obtain ⟨e, l, w', hl, hrun⟩ :=
    executeAs_runs env (coreFour env budget) input workflowId startedAt w
  have hstart : (startedWorld env input call w).env = e₀ := hstill.keeps (.auditWrite _) w hw
  -- the first agent
  obtain ⟨r, w₁, hr, hsuccess, hw₁, husage⟩ := coreFour_answered hstill henv a
    (agentInput env call a .empty (startedWorld env input call w))
    (hstill.keeps .now _ hstart) (Nat.lt_of_le_of_lt (Nat.le_add_right _ _) hbudget)
    (by rw [← hresponse, ← hstart]; rfl)
  have hpushed : ∀ x ∈ (Locals.empty.push a r).agentResults, x.status = .success := by
    intro x hx
    rw [List.mem_singleton.mp hx]
    exact hsuccess
  rw [hseq] at hl
  generalize steps _ = st at hl
  cases hl with
  | leave ht => exact absurd (ht.next_of_success hstops ha hr hpushed).1 TurnEnd.noConfusion
  | next ht hrest =>
    obtain ⟨-, rfl, rfl⟩ := ht.next_of_success hstops ha hr hpushed
    have hused : (w₁.memoryAppendAll r.artifacts).modelRouter.usage workflowId < budget := by
      rw [modelRouter_memoryAppendAll]
      exact lt_of_eq_of_lt husage hbudget
    obtain ⟨b, rfl, hstatus⟩ :=
      hrest.atGate hstill henv ((env_memoryAppendAll _ _).trans hw₁) hused
    exact ⟨b, congrArg Prod.fst hrun, hstatus⟩

end Gate

end HarpOrchestrator

end Harp
