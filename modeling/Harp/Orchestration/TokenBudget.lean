import Harp.Models.Accounting
import Harp.Orchestration.SystemRuns

/-
  The token budget over a whole call (`ModelRouter.generate` of `src/models/ModelRouter.ts`,
  `execute` and `handleFailure` of `src/orchestration/HarpOrchestrator.ts`).

  `Metered` chains the agents of a loop with what the model was asked for them: the counter of
  the workflow runs through it, and an agent that finds it at the budget ends the loop. The
  loop of every call is one (`LoopRun.metered`, by induction on the run); what holds of a call
  is then read off by induction on `Metered`.
-/

namespace Harp

open Prog

namespace HarpOrchestrator

/-! ## What a call asked -/

def agentStep : Step → Option (AgentId × Except Thrown AgentResult)
  | .agent agentId answer => some (agentId, answer)
  | .consult .. => none

/-- The agents that were run, with what they returned. -/
def agentSteps (st : List Step) : List (AgentId × Except Thrown AgentResult) :=
  st.filterMap agentStep

def modelCall : Exchange → Option (ModelRequest × Except Thrown ModelResponse)
  | .model request answer => some (request, answer)
  | .approval .. => none

/-- The calls of the model provider, with what they returned. -/
def modelCalls (xs : List Exchange) : List (ModelRequest × Except Thrown ModelResponse) :=
  xs.filterMap modelCall

/-- The results of the agents that returned. -/
def results (as : List (AgentId × Except Thrown AgentResult)) : List AgentResult :=
  as.filterMap fun a => match a.2 with
    | .ok r => some r
    | .error _ => none

/-- The tokens of a call; a rejected call has none. -/
def tokensOf : Except Thrown ModelResponse → Nat
  | .ok response => ModelRouter.tokens response
  | .error _ => 0

def tokensSpent (calls : List (ModelRequest × Except Thrown ModelResponse)) : Nat :=
  (calls.map fun c => tokensOf c.2).sum

/-- The tokens of the last successful call, if there is one. -/
def lastTokens (calls : List (ModelRequest × Except Thrown ModelResponse)) : Nat :=
  ((calls.filter (·.2.isOk)).getLast?.map fun c => tokensOf c.2).getD 0

/-! ## One agent -/

/-- An agent of a call: refused at the budget, rejected by the provider, or answered. -/
inductive AgentMetered {ε : Type} (B : Nat) (a : AgentId) (input : AgentExecuteInput)
    (w : World (ε × List Exchange)) :
    Except Thrown AgentResult → World (ε × List Exchange) → Prop
  | refused {w' : World (ε × List Exchange)} (hb : B ≤ w.modelRouter.usage input.workflowId)
      (hx : w'.env.2 = w.env.2) (hr : w'.modelRouter = w.modelRouter) :
      AgentMetered B a input w (.error (.tokenBudgetExceeded input.workflowId
        (w.modelRouter.usage input.workflowId) B)) w'
  | rejected {w' : World (ε × List Exchange)} {e : Thrown}
      (hb : w.modelRouter.usage input.workflowId < B)
      (hx : w'.env.2 = w.env.2 ++ [.model (HarpAgent.modelRequest a input) (.error e)])
      (hr : w'.modelRouter = w.modelRouter) :
      AgentMetered B a input w (.error e) w'
  | answered {w' : World (ε × List Exchange)} {r : AgentResult} {response : ModelResponse}
      (hb : w.modelRouter.usage input.workflowId < B)
      (hx : w'.env.2 = w.env.2 ++ [.model (HarpAgent.modelRequest a input) (.ok response)])
      (hr : w'.modelRouter.usage input.workflowId =
        w.modelRouter.usage input.workflowId + ModelRouter.tokens response) :
      AgentMetered B a input w (.ok r) w'

theorem coreFour_metered {ε : Type} (env : Env ε) (B : Nat) (a : AgentId)
    (input : AgentExecuteInput) (w : World (ε × List Exchange)) :
    AgentMetered B a input w (coreFour env.recorded B a input w).1
      (coreFour env.recorded B a input w).2 := by
  unfold coreFour HarpAgent.execute
  simp only [perform_bind, run_call, sysHandler_auditWrite, run_bind, ModelRouter.run_generate]
  rw [show ModelRouter.keyOf (HarpAgent.modelRequest a input).workflowId = input.workflowId
    from rfl]
  by_cases hb : (w.auditWrite env.recorded (HarpAgent.startedEntry a input)).2.modelRouter.usage
      input.workflowId ≥ B
  · simp only [if_pos hb]
    exact .refused hb rfl rfl
  simp only [if_neg hb]
  have hb : w.modelRouter.usage input.workflowId < B := Nat.lt_of_not_le hb
  rcases h : (w.auditWrite env.recorded (HarpAgent.startedEntry a input)).2.providerGenerate
    env.recorded (HarpAgent.modelRequest a input) with ⟨e | response, w'⟩
  · have hx := (Extends.providerGenerate env h).exchanges
    have hr : w'.modelRouter = w.modelRouter := (congrArg (·.2.modelRouter) h).symm
    exact .rejected hb hx hr
  · have hx := (Extends.providerGenerate env h).exchanges
    obtain ⟨artifact, -, -, -, hrun⟩ := HarpAgent.run_resultFor env.recorded a input response.text
      (w'.recordCall env.recorded input.workflowId
        (w.modelRouter.usage input.workflowId + (response.inputTokens + response.outputTokens))
        (HarpAgent.modelRequest a input) response)
    simp only [modelRouter_auditWrite, run_bind, hrun]
    refine .answered hb hx ?_
    exact (ModelRouter.usage_recordCall _ _ _ _ _ _ _).trans (if_pos rfl)

/-! ## One pass -/

/-- A loop, metered: the counter of the workflow goes from `used` to the first number behind the
    lists of agents and calls. -/
inductive Metered (B : Nat) (workflowId : String) : Nat → Locals →
    List (AgentId × Except Thrown AgentResult) →
    List (ModelRequest × Except Thrown ModelResponse) → Nat → LoopEnd → Locals → Prop
  | done (used : Nat) (l : Locals) : Metered B workflowId used l [] [] used .finished l
  | refused {used : Nat} {a : AgentId} (hb : B ≤ used) (l : Locals) :
      Metered B workflowId used l [(a, .error (.tokenBudgetExceeded workflowId used B))] [] used
        (.thrown (.tokenBudgetExceeded workflowId used B)) l
  | rejected {used : Nat} {a : AgentId} {q : ModelRequest} (hb : used < B)
      (hq : q.agentId = some a) (e : Thrown) (l : Locals) :
      Metered B workflowId used l [(a, .error e)] [(q, .error e)] used (.thrown e) l
  | leave {used : Nat} {a : AgentId} {q : ModelRequest} (hb : used < B) (hq : q.agentId = some a)
      (r : AgentResult) (response : ModelResponse) (e : LoopEnd) (l l' : Locals) :
      Metered B workflowId used l [(a, .ok r)] [(q, .ok response)]
        (used + ModelRouter.tokens response) e l'
  | next {used total : Nat} {a : AgentId} {q : ModelRequest} {r : AgentResult}
      {response : ModelResponse} {as : List (AgentId × Except Thrown AgentResult)}
      {cs : List (ModelRequest × Except Thrown ModelResponse)} {e : LoopEnd} {l l' : Locals}
      (hb : used < B) (hq : q.agentId = some a)
      (h : Metered B workflowId (used + ModelRouter.tokens response) (l.push a r) as cs total e
        l') :
      Metered B workflowId used l ((a, .ok r) :: as) ((q, .ok response) :: cs) total e l'

/-- A pass, metered; `asked` is what it adds to the exchanges. -/
inductive TurnMetered (B : Nat) (workflowId : String) (used : Nat) (a : AgentId) (l : Locals) :
    List (AgentId × Except Thrown AgentResult) →
    List (ModelRequest × Except Thrown ModelResponse) → Nat → TurnEnd → Locals → Prop
  | refused (hb : B ≤ used) :
      TurnMetered B workflowId used a l [(a, .error (.tokenBudgetExceeded workflowId used B))] []
        used (.leave (.thrown (.tokenBudgetExceeded workflowId used B))) l
  | rejected {q : ModelRequest} (hb : used < B) (hq : q.agentId = some a) (e : Thrown) :
      TurnMetered B workflowId used a l [(a, .error e)] [(q, .error e)] used (.leave (.thrown e)) l
  | answered {q : ModelRequest} (hb : used < B) (hq : q.agentId = some a) {r : AgentResult}
      {response : ModelResponse} {te : TurnEnd} {l' : Locals}
      (hl : te = .next → l' = l.push a r) :
      TurnMetered B workflowId used a l [(a, .ok r)] [(q, .ok response)]
        (used + ModelRouter.tokens response) te l'

section Rules

variable {B : Nat} {workflowId : String} {used total total' : Nat} {a : AgentId}
  {l l' l'' : Locals} {as as' : List (AgentId × Except Thrown AgentResult)}
  {cs cs' : List (ModelRequest × Except Thrown ModelResponse)} {e : LoopEnd}

theorem TurnMetered.leave
    (h : TurnMetered B workflowId used a l as cs total (.leave e) l') :
    Metered B workflowId used l as cs total e l' := by
  cases h with
  | refused hb => exact .refused hb l
  | rejected hb hq e => exact .rejected hb hq e l
  | answered hb hq _ => exact .leave hb hq _ _ e l l'

theorem TurnMetered.next (h : TurnMetered B workflowId used a l as cs total .next l')
    (hr : Metered B workflowId total l' as' cs' total' e l'') :
    Metered B workflowId used l (as ++ as') (cs ++ cs') total' e l'' := by
  cases h with
  | answered hb hq hl =>
    obtain rfl := hl rfl
    exact .next hb hq hr

end Rules

section Turn

variable {ε : Type} (env : Env ε) (B : Nat) (call : Call)

@[simp] theorem modelCalls_append (xs ys : List Exchange) :
    modelCalls (xs ++ ys) = modelCalls xs ++ modelCalls ys := List.filterMap_append

@[simp] theorem agentSteps_append (st st' : List Step) :
    agentSteps (st ++ st') = agentSteps st ++ agentSteps st' := List.filterMap_append

/-- The gate adds its question to the exchanges and leaves the router alone. -/
theorem consulted_asked (r : AgentResult) (w : World (ε × List Exchange)) :
    (consulted env.recorded call r w).2.env.2 = w.env.2 ++
        [.approval (approvalRequest call r) (consulted env.recorded call r w).1] ∧
      (consulted env.recorded call r w).2.modelRouter = w.modelRouter := by
  unfold consulted
  constructor
  · rw [← congrArg Prod.snd (env_memoryAppendAll w r.artifacts)]
    rfl
  · simp

/-- A pass whose agent returned, whatever the gate does then. -/
theorem turnMetered_of_ok {a : AgentId} {input : AgentExecuteInput}
    (hin : input.workflowId = call.workflowId) {w w' w'' : World (ε × List Exchange)}
    {r : AgentResult} (h : coreFour env.recorded B a input w = (.ok r, w')) {te : TurnEnd}
    {l l' : Locals} (hl : te = .next → l' = l.push a r) (asked : List Exchange)
    (hasked : modelCalls asked = []) (hx : w''.env.2 = w'.env.2 ++ asked)
    (hr : w''.modelRouter = w'.modelRouter) :
    ∃ asked', w''.env.2 = w.env.2 ++ asked' ∧
      TurnMetered B call.workflowId (w.modelRouter.usage call.workflowId) a l [(a, .ok r)]
        (modelCalls asked') (w''.modelRouter.usage call.workflowId) te l' := by
  have hm := coreFour_metered env B a input w
  rw [h] at hm
  generalize hok : Except.ok r = answer at hm
  cases hm with
  | refused => cases hok
  | rejected => cases hok
  | answered hb hx' hr' =>
    obtain rfl := Except.ok.inj hok
    rw [hin] at hb hr'
    refine ⟨_, by rw [hx, hx', List.append_assoc], ?_⟩
    rw [modelCalls_append, hasked, hr, hr']
    exact .answered hb rfl hl

theorem Turn.metered {a : AgentId} {l l' : Locals} {w w' : World (ε × List Exchange)}
    {st : List Step} {te : TurnEnd}
    (h : Turn env.recorded (coreFour env.recorded B) call a l w st te l' w') :
    ∃ asked, w'.env.2 = w.env.2 ++ asked ∧
      TurnMetered B call.workflowId (w.modelRouter.usage call.workflowId) a l (agentSteps st)
        (modelCalls asked) (w'.modelRouter.usage call.workflowId) te l' := by
  cases h with
  | @threw e w' h =>
    have hm := coreFour_metered env B a (agentInput env.recorded call a l w)
      (w.now env.recorded).2
    rw [h] at hm
    generalize hok : Except.error e = answer at hm
    cases hm with
    | refused hb hx hr =>
      obtain rfl := Except.error.inj hok
      refine ⟨[], by rw [hx]; exact (List.append_nil _).symm, ?_⟩
      rw [hr]
      exact .refused hb
    | rejected hb hx hr =>
      obtain rfl := Except.error.inj hok
      refine ⟨_, hx, ?_⟩
      rw [hr]
      exact .rejected hb rfl e
    | answered => cases hok
  | returned hne h =>
    exact turnMetered_of_ok env B call rfl h (fun _ => rfl) [] rfl (by simp) (by simp)
  | @gateThrew r w' e ha h hd =>
    obtain ⟨hx, hr⟩ := consulted_asked env call r w'
    exact turnMetered_of_ok env B call rfl h nofun [.approval _ _] rfl hx hr
  | @passed r w' d ha h hd hp =>
    obtain ⟨hx, hr⟩ := consulted_asked env call r w'
    exact turnMetered_of_ok env B call rfl h (fun _ => rfl) [.approval _ _] rfl hx hr
  | @denied r w' d ha h hd hp =>
    obtain ⟨hx, hr⟩ := consulted_asked env call r w'
    exact turnMetered_of_ok env B call rfl h nofun [.approval _ _] rfl hx hr

/-- The loop of a call, metered. -/
theorem LoopRun.metered {seq : List AgentId} {l l' : Locals} {w w' : World (ε × List Exchange)}
    {st : List Step} {e : LoopEnd}
    (h : LoopRun env.recorded (coreFour env.recorded B) call seq l w st e l' w') :
    ∃ asked, w'.env.2 = w.env.2 ++ asked ∧
      Metered B call.workflowId (w.modelRouter.usage call.workflowId) l (agentSteps st)
        (modelCalls asked) (w'.modelRouter.usage call.workflowId) e l' := by
  induction h with
  | done l w => exact ⟨[], (List.append_nil _).symm, .done _ l⟩
  | leave ht =>
    obtain ⟨asked, hx, hm⟩ := Turn.metered env B call ht
    exact ⟨asked, hx, hm.leave⟩
  | next ht _ ih =>
    obtain ⟨asked, hx, hm⟩ := Turn.metered env B call ht
    obtain ⟨asked', hx', hm'⟩ := ih
    refine ⟨asked ++ asked', by rw [hx', hx, List.append_assoc], ?_⟩
    rw [modelCalls_append, agentSteps_append]
    exact hm.next hm'

end Turn

/-! ## What a metered loop says -/

section Facts

variable {B : Nat} {workflowId : String} {used total : Nat} {l l' : Locals}
  {as : List (AgentId × Except Thrown AgentResult)}
  {cs : List (ModelRequest × Except Thrown ModelResponse)} {e : LoopEnd}

@[simp] theorem tokensSpent_nil : tokensSpent [] = 0 := rfl

@[simp] theorem tokensSpent_cons (c : ModelRequest × Except Thrown ModelResponse) :
    tokensSpent (c :: cs) = tokensOf c.2 + tokensSpent cs := rfl

/-- The model is asked for an agent exactly while the counter is below the budget. -/
theorem Metered.called_iff (h : Metered B workflowId used l as cs total e l') (i : Nat) :
    i < cs.length ↔ i < as.length ∧ used + tokensSpent (cs.take i) < B := by
  induction h generalizing i with
  | done => simp
  | refused hb =>
    have : ¬ _ < B := Nat.not_lt.mpr hb
    simp [this]
  | rejected hb =>
    cases i with
    | zero => simpa using hb
    | succ i => simp
  | leave hb =>
    cases i with
    | zero => simpa using hb
    | succ i => simp
  | next hb _ _ ih =>
    cases i with
    | zero => simpa using hb
    | succ i =>
      have := ih i
      simp only [List.length_cons, Nat.add_lt_add_iff_right, List.take_succ_cons,
        tokensSpent_cons, tokensOf]
      rw [this, Nat.add_assoc]

/-- A call is for the agent of the same place, and fails exactly if that agent does. -/
theorem Metered.asked (h : Metered B workflowId used l as cs total e l') (i : Nat)
    {a : AgentId × Except Thrown AgentResult} {c : ModelRequest × Except Thrown ModelResponse}
    (ha : as[i]? = some a) (hc : cs[i]? = some c) :
    c.1.agentId = some a.1 ∧ c.2.isOk = a.2.isOk := by
  induction h generalizing i with
  | done => simp at hc
  | refused => simp at hc
  | rejected _ hq =>
    cases i with
    | zero =>
      obtain rfl := Option.some.inj ha
      obtain rfl := Option.some.inj hc
      exact ⟨hq, rfl⟩
    | succ i => simp at hc
  | leave _ hq =>
    cases i with
    | zero =>
      obtain rfl := Option.some.inj ha
      obtain rfl := Option.some.inj hc
      exact ⟨hq, rfl⟩
    | succ i => simp at hc
  | next _ hq _ ih =>
    cases i with
    | zero =>
      obtain rfl := Option.some.inj ha
      obtain rfl := Option.some.inj hc
      exact ⟨hq, rfl⟩
    | succ i => exact ih i ha hc

/-- An agent that finds the counter at the budget ends the loop, with the results and the artifacts
    of the agents before it. -/
theorem Metered.cut (h : Metered B workflowId used l as cs total e l') (i : Nat)
    (hi : i < as.length) (hB : B ≤ used + tokensSpent (cs.take i)) :
    as.length = i + 1 ∧ cs.length = i ∧
      e = .thrown (.tokenBudgetExceeded workflowId (used + tokensSpent cs) B) ∧
      l'.agentResults = l.agentResults ++ results (as.take i) ∧
      l'.artifacts = l.artifacts ++ (results (as.take i)).flatMap (·.artifacts) := by
  induction h generalizing i with
  | done => simp at hi
  | refused hb =>
    obtain rfl : i = 0 := by simpa using hi
    simp [results]
  | rejected hb =>
    obtain rfl : i = 0 := by simpa using hi
    exact absurd hB (Nat.not_le.mpr (by simpa using hb))
  | leave hb =>
    obtain rfl : i = 0 := by simpa using hi
    exact absurd hB (Nat.not_le.mpr (by simpa using hb))
  | @next used total a q r response as cs e l l' hb _ _ ih =>
    cases i with
    | zero => exact absurd hB (Nat.not_le.mpr (by simpa using hb))
    | succ i =>
      simp only [List.take_succ_cons, tokensSpent_cons, tokensOf, ← Nat.add_assoc] at hB
      obtain ⟨has, hcs, he, hr, hart⟩ := ih i (Nat.lt_of_succ_lt_succ hi) hB
      refine ⟨congrArg (· + 1) has, congrArg (· + 1) hcs, ?_, ?_, ?_⟩
      · rw [he, tokensSpent_cons, tokensOf, ← Nat.add_assoc]
      · rw [hr]
        simp [Locals.push, results]
      · rw [hart]
        simp [Locals.push, results]

theorem Metered.total_eq (h : Metered B workflowId used l as cs total e l') :
    total = used + tokensSpent cs := by
  induction h with
  | done => rfl
  | refused => rfl
  | rejected => rfl
  | leave => rfl
  | next _ _ _ ih => rw [ih, tokensSpent_cons, tokensOf, Nat.add_assoc]

theorem lastTokens_cons_ok (q : ModelRequest) (response : ModelResponse) :
    lastTokens ((q, .ok response) :: cs) =
      if cs.filter (·.2.isOk) = [] then ModelRouter.tokens response else lastTokens cs := by
  unfold lastTokens
  rw [List.filter_cons_of_pos rfl, List.getLast?_cons]
  split
  · rename_i h
    rw [h]
    rfl
  · rename_i h
    rw [List.getLast?_eq_some_getLast h]
    rfl

/-- A loop that starts below the budget exceeds it by less than its last successful call. -/
theorem Metered.total_lt (h : Metered B workflowId used l as cs total e l') (hused : used < B) :
    total < B + lastTokens cs := by
  induction h with
  | done => exact Nat.lt_add_right _ hused
  | refused hb => exact absurd hused (Nat.not_lt.mpr hb)
  | rejected => exact Nat.lt_add_right _ hused
  | leave =>
    rw [lastTokens_cons_ok, List.filter_nil, if_pos rfl]
    omega
  | @next used total a q r response as cs e l l' hb hq h ih =>
    rw [lastTokens_cons_ok]
    by_cases hlt : used + ModelRouter.tokens response < B
    · have := ih hlt
      split
      · rename_i hnil
        have hzero : lastTokens cs = 0 := by
          unfold lastTokens
          rw [hnil]
          rfl
        omega
      · exact this
    · -- the counter has reached the budget: nobody is asked any more
      have hend : cs = [] ∧ total = used + ModelRouter.tokens response := by
        cases h with
        | done => exact ⟨rfl, rfl⟩
        | refused => exact ⟨rfl, rfl⟩
        | rejected hb => exact absurd hb hlt
        | leave hb => exact absurd hb hlt
        | next hb => exact absurd hb hlt
      rw [hend.1, hend.2, List.filter_nil, if_pos rfl]
      omega

end Facts

/-! ## The whole call -/

/-- What the budget makes of a call with the agents `as`, the model calls `cs` and the outcome
    `outcome`; `usage` is the counter of its workflow in the end. -/
structure CutOff (B : Nat) (as : List (AgentId × Except Thrown AgentResult))
    (cs : List (ModelRequest × Except Thrown ModelResponse))
    (outcome : Except Thrown WorkflowResult) (usage : Nat) : Prop where
  /-- A call is for the agent of the same place. -/
  asked : ∀ (i : Nat) a c, as[i]? = some a → cs[i]? = some c →
    c.1.agentId = some a.1 ∧ c.2.isOk = a.2.isOk
  /-- The model is asked for the agent of place `i` if that agent is reached below the budget. -/
  called_iff : ∀ i, i < cs.length ↔ i < as.length ∧ tokensSpent (cs.take i) < B
  /-- An agent that is reached at the budget is the last one, and is not asked for. -/
  cut : ∀ i, i < as.length → B ≤ tokensSpent (cs.take i) →
    as.length = i + 1 ∧ cs.length = i ∧ ∃ r, outcome = .ok r ∧ r.status = .failed ∧
      r.failure.map (·.phase) = some "model-routing" ∧
      r.agentResults = results (as.take i) ∧
      r.artifacts = (results (as.take i)).flatMap (·.artifacts)
  usage_eq : usage = tokensSpent cs
  usage_lt : usage < B + lastTokens cs

/-- The result of a call whose loop the budget ended. -/
theorem conclude_thrown {ε : Type} (env : Env ε) (agents : Agents ε) (call : Call) (l : Locals)
    (id : String) (used B : Nat) (w : World ε) :
    ∃ r, (run (orchHandler env agents)
        (conclude call (.thrown (.tokenBudgetExceeded id used B), l)) w).1 = .ok r ∧
      r.status = .failed ∧ r.failure.map (·.phase) = some "model-routing" ∧
      r.agentResults = l.agentResults ∧ r.artifacts = l.artifacts := ⟨_, rfl, rfl, rfl, rfl, rfl⟩

/-- What follows the loop asks nobody and leaves the router alone. -/
theorem conclude_asks_nobody {ε : Type} (env : Env ε) (agents : Agents (ε × List Exchange))
    (call : Call) (e : LoopEnd) (l : Locals) (w : World (ε × List Exchange)) :
    let w' := (run (orchHandler env.recorded agents) (conclude call (e, l)) w).2
    w'.env.2 = w.env.2 ∧ w'.modelRouter = w.modelRouter := by
  cases e with
  | finished => exact ⟨rfl, rfl⟩
  | blocked b => exact ⟨rfl, rfl⟩
  | thrown e =>
    cases hr : e.reason with
    | error t =>
      rw [run_conclude_unreadable _ _ _ hr]
      exact ⟨rfl, rfl⟩
    | ok reason =>
      rw [run_conclude_readable _ _ _ hr]
      exact ⟨rfl, rfl⟩

theorem executeAs_cutOff {ε : Type} (env : Env ε) (B : Nat) (hB : 0 < B) (input : Input)
    (workflowId startedAt : String) (w : World ε) (hfresh : w.modelRouter.usage workflowId = 0) :
    let p := executeAs input workflowId startedAt
    let out := run (systemHandler env B) p w
    CutOff B (agentSteps (steps (trace (systemHandler env B) p w)))
      (modelCalls (exchanges env B p w)) out.1 (out.2.modelRouter.usage workflowId) := by
  intro p out
  obtain ⟨e, l, w', hl, hrun⟩ := executeAs_runs env.recorded (coreFour env.recorded B) input
    workflowId startedAt w.recording
  obtain ⟨asked, hx, hm⟩ := hl.metered
  obtain ⟨hx', hr'⟩ := conclude_asks_nobody env (coreFour env.recorded B)
    (callOf input workflowId startedAt) e l w'
  have hout : out = _ := run_recording env B p w
  have hcalls : exchanges env B p w = asked := by
    unfold exchanges
    rw [hrun, hx', hx]
    rfl
  have husage : out.2.modelRouter.usage workflowId = w'.modelRouter.usage workflowId := by
    rw [hout, hrun]
    exact congrArg (·.usage workflowId) hr'
  rw [trace_recording, hcalls, husage]
  have hzero : (startedWorld env.recorded input (callOf input workflowId startedAt)
      w.recording).modelRouter.usage (callOf input workflowId startedAt).workflowId = 0 := hfresh
  rw [hzero] at hm
  refine ⟨fun i a c => hm.asked i, fun i => ?_, fun i hi hB' => ?_, ?_, ?_⟩
  · rw [hm.called_iff i, Nat.zero_add]
  · obtain ⟨has, hcs, rfl, hres, hart⟩ := hm.cut i hi (by rwa [Nat.zero_add])
    obtain ⟨r, hr, hstatus, hphase, hres', hart'⟩ := conclude_thrown env.recorded
      (coreFour env.recorded B) (callOf input workflowId startedAt) l _ _ _ w'
    rw [hout, hrun]
    exact ⟨has, hcs, r, hr, hstatus, hphase, hres'.trans hres, hart'.trans hart⟩
  · exact hm.total_eq.trans (Nat.zero_add _)
  · exact hm.total_lt hB

/-- The budget cut-off of a whole call, whose workflow id is new to the router. -/
theorem execute_cutOff {ε : Type} (env : Env ε) (B : Nat) (hB : 0 < B) (input : Input)
    (w : World ε) (hfresh : w.modelRouter.usage ((w.now env).2.randomUUID env).1 = 0) :
    let workflowId := ((w.now env).2.randomUUID env).1
    let out := run (systemHandler env B) (execute input) w
    CutOff B (agentSteps (steps (trace (systemHandler env B) (execute input) w)))
      (modelCalls (exchanges env B (execute input) w)) out.1
      (out.2.modelRouter.usage workflowId) :=
  executeAs_cutOff env B hB input _ (w.now env).1 ((w.now env).2.randomUUID env).2 hfresh

/-- Two tokens a call and a budget of three: the third agent is refused. -/
theorem execute_cutOff_third :
    let env := Env.constant "{}" true
    let input := bareInput irreversibleTask (some sequentialReviewStrategy)
    let out := run (systemHandler env 3) (execute input) (World.create ())
    CutOff 3 (agentSteps (steps (trace (systemHandler env 3) (execute input) (World.create ()))))
      (modelCalls (exchanges env 3 (execute input) (World.create ()))) out.1
      (out.2.modelRouter.usage "3f2c") :=
  execute_cutOff (Env.constant "{}" true) 3 (by decide)
    (bareInput irreversibleTask (some sequentialReviewStrategy)) (World.create ()) rfl

end HarpOrchestrator

end Harp
