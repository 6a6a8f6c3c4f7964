import Harp.Orchestration.ApprovalFloor

/-
  Model text cannot steer governance.

  `govern` is what a call is for, with the texts left out: the course it takes through a
  sequence of agents, given the verdicts of the approval provider. It has no access to any
  text, id or time. `Passes.governed` shows that a loop whose texts are all usable takes
  exactly this course, so two such calls with the same verdicts cannot be told apart by
  anything `Outline` shows.
-/

namespace Harp

open Prog

namespace HarpOrchestrator

/-! ## The course of a call -/

/-- What a decision amounts to, or the provider's rejection. -/
inductive Verdict where
  | granted
  | notRequired
  | denied
  | rejected
  /-- A rejection whose text cannot be read. -/
  | unreadable
  deriving DecidableEq, Repr

def Verdict.of : Except Thrown ApprovalDecision → Verdict
  | .error e => if e.Readable then .rejected else .unreadable
  | .ok d =>
    if d.passes then (if d.required then .granted else .notRequired) else .denied

/-- A step without its texts: the agent with its status and flag, or the point of a
    consultation. -/
inductive Mark where
  | ran (agentId : AgentId) (outcome : Option (AgentStatus × Bool))
  | consulted (phase action : String)
  deriving DecidableEq, Repr

/-- Actor, action and approval state of an audit event. -/
abbrev Badge := Actor × String × Option ApprovalState

/-- What is left of the result of a call. -/
structure Shown where
  results : List (AgentId × AgentStatus × Bool)
  status : WorkflowStatus
  approvalRequired : Bool
  deriving DecidableEq, Repr

/-- What is left of a call when texts, lists, ids and times are removed; `none` stands for a
    call that rejects. -/
structure Outline where
  marks : List Mark
  audit : List Badge
  returned : Option Shown
  deriving DecidableEq, Repr

/-- The course of the loop and of the end of a call, with the status it returns, if it does. -/
structure Course where
  marks : List Mark
  audit : List Badge
  results : List (AgentId × AgentStatus × Bool)
  status : Option WorkflowStatus

/-- A course with something in front. -/
def Course.after (marks : List Mark) (audit : List Badge)
    (results : List (AgentId × AgentStatus × Bool)) (c : Course) : Course where
  marks := marks ++ c.marks
  audit := audit ++ c.audit
  results := results ++ c.results
  status := c.status

/-- The end of a course. -/
def Course.ending (audit : List Badge) (status : Option WorkflowStatus) : Course where
  marks := []
  audit := audit
  results := []
  status := status

def agentBadges (a : AgentId) : List Badge :=
  [(.agent a, "agent.started", none), (.agent a, "agent.completed", none)]

/-- What a usable answer of `a` contributes. -/
def govAgent (task : AgentTask) (a : AgentId) (c : Course) : Course :=
  let flag := HarpAgent.approvalFlag a task true
  c.after [.ran a (some (.success, flag))] (agentBadges a) [(a, .success, flag)]

/-- The gate: on with `rest`, or an end. -/
def govGate (v : Verdict) (rest : Course) : Course :=
  Course.after [.consulted "production" "repo.write"] [] [] (
    match v with
    | .granted => rest.after [] [(.system, "workflow.approval_evaluated", some .granted)] []
    | .notRequired =>
      rest.after [] [(.system, "workflow.approval_evaluated", some .notRequired)] []
    | .denied =>
      .ending [(.system, "workflow.approval_required", some .denied)] (some .approvalRequired)
    | .rejected => .ending [(.system, "workflow.failed", none)] (some .failed)
    | .unreadable => .ending [] none)

/-- The course through a sequence of agents whose answers are all usable, where `vs n` is the
    verdict at the `n`-th consultation. -/
def govern (task : AgentTask) : List AgentId → (Nat → Verdict) → Course
  | [], _ => .ending [(.system, "workflow.completed", none)] (some .completed)
  | a :: rest, vs =>
    govAgent task a (
      if a = .ra then govGate (vs 0) (govern task rest fun n => vs (n + 1))
      else govern task rest vs)

/-! ## The outline of a run -/

def Step.mark : Step → Mark
  | .agent a (.ok r) => .ran a (some (r.status, r.approvalRequired))
  | .agent a (.error _) => .ran a none
  | .consult q _ => .consulted q.phase q.action

def badge (e : AuditEntry) : Badge := (e.actor, e.action, e.approvalState)

def resultMark (r : AgentResult) : AgentId × AgentStatus × Bool :=
  (r.agentId, r.status, r.approvalRequired)

def Shown.of (r : WorkflowResult) : Shown where
  results := r.agentResults.map resultMark
  status := r.status
  approvalRequired := r.approvalRequired

/-- The outline of a call with steps `st`, audit events `events` and the outcome `outcome`. -/
def outline (st : List Step) (events : List AuditEvent) (outcome : Except Thrown WorkflowResult) :
    Outline where
  marks := st.map Step.mark
  audit := events.map fun e => badge e.toAuditEntry
  returned := outcome.toOption.map Shown.of

/-- The verdicts among what the providers answered. -/
def verdicts : List Exchange → List Verdict
  | [] => []
  | .model _ _ :: xs => verdicts xs
  | .approval _ answer :: xs => Verdict.of answer :: verdicts xs

/-- The model answered with a usable text, or this is no question to the model. -/
def usableText : Exchange → Bool
  | .approval _ _ => true
  | x => accepted x

@[simp] theorem usable_answered (call : Call) (a : AgentId) (input : AgentExecuteInput)
    (response : ModelResponse) (artifact : Artifact) :
    (answered call a input response artifact).exchanges.all usableText =
      HarpAgent.accepts response.text := by
  simp [answered, usableText, accepted]

@[simp] theorem usable_gated (call : Call) (r : AgentResult)
    (decision : Except Thrown ApprovalDecision) (entries : List AuditEntry)
    (artifacts : List Artifact) :
    (gated call r decision entries artifacts).exchanges.all usableText = true := by
  simp [gated, usableText]

/-- No agent was refused by the token budget. -/
def unrefused (st : List Step) : Bool :=
  st.all fun
    | .agent _ (.error e) => !e.isTokenBudgetExceeded
    | _ => true

/-- The verdicts given are those of `vs`. -/
def Follows (xs : List Exchange) (vs : Nat → Verdict) : Prop :=
  ∀ i v, (verdicts xs)[i]? = some v → vs i = v

theorem Follows.tail {xs ys : List Exchange} {v : Verdict} {vs : Nat → Verdict}
    (h : Follows xs vs) (hx : verdicts xs = v :: verdicts ys) :
    vs 0 = v ∧ Follows ys fun n => vs (n + 1) := by
  unfold Follows at h
  rw [hx] at h
  exact ⟨h 0 v rfl, fun i u hu => h (i + 1) u hu⟩

/-! ## A loop takes its course -/

/-- What the end of a call adds to the audit. -/
def LoopEnd.badges : LoopEnd → List Badge
  | .finished => [(.system, "workflow.completed", none)]
  | .thrown t => if t.Readable then [(.system, "workflow.failed", none)] else []
  | .blocked _ => []

/-- The status that the end of a call returns, if it returns. -/
def LoopEnd.returned : LoopEnd → Option WorkflowStatus
  | .thrown t => if t.Readable then some .failed else none
  | e => some e.status

section

variable {call : Call} {l : Locals} {e : LoopEnd} {outcome : Except Thrown WorkflowResult}
  {es : List AuditEntry}

theorem Ending.badges (h : Ending call l e outcome es) : es.map badge = e.badges := by
  cases h with
  | completed => rfl
  | failed he => exact (if_pos (Thrown.readable_iff.mpr ⟨_, he⟩)).symm
  | unread he => exact (if_neg (Thrown.not_readable_iff.mpr ⟨_, he⟩)).symm
  | blocked => rfl

theorem Ending.returned (h : Ending call l e outcome es) :
    e.returned = outcome.toOption.map fun _ => e.status := by
  cases h with
  | completed => rfl
  | failed he => exact if_pos (Thrown.readable_iff.mpr ⟨_, he⟩)
  | unread he => exact if_neg (Thrown.not_readable_iff.mpr ⟨_, he⟩)
  | blocked => rfl

end

/-- The loop took the course `c`. -/
structure Takes (l : Locals) (rec : Record) (e : LoopEnd) (l' : Locals) (c : Course) : Prop where
  marks : rec.steps.map Step.mark = c.marks
  audit : rec.entries.map badge ++ e.badges = c.audit
  results : l'.agentResults.map resultMark = l.agentResults.map resultMark ++ c.results
  status : e.returned = c.status

theorem answer_mark {call : Call} {a : AgentId} {text : String} {artifact : Artifact}
    (h : HarpAgent.accepts text = true) :
    resultMark (answer call a text artifact) =
      (a, .success, HarpAgent.approvalFlag a call.task true) := by
  rw [resultMark, answer_status, answer_approvalRequired, h]
  exact congrArg (·, _) (HarpAgent.resultOf_agentId _ _ _ _)

/-- One usable answer in front of a course. -/
theorem Takes.agent {call : Call} {a : AgentId} {input : AgentExecuteInput}
    {response : ModelResponse} {artifact : Artifact} {l l' : Locals} {rec : Record} {e : LoopEnd}
    {c : Course} (ha : HarpAgent.accepts response.text = true)
    (h : Takes (l.push a (answer call a response.text artifact)) rec e l' c) :
    Takes l (answered call a input response artifact ++ rec) e l' (govAgent call.task a c) := by
  have hm : resultMark (answer call a response.text artifact) = _ := answer_mark ha
  have hstep : Step.mark (.agent a (.ok (answer call a response.text artifact))) =
      .ran a (some (.success, HarpAgent.approvalFlag a call.task true)) :=
    congrArg (Mark.ran a ∘ some) (Prod.mk.inj hm).2
  refine ⟨?_, ?_, ?_, h.status⟩
  · simp only [Record.steps_append, answered, List.map_append, List.map_cons, List.map_nil, hstep,
      h.marks]
    rfl
  · simp only [Record.entries_append, answered, List.map_append, List.append_assoc, h.audit]
    rfl
  · rw [h.results]
    simp [Locals.push, hm, govAgent, Course.after]

/-- A consultation that lets the work pass, in front of a course. -/
theorem Takes.passed {call : Call} {r : AgentResult} {d : ApprovalDecision} {l l' : Locals}
    {rec : Record} {e : LoopEnd} {c : Course} (hd : d.passes = true) (h : Takes l rec e l' c) :
    Takes l (gated call r (.ok d) [evaluatedEntry call d] [] ++ rec) e l'
      (govGate (Verdict.of (.ok d)) c) := by
  refine ⟨?_, ?_, ?_, ?_⟩ <;> cases hr : d.required <;>
    simp [gated, govGate, Verdict.of, hd, hr, Course.after, ← h.marks, ← h.audit, h.results,
      h.status, Step.mark, approvalRequest, badge, evaluatedEntry, entry]

theorem Passes.governed {call : Call} (hs : call.strategy.StopsOnBlocked) {seq : List AgentId}
    {l l' : Locals} {rec : Record} {e : LoopEnd} (h : Passes call seq l rec e l')
    (hl : ∀ r ∈ l.agentResults, r.status = .success) (ha : rec.exchanges.all usableText = true)
    (hb : unrefused rec.steps = true) {vs : Nat → Verdict} (hv : Follows rec.exchanges vs) :
    Takes l rec e l' (govern call.task seq vs) := by
  induction h generalizing vs with
  | done => exact ⟨rfl, rfl, (List.append_nil _).symm, rfl⟩
  | leave h =>
    generalize hte : TurnEnd.leave _ = te at h
    cases h with
    | refused => cases hb
    | rejected => cases ha
    | returned _ _ response =>
      have hok : HarpAgent.accepts response.text = true := by
        simpa using ha
      rw [stopCheck_push hs hl hok] at hte
      cases hte
    | passed _ _ response _ hd =>
      have hok : HarpAgent.accepts response.text = true := by
        simpa using ha
      rw [stopCheck_push hs hl hok] at hte
      cases hte
    | gateThrew _ hra response _ err =>
      cases hte
      have hok : HarpAgent.accepts response.text = true := by
        simpa using ha
      have h0 : vs 0 = Verdict.of (.error err) := hv 0 _ rfl
      rw [govern, if_pos hra, h0]
      refine .agent hok ?_
      by_cases herr : err.Readable
      · rw [Verdict.of, if_pos herr]
        exact ⟨rfl, if_pos herr, (List.append_nil _).symm, if_pos herr⟩
      · rw [Verdict.of, if_neg herr]
        exact ⟨rfl, if_neg herr, (List.append_nil _).symm, if_neg herr⟩
    | denied _ hra response _ hd =>
      cases hte
      have hok : HarpAgent.accepts response.text = true := by
        simpa using ha
      have h0 : vs 0 = .denied := by
        rw [hv 0 _ rfl]
        simp [Verdict.of, hd]
      rw [govern, if_pos hra, h0]
      exact .agent hok ⟨rfl, rfl, (List.append_nil _).symm, rfl⟩
  | @next _ _ _ _ _ _ rec' _ h hr ih =>
    have hb' : unrefused rec'.steps = true := by
      rw [unrefused, Record.steps_append, List.all_append, Bool.and_eq_true] at hb
      exact hb.2
    cases h.onward with
    | returned _ hne response =>
      obtain ⟨hok, ha'⟩ : HarpAgent.accepts response.text = true ∧
          rec'.exchanges.all usableText = true := by
        simpa using ha
      rw [govern, if_neg hne]
      exact .agent hok (ih (success_push hl _ hok) ha' hb' hv)
    | @passed _ _ hra response _ _ d hd =>
      obtain ⟨hok, ha'⟩ : HarpAgent.accepts response.text = true ∧
          rec'.exchanges.all usableText = true := by
        simpa using ha
      obtain ⟨h0, hv'⟩ : vs 0 = Verdict.of (.ok d) ∧ Follows rec'.exchanges fun n => vs (n + 1) :=
        hv.tail rfl
      rw [govern, if_pos hra, h0]
      exact .agent hok (.passed hd (ih (success_push hl _ hok) ha' hb' hv'))

/-! ## Two runs -/

/-- The outline of a call of the system. -/
def runOutline {ε : Type} (env : Env ε) (budget : Nat) (input : Input) (w : World ε) : Outline :=
  let out := run (systemHandler env budget) (execute input) w
  outline (steps (trace (systemHandler env budget) (execute input) w))
    (out.2.auditLogger.events.drop w.auditLogger.events.length) out.1

/-- The outline that a course gives a call. -/
def Course.outline (c : Course) : Outline where
  marks := c.marks
  audit := (.system, "workflow.started", none) :: c.audit
  returned := c.status.map fun status =>
    { results := c.results
      status := status
      approvalRequired := if status = .completed then c.results.any (·.2.2) else true }

/-- A call with usable texts and no refusal takes the course its verdicts prescribe. -/
theorem runOutline_eq_govern {ε : Type} (env : Env ε) (budget : Nat) (input : Input) (w : World ε)
    (hs : ∀ s, input.forceStrategy = some s → Known s)
    (ha : (exchanges env budget (execute input) w).all usableText = true)
    (hb : unrefused (steps (trace (systemHandler env budget) (execute input) w)) = true)
    {vs : Nat → Verdict} (hv : Follows (exchanges env budget (execute input) w) vs) :
    runOutline env budget input w =
      (govern input.task ((strategyFor input).selectSequence input.task) vs).outline := by
  obtain ⟨rec, e, l, es, hp, hend, hst, hx, hw⟩ := execute_passes env budget input w
  rw [← hst] at hb
  rw [← hx] at ha hv
  have ht : Takes .empty rec e l
      (govern input.task ((strategyFor input).selectSequence input.task) vs) :=
    hp.governed (strategyFor_known hs).stopsOnBlocked (by simp [Locals.empty]) ha hb hv
  obtain ⟨evs, hevs, hmap⟩ := hw.events
  have hres : l.agentResults.map resultMark = (govern input.task
      ((strategyFor input).selectSequence input.task) vs).results := by
    simpa [Locals.empty] using ht.results
  have haudit : evs.map (fun ev => badge ev.toAuditEntry) =
      (.system, "workflow.started", none) :: (govern input.task
        ((strategyFor input).selectSequence input.task) vs).audit := by
    rw [show (fun ev : AuditEvent => badge ev.toAuditEntry) = badge ∘ (·.toAuditEntry) from rfl,
      ← List.map_map, hmap, ← ht.audit, ← hend.badges]
    simp [started, badge, startedEntry, entry]
  unfold runOutline outline Course.outline
  simp only [hevs, List.drop_left, haudit, ← hst, ht.marks, ← hres, ← ht.status, hend.returned,
    Option.map_map]
  congr 1
  cases hout : (run (systemHandler env budget) (execute input) w).1 with
  | error t => rfl
  | ok r =>
    have hr : Reports _ l e.status (e.approvalRequired l) r := hp.reports (hout ▸ hend)
    refine congrArg some ?_
    simp only [Shown.of, hr.agentResults, hr.status, hr.approvalRequired, Function.comp_apply]
    congr 1
    cases e with
    | finished =>
      simp only [LoopEnd.approvalRequired, LoopEnd.status, if_true, List.any_map]
      rfl
    | blocked => rfl
    | thrown => rfl

/-- Two calls on the same input whose texts are all usable, without a budget refusal and with
    the same verdict at each consultation, have the same outline. -/
theorem runOutline_independent {ε₁ ε₂ : Type} (env₁ : Env ε₁) (env₂ : Env ε₂)
    (budget₁ budget₂ : Nat) (input : Input) (w₁ : World ε₁) (w₂ : World ε₂)
    (hs : ∀ s, input.forceStrategy = some s → Known s)
    (ha₁ : (exchanges env₁ budget₁ (execute input) w₁).all usableText = true)
    (ha₂ : (exchanges env₂ budget₂ (execute input) w₂).all usableText = true)
    (hb₁ : unrefused (steps (trace (systemHandler env₁ budget₁) (execute input) w₁)) = true)
    (hb₂ : unrefused (steps (trace (systemHandler env₂ budget₂) (execute input) w₂)) = true)
    (hd : ∀ (i : Nat) (v₁ v₂ : Verdict),
      (verdicts (exchanges env₁ budget₁ (execute input) w₁))[i]? = some v₁ →
      (verdicts (exchanges env₂ budget₂ (execute input) w₂))[i]? = some v₂ → v₁ = v₂) :
    runOutline env₁ budget₁ input w₁ = runOutline env₂ budget₂ input w₂ := by
  -- one supply of verdicts serves both runs
  let vs : Nat → Verdict := fun i =>
    ((verdicts (exchanges env₁ budget₁ (execute input) w₁))[i]?).getD
      (((verdicts (exchanges env₂ budget₂ (execute input) w₂))[i]?).getD .rejected)
  have hv₁ : Follows (exchanges env₁ budget₁ (execute input) w₁) vs := by
    intro i v hi
    simp [vs, hi]
  have hv₂ : Follows (exchanges env₂ budget₂ (execute input) w₂) vs := by
    intro i v hi
    cases h₁ : (verdicts (exchanges env₁ budget₁ (execute input) w₁))[i]? with
    | none => simp [vs, h₁, hi]
    | some v₁ => simp [vs, h₁, hd i v₁ v h₁ hi]
  rw [runOutline_eq_govern env₁ budget₁ input w₁ hs ha₁ hb₁ hv₁,
    runOutline_eq_govern env₂ budget₂ input w₂ hs ha₂ hb₂ hv₂]

theorem runOutline_independent_sequential :
    runOutline (Env.constant "{}" true) 200000
        (bareInput irreversibleTask (some sequentialReviewStrategy)) (World.create ()) =
      runOutline (Env.constant "ok {}" true) 200000
        (bareInput irreversibleTask (some sequentialReviewStrategy)) (World.create ()) := by
  have hv : verdicts (exchanges (Env.constant "{}" true) 200000
      (execute (bareInput irreversibleTask (some sequentialReviewStrategy))) (World.create ())) =
      verdicts (exchanges (Env.constant "ok {}" true) 200000
        (execute (bareInput irreversibleTask (some sequentialReviewStrategy)))
        (World.create ())) := by decide +kernel
  refine runOutline_independent _ _ _ _ _ _ _
    (fun s h => .inl (bareInput_forced _ (by simp [allStrategies]) s h)) (by decide +kernel)
    (by decide +kernel) (by decide +kernel) (by decide +kernel) fun i v₁ v₂ h₁ h₂ => ?_
  rw [hv, h₂] at h₁
  exact (Option.some.inj h₁).symm

end HarpOrchestrator

end Harp
