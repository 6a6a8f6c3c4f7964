import Harp.Orchestration.AuditTrail
import Harp.Orchestration.TokenBudget

/-
  The actor of a failure (`handleFailure` of `src/orchestration/HarpOrchestrator.ts`).

  The handler takes the last agent that completed, or the system. A loop that an agent left by
  rejecting holds the results of the agents before it (`Passes.threw`, by induction on the
  passes), so the handler names the agent before the one that failed. The event, the status and
  the results are right in every failed run whose exception has a text; the actor is right only
  where the sequence repeats an agent (`namesFailed_iff`).
-/

namespace Harp

open Prog

namespace HarpOrchestrator

/-! ## Where an agent rejected -/

/-- A pass runs its agent, which rejects and ends the loop, or returns a result of its own. -/
theorem Pass.agentSteps {call : Call} {a : AgentId} {l l' : Locals} {rec : Record} {te : TurnEnd}
    (h : Pass call a l rec te l') :
    (∃ e, te = .leave (.thrown e) ∧ agentSteps rec.steps = [(a, .error e)] ∧ l' = l) ∨
      ∃ r, r.agentId = a ∧ HarpOrchestrator.agentSteps rec.steps = [(a, .ok r)] ∧
        l'.agentResults = l.agentResults ++ [r] := by
  cases h with
  | refused => exact .inl ⟨_, rfl, rfl, rfl⟩
  | rejected => exact .inl ⟨_, rfl, rfl, rfl⟩
  | returned => exact .inr ⟨_, answer_agentId _ _ _ _, rfl, rfl⟩
  | gateThrew => exact .inr ⟨_, answer_agentId _ _ _ _, rfl, rfl⟩
  | passed => exact .inr ⟨_, answer_agentId _ _ _ _, rfl, rfl⟩
  | denied => exact .inr ⟨_, answer_agentId _ _ _ _, rfl, rfl⟩

/-- What a loop holds that the agent at place `k` left by rejecting. -/
structure ThrewAt (seq : List AgentId) (k : ℕ) (a : AgentId)
    (as : List (AgentId × Except Thrown AgentResult)) (rs : List AgentResult) : Prop where
  agent : seq[k]? = some a
  before : as.take k = (seq.take k).zip (rs.map .ok)
  length : rs.length = k
  agents : rs.map (·.agentId) = seq.take k

theorem ThrewAt.here {a : AgentId} (rest : List AgentId) (err : Thrown) :
    ThrewAt (a :: rest) 0 a [(a, .error err)] [] := ⟨rfl, rfl, rfl, rfl⟩

theorem ThrewAt.later {seq : List AgentId} {k : ℕ} {a : AgentId}
    {as : List (AgentId × Except Thrown AgentResult)} {rs : List AgentResult}
    (h : ThrewAt seq k a as rs) (r : AgentResult) :
    ThrewAt (r.agentId :: seq) (k + 1) a ((r.agentId, .ok r) :: as) (r :: rs) where
  agent := h.agent
  before := by
    rw [List.take_succ_cons, List.take_succ_cons, h.before]
    rfl
  length := congrArg (· + 1) h.length
  agents := by rw [List.map_cons, h.agents, List.take_succ_cons]

/-- The place of a rejection in a list of one agent. -/
theorem rejected_of_singleton {k : ℕ} {x : AgentId × Except Thrown AgentResult} {a : AgentId}
    {err : Thrown} (h : [x][k]? = some (a, .error err)) : k = 0 ∧ x = (a, .error err) := by
  cases k with
  | zero => exact ⟨rfl, Option.some.inj h⟩
  | succ k => cases h

/-- A loop in which the agent at place `k` rejected ended there. -/
theorem Passes.threw {call : Call} {seq : List AgentId} {l l' : Locals} {rec : Record}
    {e : LoopEnd} (h : Passes call seq l rec e l') {k : ℕ} {a : AgentId} {err : Thrown}
    (hk : (agentSteps rec.steps)[k]? = some (a, .error err)) :
    e = .thrown err ∧ ∃ rs, l'.agentResults = l.agentResults ++ rs ∧
      ThrewAt seq k a (agentSteps rec.steps) rs := by
  induction h generalizing k with
  | done => cases hk
  | leave h =>
    rcases h.agentSteps with ⟨e, hte, hsteps, rfl⟩ | ⟨r, hr, hsteps, hl⟩
    · rw [hsteps] at hk ⊢
      obtain ⟨rfl, hx⟩ := rejected_of_singleton hk
      cases hx
      obtain rfl := TurnEnd.leave.inj hte
      exact ⟨rfl, [], (List.append_nil _).symm, .here _ _⟩
    · rw [hsteps] at hk
      obtain ⟨-, hx⟩ := rejected_of_singleton hk
      cases hx
  | next h _ ih =>
    rcases h.agentSteps with ⟨e, hte, -, -⟩ | ⟨r, rfl, hsteps, hl⟩
    · cases hte
    · rw [Record.steps_append, agentSteps_append, hsteps] at hk ⊢
      cases k with
      | zero => cases hk
      | succ k =>
        obtain ⟨he, rs, hrs, hthrew⟩ := ih hk
        refine ⟨he, r :: rs, ?_, hthrew.later r⟩
        rw [hrs, hl, List.append_assoc]
        rfl

/-! ## What the handler names -/

theorem failedActor_eq (as : List AgentId) (a : AgentId) :
    failedActor as = .agent a ↔ as.getLast? = some a := by
  unfold failedActor
  cases as.getLast? with
  | none => simp
  | some b => simp

/-- The handler names the agent before place `k`. -/
theorem failedActor_take {seq : List AgentId} {k : ℕ} {a : AgentId} (hk : seq[k]? = some a) :
    failedActor (seq.take k) = .agent a ↔ 0 < k ∧ seq[k - 1]? = seq[k]? := by
  have hlt : k < seq.length := (List.getElem?_eq_some_iff.mp hk).1
  rw [failedActor_eq, List.getLast?_take, hk]
  rcases Nat.eq_zero_or_pos k with rfl | hpos
  · simp
  · have hprev : seq[k - 1]? = some seq[k - 1] := List.getElem?_eq_getElem (by omega)
    rw [if_neg (by omega), hprev]
    exact ⟨fun h => ⟨hpos, h⟩, fun h => h.2⟩

/-- What follows a loop that threw a value with a text. -/
theorem conclude_failed {ε : Type} (env : Env ε) (agents : Agents ε) (call : Call) (l : Locals)
    {e : Thrown} {reason : String} (he : e.reason = .ok reason) (w : World ε) :
    let out := run (orchHandler env agents) (conclude call (.thrown e, l)) w
    ∃ ev r, out.2.auditLogger.events = w.auditLogger.events ++ [ev] ∧
      ev.toAuditEntry = failedEntry call e reason ∧ out.1 = .ok r ∧
      r.failure = some (failure e reason (l.agentResults.map (·.agentId)) ev.id) ∧
      r.status = .failed ∧ r.agentResults = l.agentResults := by
  rw [run_conclude_readable env agents call he]
  exact ⟨_, _, rfl, rfl, rfl, rfl, rfl, rfl⟩

/-- A call says of the agent at place `k` that it failed: the status, the actor, the id of the
    one "workflow.failed" event among the events `evs` of the call, and the results of the places
    before. -/
structure NamesFailed (seq : List AgentId) (k : ℕ) (workflowId : String)
    (as : List (AgentId × Except Thrown AgentResult)) (evs : List AuditEvent)
    (r : WorkflowResult) : Prop where
  status : r.status = .failed
  actor : ∃ a, seq[k]? = some a ∧ r.failure.map (·.failedActor) = some (.agent a)
  event : ∃ ev, evs.filter (fun ev => ev.action = "workflow.failed") = [ev] ∧
    ev.workflowId = some workflowId ∧ r.failure.map (·.auditEventId) = some ev.id
  results : r.agentResults.length = k ∧ as.take k = (seq.take k).zip (r.agentResults.map .ok)

/-- The events of a call that threw: only the last is a "workflow.failed". -/
theorem filter_failed {call : Call} {evs : List AuditEvent} {ev : AuditEvent} {e : Thrown}
    {reason : String} (hev : ev.toAuditEntry = failedEntry call e reason)
    (hevs : ∀ x ∈ evs.map (·.toAuditEntry), x.action ∈ "workflow.started" :: passActions) :
    (evs ++ [ev]).filter (fun ev => ev.action = "workflow.failed") = [ev] := by
  have hnone : evs.filter (fun ev => ev.action = "workflow.failed") = [] := by
    rw [List.filter_eq_nil_iff]
    intro x hx hfailed
    have hmem := hevs x.toAuditEntry (List.mem_map_of_mem hx)
    rw [of_decide_eq_true hfailed] at hmem
    exact absurd hmem (by decide)
  have haction : ev.action = "workflow.failed" := congrArg AuditEntry.action hev
  rw [List.filter_append, hnone, List.nil_append, List.filter_singleton, haction]
  rfl

/-- What a call returns and logs whose agent at place `k` rejected. -/
structure FailedCall (seq : List AgentId) (k : ℕ) (a : AgentId) (workflowId : String)
    (as : List (AgentId × Except Thrown AgentResult)) (evs : List AuditEvent) (err : Thrown)
    (reason : String) (r : WorkflowResult) (ev : AuditEvent) : Prop where
  threw : ThrewAt seq k a as r.agentResults
  status : r.status = .failed
  failure : r.failure = some (HarpOrchestrator.failure err reason (seq.take k) ev.id)
  event : evs.filter (fun ev => ev.action = "workflow.failed") = [ev]
  workflow : ev.workflowId = some workflowId

section

variable {ε : Type} (env : Env ε) (budget : ℕ) (input : Input)

/-- The loop of a call whose agent at place `k` rejected threw what the agent rejected with. -/
theorem executeAs_threw (workflowId startedAt : String) (w : World ε) {k : ℕ} {a : AgentId}
    {err : Thrown}
    (hk : (agentSteps (steps (trace (systemHandler env budget)
      (executeAs input workflowId startedAt) w)))[k]? = some (a, .error err)) :
    ∃ rec l w', Passes (callOf input workflowId startedAt)
        ((strategyFor input).selectSequence input.task) .empty rec (.thrown err) l ∧
      Extends (startedWorld env.recorded input (callOf input workflowId startedAt) w.recording) w'
        rec ∧
      ThrewAt ((strategyFor input).selectSequence input.task) k a
        (agentSteps (steps (trace (systemHandler env budget)
          (executeAs input workflowId startedAt) w))) l.agentResults ∧
      run (systemHandler env.recorded budget) (executeAs input workflowId startedAt) w.recording =
        run (systemHandler env.recorded budget)
          (conclude (callOf input workflowId startedAt) (.thrown err, l)) w' := by
  obtain ⟨e, l, w', hl, hrun⟩ := executeAs_runs env.recorded (coreFour env.recorded budget) input
    workflowId startedAt w.recording
  obtain ⟨rec, hp, hs, hx⟩ := hl.passes
  rw [trace_recording, ← hs] at hk ⊢
  obtain ⟨rfl, rs, hrs, hthrew⟩ := hp.threw hk
  have hlrs : l.agentResults = rs := hrs
  rw [← hlrs] at hthrew
  exact ⟨rec, l, w', hp, hx, hthrew, hrun⟩

theorem executeAs_failed (workflowId startedAt : String) (w : World ε) {k : ℕ} {a : AgentId}
    {err : Thrown} {reason : String} (herr : err.reason = .ok reason) :
    let p := executeAs input workflowId startedAt
    let seq := (strategyFor input).selectSequence input.task
    let as := agentSteps (steps (trace (systemHandler env budget) p w))
    let out := run (systemHandler env budget) p w
    as[k]? = some (a, .error err) →
      ∃ r ev, out.1 = .ok r ∧ FailedCall seq k a workflowId as
        (out.2.auditLogger.events.drop w.auditLogger.events.length) err reason r ev := by
  intro p seq as out hk
  let call := callOf input workflowId startedAt
  obtain ⟨rec, l, w', hp, hx, hthrew, hrun⟩ :=
    executeAs_threw env budget input workflowId startedAt w hk
  obtain ⟨ev, r, hlog, hev, hok, hfailure, hstatus, hresults⟩ :=
    conclude_failed env.recorded (coreFour env.recorded budget) call l herr w'
  rw [← hrun] at hlog hok
  have hout : out = _ := run_recording env budget p w
  -- the events of the call: its start, those of its passes, and the failure
  obtain ⟨evs, hevs, hmap⟩ := hx.events
  obtain ⟨start, hstart, hstartEntry⟩ : ∃ start,
      (startedWorld env.recorded input call w.recording).auditLogger.events =
        w.auditLogger.events ++ [start] ∧ start.action = "workflow.started" := ⟨_, rfl, rfl⟩
  have hevents : out.2.auditLogger.events.drop w.auditLogger.events.length =
      (start :: evs) ++ [ev] := by
    rw [hout]
    show (run _ _ w.recording).2.auditLogger.events.drop _ = _
    rw [hlog, hevs, hstart]
    simp
  have hactions : ∀ x ∈ (start :: evs).map (·.toAuditEntry),
      x.action ∈ "workflow.started" :: passActions := by
    intro x hx
    rcases List.mem_cons.mp hx with rfl | hx
    · exact List.mem_cons.mpr (.inl hstartEntry)
    · exact List.mem_cons_of_mem _ (hp.actions x (hmap ▸ hx))
  have hfiltered := filter_failed hev hactions
  rw [← hevents] at hfiltered
  rw [hthrew.agents] at hfailure
  rw [← hresults] at hthrew
  rw [hout] at hfiltered ⊢
  exact ⟨r, ev, hok, hthrew, hstatus, hfailure, hfiltered, congrArg AuditEntry.workflowId hev⟩

/-- What the agent rejected with has no text: then the call rejects as well. -/
theorem executeAs_unreported (workflowId startedAt : String) (w : World ε) {k : ℕ} {a : AgentId}
    {err t : Thrown} (herr : err.reason = .error t)
    (hk : (agentSteps (steps (trace (systemHandler env budget)
      (executeAs input workflowId startedAt) w)))[k]? = some (a, .error err)) :
    (run (systemHandler env budget) (executeAs input workflowId startedAt) w).1 = .error t := by
  obtain ⟨rec, l, w', -, -, -, hrun⟩ :=
    executeAs_threw env budget input workflowId startedAt w hk
  rw [run_recording, hrun, run_conclude_unreadable _ _ _ herr]

end

/-- Of such a call only the actor can be wrong. -/
theorem FailedCall.namesFailed_iff_actor {seq : List AgentId} {k : ℕ} {a : AgentId}
    {workflowId : String} {as : List (AgentId × Except Thrown AgentResult)} {evs : List AuditEvent}
    {err : Thrown} {reason : String} {r : WorkflowResult} {ev : AuditEvent}
    (h : FailedCall seq k a workflowId as evs err reason r ev) :
    NamesFailed seq k workflowId as evs r ↔ failedActor (seq.take k) = .agent a := by
  have hactor : r.failure.map (·.failedActor) = some (failedActor (seq.take k)) := by
    rw [h.failure]
    rfl
  have hevent : r.failure.map (·.auditEventId) = some ev.id := by
    rw [h.failure]
    rfl
  constructor
  · intro hnames
    obtain ⟨b, hb, hactor'⟩ := hnames.actor
    obtain rfl := Option.some.inj (h.threw.agent.symm.trans hb)
    exact Option.some.inj (hactor.symm.trans hactor')
  · intro hnamed
    rw [hnamed] at hactor
    exact ⟨h.status, ⟨a, h.threw.agent, hactor⟩, ⟨ev, h.event, h.workflow, hevent⟩,
      h.threw.length, h.threw.before⟩

/-- A failed call names the agent that failed exactly when what the agent rejected with can be read
    and the sequence has the same agent right before it. -/
theorem namesFailed_iff {ε : Type} (env : Env ε) (budget : ℕ) (input : Input) (w : World ε)
    {k : ℕ} {a : AgentId} {err : Thrown}
    (h : (agentSteps (steps (trace (systemHandler env budget) (execute input) w)))[k]? =
      some (a, .error err)) :
    let seq := (strategyFor input).selectSequence input.task
    let out := run (systemHandler env budget) (execute input) w
    Resolves (NamesFailed seq k ((w.now env).2.randomUUID env).1
        (agentSteps (steps (trace (systemHandler env budget) (execute input) w)))
        (out.2.auditLogger.events.drop w.auditLogger.events.length)) out.1 ↔
      err.Readable ∧ 0 < k ∧ seq[k - 1]? = seq[k]? := by
  intro seq out
  cases herr : err.reason with
  | error t =>
    have hnot : ¬ err.Readable := Thrown.not_readable_iff.mpr ⟨t, herr⟩
    have hout : out.1 = .error t := executeAs_unreported env budget input
      ((w.now env).2.randomUUID env).1 (w.now env).1 ((w.now env).2.randomUUID env).2 herr h
    constructor
    · rintro ⟨r, hr, -⟩
      cases hr.symm.trans hout
    · exact fun hread => absurd hread.1 hnot
  | ok reason =>
    have hread : err.Readable := Thrown.readable_iff.mpr ⟨reason, herr⟩
    obtain ⟨r, ev, hr, hfailed⟩ := executeAs_failed env budget input
      ((w.now env).2.randomUUID env).1 (w.now env).1 ((w.now env).2.randomUUID env).2 herr h
    have hiff := hfailed.namesFailed_iff_actor.trans (failedActor_take hfailed.threw.agent)
    constructor
    · rintro ⟨r', hr', hnames⟩
      obtain rfl := Except.ok.inj (hr.symm.trans hr')
      exact ⟨hread, hiff.mp hnames⟩
    · exact fun hcond => ⟨r, hr, hiff.mpr hcond.2⟩

/-- Two tokens a call and a budget of three: Anubis Sentinel is refused at place 2. -/
theorem third_refused :
    (agentSteps (steps (trace (systemHandler (Env.constant "{}" true) 3)
      (execute (bareInput irreversibleTask (some sequentialReviewStrategy)))
      (World.create ()))))[2]? =
        some (.anubisSentinel, .error (.tokenBudgetExceeded "3f2c" 4 3)) := rfl

theorem namesFailed_iff_third :
    let env := Env.constant "{}" true
    let input := bareInput irreversibleTask (some sequentialReviewStrategy)
    let seq := (strategyFor input).selectSequence input.task
    let out := run (systemHandler env 3) (execute input) (World.create ())
    Resolves (NamesFailed seq 2 "3f2c"
        (agentSteps (steps (trace (systemHandler env 3) (execute input) (World.create ()))))
        (out.2.auditLogger.events.drop 0)) out.1 ↔
      (Thrown.tokenBudgetExceeded "3f2c" 4 3).Readable ∧ 0 < 2 ∧ seq[1]? = seq[2]? :=
  namesFailed_iff (Env.constant "{}" true) 3
    (bareInput irreversibleTask (some sequentialReviewStrategy)) (World.create ()) third_refused

theorem third_failedActor :
    ∃ r, (run (systemHandler (Env.constant "{}" true) 3)
        (execute (bareInput irreversibleTask (some sequentialReviewStrategy)))
        (World.create ())).1 = .ok r ∧
      r.failure.map (·.failedActor) = some (.agent .horusNexus) := ⟨_, rfl, rfl⟩

/-- The failure names Horus Nexus, the agent before. -/
theorem refused_third_misnamed :
    let env := Env.constant "{}" true
    let input := bareInput irreversibleTask (some sequentialReviewStrategy)
    let seq := (strategyFor input).selectSequence input.task
    let as := agentSteps (steps (trace (systemHandler env 3) (execute input) (World.create ())))
    let out := run (systemHandler env 3) (execute input) (World.create ())
    as[2]? = some (.anubisSentinel, .error (.tokenBudgetExceeded "3f2c" 4 3)) ∧
      ∃ r, out.1 = .ok r ∧ r.failure.map (·.failedActor) = some (.agent .horusNexus) ∧
        ¬ NamesFailed seq 2 "3f2c" as (out.2.auditLogger.events.drop 0) r := by
  obtain ⟨r, hr, hactor⟩ := third_failedActor
  refine ⟨third_refused, r, hr, hactor, ?_⟩
  intro h
  obtain ⟨a, ha, hnamed⟩ := h.actor
  have hsame := Option.some.inj (hactor.symm.trans hnamed)
  rw [← Option.some.inj ha] at hsame
  cases hsame

end HarpOrchestrator

end Harp
