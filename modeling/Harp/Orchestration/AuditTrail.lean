import Harp.Orchestration.SystemRuns

/-
  The audit trail and the artifact store after a call.

  The trail of a call is one start, a block for each result, at most one agent that started
  and never completed, and one terminal event. `Passes.trail` is the induction: what the
  passes of a loop audit, store and report belongs together. The last theorem reads both
  stores through their own queries, for a workflow id that is fresh in them.
-/

namespace Harp

open Prog

namespace HarpOrchestrator

/-- The event was written by `actor` for `action`. -/
structure Names (e : AuditEntry) (actor : Actor) (action : String) : Prop where
  actor : e.actor = actor
  action : e.action = action

/-- The agents' part of the trail: each result with its start, its completion and, when Ra's
    work passed the gate, the evaluation. The steps say which decision was given. -/
inductive Logged : List AgentResult → List Step → List AuditEntry → Prop
  | nil : Logged [] [] []
  | agent {a : AgentId} {r : AgentResult} {rs : List AgentResult} {st : List Step}
      {s c : AuditEntry} {es : List AuditEntry} (ha : r.agentId = a) (hne : a ≠ .ra)
      (hs : Names s (.agent a) "agent.started") (hc : Names c (.agent a) "agent.completed")
      (h : Logged rs st es) : Logged (r :: rs) (.agent a (.ok r) :: st) (s :: c :: es)
  | passed {r : AgentResult} {rs : List AgentResult} {st : List Step} {s c g : AuditEntry}
      {es : List AuditEntry} {q : ApprovalRequest} {d : ApprovalDecision}
      (ha : r.agentId = .ra) (hd : d.passes = true)
      (hs : Names s (.agent .ra) "agent.started") (hc : Names c (.agent .ra) "agent.completed")
      (hg : Names g .system "workflow.approval_evaluated") (h : Logged rs st es) :
      Logged (r :: rs) (.agent .ra (.ok r) :: .consult q (.ok d) :: st) (s :: c :: g :: es)
  | held {r : AgentResult} {s c : AuditEntry} {q : ApprovalRequest}
      {answer : Except Thrown ApprovalDecision} (ha : r.agentId = .ra)
      (hd : ∀ d, answer = .ok d → d.passes = false)
      (hs : Names s (.agent .ra) "agent.started") (hc : Names c (.agent .ra) "agent.completed") :
      Logged [r] [.agent .ra (.ok r), .consult q answer] [s, c]

/-- The terminal action of each status a call can end with. -/
inductive Terminal : WorkflowStatus → String → Prop
  | completed : Terminal .completed "workflow.completed"
  | approvalRequired : Terminal .approvalRequired "workflow.approval_required"
  | failed : Terminal .failed "workflow.failed"

/-- The trail of a call with steps `st` and result `r`. -/
structure Trail (st : List Step) (r : WorkflowResult) (entries : List AuditEntry) : Prop where
  shape : ∃ s agents unmatched t action st' st'',
    entries = s :: agents ++ unmatched ++ [t] ∧ st = st' ++ st'' ∧
    Names s .system "workflow.started" ∧ Logged r.agentResults st' agents ∧
    ((unmatched = [] ∧ st'' = []) ∨
      ∃ u a e, unmatched = [u] ∧ Names u (.agent a) "agent.started" ∧ r.status = .failed ∧
        st'' = [.agent a (.error e)]) ∧
    Names t .system action ∧ Terminal r.status action

/-! ## The loop -/

/-- What a loop leaves after the last matched event: nothing, an unmatched start if it threw
    there, or the terminal event of a denial. -/
inductive Tail (call : Call) (l : Locals) : LoopEnd → List Step → List AuditEntry → Prop
  | finished : Tail call l .finished [] []
  | thrown (e : Thrown) : Tail call l (.thrown e) [] []
  | unmatched {a : AgentId} {u : AuditEntry} (e : Thrown)
      (hu : Names u (.agent a) "agent.started") :
      Tail call l (.thrown e) [.agent a (.error e)] [u]
  | blocked {t : AuditEntry} {b : WorkflowResult}
      (hb : Reports call l .approvalRequired true b)
      (ht : Names t .system "workflow.approval_required") :
      Tail call l (.blocked b) [] [t]

theorem startedEntry_names (a : AgentId) (input : AgentExecuteInput) :
    Names (HarpAgent.startedEntry a input) (.agent a) "agent.started" := ⟨rfl, rfl⟩

theorem completedEntry_names (a : AgentId) (input : AgentExecuteInput) (r : AgentResult)
    (parsed : Bool) :
    Names (HarpAgent.completedEntry a input r parsed) (.agent a) "agent.completed" := ⟨rfl, rfl⟩

theorem answer_agentId (call : Call) (a : AgentId) (text : String) (artifact : Artifact) :
    (answer call a text artifact).agentId = a := HarpAgent.resultOf_agentId _ _ _ _

/-- What a loop that starts with `l` and ends with `l'` adds to the locals, with its trail. -/
structure LoopTrail (call : Call) (l : Locals) (rec : Record) (e : LoopEnd) (l' : Locals) :
    Prop where
  shape : ∃ rs st agents st' tail, l'.agentResults = l.agentResults ++ rs ∧
    rec.steps = st ++ st' ∧ rec.entries = agents ++ tail ∧ Logged rs st agents ∧
    Tail call l' e st' tail
  artifacts : l'.artifacts = l.artifacts ++ rec.artifacts

/-- A loop that was left without anything after its last event. -/
theorem stopCheck_tail {call : Call} {l l' : Locals} {e : LoopEnd}
    (h : stopCheck call l = .leave e) : Tail call l' e [] [] := by
  unfold stopCheck at h
  dsimp only at h
  split at h
  · cases h; exact .thrown _
  · cases h; exact .finished
  · cases h

theorem Pass.leave_trail {call : Call} {a : AgentId} {l l' : Locals} {rec : Record}
    {e : LoopEnd} (h : Pass call a l rec (.leave e) l') : LoopTrail call l rec e l' := by
  generalize hte : TurnEnd.leave e = te at h
  cases h with
  | refused _ used budget =>
    cases hte
    exact ⟨⟨[], [], [], _, _, (List.append_nil _).symm, rfl, rfl, .nil,
      .unmatched _ (startedEntry_names _ _)⟩, (List.append_nil _).symm⟩
  | rejected _ err =>
    cases hte
    exact ⟨⟨[], [], [], _, _, (List.append_nil _).symm, rfl, rfl, .nil,
      .unmatched _ (startedEntry_names _ _)⟩, (List.append_nil _).symm⟩
  | returned _ hne =>
    exact ⟨⟨_, _, _, [], [], rfl, (List.append_nil _).symm, (List.append_nil _).symm,
      .agent (answer_agentId _ _ _ _) hne (startedEntry_names _ _) (completedEntry_names _ _ _ _)
        .nil, stopCheck_tail hte.symm⟩, congrArg _ (HarpAgent.resultOf_artifacts _ _ _ _)⟩
  | gateThrew _ ha =>
    cases hte
    subst ha
    exact ⟨⟨_, _, _, [], [], rfl, (List.append_nil _).symm, (List.append_nil _).symm,
      .held (answer_agentId _ _ _ _) (fun _ h => nomatch h) (startedEntry_names _ _)
        (completedEntry_names _ _ _ _), .thrown _⟩,
      congrArg _ (HarpAgent.resultOf_artifacts _ _ _ _)⟩
  | passed _ ha _ _ hd =>
    subst ha
    exact ⟨⟨_, _, _, [], [], rfl, (List.append_nil _).symm, (List.append_nil _).symm,
      .passed (answer_agentId _ _ _ _) hd (startedEntry_names _ _)
        (completedEntry_names _ _ _ _) ⟨rfl, rfl⟩ .nil, stopCheck_tail hte.symm⟩,
      congrArg _ (HarpAgent.resultOf_artifacts _ _ _ _)⟩
  | denied _ ha _ _ hd _ hb =>
    cases hte
    subst ha
    refine ⟨⟨_, _, _, [], _, rfl, (List.append_nil _).symm, rfl,
      .held (answer_agentId _ _ _ _) (fun d h => ?_) (startedEntry_names _ _)
        (completedEntry_names _ _ _ _), .blocked hb ⟨rfl, rfl⟩⟩, ?_⟩
    · cases h; exact hd
    · simp [Locals.deny, Locals.push, answered, gated, answer]

/-- A pass that goes on leaves a matched block. -/
theorem Pass.next_trail {call : Call} {a : AgentId} {l l' : Locals} {rec : Record}
    (h : Pass call a l rec .next l') {rs : List AgentResult} {st : List Step}
    {agents : List AuditEntry} (hl : Logged rs st agents) :
    ∃ r, l'.agentResults = l.agentResults ++ [r] ∧ l'.artifacts = l.artifacts ++ rec.artifacts ∧
      Logged (r :: rs) (rec.steps ++ st) (rec.entries ++ agents) := by
  cases h.onward with
  | returned _ hne =>
    exact ⟨_, rfl, congrArg _ (HarpAgent.resultOf_artifacts _ _ _ _),
      .agent (answer_agentId _ _ _ _) hne (startedEntry_names _ _) (completedEntry_names _ _ _ _)
        hl⟩
  | passed _ ha _ _ hd =>
    subst ha
    exact ⟨_, rfl, congrArg _ (HarpAgent.resultOf_artifacts _ _ _ _),
      .passed (answer_agentId _ _ _ _) hd (startedEntry_names _ _) (completedEntry_names _ _ _ _)
        ⟨rfl, rfl⟩ hl⟩

/-- The trail of a loop. -/
theorem Passes.trail {call : Call} {seq : List AgentId} {l l' : Locals} {rec : Record}
    {e : LoopEnd} (h : Passes call seq l rec e l') : LoopTrail call l rec e l' := by
  induction h with
  | done l =>
    exact ⟨⟨[], [], [], [], [], (List.append_nil _).symm, rfl, rfl, .nil, .finished⟩,
      (List.append_nil _).symm⟩
  | leave h => exact h.leave_trail
  | next h _ ih =>
    obtain ⟨⟨rs, st, agents, st', tail, hr, hs, he, hl, ht⟩, ha⟩ := ih
    obtain ⟨r, hr₁, ha₁, hl₁⟩ := h.next_trail hl
    refine ⟨⟨r :: rs, _, _, st', tail, ?_, ?_, ?_, hl₁, ht⟩, ?_⟩
    · simp [hr, hr₁]
    · simp [hs]
    · simp [he]
    · simp [ha, ha₁]

/-! ## Everything a call writes is its own -/

/-- The record is about one workflow only. -/
structure OwnedBy (workflowId : String) (rec : Record) : Prop where
  entries : ∀ e ∈ rec.entries, e.workflowId = some workflowId
  artifacts : ∀ a ∈ rec.artifacts, a.workflowId = workflowId

theorem OwnedBy.append {workflowId : String} {r s : Record} (hr : OwnedBy workflowId r)
    (hs : OwnedBy workflowId s) : OwnedBy workflowId (r ++ s) where
  entries e he := (List.mem_append.mp he).elim (hr.entries e) (hs.entries e)
  artifacts a ha := (List.mem_append.mp ha).elim (hr.artifacts a) (hs.artifacts a)

theorem unanswered_owned {call : Call} {input : AgentExecuteInput} (hin : Fits call input)
    (a : AgentId) (xs : List Exchange) (e : Thrown) :
    OwnedBy call.workflowId (unanswered a input xs e) where
  entries := by simp [unanswered, HarpAgent.startedEntry, hin.workflowId]
  artifacts := by simp [unanswered]

theorem answered_owned {call : Call} {input : AgentExecuteInput} (hin : Fits call input)
    (a : AgentId) (response : ModelResponse) {artifact : Artifact}
    (hart : artifact.workflowId = call.workflowId) :
    OwnedBy call.workflowId (answered call a input response artifact) where
  entries := by
    simp [answered, HarpAgent.startedEntry, HarpAgent.completedEntry, hin.workflowId]
  artifacts := by simp [answered, hart]

theorem gated_owned (call : Call) (r : AgentResult) (d : Except Thrown ApprovalDecision)
    {es : List AuditEntry} {as : List Artifact}
    (he : ∀ e ∈ es, e.workflowId = some call.workflowId)
    (ha : ∀ a ∈ as, a.workflowId = call.workflowId) :
    OwnedBy call.workflowId (gated call r d es as) := ⟨he, ha⟩

theorem Pass.owned {call : Call} {a : AgentId} {l l' : Locals} {rec : Record} {te : TurnEnd}
    (h : Pass call a l rec te l') : OwnedBy call.workflowId rec := by
  cases h with
  | refused hin => exact unanswered_owned hin _ _ _
  | rejected hin => exact unanswered_owned hin _ _ _
  | returned hin _ _ hart => exact answered_owned hin _ _ hart
  | gateThrew hin _ _ hart =>
    exact (answered_owned hin _ _ hart).append (gated_owned _ _ _ (by simp) (by simp))
  | passed hin _ _ hart =>
    exact (answered_owned hin _ _ hart).append
      (gated_owned _ _ _ (by simp [evaluatedEntry, entry]) (by simp))
  | denied hin _ _ hart _ hreq =>
    exact (answered_owned hin _ _ hart).append
      (gated_owned _ _ _ (by simp [requiredEntry, entry]) (by simp [hreq]))

theorem Passes.owned {call : Call} {seq : List AgentId} {l l' : Locals} {rec : Record}
    {e : LoopEnd} (h : Passes call seq l rec e l') : OwnedBy call.workflowId rec := by
  induction h with
  | done => exact ⟨by simp [Record.empty], by simp [Record.empty]⟩
  | leave h => exact h.owned
  | next h _ ih => exact h.owned.append ih

theorem Ending.owned {call : Call} {l : Locals} {e : LoopEnd}
    {outcome : Except Thrown WorkflowResult} {es : List AuditEntry}
    (h : Ending call l e outcome es) : OwnedBy call.workflowId ⟨[], [], es, []⟩ := by
  cases h with
  | completed => exact ⟨by simp [completedEntry, entry], by simp⟩
  | failed => exact ⟨by simp [failedEntry, entry], by simp⟩
  | unread => exact ⟨by simp, by simp⟩
  | blocked => exact ⟨by simp, by simp⟩

/-! ## The stores after a call -/

/-- The stores know nothing yet of a workflow. -/
structure Fresh {ε : Type} (workflowId : String) (w : World ε) : Prop where
  events : ∀ e ∈ w.auditLogger.events, e.workflowId ≠ some workflowId
  artifacts : ∀ a ∈ w.memoryStore.artifacts, a.workflowId ≠ workflowId

theorem fresh_create {ε : Type} (e : ε) (workflowId : String) :
    Fresh workflowId (World.create e) :=
  ⟨fun _ h => absurd h List.not_mem_nil, fun _ h => absurd h List.not_mem_nil⟩

/-- A query for a fresh workflow returns exactly what has been added for it. -/
theorem queries_of_wrote {ε : Type} {w w' : World ε} {rec : Record} {workflowId : String}
    (h : Wrote w w' rec) (hid : workflowId ≠ "") (hf : Fresh workflowId w)
    (ho : OwnedBy workflowId rec) :
    (w'.auditLogger.byWorkflow workflowId).map (·.toAuditEntry) = rec.entries ∧
      w'.memoryStore.byWorkflow workflowId = rec.artifacts := by
  obtain ⟨evs, hevs, hmap⟩ := h.events
  constructor
  · have hnew : ∀ e ∈ evs, e.workflowId = some workflowId := fun e he =>
      ho.entries e.toAuditEntry (hmap ▸ List.mem_map_of_mem he)
    rw [InMemoryAuditLogger.byWorkflow_eq _ hid, hevs, List.filter_append,
      List.filter_eq_nil_iff.mpr (by simpa using hf.events),
      List.filter_eq_self.mpr (by simpa using hnew), List.nil_append, hmap]
  · unfold InMemoryArtifactStore.byWorkflow
    rw [h.artifacts, List.filter_append,
      List.filter_eq_nil_iff.mpr (by simpa using hf.artifacts),
      List.filter_eq_self.mpr (by simpa using ho.artifacts), List.nil_append]

/-- The end of a call completes the trail of its loop. -/
theorem Tail.trail (input : Input) {call : Call} {l : Locals} {e : LoopEnd} {r : WorkflowResult}
    {es agents tail : List AuditEntry} {st st' : List Step} (h : Tail call l e st' tail)
    (hend : Ending call l e (.ok r) es) (hl : Logged l.agentResults st agents) :
    Trail (st ++ st') r ((started input call).entries ++ (agents ++ tail) ++ es) ∧
      r.id = call.workflowId ∧ r.artifacts = l.artifacts := by
  have hs : Names (startedEntry call (StrategySelector.select input.task).rationale
    (call.strategy.selectSequence input.task)) .system "workflow.started" := ⟨rfl, rfl⟩
  cases h with
  | finished =>
    cases hend with
    | completed hr =>
      refine ⟨⟨_, agents, [], completedEntry call l, _, st, [], by simp [started], rfl, hs, ?_,
        .inl ⟨rfl, rfl⟩, ⟨rfl, rfl⟩, ?_⟩, hr.id, hr.artifacts⟩
      · rwa [hr.agentResults]
      · rw [hr.status]; exact .completed
  | thrown err =>
    cases hend with
    | @failed _ _ reason _ hr =>
      refine ⟨⟨_, agents, [], failedEntry call err reason, _, st, [], by simp [started], rfl, hs,
        ?_, .inl ⟨rfl, rfl⟩, ⟨rfl, rfl⟩, ?_⟩, hr.id, hr.artifacts⟩
      · rwa [hr.agentResults]
      · rw [hr.status]; exact .failed
  | @unmatched a u err hu =>
    cases hend with
    | @failed _ _ reason _ hr =>
      refine ⟨⟨_, agents, [u], failedEntry call err reason, _, st, _, by simp [started], rfl, hs,
        ?_, .inr ⟨u, a, err, rfl, hu, hr.status, rfl⟩, ⟨rfl, rfl⟩, ?_⟩, hr.id, hr.artifacts⟩
      · rwa [hr.agentResults]
      · rw [hr.status]; exact .failed
  | @blocked t b hb ht =>
    cases hend with
    | blocked =>
      refine ⟨⟨_, agents, [], t, _, st, [], by simp [started], rfl, hs, ?_,
        .inl ⟨rfl, rfl⟩, ht, ?_⟩, hb.id, hb.artifacts⟩
      · rwa [hb.agentResults]
      · rw [hb.status]; exact .approvalRequired

/-- After a call whose id is fresh and that returned, the log holds exactly its trail and the
    store exactly its artifacts. -/
theorem executeAs_trail {ε : Type} (env : Env ε) (budget : Nat) (input : Input)
    (workflowId startedAt : String) (w : World ε) (hid : workflowId ≠ "")
    (hf : Fresh workflowId w) {r : WorkflowResult}
    (hr : (run (systemHandler env budget) (executeAs input workflowId startedAt) w).1 = .ok r) :
    let p := executeAs input workflowId startedAt
    let out := run (systemHandler env budget) p w
    r.id = workflowId ∧
    Trail (steps (trace (systemHandler env budget) p w)) r
      ((out.2.auditLogger.byWorkflow workflowId).map (·.toAuditEntry)) ∧
    out.2.memoryStore.byWorkflow workflowId = r.artifacts := by
  intro p out
  obtain ⟨rec, e, l, es, hp, hend, hs, -, hw⟩ := executeAs_passes env budget input workflowId
    startedAt w
  obtain ⟨⟨rs, st, agents, st', tail, hrs, hst, hent, hlog, ht⟩, hart⟩ := hp.trail
  have hstart : OwnedBy workflowId (started input (callOf input workflowId startedAt)) :=
    ⟨by simp [started, startedEntry, entry, callOf], by simp [started]⟩
  have hq := queries_of_wrote hw hid hf ((hstart.append hp.owned).append hend.owned)
  rw [hr] at hend
  obtain ⟨htrail, hrid, hrart⟩ := ht.trail input hend (by simpa [Locals.empty, hrs])
  refine ⟨hrid, ?_, ?_⟩
  · rw [hq.1, ← hs, hst]
    simpa [hent] using htrail
  · rw [hq.2, hrart, hart]
    simp [started, Locals.empty]

/-- The same for `execute`, which draws the start time and then the workflow id. -/
theorem execute_trail {ε : Type} (env : Env ε) (budget : Nat) (input : Input) (w : World ε)
    (hid : ((w.now env).2.randomUUID env).1 ≠ "")
    (hf : Fresh ((w.now env).2.randomUUID env).1 w) {r : WorkflowResult}
    (hr : (run (systemHandler env budget) (execute input) w).1 = .ok r) :
    let out := run (systemHandler env budget) (execute input) w
    Trail (steps (trace (systemHandler env budget) (execute input) w)) r
      ((out.2.auditLogger.byWorkflow r.id).map (·.toAuditEntry)) ∧
    out.2.memoryStore.byWorkflow r.id = r.artifacts := by
  intro out
  obtain ⟨hrid, h⟩ := executeAs_trail env budget input ((w.now env).2.randomUUID env).1
    (w.now env).1 ((w.now env).2.randomUUID env).2 hid ⟨hf.events, hf.artifacts⟩ hr
  rw [hrid]
  exact h

theorem execute_trail_sequential :
    let env := Env.constant "{}" true
    let input := bareInput irreversibleTask (some sequentialReviewStrategy)
    let out := run (systemHandler env 200000) (execute input) (World.create ())
    ∃ r, out.1 = .ok r ∧
      Trail (steps (trace (systemHandler env 200000) (execute input) (World.create ()))) r
        ((out.2.auditLogger.byWorkflow r.id).map (·.toAuditEntry)) ∧
      out.2.memoryStore.byWorkflow r.id = r.artifacts := by
  obtain ⟨r, hr⟩ := exists_of_isOk sequential_isOk
  exact ⟨r, hr, execute_trail (Env.constant "{}" true) 200000
    (bareInput irreversibleTask (some sequentialReviewStrategy)) (World.create ())
    (by change "3f2c" ≠ ""; decide) (fresh_create _ _) hr⟩

end HarpOrchestrator

end Harp
