import Harp.Orchestration.SystemRuns

/-
  When completion is honest.

  A call should not go on, and not complete, after an agent that could not use its model's
  text. The loop stops only for strategies that have a stop check, and a stopped loop
  completes like a finished one, so this holds exactly in the runs whose texts are all
  usable, but for one of Ra's that the gate holds back at once. `usable` is that condition
  on what the providers answered; `Passes.honest` and `Passes.dishonest` are the two
  directions, each by induction on the passes.
-/

namespace Harp

open Prog

namespace HarpOrchestrator

/-- No agent runs after a result that is no success, and the call does not complete; it
    completes, and audits so, only with a success of every agent of the sequence. -/
structure HonestCompletion (seq : List AgentId) (st : List Step)
    (outcome : Except Thrown WorkflowResult) (audited : List AuditEvent) : Prop where
  stops : ∀ pre a (res : AgentResult) post, st = pre ++ .agent a (.ok res) :: post →
    res.status ≠ .success →
    (∀ b answer, .agent b answer ∉ post) ∧ ¬ ∃ r, outcome = .ok r ∧ r.status = .completed
  complete : ((∃ r, outcome = .ok r ∧ r.status = .completed) ∨
      ∃ e ∈ audited, e.action = "workflow.completed") →
    ∃ r, outcome = .ok r ∧ r.agentResults.map (·.agentId) = seq ∧
      ∀ res ∈ r.agentResults, res.status = .success

/-! ## The condition on the answers -/

/-- The gate does not let the work pass. -/
def refuses : Except Thrown ApprovalDecision → Bool
  | .ok d => !d.passes
  | .error _ => true

/-- The next exchange is a consultation that holds the work back. -/
def refusedNext : List Exchange → Bool
  | .approval _ answer :: _ => refuses answer
  | _ => false

/-- Every text of the model is usable, or is Ra's and held back at once. -/
def usable : List Exchange → Bool
  | [] => true
  | .model _ (.ok response) :: xs =>
    (HarpAgent.accepts response.text || refusedNext xs) && usable xs
  | _ :: xs => usable xs

@[simp] theorem usable_nil : usable [] = true := rfl

@[simp] theorem usable_model (q : ModelRequest) (response : ModelResponse) (xs : List Exchange) :
    usable (.model q (.ok response) :: xs) =
      ((HarpAgent.accepts response.text || refusedNext xs) && usable xs) := rfl

@[simp] theorem usable_rejected (q : ModelRequest) (e : Thrown) (xs : List Exchange) :
    usable (.model q (.error e) :: xs) = usable xs := rfl

@[simp] theorem usable_approval (q : ApprovalRequest) (d : Except Thrown ApprovalDecision)
    (xs : List Exchange) : usable (.approval q d :: xs) = usable xs := rfl

@[simp] theorem refusedNext_approval (q : ApprovalRequest) (d : Except Thrown ApprovalDecision)
    (xs : List Exchange) : refusedNext (.approval q d :: xs) = refuses d := rfl

theorem answer_status (call : Call) (a : AgentId) (text : String) (artifact : Artifact) :
    (answer call a text artifact).status = if HarpAgent.accepts text then .success else .blocked :=
  HarpAgent.resultOf_status a call.task text artifact

theorem answer_success {call : Call} {a : AgentId} {text : String} {artifact : Artifact} :
    (answer call a text artifact).status = .success ↔ HarpAgent.accepts text = true := by
  rw [answer_status]
  split <;> simp [*]

/-! ## Loops and their steps -/

/-- A pass starts by running its agent. -/
theorem Pass.first_step {call : Call} {a : AgentId} {l l' : Locals} {rec : Record} {te : TurnEnd}
    (h : Pass call a l rec te l') : ∃ answer st, rec.steps = .agent a answer :: st := by
  cases h with
  | refused => exact ⟨_, _, rfl⟩
  | rejected => exact ⟨_, _, rfl⟩
  | returned => exact ⟨_, _, rfl⟩
  | gateThrew => exact ⟨_, _, rfl⟩
  | passed => exact ⟨_, _, rfl⟩
  | denied => exact ⟨_, _, rfl⟩

theorem Passes.first_step {call : Call} {a : AgentId} {rest : List AgentId} {l l' : Locals}
    {rec : Record} {e : LoopEnd} (h : Passes call (a :: rest) l rec e l') :
    ∃ answer st, rec.steps = .agent a answer :: st := by
  cases h with
  | leave h => exact h.first_step
  | next h hr =>
    obtain ⟨answer, st, hst⟩ := h.first_step
    exact ⟨answer, _, by rw [Record.steps_append, hst]; rfl⟩

/-- A pass never starts with a consultation. -/
theorem Pass.not_refusedNext {call : Call} {a : AgentId} {l l' : Locals} {rec : Record}
    {te : TurnEnd} (h : Pass call a l rec te l') {xs : List Exchange}
    (hxs : refusedNext xs = false) : refusedNext (rec.exchanges ++ xs) = false := by
  cases h with
  | refused => exact hxs
  | rejected => rfl
  | returned => rfl
  | gateThrew => rfl
  | passed => rfl
  | denied => rfl

theorem Passes.not_refusedNext {call : Call} {seq : List AgentId} {l l' : Locals} {rec : Record}
    {e : LoopEnd} (h : Passes call seq l rec e l') : refusedNext rec.exchanges = false := by
  induction h with
  | done => rfl
  | leave h => simpa using h.not_refusedNext (show refusedNext [] = false from rfl)
  | next h _ ih => exact h.not_refusedNext ih

/-- With a check that stops only on blocked results, the loop goes on or finishes. -/
theorem stopCheck_cases {call : Call} (hs : call.strategy.StopsOnBlocked) (l : Locals) :
    stopCheck call l = .next ∨
      stopCheck call l = .leave .finished ∧ anyBlockedOrFailed l.agentResults = true := by
  obtain ⟨b, hb, himp⟩ := hs ⟨call.task, l.completedAgents, l.agentResults, false⟩ rfl
  unfold stopCheck
  dsimp only
  rw [hb]
  cases b with
  | false => exact .inl rfl
  | true => exact .inr ⟨rfl, himp rfl⟩

theorem anyBlockedOrFailed_of_success {rs : List AgentResult}
    (h : ∀ r ∈ rs, r.status = .success) : anyBlockedOrFailed rs = false := by
  rw [anyBlockedOrFailed, List.any_eq_false]
  intro r hr
  simp [h r hr]

theorem stopCheck_of_success {call : Call} (hs : call.strategy.StopsOnBlocked) {l : Locals}
    (h : ∀ r ∈ l.agentResults, r.status = .success) : stopCheck call l = .next := by
  rcases stopCheck_cases hs l with hn | ⟨-, hb⟩
  · exact hn
  · exact absurd (anyBlockedOrFailed_of_success h) (by simp [hb])

/-- An accepted answer keeps the invariant of the locals. -/
theorem success_push {call : Call} {l : Locals} (hl : ∀ r ∈ l.agentResults, r.status = .success)
    {a : AgentId} {text : String} (artifact : Artifact) (ha : HarpAgent.accepts text = true) :
    ∀ r ∈ (l.push a (answer call a text artifact)).agentResults, r.status = .success := by
  have hr : (answer call a text artifact).status = .success := answer_success.mpr ha
  simpa [Locals.push, or_imp, forall_and] using ⟨hl, hr⟩

/-- Behind an accepted answer the loop goes on. -/
theorem stopCheck_push {call : Call} (hs : call.strategy.StopsOnBlocked) {l : Locals}
    (hl : ∀ r ∈ l.agentResults, r.status = .success) {a : AgentId} {text : String}
    {artifact : Artifact} (ha : HarpAgent.accepts text = true) :
    stopCheck call (l.push a (answer call a text artifact)) = .next :=
  stopCheck_of_success hs (success_push hl artifact ha)

/-! ## Usable answers give an honest loop -/

/-- What `HonestCompletion` says of a loop that starts with successes only. -/
structure HonestLoop (seq : List AgentId) (l : Locals) (rec : Record) (e : LoopEnd)
    (l' : Locals) : Prop where
  stops : ∀ pre a (res : AgentResult) post, rec.steps = pre ++ .agent a (.ok res) :: post →
    res.status ≠ .success → (∀ b answer, .agent b answer ∉ post) ∧ e ≠ .finished
  complete : e = .finished →
    l'.agentResults.map (·.agentId) = l.agentResults.map (·.agentId) ++ seq ∧
      ∀ res ∈ l'.agentResults, res.status = .success

/-- A loop that is left in its first pass, other than by the stop check. -/
theorem HonestLoop.of_last {seq : List AgentId} {l l' : Locals} {rec : Record} {e : LoopEnd}
    {x : Step} {st : List Step} (hs : rec.steps = x :: st) (hst : ∀ b answer, .agent b answer ∉ st)
    (he : e ≠ .finished) : HonestLoop seq l rec e l' where
  stops := by
    intro pre a res post hsplit _
    rw [hs] at hsplit
    rcases List.cons_eq_append_iff.mp hsplit with ⟨rfl, h⟩ | ⟨pre', rfl, h⟩
    · exact ⟨(List.cons.inj h).2 ▸ hst, he⟩
    · exact absurd (h ▸ List.mem_append_right pre' List.mem_cons_self) (hst a (.ok res))
  complete h := absurd h he

/-- A pass that goes on with a success in front of an honest loop. -/
theorem HonestLoop.cons {a : AgentId} {seq : List AgentId} {l l' : Locals} {rec rec' : Record}
    {e : LoopEnd} {r : AgentResult} {st : List Step} (hid : r.agentId = a)
    (hr : r.status = .success) (hs : rec.steps = .agent a (.ok r) :: st)
    (hst : ∀ b answer, .agent b answer ∉ st) (h : HonestLoop seq (l.push a r) rec' e l') :
    HonestLoop (a :: seq) l (rec ++ rec') e l' where
  stops := by
    intro pre b res post hsplit hres
    rw [Record.steps_append, hs, List.cons_append] at hsplit
    rcases List.cons_eq_append_iff.mp hsplit with ⟨rfl, h₁⟩ | ⟨pre', rfl, h₁⟩
    · cases (List.cons.inj h₁).1
      exact absurd hr hres
    · -- the split lies in `rec'`, since no agent runs in `st`
      rcases List.append_eq_append_iff.mp h₁ with ⟨as, rfl, h₂⟩ | ⟨bs, rfl, h₂⟩
      · exact h.stops as b res post h₂ hres
      · cases bs with
        | nil => exact h.stops [] b res post h₂.symm hres
        | cons x bs =>
          obtain ⟨rfl, -⟩ := List.cons.inj h₂
          exact absurd (List.mem_append_right pre' List.mem_cons_self) (hst b (.ok res))
  complete he := by
    obtain ⟨hseq, hall⟩ := h.complete he
    exact ⟨by simpa [Locals.push, hid] using hseq, hall⟩

theorem Passes.honest {call : Call} (hs : call.strategy.StopsOnBlocked) {seq : List AgentId}
    {l l' : Locals} {rec : Record} {e : LoopEnd} (h : Passes call seq l rec e l')
    (hl : ∀ r ∈ l.agentResults, r.status = .success) (hu : usable rec.exchanges = true) :
    HonestLoop seq l rec e l' := by
  induction h with
  | done => exact ⟨by simp [Record.empty], fun _ => ⟨by simp, hl⟩⟩
  | leave h =>
    generalize hte : TurnEnd.leave _ = te at h
    cases h with
    | refused => cases hte; exact .of_last rfl (by simp) (by simp)
    | rejected => cases hte; exact .of_last rfl (by simp) (by simp)
    | gateThrew => cases hte; exact .of_last rfl (by simp [gated]) (by simp)
    | denied => cases hte; exact .of_last rfl (by simp [gated]) (by simp)
    | returned _ _ response =>
      have ha : HarpAgent.accepts response.text = true := by
        simpa [answered, HarpOrchestrator.refusedNext] using hu
      rw [stopCheck_push hs hl ha] at hte
      cases hte
    | passed _ _ response _ hd =>
      have ha : HarpAgent.accepts response.text = true := by
        simpa [answered, gated, refuses, hd] using hu
      rw [stopCheck_push hs hl ha] at hte
      cases hte
  | @next _ _ _ _ _ _ rec' _ h hr ih =>
    cases h.onward with
    | returned _ _ response =>
      obtain ⟨ha, hu'⟩ :
          HarpAgent.accepts response.text = true ∧ usable rec'.exchanges = true := by
        simpa [answered, hr.not_refusedNext] using hu
      exact .cons (HarpAgent.resultOf_agentId _ _ _ _) (answer_success.mpr ha) rfl (by simp)
        (ih (success_push hl _ ha) hu')
    | passed _ _ response _ hd =>
      obtain ⟨ha, hu'⟩ :
          HarpAgent.accepts response.text = true ∧ usable rec'.exchanges = true := by
        simpa [answered, gated, refuses, hd] using hu
      exact .cons (HarpAgent.resultOf_agentId _ _ _ _) (answer_success.mpr ha) rfl
        (by simp [gated]) (ih (success_push hl _ ha) hu')

/-! ## An unusable answer gives a dishonest loop -/

theorem Passes.runs_or_finishes {call : Call} {seq : List AgentId} {l l' : Locals}
    {rec : Record} {e : LoopEnd} (h : Passes call seq l rec e l') :
    (∃ b answer, .agent b answer ∈ rec.steps) ∨ e = .finished := by
  cases seq with
  | nil => cases h with | done => exact .inr rfl
  | cons a rest =>
    obtain ⟨answer, st, hst⟩ := h.first_step
    exact .inl ⟨a, answer, hst ▸ List.mem_cons_self⟩

/-- A result that is no success, behind which an agent runs or the loop finishes. -/
def Dishonest (st : List Step) (e : LoopEnd) : Prop :=
  ∃ pre a res post, st = pre ++ .agent a (.ok res) :: post ∧ res.status ≠ .success ∧
    ((∃ b answer, .agent b answer ∈ post) ∨ e = .finished)

theorem Dishonest.append {st : List Step} {e : LoopEnd} (h : Dishonest st e) (st' : List Step) :
    Dishonest (st' ++ st) e := by
  obtain ⟨pre, a, res, post, rfl, hres, hpost⟩ := h
  exact ⟨st' ++ pre, a, res, post, (List.append_assoc ..).symm, hres, hpost⟩

theorem Passes.dishonest {call : Call} (hs : call.strategy.StopsOnBlocked) {seq : List AgentId}
    {l l' : Locals} {rec : Record} {e : LoopEnd} (h : Passes call seq l rec e l')
    (hu : usable rec.exchanges = false) : Dishonest rec.steps e := by
  have left {l : Locals} {e : LoopEnd} (h : .leave e = stopCheck call l) : e = .finished := by
    rcases stopCheck_cases hs l with hn | ⟨hf, -⟩
    · cases h.trans hn
    · cases h.trans hf; rfl
  induction h with
  | done => cases hu
  | leave h =>
    generalize hte : TurnEnd.leave _ = te at h
    cases h with
    | refused => cases hu
    | rejected => cases hu
    | gateThrew => simp [answered, gated, refuses] at hu
    | denied _ _ _ _ hd => simp [answered, gated, refuses, hd] at hu
    | returned _ _ response =>
      have ha : ¬ HarpAgent.accepts response.text = true := by
        simpa [answered, refusedNext] using hu
      exact ⟨[], _, _, _, rfl, fun h => ha (answer_success.mp h), .inr (left hte)⟩
    | passed _ _ response _ hd =>
      have ha : ¬ HarpAgent.accepts response.text = true := by
        simpa [answered, gated, refuses, hd] using hu
      exact ⟨[], _, _, _, rfl, fun h => ha (answer_success.mp h), .inr (left hte)⟩
  | next h hr ih =>
    -- the first result is the culprit, or the rest of the loop is dishonest
    cases h.onward with
    | returned _ _ response =>
      by_cases ha : HarpAgent.accepts response.text = true
      · exact (ih (by simpa [answered, hr.not_refusedNext, ha] using hu)).append _
      · exact ⟨[], _, _, _, rfl, fun h => ha (answer_success.mp h), hr.runs_or_finishes⟩
    | passed _ _ response _ hd =>
      by_cases ha : HarpAgent.accepts response.text = true
      · exact (ih (by simpa [answered, gated, refuses, hd, ha] using hu)).append _
      · refine ⟨[], _, _, _, rfl, fun h => ha (answer_success.mp h), ?_⟩
        rcases hr.runs_or_finishes with ⟨b, answer, hb⟩ | hfinished
        · exact .inl ⟨b, answer, List.mem_cons_of_mem _ hb⟩
        · exact .inr hfinished

/-! ## Whole calls -/

/-- Only a finished loop returns a completed workflow. -/
theorem Passes.completed_iff {call : Call} {seq : List AgentId} {l l' : Locals} {rec : Record}
    {e : LoopEnd} {outcome : Except Thrown WorkflowResult} {es : List AuditEntry}
    (h : Passes call seq l rec e l') (hend : Ending call l' e outcome es) :
    (∃ r, outcome = .ok r ∧ r.status = .completed) ↔ e = .finished := by
  constructor
  · rintro ⟨r, rfl, hst⟩
    rw [(h.reports hend).status] at hst
    cases e with
    | finished => rfl
    | blocked => cases hst
    | thrown => cases hst
  · rintro rfl
    cases hend with
    | completed hr => exact ⟨_, rfl, hr.status⟩

/-- Only the end of a finished loop is audited as a completion. -/
theorem completed_entry_finished {input : Input} {call : Call} {seq : List AgentId}
    {l l' : Locals} {rec : Record} {e : LoopEnd} {outcome : Except Thrown WorkflowResult}
    {es : List AuditEntry} (h : Passes call seq l rec e l') (hend : Ending call l' e outcome es)
    {x : AuditEntry}
    (hx : x ∈ ((started input call).entries ++ rec.entries) ++ es)
    (hc : x.action = "workflow.completed") : e = .finished := by
  rcases List.mem_append.mp hx with hx | hx
  · rcases List.mem_append.mp hx with hx | hx
    · obtain rfl := List.mem_singleton.mp hx
      exact absurd hc (by simp [startedEntry, entry])
    · have hx := h.actions x hx
      rw [hc] at hx
      exact absurd hx (by decide)
  · cases hend with
    | completed => rfl
    | failed =>
      obtain rfl := List.mem_singleton.mp hx
      exact absurd hc (by simp [failedEntry, entry])
    | unread => cases hx
    | blocked => cases hx

/-- With a built-in strategy a call completes honestly exactly when the answers are usable. -/
theorem honestCompletion_iff {ε : Type} (env : Env ε) (budget : Nat) (input : Input)
    (w : World ε) (hs : ∀ s, input.forceStrategy = some s → s ∈ allStrategies) :
    let out := run (systemHandler env budget) (execute input) w
    HonestCompletion ((strategyFor input).selectSequence input.task)
        (steps (trace (systemHandler env budget) (execute input) w)) out.1
        (out.2.auditLogger.events.drop w.auditLogger.events.length) ↔
      usable (exchanges env budget (execute input) w) = true := by
  intro out
  obtain ⟨rec, e, l, es, hp, hend, hst, hx, hw⟩ := execute_passes env budget input w
  have hmem : strategyFor input ∈ allStrategies := by
    unfold strategyFor
    cases hf : input.forceStrategy with
    | none => exact StrategySelector.select_mem input.task
    | some s => exact hs s hf
  have hfin : (∃ r, out.1 = .ok r ∧ r.status = .completed) ↔ e = .finished :=
    hp.completed_iff hend
  rw [← hst, ← hx]
  constructor
  · intro hh
    by_contra hu
    obtain ⟨pre, a, res, post, hsplit, hres, hpost⟩ :=
      hp.dishonest (stopsOnBlocked_of_mem hmem) (by simpa using hu)
    obtain ⟨hno, hnc⟩ := hh.stops pre a res post hsplit hres
    rcases hpost with ⟨b, answer, hb⟩ | he
    · exact hno b answer hb
    · exact hnc (hfin.mpr he)
  · intro hu
    have hl := hp.honest (stopsOnBlocked_of_mem hmem) (by simp [Locals.empty]) hu
    constructor
    · intro pre a res post hsplit hres
      obtain ⟨hno, hnf⟩ := hl.stops pre a res post hsplit hres
      exact ⟨hno, fun h => hnf (hfin.mp h)⟩
    · intro hc
      have he : e = .finished := by
        rcases hc with hc | ⟨ev, hev, hact⟩
        · exact hfin.mp hc
        · obtain ⟨evs, hevs, hmap⟩ := hw.events
          rw [hevs, List.drop_left] at hev
          have hent : ev.toAuditEntry ∈ (started input _ ++ rec ++ ⟨[], [], es, []⟩).entries :=
            hmap ▸ List.mem_map_of_mem hev
          exact completed_entry_finished hp hend hent hact
      obtain ⟨r, hok, -⟩ := hfin.mpr he
      have hend' : Ending _ l e (.ok r) es := hok ▸ hend
      refine ⟨r, hok, ?_⟩
      rw [(hp.reports hend').agentResults]
      simpa [Locals.empty] using hl.complete he

theorem bareInput_forced (task : AgentTask) {s : CoordinationStrategy} (hs : s ∈ allStrategies) :
    ∀ s', (bareInput task (some s)).forceStrategy = some s' → s' ∈ allStrategies := by
  intro s' h
  obtain rfl := Option.some.inj h
  exact hs

theorem honestCompletion_iff_sequential :
    let env := Env.constant "{}" true
    let input := bareInput irreversibleTask (some sequentialReviewStrategy)
    let out := run (systemHandler env 200000) (execute input) (World.create ())
    HonestCompletion ((strategyFor input).selectSequence input.task)
        (steps (trace (systemHandler env 200000) (execute input) (World.create ()))) out.1
        (out.2.auditLogger.events.drop (World.create ()).auditLogger.events.length) ↔
      usable (exchanges env 200000 (execute input) (World.create ())) = true := by
  intro env input
  exact honestCompletion_iff env 200000 input (World.create ())
    (bareInput_forced irreversibleTask (by simp [allStrategies]))

/-- A sequential review whose model answers every agent with an empty text. -/
def emptyTextRun : Except Thrown WorkflowResult × World Unit :=
  run (systemHandler (Env.constant "" true) 200000)
    (execute (bareInput irreversibleTask (some sequentialReviewStrategy))) (World.create ())

/-- It stops after one blocked result of seven, and is completed. -/
theorem emptyTextRun_status :
    ∃ r, emptyTextRun.1 = .ok r ∧ r.status = .completed ∧
      r.agentResults.map (·.status) = [.blocked] :=
  ⟨_, rfl, rfl, rfl⟩

theorem not_honestCompletion_emptyText :
    ¬ HonestCompletion (sequentialReviewStrategy.selectSequence irreversibleTask)
        (steps (trace (systemHandler (Env.constant "" true) 200000)
          (execute (bareInput irreversibleTask (some sequentialReviewStrategy)))
          (World.create ())))
        emptyTextRun.1 emptyTextRun.2.auditLogger.events := by
  intro h
  obtain ⟨r, hok, hc, hb⟩ := emptyTextRun_status
  obtain ⟨r', hok', -, hall⟩ := h.complete (.inl ⟨r, hok, hc⟩)
  obtain rfl := Except.ok.inj (hok.symm.trans hok')
  obtain ⟨res, hres, hst⟩ := List.mem_map.mp (hb ▸ List.mem_cons_self)
  cases hst.symm.trans (hall res hres)

end HarpOrchestrator

end Harp
