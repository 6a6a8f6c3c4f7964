import Harp.Orchestration.Completion

/-
  When a call asks for approval.

  A denied or failed call always does, so the question is about completed ones. Their flag
  is the disjunction of the results' flags. A stopped loop holds a blocked result, which is
  flagged; a loop that ran its whole sequence holds a result of Anubis, which is flagged
  when the task is sensitive. Under escalation nothing else flags a result, which gives the
  exact condition there.
-/

namespace Harp

open Prog

namespace HarpOrchestrator

open HarpAgent (sensitive)

theorem approvalFlag_anubis {task : AgentTask} (h : sensitive task = true) (accepted : Bool) :
    HarpAgent.approvalFlag .anubisSentinel task accepted = true := by
  simp only [HarpAgent.approvalFlag, h, Bool.or_true]

theorem answer_approvalRequired (call : Call) (a : AgentId) (text : String)
    (artifact : Artifact) :
    (answer call a text artifact).approvalRequired =
      HarpAgent.approvalFlag a call.task (HarpAgent.accepts text) :=
  HarpAgent.resultOf_approvalRequired a call.task text artifact

/-- Every result was built from some text by the agent it names. -/
def Answered (call : Call) (rs : List AgentResult) : Prop :=
  ∀ r ∈ rs, ∃ text artifact, r = answer call r.agentId text artifact

theorem Answered.push {call : Call} {l : Locals} (h : Answered call l.agentResults) (a : AgentId)
    (text : String) (artifact : Artifact) :
    Answered call (l.push a (answer call a text artifact)).agentResults := by
  intro r hr
  rcases List.mem_append.mp hr with hr | hr
  · exact h r hr
  · obtain rfl := List.mem_singleton.mp hr
    exact ⟨text, artifact, by rw [show (answer call a text artifact).agentId = a from
      HarpAgent.resultOf_agentId _ _ _ _]⟩

/-- A blocked result is flagged. -/
theorem Answered.any_of_blocked {call : Call} {rs : List AgentResult} (h : Answered call rs)
    (hb : anyBlockedOrFailed rs = true) : rs.any (·.approvalRequired) = true := by
  obtain ⟨r, hr, hs⟩ := List.any_eq_true.mp hb
  obtain ⟨text, artifact, heq⟩ := h r hr
  have hna : ¬ HarpAgent.accepts text = true := by
    intro ha
    have hok : r.status = .success := heq ▸ answer_success.mpr ha
    simp [hok] at hs
  refine List.any_eq_true.mpr ⟨r, hr, ?_⟩
  rw [heq, answer_approvalRequired]
  simp [HarpAgent.approvalFlag, hna]

/-- Anubis flags a sensitive task. -/
theorem Answered.any_of_anubis {call : Call} {rs : List AgentResult} (h : Answered call rs)
    (hs : sensitive call.task = true) (hm : .anubisSentinel ∈ rs.map (·.agentId)) :
    rs.any (·.approvalRequired) = true := by
  obtain ⟨r, hr, hid⟩ := List.mem_map.mp hm
  obtain ⟨text, artifact, heq⟩ := h r hr
  refine List.any_eq_true.mpr ⟨r, hr, ?_⟩
  rw [heq, hid, answer_approvalRequired, approvalFlag_anubis hs]

/-- A loop that finishes ran its whole sequence, or stopped on a blocked result. -/
theorem Passes.finished {call : Call} (hs : call.strategy.StopsOnBlocked) {seq : List AgentId}
    {l l' : Locals} {rec : Record} (h : Passes call seq l rec .finished l')
    (hl : Answered call l.agentResults) :
    Answered call l'.agentResults ∧
      (l'.agentResults.map (·.agentId) = l.agentResults.map (·.agentId) ++ seq ∨
        anyBlockedOrFailed l'.agentResults = true) := by
  have blocked {l : Locals} (h : .leave .finished = stopCheck call l) :
      anyBlockedOrFailed l.agentResults = true := by
    rcases stopCheck_cases hs l with hn | ⟨-, hb⟩
    · cases h.trans hn
    · exact hb
  generalize he : LoopEnd.finished = e at h
  induction h with
  | done => exact ⟨hl, .inl (List.append_nil _).symm⟩
  | leave h =>
    subst he
    generalize hte : TurnEnd.leave _ = te at h
    cases h with
    | refused => cases hte
    | rejected => cases hte
    | gateThrew => cases hte
    | denied => cases hte
    | returned => exact ⟨hl.push _ _ _, .inr (blocked hte)⟩
    | passed => exact ⟨hl.push _ _ _, .inr (blocked hte)⟩
  | next h _ ih =>
    cases h.onward with
    | returned =>
      obtain ⟨ha, hseq⟩ := ih (hl.push _ _ _) he
      exact ⟨ha, hseq.imp_left fun h => by
        simpa [Locals.push, answer, HarpAgent.resultOf_agentId] using h⟩
    | passed =>
      obtain ⟨ha, hseq⟩ := ih (hl.push _ _ _) he
      exact ⟨ha, hseq.imp_left fun h => by
        simpa [Locals.push, answer, HarpAgent.resultOf_agentId] using h⟩

/-! ## The approval floor -/

/-- One of the source's nine strategies. -/
def Known (s : CoordinationStrategy) : Prop :=
  s ∈ allStrategies ∨ ∃ env, s ∈ buildAdvancedStrategies env

theorem Known.stopsOnBlocked {s : CoordinationStrategy} (h : Known s) : s.StopsOnBlocked :=
  h.elim stopsOnBlocked_of_mem fun ⟨_, h⟩ => stopsOnBlocked_of_advanced h

/-- Anubis reviews in every sequence. -/
theorem Known.anubis_mem {s : CoordinationStrategy} (h : Known s) (task : AgentTask) :
    .anubisSentinel ∈ s.selectSequence task := by
  rcases h with h | ⟨env, h⟩
  · simp only [allStrategies, List.mem_cons, List.not_mem_nil, or_false] at h
    rcases h with rfl | rfl | rfl | rfl | rfl | rfl <;>
      simp [sequentialReviewStrategy, parallelReviewStrategy, arbitrationStrategy,
        negotiationStrategy, votingStrategy, escalationStrategy]
  · simp only [buildAdvancedStrategies, List.mem_cons, List.not_mem_nil, or_false] at h
    rcases h with rfl | rfl | rfl <;>
      simp only [chainOfDebatesStrategy, looseCoalitionsStrategy, aufhebenStrategy,
        gatedAdvancedStrategy] <;> split <;> simp [safeFallback]

theorem strategyFor_known {input : Input} (hs : ∀ s, input.forceStrategy = some s → Known s) :
    Known (strategyFor input) := by
  unfold strategyFor
  cases hf : input.forceStrategy with
  | none => exact .inl (StrategySelector.select_mem input.task)
  | some s => exact hs s hf

/-- A sensitive task never comes back without the approval flag. -/
theorem approvalFloor {ε : Type} (env : Env ε) (budget : Nat) (input : Input) (w : World ε)
    (hs : ∀ s, input.forceStrategy = some s → Known s)
    (ht : input.task.riskLevel = .high ∨ input.task.riskLevel = .critical ∨
      input.task.requiresRepoWrite = some true ∨ input.task.touchesSecrets = some true)
    {r : WorkflowResult} (hr : (run (systemHandler env budget) (execute input) w).1 = .ok r) :
    r.approvalRequired = true := by
  obtain ⟨rec, e, l, es, hp, hend, -⟩ := execute_passes env budget input w
  rw [hr] at hend
  have hknown := strategyFor_known hs
  have hsens : sensitive input.task = true := by
    rcases ht with h | h | h | h <;> simp [sensitive, HarpAgent.highRisk, h]
  rw [(hp.reports hend).approvalRequired]
  cases e with
  | blocked => rfl
  | thrown => rfl
  | finished =>
    obtain ⟨ha, hseq | hb⟩ := hp.finished hknown.stopsOnBlocked (by simp [Answered, Locals.empty])
    · refine ha.any_of_anubis hsens ?_
      rw [hseq]
      exact List.mem_append_right _ (hknown.anubis_mem input.task)
    · exact ha.any_of_blocked hb

theorem approvalFloor_secrets :
    ∃ r, (run (systemHandler (Env.constant "" true) 200000)
        (execute (bareInput { irreversibleTask with touchesSecrets := some true } none))
        (World.create ())).1 = .ok r ∧ r.approvalRequired = true := by
  have hok : (run (systemHandler (Env.constant "" true) 200000)
      (execute (bareInput { irreversibleTask with touchesSecrets := some true } none))
      (World.create ())).1.isOk = true := by decide +kernel
  obtain ⟨r, hr⟩ := exists_of_isOk hok
  exact ⟨r, hr, approvalFloor (Env.constant "" true) 200000
    (bareInput { irreversibleTask with touchesSecrets := some true } none) (World.create ())
    (fun _ h => nomatch h) (.inr (.inr (.inr rfl))) hr⟩

/-! ## Escalation -/

/-- The model answered with a usable text. -/
def accepted : Exchange → Bool
  | .model _ (.ok response) => HarpAgent.accepts response.text
  | _ => false

/-- Without Ra and without an early stop, the loop runs its whole sequence and its flags are
    those of the agents and of the unusable answers, unless an agent threw. -/
theorem Passes.reviewed {call : Call} (hs : ∀ l, stopCheck call l = .next) {seq : List AgentId}
    (hra : .ra ∉ seq) {l l' : Locals} {rec : Record} {e : LoopEnd}
    (h : Passes call seq l rec e l') :
    (e = .finished ∧ rec.exchanges.length = seq.length ∧
      l'.agentResults.any (·.approvalRequired) = (l.agentResults.any (·.approvalRequired) ||
        (seq.any (HarpAgent.approvalFlag · call.task true) || !rec.exchanges.all accepted))) ∨
    ((∃ err, e = .thrown err) ∧
      (rec.exchanges.length < seq.length ∨ rec.exchanges.all accepted = false)) := by
  induction h with
  | done => exact .inl ⟨rfl, rfl, by simp [Record.empty]⟩
  | leave h =>
    generalize hte : TurnEnd.leave _ = te at h
    cases h with
    | refused => cases hte; exact .inr ⟨⟨_, rfl⟩, .inl (by simp [unanswered])⟩
    | rejected => cases hte; exact .inr ⟨⟨_, rfl⟩, .inr rfl⟩
    | returned => cases hte.trans (hs _)
    | gateThrew _ ha => exact absurd (ha ▸ List.mem_cons_self) hra
    | passed _ ha => exact absurd (ha ▸ List.mem_cons_self) hra
    | denied _ ha => exact absurd (ha ▸ List.mem_cons_self) hra
  | @next a _ _ _ _ _ _ _ h _ ih =>
    cases h.onward with
    | passed _ ha => exact absurd (ha ▸ List.mem_cons_self) hra
    | returned _ _ response =>
      have hflag (acc : Bool) : HarpAgent.approvalFlag a call.task acc =
          (!acc || HarpAgent.approvalFlag a call.task true) := by
        cases acc <;> simp [HarpAgent.approvalFlag]
      rcases ih (fun h => hra (List.mem_cons_of_mem _ h)) with ⟨rfl, hlen, hany⟩ | ⟨herr, hx⟩
      · refine .inl ⟨rfl, by simp [answered, hlen], ?_⟩
        simp only [hany, Locals.push, List.any_append, List.any_cons, List.any_nil,
          answer_approvalRequired, Record.exchanges_append, answered, List.all_append,
          List.all_cons, List.all_nil, accepted, Bool.or_false, Bool.and_true, Bool.not_and]
        rw [hflag]
        ac_rfl
      · refine .inr ⟨herr, hx.imp ?_ ?_⟩
        · simp [answered]
        · simp +contextual [answered]

theorem escalation_sequence (task : AgentTask) :
    escalationStrategy.selectSequence task = [.pharaoh, .anubisSentinel, .pharaoh] := rfl

/-- A task that forces escalation comes back with the approval flag exactly when it is
    sensitive, or not all three agents got a usable answer. -/
theorem escalated_approvalRequired_iff {ε : Type} (env : Env ε) (budget : Nat) (input : Input)
    (w : World ε) (hf : input.forceStrategy = none)
    (hesc : StrategySelector.forceEscalation input.task = true) :
    (∀ r, (run (systemHandler env budget) (execute input) w).1 = .ok r →
      r.approvalRequired = true) ↔
      sensitive input.task = true ∨ (exchanges env budget (execute input) w).length < 3 ∨
        ∃ x ∈ exchanges env budget (execute input) w, accepted x = false := by
  obtain ⟨rec, e, l, es, hp, hend, -, hx, -⟩ := execute_passes env budget input w
  have hstrat : strategyFor input = escalationStrategy := by
    rw [strategyFor, hf]
    exact StrategySelector.select_forced hesc
  have hstop (l : Locals) : stopCheck (callOf input ((w.now env).2.randomUUID env).1
      (w.now env).1) l = .next := by
    simp only [stopCheck, callOf, hstrat]
    rfl
  rw [← hx]
  rw [hstrat, escalation_sequence] at hp
  generalize (run (systemHandler env budget) (execute input) w).1 = outcome at hend ⊢
  rcases hp.reviewed hstop (by decide) with ⟨rfl, hlen, hany⟩ | ⟨⟨err, rfl⟩, hbad⟩
  · have hseq : [AgentId.pharaoh, .anubisSentinel, .pharaoh].any
        (HarpAgent.approvalFlag · input.task true) = sensitive input.task := by
      simp only [List.any_cons, List.any_nil, HarpAgent.approvalFlag, sensitive]
      cases HarpAgent.highRisk input.task <;> simp
    rw [show (callOf input ((w.now env).2.randomUUID env).1 (w.now env).1).task = input.task
      from rfl, hseq] at hany
    have h3 : ¬ rec.exchanges.length < 3 := by rw [hlen]; decide
    cases hend with
    | completed h =>
      simp only [Except.ok.injEq, forall_eq', h.approvalRequired]
      simp [hany, Locals.empty, h3]
  · refine iff_of_true (fun r hr => ?_) (.inr (hbad.imp_right fun h => by simpa using h))
    rw [hr] at hend
    exact (hp.reports hend).approvalRequired

theorem escalated_approvalRequired_iff_irreversible :
    (∀ r, (run (systemHandler (Env.constant "{}" true) 200000)
        (execute (bareInput irreversibleTask none)) (World.create ())).1 = .ok r →
      r.approvalRequired = true) ↔
      sensitive irreversibleTask = true ∨
        (exchanges (Env.constant "{}" true) 200000 (execute (bareInput irreversibleTask none))
          (World.create ())).length < 3 ∨
        ∃ x ∈ exchanges (Env.constant "{}" true) 200000
          (execute (bareInput irreversibleTask none)) (World.create ()), accepted x = false :=
  escalated_approvalRequired_iff (Env.constant "{}" true) 200000 (bareInput irreversibleTask none)
    (World.create ()) rfl (by decide)

/-- Forcing the strategy that is selected anyway changes nothing. -/
theorem execute_forced (input : Input) :
    execute { input with forceStrategy := some (strategyFor input) } = execute input := rfl

/-- An irreversible task of low risk escalates; with a usable text at each step it completes
    without asking for approval. -/
theorem irreversible_completed :
    StrategySelector.forceEscalation irreversibleTask = true ∧
      ∃ r, (run (systemHandler (Env.constant "{}" true) 200000)
          (execute (bareInput irreversibleTask none)) (World.create ())).1 = .ok r ∧
        r.status = .completed ∧ r.approvalRequired = false := by
  have hesc : StrategySelector.forceEscalation irreversibleTask = true := by decide
  have hstrat : strategyFor (bareInput irreversibleTask none) = escalationStrategy :=
    StrategySelector.select_forced hesc
  rw [← execute_forced, hstrat]
  have hany : (run (systemHandler (Env.constant "{}" true) 200000)
      (execute { bareInput irreversibleTask none with forceStrategy := some escalationStrategy })
      (World.create ())).1.toOption.any
        (fun r => r.status = .completed ∧ r.approvalRequired = false) = true := by decide +kernel
  obtain ⟨r, hr, h⟩ := exists_of_any hany
  exact ⟨hesc, r, hr, of_decide_eq_true h⟩

end HarpOrchestrator

end Harp
