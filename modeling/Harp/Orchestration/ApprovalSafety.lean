import Harp.Orchestration.Runs

/-
  Approval safety of a call, for any agents, any strategy and any approval provider.

  Every result of Ra is followed at once by one consultation about exactly its artifacts,
  and nothing but a passing decision lets the call go on. `Gated` is the invariant of the
  loop; `GateSafe` reads it at each position of the steps, and holds of every call. That a
  rejection is reported as a failed workflow (`ApprovalSafe`) holds exactly when its text
  can be read: `handleFailure` reads it before it audits, and what that throws is thrown
  on.
-/

namespace Harp

open Prog

/-- What the steps of a call, its outcome and the stored artifacts of each workflow satisfy. -/
structure GateSafe (st : List Step) (outcome : Except Thrown WorkflowResult)
    (stored : String → List Artifact) : Prop where
  /-- A result of Ra is followed by a consultation about its artifacts. -/
  consulted : ∀ pre r post, st = pre ++ .agent .ra (.ok r) :: post →
    ∃ request answer rest, post = .consult request answer :: rest ∧
      request.artifactIds = r.artifacts.map (·.id)
  /-- There is no other consultation. -/
  only_after_ra : ∀ pre request answer post, st = pre ++ .consult request answer :: post →
    ∃ pre' r, pre = pre' ++ [.agent .ra (.ok r)]
  /-- A later agent runs, or the call completes, only after a passing decision. -/
  goes_on : ∀ pre request answer post, st = pre ++ .consult request answer :: post →
    post ≠ [] ∨ (∃ result, outcome = .ok result ∧ result.status = .completed) →
    ∃ d, answer = .ok d ∧ (d.approved = true ∨ d.required = false)
  /-- Any other decision ends the call, with the approval request stored last. -/
  denied : ∀ pre request d post, st = pre ++ .consult request (.ok d) :: post →
    ¬ (d.approved = true ∨ d.required = false) →
    post = [] ∧ ∃ result, outcome = .ok result ∧ result.status = .approvalRequired ∧
      result.approvalRequired = true ∧
      ∃ a, a.type = .approvalRequest ∧ result.artifacts.getLast? = some a ∧
        (stored result.id).getLast? = some a
  /-- No agent runs after a rejection, of an agent or of the provider. -/
  rejection_last : ∀ pre s e post, st = pre ++ s :: post → s.rejection = some e → post = []

/-- Moreover, a rejecting agent or provider makes the call a failed workflow. -/
structure ApprovalSafe (st : List Step) (outcome : Except Thrown WorkflowResult)
    (stored : String → List Artifact) : Prop extends GateSafe st outcome stored where
  rejection_failed : ∀ s ∈ st, ∀ e, s.rejection = some e →
    ∃ result, outcome = .ok result ∧ result.status = .failed

/-- The text of every value that an agent or the provider rejects with can be read. -/
def RejectionsReadable (st : List Step) : Prop := ∀ s ∈ st, ∀ e, s.rejection = some e → e.Readable

namespace HarpOrchestrator

theorem passes_iff (d : ApprovalDecision) :
    d.passes = true ↔ d.approved = true ∨ d.required = false := by
  cases hr : d.required <;> cases ha : d.approved <;> simp [ApprovalDecision.passes, hr, ha]

/-! ## The shape of the steps -/

/-- The steps of a loop that ends as `e`: a result of Ra comes with its consultation, and
    only a passing decision has anything behind it. -/
inductive Gated (e : LoopEnd) : List Step → Prop
  | nil : Gated e []
  | agentThrew {a : AgentId} {err : Thrown} (he : e = .thrown err) :
      Gated e [.agent a (.error err)]
  | agent {a : AgentId} {r : AgentResult} {st : List Step} (ha : a ≠ .ra) (h : Gated e st) :
      Gated e (.agent a (.ok r) :: st)
  | gateThrew {r : AgentResult} {q : ApprovalRequest} {err : Thrown}
      (hq : q.artifactIds = r.artifacts.map (·.id)) (he : e = .thrown err) :
      Gated e [.agent .ra (.ok r), .consult q (.error err)]
  | passed {r : AgentResult} {q : ApprovalRequest} {d : ApprovalDecision} {st : List Step}
      (hq : q.artifactIds = r.artifacts.map (·.id)) (hd : d.passes = true) (h : Gated e st) :
      Gated e (.agent .ra (.ok r) :: .consult q (.ok d) :: st)
  | denied {r : AgentResult} {q : ApprovalRequest} {d : ApprovalDecision} {b : WorkflowResult}
      (hq : q.artifactIds = r.artifacts.map (·.id)) (hd : d.passes = false)
      (he : e = .blocked b) :
      Gated e [.agent .ra (.ok r), .consult q (.ok d)]

namespace Gated

variable {e : LoopEnd} {st : List Step}

/-- What stands behind a position is gated too, together with the result of Ra before it when
    the position is a consultation. -/
theorem suffix (h : Gated e st) {pre post : List Step} (hs : st = pre ++ post) :
    Gated e post ∨
      ∃ pre' r, pre = pre' ++ [.agent .ra (.ok r)] ∧ Gated e (.agent .ra (.ok r) :: post) := by
  induction h generalizing pre with
  | nil =>
    obtain ⟨rfl, rfl⟩ := List.append_eq_nil_iff.mp hs.symm
    exact .inl .nil
  | agentThrew he =>
    rcases List.cons_eq_append_iff.mp hs with ⟨rfl, rfl⟩ | ⟨pre', rfl, h⟩
    · exact .inl (.agentThrew he)
    · obtain ⟨rfl, rfl⟩ := List.append_eq_nil_iff.mp h.symm
      exact .inl .nil
  | agent ha hst ih =>
    rcases List.cons_eq_append_iff.mp hs with ⟨rfl, rfl⟩ | ⟨pre', rfl, h⟩
    · exact .inl (.agent ha hst)
    · refine (ih h).imp_right ?_
      rintro ⟨pre'', r, rfl, hr⟩
      exact ⟨_ :: pre'', r, rfl, hr⟩
  | gateThrew hq he =>
    rcases List.cons_eq_append_iff.mp hs with ⟨rfl, rfl⟩ | ⟨pre', rfl, h⟩
    · exact .inl (.gateThrew hq he)
    rcases List.cons_eq_append_iff.mp h with ⟨rfl, rfl⟩ | ⟨pre'', rfl, h'⟩
    · exact .inr ⟨[], _, rfl, .gateThrew hq he⟩
    · obtain ⟨rfl, rfl⟩ := List.append_eq_nil_iff.mp h'.symm
      exact .inl .nil
  | passed hq hd hst ih =>
    rcases List.cons_eq_append_iff.mp hs with ⟨rfl, rfl⟩ | ⟨pre', rfl, h⟩
    · exact .inl (.passed hq hd hst)
    rcases List.cons_eq_append_iff.mp h with ⟨rfl, rfl⟩ | ⟨pre'', rfl, h'⟩
    · exact .inr ⟨[], _, rfl, .passed hq hd hst⟩
    · refine (ih h').imp_right ?_
      rintro ⟨pre₃, r, rfl, hr⟩
      exact ⟨_ :: _ :: pre₃, r, rfl, hr⟩
  | denied hq hd he =>
    rcases List.cons_eq_append_iff.mp hs with ⟨rfl, rfl⟩ | ⟨pre', rfl, h⟩
    · exact .inl (.denied hq hd he)
    rcases List.cons_eq_append_iff.mp h with ⟨rfl, rfl⟩ | ⟨pre'', rfl, h'⟩
    · exact .inr ⟨[], _, rfl, .denied hq hd he⟩
    · obtain ⟨rfl, rfl⟩ := List.append_eq_nil_iff.mp h'.symm
      exact .inl .nil

theorem at_agent (h : Gated e st) {pre post : List Step} {a : AgentId}
    {answer : Except Thrown AgentResult} (hs : st = pre ++ .agent a answer :: post) :
    Gated e (.agent a answer :: post) := by
  rcases h.suffix hs with h | ⟨_, r, -, h⟩
  · exact h
  · cases h with
    | agent ha => exact absurd rfl ha

theorem at_consult (h : Gated e st) {pre post : List Step} {q : ApprovalRequest}
    {answer : Except Thrown ApprovalDecision} (hs : st = pre ++ .consult q answer :: post) :
    ∃ pre' r, pre = pre' ++ [.agent .ra (.ok r)] ∧
      Gated e (.agent .ra (.ok r) :: .consult q answer :: post) := by
  rcases h.suffix hs with h | h
  · cases h
  · exact h

end Gated

/-- The passes of a loop produce gated steps. -/
theorem LoopRun.gated {ε : Type} {env : Env ε} {agents : Agents ε} {call : Call}
    {seq : List AgentId} {l l' : Locals} {w w' : World ε} {st : List Step} {e : LoopEnd}
    (h : LoopRun env agents call seq l w st e l' w') : Gated e st := by
  have hq (r : AgentResult) : (approvalRequest call r).artifactIds = r.artifacts.map (·.id) := rfl
  induction h with
  | done => exact .nil
  | leave ht =>
    generalize hte : TurnEnd.leave _ = te at ht
    cases ht with
    | threw => cases hte; exact .agentThrew rfl
    | returned hne => exact .agent hne .nil
    | gateThrew ha => cases hte; subst ha; exact .gateThrew (hq _) rfl
    | passed ha _ _ hp => subst ha; exact .passed (hq _) hp .nil
    | denied ha _ _ hp => cases hte; subst ha; exact .denied (hq _) hp rfl
  | next ht _ ih =>
    generalize hte : TurnEnd.next = te at ht
    cases ht with
    | threw => cases hte
    | returned hne => exact .agent hne ih
    | gateThrew => cases hte
    | passed ha _ _ hp => subst ha; exact .passed (hq _) hp ih
    | denied => cases hte

/-! ## The ends -/

/-- A blocked end carries the result of a denial, whose artifact has just been stored. -/
theorem LoopRun.blocked {ε : Type} {env : Env ε} {agents : Agents ε} {call : Call}
    {seq : List AgentId} {l l' : Locals} {w w' : World ε} {st : List Step} {b : WorkflowResult}
    (h : LoopRun env agents call seq l w st (.blocked b) l' w') :
    b.id = call.workflowId ∧ b.status = .approvalRequired ∧ b.approvalRequired = true ∧
      ∃ a, a.type = .approvalRequest ∧ b.artifacts.getLast? = some a ∧
        (w'.memoryStore.byWorkflow b.id).getLast? = some a := by
  generalize he : LoopEnd.blocked b = e at h
  induction h with
  | done => cases he
  | next _ _ ih => exact ih he
  | leave ht =>
    generalize hte : TurnEnd.leave _ = te at ht
    cases ht with
    | threw => cases hte; cases he
    | returned => exact absurd (he ▸ hte).symm (stopCheck_ne_blocked _ _ _)
    | gateThrew => cases hte; cases he
    | passed => exact absurd (he ▸ hte).symm (stopCheck_ne_blocked _ _ _)
    | denied =>
      cases hte
      cases he
      refine ⟨rfl, rfl, rfl, _, rfl, List.getLast?_concat, ?_⟩
      simp [InMemoryArtifactStore.byWorkflow, denialWorld, denialResult, denialArtifact,
        approvalArtifact]

/-! ## Approval safety -/

/-- The status of a call whose loop was left by an exception with a readable text. -/
theorem failed_of_readable {ε : Type} (env : Env ε) (agents : Agents ε) (call : Call)
    {err : Thrown} (herr : err.Readable) (l : Locals) (w : World ε) :
    ∃ result, (run (orchHandler env agents) (conclude call (.thrown err, l)) w).1 = .ok result ∧
      result.status = .failed := by
  obtain ⟨reason, hreason⟩ := Thrown.readable_iff.mp herr
  rw [run_conclude_readable env agents call hreason]
  exact ⟨_, rfl, rfl⟩

/-- A call that an exception left never completes. -/
theorem not_completed_of_thrown {ε : Type} (env : Env ε) (agents : Agents ε) (call : Call)
    (err : Thrown) (l : Locals) (w : World ε) :
    ¬ ∃ result, (run (orchHandler env agents) (conclude call (.thrown err, l)) w).1 = .ok result ∧
      result.status = .completed := by
  rintro ⟨result, hok, hst⟩
  cases hr : err.reason with
  | error t =>
    rw [run_conclude_unreadable env agents call hr] at hok
    cases hok
  | ok reason =>
    obtain ⟨failed, hok', hst'⟩ :=
      failed_of_readable env agents call (Thrown.readable_iff.mpr ⟨_, hr⟩) l w
    obtain rfl := Except.ok.inj (hok.symm.trans hok')
    cases hst.symm.trans hst'

/-- The value that a gated rejection carries is the one that left the loop. -/
theorem Gated.thrown {e : LoopEnd} {st : List Step} (h : Gated e st) {pre post : List Step}
    {s : Step} {err : Thrown} (hs : st = pre ++ s :: post) (hrej : s.rejection = some err) :
    post = [] ∧ e = .thrown err := by
  cases s with
  | agent a answer =>
    cases answer with
    | ok => cases hrej
    | error err' =>
      obtain rfl := Option.some.inj hrej
      cases h.at_agent hs with
      | agentThrew he => exact ⟨rfl, he⟩
  | consult q answer =>
    cases answer with
    | ok => cases hrej
    | error err' =>
      obtain rfl := Option.some.inj hrej
      obtain ⟨pre', r, -, h⟩ := h.at_consult hs
      cases h with
      | agent ha => exact absurd rfl ha
      | gateThrew _ he => exact ⟨rfl, he⟩

section

variable {ε : Type} (env : Env ε) (agents : Agents ε) (input : Input)

/-- Whatever the agents, the strategy and the approval provider do, a call keeps the gate. -/
theorem executeAs_gateSafe (workflowId startedAt : String) (w : World ε) :
    let out := run (orchHandler env agents) (executeAs input workflowId startedAt) w
    GateSafe (steps (trace (orchHandler env agents) (executeAs input workflowId startedAt) w))
      out.1 out.2.memoryStore.byWorkflow := by
  intro out
  obtain ⟨e, l, w', hl, hrun⟩ := executeAs_runs env agents input workflowId startedAt w
  have hg := hl.gated
  have hout : out = run (orchHandler env agents) _ _ := hrun
  constructor
  · -- a result of Ra stands before its consultation
    intro pre r post hs
    cases hg.at_agent hs with
    | agent ha => exact absurd rfl ha
    | gateThrew hq => exact ⟨_, _, _, rfl, hq⟩
    | passed hq => exact ⟨_, _, _, rfl, hq⟩
    | denied hq => exact ⟨_, _, _, rfl, hq⟩
  · intro pre q answer post hs
    obtain ⟨pre', r, hpre, -⟩ := hg.at_consult hs
    exact ⟨pre', r, hpre⟩
  · intro pre q answer post hs hgo
    obtain ⟨pre', r, -, h⟩ := hg.at_consult hs
    cases h with
    | agent ha => exact absurd rfl ha
    | gateThrew _ he =>
      subst he
      rw [hout] at hgo
      exact absurd (hgo.resolve_left fun h => h rfl) (not_completed_of_thrown env agents _ _ l w')
    | passed _ hd => exact ⟨_, rfl, (passes_iff _).mp hd⟩
    | denied _ _ he =>
      subst he
      have hb := hl.blocked
      rw [hout, run_conclude_blocked] at hgo
      obtain ⟨result, hok, hst⟩ := hgo.resolve_left fun h => h rfl
      obtain rfl := Except.ok.inj hok
      cases hst.symm.trans hb.2.1
  · intro pre q d post hs hno
    obtain ⟨pre', r, -, h⟩ := hg.at_consult hs
    cases h with
    | agent ha => exact absurd rfl ha
    | passed _ hd => exact absurd ((passes_iff _).mp hd) hno
    | denied _ _ he =>
      subst he
      have hb := hl.blocked
      rw [hout, run_conclude_blocked]
      exact ⟨rfl, _, rfl, hb.2⟩
  · intro pre s err post hs hrej
    exact (hg.thrown hs hrej).1

/-- A call is approval-safe exactly when the text of every rejection can be read. -/
theorem executeAs_approvalSafe_iff (workflowId startedAt : String) (w : World ε) :
    let st := steps (trace (orchHandler env agents) (executeAs input workflowId startedAt) w)
    let out := run (orchHandler env agents) (executeAs input workflowId startedAt) w
    ApprovalSafe st out.1 out.2.memoryStore.byWorkflow ↔ RejectionsReadable st := by
  intro st out
  obtain ⟨e, l, w', hl, hrun⟩ := executeAs_runs env agents input workflowId startedAt w
  have hout : out = run (orchHandler env agents) _ _ := hrun
  have hthrown (s : Step) (hs : s ∈ st) (err : Thrown) (hrej : s.rejection = some err) :
      e = .thrown err := by
    obtain ⟨pre, post, hsplit⟩ := List.append_of_mem hs
    exact (hl.gated.thrown hsplit hrej).2
  constructor
  · intro h s hs err hrej
    obtain ⟨result, hok, -⟩ := h.rejection_failed s hs err hrej
    obtain rfl := hthrown s hs err hrej
    by_contra hnot
    obtain ⟨t, ht⟩ := Thrown.not_readable_iff.mp hnot
    rw [hout, run_conclude_unreadable env agents _ ht] at hok
    cases hok
  · intro hread
    refine ⟨executeAs_gateSafe env agents input workflowId startedAt w, ?_⟩
    intro s hs err hrej
    obtain rfl := hthrown s hs err hrej
    rw [hout]
    exact failed_of_readable env agents _ (hread s hs err hrej) l w'

/-- The same of `execute`. -/
theorem execute_approvalSafe_iff (w : World ε) :
    let st := steps (trace (orchHandler env agents) (execute input) w)
    let out := run (orchHandler env agents) (execute input) w
    ApprovalSafe st out.1 out.2.memoryStore.byWorkflow ↔ RejectionsReadable st :=
  executeAs_approvalSafe_iff env agents input _ _ _

end

/-! ## A rejection without a text -/

/-- Agents that reject with `Object.create(null)`. -/
def textless : Agents Unit :=
  fun _ _ w => (.error (.unreadable (.error "Cannot convert object to primitive value")), w)

/-- The call rejects itself: the first agent has rejected, and no failed workflow is returned
    or audited. -/
theorem textless_unreported :
    let out := run (orchHandler (Env.constant "{}" true) textless)
      (execute (bareInput irreversibleTask (some sequentialReviewStrategy))) (World.create ())
    out.1 = .error (.error "Cannot convert object to primitive value") ∧
      out.2.auditLogger.events.map (·.action) = ["workflow.started"] ∧
      ¬ ApprovalSafe (steps (trace (orchHandler (Env.constant "{}" true) textless)
          (execute (bareInput irreversibleTask (some sequentialReviewStrategy)))
          (World.create ()))) out.1 out.2.memoryStore.byWorkflow := by
  intro out
  have hout : out.1 = .error (.error "Cannot convert object to primitive value") := rfl
  refine ⟨hout, rfl, ?_⟩
  intro h
  have hmem : Step.agent .pharaoh
      (.error (.unreadable (.error "Cannot convert object to primitive value"))) ∈
        steps (trace (orchHandler (Env.constant "{}" true) textless)
          (execute (bareInput irreversibleTask (some sequentialReviewStrategy)))
          (World.create ())) := List.mem_singleton_self _
  obtain ⟨result, hok, -⟩ := h.rejection_failed _ hmem _ rfl
  cases hok.symm.trans hout

end HarpOrchestrator

end Harp
