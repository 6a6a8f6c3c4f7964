import Harp.Lib.Pool
import Harp.Orchestration.SystemRuns

/-
  Calls that run at the same time on one orchestrator.

  Every operation that a call performs on the shared state names the call's own workflow id
  (`Own`), and what such operations read and change is what `view` shows for that id. Calls
  with different ids are therefore isolated, and each runs as it runs alone.
-/

namespace Harp

open Prog

/-- What a step may draw from outside: a random id and the time. -/
structure Draw where
  uuid : String
  time : String

/-- Providers whose answers depend on nothing but the request. -/
structure Providers where
  generate : ModelRequest → Except Thrown ModelResponse
  requestApproval : ApprovalRequest → Except Thrown ApprovalDecision

/-- Providers that give the same answer to every request. -/
def Providers.constant (text : String) (approved : Bool) : Providers where
  generate request := ((Env.constant text approved).generate request ()).1
  requestApproval request := ((Env.constant text approved).requestApproval request ()).1

/-- The environment of one step. -/
def Providers.env (pv : Providers) (d : Draw) : Env Unit where
  randomUUID _ := (d.uuid, ())
  now _ := (d.time, ())
  generate request _ := (pv.generate request, ())
  requestApproval request _ := (pv.requestApproval request, ())

/-- How a step with the draw `d` answers its operation. -/
def drawHandler (pv : Providers) (d : Draw) : Handler SysOp SysOp.Res (World Unit) :=
  sysHandler (pv.env d)

/-- The operation is about the workflow `workflowId`, as far as it touches shared state. -/
def Own (workflowId : String) : SysOp → Prop
  | .auditWrite event => event.workflowId = some workflowId
  | .memoryAppend artifact => artifact.workflowId = workflowId
  | .usage key => key = workflowId
  | .recordCall key _ _ _ => key = workflowId
  | _ => True

/-- What a workflow can see of the shared state: its events, its artifacts, its counter. -/
def view {ε : Type} (workflowId : String) (w : World ε) :
    List AuditEvent × List Artifact × Nat :=
  (w.auditLogger.events.filter (·.workflowId == some workflowId),
    w.memoryStore.artifacts.filter (·.workflowId == workflowId),
    w.modelRouter.usage workflowId)

section View

variable {ε : Type} (workflowId : String) (w : World ε) (env : Env ε)

theorem view_auditWrite (e : AuditEntry) :
    view workflowId (w.auditWrite env e).2 =
      ((view workflowId w).1 ++
          [(w.auditWrite env e).1].filter (·.workflowId == some workflowId),
        (view workflowId w).2) := by
  simp [view, List.filter_append]

theorem view_memoryAppend (a : Artifact) :
    view workflowId (w.memoryAppend a) =
      ((view workflowId w).1, (view workflowId w).2.1 ++ [a].filter (·.workflowId == workflowId),
        (view workflowId w).2.2) := by
  simp [view, List.filter_append]

theorem view_recordCall (key : String) (total : Nat) (q : ModelRequest)
    (r : ModelResponse) :
    view workflowId (w.recordCall env key total q r) =
      ((view workflowId w).1, (view workflowId w).2.1,
        if workflowId = key then total else (view workflowId w).2.2) := by
  simp only [view, auditLogger_recordCall, memoryStore_recordCall]
  rw [show (w.recordCall env key total q r).modelRouter =
    w.modelRouter.recordCall key total q r (w.now env).1 from rfl, ModelRouter.usage_recordCall]

end View

/-- Workflows with different ids are isolated. -/
theorem view_isolated {ι : Type} (pv : Providers) (ids : ι → String)
    (hids : ∀ i j, i ≠ j → ids i ≠ ids j) :
    Pool.Isolated (drawHandler pv) (fun i => Own (ids i)) (fun i => view (ids i)) where
  own i d o s s' ho hs := by
    cases o with
    | auditWrite e => exact ⟨rfl, by
        simp only [drawHandler, sysHandler_auditWrite, view_auditWrite, hs]; rfl⟩
    | memoryAppend a => exact ⟨rfl, by
        simp only [drawHandler, sysHandler_memoryAppend, view_memoryAppend, hs]⟩
    | usage key =>
      obtain rfl : key = ids i := ho
      exact ⟨congrArg (·.2.2) hs, hs⟩
    | recordCall key total q r => exact ⟨rfl, by
        simp only [drawHandler, sysHandler_recordCall, view_recordCall, hs]⟩
    | now => exact ⟨rfl, hs⟩
    | randomUUID => exact ⟨rfl, hs⟩
    | requestApproval q => exact ⟨rfl, hs⟩
    | providerGenerate q => exact ⟨rfl, hs⟩
  other i j d o s hij ho := by
    have hne : ids j ≠ ids i := hids j i fun h => hij h.symm
    cases o with
    | auditWrite e =>
      have he : e.workflowId = some (ids j) := ho
      simp only [drawHandler, sysHandler_auditWrite, view_auditWrite]
      rw [List.filter_eq_nil_iff.mpr (by simp [he, hne]), List.append_nil]
    | memoryAppend a =>
      have ha : a.workflowId = ids j := ho
      simp only [drawHandler, sysHandler_memoryAppend, view_memoryAppend]
      simp [ha, hne]
    | recordCall key total q r =>
      have hk : key = ids j := ho
      simp only [drawHandler, sysHandler_recordCall, view_recordCall]
      rw [if_neg fun h => hne (hk.symm.trans h.symm)]
    | usage key => rfl
    | now => rfl
    | randomUUID => rfl
    | requestApproval q => rfl
    | providerGenerate q => rfl

/-! ## A call keeps to its own workflow -/

namespace HarpAgent

/-- The artifacts of an answer belong to the workflow. -/
def OwnAnswer (workflowId : String) (answer : Except Thrown AgentResult) : Prop :=
  ∀ r, answer = .ok r → ∀ a ∈ r.artifacts, a.workflowId = workflowId

theorem generate_own (budget : Nat) (request : ModelRequest) {workflowId : String}
    (h : request.workflowId = some workflowId) :
    Meets (Own workflowId) (fun _ _ => True) (fun _ => True)
      (ModelRouter.generate budget request) := by
  have hkey : ModelRouter.keyOf request.workflowId = workflowId := by rw [h]; rfl
  unfold ModelRouter.generate ModelRouter.generateChecked
  rw [perform_bind, meets_call]
  refine ⟨hkey, fun used _ => ?_⟩
  by_cases hb : used ≥ budget
  · rw [if_pos hb]
    trivial
  · rw [if_neg hb, perform_bind, meets_call]
    refine ⟨trivial, fun answer _ => ?_⟩
    cases answer with
    | error e => trivial
    | ok response => exact ⟨hkey, fun _ _ => trivial⟩

theorem makeArtifact_own (agent : AgentId) (title content : String) (context : ScopedContext)
    (workflowId : String) (modelClass : ModelClass) :
    Meets (Own workflowId) (fun _ _ => True) (fun a => a.workflowId = workflowId)
      (makeArtifact agent title content context workflowId modelClass) :=
  ⟨trivial, fun _ _ => ⟨trivial, fun _ _ => rfl⟩⟩

theorem resultFor_own (agent : AgentId) (input : AgentExecuteInput) (text : String) :
    Meets (Own input.workflowId) (fun _ _ => True)
      (fun r => ∀ a ∈ r.artifacts, a.workflowId = input.workflowId)
      (resultFor agent input text) := by
  have single {artifact : Artifact} (h : artifact.workflowId = input.workflowId) :
      ∀ a ∈ [artifact], a.workflowId = input.workflowId := fun a ha => by
    rw [List.mem_singleton.mp ha, h]
  unfold resultFor
  cases parseModelOutput text with
  | none => exact (makeArtifact_own _ _ _ _ _ _).bind fun _ h => single h
  | some output =>
    cases agent with
    | pharaoh => exact (makeArtifact_own _ _ _ _ _ _).bind fun _ h => single h
    | horusNexus => exact (makeArtifact_own _ _ _ _ _ _).bind fun _ h => single h
    | anubisSentinel => exact (makeArtifact_own _ _ _ _ _ _).bind fun _ h => single h
    | ra => exact (makeArtifact_own _ _ _ _ _ _).bind fun _ h => single h

theorem execute_own (budget : Nat) (agent : AgentId) (input : AgentExecuteInput) :
    Meets (Own input.workflowId) (fun _ _ => True) (OwnAnswer input.workflowId)
      (execute budget agent input) := by
  unfold execute
  rw [perform_bind, meets_call]
  refine ⟨rfl, fun _ _ => ?_⟩
  refine (generate_own budget (modelRequest agent input) rfl).bind fun answer _ => ?_
  cases answer with
  | error e => exact fun r h => nomatch h
  | ok response =>
    refine (resultFor_own agent input response.text).bind fun r hr => ?_
    refine ⟨rfl, fun _ _ => ?_⟩
    intro r' h
    obtain rfl := Except.ok.inj h
    exact hr

end HarpAgent

namespace HarpOrchestrator

/-- The operation of the orchestrator is about the workflow. -/
def OwnOrch (workflowId : String) : OrchOp → Prop
  | .sys o => Own workflowId o
  | .agentExecute _ input => input.workflowId = workflowId

/-- What is assumed of an agent's answer. -/
def OwnOrchAnswer (workflowId : String) : (o : OrchOp) → o.Res → Prop
  | .sys _, _ => True
  | .agentExecute _ _, answer => HarpAgent.OwnAnswer workflowId answer

/-- A program of the orchestrator that keeps to the workflow. -/
abbrev KeepsTo (workflowId : String) {α : Type} (p : OrchProg α) : Prop :=
  Meets (OwnOrch workflowId) (OwnOrchAnswer workflowId) (fun _ => True) p

section KeepsTo

variable (call : Call) (l : Locals)

theorem result_keeps (status : WorkflowStatus) (approvalRequired : Bool)
    (recommendation : String) (failure : Option WorkflowFailure) :
    KeepsTo call.workflowId (result call status l approvalRequired recommendation failure) :=
  ⟨trivial, fun _ _ => trivial⟩

theorem appendAll_keeps {as : List Artifact} (h : ∀ a ∈ as, a.workflowId = call.workflowId) :
    KeepsTo call.workflowId (appendAll as) := by
  induction as with
  | nil => trivial
  | cons a as ih =>
    exact ⟨h a List.mem_cons_self, fun _ _ => ih fun b hb => h b (List.mem_cons_of_mem a hb)⟩

theorem blockForApproval_keeps (d : ApprovalDecision) :
    KeepsTo call.workflowId (blockForApproval call l d) :=
  ⟨trivial, fun _ _ => ⟨trivial, fun _ _ => ⟨rfl, fun _ _ => ⟨rfl, fun _ _ =>
    (result_keeps call _ _ _ _ _).bind fun _ _ => trivial⟩⟩⟩⟩

theorem enforceApproval_keeps (r : AgentResult) :
    KeepsTo call.workflowId (enforceApproval call l r) := by
  unfold enforceApproval
  rw [evaluate_approvalRequest, perform_bind]
  refine ⟨trivial, fun answer _ => ?_⟩
  cases answer with
  | error e => trivial
  | ok d =>
    cases hd : d.passes with
    | true =>
      simp only [hd, if_true]
      exact ⟨rfl, fun _ _ => trivial⟩
    | false =>
      simp only [hd]
      exact (blockForApproval_keeps call l d).bind fun _ _ => trivial

theorem turn_keeps (a : AgentId) : KeepsTo call.workflowId (turn call a l) := by
  unfold turn
  rw [perform_bind]
  refine ⟨trivial, fun _ _ => ?_⟩
  dsimp only
  rw [perform_bind]
  refine ⟨rfl, fun answer hanswer => ?_⟩
  cases answer with
  | error e => trivial
  | ok r =>
    refine (appendAll_keeps call (hanswer r rfl)).bind fun _ _ => ?_
    by_cases ha : a = .ra
    · rw [if_pos ha]
      refine (enforceApproval_keeps call _ r).bind fun ended _ => ?_
      obtain ⟨e | blocked, l'⟩ := ended
      · trivial
      · cases blocked <;> trivial
    · rw [if_neg ha]
      trivial

theorem agentLoop_keeps (seq : List AgentId) : KeepsTo call.workflowId (agentLoop call seq l) := by
  induction seq generalizing l with
  | nil => trivial
  | cons a rest ih =>
    refine (turn_keeps call l a).bind fun ended _ => ?_
    obtain ⟨te, l'⟩ := ended
    cases te with
    | leave e => trivial
    | next => exact ih l'

theorem conclude_keeps (ended : LoopEnd × Locals) :
    KeepsTo call.workflowId (conclude call ended) :=
  conclude_meets call trivial (fun _ => rfl) (fun _ _ => rfl) ended

end KeepsTo

theorem executeAs_keeps (input : Input) (workflowId startedAt : String) :
    KeepsTo workflowId (executeAs input workflowId startedAt) :=
  ⟨rfl, fun _ _ => (agentLoop_keeps (callOf input workflowId startedAt) _ _).bind fun ended _ =>
    conclude_keeps (callOf input workflowId startedAt) ended⟩

/-- A call of the system keeps to its own workflow. -/
theorem system_own (budget : Nat) (input : Input) (workflowId startedAt : String) :
    Meets (Own workflowId) (fun _ _ => True) (fun _ => True)
      (system budget input workflowId startedAt) := by
  refine Meets.interp (fun o ho => ?_) (executeAs_keeps input workflowId startedAt)
  cases o with
  | sys o => exact meets_perform ho fun _ _ => trivial
  | agentExecute a agentInput =>
    obtain rfl : agentInput.workflowId = workflowId := ho
    exact HarpAgent.execute_own budget a agentInput

/-! ## Concurrent calls -/

/-- Calls of one system, each with its workflow id and start time. -/
def workflows {ι : Type} (budget : Nat) (inputs : ι → Input) (ids startedAt : ι → String)
    (w : World Unit) : Pool ι SysOp SysOp.Res (Except Thrown WorkflowResult) (World Unit) where
  threads i := system budget (inputs i) (ids i) (startedAt i)
  state := w

/-- Whatever the schedule, a call is where it is when it runs alone on its own draws, and it
    sees the same events, artifacts and usage of its workflow. -/
theorem workflows_eq_alone {ι : Type} [DecidableEq ι] (pv : Providers) (budget : Nat)
    (inputs : ι → Input) (ids startedAt : ι → String) (hids : ∀ i j, i ≠ j → ids i ≠ ids j)
    (w : World Unit) (schedule : List (ι × Draw)) (i : ι) :
    let together := Pool.run (drawHandler pv) schedule (workflows budget inputs ids startedAt w)
    let alone := runOn (drawHandler pv) (Pool.drawsOf i schedule)
      (system budget (inputs i) (ids i) (startedAt i), w)
    together.threads i = alone.1 ∧ view (ids i) together.state = view (ids i) alone.2 :=
  (view_isolated pv ids hids).alone_eq
    (fun j => system_own budget (inputs j) (ids j) (startedAt j)) i rfl schedule

end HarpOrchestrator

end Harp
