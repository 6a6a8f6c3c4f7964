import Harp.Orchestration.ApprovalFloor
import Harp.Orchestration.Isolation

/-
  The same call, run again with other draws.

  Every run draws fresh ids and reads the clock. `undrawn` blanks what was drawn; nothing
  else of a run depends on it, as long as the providers and the strategy do not look at it
  (`system_same`). A call among others therefore ends as it ends alone, under any clock and
  any source of ids (`concurrent_eq_alone`).
-/

namespace Harp

open Prog

/-! ## Without what was drawn -/

def Artifact.undrawn (a : Artifact) : Artifact := { a with id := "", timestamp := "" }

def AgentResult.undrawn (r : AgentResult) : AgentResult :=
  { r with artifacts := r.artifacts.map Artifact.undrawn }

def WorkflowFailure.undrawn (f : WorkflowFailure) : WorkflowFailure :=
  { f with auditEventId := "" }

/-- The workflow id stays; it says which call the result is of. -/
def WorkflowResult.undrawn (r : WorkflowResult) : WorkflowResult :=
  { r with
    artifacts := r.artifacts.map Artifact.undrawn
    agentResults := r.agentResults.map AgentResult.undrawn
    failure := r.failure.map WorkflowFailure.undrawn
    startedAt := ""
    completedAt := "" }

def ApprovalRequest.undrawn (q : ApprovalRequest) : ApprovalRequest :=
  { q with artifactIds := q.artifactIds.map fun _ => "" }

def WorkflowState.undrawn (s : WorkflowState) : WorkflowState :=
  { s with results := s.results.map AgentResult.undrawn }

/-- The input with another snapshot time. -/
def AgentExecuteInput.snapshot (t : String) (x : AgentExecuteInput) : AgentExecuteInput :=
  { x with context := { x.context with snapshotAt := t } }

def ScopedContext.undrawn (c : ScopedContext) : ScopedContext :=
  { c with
    snapshotAt := ""
    priorArtifacts := c.priorArtifacts.map fun s => { s with id := "" } }

def AgentExecuteInput.undrawn (x : AgentExecuteInput) : AgentExecuteInput :=
  { x with context := x.context.undrawn }

/-- The providers look at nothing that a run draws: at the snapshot time of a prompt, at the
    ids of the artifacts to approve. -/
structure Providers.IgnoresDraws (pv : Providers) : Prop where
  generate : ∀ (a : AgentId) (x : AgentExecuteInput) (t : String),
    pv.generate (HarpAgent.modelRequest a (x.snapshot t)) =
      pv.generate (HarpAgent.modelRequest a x)
  requestApproval : ∀ q, pv.requestApproval q.undrawn = pv.requestApproval q

def CoordinationStrategy.IgnoresDraws (s : CoordinationStrategy) : Prop :=
  ∀ state, s.stops state.undrawn = s.stops state

/-! ## The same operations -/

inductive SameOp : SysOp → SysOp → Prop
  | now : SameOp .now .now
  | randomUUID : SameOp .randomUUID .randomUUID
  | auditWrite (e : AuditEntry) : SameOp (.auditWrite e) (.auditWrite e)
  | memoryAppend {a b : Artifact} (h : a.undrawn = b.undrawn) :
      SameOp (.memoryAppend a) (.memoryAppend b)
  | requestApproval {q q' : ApprovalRequest} (h : q.undrawn = q'.undrawn) :
      SameOp (.requestApproval q) (.requestApproval q')
  | usage (key : String) : SameOp (.usage key) (.usage key)
  | providerGenerate (a : AgentId) {x y : AgentExecuteInput} (h : x.undrawn = y.undrawn) :
      SameOp (.providerGenerate (HarpAgent.modelRequest a x))
        (.providerGenerate (HarpAgent.modelRequest a y))
  | recordCall (key : String) (total : Nat) (q q' : ModelRequest) (r : ModelResponse) :
      SameOp (.recordCall key total q r) (.recordCall key total q' r)

/-- Both throw the same, or both return related values. -/
inductive SameExcept {α : Type} (V : α → α → Prop) : Except Thrown α → Except Thrown α → Prop
  | error (e : Thrown) : SameExcept V (.error e) (.error e)
  | ok {a b : α} (h : V a b) : SameExcept V (.ok a) (.ok b)

theorem SameExcept.map_eq {α β : Type} {f : α → β} {x y : Except Thrown α}
    (h : SameExcept (fun a b => f a = f b) x y) : x.map f = y.map f := by
  cases h with
  | error e => rfl
  | ok h => exact congrArg Except.ok h

/-- Two results of an agent that differ in what was drawn. -/
def SameResult (r r' : AgentResult) : Prop := r.undrawn = r'.undrawn

/-- Answers that are not drawn are the same. -/
def SameAnswer : (o o' : SysOp) → o.Res → o'.Res → Prop
  | .requestApproval _, .requestApproval _, x, y => x = y
  | .usage _, .usage _, x, y => x = y
  | .providerGenerate _, .providerGenerate _, x, y => x = y
  | _, _, _, _ => True

namespace HarpAgent

variable (a : AgentId)

/-- What an agent builds does not look at the draws of its input. -/
theorem resultFor_undrawn (x : AgentExecuteInput) (text : String) :
    resultFor a x.undrawn text = resultFor a x text := by
  unfold resultFor
  cases parseModelOutput text with
  | none => rfl
  | some output => cases a <;> rfl

theorem completedEntry_undrawn (x : AgentExecuteInput) (r : AgentResult) (parsed : Bool) :
    completedEntry a x.undrawn r.undrawn parsed = completedEntry a x r parsed := by
  simp only [completedEntry, AgentResult.undrawn, List.length_map]
  rfl

/-- A prompt shows no ids of artifacts. -/
theorem modelRequest_undrawn (x : AgentExecuteInput) :
    modelRequest a x.undrawn = modelRequest a (x.snapshot "") := by
  have hlines (ss : List ArtifactSummary) :
      priorArtifactLines (ss.map fun s => { s with id := "" }) = priorArtifactLines ss := by
    simp only [priorArtifactLines, List.flatMap_map]
  unfold modelRequest buildPrompt
  simp only [AgentExecuteInput.undrawn, AgentExecuteInput.snapshot, ScopedContext.undrawn, hlines]
  rfl

theorem makeArtifact_same (title content : String) (context : ScopedContext)
    (workflowId : String) (modelClass : ModelClass) :
    Related SameOp SameAnswer (fun b b' => b.undrawn = b'.undrawn)
      (makeArtifact a title content context workflowId modelClass)
      (makeArtifact a title content context workflowId modelClass) :=
  ⟨.randomUUID, fun _ _ _ => ⟨.now, fun _ _ _ => rfl⟩⟩

theorem resultFor_same (x : AgentExecuteInput) (text : String) :
    Related SameOp SameAnswer SameResult
      (resultFor a x text) (resultFor a x text) := by
  unfold resultFor
  cases parseModelOutput text with
  | none =>
    refine (makeArtifact_same a _ _ _ _ _).bind fun b b' hb => ?_
    simp [SameResult, blockedResult, AgentResult.undrawn, hb]
  | some output =>
    cases a with
    | pharaoh =>
      refine (makeArtifact_same _ _ _ _ _ _).bind fun b b' hb => ?_
      simp [SameResult, Pharaoh.result, AgentResult.undrawn, hb]
    | horusNexus =>
      refine (makeArtifact_same _ _ _ _ _ _).bind fun b b' hb => ?_
      simp [SameResult, HorusNexus.result, AgentResult.undrawn, hb]
    | anubisSentinel =>
      refine (makeArtifact_same _ _ _ _ _ _).bind fun b b' hb => ?_
      simp [SameResult, AnubisSentinel.result, AgentResult.undrawn, hb]
    | ra =>
      refine (makeArtifact_same _ _ _ _ _ _).bind fun b b' hb => ?_
      simp [SameResult, Ra.result, AgentResult.undrawn, hb]

variable {x y : AgentExecuteInput} (h : x.undrawn = y.undrawn)

include h

theorem generate_same (budget : Nat) :
    Related SameOp SameAnswer (· = ·) (ModelRouter.generate budget (modelRequest a x))
      (ModelRouter.generate budget (modelRequest a y)) := by
  have hid : x.workflowId = y.workflowId :=
    (congrArg AgentExecuteInput.workflowId h :)
  have hkey : ModelRouter.keyOf (modelRequest a x).workflowId =
      ModelRouter.keyOf (modelRequest a y).workflowId := by
    rw [show (modelRequest a x).workflowId = some x.workflowId from rfl, hid]
    rfl
  unfold ModelRouter.generate ModelRouter.generateChecked
  rw [perform_bind, perform_bind, related_call, hkey]
  refine ⟨.usage _, fun used used' hused => ?_⟩
  obtain rfl : used = used' := hused
  by_cases hb : used ≥ budget
  · rw [if_pos hb, if_pos hb]
    rfl
  · rw [if_neg hb, if_neg hb, perform_bind, perform_bind, related_call]
    refine ⟨.providerGenerate a h, fun answer answer' hanswer => ?_⟩
    obtain rfl : answer = answer' := hanswer
    cases answer with
    | error e => rfl
    | ok response =>
      unfold ModelRouter.generateSettled
      rw [hkey]
      exact ⟨.recordCall _ _ _ _ _, fun _ _ _ => rfl⟩

/-- An agent does the same on inputs that differ in what was drawn. -/
theorem execute_same (budget : Nat) :
    Related SameOp SameAnswer (SameExcept SameResult) (execute budget a x)
      (execute budget a y) := by
  have hstart : startedEntry a x = startedEntry a y :=
    (congrArg (startedEntry a) h :)
  unfold execute
  rw [perform_bind, perform_bind, related_call, hstart]
  refine ⟨.auditWrite _, fun _ _ _ => ?_⟩
  refine (generate_same a h budget).bind fun answer answer' hanswer => ?_
  obtain rfl := hanswer
  cases answer with
  | error e => exact .error e
  | ok response =>
    dsimp only
    rw [← resultFor_undrawn a x, h, resultFor_undrawn]
    refine (resultFor_same a y response.text).bind fun r r' hr => ?_
    rw [perform_bind, perform_bind, related_call, ← completedEntry_undrawn a x, h,
      show r.undrawn = r'.undrawn from hr, completedEntry_undrawn]
    exact ⟨.auditWrite _, fun _ _ _ => .ok hr⟩

end HarpAgent

namespace HarpOrchestrator

inductive SameOrchOp : OrchOp → OrchOp → Prop
  | sys {o o' : SysOp} (h : SameOp o o') : SameOrchOp (.sys o) (.sys o')
  | agentExecute (a : AgentId) {x y : AgentExecuteInput} (h : x.undrawn = y.undrawn) :
      SameOrchOp (.agentExecute a x) (.agentExecute a y)

def SameOrchAnswer : (o o' : OrchOp) → o.Res → o'.Res → Prop
  | .sys o, .sys o', x, y => SameAnswer o o' x y
  | .agentExecute _ _, .agentExecute _ _, x, y => SameExcept SameResult x y
  | _, _, _, _ => True

def Locals.undrawn (l : Locals) : Locals where
  artifacts := l.artifacts.map Artifact.undrawn
  agentResults := l.agentResults.map AgentResult.undrawn
  completedAgents := l.completedAgents

/-- Two results of the orchestrator that differ in what was drawn. -/
def SameWorkflow (r r' : WorkflowResult) : Prop := r.undrawn = r'.undrawn

inductive SameLoopEnd : LoopEnd → LoopEnd → Prop
  | finished : SameLoopEnd .finished .finished
  | blocked {r r' : WorkflowResult} (h : SameWorkflow r r') :
      SameLoopEnd (.blocked r) (.blocked r')
  | thrown (e : Thrown) : SameLoopEnd (.thrown e) (.thrown e)

inductive SameTurnEnd : TurnEnd → TurnEnd → Prop
  | next : SameTurnEnd .next .next
  | leave {e e' : LoopEnd} (h : SameLoopEnd e e') : SameTurnEnd (.leave e) (.leave e')

/-- What a part of the loop returns beside the locals is related, and so are the locals. -/
def SameEnd {α : Type} (V : α → α → Prop) (x y : α × Locals) : Prop :=
  V x.1 y.1 ∧ x.2.undrawn = y.2.undrawn

/-- The two runs of a part of the loop. -/
abbrev SameRun {α : Type} (V : α → α → Prop) (p q : OrchProg α) : Prop :=
  Related SameOrchOp SameOrchAnswer V p q

section

variable (call : Call) (startedAt : String) {l l' : Locals} (hl : l.undrawn = l'.undrawn)

/-- The call with another start time. -/
def Call.startingAt (call : Call) (startedAt : String) : Call :=
  { call with startedAt := startedAt }

theorem undrawn_push (a : AgentId) {r r' : AgentResult} (hl : l.undrawn = l'.undrawn)
    (hr : r.undrawn = r'.undrawn) : (l.push a r).undrawn = (l'.push a r').undrawn := by
  have hpush (l : Locals) (r : AgentResult) :
      (l.push a r).undrawn = l.undrawn.push a r.undrawn := by
    simp [Locals.push, Locals.undrawn, AgentResult.undrawn]
  rw [hpush, hpush, hl, hr]

include hl

theorem result_same (status : WorkflowStatus) (approvalRequired : Bool) (recommendation : String)
    {f f' : Option WorkflowFailure} (hf : f.map WorkflowFailure.undrawn =
      f'.map WorkflowFailure.undrawn) :
    SameRun SameWorkflow
      (result call status l approvalRequired recommendation f)
      (result (call.startingAt startedAt) status l' approvalRequired recommendation f') := by
  have ha : l.artifacts.map Artifact.undrawn = l'.artifacts.map Artifact.undrawn :=
    (congrArg Locals.artifacts hl :)
  have hr : l.agentResults.map AgentResult.undrawn = l'.agentResults.map AgentResult.undrawn :=
    (congrArg Locals.agentResults hl :)
  unfold result
  rw [perform_bind, perform_bind]
  refine ⟨.sys .now, fun _ _ _ => ?_⟩
  simp [SameWorkflow, WorkflowResult.undrawn, Call.startingAt, ha, hr, hf]

/-- What the strategy is asked shows no draws. -/
theorem stopCheck_same (hs : call.strategy.IgnoresDraws) :
    SameTurnEnd (stopCheck call l) (stopCheck (call.startingAt startedAt) l') := by
  have hcheck (l : Locals) : stopCheck call l = stopCheck call l.undrawn := by
    unfold stopCheck
    dsimp only
    rw [← hs]
    rfl
  rw [show stopCheck (call.startingAt startedAt) l' = stopCheck call l' from rfl, hcheck, hl,
    ← hcheck]
  unfold stopCheck
  dsimp only
  split
  · exact .leave (.thrown _)
  · exact .leave .finished
  · exact .next

theorem blockForApproval_same (d : ApprovalDecision) :
    SameRun (SameEnd SameWorkflow) (blockForApproval call l d)
      (blockForApproval (call.startingAt startedAt) l' d) := by
  refine ⟨.sys .randomUUID, fun id id' _ => ⟨.sys .now, fun t t' _ => ?_⟩⟩
  have ha : (approvalArtifact call d id t).undrawn =
      (approvalArtifact (call.startingAt startedAt) d id' t').undrawn := rfl
  refine ⟨.sys (.memoryAppend ha), fun _ _ _ => ⟨.sys (.auditWrite _), fun _ _ _ => ?_⟩⟩
  have hl' : ({ l with artifacts := l.artifacts ++ [approvalArtifact call d id t] } :
        Locals).undrawn =
      ({ l' with artifacts :=
          l'.artifacts ++ [approvalArtifact (call.startingAt startedAt) d id' t'] } :
        Locals).undrawn := by
    have happ (l : Locals) (b : Artifact) :
        ({ l with artifacts := l.artifacts ++ [b] } : Locals).undrawn =
          { l.undrawn with artifacts := l.undrawn.artifacts ++ [b.undrawn] } := by
      simp [Locals.undrawn]
    rw [happ, happ, hl, ha]
  exact (result_same call startedAt hl' _ _ _ rfl).bind fun _ _ hr => ⟨hr, hl'⟩

theorem enforceApproval_same {r r' : AgentResult} (hr : r.undrawn = r'.undrawn) :
    SameRun (SameEnd (SameExcept (Option.Rel SameWorkflow)))
      (enforceApproval call l r) (enforceApproval (call.startingAt startedAt) l' r') := by
  have hq : (approvalRequest call r).undrawn =
      (approvalRequest (call.startingAt startedAt) r').undrawn := by
    have hreq (r : AgentResult) :
        (approvalRequest call r).undrawn = (approvalRequest call r.undrawn).undrawn := by
      simp [approvalRequest, ApprovalRequest.undrawn, AgentResult.undrawn]
    rw [hreq, hr, ← hreq]
    rfl
  unfold enforceApproval
  rw [evaluate_approvalRequest, evaluate_approvalRequest, perform_bind, perform_bind]
  refine ⟨.sys (.requestApproval hq), fun answer answer' hanswer => ?_⟩
  obtain rfl : answer = answer' := hanswer
  cases answer with
  | error e => exact ⟨.error e, hl⟩
  | ok d =>
    cases hd : d.passes with
    | true =>
      simp only [hd, if_true]
      exact ⟨.sys (.auditWrite _), fun _ _ _ => ⟨.ok .none, hl⟩⟩
    | false =>
      simp only [hd]
      refine (blockForApproval_same call startedAt hl d).bind fun x y hxy => ?_
      exact ⟨.ok (.some hxy.1), hxy.2⟩

end

theorem appendAll_same {as bs : List Artifact}
    (h : as.map Artifact.undrawn = bs.map Artifact.undrawn) :
    SameRun (fun _ _ => True) (appendAll as) (appendAll bs) := by
  induction as generalizing bs with
  | nil =>
    obtain rfl : bs = [] := by simpa using h.symm
    trivial
  | cons a as ih =>
    cases bs with
    | nil => simp at h
    | cons b bs =>
      obtain ⟨hab, hrest⟩ := List.cons.inj h
      exact ⟨.sys (.memoryAppend hab), fun _ _ _ => ih hrest⟩

/-- Of the artifacts so far a context shows nothing drawn but their ids. -/
theorem createScopedContext_undrawn (a : AgentId) (task : AgentTask) (pc : ProjectContext)
    (as : List Artifact) (t : String) :
    (ContextManager.createScopedContext a task pc as t).undrawn =
      ContextManager.createScopedContext a task pc (as.map Artifact.undrawn) "" := by
  have hsummaries : (as.map ContextManager.summarise).map (fun s => { s with id := "" }) =
      (as.map Artifact.undrawn).map ContextManager.summarise := by
    rw [List.map_map, List.map_map]
    rfl
  cases a <;> simp only [ContextManager.createScopedContext, ScopedContext.undrawn, hsummaries]

section

variable (call : Call) (startedAt : String) (hs : call.strategy.IgnoresDraws)

include hs

theorem turn_same (a : AgentId) {l l' : Locals} (hl : l.undrawn = l'.undrawn) :
    SameRun (SameEnd SameTurnEnd) (turn call a l)
      (turn (call.startingAt startedAt) a l') := by
  have has : l.artifacts.map Artifact.undrawn = l'.artifacts.map Artifact.undrawn :=
    (congrArg Locals.artifacts hl :)
  unfold turn
  rw [perform_bind, perform_bind]
  refine ⟨.sys .now, fun t t' _ => ?_⟩
  dsimp only
  rw [perform_bind, perform_bind]
  refine ⟨.agentExecute a ?_, fun answer answer' hanswer => ?_⟩
  · simp only [AgentExecuteInput.undrawn, createScopedContext_undrawn, has]
    rfl
  · cases hanswer with
    | error e => exact ⟨.leave (.thrown e), hl⟩
    | @ok r r' hr =>
      have hpush := undrawn_push a hl hr
      refine (appendAll_same (congrArg AgentResult.artifacts hr :)).bind fun _ _ _ => ?_
      by_cases ha : a = .ra
      · rw [if_pos ha, if_pos ha]
        refine (enforceApproval_same call startedAt hpush hr).bind fun x y hxy => ?_
        obtain ⟨gate, m⟩ := x
        obtain ⟨gate', m'⟩ := y
        obtain ⟨hgate, hm⟩ := hxy
        cases hgate with
        | error e => exact ⟨.leave (.thrown e), hm⟩
        | ok hb =>
          cases hb with
          | none => exact ⟨stopCheck_same call startedAt hm hs, hm⟩
          | some hb => exact ⟨.leave (.blocked hb), hm⟩
      · rw [if_neg ha, if_neg ha]
        exact ⟨stopCheck_same call startedAt hpush hs, hpush⟩

theorem agentLoop_same (seq : List AgentId) {l l' : Locals} (hl : l.undrawn = l'.undrawn) :
    SameRun (SameEnd SameLoopEnd) (agentLoop call seq l)
      (agentLoop (call.startingAt startedAt) seq l') := by
  induction seq generalizing l l' with
  | nil => exact ⟨.finished, hl⟩
  | cons a rest ih =>
    refine (turn_same call startedAt hs a hl).bind fun x y hxy => ?_
    obtain ⟨te, m⟩ := x
    obtain ⟨te', m'⟩ := y
    obtain ⟨hte, hm⟩ := hxy
    cases hte with
    | leave he => exact ⟨he, hm⟩
    | next => exact ih hm

end

section

variable (call : Call) (startedAt : String) {l l' : Locals} (hl : l.undrawn = l'.undrawn)

include hl

theorem complete_same :
    SameRun SameWorkflow (complete call l) (complete (call.startingAt startedAt) l') := by
  have hentry (l : Locals) : completedEntry call l.undrawn = completedEntry call l := by
    simp only [completedEntry, Locals.undrawn, List.length_map, List.map_map]
    rfl
  have hflag (l : Locals) : l.undrawn.agentResults.any (·.approvalRequired) =
      l.agentResults.any (·.approvalRequired) := List.any_map
  unfold complete
  rw [perform_bind, perform_bind, ← hentry, ← hflag, hl, hentry, hflag]
  exact ⟨.sys (.auditWrite _), fun _ _ _ => result_same call startedAt hl _ _ _ rfl⟩

/-- The id of the failure event is all that differs in the reported failure. -/
theorem failWith_same (e : Thrown) (reason : String) :
    SameRun SameWorkflow (failWith call l e reason)
      (failWith (call.startingAt startedAt) l' e reason) := by
  have hids (l : Locals) : l.undrawn.agentResults.map (·.agentId) =
      l.agentResults.map (·.agentId) := by
    simp [Locals.undrawn, AgentResult.undrawn]
  unfold failWith
  rw [perform_bind, perform_bind, ← hids, hl, hids]
  exact ⟨.sys (.auditWrite _), fun _ _ _ => result_same call startedAt hl _ _ _ rfl⟩

theorem handleFailure_same (e : Thrown) :
    SameRun (SameExcept SameWorkflow) (handleFailure call l e)
      (handleFailure (call.startingAt startedAt) l' e) := by
  unfold handleFailure
  cases e.reason with
  | error t => exact .error t
  | ok reason => exact (failWith_same call startedAt hl e reason).bind fun _ _ h => .ok h

theorem conclude_same {e e' : LoopEnd} (he : SameLoopEnd e e') :
    SameRun (SameExcept SameWorkflow) (conclude call (e, l))
      (conclude (call.startingAt startedAt) (e', l')) := by
  cases he with
  | blocked hr => exact .ok hr
  | finished => exact (complete_same call startedAt hl).bind fun _ _ h => .ok h
  | thrown err => exact handleFailure_same call startedAt hl err

end

/-- A call on the system performs the same operations whatever it draws. -/
theorem system_same (budget : Nat) (input : Input) (workflowId startedAt startedAt' : String)
    (hs : (strategyFor input).IgnoresDraws) :
    Related SameOp SameAnswer (SameExcept SameWorkflow)
      (system budget input workflowId startedAt) (system budget input workflowId startedAt') := by
  let call := callOf input workflowId startedAt
  have hexec : SameRun (SameExcept SameWorkflow) (executeAs input workflowId startedAt)
      (executeAs input workflowId startedAt') := by
    refine ⟨.sys (.auditWrite _), fun _ _ _ => ?_⟩
    refine (agentLoop_same call startedAt' hs _ rfl).bind fun x y hxy => ?_
    exact conclude_same call startedAt' hxy.2 hxy.1
  refine hexec.interp fun o o' ho => ?_
  cases ho with
  | sys h => exact related_perform h fun _ _ hr => hr
  | agentExecute a h => exact HarpAgent.execute_same a h budget

end HarpOrchestrator

/-! ## Alone, under any clock and any source of ids -/

/-- What a workflow sees, without what was drawn. -/
def undrawnView (v : List AuditEvent × List Artifact × Nat) :
    List AuditEntry × List Artifact × Nat :=
  (v.1.map (·.toAuditEntry), v.2.1.map Artifact.undrawn, v.2.2)

/-- The environment answers as the providers do; its ids and times are its own. -/
structure Env.Answers {ε : Type} (env : Env ε) (pv : Providers) : Prop where
  generate : ∀ q e, (env.generate q e).1 = pv.generate q
  requestApproval : ∀ q e, (env.requestApproval q e).1 = pv.requestApproval q

/-- The same stores and router, in the state `e` of an environment. -/
def World.within {ε : Type} (w : World Unit) (e : ε) : World ε where
  env := e
  auditLogger := w.auditLogger
  memoryStore := w.memoryStore
  modelRouter := w.modelRouter

theorem Providers.IgnoresDraws.generate_eq {pv : Providers} (hpv : pv.IgnoresDraws) (a : AgentId)
    {x y : AgentExecuteInput} (h : x.undrawn = y.undrawn) :
    pv.generate (HarpAgent.modelRequest a x) = pv.generate (HarpAgent.modelRequest a y) := by
  rw [← hpv.generate a x "", ← HarpAgent.modelRequest_undrawn, h, HarpAgent.modelRequest_undrawn,
    hpv.generate]

section

variable {ε : Type} (workflowId : String) (w : World ε) (env : Env ε)

theorem undrawnView_auditWrite (e : AuditEntry) :
    undrawnView (view workflowId (w.auditWrite env e).2) =
      ((undrawnView (view workflowId w)).1 ++ [e].filter (·.workflowId == some workflowId),
        (undrawnView (view workflowId w)).2) := by
  rw [view_auditWrite, undrawnView, undrawnView, List.map_append]
  have hentry : ([(w.auditWrite env e).1].filter (·.workflowId == some workflowId)).map
      (·.toAuditEntry) = [e].filter (·.workflowId == some workflowId) := by
    rw [List.filter_singleton, List.filter_singleton, entry_auditWrite]
    cases e.workflowId == some workflowId <;> rfl
  rw [hentry]

theorem undrawnView_memoryAppend (a : Artifact) :
    undrawnView (view workflowId (w.memoryAppend a)) =
      ((undrawnView (view workflowId w)).1,
        (undrawnView (view workflowId w)).2.1 ++ [a.undrawn].filter (·.workflowId == workflowId),
        (undrawnView (view workflowId w)).2.2) := by
  rw [view_memoryAppend, undrawnView, undrawnView, List.map_append]
  have hartifact : ([a].filter (·.workflowId == workflowId)).map Artifact.undrawn =
      [a.undrawn].filter (·.workflowId == workflowId) := by
    rw [List.filter_singleton, List.filter_singleton,
      show a.undrawn.workflowId = a.workflowId from rfl]
    cases a.workflowId == workflowId <;> rfl
  rw [hartifact]

theorem undrawnView_recordCall (key : String) (total : Nat) (q : ModelRequest)
    (r : ModelResponse) :
    undrawnView (view workflowId (w.recordCall env key total q r)) =
      ((undrawnView (view workflowId w)).1, (undrawnView (view workflowId w)).2.1,
        if workflowId = key then total else (undrawnView (view workflowId w)).2.2) := by
  rw [view_recordCall]
  rfl

end

section

variable {ε : Type} {pv : Providers} {env : Env ε} (hpv : pv.IgnoresDraws) (henv : env.Answers pv)
  (workflowId : String)

include hpv henv

/-- A step of the pool and a step of the solo run, on the same operation up to draws. -/
theorem drawHandler_same (d : Draw) {o o' : SysOp} {w : World Unit} {w' : World ε}
    (ho : SameOp o o') (hown : Own workflowId o)
    (hw : undrawnView (view workflowId w) = undrawnView (view workflowId w')) :
    SameAnswer o o' (drawHandler pv d o w).1 (sysHandler env o' w').1 ∧
      undrawnView (view workflowId (drawHandler pv d o w).2) =
        undrawnView (view workflowId (sysHandler env o' w').2) := by
  cases ho with
  | now => exact ⟨trivial, hw⟩
  | randomUUID => exact ⟨trivial, hw⟩
  | usage key =>
    obtain rfl : key = workflowId := hown
    exact ⟨(congrArg (·.2.2) hw :), hw⟩
  | @requestApproval q q' h =>
    have hanswer : pv.requestApproval q = (env.requestApproval q' w'.env).1 := by
      rw [henv.requestApproval, ← hpv.requestApproval, h, hpv.requestApproval]
    exact ⟨hanswer, hw⟩
  | @providerGenerate a x y h =>
    have hanswer : pv.generate (HarpAgent.modelRequest a x) =
        (env.generate (HarpAgent.modelRequest a y) w'.env).1 := by
      rw [henv.generate, hpv.generate_eq a h]
    exact ⟨hanswer, hw⟩
  | auditWrite e =>
    refine ⟨trivial, ?_⟩
    rw [drawHandler, sysHandler_auditWrite, sysHandler_auditWrite, undrawnView_auditWrite,
      undrawnView_auditWrite, hw]
  | memoryAppend h =>
    refine ⟨trivial, ?_⟩
    rw [drawHandler, sysHandler_memoryAppend, sysHandler_memoryAppend, undrawnView_memoryAppend,
      undrawnView_memoryAppend, hw, h]
  | recordCall key total q q' r =>
    refine ⟨trivial, ?_⟩
    rw [drawHandler, sysHandler_recordCall, sysHandler_recordCall, undrawnView_recordCall,
      undrawnView_recordCall, hw]

end

namespace HarpOrchestrator

/-- The checks of the source's strategies look at statuses only. -/
theorem Known.ignoresDraws {s : CoordinationStrategy} (h : Known s) : s.IgnoresDraws := by
  intro state
  have hresults : state.undrawn.results.any (fun r => r.status == .blocked || r.status == .failed) =
      state.results.any fun r => r.status == .blocked || r.status == .failed := List.any_map
  rcases h with h | ⟨env, h⟩
  · simp only [allStrategies, List.mem_cons, List.not_mem_nil, or_false] at h
    rcases h with rfl | rfl | rfl | rfl | rfl | rfl
    · exact congrArg Except.ok (congrArg (state.blockedForApproval || ·) hresults)
    · exact congrArg Except.ok hresults
    · rfl
    · rfl
    · rfl
    · rfl
  · simp only [buildAdvancedStrategies, List.mem_cons, List.not_mem_nil, or_false] at h
    have hgated := congrArg (state.blockedForApproval || ·) hresults
    rcases h with rfl | rfl | rfl <;> exact congrArg Except.ok hgated

/-- Whatever the schedule, a call is where it is when it runs alone on its own draws. Once it has
    settled, it has settled as it does alone, under any clock and any source of ids, up to what is
    drawn. -/
theorem concurrent_eq_alone {ι : Type} [DecidableEq ι] (pv : Providers) (budget : Nat)
    (inputs : ι → Input) (ids startedAt : ι → String) (hids : ∀ i j, i ≠ j → ids i ≠ ids j)
    (w : World Unit) (schedule : List (ι × Draw)) (i : ι) :
    let together := Pool.run (drawHandler pv) schedule (workflows budget inputs ids startedAt w)
    let alone := runOn (drawHandler pv) (Pool.drawsOf i schedule)
      (system budget (inputs i) (ids i) (startedAt i), w)
    (together.threads i = alone.1 ∧ view (ids i) together.state = view (ids i) alone.2) ∧
      (pv.IgnoresDraws → (strategyFor (inputs i)).IgnoresDraws →
        ∀ r, together.threads i = ret r →
        ∀ (ε : Type) (env : Env ε) (e : ε) (startedAt' : String), env.Answers pv →
          let solo := run (sysHandler env) (system budget (inputs i) (ids i) startedAt')
            (w.within e)
          r.map (·.undrawn) = solo.1.map (·.undrawn) ∧
            undrawnView (view (ids i) together.state) = undrawnView (view (ids i) solo.2)) := by
  intro together alone
  have halone : together.threads i = alone.1 ∧ view (ids i) together.state = view (ids i) alone.2 :=
    workflows_eq_alone pv budget inputs ids startedAt hids w schedule i
  refine ⟨halone, fun hpv hs r hr ε env e startedAt' henv => ?_⟩
  have hsame := (system_same budget (inputs i) (ids i) (startedAt i) startedAt' hs).and_meets
    (system_own budget (inputs i) (ids i) (startedAt i))
  have hstep (d : Draw) (o o' : SysOp) (s : World Unit) (t : World ε)
      (ho : SameOp o o' ∧ Own (ids i) o)
      (hst : undrawnView (view (ids i) s) = undrawnView (view (ids i) t)) :
      SameAnswer o o' (drawHandler pv d o s).1 (sysHandler env o' t).1 ∧
        undrawnView (view (ids i) (drawHandler pv d o s).2) =
          undrawnView (view (ids i) (sysHandler env o' t).2) :=
    drawHandler_same hpv henv (ids i) d ho.1 ho.2 hst
  rw [halone.2]
  obtain ⟨hresult, hview⟩ := Related.runOn hstep hsame (t := w.within e) rfl
    (halone.1.symm.trans hr)
  exact ⟨hresult.map_eq, hview⟩

/-- Two calls step by step in turn, without a budget. The one fails as it fails alone, where its
    ids and times are others. -/
theorem concurrent_eq_alone_two :
    let input := bareInput irreversibleTask (some escalationStrategy)
    let draw : Draw := ⟨"9a41", "2026-06-30T12:00:00.000Z"⟩
    let schedule := (List.replicate 6 [(true, draw), (false, draw)]).flatten
    let together := Pool.run (drawHandler (.constant "{}" true)) schedule
      (workflows 0 (fun _ => input) (fun i => cond i "wf-a" "wf-b")
        (fun _ => "2026-06-30T11:59:00.000Z") (World.create ()))
    ∃ r, together.threads true = ret (.ok r) ∧ r.status = .failed ∧
      .ok r.undrawn = (run (sysHandler (Env.constant "{}" true))
        (system 0 input "wf-a" "2026-01-01T00:00:00.000Z")
        ((World.create ()).within ())).1.map (·.undrawn) := by
  intro input draw schedule together
  have hs : (strategyFor input).IgnoresDraws :=
    Known.ignoresDraws (.inl (by simp [input, strategyFor, bareInput, allStrategies]))
  refine ⟨_, rfl, ?_, ?_⟩
  · rfl
  · exact ((concurrent_eq_alone (.constant "{}" true) 0 (fun _ => input)
      (fun i => cond i "wf-a" "wf-b") (fun _ => "2026-06-30T11:59:00.000Z") (by decide)
      (World.create ()) schedule true).2 ⟨fun _ _ _ => rfl, fun _ => rfl⟩ hs _ rfl Unit
      (Env.constant "{}" true) () "2026-01-01T00:00:00.000Z"
      ⟨fun _ _ => rfl, fun _ _ => rfl⟩).1

end HarpOrchestrator

end Harp
