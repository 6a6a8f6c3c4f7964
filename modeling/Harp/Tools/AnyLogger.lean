import Harp.Lib.Pool
import Harp.Tools.ToolRegistry

/-
  `ToolRegistry.invoke` over any audit logger (`AuditLogger` of `src/storage/AuditLogger.ts`).

  The interface is meant for a database, so a `write` may reject. `Prog` with `ExceptT` has the
  code's own `try`: the run and the audit of its success stand in one block, and what either of
  them throws is caught by the handler that writes "tool.failed". With a logger whose writes are
  accepted this is the `invoke` of the registry (`interp_answered`).

  `Course` lists what a call performs and how it ends. A caller that retries what is reported as
  failed (`retry`) then repeats no completed run, as long as nothing is rejected.
-/

namespace Harp

open Prog

/-- What an operation answers when a `write` may reject. -/
abbrev ToolOp.AnyRes (O : Type) {I E : Type} : ToolOp I E → Type
  | register _ => Except Thrown Unit
  | lookup _ => Option ToolDefinition
  | auditWrite _ => Except E AuditEvent
  | callRun .. => Unit
  | settleRun => Except E O
  | errorText _ => Except E String

namespace ToolRegistry.AnyLogger

/-- Code that may throw. -/
abbrev Call (I O E α : Type) := ExceptT E (Prog (ToolOp I E) (ToolOp.AnyRes O)) α

variable {I O E : Type}

def lookup (name : String) : Call I O E (Option ToolDefinition) :=
  ExceptT.lift (perform (ToolOp.lookup name))

def auditWrite (event : AuditEntry) : Call I O E AuditEvent :=
  ExceptT.mk (perform (ToolOp.auditWrite event))

/-- `await tool.run(input, context)`. -/
def awaitRun (tool : ToolDefinition) (input : I) (context : ToolContext) : Call I O E O := do
  ExceptT.lift (perform (ToolOp.callRun tool input context))
  ExceptT.mk (perform ToolOp.settleRun)

def errorText (error : E) : Call I O E String := ExceptT.mk (perform (ToolOp.errorText error))

/-- The `catch` block. -/
def caught (name : String) (context : ToolContext) (error : E) : Call I O E (ToolResult O) := do
  let detail ← errorText error
  let audit ← auditWrite (auditEntry name context "tool.failed" none [("error", .text detail)])
  let message ← errorText error
  return {
    toolName := name, ok := false, output := none, error := some message
    auditId := some audit.id }

/-- What a call does with the tool of its name. -/
def withTool (name : String) (input : I) (context : ToolContext) (tool : ToolDefinition) :
    Call I O E (ToolResult O) :=
  if !PermissionGuard.can context.agentId tool.requiredPermission then do
    let audit ← auditWrite (auditEntry name context "tool.permission_denied" none
      [("requiredPermission", .text tool.requiredPermission.text)])
    return {
      toolName := name, ok := false, output := none
      error := some ("Permission denied: " ++ context.agentId.text ++ " lacks " ++
        tool.requiredPermission.text)
      auditId := some audit.id }
  else if tool.stateChanging && !context.approvalGranted then do
    let audit ← auditWrite (auditEntry name context "tool.approval_required" (some .required)
      [("reason", .text "State-changing tool invoked without approval.")])
    return {
      toolName := name, ok := false, output := none
      error := some ("Approval required before invoking state-changing tool: " ++ name)
      auditId := some audit.id }
  else
    tryCatch
      (do
        let output ← awaitRun tool input context
        let audit ← auditWrite (auditEntry name context "tool.invoked" none
          [("stateChanging", .flag tool.stateChanging)])
        return {
          toolName := name, ok := true, output := some output, error := none
          auditId := some audit.id })
      (caught name context)

def invoke (name : String) (input : I) (context : ToolContext) : Call I O E (ToolResult O) := do
  match ← lookup name with
  | none =>
    return {
      toolName := name, ok := false, output := none
      error := some ("Unknown tool: " ++ name)
      auditId := none }
  | some tool => withTool name input context tool

/-- A caller that calls again when the result has `ok = false`, `n` times at most. -/
def retry (name : String) (input : I) (context : ToolContext) : ℕ → Call I O E (ToolResult O)
  | 0 => invoke name input context
  | n + 1 => do
    let result ← invoke name input context
    if result.ok then return result else retry name input context n

/-! ## The registry's own logger -/

/-- The operations of a logger whose writes are accepted. -/
def answered : (o : ToolOp I E) → ToolProg I O E (o.AnyRes O)
  | .register tool => perform (ToolOp.register tool)
  | .lookup name => perform (ToolOp.lookup name)
  | .auditWrite event => perform (ToolOp.auditWrite event) >>= fun saved => .ret (.ok saved)
  | .callRun tool input context => perform (ToolOp.callRun tool input context)
  | .settleRun => perform ToolOp.settleRun
  | .errorText error => perform (ToolOp.errorText error)

theorem interp_caught (name : String) (tool : ToolDefinition) (context : ToolContext) (error : E) :
    interp answered (caught name context error : Call I O E (ToolResult O)).run =
      afterRun name tool context (.error error) := by
  refine congrArg (Prog.call (ToolOp.errorText error)) (funext fun reading => ?_)
  cases reading with
  | error thrown => rfl
  | ok detail =>
    refine congrArg (Prog.call _) (funext fun audit => ?_)
    refine congrArg (Prog.call (ToolOp.errorText error)) (funext fun reading => ?_)
    cases reading with
    | error thrown => rfl
    | ok message => rfl

/-- With a logger that accepts its writes, this is the `invoke` of the registry. -/
theorem interp_answered (name : String) (input : I) (context : ToolContext) :
    interp answered (invoke name input context : Call I O E (ToolResult O)).run =
      ToolRegistry.invoke name input context := by
  refine congrArg (Prog.call (ToolOp.lookup name)) (funext fun found => ?_)
  cases found with
  | none => rfl
  | some tool =>
    show interp answered (withTool name input context tool : Call I O E (ToolResult O)).run =
      if (!PermissionGuard.can context.agentId tool.requiredPermission) = true then _
      else if (tool.stateChanging && !context.approvalGranted) = true then _ else _
    unfold withTool
    split
    case isTrue => rfl
    case isFalse =>
      split
      case isTrue => rfl
      case isFalse =>
        refine congrArg (Prog.call _) (funext fun _ => ?_)
        refine congrArg (Prog.call ToolOp.settleRun) (funext fun outcome => ?_)
        cases outcome with
        | ok output => rfl
        | error error => exact interp_caught name tool context error

/-! ## What a call can do -/

/-- An operation that was performed, with its answer. -/
abbrev Step (I O E : Type) := (o : ToolOp I E) × o.AnyRes O

/-- The `run` of a tool is called. -/
def Called : Step I O E → Prop
  | ⟨.callRun .., _⟩ => True
  | _ => False

/-- The `run` of a tool resolves. -/
def Completed : Step I O E → Prop
  | ⟨.settleRun, .ok _⟩ => True
  | _ => False

/-- A `write` rejects, or the reading of an error throws. -/
def Rejects : Step I O E → Prop
  | ⟨.auditWrite _, .error _⟩ => True
  | ⟨.errorText _, .error _⟩ => True
  | _ => False

/-- What the `catch` block performs, and how it ends. -/
inductive CaughtCourse (error : E) : List (Step I O E) → Except E (ToolResult O) → Prop
  | unreadable (thrown : E) :
      CaughtCourse error [⟨.errorText error, .error thrown⟩] (.error thrown)
  | unlogged (text : String) (entry : AuditEntry) (thrown : E) :
      CaughtCourse error [⟨.errorText error, .ok text⟩, ⟨.auditWrite entry, .error thrown⟩]
        (.error thrown)
  | unreadableAgain (text : String) (entry : AuditEntry) (event : AuditEvent) (thrown : E) :
      CaughtCourse error [⟨.errorText error, .ok text⟩, ⟨.auditWrite entry, .ok event⟩,
        ⟨.errorText error, .error thrown⟩] (.error thrown)
  | reported (text message : String) (entry : AuditEntry) (event : AuditEvent)
      {res : ToolResult O} (hok : res.ok = false) :
      CaughtCourse error [⟨.errorText error, .ok text⟩, ⟨.auditWrite entry, .ok event⟩,
        ⟨.errorText error, .ok message⟩] (.ok res)

/-- What a call performs, and how it ends. -/
inductive Course (name : String) (input : I) (context : ToolContext) :
    List (Step I O E) → Except E (ToolResult O) → Prop
  | unknown {res : ToolResult O} (hok : res.ok = false) :
      Course name input context [⟨.lookup name, none⟩] (.ok res)
  | unlogged (tool : ToolDefinition) (entry : AuditEntry) (thrown : E) :
      Course name input context [⟨.lookup name, some tool⟩, ⟨.auditWrite entry, .error thrown⟩]
        (.error thrown)
  | refused (tool : ToolDefinition) (entry : AuditEntry) (event : AuditEvent)
      {res : ToolResult O} (hok : res.ok = false) :
      Course name input context [⟨.lookup name, some tool⟩, ⟨.auditWrite entry, .ok event⟩]
        (.ok res)
  | failed (tool : ToolDefinition) {error : E} {tr : List (Step I O E)}
      {r : Except E (ToolResult O)} (hcaught : CaughtCourse error tr r) :
      Course name input context (⟨.lookup name, some tool⟩ :: ⟨.callRun tool input context, ()⟩ ::
        ⟨.settleRun, .error error⟩ :: tr) r
  | successUnlogged (tool : ToolDefinition) (output : O) (entry : AuditEntry) {error : E}
      {tr : List (Step I O E)} {r : Except E (ToolResult O)}
      (hcaught : CaughtCourse error tr r) :
      Course name input context (⟨.lookup name, some tool⟩ :: ⟨.callRun tool input context, ()⟩ ::
        ⟨.settleRun, .ok output⟩ :: ⟨.auditWrite entry, .error error⟩ :: tr) r
  | invoked (tool : ToolDefinition) (output : O) (entry : AuditEntry) (event : AuditEvent)
      {res : ToolResult O} (hok : res.ok = true) :
      Course name input context [⟨.lookup name, some tool⟩, ⟨.callRun tool input context, ()⟩,
        ⟨.settleRun, .ok output⟩, ⟨.auditWrite entry, .ok event⟩] (.ok res)

variable {name : String} {input : I} {context : ToolContext} {tr : List (Step I O E)}
  {r : Except E (ToolResult O)}

theorem caught_course {error : E}
    (h : Path (caught name context error : Call I O E (ToolResult O)).run tr (.ret r)) :
    CaughtCourse error tr r := by
  obtain ⟨reading, tr₁, rfl, hread⟩ := path_call_end h
  cases reading with
  | error thrown =>
    obtain ⟨rfl, hr⟩ := path_ret.mp hread
    obtain rfl := ret.inj hr
    exact .unreadable thrown
  | ok text =>
    obtain ⟨written, tr₂, rfl, hwrite⟩ := path_call_end hread
    cases written with
    | error thrown =>
      obtain ⟨rfl, hr⟩ := path_ret.mp hwrite
      obtain rfl := ret.inj hr
      exact .unlogged text _ thrown
    | ok event =>
      obtain ⟨reading, tr₃, rfl, hagain⟩ := path_call_end hwrite
      cases reading with
      | error thrown =>
        obtain ⟨rfl, hr⟩ := path_ret.mp hagain
        obtain rfl := ret.inj hr
        exact .unreadableAgain text _ event thrown
      | ok message =>
        obtain ⟨rfl, hr⟩ := path_ret.mp hagain
        obtain rfl := ret.inj hr
        exact .reported text message _ event rfl

/-- What follows a `write` that only a refusal makes. -/
theorem refusal_course {tool : ToolDefinition} {entry : AuditEntry}
    {result : AuditEvent → ToolResult O} (hok : ∀ event, (result event).ok = false)
    (h : Path (auditWrite entry >>= fun audit => pure (result audit) :
      Call I O E (ToolResult O)).run tr (.ret r)) :
    Course name input context (⟨.lookup name, some tool⟩ :: tr) r := by
  obtain ⟨written, tr₁, rfl, hwrite⟩ := path_call_end h
  cases written with
  | error thrown =>
    obtain ⟨rfl, hr⟩ := path_ret.mp hwrite
    obtain rfl := ret.inj hr
    exact .unlogged tool entry thrown
  | ok event =>
    obtain ⟨rfl, hr⟩ := path_ret.mp hwrite
    obtain rfl := ret.inj hr
    exact .refused tool entry event (hok event)

theorem withTool_course {tool : ToolDefinition}
    (h : Path (withTool name input context tool : Call I O E (ToolResult O)).run tr (.ret r)) :
    Course name input context (⟨.lookup name, some tool⟩ :: tr) r := by
  unfold withTool at h
  split at h
  case isTrue => exact refusal_course (fun _ => rfl) h
  case isFalse =>
    split at h
    case isTrue => exact refusal_course (fun _ => rfl) h
    case isFalse =>
      obtain ⟨_, tr₁, rfl, hrun⟩ := path_call_end h
      obtain ⟨outcome, tr₂, rfl, hsettle⟩ := path_call_end hrun
      cases outcome with
      | error error => exact .failed tool (caught_course hsettle)
      | ok output =>
        obtain ⟨written, tr₃, rfl, hwrite⟩ := path_call_end hsettle
        cases written with
        | error error => exact .successUnlogged tool output _ (caught_course hwrite)
        | ok event =>
          obtain ⟨rfl, hr⟩ := path_ret.mp hwrite
          obtain rfl := ret.inj hr
          exact .invoked tool output _ event rfl

theorem invoke_course
    (h : Path (invoke name input context : Call I O E (ToolResult O)).run tr (.ret r)) :
    Course name input context tr r := by
  obtain ⟨found, tr₁, rfl, hfound⟩ := path_call_end h
  cases found with
  | none =>
    obtain ⟨rfl, hr⟩ := path_ret.mp hfound
    obtain rfl := ret.inj hr
    exact .unknown rfl
  | some tool => exact withTool_course hfound

/-! ## What a failed call has done -/

/-- The call resolves to a result, and one that is reported as failed completed no `run`. -/
def Honest (tr : List (Step I O E)) (r : Except E (ToolResult O)) : Prop :=
  ∃ res, r = .ok res ∧ (res.ok = false → ∀ x ∈ tr, ¬ Completed x)

/-- No `run` is called after one has completed. -/
def NoRerun (tr : List (Step I O E)) : Prop := tr.Pairwise fun x y => Completed x → ¬ Called y

theorem CaughtCourse.quiet {error : E} (h : CaughtCourse error tr r) :
    ∀ x ∈ tr, ¬ Completed x ∧ ¬ Called x := by
  cases h <;> simp [Completed, Called]

/-- The `catch` block reports a failure, or it rejects because something in it was rejected. -/
theorem CaughtCourse.reports_or_rejects {error : E} (h : CaughtCourse error tr r) :
    (∃ res, r = .ok res ∧ res.ok = false ∧ ∀ x ∈ tr, ¬ Rejects x) ∨
      (∃ thrown, r = .error thrown) ∧ ∃ x ∈ tr, Rejects x := by
  cases h with
  | reported text message entry event hok => exact .inl ⟨_, rfl, hok, by simp [Rejects]⟩
  | _ => exact .inr ⟨⟨_, rfl⟩, by simp [Rejects]⟩

theorem Course.honest_writes_iff (h : Course name input context tr r) :
    Honest tr r ↔ ∀ x ∈ tr, ¬ Rejects x := by
  cases h with
  | unknown hok => exact ⟨fun _ => by simp [Rejects], fun _ => ⟨_, rfl, by simp [Completed]⟩⟩
  | unlogged tool entry thrown => simp [Honest, Rejects]
  | refused tool entry event hok =>
    exact ⟨fun _ => by simp [Rejects], fun _ => ⟨_, rfl, by simp [Completed]⟩⟩
  | invoked tool output entry event hok =>
    exact ⟨fun _ => by simp [Rejects], fun _ => ⟨_, rfl, by simp [hok]⟩⟩
  | failed tool hcaught =>
    rcases hcaught.reports_or_rejects with ⟨res, rfl, -, hnone⟩ | ⟨⟨thrown, rfl⟩, x, hx, hrejects⟩
    · refine ⟨fun _ => ?_, fun _ => ⟨res, rfl, fun _ => ?_⟩⟩
      · simpa [Rejects] using hnone
      · simpa [Completed] using fun x hx => (hcaught.quiet x hx).1
    · refine ⟨fun ⟨res, hres, _⟩ => (nomatch hres), fun hnone => ?_⟩
      exact absurd hrejects (hnone x (by simp [hx]))
  | @successUnlogged tool output entry error _ _ hcaught =>
    refine ⟨fun hhonest => ?_, fun hnone => ?_⟩
    · -- the result, if there is one, is reported as failed, and the run has completed
      rcases hcaught.reports_or_rejects with ⟨res, rfl, hok, -⟩ | ⟨⟨thrown, rfl⟩, -⟩
      · obtain ⟨res', hres, hquiet⟩ := hhonest
        obtain rfl := Except.ok.inj hres
        exact absurd trivial (hquiet hok ⟨.settleRun, .ok output⟩ (by simp))
      · obtain ⟨res, hres, -⟩ := hhonest
        cases hres
    · exact absurd trivial (hnone ⟨.auditWrite entry, .error error⟩ (by simp))

theorem Course.noRerun (h : Course name input context tr r) : NoRerun tr := by
  unfold NoRerun
  cases h with
  | failed tool hcaught =>
    have hrest : ∀ x ∈ _, ¬ Completed x ∧ ¬ Called x := hcaught.quiet
    simp only [List.pairwise_cons]
    refine ⟨fun x _ hdone => hdone.elim, fun x _ hdone => hdone.elim, fun x _ hdone => hdone.elim,
      ?_⟩
    exact List.pairwise_of_forall_mem_list fun x hx y hy _ => (hrest y hy).2
  | successUnlogged tool output entry hcaught =>
    have hrest : ∀ x ∈ _, ¬ Completed x ∧ ¬ Called x := hcaught.quiet
    simp only [List.pairwise_cons]
    refine ⟨fun x _ hdone => hdone.elim, fun x _ hdone => hdone.elim, fun x hx _ => ?_,
      fun x _ hdone => hdone.elim, ?_⟩
    · rcases List.mem_cons.mp hx with rfl | hx
      · exact id
      · exact (hrest x hx).2
    · exact List.pairwise_of_forall_mem_list fun x hx y hy _ => (hrest y hy).2
  | _ => simp [Completed, Called]

/-- Where nothing is rejected, a caller that retries repeats no completed run. -/
theorem retry_noRerun (n : ℕ)
    (h : Path (retry name input context n : Call I O E (ToolResult O)).run tr (.ret r))
    (hnone : ∀ x ∈ tr, ¬ Rejects x) : NoRerun tr := by
  induction n generalizing tr with
  | zero => exact (invoke_course h).noRerun
  | succ n ih =>
    obtain ⟨first, tr₁, tr₂, rfl, hfirst, hrest⟩ := path_bind_end h
    have hcourse := invoke_course hfirst
    have hnone₁ : ∀ x ∈ tr₁, ¬ Rejects x := fun x hx => hnone x (List.mem_append_left _ hx)
    obtain ⟨res, rfl, hfailed⟩ := hcourse.honest_writes_iff.mpr hnone₁
    have hnext : Path (if res.ok then pure res else retry name input context n :
        Call I O E (ToolResult O)).run tr₂ (.ret r) := hrest
    by_cases hok : res.ok = true
    · rw [if_pos hok] at hnext
      obtain ⟨rfl, -⟩ := path_ret.mp hnext
      rw [List.append_nil]
      exact hcourse.noRerun
    · rw [if_neg hok] at hnext
      rw [Bool.not_eq_true] at hok
      have htr₂ := ih hnext fun x hx => hnone x (List.mem_append_right _ hx)
      exact List.pairwise_append.mpr ⟨hcourse.noRerun, htr₂,
        fun x hx _ _ hdone => absurd hdone (hfailed hok x hx)⟩

/-- Under any logger and any tools, a call is honest exactly when all its writes are accepted and
    the errors it reads have a text; and without a rejection, a retry repeats no completed run. -/
theorem honest_iff (name : String) (input : I) (context : ToolContext) (n : ℕ) {σ : Type}
    (h : Handler (ToolOp I E) (ToolOp.AnyRes O) σ) (s : σ) :
    (Honest (trace h (invoke name input context).run s)
        (run h (invoke name input context).run s).1 ↔
      ∀ x ∈ trace h (invoke name input context).run s, ¬ Rejects x) ∧
      ((∃ x ∈ trace h (retry name input context n).run s, Rejects x) ∨
        NoRerun (trace h (retry name input context n).run s)) := by
  refine ⟨(invoke_course (path_run h _ s)).honest_writes_iff, ?_⟩
  by_cases hnone : ∃ x ∈ trace h (retry name input context n).run s, Rejects x
  · exact .inl hnone
  · refine .inr (retry_noRerun n (path_run h _ s) fun x hx hrejects => hnone ⟨x, hx, hrejects⟩)

/-! ## An audit log that is down for one write -/

def writeTool : ToolDefinition where
  name := "repo.write"
  requiredPermission := .repoWrite
  stateChanging := true

def writeContext : ToolContext where
  agentId := .ra
  task := {
    id := "t-1"
    title := "Write"
    description := "Write a file."
    repo := none
    riskLevel := .low
    requiresRepoWrite := some true
    touchesSecrets := none
    reversible := none }
  workflowId := "w-1"
  approvalGranted := true

/-- The registry holds the tool, its run resolves, and the log rejects the first of the writes. -/
def downOnce : Handler (ToolOp Unit String) (ToolOp.AnyRes Unit) ℕ
  | .register _, writes => (.ok (), writes)
  | .lookup _, writes => (some writeTool, writes)
  | .auditWrite _, 0 => (.error "connection lost", 1)
  | .auditWrite event, writes + 1 =>
    (.ok { event with id := "e-1", timestamp := "2026-01-01T00:00:00.000Z" }, writes + 2)
  | .callRun .., writes => ((), writes)
  | .settleRun, writes => (.ok (), writes)
  | .errorText error, writes => (.ok error, writes)

/-- The write to the repository completes and is reported as failed; a retry does it again. -/
theorem completed_reported_failed :
    ((run downOnce (invoke writeTool.name () writeContext).run 0).1.toOption.map (·.ok)) =
        some false ∧
      ⟨.settleRun, .ok ()⟩ ∈ trace downOnce (invoke writeTool.name () writeContext).run 0 ∧
      ¬ Honest (trace downOnce (invoke writeTool.name () writeContext).run 0)
        (run downOnce (invoke writeTool.name () writeContext).run 0).1 ∧
      ¬ NoRerun (trace downOnce (retry writeTool.name () writeContext 1).run 0) := by
  have hfirst : ⟨.settleRun, .ok ()⟩ ∈
      trace downOnce (invoke writeTool.name () writeContext).run 0 :=
    List.mem_of_getElem? (i := 2) rfl
  refine ⟨rfl, hfirst, ?_, ?_⟩
  · intro h
    obtain ⟨res, hres, hquiet⟩ := h
    obtain rfl := Except.ok.inj hres
    exact hquiet rfl _ hfirst trivial
  · intro h
    exact List.pairwise_iff_getElem.mp h 2 8 (by decide) (by decide) (by decide) trivial trivial

end ToolRegistry.AnyLogger

end Harp
