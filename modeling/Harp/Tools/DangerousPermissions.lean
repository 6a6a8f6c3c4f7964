import Harp.Tools.Mediation

/-
  The approval gate of dangerous permissions (`DANGEROUS_PERMISSIONS` of `src/core/constants.ts`).

  The registry holds a call by the tool's own `stateChanging` flag and looks at no set of
  permissions. So a dangerous permission is gated exactly where the flag, the guard or the
  approval of each call that may meet such a tool makes up for it (`gated_iff`). What a call may
  meet under its name is what the registry holds at the start or what another call registers
  (`found_available`).
-/

namespace Harp

open Prog

/-- Permissions considered dangerous and therefore approval-gated when used. -/
def dangerousPermissions : List Permission := [.repoWrite, .scheduleCreate]

namespace ToolRegistry

variable {I O E ι : Type}

/-- The tool that a call may find under a name. -/
def Available (calls : ι → ToolCall I) (w : ToolWorld) (name : String) (tool : ToolDefinition) :
    Prop :=
  w.registry.get name = some tool ∨
    (w.registry.get name = none ∧ tool.name = name ∧ ∃ j, calls j = .register tool)

variable [DecidableEq ι]

/-- In a run, every `run` of a tool with a dangerous permission was approved. -/
def Gated (calls : ι → ToolCall I) (w : ToolWorld) (schedule : List (ι × ToolDraw O E)) : Prop :=
  ∀ y ∈ performed calls w schedule, ∀ c ∈ called y.2,
    c.1.requiredPermission ∈ dangerousPermissions → c.2.2.approvalGranted = true

section

variable {calls : ι → ToolCall I} {w : ToolWorld} {schedule : List (ι × ToolDraw O E)}

/-- What a run has registered was registered by one of its calls. -/
theorem registered_call {y : ι × ToolStep I O E} (hy : y ∈ performed calls w schedule)
    {tool : ToolDefinition} (htool : tool ∈ registered y.2) : calls y.1 = .register tool := by
  have hown := Pool.own_of_mem hy
  cases hcall : calls y.1 with
  | register tool' =>
    rcases register_own w schedule hcall with ⟨hnil, -⟩ | ⟨r, hone, -⟩
    · rw [show Pool.own y.1 (performed calls w schedule) = [] from hnil] at hown
      exact absurd hown List.not_mem_nil
    · rw [show Pool.own y.1 (performed calls w schedule) = _ from hone] at hown
      rw [List.mem_singleton.mp hown] at htool
      cases r with
      | error thrown => exact absurd htool List.not_mem_nil
      | ok _ => rw [List.mem_singleton.mp htool]
  | invoke name input context =>
    obtain ⟨r, -, hrun⟩ := invoke_own w schedule hcall
    generalize Pool.own y.1 (performed calls w schedule) = own at hrun hown
    have hnone : ∀ x ∈ own, registered x = [] := by cases hrun <;> simp
    rw [hnone _ hown] at htool
    exact absurd htool List.not_mem_nil

/-- A call finds what is available under its name. -/
theorem found_available {name : String} {tool : ToolDefinition}
    (h : (ended calls w schedule).state.registry.get name = some tool) :
    Available calls w name tool := by
  cases hget : w.registry.get name with
  | some tool' =>
    obtain ⟨hmem, hname⟩ := get_eq_some.mp hget
    have hstill : (ended calls w schedule).state.registry.get name = some tool' :=
      get_ended.mpr ⟨.inl hmem, hname⟩
    exact .inl (hget.trans (hstill.symm.trans h))
  | none =>
    obtain ⟨hmem | ⟨y, hy, htool⟩, hname⟩ := get_ended.mp h
    · rw [get_eq_some.mpr ⟨hmem, hname⟩] at hget
      cases hget
    · exact .inr ⟨hget, hname, y.1, registered_call hy htool⟩

/-- A `run` that was called passed the gate, and its tool was available. -/
theorem called_available {y : ι × ToolStep I O E} (hy : y ∈ performed calls w schedule)
    {tool : ToolDefinition} {input : I} {context : ToolContext}
    (hcalled : (tool, input, context) ∈ called y.2) :
    ∃ name, calls y.1 = .invoke name input context ∧ Available calls w name tool ∧
      Permitted tool context := by
  have hown := Pool.own_of_mem hy
  have hflat : (tool, input, context) ∈
      (Pool.own y.1 (performed calls w schedule)).flatMap called :=
    List.mem_flatMap.mpr ⟨y.2, hown, hcalled⟩
  cases hcall : calls y.1 with
  | register tool' =>
    rcases register_own w schedule hcall with ⟨hnil, -⟩ | ⟨r, hone, -⟩
    · rw [hnil] at hflat
      exact absurd hflat List.not_mem_nil
    · rw [hone] at hflat
      exact absurd hflat List.not_mem_nil
  | invoke name input' context' =>
    rcases Pool.exists_first y.1 schedule with hnever | ⟨pre, d, post, rfl, hpre⟩
    · rw [show Pool.own y.1 (performed calls w schedule) = [] from
        Pool.own_of_never toolHandler hnever (start calls w)] at hflat
      exact absurd hflat List.not_mem_nil
    · obtain ⟨r, -, hrun⟩ := invoke_own w (pre ++ (y.1, d) :: post) hcall
      obtain ⟨own, hfirst⟩ := invoke_first w post d hcall hpre
      rw [hfirst] at hrun hflat
      obtain ⟨tool', hfound, hgate, heq⟩ : ∃ tool',
          (ended calls w pre).state.registry.get name = some tool' ∧ Permitted tool' context' ∧
            (tool, input, context) = (tool', input', context') := by
        have hans : ∀ x ∈ own, Answered x.1 x.2 := by
          intro x hx
          have hx' : x ∈ Pool.own y.1 (performed calls w (pre ++ (y.1, d) :: post)) := by
            rw [hfirst]
            exact List.mem_cons_of_mem _ hx
          exact performed_answered _ (Pool.mem_of_own hx')
        exact (hrun.mediated hans).gate _ hflat
      obtain ⟨rfl, rfl, rfl⟩ := heq
      exact ⟨name, rfl, found_available hfound, hgate⟩

end

/-! ## Two steps of a permitted call -/

/-- A call that finds a permitted tool calls its `run` next. -/
theorem invoke_found (name : String) (input : I) {context : ToolContext} {tool : ToolDefinition}
    (hgate : Permitted tool context) :
    ∃ k k', (invoke name input context : ToolProg I O E (Except E (ToolResult O))) =
        .call (.lookup name) k ∧ k (some tool) = .call (.callRun tool input context) k' := by
  have hstate : (tool.stateChanging && !context.approvalGranted) = false := by
    rw [Bool.and_eq_false_imp]
    intro hs
    rw [hgate.2 hs]
    rfl
  rw [invoke, ToolProg.lookup_bind]
  refine ⟨_, fun _ => ToolProg.settleRun >>= afterRun name tool context, rfl, ?_⟩
  dsimp only
  rw [hgate.1, hstate]
  rfl

theorem called_of_two_steps {name : String} {input : I} {context : ToolContext}
    {tool : ToolDefinition} (hgate : Permitted tool context) {i : ι} (d : ToolDraw O E)
    {p : Pool ι (ToolOp I E) (ToolOp.Res O) (ToolReturn O E) ToolWorld}
    (hi : p.threads i = (invoke name input context >>= fun r => .ret (.invoked r)))
    (hget : p.state.registry.get name = some tool) :
    (i, (⟨.callRun tool input context, ()⟩ : ToolStep I O E)) ∈
      Pool.trace toolHandler [(i, d), (i, d)] p := by
  obtain ⟨k, k', hk, hk'⟩ := @invoke_found I O E name input _ _ hgate
  rw [hk, call_bind] at hi
  have hsecond : (Pool.step toolHandler p (i, d)).threads i =
      .call (.callRun tool input context) fun r => k' r >>= fun r => .ret (.invoked r) := by
    rw [Pool.step_threads_self]
    simp only [hi, Prog.step, toolHandler, hget]
    rw [hk', call_bind]
  simp only [Pool.trace, List.append_nil, List.mem_append]
  right
  rw [hsecond]
  exact List.mem_singleton.mpr rfl

theorem register_of_free {registry : ToolRegistry} {tool : ToolDefinition}
    (hfree : registry.get tool.name = none) :
    ∃ registry', registry.register tool = .ok registry' := by
  have hhas : ¬ registry.has tool.name = true := by
    unfold get at hfree
    unfold has
    rw [List.find?_eq_none] at hfree
    simpa using hfree
  unfold register
  rw [dif_neg hhas]
  exact ⟨_, rfl⟩

/-- A tool that is available under a name is in the registry after at most one registration. -/
theorem Available.exists_get {calls : ι → ToolCall I} {w : ToolWorld} {name : String}
    {tool : ToolDefinition} (h : Available calls w name tool) (d : ToolDraw O E) :
    ∃ schedule : List (ι × ToolDraw O E),
      (∀ x ∈ schedule, calls x.1 = .register tool) ∧
        (ended calls w schedule).state.registry.get name = some tool := by
  rcases h with hget | ⟨hfree, rfl, j, hj⟩
  · exact ⟨[], by simp, hget⟩
  · obtain ⟨registry, hregistry⟩ := register_of_free hfree
    refine ⟨[(j, d)], by simpa using hj, ?_⟩
    have hthread : (start calls w : Pool ι (ToolOp I E) (ToolOp.Res O) _ _).threads j =
        .call (.register tool) fun r => .ret (.registered r) := by
      show (calls j).program = _
      rw [hj]
      rfl
    unfold ended
    rw [Pool.run_cons]
    show (Pool.step toolHandler (start calls w) (j, d)).state.registry.get tool.name = some tool
    unfold Pool.step
    simp only [hthread, Prog.step]
    rw [show (start calls w : Pool ι (ToolOp I E) (ToolOp.Res O) _ _).state = w from rfl,
      toolHandler_register_ok d hregistry, get_eq_some, register_tools hregistry]
    exact ⟨List.mem_append_right _ (List.mem_singleton.mpr rfl), rfl⟩

/-- An available tool whose call is permitted is run by some schedule. -/
theorem exists_called {calls : ι → ToolCall I} {w : ToolWorld} {i : ι} {name : String} {input : I}
    {context : ToolContext} {tool : ToolDefinition} (hi : calls i = .invoke name input context)
    (htool : Available calls w name tool) (hgate : Permitted tool context) (d : ToolDraw O E) :
    ∃ schedule, (i, (⟨.callRun tool input context, ()⟩ : ToolStep I O E)) ∈
      performed calls w (schedule : List (ι × ToolDraw O E)) := by
  obtain ⟨schedule, hregisters, hget⟩ := htool.exists_get d
  have hnever : ∀ x ∈ schedule, x.1 ≠ i := by
    rintro x hx rfl
    have hregister := hregisters x hx
    rw [hi] at hregister
    cases hregister
  refine ⟨schedule ++ [(i, d), (i, d)], ?_⟩
  unfold performed
  rw [Pool.trace_append, List.mem_append]
  right
  refine called_of_two_steps hgate d ?_ hget
  rw [Pool.run_threads_of_never toolHandler hnever]
  exact start_invoke hi

/-- Dangerous permissions are gated in every run exactly when each call that may meet such a tool
    lacks the permission, or meets a tool marked as state-changing, or is approved. -/
theorem gated_iff (calls : ι → ToolCall I) (w : ToolWorld) (d : ToolDraw O E) :
    (∀ schedule : List (ι × ToolDraw O E), Gated calls w schedule) ↔
      ∀ i name input context tool, calls i = .invoke name input context →
        Available calls w name tool → tool.requiredPermission ∈ dangerousPermissions →
        PermissionGuard.can context.agentId tool.requiredPermission = true →
        tool.stateChanging = true ∨ context.approvalGranted = true := by
  constructor
  · intro h i name input context tool hi htool hdangerous hcan
    by_contra hungated
    rw [not_or] at hungated
    have hgate : Permitted tool context := ⟨hcan, fun hs => absurd hs hungated.1⟩
    obtain ⟨schedule, hcalled⟩ := exists_called hi htool hgate d
    exact hungated.2 (h schedule _ hcalled (tool, input, context) (List.mem_singleton.mpr rfl)
      hdangerous)
  · intro h schedule y hy c hc hdangerous
    obtain ⟨tool, input, context⟩ := c
    obtain ⟨name, hi, htool, hgate⟩ := called_available hy hc
    rcases h y.1 name input context tool hi htool hdangerous hgate.1 with hs | happroved
    · exact hgate.2 hs
    · exact happroved

/-! ## An unmarked tool -/

/-- A tool that writes to the repository, without the flag. -/
def unmarkedWriteTool : ToolDefinition where
  name := "repo.patch"
  requiredPermission := .repoWrite
  stateChanging := false

/-- One call registers the tool, the other invokes it without approval. -/
def unmarkedCalls : Bool → ToolCall Unit
  | false => .register unmarkedWriteTool
  | true => .invoke unmarkedWriteTool.name () readContext

theorem unmarked_write_runs :
    let w : ToolWorld := ⟨.empty, ⟨[]⟩⟩
    let schedule := [(false, bareObject), (true, bareObject), (true, bareObject)]
    unmarkedWriteTool.requiredPermission ∈ dangerousPermissions ∧
      readContext.approvalGranted = false ∧
      (Pool.own true (performed unmarkedCalls w schedule)).flatMap called =
        [(unmarkedWriteTool, (), readContext)] ∧
      ¬ Gated unmarkedCalls w schedule := by
  intro w schedule
  have hrun : (Pool.own true (performed unmarkedCalls w schedule)).flatMap called =
      [(unmarkedWriteTool, (), readContext)] := rfl
  refine ⟨by decide, rfl, hrun, ?_⟩
  intro h
  obtain ⟨x, hx, hc⟩ := List.mem_flatMap.mp (hrun ▸ List.mem_singleton.mpr rfl :
    (unmarkedWriteTool, (), readContext) ∈
      (Pool.own true (performed unmarkedCalls w schedule)).flatMap called)
  exact Bool.false_ne_true (h (true, x) (Pool.mem_of_own hx) _ hc (by decide))

end ToolRegistry

end Harp
