import Harp.Lib.Pool
import Harp.Tools.ToolRegistry

/-
  Complete mediation: what reaches a tool has passed the registry, and every call of a
  registered tool leaves one audit event.

  The calls run interleaved over one registry and one audit log. `InvokeRun` lists what an
  `invoke` can have performed so far, with what it has returned. Everything but one clause
  holds of every run: an `invoke` rejects when the text of an error, read in the `catch`
  block, throws in turn.
-/

namespace Harp

open Prog

namespace ToolRegistry

variable {I O E ι : Type}

/-- An operation that was performed, with its answer. -/
abbrev ToolStep (I O E : Type) := (o : ToolOp I E) × o.Res O

/-! ## What is read off a run -/

/-- The call of `run` that a step makes, with the tool and what the tool is given. -/
@[simp] def called : ToolStep I O E → List (ToolDefinition × I × ToolContext)
  | ⟨.callRun tool input context, _⟩ => [(tool, input, context)]
  | _ => []

/-- How a call of `run` settles in a step. -/
@[simp] def settled : ToolStep I O E → List (Except E O)
  | ⟨.settleRun, outcome⟩ => [outcome]
  | _ => []

/-- What a step appends to the audit log. -/
@[simp] def logged : ToolStep I O E → List AuditEvent
  | ⟨.auditWrite _, event⟩ => [event]
  | _ => []

/-- What a step adds to the registry. -/
@[simp] def registered : ToolStep I O E → List ToolDefinition
  | ⟨.register tool, .ok _⟩ => [tool]
  | _ => []

/-- The gate of `invoke`. -/
def Permitted (tool : ToolDefinition) (context : ToolContext) : Prop :=
  PermissionGuard.can context.agentId tool.requiredPermission = true ∧
    (tool.stateChanging = true → context.approvalGranted = true)

instance (tool : ToolDefinition) (context : ToolContext) : Decidable (Permitted tool context) :=
  inferInstanceAs (Decidable (_ ∧ _))

/-- The action of the audit event of a call, by how the call went. -/
def actionOf (tool : ToolDefinition) (context : ToolContext) (outcomes : List (Except E O)) :
    String :=
  if PermissionGuard.can context.agentId tool.requiredPermission = false then
    "tool.permission_denied"
  else if tool.stateChanging = true ∧ context.approvalGranted = false then
    "tool.approval_required"
  else match outcomes with
    | .ok _ :: _ => "tool.invoked"
    | _ => "tool.failed"

/-! ## What an invocation performs -/

section

variable (name : String) (input : I) (context : ToolContext)

/-- What an `invoke` has performed, and what it has returned, if it has finished. -/
inductive InvokeRun : List (ToolStep I O E) → Option (Except E (ToolResult O)) → Prop
  | begun : InvokeRun [] none
  | unknown {res : ToolResult O} (hok : res.ok = false) (hid : res.auditId = none) :
      InvokeRun [⟨.lookup name, none⟩] (some (.ok res))
  | found (tool : ToolDefinition) : InvokeRun [⟨.lookup name, some tool⟩] none
  | refused {tool : ToolDefinition} {entry : AuditEntry} {event : AuditEvent}
      {res : ToolResult O} (hgate : ¬ Permitted tool context)
      (haction : entry.action = actionOf tool context ([] : List (Except E O)))
      (hok : res.ok = false) (hid : res.auditId = some event.id) :
      InvokeRun [⟨.lookup name, some tool⟩, ⟨.auditWrite entry, event⟩] (some (.ok res))
  | called {tool : ToolDefinition} (hgate : Permitted tool context) :
      InvokeRun [⟨.lookup name, some tool⟩, ⟨.callRun tool input context, ()⟩] none
  | settled {tool : ToolDefinition} (hgate : Permitted tool context) (outcome : Except E O) :
      InvokeRun [⟨.lookup name, some tool⟩, ⟨.callRun tool input context, ()⟩,
        ⟨.settleRun, outcome⟩] none
  | invoked {tool : ToolDefinition} (hgate : Permitted tool context) {output : O}
      {entry : AuditEntry} {event : AuditEvent} {res : ToolResult O}
      (haction : entry.action = actionOf tool context ([.ok output] : List (Except E O)))
      (hok : res.ok = true)
      (hid : res.auditId = some event.id) :
      InvokeRun [⟨.lookup name, some tool⟩, ⟨.callRun tool input context, ()⟩,
        ⟨.settleRun, .ok output⟩, ⟨.auditWrite entry, event⟩] (some (.ok res))
  | unreadable {tool : ToolDefinition} (hgate : Permitted tool context) (error thrown : E) :
      InvokeRun [⟨.lookup name, some tool⟩, ⟨.callRun tool input context, ()⟩,
        ⟨.settleRun, .error error⟩, ⟨.errorText error, .error thrown⟩] (some (.error thrown))
  | read {tool : ToolDefinition} (hgate : Permitted tool context) (error : E) (text : String) :
      InvokeRun [⟨.lookup name, some tool⟩, ⟨.callRun tool input context, ()⟩,
        ⟨.settleRun, .error error⟩, ⟨.errorText error, .ok text⟩] none
  | failing {tool : ToolDefinition} (hgate : Permitted tool context) (error : E)
      (text : String) (entry : AuditEntry) (event : AuditEvent) :
      InvokeRun [⟨.lookup name, some tool⟩, ⟨.callRun tool input context, ()⟩,
        ⟨.settleRun, .error error⟩, ⟨.errorText error, .ok text⟩,
        ⟨.auditWrite entry, event⟩] none
  | unreadableAgain {tool : ToolDefinition} (hgate : Permitted tool context) (error : E)
      (text : String) (entry : AuditEntry) (event : AuditEvent) (thrown : E) :
      InvokeRun [⟨.lookup name, some tool⟩, ⟨.callRun tool input context, ()⟩,
        ⟨.settleRun, .error error⟩, ⟨.errorText error, .ok text⟩,
        ⟨.auditWrite entry, event⟩, ⟨.errorText error, .error thrown⟩] (some (.error thrown))
  | failed {tool : ToolDefinition} (hgate : Permitted tool context) (error : E)
      (text message : String) {entry : AuditEntry} {event : AuditEvent} {res : ToolResult O}
      (haction : entry.action = actionOf tool context ([.error error] : List (Except E O)))
      (hok : res.ok = false)
      (hid : res.auditId = some event.id) :
      InvokeRun [⟨.lookup name, some tool⟩, ⟨.callRun tool input context, ()⟩,
        ⟨.settleRun, .error error⟩, ⟨.errorText error, .ok text⟩,
        ⟨.auditWrite entry, event⟩, ⟨.errorText error, .ok message⟩] (some (.ok res))

variable {name input context}

theorem actionOf_denied {tool : ToolDefinition}
    (hcan : PermissionGuard.can context.agentId tool.requiredPermission = false)
    (outcomes : List (Except E O)) :
    actionOf tool context outcomes = "tool.permission_denied" := if_pos hcan

theorem actionOf_held {tool : ToolDefinition}
    (hcan : PermissionGuard.can context.agentId tool.requiredPermission = true)
    (hstate : tool.stateChanging = true ∧ context.approvalGranted = false)
    (outcomes : List (Except E O)) :
    actionOf tool context outcomes = "tool.approval_required" := by
  unfold actionOf
  rw [if_neg (by rw [hcan]; decide), if_pos hstate]

theorem actionOf_permitted {tool : ToolDefinition} (hgate : Permitted tool context)
    (outcome : Except E O) :
    actionOf tool context [outcome] =
      match outcome with
      | .ok _ => "tool.invoked"
      | .error _ => "tool.failed" := by
  have hstate : ¬ (tool.stateChanging = true ∧ context.approvalGranted = false) := by
    intro ⟨hs, ha⟩
    rw [hgate.2 hs] at ha
    cases ha
  unfold actionOf
  rw [if_neg (by rw [hgate.1]; decide), if_neg hstate]
  cases outcome <;> rfl

/-- What `invoke` does once the run of a permitted tool has settled. -/
theorem afterRun_run {tool : ToolDefinition} (hgate : Permitted tool context)
    {outcome : Except E O} {own : List (ToolStep I O E)}
    {q : ToolProg I O E (Except E (ToolResult O))}
    (h : Path (afterRun name tool context outcome) own q) :
    InvokeRun name input context (⟨.lookup name, some tool⟩ ::
      ⟨.callRun tool input context, ()⟩ :: ⟨.settleRun, outcome⟩ :: own) q.result := by
  cases outcome with
  | ok output =>
    rw [afterRun, ToolProg.auditWrite_bind] at h
    rcases path_call_ret.mp h with ⟨rfl, rfl⟩ | ⟨event, rfl, rfl⟩
    · exact .settled hgate (.ok output)
    · exact .invoked hgate (actionOf_permitted hgate (.ok output)).symm rfl rfl
  | error error =>
    rw [afterRun, ToolProg.errorText_bind] at h
    cases h with
    | nil => exact .settled hgate (.error error)
    | call reading h =>
      cases reading with
      | error thrown =>
        obtain ⟨rfl, rfl⟩ := path_ret.mp h
        exact .unreadable hgate error thrown
      | ok text =>
        dsimp only at h
        rw [ToolProg.auditWrite_bind] at h
        cases h with
        | nil => exact .read hgate error text
        | call event h =>
          dsimp only at h
          rw [ToolProg.errorText_bind] at h
          cases h with
          | nil => exact .failing hgate error text _ event
          | call reading h =>
            cases reading with
            | error thrown =>
              obtain ⟨rfl, rfl⟩ := path_ret.mp h
              exact .unreadableAgain hgate error text _ event thrown
            | ok message =>
              obtain ⟨rfl, rfl⟩ := path_ret.mp h
              exact .failed hgate error text message
                (actionOf_permitted hgate (.error error)).symm rfl rfl

/-- What `invoke` does with a tool that it has found. -/
theorem found_run {tool : ToolDefinition} {own : List (ToolStep I O E)}
    {q : ToolProg I O E (Except E (ToolResult O))}
    (h : Path (invoke name input context) (⟨.lookup name, some tool⟩ :: own) q) :
    InvokeRun name input context (⟨.lookup name, some tool⟩ :: own) q.result := by
  rw [invoke, ToolProg.lookup_bind] at h
  cases h with
  | call _ h =>
    dsimp only at h
    split at h
    case isTrue hcan =>
      rw [Bool.not_eq_true'] at hcan
      rw [ToolProg.auditWrite_bind] at h
      rcases path_call_ret.mp h with ⟨rfl, rfl⟩ | ⟨event, rfl, rfl⟩
      · exact .found tool
      · refine .refused ?_ (actionOf_denied hcan _).symm rfl rfl
        intro hgate
        rw [hgate.1] at hcan
        cases hcan
    case isFalse hcan =>
      rw [Bool.not_eq_true', Bool.not_eq_false] at hcan
      split at h
      case isTrue hstate =>
        rw [Bool.and_eq_true, Bool.not_eq_true'] at hstate
        rw [ToolProg.auditWrite_bind] at h
        rcases path_call_ret.mp h with ⟨rfl, rfl⟩ | ⟨event, rfl, rfl⟩
        · exact .found tool
        · refine .refused ?_ (actionOf_held hcan hstate _).symm rfl rfl
          intro hgate
          have happroved := hgate.2 hstate.1
          rw [hstate.2] at happroved
          cases happroved
      case isFalse hstate =>
        have hgate : Permitted tool context := ⟨hcan, fun hs => by simpa [hs] using hstate⟩
        rw [ToolProg.callRun_bind] at h
        cases h with
        | nil => exact .found tool
        | call _ h =>
          rw [ToolProg.settleRun_bind] at h
          cases h with
          | nil => exact .called hgate
          | call outcome h => exact afterRun_run hgate h

/-- What `invoke` performs, up to any point, and what it returns. -/
theorem invoke_run {own : List (ToolStep I O E)}
    {q : ToolProg I O E (Except E (ToolResult O))} (h : Path (invoke name input context) own q) :
    InvokeRun name input context own q.result := by
  have hfound := h
  rw [invoke, ToolProg.lookup_bind] at h
  cases h with
  | nil => exact .begun
  | call found h =>
    cases found with
    | none =>
      obtain ⟨rfl, rfl⟩ := path_ret.mp h
      exact .unknown rfl rfl
    | some tool => exact found_run hfound

/-- An `invoke` that has not returned has performed at most five operations. -/
theorem InvokeRun.length_le {own : List (ToolStep I O E)}
    (h : InvokeRun name input context own (none : Option (Except E (ToolResult O)))) :
    own.length ≤ 5 := by
  cases h <;> simp

/-- An `invoke` rejects with what the reading of an error has thrown. -/
theorem InvokeRun.error_iff {own : List (ToolStep I O E)} {r : Option (Except E (ToolResult O))}
    (h : InvokeRun name input context own r) (thrown : E) :
    r = some (.error thrown) ↔ ∃ error, ⟨.errorText error, .error thrown⟩ ∈ own := by
  cases h <;> simp [eq_comm]

end

/-! ## Mediation -/

/-- How a call that has returned `res` was mediated: `found` is the tool of its name. -/
structure Returned (found : Option ToolDefinition) (context : ToolContext)
    (own : List (ToolStep I O E)) (res : ToolResult O) : Prop where
  runs : own.flatMap called ≠ [] ↔ ∃ tool, found = some tool ∧ Permitted tool context
  settles : (own.flatMap settled).length = (own.flatMap called).length
  ok : res.ok = true ↔ ∃ output, own.flatMap settled = [.ok output]
  unregistered : found = none → own.flatMap logged = [] ∧ res.auditId = none
  audited : ∀ tool, found = some tool → ∃ event, own.flatMap logged = [event] ∧
    res.auditId = some event.id ∧ event.action = actionOf tool context (own.flatMap settled)

/-- How a call was mediated that has performed `own`, and has returned `r` if it has finished. -/
structure Mediated (found : Option ToolDefinition) (input : I) (context : ToolContext)
    (own : List (ToolStep I O E)) (r : Option (Except E (ToolResult O))) : Prop where
  gate : ∀ c ∈ own.flatMap called, ∃ tool, found = some tool ∧ Permitted tool context ∧
    c = (tool, input, context)
  once : (own.flatMap called).length ≤ 1
  logs : (own.flatMap logged).length ≤ 1
  returned : ∀ res, r = some (.ok res) → Returned found context own res

section

variable {name : String} {input : I} {context : ToolContext}

/-- What the audit log answers. -/
def Answered : (o : ToolOp I E) → o.Res O → Prop
  | .auditWrite entry, event => event.toAuditEntry = entry
  | _, _ => True

/-- The event of a call is the one that its `write` was asked for. -/
theorem audited_of {own : List (ToolStep I O E)} {entry : AuditEntry} {event : AuditEvent}
    {tool : ToolDefinition} {outcomes : List (Except E O)} {res : ToolResult O}
    (hanswers : ∀ x ∈ own, Answered x.1 x.2) (hmem : ⟨.auditWrite entry, event⟩ ∈ own)
    (haction : entry.action = actionOf tool context outcomes)
    (hid : res.auditId = some event.id) (tool' : ToolDefinition)
    (hfound : some tool = some tool') : ∃ event', [event] = [event'] ∧
      res.auditId = some event'.id ∧ event'.action = actionOf tool' context outcomes := by
  have hentry : event.toAuditEntry = entry := hanswers _ hmem
  obtain rfl := Option.some.inj hfound
  exact ⟨event, rfl, hid, (congrArg AuditEntry.action hentry).trans haction⟩

theorem InvokeRun.returned {found : Option ToolDefinition} {own : List (ToolStep I O E)}
    {res : ToolResult O}
    (h : InvokeRun name input context (⟨.lookup name, found⟩ :: own)
      (some (.ok res) : Option (Except E (ToolResult O))))
    (hanswers : ∀ x ∈ own, Answered x.1 x.2) :
    Returned found context (⟨.lookup name, found⟩ :: own) res := by
  cases h with
  | unknown hok hid =>
    exact {
      runs := by simp
      settles := rfl
      ok := by simp [hok]
      unregistered := fun _ => ⟨rfl, hid⟩
      audited := fun tool hfound => by cases hfound }
  | refused hgate haction hok hid =>
    exact {
      runs := by simp [hgate]
      settles := rfl
      ok := by simp [hok]
      unregistered := fun hfound => by cases hfound
      audited := audited_of hanswers (by simp) haction hid }
  | invoked hgate haction hok hid =>
    exact {
      runs := by simp [hgate]
      settles := rfl
      ok := by simp [hok]
      unregistered := fun hfound => by cases hfound
      audited := audited_of hanswers (by simp) haction hid }
  | failed hgate error text message haction hok hid =>
    exact {
      runs := by simp [hgate]
      settles := rfl
      ok := by simp [hok]
      unregistered := fun hfound => by cases hfound
      audited := audited_of hanswers (by simp) haction hid }

theorem InvokeRun.mediated {found : Option ToolDefinition} {own : List (ToolStep I O E)}
    {r : Option (Except E (ToolResult O))}
    (h : InvokeRun name input context (⟨.lookup name, found⟩ :: own) r)
    (hanswers : ∀ x ∈ own, Answered x.1 x.2) :
    Mediated found input context (⟨.lookup name, found⟩ :: own) r where
  gate := by cases h <;> simp [*]
  once := by cases h <;> simp
  logs := by cases h <;> simp
  returned res hres := by
    subst hres
    exact h.returned hanswers

end

/-! ## Interleaved calls -/

/-- All calls before their first step. -/
def start (calls : ι → ToolCall I) (w : ToolWorld) :
    Pool ι (ToolOp I E) (ToolOp.Res O) (ToolReturn O E) ToolWorld where
  threads i := (calls i).program
  state := w

theorem start_invoke {calls : ι → ToolCall I} {w : ToolWorld} {i : ι} {name : String}
    {input : I} {context : ToolContext} (hi : calls i = .invoke name input context) :
    (start calls w).threads i = (invoke name input context >>= fun r => .ret (.invoked r) :
      ToolProg I O E (ToolReturn O E)) := by
  show (calls i).program = _
  rw [hi]
  rfl

section

variable [DecidableEq ι] (calls : ι → ToolCall I) (w : ToolWorld)
  (schedule : List (ι × ToolDraw O E))

/-- What the calls perform, and where they end. -/
def performed : List (ι × ToolStep I O E) := Pool.trace toolHandler schedule (start calls w)

def ended : Pool ι (ToolOp I E) (ToolOp.Res O) (ToolReturn O E) ToolWorld :=
  Pool.run toolHandler schedule (start calls w)

/-- Whenever the text of an error was read, there was one. -/
def Readable : Prop :=
  ∀ y ∈ performed calls w schedule, ∀ error thrown, y.2 ≠ ⟨.errorText error, .error thrown⟩

/-- Every call is mediated: the registry holds what was registered, the audit log holds what the
    calls appended, no `invoke` rejects, each returns within six steps of its own, and each is
    mediated by the tool that the registry holds at its first step. -/
structure CompleteMediation : Prop where
  registry : (ended calls w schedule).state.registry.tools =
    w.registry.tools ++ (performed calls w schedule).flatMap fun y => registered y.2
  auditLog : (ended calls w schedule).state.auditLogger.list =
    w.auditLogger.list ++ (performed calls w schedule).flatMap fun y => logged y.2
  accepts : ∀ i thrown,
    ((ended calls w schedule).threads i).result ≠ some (.invoked (.error thrown))
  returns : ∀ i, 6 ≤ (Pool.drawsOf i schedule).length →
    ((ended calls w schedule).threads i).result ≠ none
  invokes : ∀ i name input context, calls i = .invoke name input context →
    ∀ pre d post, schedule = pre ++ (i, d) :: post → (∀ x ∈ pre, x.1 ≠ i) →
      ∃ r, ((ended calls w schedule).threads i).result = r.map .invoked ∧
        Mediated ((ended calls w pre).state.registry.get name) input context
          (Pool.own i (performed calls w schedule)) r

variable {calls w schedule}

section

variable (w schedule)

/-- What an `invoke` performs in the pool. -/
theorem invoke_own {i : ι} {name : String} {input : I} {context : ToolContext}
    (hi : calls i = .invoke name input context) :
    ∃ r : Option (Except E (ToolResult O)),
      ((ended calls w schedule).threads i).result = r.map .invoked ∧
        InvokeRun name input context (Pool.own i (performed calls w schedule)) r := by
  have hpath := Pool.path toolHandler i schedule (start calls w)
  rw [start_invoke hi] at hpath
  obtain ⟨q, hq, hend⟩ := hpath.of_map
  refine ⟨q.result, ?_, invoke_run hq⟩
  unfold ended
  rw [hend]
  exact result_map _ q

/-- What a `register` performs in the pool. -/
theorem register_own {i : ι} {tool : ToolDefinition} (hi : calls i = .register tool) :
    (Pool.own i (performed calls w schedule) = [] ∧
        ((ended calls w schedule).threads i).result = none) ∨
      ∃ r, Pool.own i (performed calls w schedule) = [⟨.register tool, r⟩] ∧
        ((ended calls w schedule).threads i).result = some (.registered r) := by
  have hpath := Pool.path toolHandler i schedule (start calls w)
  have hstart : (start calls w).threads i =
      (.call (.register tool) fun r => .ret (.registered r) :
        ToolProg I O E (ToolReturn O E)) := by
    show (calls i).program = _
    rw [hi]
    rfl
  rw [hstart] at hpath
  rcases path_call_ret.mp hpath with ⟨hown, hend⟩ | ⟨r, hown, hend⟩
  · exact .inl ⟨hown, congrArg result hend⟩
  · exact .inr ⟨r, hown, congrArg result hend⟩

end

/-- The first step of an `invoke` reads the registry as it is then. -/
theorem invoke_first (w : ToolWorld) {pre : List (ι × ToolDraw O E)}
    (post : List (ι × ToolDraw O E)) (d : ToolDraw O E) {i : ι} {name : String} {input : I}
    {context : ToolContext} (hi : calls i = .invoke name input context)
    (hpre : ∀ x ∈ pre, x.1 ≠ i) :
    ∃ own, Pool.own i (performed calls w (pre ++ (i, d) :: post)) =
      ⟨.lookup name, (ended calls w pre).state.registry.get name⟩ :: own := by
  unfold performed
  rw [Pool.own_first toolHandler hpre, start_invoke hi]
  exact ⟨_, rfl⟩

theorem performed_answered : ∀ y ∈ performed calls w schedule, Answered y.2.1 y.2.2 := by
  refine Pool.answers_of_trace toolHandler (fun d o s => ?_) schedule (start calls w)
  cases o with
  | auditWrite entry => rfl
  | _ => trivial

theorem registry_eq : (ended calls w schedule).state.registry.tools =
    w.registry.tools ++ (performed calls w schedule).flatMap fun y => registered y.2 := by
  refine Pool.appended toolHandler (f := fun s => s.registry.tools) (fun d o s => ?_)
    schedule (start calls w)
  cases o with
  | register tool =>
    cases hreg : s.registry.register tool with
    | error thrown =>
      rw [toolHandler_register_error d hreg]
      exact (List.append_nil _).symm
    | ok registry =>
      rw [toolHandler_register_ok d hreg]
      exact register_tools hreg
  | _ => exact (List.append_nil _).symm

/-- The tool of a name is the one that was there at the start or has been registered since. -/
theorem get_ended {name : String} {tool : ToolDefinition} :
    (ended calls w schedule).state.registry.get name = some tool ↔
      (tool ∈ w.registry.tools ∨ ∃ y ∈ performed calls w schedule, tool ∈ registered y.2) ∧
        tool.name = name := by
  rw [get_eq_some, registry_eq, List.mem_append, List.mem_flatMap]

theorem auditLog_eq : (ended calls w schedule).state.auditLogger.list =
    w.auditLogger.list ++ (performed calls w schedule).flatMap fun y => logged y.2 := by
  refine Pool.appended toolHandler (f := fun s => s.auditLogger.list) (fun d o s => ?_)
    schedule (start calls w)
  cases o with
  | auditWrite event => rfl
  | register tool =>
    cases hreg : s.registry.register tool with
    | error thrown =>
      rw [toolHandler_register_error d hreg]
      exact (List.append_nil _).symm
    | ok registry =>
      rw [toolHandler_register_ok d hreg]
      exact (List.append_nil _).symm
  | _ => exact (List.append_nil _).symm

/-- An `invoke` has rejected exactly when a text could not be read. -/
theorem rejected_iff (i : ι) (thrown : E) :
    ((ended calls w schedule).threads i).result = some (.invoked (.error thrown)) ↔
      ∃ error, ⟨.errorText error, .error thrown⟩ ∈ Pool.own i (performed calls w schedule) := by
  cases hi : calls i with
  | register tool =>
    rcases register_own w schedule hi with ⟨hown, hend⟩ | ⟨r, hown, hend⟩
    · rw [hown, hend]
      simp
    · rw [hown, hend]
      simp
  | invoke name input context =>
    obtain ⟨r, hend, hrun⟩ := invoke_own w schedule hi
    rw [hend, ← hrun.error_iff thrown, Option.map_eq_some_iff]
    simp

/-- Six steps are enough for every call. -/
theorem result_of_six (i : ι) (hsteps : 6 ≤ (Pool.drawsOf i schedule).length) :
    ((ended calls w schedule).threads i).result ≠ none := by
  intro hnone
  have hlen : (Pool.own i (performed calls w schedule)).length =
      (Pool.drawsOf i schedule).length := by
    rcases Pool.finished_or_length toolHandler i schedule (start calls w) with ⟨a, ha⟩ | hlen
    · unfold ended at hnone
      rw [ha] at hnone
      cases hnone
    · exact hlen
  have hle : (Pool.own i (performed calls w schedule)).length ≤ 5 := by
    cases hi : calls i with
    | register tool =>
      rcases register_own w schedule hi with ⟨hown, -⟩ | ⟨r, hown, -⟩
      · simp [hown]
      · simp [hown]
    | invoke name input context =>
      obtain ⟨r, hend, hrun⟩ := invoke_own w schedule hi
      obtain rfl : r = none := Option.map_eq_none_iff.mp (hend.symm.trans hnone)
      exact hrun.length_le
  omega

/-- Mediation is complete exactly in the runs in which the text of every error can be read. -/
theorem mediation_iff (calls : ι → ToolCall I) (w : ToolWorld)
    (schedule : List (ι × ToolDraw O E)) :
    CompleteMediation calls w schedule ↔ Readable calls w schedule := by
  constructor
  · intro h y hy error thrown hread
    have hown := Pool.own_of_mem hy
    rw [hread] at hown
    exact h.accepts y.1 thrown ((rejected_iff y.1 thrown).mpr ⟨error, hown⟩)
  · intro hreadable
    refine ⟨registry_eq, auditLog_eq, ?_, result_of_six, ?_⟩
    · intro i thrown hrejected
      obtain ⟨error, herror⟩ := (rejected_iff i thrown).mp hrejected
      exact hreadable _ (Pool.mem_of_own herror) error thrown rfl
    · rintro i name input context hi pre d post rfl hpre
      obtain ⟨r, hend, hrun⟩ := invoke_own w (pre ++ (i, d) :: post) hi
      obtain ⟨own, hown⟩ := invoke_first w post d hi hpre
      refine ⟨r, hend, ?_⟩
      rw [hown] at hrun ⊢
      refine hrun.mediated fun x hx => ?_
      have hx' : x ∈ Pool.own i (performed calls w (pre ++ (i, d) :: post)) := by
        rw [hown]
        exact List.mem_cons_of_mem _ hx
      exact performed_answered _ (Pool.mem_of_own hx')

end

/-! ## An error without a text -/

def readTool : ToolDefinition where
  name := "repo.read"
  requiredPermission := .repoRead
  stateChanging := false

def readContext : ToolContext where
  agentId := .ra
  task := {
    id := "t-1"
    title := "Read"
    description := "Read a file."
    repo := none
    riskLevel := .low
    requiresRepoWrite := none
    touchesSecrets := none
    reversible := none }
  workflowId := "w-1"
  approvalGranted := false

/-- One call registers the tool, the other invokes it. -/
def readCalls : Bool → ToolCall Unit
  | false => .register readTool
  | true => .invoke readTool.name () readContext

/-- The tool rejects with an object that has no prototype, and `String` throws on that. -/
def bareObject : ToolDraw Unit String where
  uuid := "e-1"
  time := "2026-01-01T00:00:00.000Z"
  outcome := .error "Object.create(null)"
  reading := .error "TypeError: Cannot convert object to primitive value"

def bareSchedule : List (Bool × ToolDraw Unit String) :=
  (false, bareObject) :: List.replicate 6 (true, bareObject)

/-- The `invoke` of a permitted tool rejects, and its call leaves no event in the audit log. -/
theorem bare_object_rejects :
    let w : ToolWorld := ⟨.empty, ⟨[]⟩⟩
    ((ended readCalls w bareSchedule).threads true).result =
        some (.invoked (.error "TypeError: Cannot convert object to primitive value")) ∧
      (Pool.own true (performed readCalls w bareSchedule)).flatMap called =
        [(readTool, (), readContext)] ∧
      (ended readCalls w bareSchedule).state.auditLogger.list = [] ∧
      ¬ CompleteMediation readCalls w bareSchedule := by
  intro w
  have hend : ((ended readCalls w bareSchedule).threads true).result =
      some (.invoked (.error "TypeError: Cannot convert object to primitive value")) := rfl
  refine ⟨hend, rfl, rfl, ?_⟩
  intro h
  exact h.accepts true _ hend

end ToolRegistry

end Harp
