import Harp.Agents.AgentRuns
import Harp.Lib.Pool
import Mathlib.Algebra.GroupWithZero.Nat

/-
  Token accounting under overlapping calls.

  `generate` reads the usage counter before it awaits the provider and writes the sum after
  it, so a call that commits in between is overwritten. The counters agree with the records
  in every state of a run exactly if each commit finds the counter as the call had read it.
-/

namespace Harp

open Prog

namespace ModelRouter

/-- The tokens of a response. -/
def tokens (response : ModelResponse) : Nat := response.inputTokens + response.outputTokens

/-- The tokens of the calls recorded under a key. -/
def spent (records : List ModelCallRecord) (key : String) : Nat :=
  ((records.filter fun r => keyOf r.workflowId == key).map fun r =>
    r.inputTokens + r.outputTokens).sum

/-- Every counter is the sum of what has been recorded under its key. -/
def Consistent (router : ModelRouter) : Prop :=
  ∀ key, router.usage key = spent router.records key

theorem spent_append (rs : List ModelCallRecord) (r : ModelCallRecord) (key : String) :
    spent (rs ++ [r]) key =
      spent rs key + if keyOf r.workflowId = key then r.inputTokens + r.outputTokens else 0 := by
  by_cases h : keyOf r.workflowId = key <;> simp [spent, List.filter_append, h]

/-- A commit keeps the counters right exactly if it adds to the present counter. -/
theorem consistent_recordCall_iff {router : ModelRouter} (hc : Consistent router) (total : Nat)
    (request : ModelRequest) (response : ModelResponse) (t : String) :
    Consistent (router.recordCall (keyOf request.workflowId) total request response t) ↔
      total = router.usage (keyOf request.workflowId) + tokens response := by
  have hspent (key : String) : spent (router.recordCall (keyOf request.workflowId) total request
      response t).records key = router.usage key +
        if keyOf request.workflowId = key then tokens response else 0 := by
    rw [records_recordCall, spent_append, hc key]
    rfl
  constructor
  · intro h
    have hk := h (keyOf request.workflowId)
    rwa [usage_recordCall, if_pos rfl, hspent, if_pos rfl] at hk
  · intro h key
    rw [usage_recordCall, hspent]
    by_cases hk : key = keyOf request.workflowId
    · rw [if_pos hk, hk, if_pos rfl, h]
    · rw [if_neg hk, if_neg fun h => hk h.symm, Nat.add_zero]

theorem consistent_create : Consistent create := fun _ => rfl

/-! ## Overlapping calls -/

/-- An operation of `generate`: a commit goes to the key of its own request. -/
def Keyed : SysOp → Prop
  | .recordCall key _ request _ => key = keyOf request.workflowId
  | _ => True

theorem generate_keyed (budget : Nat) (request : ModelRequest) :
    Meets Keyed (fun _ _ => True) (fun _ => True) (generate budget request) := by
  unfold generate generateChecked
  rw [perform_bind, meets_call]
  refine ⟨trivial, fun used _ => ?_⟩
  by_cases hb : used ≥ budget
  · rw [if_pos hb]
    trivial
  · rw [if_neg hb, perform_bind, meets_call]
    refine ⟨trivial, fun answer _ => ?_⟩
    cases answer with
    | error e => trivial
    | ok response => exact ⟨rfl, fun _ _ => trivial⟩

/-- Calls of `generate` that share a router, each at its start. -/
def calls {ε ι : Type} (budget : Nat) (requests : ι → ModelRequest) (w : World ε) :
    Pool ι SysOp SysOp.Res (Except Thrown ModelResponse) (World ε) where
  threads i := generate budget (requests i)
  state := w

/-- If the next step of the call is its commit, the counter still is what the call had read. -/
def Undisturbed {ε ι : Type}
    (p : Pool ι SysOp SysOp.Res (Except Thrown ModelResponse) (World ε)) (x : ι × Unit) : Prop :=
  match p.threads x.1 with
  | .call (.recordCall key total _ response) _ =>
    total = p.state.modelRouter.usage key + tokens response
  | _ => True

/-- Only a commit changes the router. -/
theorem consistent_step_iff {ε ι : Type} [DecidableEq ι] (env : Env ε)
    (p : Pool ι SysOp SysOp.Res (Except Thrown ModelResponse) (World ε)) (x : ι × Unit)
    (hp : p.Meets fun _ => Keyed) (hc : Consistent p.state.modelRouter) :
    Consistent (Pool.step (fun _ => sysHandler env) p x).state.modelRouter ↔
      Undisturbed p x := by
  have hm := hp x.1
  unfold Pool.step Undisturbed
  cases ht : p.threads x.1 with
  | ret a => exact iff_of_true hc trivial
  | call o k =>
    rw [ht] at hm
    cases o with
    | recordCall key total request response =>
      obtain rfl : key = keyOf request.workflowId := hm.1
      exact consistent_recordCall_iff hc total request response _
    | now => exact iff_of_true hc trivial
    | randomUUID => exact iff_of_true hc trivial
    | auditWrite => exact iff_of_true hc trivial
    | memoryAppend => exact iff_of_true hc trivial
    | requestApproval => exact iff_of_true hc trivial
    | usage => exact iff_of_true hc trivial
    | providerGenerate => exact iff_of_true hc trivial

/-- The counters are right in every state of a run exactly if no commit of the run was
    overtaken. -/
theorem accounting_iff {ε ι : Type} [DecidableEq ι] (env : Env ε) (budget : Nat)
    (requests : ι → ModelRequest) (w : World ε) (hw : Consistent w.modelRouter)
    (schedule : List (ι × Unit)) :
    (∀ xs, xs <+: schedule → Consistent
      (Pool.run (fun _ => sysHandler env) xs (calls budget requests w)).state.modelRouter) ↔
      ∀ xs x, xs ++ [x] <+: schedule →
        Undisturbed (Pool.run (fun _ => sysHandler env) xs (calls budget requests w)) x := by
  have hkeyed : (calls budget requests w).Meets fun _ => Keyed :=
    fun i => generate_keyed budget (requests i)
  have hstep (p : Pool ι SysOp SysOp.Res (Except Thrown ModelResponse) (World ε)) (x : ι × Unit)
      (hp : p.Meets fun _ => Keyed) :
    (Pool.step (fun _ => sysHandler env) p x).Meets fun _ => Keyed :=
    hp.step _ x
  exact Pool.always_iff _ hstep (consistent_step_iff env) hkeyed hw schedule

/-- A request without a workflow id. -/
def unscopedRequest : ModelRequest where
  modelClass := .cloudFast
  systemPrompt := "s"
  userPrompt := "u"
  temperature := none
  agentId := none
  taskId := none
  workflowId := none

/-- Each call in a workflow of its own. -/
def scopedRequest (b : Bool) : ModelRequest :=
  { unscopedRequest with workflowId := some (if b then "a" else "b") }

/-- Both calls read their counters before either commits. -/
def overlapping : List (Bool × Unit) :=
  [(true, ()), (true, ()), (false, ()), (false, ()), (true, ()), (false, ())]

theorem accounting_iff_two :
    let run := fun xs => Pool.run (fun _ => sysHandler (Env.constant "" true)) xs
      (calls 10 scopedRequest (World.create ()))
    (run overlapping).state.modelRouter.records.map (·.workflowId) = [some "a", some "b"] ∧
      ((∀ xs, xs <+: overlapping → Consistent (run xs).state.modelRouter) ↔
        ∀ xs x, xs ++ [x] <+: overlapping → Undisturbed (run xs) x) :=
  ⟨rfl, accounting_iff (Env.constant "" true) 10 scopedRequest (World.create ())
    consistent_create overlapping⟩

/-- Two unscoped calls read the counter before either commits: both are recorded with two
    tokens, and the counter ends at two. -/
theorem lost_update :
    ¬ Consistent (Pool.run (fun _ => sysHandler (Env.constant "" true)) overlapping
      (calls 10 (fun _ : Bool => unscopedRequest) (World.create ()))).state.modelRouter :=
  fun h => absurd (h "unscoped") (by decide)

end ModelRouter

end Harp
