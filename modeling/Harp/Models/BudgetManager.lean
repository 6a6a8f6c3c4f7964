import Mathlib.Algebra.BigOperators.Group.List.Basic
import Mathlib.Algebra.Order.Ring.Rat
import Mathlib.Data.List.Induction
import Mathlib.Logic.Function.Basic

/-
  The multi-scope budget (`src/models/BudgetManager.ts`).

  The code adds, subtracts and compares numbers, so a number is an element of any ordered
  additive monoid with subtraction; `Infinity`, which only stands in a verdict, is `none`.
  `today` is what `new Date().toISOString().slice(0, 10)` gives. Counters and meters of
  `obs` are left out.

  `run_spent` is the invariant of guarded spending, by induction on the operations: a counter
  is the sum of what has been charged to it, and a charge never takes it over its hard limit,
  because the check right before has seen the same scopes and keys.
-/

namespace Harp

inductive BudgetScope where
  | agent
  | workflow
  | day
  deriving DecidableEq, Repr

def BudgetScope.text : BudgetScope → String
  | agent => "agent"
  | workflow => "workflow"
  | day => "day"

structure BudgetLimits (α : Type) where
  hard : α
  soft : α

inductive BudgetVerdict (α : Type) where
  | ok (remaining : Option α)
  | downshift (remaining : α) (reason : String)
  /-- `remaining` is 0. -/
  | cutoff (reason : String)

def BudgetVerdict.isOk {α : Type} : BudgetVerdict α → Bool
  | ok _ => true
  | _ => false

def BudgetVerdict.isDownshift {α : Type} : BudgetVerdict α → Bool
  | downshift .. => true
  | _ => false

def BudgetVerdict.isCutoff {α : Type} : BudgetVerdict α → Bool
  | cutoff _ => true
  | _ => false

structure BudgetConfig (α : Type) where
  agent : Option (BudgetLimits α)
  workflow : BudgetLimits α
  day : Option (BudgetLimits α)

/-- The limits of a scope, where it is active. -/
def BudgetConfig.limits {α : Type} (config : BudgetConfig α) : BudgetScope → Option (BudgetLimits α)
  | .agent => config.agent
  | .workflow => some config.workflow
  | .day => config.day

structure ScopeState (α : Type) where
  limits : BudgetLimits α
  used : String → Option α

/-- What `check` and `record` are called with. -/
structure BudgetInput (α : Type) where
  tokens : α
  workflowId : String
  agentId : Option String
  day : Option String

structure BudgetManager (α : Type) where
  scopes : BudgetScope → Option (ScopeState α)

namespace BudgetManager

variable {α : Type}

/-- `new BudgetManager(config)`. -/
def create (config : BudgetConfig α) : BudgetManager α where
  scopes scope := (config.limits scope).map fun limits =>
    { limits := limits, used := fun _ => none }

/-- The agent key of an input: an id that is absent or empty is none. -/
def agentKey (input : BudgetInput α) : Option String := input.agentId.filter (· != "")

/-- The day key of an input. -/
def dayKey (input : BudgetInput α) (today : String) : String := input.day.getD today

/-- The scopes that `check` looks at, with their keys. -/
def checks (manager : BudgetManager α) (input : BudgetInput α) (today : String) :
    List (BudgetScope × String) :=
  [(.workflow, input.workflowId)] ++
  (if (manager.scopes .agent).isSome then
    (agentKey input).toList.map fun agentId => (.agent, agentId)
  else []) ++
  if (manager.scopes .day).isSome then [(.day, dayKey input today)] else []

section Check

variable [AddMonoid α] [LinearOrder α]

def usage (manager : BudgetManager α) (scope : BudgetScope) (key : String) : α :=
  ((manager.scopes scope).bind (·.used key)).getD 0

variable [Sub α] [ToString α]

/-- The loop of `check` over the scopes that are left. -/
def checkLoop (manager : BudgetManager α) (tokens : α) :
    List (BudgetScope × String) → BudgetVerdict α → BudgetVerdict α
  | [], verdict => verdict
  | (scope, key) :: rest, verdict =>
    match manager.scopes scope with
    | none => checkLoop manager tokens rest verdict
    | some state =>
      let used := (state.used key).getD 0
      let projected := used + tokens
      let remaining := max 0 (state.limits.hard - used)
      if projected > state.limits.hard then
        .cutoff (scope.text ++ " budget hard limit reached (used " ++ toString used ++ ", limit " ++
          toString state.limits.hard ++ ").")
      else
        let verdict := if projected > state.limits.soft ∧ verdict.isOk then
            .downshift remaining
              (scope.text ++ " budget soft threshold crossed; downshift recommended.")
          else verdict
        let verdict := if verdict.isOk then .ok (some remaining) else verdict
        checkLoop manager tokens rest verdict

def check (manager : BudgetManager α) (input : BudgetInput α) (today : String) :
    BudgetVerdict α :=
  checkLoop manager input.tokens (checks manager input today) (.ok none)

end Check

section Record

variable [AddMonoid α]

/-- `add(scope, key)` of `record`. -/
def add (manager : BudgetManager α) (tokens : α) (scope : BudgetScope) (key : String) :
    BudgetManager α where
  scopes := Function.update manager.scopes scope <| (manager.scopes scope).map fun state =>
    { state with used := Function.update state.used key (some ((state.used key).getD 0 + tokens)) }

def record (manager : BudgetManager α) (input : BudgetInput α) (today : String) :
    BudgetManager α :=
  let manager := manager.add input.tokens .workflow input.workflowId
  let manager := match agentKey input with
    | some agentId => manager.add input.tokens .agent agentId
    | none => manager
  manager.add input.tokens .day (dayKey input today)

end Record

/-- The key that an input has in a scope, if the scope applies to it. -/
def keyFor : BudgetScope → BudgetInput α → String → Option String
  | .workflow, input, _ => some input.workflowId
  | .agent, input, _ => agentKey input
  | .day, input, today => some (dayKey input today)

/-- The limits of a manager are those of its configuration. -/
def Configured (config : BudgetConfig α) (manager : BudgetManager α) : Prop :=
  ∀ scope, (manager.scopes scope).map (·.limits) = config.limits scope

theorem configured_create (config : BudgetConfig α) : Configured config (create config) := by
  intro scope
  unfold create
  cases h : config.limits scope <;> simp [h]

/-! ## What a check answers -/

theorem isOk_iff (verdict : BudgetVerdict α) :
    verdict.isOk = true ↔ verdict.isCutoff = false ∧ verdict.isDownshift = false := by
  cases verdict <;> simp [BudgetVerdict.isOk, BudgetVerdict.isCutoff, BudgetVerdict.isDownshift]

theorem mem_checks (manager : BudgetManager α) (input : BudgetInput α) (today : String)
    {scope : BudgetScope} {key : String} (hactive : (manager.scopes scope).isSome = true) :
    (scope, key) ∈ checks manager input today ↔ keyFor scope input today = some key := by
  unfold checks
  cases scope with
  | workflow => cases (manager.scopes .agent).isSome <;> cases (manager.scopes .day).isSome <;>
      simp [keyFor, eq_comm]
  | agent =>
    rw [hactive]
    cases (manager.scopes .day).isSome <;> simp [keyFor]
  | day =>
    rw [hactive]
    cases (manager.scopes .agent).isSome <;> simp [keyFor, eq_comm]

section Verdicts

variable [AddMonoid α] [LinearOrder α]

/-- An active scope in which the tokens take the counter of the key over a limit. -/
def Over (limit : BudgetLimits α → α) (manager : BudgetManager α) (tokens : α)
    (p : BudgetScope × String) : Prop :=
  ∃ state, manager.scopes p.1 = some state ∧
    limit state.limits < (state.used p.2).getD 0 + tokens

/-- A scope that is active in `config` and that applies to the input, in which the tokens take the
    counter over a limit. -/
def Exceeds (config : BudgetConfig α) (manager : BudgetManager α) (input : BudgetInput α)
    (today : String) (limit : BudgetLimits α → α) : Prop :=
  ∃ scope limits key, config.limits scope = some limits ∧ keyFor scope input today = some key ∧
    limit limits < manager.usage scope key + input.tokens

theorem exceeds_iff {config : BudgetConfig α} {manager : BudgetManager α}
    (hconfig : Configured config manager) (input : BudgetInput α) (today : String)
    (limit : BudgetLimits α → α) :
    (∃ p ∈ checks manager input today, Over limit manager input.tokens p) ↔
      Exceeds config manager input today limit := by
  constructor
  · rintro ⟨⟨scope, key⟩, hmem, state, hstate, hlt⟩
    have hactive : (manager.scopes scope).isSome = true := by rw [hstate]; rfl
    refine ⟨scope, state.limits, key, ?_, (mem_checks manager input today hactive).mp hmem, ?_⟩
    · rw [← hconfig scope, hstate]
      rfl
    · unfold usage
      rw [hstate]
      exact hlt
  · rintro ⟨scope, limits, key, hlimits, hkey, hlt⟩
    rw [← hconfig scope] at hlimits
    obtain ⟨state, hstate, rfl⟩ := Option.map_eq_some_iff.mp hlimits
    have hactive : (manager.scopes scope).isSome = true := by rw [hstate]; rfl
    refine ⟨(scope, key), (mem_checks manager input today hactive).mpr hkey, state, hstate, ?_⟩
    unfold usage at hlt
    rw [hstate] at hlt
    exact hlt

variable [Sub α] [ToString α]

/-- The loop cuts off at the first scope over its hard limit; a downshift sticks. -/
theorem checkLoop_spec (manager : BudgetManager α) (tokens : α)
    (xs : List (BudgetScope × String)) (verdict : BudgetVerdict α)
    (hverdict : verdict.isCutoff = false) :
    ((checkLoop manager tokens xs verdict).isCutoff = true ↔
        ∃ p ∈ xs, Over (·.hard) manager tokens p) ∧
      ((checkLoop manager tokens xs verdict).isDownshift = true ↔
        (¬ ∃ p ∈ xs, Over (·.hard) manager tokens p) ∧
          (verdict.isDownshift = true ∨ ∃ p ∈ xs, Over (·.soft) manager tokens p)) := by
  induction xs generalizing verdict with
  | nil => simp [checkLoop, hverdict]
  | cons p rest ih =>
    obtain ⟨scope, key⟩ := p
    cases hscope : manager.scopes scope with
    | none =>
      have hover (limit : BudgetLimits α → α) : ¬ Over limit manager tokens (scope, key) := by
        rintro ⟨state, hstate, -⟩
        exact nomatch hscope.symm.trans hstate
      simp only [checkLoop, hscope, List.exists_mem_cons_iff, hover, false_or]
      exact ih verdict hverdict
    | some state =>
      have hover (limit : BudgetLimits α → α) : Over limit manager tokens (scope, key) ↔
          limit state.limits < (state.used key).getD 0 + tokens := by
        constructor
        · rintro ⟨state', hstate, h⟩
          obtain rfl := Option.some.inj (hscope.symm.trans hstate)
          exact h
        · exact fun h => ⟨state, hscope, h⟩
      simp only [checkLoop, hscope, List.exists_mem_cons_iff, hover, gt_iff_lt]
      by_cases hhard : state.limits.hard < (state.used key).getD 0 + tokens
      · simp [hhard, BudgetVerdict.isCutoff, BudgetVerdict.isDownshift]
      · simp only [hhard, if_false, false_or]
        cases verdict with
        | cutoff reason => exact nomatch hverdict
        | downshift remaining reason =>
          obtain ⟨hc, hd⟩ := ih (.downshift remaining reason) rfl
          simp only [BudgetVerdict.isOk, Bool.false_eq_true, and_false, if_false]
          refine ⟨hc, hd.trans ?_⟩
          simp [BudgetVerdict.isDownshift]
        | ok remaining =>
          by_cases hsoft : state.limits.soft < (state.used key).getD 0 + tokens
          · simp only [hsoft, BudgetVerdict.isOk, and_self, if_true, Bool.false_eq_true, if_false]
            refine ⟨(ih _ rfl).1, (ih _ rfl).2.trans ?_⟩
            simp [BudgetVerdict.isDownshift]
          · simp only [hsoft, BudgetVerdict.isOk, false_and, if_false, if_true, false_or]
            refine ⟨(ih _ rfl).1, (ih _ rfl).2.trans ?_⟩
            simp [BudgetVerdict.isDownshift]

/-- A check answers by what the tokens would exceed. -/
structure CheckExact (config : BudgetConfig α) (manager : BudgetManager α)
    (input : BudgetInput α) (today : String) : Prop where
  cutoff : (manager.check input today).isCutoff = true ↔
    Exceeds config manager input today (·.hard)
  downshift : (manager.check input today).isDownshift = true ↔
    ¬ Exceeds config manager input today (·.hard) ∧ Exceeds config manager input today (·.soft)
  ok : (manager.check input today).isOk = true ↔
    ¬ Exceeds config manager input today (·.hard) ∧ ¬ Exceeds config manager input today (·.soft)

theorem check_exact {config : BudgetConfig α} {manager : BudgetManager α}
    (hconfig : Configured config manager) (input : BudgetInput α) (today : String) :
    CheckExact config manager input today := by
  obtain ⟨hcutoff, hdownshift⟩ :=
    checkLoop_spec manager input.tokens (checks manager input today) (.ok none) rfl
  simp only [exceeds_iff hconfig] at hcutoff hdownshift
  have hdownshift' : (manager.check input today).isDownshift = true ↔
      ¬ Exceeds config manager input today (·.hard) ∧
        Exceeds config manager input today (·.soft) := by
    refine hdownshift.trans ?_
    simp [BudgetVerdict.isDownshift]
  have hcutoff' : (manager.check input today).isCutoff = true ↔
      Exceeds config manager input today (·.hard) := hcutoff
  refine ⟨hcutoff', hdownshift', ?_⟩
  rw [isOk_iff, ← Bool.not_eq_true, ← Bool.not_eq_true, hcutoff', hdownshift']
  tauto

end Verdicts

/-! ## Guarded spending -/

/-- One call of a manager, with the day it is made on. -/
inductive Op (α : Type) where
  | check (input : BudgetInput α) (today : String)
  | record (input : BudgetInput α) (today : String)

/-- The tokens that an operation charges to a key. -/
def charge (scope : BudgetScope) (key : String) : Op α → Option α
  | .check .. => none
  | .record input today => if keyFor scope input today = some key then some input.tokens else none

/-- The tokens of the records charged to a key, in order. -/
def charged (scope : BudgetScope) (key : String) (ops : List (Op α)) : List α :=
  ops.filterMap (charge scope key)

theorem charged_concat (scope : BudgetScope) (key : String) (ops : List (Op α)) (op : Op α) :
    charged scope key (ops ++ [op]) =
      charged scope key ops ++ (charge scope key op).toList := by
  unfold charged
  rw [List.filterMap_append]
  cases h : charge scope key op <;> simp [h]

section Spending

variable [AddMonoid α]

def apply (manager : BudgetManager α) : Op α → BudgetManager α
  | .check .. => manager
  | .record input today => manager.record input today

def run (manager : BudgetManager α) (ops : List (Op α)) : BudgetManager α :=
  ops.foldl apply manager

@[simp] theorem run_concat (manager : BudgetManager α) (ops : List (Op α)) (op : Op α) :
    run manager (ops ++ [op]) = apply (run manager ops) op := by
  simp [run]

/-- What `add` does to a counter. -/
theorem usage_add (manager : BudgetManager α) (tokens : α) (scope scope' : BudgetScope)
    (key key' : String) :
    (manager.add tokens scope key).usage scope' key' =
      if scope = scope' ∧ key = key' ∧ (manager.scopes scope).isSome then
        manager.usage scope' key' + tokens
      else manager.usage scope' key' := by
  unfold add usage
  by_cases hs : scope = scope'
  · subst hs
    cases hstate : manager.scopes scope with
    | none => simp
    | some state =>
      by_cases hk : key = key'
      · subst hk
        simp
      · simp [hk, Ne.symm hk]
  · simp [hs, Ne.symm hs]

theorem add_isSome (manager : BudgetManager α) (tokens : α) (scope scope' : BudgetScope)
    (key : String) :
    ((manager.add tokens scope key).scopes scope').isSome = (manager.scopes scope').isSome := by
  unfold add
  by_cases hs : scope = scope'
  · subst hs
    simp
  · simp [Ne.symm hs]

/-- A record charges its tokens to the keys that a check looks at, and to no other. -/
theorem usage_record (manager : BudgetManager α) (input : BudgetInput α) (today : String)
    {scope : BudgetScope} (key : String) (hactive : (manager.scopes scope).isSome = true) :
    (manager.record input today).usage scope key =
      if keyFor scope input today = some key then manager.usage scope key + input.tokens
      else manager.usage scope key := by
  unfold record
  cases hagent : agentKey input with
  | none =>
    simp only [usage_add, add_isSome]
    cases scope <;> simp [keyFor, hactive, hagent]
  | some agentId =>
    simp only [usage_add, add_isSome]
    cases scope <;> simp [keyFor, hactive, hagent]

theorem add_limits (manager : BudgetManager α) (tokens : α) (scope scope' : BudgetScope)
    (key : String) :
    ((manager.add tokens scope key).scopes scope').map (·.limits) =
      (manager.scopes scope').map (·.limits) := by
  unfold add
  by_cases hs : scope = scope'
  · subst hs
    simp [Function.comp_def]
  · simp [Ne.symm hs]

theorem configured_run (config : BudgetConfig α) (ops : List (Op α)) :
    Configured config (run (create config) ops) := by
  induction ops using List.reverseRecOn with
  | nil => exact configured_create config
  | append_singleton ops op ih =>
    rw [run_concat]
    cases op with
    | check => exact ih
    | record input today =>
      intro scope
      unfold apply record
      cases hagent : agentKey input with
      | none =>
        simp only [hagent, add_limits]
        exact ih scope
      | some agentId =>
        simp only [hagent, add_limits]
        exact ih scope

end Spending

section Guarded

variable [AddMonoid α] [LinearOrder α] [Sub α] [ToString α]

/-- Every record directly follows a check of the same input, on the same day, that did not
    cut off. -/
def Guarded (config : BudgetConfig α) (ops : List (Op α)) : Prop :=
  ∀ pre input today post, ops = pre ++ .record input today :: post →
    ∃ pre' today', pre = pre' ++ [.check input today'] ∧ dayKey input today' = dayKey input today ∧
      ((run (create config) pre').check input today').isCutoff = false

theorem Guarded.init {config : BudgetConfig α} {ops : List (Op α)} {op : Op α}
    (h : Guarded config (ops ++ [op])) : Guarded config ops := by
  intro pre input today post hops
  exact h pre input today (post ++ [op]) (by rw [hops]; simp)

/-- A guarded record takes no counter over its hard limit. -/
theorem Guarded.record_le {config : BudgetConfig α} {ops : List (Op α)}
    {input : BudgetInput α} {today : String}
    (h : Guarded config (ops ++ [.record input today])) {scope : BudgetScope} {key : String}
    {limits : BudgetLimits α} (hlimits : config.limits scope = some limits)
    (hkey : keyFor scope input today = some key) :
    (run (create config) ops).usage scope key + input.tokens ≤ limits.hard := by
  obtain ⟨pre, today', rfl, hday, hcheck⟩ := h ops input today [] rfl
  have hkey' : keyFor scope input today' = some key := by
    rw [← hkey]
    cases scope with
    | workflow => rfl
    | agent => rfl
    | day => exact congrArg some hday
  have hexact := check_exact (configured_run config pre) input today'
  rw [run_concat]
  by_contra hlt
  have hexceeds : Exceeds config (run (create config) pre) input today' (·.hard) :=
    ⟨scope, limits, key, hlimits, hkey', lt_of_not_ge hlt⟩
  rw [hexact.cutoff.mpr hexceeds] at hcheck
  exact nomatch hcheck

/-- The counters after guarded spending. -/
theorem run_spent {config : BudgetConfig α} {ops : List (Op α)} (h : Guarded config ops)
    {scope : BudgetScope} {limits : BudgetLimits α} (hlimits : config.limits scope = some limits)
    (key : String) :
    (run (create config) ops).usage scope key = (charged scope key ops).sum ∧
      (charged scope key ops ≠ [] → (run (create config) ops).usage scope key ≤ limits.hard) := by
  induction ops using List.reverseRecOn with
  | nil =>
    refine ⟨?_, fun hne => absurd rfl hne⟩
    simp [run, create, usage, hlimits, charged]
  | append_singleton ops op ih =>
    obtain ⟨hsum, hle⟩ := ih h.init
    rw [run_concat, charged_concat]
    cases op with
    | check input today =>
      rw [show (charge scope key (.check input today)).toList = [] from rfl, List.append_nil]
      exact ⟨hsum, hle⟩
    | record input today =>
      have hactive : ((run (create config) ops).scopes scope).isSome = true := by
        have := configured_run config ops scope
        rw [hlimits] at this
        cases hscope : (run (create config) ops).scopes scope with
        | none => rw [hscope] at this; exact nomatch this
        | some state => rfl
      have husage := usage_record (run (create config) ops) input today key hactive
      simp only [apply, charge, husage]
      by_cases hkey : keyFor scope input today = some key
      · rw [if_pos hkey, if_pos hkey]
        refine ⟨?_, fun _ => h.record_le hlimits hkey⟩
        simp [hsum]
      · rw [if_neg hkey, if_neg hkey]
        simpa using ⟨hsum, hle⟩

/-- Guarded spending keeps every counter at the sum of its charges and within its hard limit, and
    every check answers by what the tokens would exceed. -/
theorem guarded_spending (config : BudgetConfig α) (ops : List (Op α))
    (h : Guarded config ops) :
    (∀ scope limits, config.limits scope = some limits → ∀ key,
      (run (create config) ops).usage scope key = (charged scope key ops).sum ∧
      (charged scope key ops ≠ [] →
        (run (create config) ops).usage scope key ≤ limits.hard)) ∧
      ∀ input today, CheckExact config (run (create config) ops) input today :=
  ⟨fun _ _ hlimits key => run_spent h hlimits key,
    fun input today => check_exact (configured_run config ops) input today⟩

end Guarded

/-- A budget of one workflow scope and an agent scope. -/
def twoScopes : BudgetConfig ℚ where
  agent := some { hard := 5, soft := 3 }
  workflow := { hard := 100, soft := 50 }
  day := none

/-- Four tokens of one agent, twice checked and once recorded. -/
def fourTokens : BudgetInput ℚ where
  tokens := 4
  workflowId := "w"
  agentId := some "ra"
  day := none

theorem guarded_spending_four :
    (∀ scope limits, twoScopes.limits scope = some limits → ∀ key,
      (run (create twoScopes) [.check fourTokens "d", .record fourTokens "d"]).usage scope key =
        (charged scope key [.check fourTokens "d", .record fourTokens "d"]).sum ∧
      (charged scope key [.check fourTokens "d", .record fourTokens "d"] ≠ [] →
        (run (create twoScopes) [.check fourTokens "d", .record fourTokens "d"]).usage scope key ≤
          limits.hard)) ∧
      ∀ input today, CheckExact twoScopes
        (run (create twoScopes) [.check fourTokens "d", .record fourTokens "d"]) input today := by
  refine guarded_spending twoScopes [.check fourTokens "d", .record fourTokens "d"] ?_
  intro pre input today post hops
  rcases pre with _ | ⟨op, _ | ⟨op', pre⟩⟩
  · exact nomatch hops
  · injection hops with hop hops
    injection hops with hrecord _
    injection hrecord with hinput htoday
    subst hop hinput htoday
    exact ⟨[], "d", rfl, rfl, by decide +kernel⟩
  · simp at hops

/-- The agent id `""` is given, and ten tokens exceed the agent's hard limit of five; the check
    skips the agent scope and answers "ok". -/
theorem guarded_spending_counterexample :
    let input : BudgetInput ℚ :=
      { tokens := 10, workflowId := "w", agentId := some "", day := none }
    twoScopes.limits .agent = some { hard := 5, soft := 3 } ∧ input.agentId = some "" ∧
      (5 : ℚ) < (create twoScopes).usage .agent "" + input.tokens ∧
      ((create twoScopes).check input "d").isCutoff = false ∧
      ((create twoScopes).check input "d").isOk = true := by
  exact ⟨rfl, rfl, by decide +kernel, by decide +kernel, by decide +kernel⟩

end BudgetManager

end Harp
