import Harp.Models.BudgetManager
import Mathlib.Algebra.Order.BigOperators.Group.List
import Mathlib.Algebra.Order.Monoid.Unbundled.Pow

/-
  Callers that share a budget (`src/models/BudgetManager.ts`).

  A caller checks before it asks a model and records when the answer has come, and other callers
  check and record in between. A check does not see what was admitted and is not recorded yet, so a
  counter may pass its hard limit. `overdraft_le` bounds by how much, `overdraft_attained` says that
  the bound cannot be improved.

  The invariant adds what is still owed to the counter: a record moves tokens from the one to the
  other, and an admission finds room for its own tokens beside the counter, so that only what the
  others owe then is in excess.
-/

namespace Harp.BudgetManager

variable {α : Type}

/-- What the admitted callers will charge to a key; each is listed with the day of its check. -/
def owed (scope : BudgetScope) (key : String) (pending : List (BudgetInput α × String)) : List α :=
  pending.filterMap fun x => charge scope key (.record x.1 x.2)

theorem owed_append (scope : BudgetScope) (key : String)
    (xs ys : List (BudgetInput α × String)) :
    owed scope key (xs ++ ys) = owed scope key xs ++ owed scope key ys := List.filterMap_append

theorem length_owed_le (scope : BudgetScope) (key : String)
    (pending : List (BudgetInput α × String)) : (owed scope key pending).length ≤ pending.length :=
  List.length_filterMap_le _ _

theorem keyFor_of_day {input : BudgetInput α} {today today' : String}
    (hday : dayKey input today' = dayKey input today) (scope : BudgetScope) :
    keyFor scope input today' = keyFor scope input today := by
  cases scope with
  | workflow => rfl
  | agent => rfl
  | day => exact congrArg some hday

theorem isSome_of_limits {config : BudgetConfig α} {manager : BudgetManager α}
    (hconfig : Configured config manager) {scope : BudgetScope} {limits : BudgetLimits α}
    (hlimits : config.limits scope = some limits) : (manager.scopes scope).isSome = true := by
  have hstate := hconfig scope
  rw [hlimits] at hstate
  obtain ⟨state, hstate, -⟩ := Option.map_eq_some_iff.mp hstate
  rw [hstate]
  rfl

section Spending

variable [AddCommMonoid α] [LinearOrder α] [Sub α] [ToString α]

/-- Callers between their checks and their records: at most `k` at a time, each with at most `T`
    tokens. A check that cuts off changes nothing. -/
inductive Spending (config : BudgetConfig α) (k : ℕ) (T : α) :
    List (BudgetInput α × String) → BudgetManager α → Prop
  | start : Spending config k T [] (create config)
  | admitted {pending : List (BudgetInput α × String)} {manager : BudgetManager α}
      (h : Spending config k T pending manager) (input : BudgetInput α) (today : String)
      (hcheck : (manager.check input today).isCutoff = false) (htokens : input.tokens ≤ T)
      (hroom : pending.length < k) : Spending config k T ((input, today) :: pending) manager
  | recorded {before after : List (BudgetInput α × String)} {input : BudgetInput α}
      {today : String} {manager : BudgetManager α}
      (h : Spending config k T (before ++ (input, today) :: after) manager) (today' : String)
      (hday : dayKey input today' = dayKey input today) :
      Spending config k T (before ++ after) (manager.record input today')

variable {config : BudgetConfig α} {k : ℕ} {T : α} {pending : List (BudgetInput α × String)}
  {manager : BudgetManager α}

theorem Spending.tokens_le (h : Spending config k T pending manager) :
    ∀ x ∈ pending, x.1.tokens ≤ T := by
  induction h with
  | start => exact fun x hx => absurd hx List.not_mem_nil
  | admitted _ input today _ htokens _ ih => exact List.forall_mem_cons.mpr ⟨htokens, ih⟩
  | recorded _ _ _ ih =>
    intro x hx
    exact ih x (List.mem_append.mpr ((List.mem_append.mp hx).imp_right (List.mem_cons_of_mem _)))

theorem Spending.exists_run (h : Spending config k T pending manager) :
    ∃ ops, manager = run (create config) ops := by
  induction h with
  | start => exact ⟨[], rfl⟩
  | admitted _ _ _ _ _ _ ih => exact ih
  | @recorded _ _ input _ _ _ today' _ ih =>
    obtain ⟨ops, rfl⟩ := ih
    refine ⟨ops ++ [.record input today'], ?_⟩
    rw [run_concat]
    rfl

theorem Spending.configured (h : Spending config k T pending manager) :
    Configured config manager := by
  obtain ⟨ops, rfl⟩ := h.exists_run
  exact configured_run config ops

variable {scope : BudgetScope} {limits : BudgetLimits α} {key : String}

/-- A check that does not cut off has found room in every scope that applies. -/
theorem usage_le_of_check (hconfig : Configured config manager) {input : BudgetInput α}
    {today : String} (hcheck : (manager.check input today).isCutoff = false)
    (hlimits : config.limits scope = some limits) (hkey : keyFor scope input today = some key) :
    manager.usage scope key + input.tokens ≤ limits.hard := by
  by_contra hlt
  have hexceeds : Exceeds config manager input today (·.hard) :=
    ⟨scope, limits, key, hlimits, hkey, lt_of_not_ge hlt⟩
  rw [(check_exact hconfig input today).cutoff.mpr hexceeds] at hcheck
  cases hcheck

section Bound

variable [IsOrderedAddMonoid α]

theorem owed_le (h : Spending config k T pending manager) (hT : 0 ≤ T)
    (hroom : pending.length < k) : (owed scope key pending).sum ≤ (k - 1) • T := by
  have heach : ∀ t ∈ owed scope key pending, t ≤ T := by
    intro t ht
    obtain ⟨x, hx, hcharge⟩ := List.mem_filterMap.mp ht
    unfold charge at hcharge
    dsimp only at hcharge
    split at hcharge
    case isTrue =>
      obtain rfl := Option.some.inj hcharge
      exact h.tokens_le x hx
    case isFalse => cases hcharge
  calc (owed scope key pending).sum ≤ (owed scope key pending).length • T :=
        List.sum_le_card_nsmul _ _ heach
    _ ≤ (k - 1) • T := by
        have hlength := length_owed_le scope key pending
        exact nsmul_le_nsmul_left hT (Nat.le_sub_one_of_lt (hlength.trans_lt hroom))

/-- However callers interleave, a counter and what is owed to it exceed the hard limit by no more
    than the tokens of all callers but one that may be under way. -/
theorem overdraft_le (h : Spending config k T pending manager) (hT : 0 ≤ T)
    (hlimits : config.limits scope = some limits) (key : String) :
    manager.usage scope key + (owed scope key pending).sum ≤ max 0 limits.hard + (k - 1) • T := by
  induction h with
  | start =>
    have hzero : (create config).usage scope key = 0 := by simp [usage, create, hlimits]
    rw [hzero, show owed scope key ([] : List (BudgetInput α × String)) = [] from rfl,
      List.sum_nil, add_zero]
    exact add_nonneg (le_max_left _ _) (nsmul_nonneg hT _)
  | @admitted pending manager h input today hcheck _ hroom ih =>
    by_cases hkey : keyFor scope input today = some key
    · have howed : owed scope key ((input, today) :: pending) =
          input.tokens :: owed scope key pending := by
        simp [owed, charge, hkey]
      rw [howed, List.sum_cons, ← add_assoc]
      exact add_le_add
        ((usage_le_of_check h.configured hcheck hlimits hkey).trans (le_max_right _ _))
        (owed_le h hT hroom)
    · have howed : owed scope key ((input, today) :: pending) = owed scope key pending := by
        simp [owed, charge, hkey]
      rw [howed]
      exact ih
  | @recorded before after input today manager h today' hday ih =>
    have hactive := isSome_of_limits h.configured hlimits
    rw [usage_record manager input today' key hactive, keyFor_of_day hday]
    rw [owed_append] at ih ⊢
    by_cases hkey : keyFor scope input today = some key
    · have howed : owed scope key ((input, today) :: after) =
          input.tokens :: owed scope key after := by
        simp [owed, charge, hkey]
      rw [howed, List.sum_append, List.sum_cons] at ih
      rw [if_pos hkey, List.sum_append]
      calc manager.usage scope key + input.tokens +
            ((owed scope key before).sum + (owed scope key after).sum) =
          manager.usage scope key + ((owed scope key before).sum +
            (input.tokens + (owed scope key after).sum)) := by
              rw [add_assoc, add_left_comm input.tokens]
        _ ≤ max 0 limits.hard + (k - 1) • T := ih
    · have howed : owed scope key ((input, today) :: after) = owed scope key after := by
        simp [owed, charge, hkey]
      rw [howed] at ih
      rw [if_neg hkey]
      exact ih

end Bound

/-! ## The bound is attained -/

section Attained

variable {input : BudgetInput α} {today : String}
  (hfits : ∀ scope limits key, config.limits scope = some limits →
    keyFor scope input today = some key → input.tokens ≤ limits.hard)
include hfits

/-- As long as nobody records, everybody is admitted. -/
theorem spending_replicate {n : ℕ} (hn : n ≤ k) :
    Spending config k input.tokens (List.replicate n (input, today)) (create config) := by
  induction n with
  | zero => exact .start
  | succ n ih =>
    refine .admitted (ih (Nat.le_of_succ_le hn)) input today ?_ le_rfl (by
      rw [List.length_replicate]
      exact hn)
    by_contra hcut
    obtain ⟨scope, limits, key, hlimits, hkey, hlt⟩ :=
      (check_exact (configured_create config) input today).cutoff.mp (by simpa using hcut)
    have hzero : (create config).usage scope key = 0 := by simp [usage, create, hlimits]
    rw [hzero, zero_add] at hlt
    exact absurd (hfits scope limits key hlimits hkey) (not_le_of_gt hlt)

/-- Then they record one after the other. -/
theorem spending_drain {n m : ℕ} (hk : m + n = k) :
    let manager := run (create config) (List.replicate m (.record input today))
    Spending config k input.tokens (List.replicate n (input, today)) manager ∧
      ∀ scope limits key, config.limits scope = some limits →
        keyFor scope input today = some key → manager.usage scope key = m • input.tokens := by
  induction m generalizing n with
  | zero =>
    refine ⟨spending_replicate hfits (by omega), ?_⟩
    intro scope limits key hlimits _
    rw [zero_nsmul]
    simp [run, usage, create, hlimits]
  | succ m ih =>
    obtain ⟨h, husage⟩ := @ih (n + 1) (by omega)
    have hfirst : Spending config k input.tokens
        ([] ++ (input, today) :: List.replicate n (input, today))
        (run (create config) (List.replicate m (.record input today))) := h
    intro manager
    have hmanager : manager =
        (run (create config) (List.replicate m (.record input today))).record input today := by
      show run _ (List.replicate (m + 1) _) = _
      rw [List.replicate_succ', run_concat]
      rfl
    rw [hmanager]
    refine ⟨hfirst.recorded today rfl, ?_⟩
    intro scope limits key hlimits hkey
    rw [usage_record _ input today key (isSome_of_limits h.configured hlimits), if_pos hkey,
      husage scope limits key hlimits hkey, succ_nsmul]

/-- When the tokens of `k` callers each fit alone, all of them may be admitted before any of them
    records. Their records then leave the counters at `k` times the tokens. -/
theorem overdraft_attained (k : ℕ) :
    Spending config k input.tokens (List.replicate k (input, today)) (create config) ∧
      let manager := run (create config) (List.replicate k (.record input today))
      Spending config k input.tokens [] manager ∧
        ∀ scope limits key, config.limits scope = some limits →
          keyFor scope input today = some key → manager.usage scope key = k • input.tokens :=
  ⟨spending_replicate hfits le_rfl, spending_drain hfits (Nat.add_zero k)⟩

end Attained

end Spending

/-! ## Two callers of one agent -/

/-- Each has room alone, both are admitted, and the agent's counter passes its limit of five. -/
theorem overdraft_le_four :
    let manager := run (create twoScopes) [.record fourTokens "d", .record fourTokens "d"]
    manager.usage .agent "ra" + (owed .agent "ra" []).sum ≤ max 0 5 + (2 - 1) • (4 : ℚ) := by
  intro manager
  have hfirst : Spending twoScopes 2 4 [(fourTokens, "d")] (create twoScopes) :=
    .admitted .start fourTokens "d" (by decide +kernel) le_rfl (by decide)
  have hboth : Spending twoScopes 2 4 ([] ++ (fourTokens, "d") :: [(fourTokens, "d")])
      (create twoScopes) :=
    .admitted hfirst fourTokens "d" (by decide +kernel) le_rfl (by decide)
  have hdone : Spending twoScopes 2 4 ([] ++ []) manager :=
    .recorded (.recorded hboth "d" rfl) "d" rfl
  have hagent : twoScopes.limits .agent = some { hard := 5, soft := 3 } := rfl
  exact overdraft_le hdone (by decide +kernel) hagent "ra"

theorem overdraft_attained_four :
    Spending twoScopes 3 4 (List.replicate 3 (fourTokens, "d")) (create twoScopes) ∧
      let manager := run (create twoScopes) (List.replicate 3 (.record fourTokens "d"))
      Spending twoScopes 3 4 [] manager ∧
        ∀ scope limits key, twoScopes.limits scope = some limits →
          keyFor scope fourTokens "d" = some key → manager.usage scope key = 3 • (4 : ℚ) := by
  have hfits (scope : BudgetScope) (limits : BudgetLimits ℚ) (key : String)
      (hlimits : twoScopes.limits scope = some limits)
      (_ : keyFor scope fourTokens "d" = some key) : fourTokens.tokens ≤ limits.hard := by
    cases scope with
    | agent =>
      obtain rfl := Option.some.inj hlimits
      decide +kernel
    | workflow =>
      obtain rfl := Option.some.inj hlimits
      decide +kernel
    | day => cases hlimits
  exact overdraft_attained hfits 3

end Harp.BudgetManager
