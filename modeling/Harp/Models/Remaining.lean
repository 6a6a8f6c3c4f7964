import Harp.Models.BudgetManager
import Mathlib.Algebra.Order.Group.Defs
import Mathlib.Algebra.Order.Group.Unbundled.Basic
import Mathlib.Order.Bounds.Defs

/-
  The `remaining` field of a verdict (`BudgetManager.check`).
  The loop overwrites the number at each scope until a scope crosses its soft limit, and keeps it
  from there on. So the number is that of the first scope that crosses, and of the last scope
  examined where none does. `checkLoop_reported` says so; the minimum is reported exactly when
  that scope is the tightest one (`remaining_iff`).
-/

namespace Harp

def BudgetVerdict.remaining {α : Type} : BudgetVerdict α → Option α
  | ok remaining => remaining
  | downshift remaining _ => some remaining
  | cutoff _ => none

namespace BudgetManager

variable {α : Type}

/-- Every examined scope is active. -/
theorem checks_active {config : BudgetConfig α} {manager : BudgetManager α}
    (hconfig : Configured config manager) (input : BudgetInput α) (today : String)
    {p : BudgetScope × String} (hp : p ∈ checks manager input today) :
    ∃ state, manager.scopes p.1 = some state := by
  have hworkflow : (manager.scopes .workflow).isSome = true := by
    have h := hconfig .workflow
    rw [show config.limits .workflow = some config.workflow from rfl] at h
    rw [← Option.isSome_map, h]
    rfl
  apply Option.isSome_iff_exists.mp
  unfold checks at hp
  simp only [List.mem_append, List.mem_singleton, List.mem_ite_nil_right, List.mem_map] at hp
  obtain (rfl | ⟨hagent, -, -, rfl⟩) | ⟨hday, rfl⟩ := hp
  · exact hworkflow
  · exact hagent
  · exact hday

section Room

variable [AddCommGroup α] [LinearOrder α]

/-- What is left of a scope's hard limit for a key, floored at 0. -/
def room (manager : BudgetManager α) (p : BudgetScope × String) : α :=
  match manager.scopes p.1 with
  | none => 0
  | some state => max 0 (state.limits.hard - (state.used p.2).getD 0)

/-- The scope whose number the loop keeps: the first that crosses its soft limit, else the last. -/
def Reported (manager : BudgetManager α) (tokens : α) (xs : List (BudgetScope × String))
    (p : BudgetScope × String) : Prop :=
  ∃ pre post, xs = pre ++ p :: post ∧ (∀ q ∈ pre, ¬ Over (·.soft) manager tokens q) ∧
    (Over (·.soft) manager tokens p ∨ post = [])

theorem over_of_active {manager : BudgetManager α} {p : BudgetScope × String}
    {state : ScopeState α} (hstate : manager.scopes p.1 = some state)
    (limit : BudgetLimits α → α) (tokens : α) :
    Over limit manager tokens p ↔ limit state.limits < (state.used p.2).getD 0 + tokens := by
  constructor
  · rintro ⟨state', hstate', h⟩
    obtain rfl := Option.some.inj (hstate.symm.trans hstate')
    exact h
  · exact fun h => ⟨state, hstate, h⟩

/-- Some scope is reported. -/
theorem exists_reported (manager : BudgetManager α) (tokens : α)
    (p : BudgetScope × String) (xs : List (BudgetScope × String)) :
    ∃ q, Reported manager tokens (p :: xs) q := by
  induction xs generalizing p with
  | nil => exact ⟨p, [], [], rfl, by simp, .inr rfl⟩
  | cons q xs ih =>
    by_cases hp : Over (·.soft) manager tokens p
    · exact ⟨p, [], q :: xs, rfl, by simp, .inl hp⟩
    · obtain ⟨r, pre, post, hxs, hpre, hr⟩ := ih q
      refine ⟨r, p :: pre, post, by rw [hxs]; rfl, ?_, hr⟩
      intro s hs
      cases hs with
      | head => exact hp
      | tail _ hs => exact hpre s hs

/-- What fits in the room of a scope that is not over its limit does not exceed the limit. -/
theorem not_over_of_le_room [IsOrderedAddMonoid α] {manager : BudgetManager α}
    {p : BudgetScope × String} {tokens : α} (hzero : ¬ Over (·.hard) manager 0 p)
    (hle : tokens ≤ room manager p) : ¬ Over (·.hard) manager tokens p := by
  rintro ⟨state, hstate, hlt⟩
  rw [over_of_active hstate, add_zero, not_lt] at hzero
  have hroom : room manager p = state.limits.hard - (state.used p.2).getD 0 := by
    unfold room
    rw [hstate]
    exact max_eq_right (sub_nonneg.mpr hzero)
  rw [hroom, le_sub_iff_add_le'] at hle
  exact absurd hlt (not_lt.mpr hle)

theorem room_nonneg (manager : BudgetManager α) (p : BudgetScope × String) :
    0 ≤ room manager p := by
  unfold room
  cases manager.scopes p.1 with
  | none => exact le_refl 0
  | some state => exact le_max_left 0 _

variable [ToString α]

/-- A downshift keeps its number. -/
theorem checkLoop_downshift (manager : BudgetManager α) (tokens : α)
    (xs : List (BudgetScope × String)) (remaining : α) (reason : String)
    (h : (checkLoop manager tokens xs (.downshift remaining reason)).isCutoff = false) :
    (checkLoop manager tokens xs (.downshift remaining reason)).remaining = some remaining := by
  induction xs with
  | nil => rfl
  | cons p xs ih =>
    obtain ⟨scope, key⟩ := p
    unfold checkLoop at h ⊢
    cases hscope : manager.scopes scope with
    | none =>
      simp only [hscope] at h
      exact ih h
    | some state =>
      simp only [hscope, BudgetVerdict.isOk, Bool.false_eq_true, and_false, if_false] at h ⊢
      split at h
      · cases h
      · next hhard =>
        rw [if_neg hhard]
        exact ih h

/-- The number of the reported scope is the one the loop answers with. -/
theorem checkLoop_reported (manager : BudgetManager α) (tokens : α)
    {xs : List (BudgetScope × String)}
    (hactive : ∀ q ∈ xs, ∃ state, manager.scopes q.1 = some state)
    (remaining : Option α) (h : (checkLoop manager tokens xs (.ok remaining)).isCutoff = false)
    {p : BudgetScope × String} (hp : Reported manager tokens xs p) :
    (checkLoop manager tokens xs (.ok remaining)).remaining = some (room manager p) := by
  obtain ⟨pre, post, rfl, hpre, hlast⟩ := hp
  induction pre generalizing remaining with
  | nil =>
    obtain ⟨scope, key⟩ := p
    obtain ⟨state, hstate⟩ := hactive (scope, key) (by simp)
    have hstate' : manager.scopes scope = some state := hstate
    have hroom : room manager (scope, key) =
        max 0 (state.limits.hard - (state.used key).getD 0) := by
      unfold room
      rw [hstate]
    rw [over_of_active hstate] at hlast
    unfold checkLoop at h ⊢
    simp only [List.nil_append, hstate', BudgetVerdict.isOk, and_true] at h ⊢
    split at h
    · cases h
    · next hhard =>
      rw [if_neg hhard, hroom]
      by_cases hsoft : state.limits.soft < (state.used key).getD 0 + tokens
      · simp only [gt_iff_lt, hsoft, if_true, Bool.false_eq_true, if_false] at h ⊢
        exact checkLoop_downshift manager tokens post _ _ h
      · obtain rfl := hlast.resolve_left hsoft
        simp only [gt_iff_lt, hsoft, if_false, if_true]
        rfl
  | cons q pre ih =>
    obtain ⟨scope, key⟩ := q
    obtain ⟨state, hstate⟩ := hactive (scope, key) (by simp)
    have hstate' : manager.scopes scope = some state := hstate
    have hsoft := hpre (scope, key) (by simp)
    rw [over_of_active hstate] at hsoft
    rw [List.cons_append] at h ⊢
    unfold checkLoop at h ⊢
    simp only [hstate', BudgetVerdict.isOk, and_true, gt_iff_lt, hsoft, if_false, if_true] at h ⊢
    split at h
    · cases h
    · next hhard =>
      rw [if_neg hhard]
      exact ih _ (fun q hq => hactive q (List.mem_cons_of_mem _ hq)) h
        fun q hq => hpre q (List.mem_cons_of_mem _ hq)

/-- The number in an answer that is no cutoff is the least room of the examined scopes, and no
    check of at most that many tokens cuts off. -/
def Spendable (manager : BudgetManager α) (input : BudgetInput α) (today : String) : Prop :=
  (manager.check input today).isCutoff = false →
    ∃ remaining, (manager.check input today).remaining = some remaining ∧
      IsLeast {x | ∃ p ∈ checks manager input today, room manager p = x} remaining ∧
      ∀ tokens ≤ remaining, (manager.check { input with tokens := tokens } today).isCutoff = false

theorem check_cutoff_iff (manager : BudgetManager α) (input : BudgetInput α) (today : String) :
    (manager.check input today).isCutoff = true ↔
      ∃ p ∈ checks manager input today, Over (·.hard) manager input.tokens p :=
  (checkLoop_spec manager input.tokens (checks manager input today) (.ok none) rfl).1

/-- The number reported by a check can be spent exactly when the scope it is taken from has the
    least room and none of the examined scopes is over its hard limit already. -/
theorem remaining_iff [IsOrderedAddMonoid α] (config : BudgetConfig α) (ops : List (Op α))
    (input : BudgetInput α) (today : String) :
    Spendable (run (create config) ops) input today ↔
      (∃ p ∈ checks (run (create config) ops) input today,
        Over (·.hard) (run (create config) ops) input.tokens p) ∨
      (∃ p, Reported (run (create config) ops) input.tokens
          (checks (run (create config) ops) input today) p ∧
        ∀ q ∈ checks (run (create config) ops) input today,
          room (run (create config) ops) p ≤ room (run (create config) ops) q) ∧
        ∀ q ∈ checks (run (create config) ops) input today,
          ¬ Over (·.hard) (run (create config) ops) 0 q := by
  have hactive := fun q => checks_active (configured_run config ops) input today (p := q)
  generalize run (create config) ops = manager at hactive ⊢
  have hreported := checkLoop_reported manager input.tokens hactive none
  rw [← check_cutoff_iff]
  constructor
  · intro h
    by_cases hcut : (manager.check input today).isCutoff = true
    · exact .inl hcut
    · rw [Bool.not_eq_true] at hcut
      obtain ⟨remaining, hremaining, hleast, hspend⟩ := h hcut
      obtain ⟨p, hp⟩ : ∃ p, Reported manager input.tokens (checks manager input today) p :=
        exists_reported manager input.tokens _ _
      have hroom : room manager p = remaining :=
        Option.some.inj ((hreported hcut hp).symm.trans hremaining)
      refine .inr ⟨⟨p, hp, ?_⟩, ?_⟩
      · intro q hq
        rw [hroom]
        exact hleast.2 ⟨q, hq, rfl⟩
      · intro q hq hover
        have hzero := hspend 0 (hroom ▸ room_nonneg manager p)
        have hcut' := (check_cutoff_iff manager { input with tokens := 0 } today).mpr ⟨q, hq, hover⟩
        exact absurd hcut' (by rw [hzero]; exact Bool.false_ne_true)
  · intro h hcut
    obtain ⟨⟨p, hp, hle⟩, hzero⟩ := h.resolve_left (by rw [hcut]; exact Bool.false_ne_true)
    obtain ⟨pre, post, hchecks, -⟩ := id hp
    have hmem : p ∈ checks manager input today := by rw [hchecks]; simp
    refine ⟨room manager p, hreported hcut hp, ⟨⟨p, hmem, rfl⟩, ?_⟩, ?_⟩
    · rintro x ⟨q, hq, rfl⟩
      exact hle q hq
    · intro tokens htokens
      rw [← Bool.not_eq_true, check_cutoff_iff]
      rintro ⟨q, hq, hover⟩
      exact not_over_of_le_room (hzero q hq) (htokens.trans (hle q hq)) hover

end Room

/-- Five tokens a workflow and a hundred a day. -/
def tightWorkflow : BudgetConfig ℚ where
  agent := none
  workflow := { hard := 5, soft := 5 }
  day := some { hard := 100, soft := 100 }

def oneToken : BudgetInput ℚ where
  tokens := 1
  workflowId := "w"
  agentId := none
  day := none

theorem remaining_iff_tightWorkflow :
    Spendable (run (create tightWorkflow) []) oneToken "d" ↔
      (∃ p ∈ checks (run (create tightWorkflow) []) oneToken "d",
        Over (·.hard) (run (create tightWorkflow) []) oneToken.tokens p) ∨
      (∃ p, Reported (run (create tightWorkflow) []) oneToken.tokens
          (checks (run (create tightWorkflow) []) oneToken "d") p ∧
        ∀ q ∈ checks (run (create tightWorkflow) []) oneToken "d",
          room (run (create tightWorkflow) []) p ≤ room (run (create tightWorkflow) []) q) ∧
        ∀ q ∈ checks (run (create tightWorkflow) []) oneToken "d",
          ¬ Over (·.hard) (run (create tightWorkflow) []) 0 q :=
  remaining_iff tightWorkflow [] oneToken "d"

/-- The workflow has five tokens left; the check answers with the hundred of the day, and a check
    of these cuts off. -/
theorem remaining_counterexample :
    ((create tightWorkflow).check oneToken "d").isOk = true ∧
      ((create tightWorkflow).check oneToken "d").remaining = some 100 ∧
      room (create tightWorkflow) (.workflow, "w") = 5 ∧
      ((create tightWorkflow).check { oneToken with tokens := 100 } "d").isCutoff = true ∧
      ¬ Spendable (create tightWorkflow) oneToken "d" := by
  have hremaining : ((create tightWorkflow).check oneToken "d").remaining = some 100 := by
    decide +kernel
  have hcut :
      ((create tightWorkflow).check { oneToken with tokens := 100 } "d").isCutoff = true := by
    decide +kernel
  refine ⟨by decide +kernel, hremaining, by decide +kernel, hcut, ?_⟩
  intro h
  obtain ⟨remaining, hr, -, hspend⟩ := h (by decide +kernel)
  obtain rfl := Option.some.inj (hremaining.symm.trans hr)
  exact absurd hcut (by rw [hspend 100 (le_refl 100)]; exact Bool.false_ne_true)

end BudgetManager

end Harp
