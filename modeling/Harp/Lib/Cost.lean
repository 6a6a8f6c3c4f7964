import Harp.Lib.Pool

/-
  What programs spend.

  Each operation has a cost. `Within cost A Q p n` bounds the cost of what `p` performs by `n`, and
  the value it returns by `Q`, as long as its operations are answered as `A` assumes. The rules are
  those of `Meets`: a sequence costs the sum of its parts, and a program over operations that are
  interpreted costs what the interpretations of its operations cost.

  In a pool the bound holds for each thread and every schedule (`Pool.spent_le`). If every operation
  costs one, a thread that was given as many steps as its bound has returned (`Pool.finishes`).
-/

namespace Prog

variable {Op Op' : Type} {Res : Op → Type} {Res' : Op' → Type} {α β : Type}

def Within (cost : Op → ℕ) (A : (o : Op) → Res o → Prop) (Q : α → Prop) :
    Prog Op Res α → ℕ → Prop
  | ret a, _ => Q a
  | call o k, n => cost o ≤ n ∧ ∀ r, A o r → Within cost A Q (k r) (n - cost o)

/-- The cost of what was performed. -/
def spent (cost : Op → ℕ) : List ((o : Op) × Res o) → ℕ
  | [] => 0
  | x :: tr => cost x.1 + spent cost tr

theorem spent_one (tr : List ((o : Op) × Res o)) : spent (fun _ => 1) tr = tr.length := by
  induction tr with
  | nil => rfl
  | cons x tr ih => rw [spent, ih, List.length_cons, Nat.add_comm]

section Rules

variable {cost : Op → ℕ} {A : (o : Op) → Res o → Prop} {Q : α → Prop} {R : β → Prop} {n m : ℕ}

theorem Within.call {o : Op} {k : Res o → Prog Op Res α}
    (h : ∀ r, A o r → Within cost A Q (k r) n) : Within cost A Q (call o k) (cost o + n) := by
  refine ⟨Nat.le_add_right _ _, fun r hr => ?_⟩
  rw [Nat.add_sub_cancel_left]
  exact h r hr

/-- The last operation. -/
theorem Within.last {o : Op} {f : Res o → α} (ho : cost o ≤ n) (h : ∀ r, A o r → Q (f r)) :
    Within cost A Q (Prog.call o fun r => ret (f r)) n := ⟨ho, h⟩

theorem Within.mono {p : Prog Op Res α} (h : Within cost A Q p n) (hnm : n ≤ m) :
    Within cost A Q p m := by
  induction p generalizing n m with
  | ret a => exact h
  | call o k ih =>
    exact ⟨Nat.le_trans h.1 hnm, fun r hr => ih r (h.2 r hr) (Nat.sub_le_sub_right hnm _)⟩

/-- The rule of sequencing. -/
theorem Within.bind {p : Prog Op Res α} {f : α → Prog Op Res β} (hp : Within cost A Q p n)
    (hf : ∀ a, Q a → Within cost A R (f a) m) : Within cost A R (p >>= f) (n + m) := by
  induction p generalizing n with
  | ret a => exact (hf a hp).mono (Nat.le_add_left _ _)
  | call o k ih =>
    refine ⟨Nat.le_trans hp.1 (Nat.le_add_right _ _), fun r hr => ?_⟩
    have hrest : n + m - cost o = n - cost o + m := by
      have hcost : cost o ≤ n := hp.1
      omega
    rw [hrest]
    exact ih r (hp.2 r hr)

/-- The rule of interpretation. -/
theorem Within.interp {cost' : Op' → ℕ} {A' : (o : Op') → Res' o → Prop}
    {g : (o : Op) → Prog Op' Res' (Res o)} {p : Prog Op Res α}
    (hg : ∀ o, Within cost' A' (A o) (g o) (cost o)) (hp : Within cost A Q p n) :
    Within cost' A' Q (interp g p) n := by
  induction p generalizing n with
  | ret a => exact hp
  | call o k ih =>
    have hsum : cost o + (n - cost o) = n := Nat.add_sub_cancel' hp.1
    rw [interp_call, ← hsum]
    exact (hg o).bind fun r hr => ih r (hp.2 r hr)

/-- Along a path the bound shrinks by what was spent. -/
theorem Within.along {p q : Prog Op Res α} {tr : List ((o : Op) × Res o)}
    (h : Within cost A Q p n) (hp : Path p tr q) (hA : ∀ x ∈ tr, A x.1 x.2) :
    spent cost tr ≤ n ∧ Within cost A Q q (n - spent cost tr) := by
  induction hp generalizing n with
  | nil p => exact ⟨Nat.zero_le n, h⟩
  | @call o k r tr q _ ih =>
    obtain ⟨hr, hrest⟩ := List.forall_mem_cons.mp hA
    obtain ⟨hle, hq⟩ := ih (h.2 r hr) hrest
    have hcost : cost o ≤ n := h.1
    refine ⟨by rw [spent]; dsimp only; omega, ?_⟩
    rw [spent, Nat.sub_add_eq]
    exact hq

end Rules

end Prog

namespace Pool

open Prog

variable {Op : Type} {Res : Op → Type} {α σ δ ι : Type} [DecidableEq ι]
variable (h : δ → Handler Op Res σ)

/-- What every operation keeps of the state, every schedule keeps. -/
theorem state_keeps {I : σ → Prop} (hI : ∀ d o s, I s → I (h d o s).2) (xs : List (ι × δ))
    {p : Pool ι Op Res α σ} (hp : I p.state) : I (run h xs p).state := by
  induction xs generalizing p with
  | nil => exact hp
  | cons x xs ih =>
    refine ih (p := step h p x) ?_
    unfold step
    cases p.threads x.1 with
    | ret a => exact hp
    | call o k => exact hI x.2 o p.state hp

variable {I : σ → Prop} {cost : Op → ℕ} {A : (o : Op) → Res o → Prop} {Q : α → Prop} {n : ℕ}
  {p : Pool ι Op Res α σ} {i : ι}

section

variable (hI : ∀ d o s, I s → I (h d o s).2) (hA : ∀ d o s, I s → A o (h d o s).1)
  (hs : I p.state)
include hI hA hs

/-- What holds of every answer under the invariant holds of the answers of a trace. -/
theorem answers_under (xs : List (ι × δ)) : ∀ y ∈ trace h xs p, A y.2.1 y.2.2 := by
  intro y hy
  obtain ⟨pre, d, -, hanswer⟩ := exists_moment h hy
  rw [hanswer]
  exact hA d y.2.1 _ (state_keeps h hI pre hs)

/-- Where the thread is after the schedule, and what it has spent. -/
theorem within_along (hp : Within cost A Q (p.threads i) n) (xs : List (ι × δ)) :
    spent cost (own i (trace h xs p)) ≤ n ∧
      Within cost A Q ((run h xs p).threads i) (n - spent cost (own i (trace h xs p))) :=
  hp.along (path h i xs p) fun _ hx => answers_under h hI hA hs xs _ (mem_of_own hx)

theorem spent_le (hp : Within cost A Q (p.threads i) n) (xs : List (ι × δ)) :
    spent cost (own i (trace h xs p)) ≤ n := (within_along h hI hA hs hp xs).1

/-- A thread that gets as many steps as its bound allows has returned. -/
theorem finishes (hp : Within (fun _ => 1) A Q (p.threads i) n) (xs : List (ι × δ))
    (hsteps : n ≤ (drawsOf i xs).length) : ∃ a, (run h xs p).threads i = ret a ∧ Q a := by
  obtain ⟨hspent, hend⟩ := within_along h hI hA hs hp xs
  rw [spent_one] at hspent hend
  rcases finished_or_length h i xs p with ⟨a, ha⟩ | hlen
  · rw [ha] at hend
    exact ⟨a, ha, hend⟩
  · cases hq : (run h xs p).threads i with
    | ret a =>
      rw [hq] at hend
      exact ⟨a, rfl, hend⟩
    | call o k =>
      rw [hq] at hend
      have hleft : 1 ≤ n - (own i (trace h xs p)).length := hend.1
      omega

end

end Pool
