import Mathlib.Logic.Basic
import Mathlib.Tactic.Common

/-
  Programs that suspend at operations.

  A `Prog Op Res α` either has finished with a value or performs an operation `o` and
  continues with its answer in `Res o`. A handler answers operations against a state;
  `run` is a whole run under a handler and `trace` lists what was performed and answered.
  `interp` replaces each operation by a program over other operations, and `run_interp`
  says that this is the same as handling the operation by running that program.

  `Meets P A Q p` bounds the operations `p` performs and the value it returns, as long as its
  operations are answered as assumed. `Related R A V p q` compares two programs in the same
  way: they perform related operations in step and return related values.
-/

/-- A program over the operations `Op`, where `o` is answered by a value of `Res o`. -/
inductive Prog (Op : Type) (Res : Op → Type) (α : Type) : Type
  | ret (a : α)
  | call (o : Op) (k : Res o → Prog Op Res α)

/-- Answers every operation against a state. -/
abbrev Handler (Op : Type) (Res : Op → Type) (σ : Type) := (o : Op) → σ → Res o × σ

namespace Prog

section Monad

variable {Op : Type} {Res : Op → Type} {α β : Type}

protected def bind : Prog Op Res α → (α → Prog Op Res β) → Prog Op Res β
  | ret a, f => f a
  | call o k, f => call o fun r => (k r).bind f

instance : Monad (Prog Op Res) where
  pure := ret
  bind := Prog.bind

/-- The program that performs `o` and returns its answer. -/
def perform (o : Op) : Prog Op Res (Res o) := call o ret

@[simp] theorem ret_bind (a : α) (f : α → Prog Op Res β) : (ret a >>= f) = f a := rfl

@[simp] theorem call_bind (o : Op) (k : Res o → Prog Op Res α) (f : α → Prog Op Res β) :
    (call o k >>= f) = call o fun r => k r >>= f := rfl

theorem pure_eq_ret (a : α) : (pure a : Prog Op Res α) = ret a := rfl

theorem bind_ret (p : Prog Op Res α) : (p >>= ret) = p := by
  induction p with
  | ret a => rfl
  | call o k ih => rw [call_bind]; exact congrArg (call o) (funext ih)

theorem bind_assoc' {γ : Type} (p : Prog Op Res α) (f : α → Prog Op Res β)
    (g : β → Prog Op Res γ) : ((p >>= f) >>= g) = (p >>= fun a => f a >>= g) := by
  induction p with
  | ret a => rfl
  | call o k ih => simp only [call_bind, ih]

instance : LawfulMonad (Prog Op Res) :=
  LawfulMonad.mk' _ bind_ret (fun _ _ => rfl) bind_assoc'

@[simp] theorem perform_bind (o : Op) (f : Res o → Prog Op Res β) :
    (perform o >>= f) = call o f := rfl

end Monad

/-! ## Runs -/

section Run

variable {Op : Type} {Res : Op → Type} {σ α β : Type} (h : Handler Op Res σ)

/-- Runs a program to its end, threading the handler's state. -/
def run : Prog Op Res α → σ → α × σ
  | ret a, s => (a, s)
  | call o k, s => run (k (h o s).1) (h o s).2

/-- The operations a run performs, each with its answer, in order. -/
def trace : Prog Op Res α → σ → List ((o : Op) × Res o)
  | ret _, _ => []
  | call o k, s => ⟨o, (h o s).1⟩ :: trace (k (h o s).1) (h o s).2

@[simp] theorem run_ret (a : α) (s : σ) : run h (ret a) s = (a, s) := rfl

@[simp] theorem run_pure (a : α) (s : σ) : run h (pure a) s = (a, s) := rfl

@[simp] theorem run_call (o : Op) (k : Res o → Prog Op Res α) (s : σ) :
    run h (call o k) s = run h (k (h o s).1) (h o s).2 := rfl

@[simp] theorem run_perform (o : Op) (s : σ) : run h (perform o) s = h o s := rfl

@[simp] theorem run_bind (p : Prog Op Res α) (f : α → Prog Op Res β) (s : σ) :
    run h (p >>= f) s = run h (f (run h p s).1) (run h p s).2 := by
  induction p generalizing s with
  | ret a => rfl
  | call o k ih => exact ih _ _

@[simp] theorem trace_ret (a : α) (s : σ) : trace h (ret a) s = [] := rfl

@[simp] theorem trace_pure (a : α) (s : σ) : trace h (pure a) s = [] := rfl

@[simp] theorem trace_call (o : Op) (k : Res o → Prog Op Res α) (s : σ) :
    trace h (call o k) s = ⟨o, (h o s).1⟩ :: trace h (k (h o s).1) (h o s).2 := rfl

@[simp] theorem trace_perform (o : Op) (s : σ) :
    trace h (perform o) s = [⟨o, (h o s).1⟩] := rfl

@[simp] theorem trace_bind (p : Prog Op Res α) (f : α → Prog Op Res β) (s : σ) :
    trace h (p >>= f) s = trace h p s ++ trace h (f (run h p s).1) (run h p s).2 := by
  induction p generalizing s with
  | ret a => rfl
  | call o k ih => exact congrArg (⟨o, (h o s).1⟩ :: ·) (ih _ _)

/-- When one handler is the image of another under a map of states, so are its runs. -/
theorem run_map {τ : Type} {h' : Handler Op Res τ} (f : σ → τ)
    (hf : ∀ o s, h' o (f s) = ((h o s).1, f (h o s).2)) (p : Prog Op Res α) (s : σ) :
    run h' p (f s) = ((run h p s).1, f (run h p s).2) := by
  induction p generalizing s with
  | ret a => rfl
  | call o k ih => rw [run_call, run_call, hf, ih]

theorem trace_map {τ : Type} {h' : Handler Op Res τ} (f : σ → τ)
    (hf : ∀ o s, h' o (f s) = ((h o s).1, f (h o s).2)) (p : Prog Op Res α) (s : σ) :
    trace h' p (f s) = trace h p s := by
  induction p generalizing s with
  | ret a => rfl
  | call o k ih => rw [trace_call, trace_call, hf, ih]

end Run

/-! ## Interpreting operations by programs -/

section Interp

variable {Op Op' : Type} {Res : Op → Type} {Res' : Op' → Type} {σ α β : Type}

/-- Replaces each operation by a program over other operations. -/
def interp (g : (o : Op) → Prog Op' Res' (Res o)) : Prog Op Res α → Prog Op' Res' α
  | ret a => ret a
  | call o k => g o >>= fun r => interp g (k r)

@[simp] theorem interp_ret (g : (o : Op) → Prog Op' Res' (Res o)) (a : α) :
    interp g (ret a) = ret a := rfl

@[simp] theorem interp_call (g : (o : Op) → Prog Op' Res' (Res o)) (o : Op)
    (k : Res o → Prog Op Res α) : interp g (call o k) = g o >>= fun r => interp g (k r) := rfl

/-- Running an interpreted program is running the program under the handler that answers an
    operation by running its interpretation. -/
theorem run_interp (h : Handler Op' Res' σ) (g : (o : Op) → Prog Op' Res' (Res o))
    (p : Prog Op Res α) (s : σ) :
    run h (interp g p) s = run (fun o => run h (g o)) p s := by
  induction p generalizing s with
  | ret a => rfl
  | call o k ih => simp only [interp_call, run_bind, run_call, ih]

end Interp

/-! ## What a program may do -/

section Meets

variable {Op Op' : Type} {Res : Op → Type} {Res' : Op' → Type} {α β : Type}

/-- As long as answers satisfy `A`, `p` performs operations of `P` only, and it returns a value
    of `Q`. -/
def Meets (P : Op → Prop) (A : (o : Op) → Res o → Prop) (Q : α → Prop) : Prog Op Res α → Prop
  | ret a => Q a
  | call o k => P o ∧ ∀ r, A o r → Meets P A Q (k r)

variable {P : Op → Prop} {A : (o : Op) → Res o → Prop} {Q R : α → Prop}

@[simp] theorem meets_ret (a : α) : Meets P A Q (ret a : Prog Op Res α) ↔ Q a := Iff.rfl

@[simp] theorem meets_pure (a : α) : Meets P A Q (pure a : Prog Op Res α) ↔ Q a := Iff.rfl

@[simp] theorem meets_call (o : Op) (k : Res o → Prog Op Res α) :
    Meets P A Q (call o k) ↔ P o ∧ ∀ r, A o r → Meets P A Q (k r) := Iff.rfl

theorem meets_perform {o : Op} {S : Res o → Prop} (ho : P o) (hr : ∀ r, A o r → S r) :
    Meets P A S (perform o : Prog Op Res _) := ⟨ho, hr⟩

theorem Meets.mono {p : Prog Op Res α} (hp : Meets P A Q p) (h : ∀ a, Q a → R a) :
    Meets P A R p := by
  induction p with
  | ret a => exact h a hp
  | call o k ih => exact ⟨hp.1, fun r hr => ih r (hp.2 r hr)⟩

theorem Meets.weaken {P' : Op → Prop} {p : Prog Op Res α} (hp : Meets P A Q p)
    (h : ∀ o, P o → P' o) : Meets P' A Q p := by
  induction p with
  | ret a => exact hp
  | call o k ih => exact ⟨h o hp.1, fun r hr => ih r (hp.2 r hr)⟩

/-- What holds on fewer assumptions. -/
theorem Meets.assuming {A' : (o : Op) → Res o → Prop} {p : Prog Op Res α} (hp : Meets P A Q p)
    (h : ∀ o r, A' o r → A o r) : Meets P A' Q p := by
  induction p with
  | ret a => exact hp
  | call o k ih => exact ⟨hp.1, fun r hr => ih r (hp.2 r (h o r hr))⟩

/-- The rule of sequencing. -/
theorem Meets.bind {S : β → Prop} {p : Prog Op Res α} {f : α → Prog Op Res β}
    (hp : Meets P A Q p) (hf : ∀ a, Q a → Meets P A S (f a)) : Meets P A S (p >>= f) := by
  induction p with
  | ret a => exact hf a hp
  | call o k ih => exact ⟨hp.1, fun r hr => ih r (hp.2 r hr)⟩

/-- The rule of interpretation: what an operation is assumed to answer, its interpretation
    must return. -/
theorem Meets.interp {P' : Op' → Prop} {A' : (o : Op') → Res' o → Prop}
    {g : (o : Op) → Prog Op' Res' (Res o)} {p : Prog Op Res α}
    (hg : ∀ o, P o → Meets P' A' (A o) (g o)) (hp : Meets P A Q p) :
    Meets P' A' Q (interp g p) := by
  induction p with
  | ret a => exact hp
  | call o k ih => exact (hg o hp.1).bind fun r hr => ih r (hp.2 r hr)

/-- The rule of invariants: what the operations of `P` keep, a run that performs no others
    keeps. -/
theorem Meets.keeps {σ : Type} {h : Handler Op Res σ} {I : σ → Prop}
    (hI : ∀ o s, P o → I s → I (h o s).2) {p : Prog Op Res α}
    (hp : Meets P (fun _ _ => True) Q p) {s : σ} (hs : I s) : I (run h p s).2 := by
  induction p generalizing s with
  | ret a => exact hs
  | call o k ih => exact ih _ (hp.2 _ trivial) (hI o s hp.1 hs)

/-- The rule of runs: where all answers are as assumed, a run returns a value of `Q`. -/
theorem Meets.returns {σ : Type} {h : Handler Op Res σ} (hA : ∀ o s, A o (h o s).1)
    {p : Prog Op Res α} (hp : Meets P A Q p) (s : σ) : Q (run h p s).1 := by
  induction p generalizing s with
  | ret a => exact hp
  | call o k ih => exact ih _ (hp.2 _ (hA o s)) _

/-- Handlers that agree on the operations of `P` run a program alike that performs no others. -/
theorem Meets.run_congr {σ : Type} {h h' : Handler Op Res σ} (hh : ∀ o s, P o → h o s = h' o s)
    {p : Prog Op Res α} (hp : Meets P (fun _ _ => True) Q p) (s : σ) : run h p s = run h' p s := by
  induction p generalizing s with
  | ret a => rfl
  | call o k ih =>
    rw [run_call, run_call, hh o s hp.1]
    exact ih _ (hp.2 _ trivial) _

/-- What every operation keeps, every run keeps. -/
theorem run_keeps {σ : Type} {h : Handler Op Res σ} {I : σ → Prop}
    (hI : ∀ o s, I s → I (h o s).2) (p : Prog Op Res α) {s : σ} (hs : I s) : I (run h p s).2 := by
  induction p generalizing s with
  | ret a => exact hs
  | call o k ih => exact ih _ (hI o s hs)

end Meets

/-! ## Two programs in step -/

section Related

variable {Op Op' : Type} {Res : Op → Type} {Res' : Op' → Type} {α β α' β' : Type}

/-- As long as related operations get related answers, `p` and `q` perform operations related by
    `R` in the same order, and they return values related by `V`. -/
def Related (R : Op → Op → Prop) (A : (o o' : Op) → Res o → Res o' → Prop) (V : α → β → Prop) :
    Prog Op Res α → Prog Op Res β → Prop
  | ret a, ret b => V a b
  | call o k, call o' k' => R o o' ∧ ∀ r r', A o o' r r' → Related R A V (k r) (k' r')
  | _, _ => False

variable {R : Op → Op → Prop} {A : (o o' : Op) → Res o → Res o' → Prop} {V : α → β → Prop}

@[simp] theorem related_ret (a : α) (b : β) :
    Related R A V (ret a : Prog Op Res α) (ret b) ↔ V a b := Iff.rfl

@[simp] theorem related_pure (a : α) (b : β) :
    Related R A V (pure a : Prog Op Res α) (pure b) ↔ V a b := Iff.rfl

@[simp] theorem related_call (o o' : Op) (k : Res o → Prog Op Res α)
    (k' : Res o' → Prog Op Res β) :
    Related R A V (call o k) (call o' k') ↔
      R o o' ∧ ∀ r r', A o o' r r' → Related R A V (k r) (k' r') := Iff.rfl

theorem related_perform {o o' : Op} {S : Res o → Res o' → Prop} (ho : R o o')
    (hr : ∀ r r', A o o' r r' → S r r') :
    Related R A S (perform o : Prog Op Res _) (perform o') := ⟨ho, hr⟩

/-- The rule of sequencing for two programs. -/
theorem Related.bind {S : α' → β' → Prop} {p : Prog Op Res α} {q : Prog Op Res β}
    {f : α → Prog Op Res α'} {g : β → Prog Op Res β'} (hp : Related R A V p q)
    (hf : ∀ a b, V a b → Related R A S (f a) (g b)) : Related R A S (p >>= f) (q >>= g) := by
  induction p generalizing q with
  | ret a =>
    cases q with
    | ret b => exact hf a b hp
    | call o' k' => exact hp.elim
  | call o k ih =>
    cases q with
    | ret b => exact hp.elim
    | call o' k' => exact ⟨hp.1, fun r r' hr => ih r (hp.2 r r' hr)⟩

/-- The rule of interpretation for two programs. -/
theorem Related.interp {R' : Op' → Op' → Prop} {A' : (o o' : Op') → Res' o → Res' o' → Prop}
    {g : (o : Op) → Prog Op' Res' (Res o)} {p : Prog Op Res α} {q : Prog Op Res β}
    (hg : ∀ o o', R o o' → Related R' A' (A o o') (g o) (g o')) (hp : Related R A V p q) :
    Related R' A' V (interp g p) (interp g q) := by
  induction p generalizing q with
  | ret a =>
    cases q with
    | ret b => exact hp
    | call o' k' => exact hp.elim
  | call o k ih =>
    cases q with
    | ret b => exact hp.elim
    | call o' k' => exact (hg o o' hp.1).bind fun r r' hr => ih r (hp.2 r r' hr)

/-- The rule of two whole runs: handlers that answer related operations alike, and keep the
    relation `S` of their states, take related programs to related ends, and what they perform
    and answer is related step by step. -/
theorem Related.runs {σ τ : Type} {S : σ → τ → Prop} {h : Handler Op Res σ}
    {h' : Handler Op Res τ}
    (hS : ∀ o o' s t, R o o' → S s t → A o o' (h o s).1 (h' o' t).1 ∧ S (h o s).2 (h' o' t).2)
    {p : Prog Op Res α} {q : Prog Op Res β} (hpq : Related R A V p q) {s : σ} {t : τ}
    (hst : S s t) :
    V (run h p s).1 (run h' q t).1 ∧ S (run h p s).2 (run h' q t).2 ∧
      List.Forall₂ (fun x y => R x.1 y.1 ∧ A x.1 y.1 x.2 y.2) (trace h p s) (trace h' q t) := by
  induction p generalizing q s t with
  | ret a =>
    cases q with
    | ret b => exact ⟨hpq, hst, .nil⟩
    | call o' k' => exact hpq.elim
  | call o k ih =>
    cases q with
    | ret b => exact hpq.elim
    | call o' k' =>
      obtain ⟨hans, hst'⟩ := hS o o' s t hpq.1 hst
      obtain ⟨hval, hend, htrace⟩ := ih _ (hpq.2 _ _ hans) hst'
      exact ⟨hval, hend, .cons ⟨hpq.1, hans⟩ htrace⟩

/-- What the first program may do can be asked of the related operations as well. -/
theorem Related.and_meets {P : Op → Prop} {Q : α → Prop} {p : Prog Op Res α} {q : Prog Op Res β}
    (hpq : Related R A V p q) (hp : Meets P (fun _ _ => True) Q p) :
    Related (fun o o' => R o o' ∧ P o) A V p q := by
  induction p generalizing q with
  | ret a =>
    cases q with
    | ret b => exact hpq
    | call o' k' => exact hpq.elim
  | call o k ih =>
    cases q with
    | ret b => exact hpq.elim
    | call o' k' =>
      exact ⟨⟨hpq.1, hp.1⟩, fun r r' hr => ih r (hpq.2 r r' hr) (hp.2 r trivial)⟩

end Related

end Prog
