import Harp.Lib.Pool
import Mathlib.Data.List.Induction

/-
  Programs that keep to a protocol.

  A protocol is an automaton over operations: `next s o` is the state after `o`, if `o` may be
  performed in `s`. `Conforms next final s p` says that `p`, started in `s`, performs only what may
  be performed, whatever it is answered, and that it returns a value that the state it has come to
  admits.
-/

namespace Prog

variable {Op : Type} {Res : Op → Type} {α β τ : Type}

def Conforms (next : τ → Op → Option τ) (final : τ → α → Prop) : τ → Prog Op Res α → Prop
  | s, ret a => final s a
  | s, call o k => ∃ t, next s o = some t ∧ ∀ r, Conforms next final t (k r)

variable {next : τ → Op → Option τ} {final : τ → α → Prop} {s t : τ}

theorem Conforms.call {o : Op} {k : Res o → Prog Op Res α} (ho : next s o = some t)
    (hk : ∀ r, Conforms next final t (k r)) : Conforms next final s (Prog.call o k) :=
  ⟨t, ho, hk⟩

/-- The rule of sequencing: the second part goes on from the state the first one has come to. -/
theorem Conforms.bind {final' : τ → β → Prop} {p : Prog Op Res α} {f : α → Prog Op Res β}
    (hp : Conforms next final s p) (hf : ∀ t a, final t a → Conforms next final' t (f a)) :
    Conforms next final' s (p >>= f) := by
  induction p generalizing s with
  | ret a => exact hf s a hp
  | call o k ih =>
    obtain ⟨t, ho, hk⟩ := hp
    exact ⟨t, ho, fun r => ih r (hk r)⟩

theorem Conforms.mono {final' : τ → α → Prop} {p : Prog Op Res α}
    (hp : Conforms next final s p) (h : ∀ t a, final t a → final' t a) :
    Conforms next final' s p := by
  induction p generalizing s with
  | ret a => exact h s a hp
  | call o k ih =>
    obtain ⟨t, ho, hk⟩ := hp
    exact ⟨t, ho, fun r => ih r (hk r)⟩

end Prog

namespace Pool

open Prog

variable {Op : Type} {Res : Op → Type} {α σ δ ι τ γ : Type}

/-- Where the cells are, what may be done to one, what a thread may return, and what a cell shows
    of its owner. -/
structure Protocol (ι Op α σ τ γ : Type) where
  cells : σ → List γ
  next : ℕ → τ → Op → Option τ
  final : ι → τ → α → Prop
  Shows : ι → τ → γ → Prop

variable (P : Protocol ι Op α σ τ γ) (h : δ → Handler Op Res σ)

/-- What the protocol allows changes one cell only, and as it should. -/
def Protocol.Kept : Prop := ∀ k s o t d w, P.next k s o = some t →
  ∃ g, P.cells (h d o w).2 = (P.cells w).modify k g ∧
    ∀ i cell, P.Shows i s cell → P.Shows i t (g cell)

/-- The thread first allocates a cell, and then keeps to the protocol. -/
def Protocol.Opens (s : τ) (i : ι) : Prog Op Res α → Prop
  | ret _ => False
  | call o k => ∀ d w, ∃ cell, P.cells (h d o w).2 = P.cells w ++ [cell] ∧ P.Shows i s cell ∧
      Conforms (P.next (P.cells w).length) (P.final i) s (k (h d o w).1)

variable {P h}

/-- `cellOf` tells which cell a thread owns, of those allocated since `p₀`. -/
structure Owned (P : Protocol ι Op α σ τ γ) (p₀ p : Pool ι Op Res α σ) (cellOf : ι → Option ℕ) :
    Prop where
  waits : ∀ i, cellOf i = none → p.threads i = p₀.threads i
  owns : ∀ i k, cellOf i = some k → ∃ s cell, (P.cells p.state)[k]? = some cell ∧
    P.Shows i s cell ∧ Conforms (P.next k) (P.final i) s (p.threads i)
  fresh : ∀ i k, cellOf i = some k → (P.cells p₀.state).length ≤ k
  once : ∀ i j k, cellOf i = some k → cellOf j = some k → i = j
  grows : (P.cells p₀.state).length ≤ (P.cells p.state).length
  others : ∀ k, (∀ i, cellOf i ≠ some k) → (P.cells p.state)[k]? = (P.cells p₀.state)[k]?

variable {p₀ p : Pool ι Op Res α σ} {cellOf : ι → Option ℕ}

theorem owned_start (p₀ : Pool ι Op Res α σ) : Owned P p₀ p₀ fun _ => none where
  waits _ _ := rfl
  owns _ _ hk := nomatch hk
  fresh _ _ hk := nomatch hk
  once _ _ _ hk := nomatch hk
  grows := Nat.le_refl _
  others _ _ := rfl

/-- A cell that is owned is there. -/
theorem Owned.lt_length (ho : Owned P p₀ p cellOf) {i : ι} {k : ℕ} (hk : cellOf i = some k) :
    k < (P.cells p.state).length := by
  obtain ⟨s, cell, hcell, -⟩ := ho.owns i k hk
  exact (List.getElem?_eq_some_iff.mp hcell).1

variable [DecidableEq ι]

/-- A step of a thread that has no cell yet allocates the next one for it. -/
theorem Owned.allocate (ho : Owned P p₀ p cellOf) {s : τ} (x : ι × δ) (hnone : cellOf x.1 = none)
    (hopens : P.Opens h s x.1 (p₀.threads x.1)) :
    Owned P p₀ (step h p x)
      (Function.update cellOf x.1 (some (P.cells p.state).length)) := by
  obtain ⟨i, d⟩ := x
  cases hp : p₀.threads i with
  | ret a =>
    rw [hp] at hopens
    exact hopens.elim
  | call o k =>
    rw [hp] at hopens
    obtain ⟨cell, hcells, hshows, hconf⟩ := hopens d p.state
    have hthread : p.threads i = call o k := (ho.waits i hnone).trans hp
    have hstate : P.cells (step h p (i, d)).state = P.cells p.state ++ [cell] := by
      rw [step, hthread]
      exact hcells
    have hself : (step h p (i, d)).threads i = k (h d o p.state).1 := by
      rw [step_threads_self h p (i, d), hthread]
      rfl
    have hcell {j : ι} {m : ℕ} (hj : Function.update cellOf i (some (P.cells p.state).length) j =
        some m) : (j = i ∧ m = (P.cells p.state).length) ∨ (j ≠ i ∧ cellOf j = some m) := by
      by_cases hji : j = i
      · subst hji
        rw [Function.update_self] at hj
        exact .inl ⟨rfl, (Option.some.inj hj).symm⟩
      · rw [Function.update_of_ne hji] at hj
        exact .inr ⟨hji, hj⟩
    refine ⟨?_, ?_, ?_, ?_, ?_, ?_⟩
    · intro j hj
      by_cases hji : j = i
      · subst hji
        rw [Function.update_self] at hj
        cases hj
      · rw [Function.update_of_ne hji] at hj
        rw [step_threads_ne h p hji, ho.waits j hj]
    · intro j m hj
      rcases hcell hj with ⟨rfl, rfl⟩ | ⟨hji, hm⟩
      · refine ⟨s, cell, ?_, hshows, ?_⟩
        · rw [hstate, List.getElem?_concat_length]
        · rw [hself]
          exact hconf
      · obtain ⟨t, c, hc, hshow, hrest⟩ := ho.owns j m hm
        refine ⟨t, c, ?_, hshow, ?_⟩
        · rw [hstate, List.getElem?_append_left (ho.lt_length hm)]
          exact hc
        · rw [step_threads_ne h p hji]
          exact hrest
    · intro j m hj
      rcases hcell hj with ⟨-, rfl⟩ | ⟨-, hm⟩
      · exact ho.grows
      · exact ho.fresh j m hm
    · intro j j' m hj hj'
      rcases hcell hj with ⟨rfl, rfl⟩ | ⟨-, hm⟩
      · rcases hcell hj' with ⟨rfl, -⟩ | ⟨-, hm'⟩
        · rfl
        · exact absurd (ho.lt_length hm') (Nat.lt_irrefl _)
      · rcases hcell hj' with ⟨-, rfl⟩ | ⟨-, hm'⟩
        · exact absurd (ho.lt_length hm) (Nat.lt_irrefl _)
        · exact ho.once j j' m hm hm'
    · rw [hstate, List.length_append]
      exact Nat.le_add_right_of_le ho.grows
    · intro m hm
      have hne : m ≠ (P.cells p.state).length := by
        rintro rfl
        exact hm i (Function.update_self ..)
      have hold : ∀ j, cellOf j ≠ some m := by
        intro j hj
        have hji : j ≠ i := by
          rintro rfl
          rw [hnone] at hj
          cases hj
        exact hm j (by rw [Function.update_of_ne hji, hj])
      rw [← ho.others m hold, hstate]
      rcases Nat.lt_or_gt_of_ne hne with hlt | hgt
      · exact List.getElem?_append_left hlt
      · rw [List.getElem?_eq_none, List.getElem?_eq_none (Nat.le_of_lt hgt)]
        rw [List.length_append]
        exact hgt

/-- A step of a thread that has a cell changes this cell alone. -/
theorem Owned.move (hkept : P.Kept h) (ho : Owned P p₀ p cellOf) (x : ι × δ) {k : ℕ}
    (hk : cellOf x.1 = some k) : Owned P p₀ (step h p x) cellOf := by
  obtain ⟨i, d⟩ := x
  obtain ⟨s, cell, hcell, hshows, hconf⟩ := ho.owns i k hk
  have hchange : ∃ t g, P.cells (step h p (i, d)).state = (P.cells p.state).modify k g ∧
      P.Shows i t (g cell) ∧
      Conforms (P.next k) (P.final i) t ((step h p (i, d)).threads i) := by
    rw [step_threads_self h p (i, d), step]
    cases hp : p.threads i with
    | ret a =>
      rw [hp] at hconf
      exact ⟨s, id, (List.modify_id _ _).symm, hshows, hconf⟩
    | call o rest =>
      rw [hp] at hconf
      obtain ⟨t, hnext, hrest⟩ := hconf
      obtain ⟨g, hcells, hg⟩ := hkept k s o t d p.state hnext
      exact ⟨t, g, hcells, hg i cell hshows, hrest _⟩
  obtain ⟨t, g, hcells, hshows', hconf'⟩ := hchange
  have hother {m : ℕ} (hm : m ≠ k) :
      (P.cells (step h p (i, d)).state)[m]? = (P.cells p.state)[m]? := by
    rw [hcells, List.getElem?_modify_ne _ _ (Ne.symm hm)]
  refine ⟨?_, ?_, ho.fresh, ho.once, ?_, ?_⟩
  · intro j hj
    have hji : j ≠ i := by
      rintro rfl
      rw [hk] at hj
      cases hj
    rw [step_threads_ne h p hji, ho.waits j hj]
  · intro j m hj
    by_cases hji : j = i
    · subst hji
      obtain rfl := Option.some.inj (hk.symm.trans hj)
      refine ⟨t, g cell, ?_, hshows', hconf'⟩
      rw [hcells, List.getElem?_modify_eq, hcell]
      rfl
    · have hm : m ≠ k := by
        rintro rfl
        exact hji (ho.once j i m hj hk)
      rw [hother hm, step_threads_ne h p hji]
      exact ho.owns j m hj
  · rw [hcells, List.length_modify]
    exact ho.grows
  · intro m hm
    have hne : m ≠ k := by
      rintro rfl
      exact hm i hk
    rw [hother hne, ho.others m hm]

/-- Every schedule leaves each thread with a cell of its own, or as it was. -/
theorem owned_run (hkept : P.Kept h) {s : τ} (hopens : ∀ i, P.Opens h s i (p₀.threads i))
    (schedule : List (ι × δ)) : ∃ cellOf, Owned P p₀ (run h schedule p₀) cellOf := by
  induction schedule using List.reverseRecOn with
  | nil => exact ⟨_, owned_start p₀⟩
  | append_singleton xs x ih =>
    obtain ⟨cellOf, ho⟩ := ih
    rw [run_append]
    cases hx : cellOf x.1 with
    | none => exact ⟨_, ho.allocate x hx (hopens x.1)⟩
    | some k => exact ⟨cellOf, ho.move hkept x hx⟩

end Pool
