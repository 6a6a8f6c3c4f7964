import Mathlib.Data.List.Induction

/-
  Machines that take one event after another and refuse those that cannot happen.

  A run is accepted if each of its events is. What holds at the start and is kept by every accepted
  event, the events so far included, holds at the end of every accepted run.
-/

namespace Machine

variable {σ ε : Type} (step : σ → ε → Option σ)

/-- The state after the events, if none of them is refused. -/
def run (s : σ) (events : List ε) : Option σ := events.foldlM step s

theorem run_nil (s : σ) : run step s [] = some s := rfl

theorem run_snoc (s : σ) (events : List ε) (e : ε) :
    run step s (events ++ [e]) = (run step s events).bind fun s' => step s' e := by
  simp [run]

variable {step}

theorem invariant {s₀ : σ} {I : List ε → σ → Prop} (hstart : I [] s₀)
    (hstep : ∀ events s e s', I events s → step s e = some s' → I (events ++ [e]) s')
    {events : List ε} {s : σ} (hrun : run step s₀ events = some s) : I events s := by
  induction events using List.reverseRecOn generalizing s with
  | nil =>
    rw [run_nil] at hrun
    exact Option.some.inj hrun ▸ hstart
  | append_singleton events e ih =>
    rw [run_snoc] at hrun
    obtain ⟨s', hs', hlast⟩ := Option.bind_eq_some_iff.mp hrun
    exact hstep events s' e s (ih hs') hlast

end Machine
