import Harp.Lib.Program
import Harp.Lib.StableSort

/-
  Cheapest-first validation (`src/orchestration/SequentialValidator.ts`).

  The `run` of a step is code from outside, which resolves with an outcome or rejects. The
  comparator `a.cost - b.cost` of two finite numbers is positive exactly if the first is greater,
  so a cost is an element of any linear order. Spans and counters of `obs` are left out.

  `Walk` is the loop over the sorted steps, and `run_cheapestFirst` says what a report tells of
  the calls that were made.
-/

namespace Harp

/-- A step; `run` is the function it is called by. -/
structure ValidationStep (α ρ : Type) where
  name : String
  cost : α
  run : ρ
  deriving DecidableEq, Repr

structure ValidationOutcome where
  passed : Bool
  detail : Option String
  deriving DecidableEq, Repr

structure RanStep where
  name : String
  passed : Bool
  detail : Option String
  deriving DecidableEq, Repr

structure ValidationReport where
  passed : Bool
  ranSteps : List RanStep
  skipped : List String
  haltedAt : Option String
  deriving DecidableEq, Repr

inductive ValidatorOp (α ρ : Type) where
  /-- `await step.run()`. -/
  | run (step : ValidationStep α ρ)

abbrev ValidatorOp.Res (E : Type) {α ρ : Type} : ValidatorOp α ρ → Type
  | run _ => Except E ValidationOutcome

namespace SequentialValidator

variable {α ρ E : Type}

/-- The entry of `ranSteps` for a step that was run. -/
def ranStep (step : ValidationStep α ρ) (outcome : ValidationOutcome) : RanStep where
  name := step.name
  passed := outcome.passed
  detail := outcome.detail

/-- The loop over the sorted steps, `ran` having been run. -/
def loop : List (ValidationStep α ρ) → List RanStep →
    Prog (ValidatorOp α ρ) (ValidatorOp.Res E) (Except E ValidationReport)
  | [], ran => pure (.ok { passed := true, ranSteps := ran, skipped := [], haltedAt := none })
  | step :: rest, ran => do
    match ← Prog.perform (ValidatorOp.run step) with
    | .error e => pure (.error e)
    | .ok outcome =>
      if !outcome.passed then
        -- everything more expensive is skipped
        pure (.ok {
          passed := false
          ranSteps := ran ++ [ranStep step outcome]
          skipped := rest.map (·.name)
          haltedAt := some step.name })
      else loop rest (ran ++ [ranStep step outcome])

variable [LinearOrder α]

/-- `[...steps].sort((a, b) => a.cost - b.cost)`. -/
def ordered (steps : List (ValidationStep α ρ)) : List (ValidationStep α ρ) :=
  steps.insertionSort fun a b => a.cost ≤ b.cost

def run (steps : List (ValidationStep α ρ)) :
    Prog (ValidatorOp α ρ) (ValidatorOp.Res E) (Except E ValidationReport) :=
  loop (ordered steps) []

/-! ## The walk over the sorted steps -/

/-- A call of a step and its outcome. -/
abbrev Called (α ρ : Type) := ValidationStep α ρ × ValidationOutcome

omit [LinearOrder α]

/-- The walk over the sorted steps: what it calls, what it skips and where it halts. -/
inductive Walk : List (ValidationStep α ρ) → List (Called α ρ) → List (ValidationStep α ρ) →
    Option String → Prop
  | done : Walk [] [] [] none
  | halt {step : ValidationStep α ρ} {outcome : ValidationOutcome}
      (rest : List (ValidationStep α ρ)) (hfail : outcome.passed = false) :
      Walk (step :: rest) [(step, outcome)] rest (some step.name)
  | next {step : ValidationStep α ρ} {outcome : ValidationOutcome}
      {rest skipped : List (ValidationStep α ρ)} {calls : List (Called α ρ)}
      {haltedAt : Option String} (hpass : outcome.passed = true)
      (h : Walk rest calls skipped haltedAt) :
      Walk (step :: rest) ((step, outcome) :: calls) skipped haltedAt

/-- The call as the run performs it. -/
def Called.performed (c : Called α ρ) : (o : ValidatorOp α ρ) × ValidatorOp.Res E o :=
  ⟨.run c.1, .ok c.2⟩

/-- The report of a walk, `ran` having been run before. -/
def reportOf (ran : List RanStep) (calls : List (Called α ρ)) (skipped : List (ValidationStep α ρ))
    (haltedAt : Option String) : ValidationReport where
  passed := haltedAt.isNone
  ranSteps := ran ++ calls.map fun c => ranStep c.1 c.2
  skipped := skipped.map (·.name)
  haltedAt := haltedAt

/-- When every `run` returns, the loop is a walk. -/
theorem loop_walks {σ : Type} (h : Handler (ValidatorOp α ρ) (ValidatorOp.Res E) σ)
    (hret : ∀ step s, ∃ outcome, (h (.run step) s).1 = .ok outcome)
    (rest : List (ValidationStep α ρ)) (ran : List RanStep) (s : σ) :
    ∃ calls skipped haltedAt, Walk rest calls skipped haltedAt ∧
      (Prog.run h (loop rest ran) s).1 = .ok (reportOf ran calls skipped haltedAt) ∧
      Prog.trace h (loop rest ran) s = calls.map Called.performed := by
  induction rest generalizing ran s with
  | nil => exact ⟨[], [], none, .done, by simp [loop, reportOf], rfl⟩
  | cons step rest ih =>
    obtain ⟨outcome, hout⟩ := hret step s
    have hop : (⟨.run step, (h (.run step) s).1⟩ : (o : ValidatorOp α ρ) × ValidatorOp.Res E o) =
        Called.performed (step, outcome) := by
      rw [hout]
      rfl
    cases hp : outcome.passed with
    | false =>
      refine ⟨[(step, outcome)], rest, some step.name, .halt rest hp, ?_, ?_⟩
      · simp [loop, hout, hp, reportOf]
      · simp [loop, hout, hp, Called.performed]
    | true =>
      obtain ⟨calls, skipped, haltedAt, hwalk, hrun, htrace⟩ :=
        ih (ran ++ [ranStep step outcome]) (h (.run step) s).2
      refine ⟨(step, outcome) :: calls, skipped, haltedAt, .next hp hwalk, ?_, ?_⟩
      · simpa [loop, hout, hp, reportOf] using hrun
      · simpa [loop, hout, hp, Called.performed] using htrace

/-- The walk calls a first part of the steps and skips the rest. -/
theorem Walk.split {rest skipped : List (ValidationStep α ρ)} {calls : List (Called α ρ)}
    {haltedAt : Option String} (h : Walk rest calls skipped haltedAt) :
    rest = calls.map (·.1) ++ skipped := by
  induction h with
  | done => rfl
  | halt rest hfail => rfl
  | next hpass h ih => rw [List.map_cons, List.cons_append, ← ih]

/-- All steps pass, or the last one called is the first to fail. -/
theorem Walk.cases_last {rest skipped : List (ValidationStep α ρ)} {calls : List (Called α ρ)}
    {haltedAt : Option String} (h : Walk rest calls skipped haltedAt) :
    (haltedAt = none ∧ skipped = [] ∧ ∀ c ∈ calls, c.2.passed = true) ∨
    ∃ pre last, calls = pre ++ [last] ∧ (∀ c ∈ pre, c.2.passed = true) ∧
      last.2.passed = false ∧ haltedAt = some last.1.name := by
  induction h with
  | done => exact .inl ⟨rfl, rfl, by simp⟩
  | halt rest hfail => exact .inr ⟨[], _, rfl, by simp, hfail, rfl⟩
  | next hpass h ih =>
    rcases ih with ⟨hnone, hskip, hall⟩ | ⟨pre, last, rfl, hpre, hfail, hlast⟩
    · exact .inl ⟨hnone, hskip, List.forall_mem_cons.mpr ⟨hpass, hall⟩⟩
    · exact .inr ⟨_ :: pre, last, rfl, List.forall_mem_cons.mpr ⟨hpass, hpre⟩, hfail, hlast⟩

/-! ## What a report tells -/

/-- What a report tells of the calls that were made, `ordered` being the sorted steps. -/
structure CheapestFirst [LinearOrder α] (steps ordered : List (ValidationStep α ρ))
    (calls : List (Called α ρ)) (report : ValidationReport) : Prop where
  sorted : StablySorted (·.cost) steps ordered
  once : (calls.map (·.1)).Subperm steps
  ranSteps : report.ranSteps = calls.map fun c => ranStep c.1 c.2
  names : report.ranSteps.map (·.name) ++ report.skipped = ordered.map (·.name)
  cheaper : ∃ skipped, ordered = calls.map (·.1) ++ skipped ∧
    report.skipped = skipped.map (·.name) ∧ ∀ c ∈ calls, ∀ step ∈ skipped, c.1.cost ≤ step.cost
  passed_before : ∀ r ∈ report.ranSteps.dropLast, r.passed = true
  passed_iff : report.passed = true ↔
    (calls.map (·.1)).Perm steps ∧ ∀ c ∈ calls, c.2.passed = true
  halted : report.passed = false → ∃ pre last, calls = pre ++ [last] ∧
    (∀ c ∈ pre, c.2.passed = true) ∧ last.2.passed = false ∧ report.haltedAt = some last.1.name

theorem Walk.cheapestFirst [LinearOrder α] {steps sorted skipped : List (ValidationStep α ρ)}
    {calls : List (Called α ρ)} {haltedAt : Option String}
    (hsorted : StablySorted (·.cost) steps sorted) (h : Walk sorted calls skipped haltedAt) :
    CheapestFirst steps sorted calls (reportOf [] calls skipped haltedAt) where
  sorted := hsorted
  once := by
    have hsub : (calls.map (·.1)).Sublist sorted := h.split ▸ List.sublist_append_left _ _
    exact hsub.subperm.trans hsorted.perm.subperm
  ranSteps := rfl
  names := by
    rw [h.split]
    simp [reportOf, ranStep]
  cheaper := by
    refine ⟨skipped, h.split, rfl, fun c hc step hstep => ?_⟩
    have hpair := hsorted.sorted
    rw [h.split, List.pairwise_append] at hpair
    exact hpair.2.2 c.1 (List.mem_map_of_mem hc) step hstep
  passed_before := by
    intro r hr
    rcases h.cases_last with ⟨-, -, hall⟩ | ⟨pre, last, rfl, hpre, -, -⟩
    · obtain ⟨c, hc, rfl⟩ := List.mem_map.mp (List.dropLast_subset _ hr)
      exact hall c hc
    · simp only [reportOf, List.nil_append, List.map_append, List.map_singleton,
        List.dropLast_concat, List.mem_map] at hr
      obtain ⟨c, hc, rfl⟩ := hr
      exact hpre c hc
  passed_iff := by
    rcases h.cases_last with ⟨rfl, rfl, hall⟩ | ⟨pre, last, rfl, hpre, hfail, rfl⟩
    · have hall' : sorted = calls.map (·.1) := by rw [h.split, List.append_nil]
      refine iff_of_true rfl ⟨?_, hall⟩
      rw [← hall']
      exact hsorted.perm
    · refine iff_of_false (by simp [reportOf]) ?_
      rintro ⟨-, hpassed⟩
      have hlast := hpassed last (List.mem_append_right _ List.mem_cons_self)
      rw [hfail] at hlast
      cases hlast
  halted := by
    intro hp
    rcases h.cases_last with ⟨rfl, -, -⟩ | ⟨pre, last, rfl, hpre, hfail, rfl⟩
    · cases hp
    · exact ⟨pre, last, rfl, hpre, hfail, rfl⟩

/-- When every `run` returns, whatever it returns, the validation reports. -/
theorem run_cheapestFirst [LinearOrder α] {σ : Type}
    (h : Handler (ValidatorOp α ρ) (ValidatorOp.Res E) σ)
    (hret : ∀ step s, ∃ outcome, (h (.run step) s).1 = .ok outcome)
    (steps : List (ValidationStep α ρ)) (s : σ) :
    ∃ ordered calls report, (Prog.run h (run steps) s).1 = .ok report ∧
      Prog.trace h (run steps) s = calls.map Called.performed ∧
      CheapestFirst steps ordered calls report := by
  obtain ⟨calls, skipped, haltedAt, hwalk, hrun, htrace⟩ := loop_walks h hret (ordered steps) [] s
  exact ⟨ordered steps, calls, _, hrun, htrace,
    hwalk.cheapestFirst (stablySorted_insertionSort (·.cost) steps)⟩

/-- The outcome of a step is fixed. -/
def fixed (outcome : ρ → ValidationOutcome) : Handler (ValidatorOp α ρ) (ValidatorOp.Res E) Unit
  | .run step, s => (.ok (outcome step.run), s)

/-- Three steps, of which the second in order fails. -/
theorem run_cheapestFirst_three :
    let steps : List (ValidationStep ℕ Bool) :=
      [⟨"tests", 9, true⟩, ⟨"lint", 1, true⟩, ⟨"types", 1, false⟩]
    let h := fixed (E := Empty) (α := ℕ) fun passed => { passed := passed, detail := none }
    ∃ ordered calls report, (Prog.run h (run steps) ()).1 = .ok report ∧
      Prog.trace h (run steps) () = calls.map Called.performed ∧
      CheapestFirst steps ordered calls report := by
  intro steps h
  exact run_cheapestFirst h (fun step s => ⟨_, rfl⟩) steps ()

end SequentialValidator

end Harp
