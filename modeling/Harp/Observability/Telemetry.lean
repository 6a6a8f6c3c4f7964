import Harp.Observability.InMemoryObservability
import Harp.Lib.Cost
import Harp.Orchestration.SequentialValidator
import Harp.Context.ThreadCompactor
import Harp.Context.ProgressiveContextLoader

/-
  The calls that are observed, with their telemetry: `ThreadCompactor.compact`,
  `ProgressiveContextLoader.load` and `SequentialValidator.run`.

  A loader and a summariser are functions from outside, as the `run` of a step is: what they
  answer is up to the environment, and they may reject. Token weights and costs are rational
  numbers. Where the functions answer alike whenever they are called, a call returns what it
  returns without telemetry (`settled_plain`).
-/

namespace Harp

/-- What the observed calls await. -/
inductive Callback (ρ : Type) where
  | summarise (items : List (CompactableItem ℚ))
  | loadBody (loadBody : BodyLoader) (id : String)
  | loadReference (loadReference : ReferenceLoader) (id : String)
  | runStep (step : ValidationStep ℚ ρ)

abbrev Callback.Res (E : Type) {ρ : Type} : Callback ρ → Type
  | summarise _ => Except E String
  | loadBody _ _ => Except E SkillBody
  | loadReference _ _ => Except E String
  | runStep _ => Except E ValidationOutcome

abbrev Observed (ρ E : Type) := Prog (ObsOp (Callback ρ)) (ObsOp.Res (Callback.Res E))

variable {ρ E : Type}

/-- The end of a call that resolves. -/
def closeSpan {α : Type} (span : ℕ) (status : SpanStatus) (message : Option String) (a : α) :
    Observed ρ E (Except E α) := do
  Prog.perform (ObsOp.setStatus span status message)
  Prog.perform (ObsOp.endSpan span)
  pure (.ok a)

namespace ThreadCompactor

def compactObserved (items : List (CompactableItem ℚ)) :
    Observed ρ E (Except E (CompactionRecord ℚ)) := do
  let span ← Prog.perform (ObsOp.startSpan "context.compact"
    [("items", .number items.length)] none)
  let tokensBefore := totalTokens items
  match ← Prog.perform (ObsOp.outside (Callback.summarise items)) with
  | .error e => pure (.error e)
  | .ok summary =>
    let tokensAfter := textTokens summary
    Prog.perform (ObsOp.record "context.compaction.tokens_saved"
      (max 0 (tokensBefore - tokensAfter)) none)
    Prog.perform (ObsOp.setAttribute span "tokensBefore" (.number tokensBefore))
    Prog.perform (ObsOp.setAttribute span "tokensAfter" (.number tokensAfter))
    closeSpan span .ok none {
      summary := summary
      preservedDecisionCount := (decisions items).length
      tokensBefore := tokensBefore
      tokensAfter := tokensAfter
      compactedItemIds := items.map (·.id) }

end ThreadCompactor

namespace ProgressiveContextLoader

/-- A loop of `load`, `record` and `cost` being what it has loaded. An id without a loader makes an
    event. -/
def loadEach {F β : Type} (span : ℕ) (event : String) (find : String → Option F)
    (await : F → String → Observed ρ E (Except E β)) (text : β → String) :
    List String → List (String × β) → ℕ → Observed ρ E (Except E (List (String × β) × ℕ))
  | [], record, cost => pure (.ok (record, cost))
  | id :: ids, record, cost =>
    match find id with
    | none => do
      Prog.perform (ObsOp.addEvent span event (some [("id", .text id)]))
      loadEach span event find await text ids record cost
    | some f => do
      match ← await f id with
      | .error e => pure (.error e)
      | .ok v =>
        loadEach span event find await text ids (Js.setProperty record id v)
          (cost + estimateTokens (text v))

/-- `this.bodyLoaders.get(id)`. -/
def bodyLoader (loader : ProgressiveContextLoader) (id : String) : Option BodyLoader :=
  (loader.bodyLoaders.find? (·.1 == id)).map (·.2)

def awaitBody (loadBody : BodyLoader) (id : String) : Observed ρ E (Except E SkillBody) :=
  Prog.perform (ObsOp.outside (Callback.loadBody loadBody id))

def awaitReference (loadReference : ReferenceLoader) (id : String) :
    Observed ρ E (Except E String) :=
  Prog.perform (ObsOp.outside (Callback.loadReference loadReference id))

/-- The telemetry of a finished `load`, and its end. -/
def closeLoad (span : ℕ) (context : LoadedContext) : Observed ρ E (Except E LoadedContext) := do
  Prog.perform (ObsOp.record "context.tokens.level1" context.tokenCost.level1 none)
  Prog.perform (ObsOp.record "context.tokens.level2" context.tokenCost.level2 none)
  Prog.perform (ObsOp.record "context.tokens.level3" context.tokenCost.level3 none)
  Prog.perform (ObsOp.setAttribute span "tokens.level1" (.number context.tokenCost.level1))
  Prog.perform (ObsOp.setAttribute span "tokens.level2" (.number context.tokenCost.level2))
  Prog.perform (ObsOp.setAttribute span "tokens.level3" (.number context.tokenCost.level3))
  closeSpan span .ok none context

def loadObserved (loader : ProgressiveContextLoader) (selectedSkillIds : List String)
    (referenceIds : Option (List String)) : Observed ρ E (Except E LoadedContext) := do
  let span ← Prog.perform (ObsOp.startSpan "context.progressive_load"
    [("selectedSkills", .number selectedSkillIds.length),
      ("requestedRefs", .number (referenceIds.getD []).length)] none)
  match ← loadEach span "skill.unknown" loader.bodyLoader awaitBody (·.instructions)
      selectedSkillIds [] 0 with
  | .error e => pure (.error e)
  | .ok bodies =>
    match ← loadEach span "reference.no_loader" (fun _ => loader.referenceLoader) awaitReference id
        (referenceIds.getD []) [] 0 with
    | .error e => pure (.error e)
    | .ok references =>
      closeLoad span {
        catalog := loader.catalog
        bodies := bodies.1
        references := references.1
        tokenCost := {
          level1 := level1 loader.catalog
          level2 := bodies.2
          level3 := references.2 } }

end ProgressiveContextLoader

namespace SequentialValidator

/-- The loop over the sorted steps, `ran` having been run. -/
def loopObserved (span : ℕ) :
    List (ValidationStep ℚ ρ) → List RanStep → Observed ρ E (Except E ValidationReport)
  | [], ran => closeSpan span .ok none {
      passed := true, ranSteps := ran, skipped := [], haltedAt := none }
  | step :: rest, ran => do
    match ← Prog.perform (ObsOp.outside (Callback.runStep step)) with
    | .error e => pure (.error e)
    | .ok outcome =>
      Prog.perform (ObsOp.add "validation.step" 1
        (some [("name", .text step.name), ("passed", .bool outcome.passed)]))
      if !outcome.passed then
        Prog.perform (ObsOp.addEvent span "validation.halted" (some [("step", .text step.name)]))
        closeSpan span .error (some ("Halted at " ++ step.name)) {
          passed := false
          ranSteps := ran ++ [ranStep step outcome]
          skipped := rest.map (·.name)
          haltedAt := some step.name }
      else loopObserved span rest (ran ++ [ranStep step outcome])

def runObserved (steps : List (ValidationStep ℚ ρ)) : Observed ρ E (Except E ValidationReport) := do
  let span ← Prog.perform (ObsOp.startSpan "validation.run"
    [("steps", .number (ordered steps).length)] none)
  loopObserved span (ordered steps) []

end SequentialValidator

/-! ## Calls -/

inductive ObservedCall (ρ : Type) where
  | compact (items : List (CompactableItem ℚ))
  | load (loader : ProgressiveContextLoader) (selectedSkillIds : List String)
      (referenceIds : Option (List String))
  | validate (steps : List (ValidationStep ℚ ρ))

inductive ObservedResult where
  | compacted (record : CompactionRecord ℚ)
  | loaded (context : LoadedContext)
  | validated (report : ValidationReport)
  deriving DecidableEq

/-- The status that a span has for a result: a validation that halted is an error. -/
def ObservedResult.status : ObservedResult → SpanStatus
  | compacted _ => .ok
  | loaded _ => .ok
  | validated report => if report.passed then .ok else .error

namespace ObservedCall

def spanName : ObservedCall ρ → String
  | compact _ => "context.compact"
  | load .. => "context.progressive_load"
  | validate _ => "validation.run"

def program : ObservedCall ρ → Observed ρ E (Except E ObservedResult)
  | compact items => do
    let r ← ThreadCompactor.compactObserved items
    pure (r.map .compacted)
  | load loader selectedSkillIds referenceIds => do
    let r ← loader.loadObserved selectedSkillIds referenceIds
    pure (r.map .loaded)
  | validate steps => do
    let r ← SequentialValidator.runObserved steps
    pure (r.map .validated)

end ObservedCall

/-! ## Without telemetry -/

section Plain

variable (summarise : Summariser ℚ E) (outcome : ρ → Except E ValidationOutcome)

/-- The answer of a function that answers alike whenever it is called. -/
def Callback.answer : (x : Callback ρ) → Callback.Res E x
  | .summarise items => summarise items
  | .loadBody load id => .ok (load id)
  | .loadReference load id => .ok (load id)
  | .runStep step => outcome step.run

/-- The steps answer as `outcome` says. -/
def SequentialValidator.outcomes (outcome : ρ → Except E ValidationOutcome) :
    Handler (ValidatorOp ℚ ρ) (ValidatorOp.Res E) Unit
  | .run step, s => (outcome step.run, s)

/-- What a call returns, telemetry left out. -/
def ObservedCall.plain : ObservedCall ρ → Except E ObservedResult
  | compact items => (ThreadCompactor.compact summarise items).map .compacted
  | load loader selectedSkillIds referenceIds =>
    .ok (.loaded (loader.load selectedSkillIds referenceIds))
  | validate steps =>
    (Prog.run (SequentialValidator.outcomes outcome) (SequentialValidator.run steps) ()).1.map
      .validated

/-- The functions answer as they should. -/
def AnswersAs : (o : ObsOp (Callback ρ)) → ObsOp.Res (Callback.Res E) o → Prop
  | .outside x, r => r = Callback.answer summarise outcome x
  | _, _ => True

/-- The program returns `r`, whatever the telemetry answers. -/
abbrev Returns {α : Type} (r : Except E α) (p : Observed ρ E (Except E α)) : Prop :=
  Prog.Meets (fun _ => True) (AnswersAs summarise outcome) (· = r) p

variable {summarise outcome}

theorem closeSpan_returns {α : Type} (span : ℕ) (status : SpanStatus) (message : Option String)
    (a : α) : Returns summarise outcome (.ok a) (closeSpan span status message a) :=
  ⟨trivial, fun _ _ => ⟨trivial, fun _ _ => rfl⟩⟩

theorem Returns.map {α β : Type} {r : Except E α} {p : Observed ρ E (Except E α)} (f : α → β)
    (h : Returns summarise outcome r p) :
    Returns summarise outcome (r.map f) (p >>= fun r => pure (r.map f)) :=
  Prog.Meets.bind h fun _ hr => congrArg (Except.map f) hr

theorem ThreadCompactor.compactObserved_returns (items : List (CompactableItem ℚ)) :
    Returns summarise outcome (compact summarise items) (compactObserved items) := by
  refine ⟨trivial, fun span _ => ⟨trivial, fun r hr => ?_⟩⟩
  obtain rfl : r = summarise items := hr
  unfold compact
  cases summarise items with
  | error e => exact rfl
  | ok summary =>
    exact ⟨trivial, fun _ _ => ⟨trivial, fun _ _ => ⟨trivial, fun _ _ =>
      closeSpan_returns span .ok none _⟩⟩⟩

namespace ProgressiveContextLoader

/-- A loop returns what the loop without telemetry makes of the same ids. -/
theorem loadEach_returns {F β : Type} (span : ℕ) (event : String) (find : String → Option F)
    {await : F → String → Observed ρ E (Except E β)} (text : β → String)
    (value : F → String → β)
    (hawait : ∀ f id, Returns summarise outcome (.ok (value f id)) (await f id))
    (ids : List String) (record : List (String × β)) (cost : ℕ) :
    Returns summarise outcome
      (.ok (ids.foldl (fun acc id =>
        match (find id).map (value · id) with
        | none => acc
        | some v => (Js.setProperty acc.1 id v, acc.2 + estimateTokens (text v))) (record, cost)))
      (loadEach span event find await text ids record cost) := by
  induction ids generalizing record cost with
  | nil => exact rfl
  | cons id ids ih =>
    rw [List.foldl_cons]
    unfold loadEach
    cases find id with
    | none => exact ⟨trivial, fun _ _ => ih record cost⟩
    | some f =>
      refine (hawait f id).bind fun r hr => ?_
      subst hr
      exact ih _ _

theorem body_eq (loader : ProgressiveContextLoader) :
    loader.body = fun id => (loader.bodyLoader id).map (· id) := by
  funext id
  unfold body bodyLoader
  rw [Option.map_map]
  rfl

theorem closeLoad_returns (span : ℕ) (context : LoadedContext) :
    Returns (ρ := ρ) summarise outcome (.ok context) (closeLoad span context) :=
  ⟨trivial, fun _ _ => ⟨trivial, fun _ _ => ⟨trivial, fun _ _ => ⟨trivial, fun _ _ =>
    ⟨trivial, fun _ _ => ⟨trivial, fun _ _ => closeSpan_returns span .ok none context⟩⟩⟩⟩⟩⟩

theorem loadObserved_returns (loader : ProgressiveContextLoader) (selectedSkillIds : List String)
    (referenceIds : Option (List String)) :
    Returns summarise outcome (.ok (loader.load selectedSkillIds referenceIds))
      (loader.loadObserved selectedSkillIds referenceIds) := by
  have hbody (f : BodyLoader) (id : String) :
      Returns (ρ := ρ) summarise outcome (.ok (f id)) (awaitBody f id) := ⟨trivial, fun _ hr => hr⟩
  have hreference (f : ReferenceLoader) (id : String) :
      Returns (ρ := ρ) summarise outcome (.ok (f id)) (awaitReference f id) :=
    ⟨trivial, fun _ hr => hr⟩
  refine ⟨trivial, fun span _ => ?_⟩
  refine (loadEach_returns span _ _ _ (fun f id => f id) hbody _ _ _).bind fun bodies hbodies => ?_
  subst hbodies
  refine (loadEach_returns span _ _ _ (fun f id => f id) hreference _ _ _).bind
    fun references hreferences => ?_
  subst hreferences
  unfold load loadAll
  rw [body_eq]
  exact closeLoad_returns span _

end ProgressiveContextLoader

namespace SequentialValidator

theorem loopObserved_returns (span : ℕ) (rest : List (ValidationStep ℚ ρ)) (ran : List RanStep) :
    Returns summarise outcome (Prog.run (outcomes outcome) (loop rest ran) ()).1
      (loopObserved span rest ran) := by
  induction rest generalizing ran with
  | nil => exact closeSpan_returns span .ok none _
  | cons step rest ih =>
    refine ⟨trivial, fun r hr => ?_⟩
    obtain rfl : r = outcome step.run := hr
    unfold loop
    rw [Prog.run_bind, Prog.run_perform, outcomes]
    cases outcome step.run with
    | error e => exact rfl
    | ok o =>
      refine ⟨trivial, fun _ _ => ?_⟩
      dsimp only
      cases o.passed with
      | false => exact ⟨trivial, fun _ _ => closeSpan_returns span _ _ _⟩
      | true => exact ih _

theorem runObserved_returns (steps : List (ValidationStep ℚ ρ)) :
    Returns summarise outcome (Prog.run (outcomes outcome) (run steps) ()).1
      (runObserved steps) :=
  ⟨trivial, fun span _ => loopObserved_returns span _ _⟩

end SequentialValidator

theorem ObservedCall.program_returns (call : ObservedCall ρ) :
    Returns summarise outcome (call.plain summarise outcome) call.program := by
  cases call with
  | compact items =>
    exact (ThreadCompactor.compactObserved_returns items).map ObservedResult.compacted
  | load loader selectedSkillIds referenceIds =>
    exact (loader.loadObserved_returns selectedSkillIds referenceIds).map ObservedResult.loaded
  | validate steps =>
    exact (SequentialValidator.runObserved_returns steps).map ObservedResult.validated

end Plain

/-! ## Interleaved calls -/

section Interleaved

variable {δ ι τ σ : Type} [DecidableEq ι]

/-- The calls, none of which has begun. -/
def callsPool (calls : ι → ObservedCall ρ) (w : ObsWorld τ σ) :
    Pool ι (ObsOp (Callback ρ)) (ObsOp.Res (Callback.Res E)) (Except E ObservedResult)
      (ObsWorld τ σ) :=
  ⟨fun i => (calls i).program, w⟩

/-- Telemetry is transparent: whatever the schedule, a call that has settled has returned what it
    returns alone and without telemetry. -/
theorem settled_plain {summarise : Summariser ℚ E} {outcome : ρ → Except E ValidationOutcome}
    {env : δ → ObsEnv (Callback ρ) (Callback.Res E) τ σ}
    (henv : ∀ d x s, ((env d).outside x s).1 = Callback.answer summarise outcome x)
    (calls : ι → ObservedCall ρ) (w : ObsWorld τ σ) (schedule : List (ι × δ)) (i : ι)
    {r : Except E ObservedResult}
    (hr : (Pool.run (fun d => obsHandler (env d)) schedule (callsPool calls w)).threads i =
      .ret r) : r = (calls i).plain summarise outcome := by
  have hanswers (d : δ) (o : ObsOp (Callback ρ)) (w : ObsWorld τ σ) :
      AnswersAs summarise outcome o (obsHandler (env d) o w).1 := by
    cases o with
    | outside x => exact henv d x w.outside
    | _ => trivial
  have hpath := Pool.path (fun d => obsHandler (env d)) i schedule (callsPool calls w)
  rw [hr] at hpath
  refine hpath.returns (ObservedCall.program_returns (calls i)) fun x hx => ?_
  exact Pool.answers_under (I := fun _ => True) _ (fun _ _ _ _ => trivial)
    (fun d o w _ => hanswers d o w) trivial schedule _ (Pool.mem_of_own hx)

/-- A compaction and a validation, taking turns. -/
theorem settled_plain_two :
    let summarise : Summariser ℚ Empty := fun items => .ok (items.foldl (· ++ ·.title) "")
    let outcome : Bool → Except Empty ValidationOutcome := fun passed => .ok ⟨passed, none⟩
    let env : ObsEnv (Callback Bool) (Callback.Res Empty) ℕ Unit :=
      ⟨fun n => (toString n, n + 1), fun n => (n, n + 1),
        fun x s => (Callback.answer summarise outcome x, s)⟩
    let calls : Bool → ObservedCall Bool
      | true => .compact (ThreadCompactor.oneDecision "repo writes need approval")
      | false => .validate [⟨"lint", 1, true⟩, ⟨"types", 2, false⟩]
    let schedule := (List.replicate 9 [(true, ()), (false, ())]).flatten
    ∃ r, (Pool.run (fun _ => obsHandler env) schedule
      (callsPool calls ⟨.create, 0, ()⟩)).threads false = .ret r ∧
        r = (calls false).plain summarise outcome := by
  intro summarise outcome env calls schedule
  have henv (_ : Unit) (x : Callback Bool) (s : Unit) :
      (env.outside x s).1 = Callback.answer summarise outcome x := rfl
  refine ⟨_, rfl, ?_⟩
  exact settled_plain henv calls ⟨.create, 0, ()⟩ schedule false rfl

end Interleaved

end Harp
