import Harp.Observability.SpanLife

/-
  The telemetry is metadata only (`src/observability/types.ts`).

  `ObservedCall.Alike` says what of a call the telemetry may depend on: numbers, token weights,
  the ids that are selected, and the names and costs of steps. Of an answer it is whether it
  rejects, its token estimate or whether it passed. Calls that are alike, and whose callbacks
  answer alike, leave equal spans and metrics behind, on every schedule (`telemetry_alike`). So no
  title, claim, summary, instruction, reference or detail shows.
-/

namespace Harp

open Prog

/-- Both reject, or both resolve, with values of one weight. -/
def WeighsAlike {E α ν : Type} (weight : α → ν) : Except E α → Except E α → Prop
  | .ok a, .ok b => weight a = weight b
  | .error _, .error _ => True
  | _, _ => False

theorem WeighsAlike.split {E α ν : Type} {weight : α → ν} {r r' : Except E α}
    (h : WeighsAlike weight r r') :
    (∃ e e', r = .error e ∧ r' = .error e') ∨
      ∃ a b, r = .ok a ∧ r' = .ok b ∧ weight a = weight b := by
  cases r with
  | error e =>
    cases r' with
    | error e' => exact .inl ⟨e, e', rfl, rfl⟩
    | ok b => exact h.elim
  | ok a =>
    cases r' with
    | error e' => exact h.elim
    | ok b => exact .inr ⟨a, b, rfl, rfl, h⟩

section Operations

variable {X : Type} {R : X → Type}

def ObsOp.isTelemetry : ObsOp X → Bool
  | outside _ => false
  | _ => true

/-- The same telemetry, or callbacks that are alike. -/
def ObsOp.Alike (C : X → X → Prop) : ObsOp X → ObsOp X → Prop
  | outside x, outside x' => C x x'
  | o, o' => o = o'

def ObsOp.AnsweredAlike (A : (x x' : X) → R x → R x' → Prop) :
    (o o' : ObsOp X) → ObsOp.Res R o → ObsOp.Res R o' → Prop
  | outside x, outside x', r, r' => A x x' r r'
  | startSpan .., startSpan .., span, span' => span = span'
  | _, _, _, _ => True

/-- Environments of one clock whose callbacks answer alike, in outside states related by `T`. -/
structure ObsEnv.Alike {τ σ σ' : Type} (C : X → X → Prop) (A : (x x' : X) → R x → R x' → Prop)
    (T : σ → σ' → Prop) (env : ObsEnv X R τ σ) (env' : ObsEnv X R τ σ') : Prop where
  randomUUID : env.randomUUID = env'.randomUUID
  dateNow : env.dateNow = env'.dateNow
  outside : ∀ x x' s s', C x x' → T s s' →
    A x x' (env.outside x s).1 (env'.outside x' s').1 ∧
      T (env.outside x s).2 (env'.outside x' s').2

/-- Worlds with the same telemetry. -/
structure ObsWorld.Alike {τ σ σ' : Type} (T : σ → σ' → Prop) (w : ObsWorld τ σ)
    (w' : ObsWorld τ σ') : Prop where
  obs : w.obs = w'.obs
  clock : w.clock = w'.clock
  outside : T w.outside w'.outside

/-- An operation answers alike in worlds that are alike, and leaves them alike. -/
theorem obsHandler_alike {τ σ σ' : Type} {C : X → X → Prop} {A : (x x' : X) → R x → R x' → Prop}
    {T : σ → σ' → Prop} {env : ObsEnv X R τ σ} {env' : ObsEnv X R τ σ'}
    (henv : ObsEnv.Alike C A T env env') {o o' : ObsOp X} (ho : ObsOp.Alike C o o')
    {w : ObsWorld τ σ} {w' : ObsWorld τ σ'} (hw : ObsWorld.Alike T w w') :
    ObsOp.AnsweredAlike A o o' (obsHandler env o w).1 (obsHandler env' o' w').1 ∧
      ObsWorld.Alike T (obsHandler env o w).2 (obsHandler env' o' w').2 := by
  obtain ⟨randomUUID, dateNow, outside⟩ := env
  obtain ⟨randomUUID', dateNow', outside'⟩ := env'
  obtain ⟨rfl, rfl, houtside⟩ := henv
  obtain ⟨obs, clock, s⟩ := w
  obtain ⟨obs', clock', s'⟩ := w'
  obtain ⟨rfl, rfl, hs⟩ := hw
  cases o with
  | outside x =>
    cases o' with
    | outside x' =>
      obtain ⟨hanswer, hs'⟩ := houtside x x' s s' ho hs
      exact ⟨hanswer, rfl, rfl, hs'⟩
    | _ => cases ho
  | startSpan name attributes parent =>
    obtain rfl := ho
    exact ⟨rfl, rfl, rfl, hs⟩
  | _ =>
    obtain rfl := ho
    exact ⟨trivial, rfl, rfl, hs⟩

end Operations

variable {ρ E : Type}

/-- Answers of callbacks of one kind that the telemetry does not tell apart. -/
def Callback.AnsweredAlike : (x x' : Callback ρ) → Callback.Res E x → Callback.Res E x' → Prop
  | summarise _, summarise _, r, r' => WeighsAlike ThreadCompactor.textTokens r r'
  | loadBody .., loadBody .., r, r' => WeighsAlike (fun b => estimateTokens b.instructions) r r'
  | loadReference .., loadReference .., r, r' => WeighsAlike estimateTokens r r'
  | runStep _, runStep _, r, r' => WeighsAlike ValidationOutcome.passed r r'
  | _, _, _, _ => True

/-- Steps of one name and cost, whose functions `C` pairs. -/
structure ValidationStep.Alike (C : Callback ρ → Callback ρ → Prop)
    (step step' : ValidationStep ℚ ρ) : Prop where
  name : step.name = step'.name
  cost : step.cost = step'.cost
  run : C (.runStep step) (.runStep step')

/-- Loaders of as heavy a catalog, with functions for the same ids, which `C` pairs. -/
structure ProgressiveContextLoader.Alike (C : Callback ρ → Callback ρ → Prop)
    (loader loader' : ProgressiveContextLoader) : Prop where
  level1 : level1 loader.catalog = ProgressiveContextLoader.level1 loader'.catalog
  body : ∀ id, Option.Rel (fun f f' => C (.loadBody f id) (.loadBody f' id))
    (loader.bodyLoader id) (loader'.bodyLoader id)
  reference : ∀ id, Option.Rel (fun f f' => C (.loadReference f id) (.loadReference f' id))
    loader.referenceLoader loader'.referenceLoader

/-- Calls of which the telemetry may tell the same. The functions that they call are paired by
    `C`. -/
def ObservedCall.Alike (C : Callback ρ → Callback ρ → Prop) :
    ObservedCall ρ → ObservedCall ρ → Prop
  | compact items, compact items' =>
    items.length = items'.length ∧
      ThreadCompactor.totalTokens items = ThreadCompactor.totalTokens items' ∧
      C (.summarise items) (.summarise items')
  | load loader selected references, load loader' selected' references' =>
    loader.Alike C loader' ∧ selected = selected' ∧ references.getD [] = references'.getD []
  | validate steps, validate steps' => List.Forall₂ (ValidationStep.Alike C) steps steps'
  | _, _ => False

/-- Programs that leave the same telemetry, as long as they are answered alike. -/
abbrev TelemetryAlike {α : Type} (C : Callback ρ → Callback ρ → Prop) (V : α → α → Prop)
    (p q : Observed ρ E α) : Prop :=
  Related (ObsOp.Alike C) (ObsOp.AnsweredAlike Callback.AnsweredAlike) V p q

variable {C : Callback ρ → Callback ρ → Prop}

section Rules

variable {α : Type}

/-- The same telemetry first. -/
theorem tell {V : α → α → Prop} {o : ObsOp (Callback ρ)}
    (ho : o.isTelemetry = true) {k k' : ObsOp.Res (Callback.Res E) o → Observed ρ E α}
    (hk : ∀ r, TelemetryAlike C V (k r) (k' r)) : TelemetryAlike C V (call o k) (call o k') := by
  cases o with
  | outside x => cases ho
  | startSpan name attributes parent =>
    refine ⟨rfl, fun r r' hr => ?_⟩
    obtain rfl : r = r' := hr
    exact hk r
  | _ => exact ⟨rfl, fun r r' _ => hk r⟩

theorem closeSpan_alike (span : ℕ) (status : SpanStatus) (message : Option String) (a b : α) :
    TelemetryAlike (E := E) C (fun _ _ => True) (closeSpan span status message a)
      (closeSpan span status message b) :=
  tell rfl fun _ => tell rfl fun _ => trivial

/-- What is paired in one way is paired in any weaker way. -/
theorem rel_weaken {β : Type} {r s : α → β → Prop} (h : ∀ a b, r a b → s a b) {x : Option α}
    {y : Option β} (hxy : Option.Rel r x y) : Option.Rel s x y := by
  cases hxy with
  | none => exact .none
  | some hr => exact .some (h _ _ hr)

/-- A value that is mapped at the end. -/
theorem TelemetryAlike.map {β : Type} {V : Except E α → Except E α → Prop} {f : α → β}
    {p q : Observed ρ E (Except E α)} (h : TelemetryAlike C V p q) :
    TelemetryAlike C (fun _ _ => True) (p >>= fun r => pure (r.map f))
      (q >>= fun r => pure (r.map f)) :=
  h.bind fun _ _ _ => trivial

end Rules

/-! ## The calls -/

theorem ThreadCompactor.compactObserved_alike {items items' : List (CompactableItem ℚ)}
    (hlength : items.length = items'.length) (htotal : totalTokens items = totalTokens items')
    (hsummarise : C (.summarise items) (.summarise items')) :
    TelemetryAlike (E := E) C (fun _ _ => True) (compactObserved items)
      (compactObserved items') := by
  unfold compactObserved
  rw [hlength, htotal]
  refine tell rfl fun span => ?_
  refine Related.bind (V := WeighsAlike textTokens) ⟨hsummarise, fun _ _ hr => hr⟩
    fun r r' hr => ?_
  rcases hr.split with ⟨e, e', rfl, rfl⟩ | ⟨a, b, rfl, rfl, hweight⟩
  · exact trivial
  · dsimp only
    rw [hweight]
    exact tell rfl fun _ => tell rfl fun _ => tell rfl fun _ => closeSpan_alike ..

namespace ProgressiveContextLoader

/-- The loops over the same ids, with loaders for the same ids. -/
theorem loadEach_alike {F β : Type} (span : ℕ) (event : String) {find find' : String → Option F}
    {await : F → String → Observed ρ E (Except E β)} {text : β → String}
    (hfind : ∀ id, Option.Rel (fun f f' =>
      TelemetryAlike C (WeighsAlike fun b => estimateTokens (text b)) (await f id) (await f' id))
      (find id) (find' id))
    (ids : List String) (record record' : List (String × β)) (cost : ℕ) :
    TelemetryAlike C (WeighsAlike Prod.snd) (loadEach span event find await text ids record cost)
      (loadEach span event find' await text ids record' cost) := by
  induction ids generalizing record record' cost with
  | nil => exact rfl
  | cons id ids ih =>
    have hid := hfind id
    unfold loadEach
    generalize find id = found at hid ⊢
    generalize find' id = found' at hid ⊢
    cases hid with
    | none => exact tell rfl fun _ => ih record record' cost
    | some hawait =>
      refine hawait.bind fun r r' hr => ?_
      rcases hr.split with ⟨e, e', rfl, rfl⟩ | ⟨a, b, rfl, rfl, hweight⟩
      · exact trivial
      · dsimp only
        rw [hweight]
        exact ih _ _ _

theorem closeLoad_alike (span : ℕ) {context context' : LoadedContext}
    (hcost : context.tokenCost = context'.tokenCost) :
    TelemetryAlike (E := E) C (fun _ _ => True) (closeLoad span context)
      (closeLoad span context') := by
  unfold closeLoad
  rw [hcost]
  exact tell rfl fun _ => tell rfl fun _ =>
    tell rfl fun _ => tell rfl fun _ =>
    tell rfl fun _ => tell rfl fun _ => closeSpan_alike ..

theorem loadObserved_alike {loader loader' : ProgressiveContextLoader} {selected : List String}
    {references references' : Option (List String)} (hloader : loader.Alike C loader')
    (hids : references.getD [] = references'.getD []) :
    TelemetryAlike (E := E) C (fun _ _ => True) (loader.loadObserved selected references)
      (loader'.loadObserved selected references') := by
  have hbody (id : String) : Option.Rel (fun f f' =>
      TelemetryAlike (E := E) C (WeighsAlike fun b => estimateTokens b.instructions)
        (awaitBody f id) (awaitBody f' id)) (loader.bodyLoader id) (loader'.bodyLoader id) :=
    rel_weaken (fun _ _ h => ⟨h, fun _ _ hr => hr⟩) (hloader.body id)
  have hreference (id : String) : Option.Rel (fun f f' =>
      TelemetryAlike (E := E) C (WeighsAlike estimateTokens)
        (awaitReference f id) (awaitReference f' id))
      loader.referenceLoader loader'.referenceLoader :=
    rel_weaken (fun _ _ h => ⟨h, fun _ _ hr => hr⟩) (hloader.reference id)
  unfold loadObserved
  rw [hids, hloader.level1]
  refine tell rfl fun span => ?_
  refine (loadEach_alike span _ hbody _ _ _ _).bind fun r r' hr => ?_
  rcases hr.split with ⟨e, e', rfl, rfl⟩ | ⟨bodies, bodies', rfl, rfl, hlevel2⟩
  · exact trivial
  · refine (loadEach_alike span _ hreference _ _ _ _).bind fun r r' hr => ?_
    rcases hr.split with ⟨e, e', rfl, rfl⟩ | ⟨texts, texts', rfl, rfl, hlevel3⟩
    · exact trivial
    · refine closeLoad_alike span ?_
      dsimp only
      rw [hlevel2, hlevel3]

end ProgressiveContextLoader

namespace SequentialValidator

theorem loopObserved_alike (span : ℕ) {rest rest' : List (ValidationStep ℚ ρ)}
    (hrest : List.Forall₂ (ValidationStep.Alike C) rest rest') (ran ran' : List RanStep) :
    TelemetryAlike (E := E) C (fun _ _ => True) (loopObserved span rest ran)
      (loopObserved span rest' ran') := by
  induction hrest generalizing ran ran' with
  | nil => exact closeSpan_alike ..
  | cons hstep _ ih =>
    unfold loopObserved
    refine Related.bind (V := WeighsAlike ValidationOutcome.passed)
      ⟨hstep.run, fun _ _ hr => hr⟩ fun r r' hr => ?_
    rcases hr.split with ⟨e, e', rfl, rfl⟩ | ⟨outcome, outcome', rfl, rfl, hpassed⟩
    · exact trivial
    · dsimp only
      rw [hstep.name, hpassed]
      refine tell rfl fun _ => ?_
      cases outcome'.passed with
      | false => exact tell rfl fun _ => closeSpan_alike ..
      | true => exact ih _ _

theorem runObserved_alike {steps steps' : List (ValidationStep ℚ ρ)}
    (h : List.Forall₂ (ValidationStep.Alike C) steps steps') :
    TelemetryAlike (E := E) C (fun _ _ => True) (runObserved steps) (runObserved steps') := by
  have hordered : List.Forall₂ (ValidationStep.Alike C) (ordered steps) (ordered steps') :=
    forall₂_insertionSort (fun _ _ hstep => hstep.cost) h
  unfold runObserved
  rw [hordered.length_eq]
  exact tell rfl fun span => loopObserved_alike span hordered _ _

end SequentialValidator

theorem ObservedCall.program_alike {call call' : ObservedCall ρ} (h : call.Alike C call') :
    TelemetryAlike (E := E) C (fun _ _ => True) call.program call'.program := by
  cases call with
  | compact items =>
    cases call' with
    | compact items' => exact (ThreadCompactor.compactObserved_alike h.1 h.2.1 h.2.2).map
    | _ => exact h.elim
  | load loader selected references =>
    cases call' with
    | load loader' selected' references' =>
      obtain ⟨hloader, rfl, hids⟩ := h
      exact (ProgressiveContextLoader.loadObserved_alike hloader hids).map
    | _ => exact h.elim
  | validate steps =>
    cases call' with
    | validate steps' => exact (SequentialValidator.runObserved_alike h).map
    | _ => exact h.elim

/-! ## Interleaved calls -/

/-- Calls that are alike, and whose callbacks answer alike, leave equal spans and metrics behind,
    on every schedule. -/
theorem telemetry_alike {δ ι τ σ σ' : Type} [DecidableEq ι] {T : σ → σ' → Prop}
    {env : δ → ObsEnv (Callback ρ) (Callback.Res E) τ σ}
    {env' : δ → ObsEnv (Callback ρ) (Callback.Res E) τ σ'}
    (henv : ∀ d, (env d).Alike C Callback.AnsweredAlike T (env' d))
    {calls calls' : ι → ObservedCall ρ} (hcalls : ∀ i, (calls i).Alike C (calls' i))
    {w : ObsWorld τ σ} {w' : ObsWorld τ σ'} (hw : w.Alike T w') (schedule : List (ι × δ)) :
    (Pool.run (fun d => obsHandler (env d)) schedule (callsPool calls w)).state.obs =
      (Pool.run (fun d => obsHandler (env' d)) schedule (callsPool calls' w')).state.obs := by
  have hprograms (i : ι) : TelemetryAlike C (fun _ _ => True)
      ((callsPool (E := E) calls w).threads i) ((callsPool calls' w').threads i) :=
    ObservedCall.program_alike (hcalls i)
  have hkeep (d : δ) (o o' : ObsOp (Callback ρ)) (s : ObsWorld τ σ) (t : ObsWorld τ σ')
      (ho : ObsOp.Alike C o o') (hs : s.Alike T t) :
      ObsOp.AnsweredAlike Callback.AnsweredAlike o o' (obsHandler (env d) o s).1
          (obsHandler (env' d) o' t).1 ∧
        ObsWorld.Alike T (obsHandler (env d) o s).2 (obsHandler (env' d) o' t).2 :=
    obsHandler_alike (henv d) ho hs
  exact (Pool.related_run hkeep hprograms hw schedule).2.obs

/-- A clock that counts, and functions that answer with one text. -/
def answeringWith (text : String) : ObsEnv (Callback Unit) (Callback.Res Empty) ℕ Unit where
  randomUUID n := (toString n, n + 1)
  dateNow n := (n, n + 1)
  outside
    | .summarise _, s => (.ok text, s)
    | .loadBody _ _, s => (.ok ⟨text, none⟩, s)
    | .loadReference _ _, s => (.ok text, s)
    | .runStep _, s => (.ok ⟨false, some text⟩, s)

/-- A compaction and a validation, taking turns. Their texts differ, the telemetry does not. -/
theorem telemetry_alike_two :
    let calls (claim : String) : Bool → ObservedCall Unit
      | true => .compact (ThreadCompactor.oneDecision claim)
      | false => .validate [⟨"lint", 1, ()⟩]
    let schedule := (List.replicate 9 [(true, ()), (false, ())]).flatten
    let obs (text claim : String) :=
      (Pool.run (fun _ => obsHandler (answeringWith text)) schedule
        (callsPool (calls claim) ⟨.create, 0, ()⟩)).state.obs
    obs "Approve every write." "repo writes need approval" =
      obs "Approve no writes at" "repo writes are free" := by
  intro calls schedule obs
  have henv : (answeringWith "Approve every write.").Alike (fun _ _ => True)
      Callback.AnsweredAlike (fun _ _ => True) (answeringWith "Approve no writes at") := by
    refine ⟨rfl, rfl, fun x x' s s' _ _ => ⟨?_, trivial⟩⟩
    cases x <;> cases x' <;> first | exact trivial | exact rfl
  have hcalls (i : Bool) : (calls "repo writes need approval" i).Alike (fun _ _ => True)
      (calls "repo writes are free" i) := by
    cases i with
    | true => exact ⟨rfl, rfl, trivial⟩
    | false => exact .cons ⟨rfl, rfl, trivial⟩ .nil
  exact telemetry_alike (T := fun _ _ => True) (fun _ => henv) hcalls ⟨rfl, rfl, trivial⟩ schedule

end Harp
