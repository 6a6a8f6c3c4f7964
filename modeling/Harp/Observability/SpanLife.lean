import Harp.Observability.Telemetry

/-
  The life of a span, when calls run interleaved over one `InMemoryObservability`.

  Every call starts a span of its own and keeps to the protocol of `SpanStage` about it. So after
  any schedule a span is ended exactly if its call has resolved, and then it has the status of the
  result; the span of a call that rejected stays open (`spans_tell`).
-/

namespace Harp

open Prog SpanStage

variable {ρ E : Type}

/-- The program of a call: it starts its span, and keeps to the protocol about it. -/
def Spanned {α : Type} (name : String) (status : α → SpanStatus)
    (p : Observed ρ E (Except E α)) : Prop :=
  ∃ attributes k, p = call (ObsOp.startSpan name attributes none) k ∧
    ∀ span, Conforms (next span) (final status) running (k span)

section Rules

variable {α β : Type} {status : α → SpanStatus} {span : ℕ}

theorem closeSpan_conforms {s : SpanStatus} {a : α} (message : Option String)
    (hs : status a = s) : Conforms (next span) (final status) running
      (closeSpan (ρ := ρ) (E := E) span s message a) :=
  .call (if_pos rfl) fun _ => .call (if_pos rfl) fun _ => hs

/-- A call that resolves with a value made of another one has the status of that one. -/
theorem final_map {status' : β → SpanStatus} {f : α → β} (hf : ∀ a, status' (f a) = status a)
    {stage : SpanStage} {r : Except E α} (h : final status stage r) :
    final status' stage (r.map f) := by
  cases stage with
  | running =>
    cases r with
    | error e => trivial
    | ok a => exact h.elim
  | decided s => exact h.elim
  | ended s =>
    cases r with
    | error e => exact h.elim
    | ok a => exact (hf a).trans h

theorem Spanned.map {name : String} {status' : β → SpanStatus} {f : α → β}
    (hf : ∀ a, status' (f a) = status a) {p : Observed ρ E (Except E α)}
    (hp : Spanned name status p) : Spanned name status' (p >>= fun r => pure (r.map f)) := by
  obtain ⟨attributes, k, rfl, hk⟩ := hp
  exact ⟨attributes, _, rfl, fun span => (hk span).bind fun t r hr => final_map hf hr⟩

end Rules

/-! ## The calls -/

theorem ThreadCompactor.compactObserved_spanned (items : List (CompactableItem ℚ)) :
    Spanned (ρ := ρ) (E := E) "context.compact" (fun _ => .ok) (compactObserved items) := by
  refine ⟨_, _, rfl, fun span => .call rfl fun r => ?_⟩
  cases r with
  | error e => exact trivial
  | ok summary =>
    exact .call rfl fun _ => .call (if_pos rfl) fun _ => .call (if_pos rfl) fun _ =>
      closeSpan_conforms none rfl

namespace ProgressiveContextLoader

/-- A loop leaves the span running. -/
theorem loadEach_conforms {F β : Type} (span : ℕ) (event : String) (find : String → Option F)
    {await : F → String → Observed ρ E (Except E β)} (text : β → String)
    (hawait : ∀ f id, Conforms (next span) (fun stage _ => stage = running) running (await f id))
    (ids : List String) (record : List (String × β)) (cost : ℕ) :
    Conforms (next span) (fun stage _ => stage = running) running
      (loadEach span event find await text ids record cost) := by
  induction ids generalizing record cost with
  | nil => exact rfl
  | cons id ids ih =>
    unfold loadEach
    cases find id with
    | none => exact .call (if_pos rfl) fun _ => ih record cost
    | some f =>
      refine (hawait f id).bind fun stage r hstage => ?_
      subst hstage
      cases r with
      | error e => exact rfl
      | ok v => exact ih _ _

theorem closeLoad_conforms (span : ℕ) (context : LoadedContext) :
    Conforms (next span) (final fun _ => .ok) running
      (closeLoad (ρ := ρ) (E := E) span context) :=
  .call rfl fun _ => .call rfl fun _ => .call rfl fun _ => .call (if_pos rfl) fun _ =>
    .call (if_pos rfl) fun _ => .call (if_pos rfl) fun _ => closeSpan_conforms none rfl

theorem loadObserved_spanned (loader : ProgressiveContextLoader) (selectedSkillIds : List String)
    (referenceIds : Option (List String)) :
    Spanned (ρ := ρ) (E := E) "context.progressive_load" (fun _ => .ok)
      (loader.loadObserved selectedSkillIds referenceIds) := by
  refine ⟨_, _, rfl, fun span => ?_⟩
  have hbody (loadBody : BodyLoader) (id : String) : Conforms (next span)
      (fun stage _ => stage = running) running (awaitBody (ρ := ρ) (E := E) loadBody id) :=
    .call rfl fun _ => rfl
  have hreference (loadReference : ReferenceLoader) (id : String) : Conforms (next span)
      (fun stage _ => stage = running) running
      (awaitReference (ρ := ρ) (E := E) loadReference id) :=
    .call rfl fun _ => rfl
  refine (loadEach_conforms span _ _ _ hbody _ _ _).bind fun stage r hstage => ?_
  subst hstage
  cases r with
  | error e => exact trivial
  | ok bodies =>
    refine (loadEach_conforms span _ _ _ hreference _ _ _).bind fun stage r hstage => ?_
    subst hstage
    cases r with
    | error e => exact trivial
    | ok references => exact closeLoad_conforms span _

end ProgressiveContextLoader

namespace SequentialValidator

/-- The status of a validation. -/
def statusOf (report : ValidationReport) : SpanStatus := if report.passed then .ok else .error

theorem loopObserved_conforms (span : ℕ) (rest : List (ValidationStep ℚ ρ)) (ran : List RanStep) :
    Conforms (next span) (final statusOf) running (loopObserved (E := E) span rest ran) := by
  induction rest generalizing ran with
  | nil => exact closeSpan_conforms none rfl
  | cons step rest ih =>
    refine .call rfl fun r => ?_
    cases r with
    | error e => exact trivial
    | ok outcome =>
      refine .call rfl fun _ => ?_
      cases hpassed : outcome.passed with
      | false =>
        rw [Bool.not_false, if_pos rfl]
        exact .call (if_pos rfl) fun _ => closeSpan_conforms _ rfl
      | true => exact ih _

theorem runObserved_spanned (steps : List (ValidationStep ℚ ρ)) :
    Spanned (E := E) "validation.run" statusOf (runObserved steps) :=
  ⟨_, _, rfl, fun span => loopObserved_conforms span _ _⟩

end SequentialValidator

theorem ObservedCall.program_spanned (call : ObservedCall ρ) :
    Spanned (E := E) call.spanName ObservedResult.status call.program := by
  cases call with
  | compact items =>
    exact (ThreadCompactor.compactObserved_spanned items).map fun _ => rfl
  | load loader selectedSkillIds referenceIds =>
    exact (loader.loadObserved_spanned selectedSkillIds referenceIds).map fun _ => rfl
  | validate steps =>
    have h := SequentialValidator.runObserved_spanned (E := E) steps
    exact h.map (f := ObservedResult.validated) fun _ => rfl

/-! ## Interleaved calls -/

section Interleaved

variable {δ ι τ σ : Type}

/-- The spans as the cells that the calls own. -/
def spanProtocol (calls : ι → ObservedCall ρ) :
    Pool.Protocol ι (ObsOp (Callback ρ)) (Except E ObservedResult) (ObsWorld τ σ) SpanStage
      RecordedSpan where
  cells w := w.obs.spans
  next := next
  final _ := final ObservedResult.status
  Shows i stage span := span.name = (calls i).spanName ∧ stage.Shows span

variable (env : δ → ObsEnv (Callback ρ) (Callback.Res E) τ σ) (calls : ι → ObservedCall ρ)

theorem spanProtocol_kept :
    (spanProtocol (E := E) (τ := τ) (σ := σ) calls).Kept fun d => obsHandler (env d) := by
  intro k s o t d w hnext
  obtain ⟨g, hspans, hg⟩ := next_effect (env d) hnext w
  exact ⟨g, hspans, fun i span hshows =>
    ⟨(hg span).1.trans hshows.1, (hg span).2 hshows.2⟩⟩

theorem spanProtocol_opens (i : ι) :
    (spanProtocol (E := E) (τ := τ) (σ := σ) calls).Opens (fun d => obsHandler (env d)) running i
      (calls i).program := by
  obtain ⟨attributes, k, hprogram, hk⟩ := (calls i).program_spanned (E := E)
  rw [hprogram]
  intro d w
  exact ⟨_, rfl, ⟨rfl, rfl, rfl⟩, hk _⟩

/-- What the record of its span tells of a call. -/
structure Tells (call : ObservedCall ρ) (result : Option (Except E ObservedResult))
    (span : RecordedSpan) : Prop where
  name : span.name = call.spanName
  ended : span.endedAt.isSome = true ↔ ∃ r, result = some (.ok r)
  status : ∀ r, result = some (.ok r) → span.status = r.status
  rejected : ∀ e, result = some (.error e) → span.status = .unset

/-- A call that keeps to the protocol, with the stage that its span shows. -/
theorem tells_of_conforms {call : ObservedCall ρ} {k : ℕ} {stage : SpanStage}
    {span : RecordedSpan} {p : Observed ρ E (Except E ObservedResult)}
    (hname : span.name = call.spanName) (hshows : stage.Shows span)
    (hp : Conforms (next k) (final ObservedResult.status) stage p) :
    Tells call p.result span := by
  cases p with
  | ret r =>
    cases r with
    | error e =>
      have hstage : stage = running := by
        cases stage with
        | running => rfl
        | decided s => exact hp.elim
        | ended s => exact hp.elim
      subst hstage
      refine ⟨hname, ?_, ?_, fun _ _ => hshows.1⟩
      · rw [hshows.2]
        exact iff_of_false Bool.false_ne_true (by rintro ⟨r, ⟨⟩⟩)
      · rintro r ⟨⟩
    | ok a =>
      have hstage : stage = ended a.status := by
        cases stage with
        | running => exact hp.elim
        | decided s => exact hp.elim
        | ended s => exact congrArg ended hp.symm
      subst hstage
      refine ⟨hname, iff_of_true hshows.2 ⟨a, rfl⟩, ?_, ?_⟩
      · rintro r ⟨⟩
        exact hshows.1
      · rintro e ⟨⟩
  | call o k =>
    obtain ⟨stage', hnext, -⟩ := hp
    have hopen : span.endedAt = none := by
      cases stage with
      | running => exact hshows.2
      | decided s => exact hshows.2
      | ended s => cases hnext
    refine ⟨hname, ?_, ?_, ?_⟩
    · rw [hopen]
      exact iff_of_false Bool.false_ne_true (by rintro ⟨r, ⟨⟩⟩)
    · rintro r ⟨⟩
    · rintro e ⟨⟩

/-- After any schedule, each call that has begun has a span of its own, which tells how far it
    has come, and the earlier spans are as they were. -/
theorem spans_tell [DecidableEq ι] (w : ObsWorld τ σ) (schedule : List (ι × δ)) :
    let p := Pool.run (fun d => obsHandler (env d)) schedule (callsPool (E := E) calls w)
    ∃ spanOf : ι → Option ℕ,
      (∀ i, spanOf i = none → p.threads i = (calls i).program) ∧
      (∀ i j k, spanOf i = some k → spanOf j = some k → i = j) ∧
      (∀ i k, spanOf i = some k → w.obs.spans.length ≤ k ∧
        ∃ span, p.state.obs.spans[k]? = some span ∧
          Tells (calls i) (p.threads i).result span) ∧
      ∀ k, (∀ i, spanOf i ≠ some k) → p.state.obs.spans[k]? = w.obs.spans[k]? := by
  intro p
  obtain ⟨spanOf, ho⟩ : ∃ spanOf, Pool.Owned (spanProtocol calls) (callsPool calls w) p spanOf :=
    Pool.owned_run (spanProtocol_kept env calls) (spanProtocol_opens env calls) schedule
  refine ⟨spanOf, ho.waits, ho.once, fun i k hk => ⟨ho.fresh i k hk, ?_⟩, ho.others⟩
  obtain ⟨stage, span, hspan, hshows, hconf⟩ := ho.owns i k hk
  exact ⟨span, hspan, tells_of_conforms hshows.1 hshows.2 hconf⟩

end Interleaved

end Harp
