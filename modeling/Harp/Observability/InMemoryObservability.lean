import Harp.Lib.Conforms
import Harp.Lib.Record
import Mathlib.Algebra.Order.Ring.Rat

/-
  The observability of the process (`src/observability/types.ts`,
  `src/observability/InMemoryObservability.ts`).

  A span is a reference to its record, so it is the position of the record among the spans. Code
  that is observed is a program over `ObsOp`: it starts spans, changes them, counts, and calls what
  lies outside of it. The log emitter is left out, nothing emits a log.
-/

namespace Harp

inductive AttributeValue where
  | text (s : String)
  | number (q : ℚ)
  | bool (b : Bool)
  deriving DecidableEq

abbrev Attributes := List (String × AttributeValue)

inductive SpanStatus where
  | unset
  | ok
  | error
  deriving DecidableEq, Repr

structure RecordedSpan where
  traceId : String
  spanId : String
  parentSpanId : Option String
  name : String
  attributes : Attributes
  events : List (String × Option Attributes)
  status : SpanStatus
  statusMessage : Option String
  startedAt : ℤ
  endedAt : Option ℤ
  deriving DecidableEq

inductive MetricKind where
  | counter
  | histogram
  deriving DecidableEq, Repr

structure RecordedMetric where
  kind : MetricKind
  name : String
  value : ℚ
  attributes : Option Attributes
  deriving DecidableEq

structure InMemoryObservability where
  spans : List RecordedSpan
  metrics : List RecordedMetric
  deriving DecidableEq

namespace InMemoryObservability

def create : InMemoryObservability := ⟨[], []⟩

/-- A change of the record that a span refers to. -/
def update (obs : InMemoryObservability) (span : ℕ) (f : RecordedSpan → RecordedSpan) :
    InMemoryObservability :=
  { obs with spans := obs.spans.modify span f }

def push (obs : InMemoryObservability) (metric : RecordedMetric) : InMemoryObservability :=
  { obs with metrics := obs.metrics ++ [metric] }

end InMemoryObservability

inductive ObsOp (X : Type) where
  /-- `tracer.startSpan(name, attributes, parent)`. -/
  | startSpan (name : String) (attributes : Attributes) (parent : Option ℕ)
  | setAttribute (span : ℕ) (key : String) (value : AttributeValue)
  | addEvent (span : ℕ) (name : String) (attributes : Option Attributes)
  | setStatus (span : ℕ) (status : SpanStatus) (message : Option String)
  /-- `span.end()`. -/
  | endSpan (span : ℕ)
  /-- `meter.counter(name).add(value, attributes)`. -/
  | add (name : String) (value : ℚ) (attributes : Option Attributes)
  /-- `meter.histogram(name).record(value, attributes)`. -/
  | record (name : String) (value : ℚ) (attributes : Option Attributes)
  /-- Code from outside is called. -/
  | outside (x : X)

abbrev ObsOp.Res {X : Type} (R : X → Type) : ObsOp X → Type
  | startSpan .. => ℕ
  | setAttribute .. => Unit
  | addEvent .. => Unit
  | setStatus .. => Unit
  | endSpan _ => Unit
  | add .. => Unit
  | record .. => Unit
  | outside x => R x

/-- The ids and the clock, and the code from outside. -/
structure ObsEnv (X : Type) (R : X → Type) (τ σ : Type) where
  randomUUID : τ → String × τ
  dateNow : τ → ℤ × τ
  outside : (x : X) → σ → R x × σ

structure ObsWorld (τ σ : Type) where
  obs : InMemoryObservability
  clock : τ
  outside : σ

section Handler

variable {X : Type} {R : X → Type} {τ σ : Type} (env : ObsEnv X R τ σ)

/-- The record of a new span, and the clock after it. A span without a parent starts a trace. -/
def ObsEnv.newSpan (obs : InMemoryObservability) (name : String) (attributes : Attributes)
    (parent : Option ℕ) (clock : τ) : RecordedSpan × τ :=
  let parentSpan := parent.bind (obs.spans[·]?)
  let traceId := match parentSpan with
    | some span => (span.traceId, clock)
    | none => env.randomUUID clock
  let spanId := env.randomUUID traceId.2
  let startedAt := env.dateNow spanId.2
  ({ traceId := traceId.1
     spanId := spanId.1
     parentSpanId := parentSpan.map (·.spanId)
     name := name
     attributes := attributes
     events := []
     status := .unset
     statusMessage := none
     startedAt := startedAt.1
     endedAt := none }, startedAt.2)

def obsHandler : Handler (ObsOp X) (ObsOp.Res R) (ObsWorld τ σ)
  | .startSpan name attributes parent, w =>
    let span := env.newSpan w.obs name attributes parent w.clock
    (w.obs.spans.length,
      { w with obs := { w.obs with spans := w.obs.spans ++ [span.1] }, clock := span.2 })
  | .setAttribute span key value, w =>
    ((), { w with obs := w.obs.update span fun s =>
      { s with attributes := Js.setProperty s.attributes key value } })
  | .addEvent span name attributes, w =>
    ((), { w with obs := w.obs.update span fun s =>
      { s with events := s.events ++ [(name, attributes)] } })
  | .setStatus span status message, w =>
    ((), { w with obs := w.obs.update span fun s =>
      { s with status := status, statusMessage := message } })
  | .endSpan span, w =>
    let now := env.dateNow w.clock
    ((), { w with
      obs := w.obs.update span fun s => { s with endedAt := some now.1 }
      clock := now.2 })
  | .add name value attributes, w =>
    ((), { w with obs := w.obs.push ⟨.counter, name, value, attributes⟩ })
  | .record name value attributes, w =>
    ((), { w with obs := w.obs.push ⟨.histogram, name, value, attributes⟩ })
  | .outside x, w =>
    let r := env.outside x w.outside
    (r.1, { w with outside := r.2 })

end Handler

/-! ## The life of a span -/

/-- How far a call is with its span. -/
inductive SpanStage where
  | running
  | decided (status : SpanStatus)
  | ended (status : SpanStatus)

namespace SpanStage

/-- A call changes its own span only, sets its status once, and then ends it. -/
def next {X : Type} (span : ℕ) : SpanStage → ObsOp X → Option SpanStage
  | running, .setAttribute k _ _ => if k = span then some running else none
  | running, .addEvent k _ _ => if k = span then some running else none
  | running, .setStatus k status _ => if k = span then some (decided status) else none
  | running, .add .. => some running
  | running, .record .. => some running
  | running, .outside _ => some running
  | decided status, .endSpan k => if k = span then some (ended status) else none
  | _, _ => none

/-- A call that resolves has ended its span with the status of its result, and a call that rejects
    has left it as it was. -/
def final {E α : Type} (status : α → SpanStatus) : SpanStage → Except E α → Prop
  | running, .error _ => True
  | ended s, .ok a => status a = s
  | _, _ => False

/-- The record of the span. -/
def Shows : SpanStage → RecordedSpan → Prop
  | running, span => span.status = .unset ∧ span.endedAt = none
  | decided status, span => span.status = status ∧ span.endedAt = none
  | ended status, span => span.status = status ∧ span.endedAt.isSome = true

/-- What a call may perform changes the record of its own span, and as it should. -/
theorem next_effect {X : Type} {R : X → Type} {τ σ : Type} (env : ObsEnv X R τ σ) {k : ℕ}
    {stage stage' : SpanStage} {o : ObsOp X} (h : stage.next k o = some stage')
    (w : ObsWorld τ σ) :
    ∃ g, (obsHandler env o w).2.obs.spans = w.obs.spans.modify k g ∧
      ∀ span, (g span).name = span.name ∧ (stage.Shows span → stage'.Shows (g span)) := by
  have hsame (hstage : stage = stage') (hspans : (obsHandler env o w).2.obs.spans = w.obs.spans) :
      ∃ g, (obsHandler env o w).2.obs.spans = w.obs.spans.modify k g ∧
        ∀ span, (g span).name = span.name ∧ (stage.Shows span → stage'.Shows (g span)) :=
    ⟨id, by rw [hspans, List.modify_id], fun span => ⟨rfl, fun hs => hstage ▸ hs⟩⟩
  cases stage with
  | running =>
    cases o with
    | setAttribute j key value =>
      obtain ⟨rfl, hs⟩ := Option.ite_none_right_eq_some.mp h
      obtain rfl := Option.some.inj hs
      exact ⟨_, rfl, fun span => ⟨rfl, fun hs => hs⟩⟩
    | addEvent j name attributes =>
      obtain ⟨rfl, hs⟩ := Option.ite_none_right_eq_some.mp h
      obtain rfl := Option.some.inj hs
      exact ⟨_, rfl, fun span => ⟨rfl, fun hs => hs⟩⟩
    | setStatus j status message =>
      obtain ⟨rfl, hs⟩ := Option.ite_none_right_eq_some.mp h
      obtain rfl := Option.some.inj hs
      exact ⟨_, rfl, fun span => ⟨rfl, fun hs => ⟨rfl, hs.2⟩⟩⟩
    | add name value attributes => exact hsame (Option.some.inj h) rfl
    | record name value attributes => exact hsame (Option.some.inj h) rfl
    | outside x => exact hsame (Option.some.inj h) rfl
    | startSpan name attributes parent => cases h
    | endSpan j => cases h
  | decided status =>
    cases o with
    | endSpan j =>
      obtain ⟨rfl, hs⟩ := Option.ite_none_right_eq_some.mp h
      obtain rfl := Option.some.inj hs
      exact ⟨_, rfl, fun span => ⟨rfl, fun hs => ⟨hs.1, rfl⟩⟩⟩
    | _ => cases h
  | ended status => cases h

end SpanStage

end Harp
