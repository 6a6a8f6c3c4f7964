import Harp.Gateway.MtlsHttpTransport
import Mathlib.Algebra.Field.Rat
import Mathlib.Algebra.GroupWithZero.Basic

/-
  The two readings of the concierge (`src/gateway/concierge/Concierge.ts`).

  `Concierge.generate` takes typed responses, `WireConcierge.generate` any JSON value. Where
  every exchange carries a well-formed response, the second ends as the first does
  (`generate_refines`): `Carries` relates what a container sends with what the concierge is
  told it gets, and the induction is on the retries left, then on the plan.
-/

namespace Harp.WireConcierge

open Prog
open Concierge (Config Envelope)

/-- The value is a number that equals `q`. -/
def ReadsNumber (value : Option Json) (q : ℚ) : Prop :=
  ∃ m e : ℤ, value = some (.num m e) ∧ q = m * 10 ^ e

structure ReadsSuccess (v : Json) (r : ContainerSuccess) : Prop where
  ok : v.get "ok" = some (.bool true)
  text : v.get "text" = some (.str r.text)
  modelUsed : v.get "modelUsed" = some (.str r.modelUsed)
  modelClass : v.get "modelClass" = some (.str r.modelClass.text)
  inputTokens : ReadsNumber (v.get "inputTokens") r.inputTokens
  outputTokens : ReadsNumber (v.get "outputTokens") r.outputTokens
  estimatedCostUsd : ReadsNumber (v.get "estimatedCostUsd") r.estimatedCostUsd
  latencyMs : ReadsNumber (v.get "latencyMs") r.latencyMs

structure ReadsFailure (v : Json) (f : ContainerFailure) : Prop where
  ok : v.get "ok" = some (.bool false)
  kind : v.get "kind" = some (.str f.kind.text)
  message : v.get "message" = some (.str f.message)
  retryable : v.get "retryable" = some (.bool f.retryable)

/-- The transport hands on the typed answer. -/
def Carries : Except Thrown Json → DeliveryAnswer → Prop
  | .error _, .error _ => True
  | .ok v, .ok (.success r) => ReadsSuccess v r
  | .ok v, .ok (.failure f) => ReadsFailure v f
  | _, _ => False

/-- What the transport makes up on its own is a well-formed failure. -/
theorem fail_reads (request : ContainerRequest) (kind : ContainerFailureKind) (message : String)
    (retryable : Bool) :
    ReadsFailure (MtlsHttpTransport.fail request kind message retryable)
      ⟨request.protocolVersion, request.correlationId, kind, message, retryable⟩ :=
  ⟨rfl, rfl, rfl, rfl⟩

structure ReadsResponse (r : WireResponse) (r' : CoreModelResponse) : Prop where
  text : r.text = some (.str r'.text)
  modelUsed : r.modelUsed = some (.str r'.modelUsed)
  modelClass : r.modelClass = some (.str r'.modelClass.text)
  inputTokens : ReadsNumber r.inputTokens r'.inputTokens
  outputTokens : ReadsNumber r.outputTokens r'.outputTokens
  estimatedCostUsd : ReadsNumber r.estimatedCostUsd r'.estimatedCostUsd
  latencyMs : ReadsNumber r.latencyMs r'.latencyMs

/-- The same error, with the last kind as a value. -/
def SameError : WireThrown → Thrown → Prop
  | .conciergeError message lastKind, .conciergeError message' lastKind' =>
    message = message' ∧ lastKind = lastKind'.map .str
  | _, _ => False

def SameOutcome : Except WireThrown WireResponse → Except Thrown CoreModelResponse → Prop
  | .ok r, .ok r' => ReadsResponse r r'
  | .error e, .error e' => SameError e e'
  | _, _ => False

def SameTried : Tried → Concierge.Tried → Prop
  | .resolved r, .resolved r' => ReadsResponse r r'
  | .thrown e, .thrown e' => SameError e e'
  | .moveOn lastKind, .moveOn lastKind' => lastKind = lastKind'.map .str
  | _, _ => False

theorem coreResponse_reads {v : Json} {r : ContainerSuccess} (h : ReadsSuccess v r) :
    ReadsResponse (coreResponse v) (Concierge.coreResponse r) :=
  ⟨h.text, h.modelUsed, h.modelClass, h.inputTokens, h.outputTokens, h.estimatedCostUsd,
    h.latencyMs⟩

theorem isNull_of_get {v : Json} {key : String} {x : Json} (h : v.get key = some x) :
    v.isNull = false := by
  cases v with
  | null => exact nomatch h
  | _ => rfl

theorem fatal_reads {v : Json} {f : ContainerFailure} (h : ReadsFailure v f) :
    fatal (v.get "kind") = Concierge.fatal f.kind := by
  rw [h.kind]
  cases f.kind <;> rfl

theorem fatalError_reads (number : Int → Int → String) (container : RegisteredContainer)
    {v : Json} {f : ContainerFailure} (h : ReadsFailure v f) :
    SameError (fatalError number container v) (Concierge.fatalError container f) := by
  unfold fatalError
  rw [h.kind, h.message]
  exact ⟨rfl, rfl⟩

theorem exhaustedError_reads (number : Int → Int → String) (modelClass : WireModelClass)
    (lastKind : Option String) :
    SameError (exhaustedError number modelClass (lastKind.map .str))
      (Concierge.exhaustedError modelClass lastKind) := by
  cases lastKind with
  | none => exact ⟨rfl, rfl⟩
  | some kind => exact ⟨rfl, rfl⟩

/-! ## Two runs -/

/-- The containers of `wire` send what `world` says the concierge gets; neither world reacts to
    the log. -/
structure Sends {ε : Type} (wire : WireEnv ε) (world : GatewayEnv ε) : Prop where
  randomUUID : wire.randomUUID = world.randomUUID
  wireLog : ∀ fields e, wire.log fields e = e
  log : ∀ fields e, world.log fields e = e
  carries : ∀ container request registry e,
    Carries (MtlsHttpTransport.response request (wire.exchange container request registry e).1)
      (world.deliver container request registry e).1
  after : ∀ container request registry e,
    (wire.exchange container request registry e).2 = (world.deliver container request registry e).2

section Refines

variable {ε : Type} {wire : WireEnv ε} {world : GatewayEnv ε} (h : Sends wire world)
  (number : Int → Int → String) (retries : Nat) (env : Envelope)
include h

theorem attempts_refines (container : RegisteredContainer) (left : Nat)
    (lastKind : Option String) (w : GatewayWorld ε) :
    let x := run (wireHandler wire)
      (attempts number retries env container left (lastKind.map .str)) w
    let y := run (gatewayHandler world) (Concierge.attempts retries env container left lastKind) w
    SameTried x.1 y.1 ∧ x.2 = y.2 := by
  have hlog (fields : WireLogFields) (w : GatewayWorld ε) :
      (wireHandler wire (.log fields) w).2 = w := by
    simp only [wireHandler, h.wireLog]
  have hlog' (fields : SafeLogFields) (w : GatewayWorld ε) :
      (gatewayHandler world (.log fields) w).2 = w := by
    simp only [gatewayHandler, h.log]
  induction left generalizing lastKind w with
  | zero => exact ⟨rfl, rfl⟩
  | succ left ih =>
    have hcarries : Carries (MtlsHttpTransport.response env.request
        (wireHandler wire (.exchange container env.request) w).1)
        (gatewayHandler world (.deliver container env.request) w).1 := h.carries _ _ _ _
    have hafter : (wireHandler wire (.exchange container env.request) w).2 =
        (gatewayHandler world (.deliver container env.request) w).2 := by
      simp only [wireHandler, gatewayHandler, h.after]
    simp only [attempts, deliver, Concierge.attempts, perform_bind, call_bind, ret_bind,
      pure_eq_ret, run_call]
    rw [hafter]
    generalize MtlsHttpTransport.response env.request _ = response at hcarries ⊢
    generalize gatewayHandler world (.deliver container env.request) w = d at hcarries ⊢
    obtain ⟨a, w'⟩ := d
    match response, a, hcarries with
    | .error _, .error _, _ =>
      simp only [run_call, hlog, hlog']
      exact ih (some "transport") w'
    | .ok v, .ok (.success r), hr =>
      have hok : holds (v.get "ok") = true := by rw [hr.ok]; rfl
      simp only [isNull_of_get hr.ok, hok, Bool.false_eq_true, if_false, if_true, run_call,
        run_ret, hlog, hlog']
      exact ⟨coreResponse_reads hr, trivial⟩
    | .ok v, .ok (.failure f), hf =>
      have hok : holds (v.get "ok") = false := by rw [hf.ok]; rfl
      have hretryable : holds (v.get "retryable") = f.retryable := by rw [hf.retryable]; rfl
      simp only [isNull_of_get hf.ok, hok, fatal_reads hf, hretryable, Bool.false_eq_true, if_false]
      by_cases hfatal : Concierge.fatal f.kind = true
      · simp only [hfatal, if_true, run_call, run_ret, hlog, hlog']
        exact ⟨fatalError_reads number container hf, trivial⟩
      · by_cases hr : (f.retryable && decide (retries - left < retries)) = true
        · simp only [hfatal, hr, Bool.false_eq_true, if_false, if_true, run_call, hlog, hlog',
            hf.kind]
          exact ih (some f.kind.text) w'
        · simp only [hfatal, hr, Bool.false_eq_true, if_false, run_call, hlog, hlog', hf.kind]
          exact ⟨rfl, rfl⟩

theorem failover_refines (plan : List RegisteredContainer) (lastKind : Option String)
    (w : GatewayWorld ε) :
    let x := run (wireHandler wire) (failover number retries env plan (lastKind.map .str)) w
    let y := run (gatewayHandler world) (Concierge.failover retries env plan lastKind) w
    SameOutcome x.1 y.1 ∧ x.2 = y.2 := by
  induction plan generalizing lastKind w with
  | nil =>
    refine ⟨exhaustedError_reads number env.modelClass lastKind, ?_⟩
    simp only [failover, Concierge.failover, perform_bind, run_call, run_pure, wireHandler,
      gatewayHandler, h.wireLog, h.log]
  | cons container rest ih =>
    obtain ⟨htried, hw⟩ := attempts_refines h number retries env container retries lastKind w
    simp only [failover, Concierge.failover, run_bind, hw]
    generalize (run (wireHandler wire) _ w).1 = tried at htried ⊢
    generalize run (gatewayHandler world) _ w = y at htried ⊢
    obtain ⟨tried', w'⟩ := y
    match tried, tried', htried with
    | .resolved _, .resolved _, hr => exact ⟨hr, rfl⟩
    | .thrown _, .thrown _, he => exact ⟨he, rfl⟩
    | .moveOn _, .moveOn lastKind', rfl => exact ih lastKind' w'

theorem deliverAlong_refines (config : Config) (request : CoreModelRequest)
    (correlationId : String) (plan : List RegisteredContainer) (w : GatewayWorld ε) :
    let x := run (wireHandler wire) (deliverAlong number config request correlationId plan) w
    let y := run (gatewayHandler world)
      (Concierge.deliverAlong config request correlationId plan) w
    SameOutcome x.1 y.1 ∧ x.2 = y.2 := by
  unfold deliverAlong Concierge.deliverAlong
  by_cases hp : plan.length = 0
  · rw [if_pos hp, if_pos hp]
    refine ⟨⟨rfl, rfl⟩, ?_⟩
    simp only [perform_bind, run_call, run_pure, wireHandler, gatewayHandler, h.wireLog, h.log]
  · rw [if_neg hp, if_neg hp]
    exact failover_refines h number _ _ plan none w

/-- Where containers send well-formed responses, the concierge that reads any JSON value ends as the
    one that is told the type, in the same world. -/
theorem generate_refines (config : Config) (request : CoreModelRequest) (w : GatewayWorld ε) :
    let x := run (wireHandler wire) (generate number config request) w
    let y := run (gatewayHandler world) (Concierge.generate config request) w
    SameOutcome x.1 y.1 ∧ x.2 = y.2 := by
  simp only [generate, Concierge.generate, perform_bind, run_call, wireHandler, gatewayHandler,
    h.randomUUID, h.wireLog, h.log]
  exact deliverAlong_refines h number config request _ _ _

end Refines

end Harp.WireConcierge
