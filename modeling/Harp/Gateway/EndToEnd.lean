import Harp.Gateway.Network
import Harp.Gateway.ModelProvider

/-
  The gateway from end to end (`src/gateway/concierge/Concierge.ts`,
  `src/gateway/concierge/MtlsHttpTransport.ts`, `src/container/src/server.ts`).

  A request that the concierge sends is read by the server as what was sent, and its reply by
  the transport as what the provider answered (`exchange_carries`). So a call over the wire ends as
  one that asks the providers directly (`generate_transparent`), and since no container has a reason
  to refuse what the concierge sends, only the plan ends a call early (`generate_unrefused`).
-/

namespace Harp

open Prog ContainerServer

/-! ## Numbers on the wire -/

/-- The engine writes the number in a way that is read as the number. -/
structure Exact (engine : Engine) (decimal : ℚ → ℤ × ℤ) (q : ℚ) : Prop where
  value : ((decimal q).1 : ℚ) * 10 ^ (decimal q).2 = q
  prints : Json.Prints engine.number (decimal q).1 (decimal q).2

section Numbers

variable {engine : Engine} {decimal : ℚ → ℤ × ℤ}

/-- The number as it is read. -/
def readNumber (engine : Engine) (decimal : ℚ → ℤ × ℤ) (q : ℚ) : Json :=
  (Json.num (decimal q).1 (decimal q).2).mapNumbers (Json.reread engine.number)

theorem Exact.reads {q : ℚ} (h : Exact engine decimal q) :
    WireConcierge.ReadsNumber (some (readNumber engine decimal q)) q :=
  ⟨_, _, rfl, h.value.symm.trans h.prints.reread_eq.2⟩

theorem Exact.numberOf {q : ℚ} (h : Exact engine decimal q) :
    ProviderInput.numberOf (some (readNumber engine decimal q)) = some q := by
  obtain ⟨m, e, hv, hq⟩ := h.reads
  rw [hv, hq]
  rfl

theorem Exact.naturalOf {n : ℕ} (h : Exact engine decimal n) :
    ProviderInput.naturalOf (some (readNumber engine decimal n)) = some n := by
  rw [ProviderInput.naturalOf, h.numberOf]
  simp

/-- The numbers of a request are exact, and its protocol version is the server's. -/
structure Sendable (engine : Engine) (decimal : ℚ → ℤ × ℤ) (request : ContainerRequest) : Prop where
  version : request.protocolVersion = wireProtocolVersion
  temperature : ∀ t ∈ request.temperature, Exact engine decimal t
  deadlineMs : Exact engine decimal request.deadlineMs

/-- The numbers of an answer are exact. -/
structure Provided.Exact (engine : Engine) (decimal : ℚ → ℤ × ℤ) (out : Provided) : Prop where
  inputTokens : Harp.Exact engine decimal out.inputTokens
  outputTokens : Harp.Exact engine decimal out.outputTokens
  estimatedCostUsd : Harp.Exact engine decimal out.estimatedCostUsd
  latencyMs : Harp.Exact engine decimal out.latencyMs

end Numbers

/-! ## What each end reads -/

section Reads

variable {engine : Engine} {decimal : ℚ → ℤ × ℤ}

theorem legible_literal {number : Int → Int → String} {members : List (String × Option Json)}
    (h : ∀ m ∈ members, ∀ v ∈ m.2, Json.Legible number v) :
    Json.Legible number (literal members) := by
  refine .obj fun m hm => ?_
  obtain ⟨m', hm', heq⟩ := List.mem_filterMap.mp hm
  obtain ⟨v, hv, rfl⟩ := Option.map_eq_some_iff.mp heq
  exact h m' hm' v hv

/-- A legible value arrives, with its numbers as they are read. -/
theorem parse_text {v : Json} (h : Json.Legible engine.number v) :
    Json.parse (Network.text engine v).toList =
      some (v.mapNumbers (Json.reread engine.number)) := by
  rw [Network.text, String.toList_ofList]
  exact Json.parse_stringify_legible h

theorem Sendable.legible {request : ContainerRequest} (h : Sendable engine decimal request) :
    Json.Legible engine.number (request.json decimal) := by
  refine legible_literal ?_
  simp only [List.forall_mem_cons, Option.mem_def, Option.some.injEq, forall_eq',
    List.not_mem_nil, false_imp_iff, implies_true, and_true]
  refine ⟨.str _, .str _, .str _, .str _, .str _, fun v hv => ?_, .bool _, .num h.deadlineMs.prints⟩
  obtain ⟨t, ht, rfl⟩ := Option.map_eq_some_iff.mp hv
  exact .num (h.temperature t ht).prints

theorem legible_success {out : Provided} (h : out.Exact engine decimal) (correlationId : String) :
    Json.Legible engine.number (success (some (.str correlationId)) (out.output decimal)) := by
  refine legible_literal ?_
  simp only [List.forall_mem_cons, Option.mem_def, Option.some.injEq, forall_eq',
    List.not_mem_nil, false_imp_iff, implies_true, and_true]
  exact ⟨.bool _, .str _, .str _, .str _, .str _, .str _, .num h.inputTokens.prints,
    .num h.outputTokens.prints, .num h.estimatedCostUsd.prints, .num h.latencyMs.prints⟩

theorem legible_failure (correlationId message : String) (kind : ContainerFailureKind)
    (retryable : Bool) :
    Json.Legible engine.number (failure (some (.str correlationId)) kind message retryable) := by
  refine legible_literal ?_
  simp only [List.forall_mem_cons, Option.mem_def, Option.some.injEq, forall_eq',
    List.not_mem_nil, false_imp_iff, implies_true, and_true]
  exact ⟨.bool _, .str _, .str _, .str _, .str _, .bool _⟩

/-- What the transport reads of a success is the provider's answer. -/
theorem reads_success {out : Provided} (h : out.Exact engine decimal) (correlationId : String) :
    WireConcierge.ReadsSuccess
      ((success (some (.str correlationId)) (out.output decimal)).mapNumbers
        (Json.reread engine.number)) (out.success correlationId) where
  ok := by rw [Json.get_mapNumbers]; rfl
  text := by rw [Json.get_mapNumbers]; rfl
  modelUsed := by rw [Json.get_mapNumbers]; rfl
  modelClass := by rw [Json.get_mapNumbers]; rfl
  inputTokens := by rw [Json.get_mapNumbers]; exact h.inputTokens.reads
  outputTokens := by rw [Json.get_mapNumbers]; exact h.outputTokens.reads
  estimatedCostUsd := by rw [Json.get_mapNumbers]; exact h.estimatedCostUsd.reads
  latencyMs := by rw [Json.get_mapNumbers]; exact h.latencyMs.reads

theorem reads_failure (correlationId message : String) (kind : ContainerFailureKind)
    (retryable : Bool) :
    WireConcierge.ReadsFailure
      ((failure (some (.str correlationId)) kind message retryable).mapNumbers
        (Json.reread engine.number))
      ⟨wireProtocolVersion, correlationId, kind, message, retryable⟩ where
  ok := by rw [Json.get_mapNumbers]; rfl
  kind := by rw [Json.get_mapNumbers]; rfl
  message := by rw [Json.get_mapNumbers]; rfl
  retryable := by rw [Json.get_mapNumbers]; rfl

theorem modelClassOf_text (c : WireModelClass) :
    ProviderInput.modelClassOf (some (.str c.text)) = some c := by
  cases c <;> decide

theorem optionalOf_reads {temperature : Option ℚ}
    (h : ∀ t ∈ temperature, Exact engine decimal t) :
    ProviderInput.optionalOf (temperature.map (readNumber engine decimal)) = some temperature := by
  cases temperature with
  | none => rfl
  | some t =>
    show (ProviderInput.numberOf (some (readNumber engine decimal t))).map some = _
    rw [(h t rfl).numberOf, Option.map_some]

/-- The properties of a request that has been read. -/
structure Arrived (engine : Engine) (decimal : ℚ → ℤ × ℤ) (request : ContainerRequest) (v : Json) :
    Prop where
  protocolVersion : v.get "protocolVersion" = some (.str request.protocolVersion)
  correlationId : v.get "correlationId" = some (.str request.correlationId)
  modelClass : v.get "modelClass" = some (.str request.modelClass.text)
  systemPrompt : v.get "systemPrompt" = some (.str request.systemPrompt)
  userPrompt : v.get "userPrompt" = some (.str request.userPrompt)
  temperature : v.get "temperature" = request.temperature.map (readNumber engine decimal)
  highRisk : v.get "highRisk" = some (.bool request.highRisk)
  deadlineMs : v.get "deadlineMs" = some (readNumber engine decimal request.deadlineMs)

theorem arrived (request : ContainerRequest) :
    Arrived engine decimal request
      ((request.json decimal).mapNumbers (Json.reread engine.number)) := by
  unfold ContainerRequest.json
  -- a temperature that is `undefined` is left out
  constructor <;> rw [Json.get_mapNumbers] <;> cases request.temperature <;> rfl

/-- The server asks its provider for what the concierge asks for. -/
theorem Arrived.asked {request : ContainerRequest} {v : Json} (h : Arrived engine decimal request v)
    (hsend : Sendable engine decimal request) : (inputOf v).asked = some request.asked := by
  simp only [ProviderInput.asked, inputOf, h.modelClass, h.systemPrompt, h.userPrompt,
    h.temperature, h.highRisk, h.deadlineMs, modelClassOf_text, ProviderInput.stringOf,
    ProviderInput.boolOf, optionalOf_reads hsend.temperature, hsend.deadlineMs.naturalOf]
  rfl

theorem Arrived.versionMatches {request : ContainerRequest} {v : Json}
    (h : Arrived engine decimal request v) (hsend : Sendable engine decimal request) :
    versionMatches v = true := by
  rw [ContainerServer.versionMatches, h.protocolVersion, hsend.version]
  rfl

end Reads

/-! ## One exchange -/

section Exchange

variable {E ε : Type} {engine : Engine} {decimal : ℚ → ℤ × ℤ} {request : ContainerRequest}

/-- The JSON value of a response, as the server writes it. -/
def written (decimal : ℚ → ℤ × ℤ) (correlationId : String) : Except String Provided → ℕ × Json
  | .ok out => (200, success (some (.str correlationId)) (out.output decimal))
  | .error message =>
    (502, ContainerServer.failure (some (.str correlationId)) .providerError message true)

theorem handle_post {descriptor : ContainerDescriptor} {raw : String} {v : Json}
    (hraw : Json.parse raw.toList = some v) (hnull : v.isNull = false)
    (hversion : versionMatches v = true) :
    (handle engine descriptor (post raw : IncomingMessage E)).run =
      (outerTry (callProvider v)).run := by
  have hpost : (handle engine descriptor (post raw : IncomingMessage E)).run =
      (outerTry (handleGenerate engine raw)).run := rfl
  rw [hpost, handleGenerate, hraw]
  simp only [hnull, hversion]
  rfl

/-- The operations of a request that reaches the provider. -/
theorem callProvider_run (v : Json) :
    ∃ k, (outerTry (callProvider v : Call E Unit)).run = .call (.generate (inputOf v)) k ∧
      (∀ out, k (.ok out) =
        .call (.sendJson 200 (success (v.get "correlationId") out)) fun _ => .ret (.ok ())) ∧
      ∀ error, ∃ k', k (.error error) = .call (.errorText error) k' ∧
        ∀ message, k' (.ok message) = .call (.sendJson 502
          (ContainerServer.failure (v.get "correlationId") .providerError message true))
            fun _ => .ret (.ok ()) :=
  ⟨_, rfl, fun _ => rfl, fun _ => ⟨_, rfl, fun _ => rfl⟩⟩

/-- The server replies with its provider's answer. -/
theorem serve_eq (host : ContainerHost E ε) (h : Sendable engine decimal request) (e : ε) :
    host.serve engine decimal (Network.text engine (request.json decimal)) e =
      match host.generate request.asked e with
      | (.ok out, e) => (some (written decimal request.correlationId (.ok out)), e)
      | (.error error, e) =>
        (some (written decimal request.correlationId (.error (host.errorText error e).1)),
          (host.errorText error e).2) := by
  have harrived := @arrived engine decimal request
  have hasked := harrived.asked h
  unfold ContainerHost.serve
  rw [handle_post (parse_text h.legible) (WireConcierge.isNull_of_get harrived.correlationId)
    (harrived.versionMatches h)]
  generalize (request.json decimal).mapNumbers (Json.reread engine.number) = v at *
  have hgen : host.handler decimal (.generate (inputOf v)) e =
      ((host.generate request.asked e).1.map (Provided.output decimal),
        (host.generate request.asked e).2) := by
    simp only [ContainerHost.handler, hasked]
  obtain ⟨k, hp, hok, herror⟩ := callProvider_run (E := E) v
  rw [harrived.correlationId] at hok herror
  dsimp only
  rw [hp, trace_call, run_call, hgen]
  generalize host.generate request.asked e = d
  obtain ⟨error | out, e'⟩ := d
  · obtain ⟨k', hk', hsend⟩ := herror error
    show ((replies (_ :: trace _ (k (.error error)) e')).head?, (run _ (k (.error error)) e').2) = _
    rw [hk', trace_call, run_call]
    show ((replies (_ :: _ :: trace _ (k' (.ok _)) _)).head?, (run _ (k' (.ok _)) _).2) = _
    rw [hsend]
    rfl
  · show ((replies (_ :: trace _ (k (.ok _)) e')).head?, (run _ (k (.ok _)) e').2) = _
    rw [hok]
    rfl

theorem response_of_parse {status : ℕ} {body : String} {v : Json}
    (hstatus : status = 200 ∨ status = 502) (hparse : Json.parse body.toList = some v) :
    MtlsHttpTransport.response request (.reply status body) = .ok v := by
  unfold MtlsHttpTransport.response
  dsimp only
  rw [if_neg (by omega), if_neg (by omega), hparse]

/-- What a provider of declared numbers answers arrives. -/
def Exacting (engine : Engine) (decimal : ℚ → ℤ × ℤ) (host : ContainerHost E ε) : Prop :=
  ∀ asked e out, (host.generate asked e).1 = .ok out → out.Exact engine decimal

theorem serve_carries {host : ContainerHost E ε} (hhost : Exacting engine decimal host)
    (h : Sendable engine decimal request) (e : ε) :
    ∃ status body, host.serve engine decimal (Network.text engine (request.json decimal)) e =
        (some (status, body), (host.answer request e).2) ∧
      WireConcierge.Carries
        (MtlsHttpTransport.response request (.reply status (Network.text engine body)))
        (.ok (host.answer request e).1) := by
  rw [serve_eq host h e, ContainerHost.answer]
  have hexact := hhost request.asked e
  generalize host.generate request.asked e = d at *
  obtain ⟨error | out, e'⟩ := d
  · refine ⟨502, _, rfl, ?_⟩
    rw [response_of_parse (.inr rfl) (parse_text (legible_failure _ _ _ _))]
    exact reads_failure _ _ _ _
  · refine ⟨200, _, rfl, ?_⟩
    rw [response_of_parse (.inl rfl) (parse_text (legible_success (hexact out rfl) _))]
    exact reads_success (hexact out rfl) _

/-- Over the wire the concierge gets what the provider answers, and leaves the same behind. -/
theorem exchange_carries {net : Network E ε} (hnet : ∀ c, Exacting engine decimal (net.host c))
    (h : Sendable engine decimal request) (container : RegisteredContainer) (e : ε) :
    WireConcierge.Carries
        (MtlsHttpTransport.response request (net.outcome engine decimal container request e).1)
        (net.delivery container request e).1 ∧
      (net.outcome engine decimal container request e).2 =
        (net.delivery container request e).2 := by
  unfold Network.outcome Network.delivery
  generalize net.fate container request e = d
  obtain ⟨fate, e'⟩ := d
  obtain ⟨status, body, hserve, hcarries⟩ := serve_carries (hnet container) h e'
  cases fate with
  | unsent t => exact ⟨trivial, rfl⟩
  | failed message => exact ⟨WireConcierge.fail_reads request _ message true, rfl⟩
  | lost message =>
    simp only [hserve]
    exact ⟨WireConcierge.fail_reads request _ message true, trivial⟩
  | served =>
    simp only [hserve]
    exact ⟨hcarries, trivial⟩

end Exchange

/-! ## Whole calls -/

namespace WireConcierge

open Concierge (Config Envelope envelope)

/-- A request that is exchanged is one of `P`. -/
def Exchanges (P : ContainerRequest → Prop) : WireOp → Prop
  | .exchange _ request => P request
  | _ => True

variable {P : ContainerRequest → Prop} {env : Envelope} {number : Int → Int → String} {retries : ℕ}

theorem attempts_exchanges (henv : P env.request) (container : RegisteredContainer) (left : ℕ)
    (lastKind : Option Json) :
    Meets (Exchanges P) (fun _ _ => True) (fun _ => True)
      (attempts number retries env container left lastKind) := by
  induction left generalizing lastKind with
  | zero => trivial
  | succ left ih =>
    simp only [attempts, deliver, perform_bind, call_bind, ret_bind, pure_eq_ret, meets_call]
    refine ⟨henv, fun outcome _ => ?_⟩
    cases MtlsHttpTransport.response env.request outcome with
    | error t => exact ⟨trivial, fun _ _ => ih _⟩
    | ok v =>
      dsimp only
      split_ifs
      · trivial
      · exact ⟨trivial, fun _ _ => trivial⟩
      · exact ⟨trivial, fun _ _ => trivial⟩
      · exact ⟨trivial, fun _ _ => ih _⟩
      · exact ⟨trivial, fun _ _ => ⟨trivial, fun _ _ => trivial⟩⟩

theorem failover_exchanges (henv : P env.request) (plan : List RegisteredContainer)
    (lastKind : Option Json) :
    Meets (Exchanges P) (fun _ _ => True) (fun _ => True)
      (failover number retries env plan lastKind) := by
  induction plan generalizing lastKind with
  | nil => exact ⟨trivial, fun _ _ => trivial⟩
  | cons container rest ih =>
    refine (attempts_exchanges henv container retries lastKind).bind fun tried _ => ?_
    cases tried with
    | resolved r => trivial
    | thrown e => trivial
    | moveOn lastKind => exact ih lastKind

/-- A call exchanges its own envelope only. -/
theorem generate_exchanges (config : Config) (request : CoreModelRequest)
    (henv : ∀ correlationId, P (envelope config request correlationId).request) :
    Meets (Exchanges P) (fun _ _ => True) (fun _ => True) (generate number config request) := by
  simp only [generate, perform_bind, meets_call]
  refine ⟨trivial, fun correlationId _ => ⟨trivial, fun _ _ => ⟨trivial, fun serving _ => ?_⟩⟩⟩
  unfold deliverAlong
  by_cases hplan : (Router.tiered serving).length = 0
  · rw [if_pos hplan]
    exact ⟨trivial, fun _ _ => trivial⟩
  · rw [if_neg hplan]
    exact failover_exchanges (henv correlationId) _ none

/-- `Sends`, for the requests of `P`. -/
structure SendsOn {ε : Type} (P : ContainerRequest → Prop) (wire : WireEnv ε)
    (world : GatewayEnv ε) : Prop where
  randomUUID : wire.randomUUID = world.randomUUID
  wireLog : ∀ fields e, wire.log fields e = e
  log : ∀ fields e, world.log fields e = e
  carries : ∀ container request registry e, P request →
    Carries (MtlsHttpTransport.response request (wire.exchange container request registry e).1)
      (world.deliver container request registry e).1
  after : ∀ container request registry e, P request →
    (wire.exchange container request registry e).2 = (world.deliver container request registry e).2

section SendsOn

variable {ε : Type} {wire : WireEnv ε} {world : GatewayEnv ε}

/-- Two worlds that differ from these on the requests outside of `P` only, where both throw. -/
theorem SendsOn.sends (h : SendsOn P wire world) :
    ∃ wire' world', Sends wire' world' ∧
      (∀ o w, Exchanges P o → wireHandler wire o w = wireHandler wire' o w) ∧
      ∀ o w, Concierge.Sends P o → gatewayHandler world o w = gatewayHandler world' o w := by
  classical
  let thrown : Thrown := .conciergeError "" none
  let exchange (container : RegisteredContainer) (request : ContainerRequest)
      (registry : ContainerRegistry) (e : ε) : HttpOutcome × ContainerRegistry × ε :=
    if P request then wire.exchange container request registry e
    else (.unsent thrown, registry, e)
  let deliver (container : RegisteredContainer) (request : ContainerRequest)
      (registry : ContainerRegistry) (e : ε) : DeliveryAnswer × ContainerRegistry × ε :=
    if P request then world.deliver container request registry e
    else (.error thrown, registry, e)
  refine ⟨{ wire with exchange := exchange }, { world with deliver := deliver }, ?_, ?_, ?_⟩
  · refine ⟨h.randomUUID, h.wireLog, h.log, fun container request registry e => ?_,
      fun container request registry e => ?_⟩
    · by_cases hp : P request
      · simp only [exchange, deliver, hp, if_true]
        exact h.carries container request registry e hp
      · simp only [exchange, deliver, hp, if_false]
        trivial
    · by_cases hp : P request
      · simp only [exchange, deliver, hp, if_true]
        exact h.after container request registry e hp
      · simp only [exchange, deliver, hp, if_false]
  · intro o w ho
    cases o with
    | exchange container request =>
      have hp : P request := ho
      simp only [wireHandler, exchange, hp, if_true]
    | _ => rfl
  · intro o w ho
    cases o with
    | deliver container request =>
      have hp : P request := ho
      simp only [gatewayHandler, deliver, hp, if_true]
    | _ => rfl

/-- A call needs no more than that its own requests are carried. -/
theorem generate_refines_on (h : SendsOn P wire world) (number : Int → Int → String)
    (config : Config) (request : CoreModelRequest) (w : GatewayWorld ε)
    (henv : ∀ correlationId, P (envelope config request correlationId).request) :
    let x := run (wireHandler wire) (generate number config request) w
    let y := run (gatewayHandler world) (Concierge.generate config request) w
    SameOutcome x.1 y.1 ∧ x.2 = y.2 := by
  obtain ⟨wire', world', hsends, hwire, hworld⟩ := h.sends
  rw [(generate_exchanges config request henv).run_congr hwire,
    (Concierge.generate_sends config request henv).run_congr hworld]
  exact generate_refines hsends number config request w

end SendsOn

end WireConcierge

section Transparent

variable {E ε : Type} {engine : Engine} {decimal : ℚ → ℤ × ℤ}

theorem Network.sendsOn {net : Network E ε} (hnet : ∀ c, Exacting engine decimal (net.host c)) :
    WireConcierge.SendsOn (Sendable engine decimal) (net.wire engine decimal) net.direct where
  randomUUID := rfl
  wireLog _ _ := rfl
  log _ _ := rfl
  carries container request _ e h := (exchange_carries hnet h container e).1
  after container request registry e h := by
    show ((_, net.others registry _).2 : ContainerRegistry × ε) = (_, net.others registry _).2
    rw [(exchange_carries hnet h container e).2]

/-- The numbers of a call are exact: its temperature and the deadline. -/
structure ExactCall (engine : Engine) (decimal : ℚ → ℤ × ℤ) (config : Concierge.Config)
    (request : CoreModelRequest) : Prop where
  temperature : ∀ t ∈ request.temperature, Exact engine decimal t
  deadlineMs : Exact engine decimal (config.deadlineMs.getD 60000 : ℕ)

/-- The wire is transparent: between the concierge and the containers' own servers, where numbers
    print as themselves, a call ends as if the concierge had asked the providers, whatever the
    network does, and leaves the same world. -/
theorem generate_transparent (net : Network E ε) (config : Concierge.Config)
    (request : CoreModelRequest) (hnet : ∀ c, Exacting engine decimal (net.host c))
    (hcall : ExactCall engine decimal config request) (w : GatewayWorld ε) :
    let x := run (wireHandler (net.wire engine decimal))
      (WireConcierge.generate engine.number config request) w
    let y := run (gatewayHandler net.direct) (Concierge.generate config request) w
    WireConcierge.SameOutcome x.1 y.1 ∧ x.2 = y.2 :=
  WireConcierge.generate_refines_on (Network.sendsOn hnet) engine.number config request w
    fun _ => ⟨rfl, hcall.temperature, hcall.deadlineMs⟩

end Transparent

/-- An engine that writes whole numbers in decimal digits. -/
def decimalEngine : Engine where
  number m _ := m.repr
  readOfNull := "Cannot read properties of null (reading 'protocolVersion')"
  noPrimitive := "Cannot convert object to primitive value"

/-- The digits of a whole number. -/
def wholeDigits (q : ℚ) : ℤ × ℤ := (q.num, 0)

theorem exact_integer (n : ℤ) : Exact decimalEngine wholeDigits n where
  value := by simp [wholeDigits]
  prints := ⟨_, _, Json.number_repr _, rfl⟩

/-- A network without faults, in which every provider answers the same. -/
def Network.answering (text : String) : Network Empty Unit where
  randomUUID _ := ("uuid", ())
  fate _ _ _ := (.served, ())
  host container := {
    descriptor := container.descriptor
    generate := fun asked _ => (.ok ⟨text, "m", asked.modelClass, 1, 1, 0, 5⟩, ())
    undeclared := fun _ _ => (.ok ⟨text, "m", .localFast, .nonFinite, .nonFinite, .nonFinite,
      .nonFinite⟩, ())
    errorText := fun e _ => e.elim }
  others registry _ := (registry, ())

theorem Network.answering_exacting (text : String) (c : RegisteredContainer) :
    Exacting decimalEngine wholeDigits ((answering text).host c) := by
  intro asked e out hout
  obtain rfl := Except.ok.inj hout
  exact ⟨exact_integer 1, exact_integer 1, exact_integer 0, exact_integer 5⟩

/-- A call for the cloud reasoning class, with the default deadline. -/
def reasoningCall : CoreModelRequest where
  modelClass := .cloudReasoning
  systemPrompt := "system"
  userPrompt := "user"
  temperature := none
  agentId := none
  taskId := none
  workflowId := none
  highRisk := none

theorem reasoningCall_exact :
    ExactCall decimalEngine wholeDigits ModelProvider.config reasoningCall :=
  ⟨fun _ h => absurd h (Option.not_mem_none _), exact_integer 60000⟩

theorem generate_transparent_answering :
    let net := Network.answering "answer"
    let w : GatewayWorld Unit := ⟨(), Concierge.twoContainers⟩
    let x := run (wireHandler (net.wire decimalEngine wholeDigits))
      (WireConcierge.generate decimalEngine.number ModelProvider.config reasoningCall) w
    let y := run (gatewayHandler net.direct)
      (Concierge.generate ModelProvider.config reasoningCall) w
    WireConcierge.SameOutcome x.1 y.1 ∧ x.2 = y.2 :=
  generate_transparent (Network.answering "answer") ModelProvider.config reasoningCall
    (Network.answering_exacting "answer") reasoningCall_exact ⟨(), Concierge.twoContainers⟩

/-! ## How calls end -/

namespace Concierge

section Ended

variable (S : CoreModelResponse → Prop) (T : Thrown → Prop) (K : Option String → Prop)

/-- A success answers as `S` says, a refusal throws as `T` says, and any other failure is of a kind
    of `K`. -/
def Allowed : DeliveryAnswer → Prop
  | .error _ => K (some "transport")
  | .ok (.success r) => S (coreResponse r)
  | .ok (.failure f) =>
    if fatal f.kind then ∀ container, T (fatalError container f) else K (some f.kind.text)

def Answers (A : ContainerRequest → DeliveryAnswer → Prop) : (o : GatewayOp) → o.Res → Prop
  | .deliver _ request, a => A request a
  | _, _ => True

def Tried.Ended : Tried → Prop
  | .resolved r => S r
  | .thrown e => T e
  | .moveOn lastKind => K lastKind

/-- A call resolves as `S` says, throws as `T` says, or has found no container that helps. -/
def Ended : Except Thrown CoreModelResponse → Prop
  | .ok r => S r
  | .error e => T e ∨ (∃ modelClass, e = noRouteError modelClass) ∨
    ∃ modelClass lastKind, e = exhaustedError modelClass lastKind ∧ K lastKind

variable {S T K} {A : ContainerRequest → DeliveryAnswer → Prop} {retries : ℕ} {env : Envelope}

theorem attempts_ended (henv : ∀ a, A env.request a → Allowed S T K a)
    (container : RegisteredContainer) (left : ℕ) {lastKind : Option String}
    (hkind : 0 < left ∨ K lastKind) :
    Meets (fun _ => True) (Answers A) (Tried.Ended S T K)
      (attempts retries env container left lastKind) := by
  induction left generalizing lastKind with
  | zero => exact hkind.resolve_left (Nat.lt_irrefl 0)
  | succ left ih =>
    simp only [attempts, perform_bind, meets_call]
    refine ⟨trivial, fun a ha => ?_⟩
    replace ha := henv a ha
    rcases a with t | r | f
    · exact ⟨trivial, fun _ _ => ih (.inr ha)⟩
    · exact ⟨trivial, fun _ _ => ha⟩
    · have hf : if fatal f.kind then ∀ container, T (fatalError container f)
          else K (some f.kind.text) := ha
      by_cases hfatal : fatal f.kind = true
      · simp only [hfatal, if_true] at hf ⊢
        exact ⟨trivial, fun _ _ => hf container⟩
      · simp only [hfatal] at hf ⊢
        by_cases hagain : (f.retryable && decide (retries - left < retries)) = true
        · simp only [hagain, if_true]
          exact ⟨trivial, fun _ _ => ih (.inr hf)⟩
        · simp only [hagain]
          exact ⟨trivial, fun _ _ => ⟨trivial, fun _ _ => hf⟩⟩

theorem failover_ended (henv : ∀ a, A env.request a → Allowed S T K a) (hretries : 0 < retries)
    (plan : List RegisteredContainer) {lastKind : Option String}
    (hkind : plan ≠ [] ∨ K lastKind) :
    Meets (fun _ => True) (Answers A) (Ended S T K)
      (failover retries env plan lastKind) := by
  induction plan generalizing lastKind with
  | nil =>
    have hlast : K lastKind := hkind.resolve_left fun h => h rfl
    exact ⟨trivial, fun _ _ => .inr (.inr ⟨_, _, rfl, hlast⟩)⟩
  | cons container rest ih =>
    refine (attempts_ended henv container retries (.inl hretries)).bind fun tried htried => ?_
    cases tried with
    | resolved r => exact htried
    | thrown e => exact .inl htried
    | moveOn lastKind => exact ih (.inr htried)

/-- What the containers answer is what a call ends with. -/
theorem generate_ended (config : Config) (request : CoreModelRequest)
    (hretries : 0 < config.retriesPerContainer)
    (henv : ∀ correlationId a, A (envelope config request correlationId).request a →
      Allowed S T K a) :
    Meets (fun _ => True) (Answers A) (Ended S T K) (generate config request) := by
  simp only [generate, perform_bind, meets_call]
  refine ⟨trivial, fun correlationId _ => ⟨trivial, fun _ _ => ⟨trivial, fun serving _ => ?_⟩⟩⟩
  unfold deliverAlong
  by_cases hplan : (Router.tiered serving).length = 0
  · rw [if_pos hplan]
    exact ⟨trivial, fun _ _ => .inr (.inl ⟨_, rfl⟩)⟩
  · rw [if_neg hplan]
    exact failover_ended (henv correlationId) hretries _
      (.inl fun h => hplan (List.length_eq_zero_iff.mpr h))

end Ended

/-- The kinds of failure by which a request or its reply gets lost. -/
def Undelivered (lastKind : Option String) : Prop :=
  lastKind = some "transport" ∨ lastKind = some "timeout" ∨ lastKind = some "internal"

end Concierge

section Answers

variable {E ε : Type} {engine : Engine} {decimal : ℚ → ℤ × ℤ} {Q : Asked → Provided → Prop}
  {S : CoreModelResponse → Prop} {K : Option String → Prop}

/-- What the providers answer, by what they are asked, and what the kind of a rejection is. -/
structure Provides (Q : Asked → Provided → Prop) (K : Option String → Prop)
    (host : ContainerHost E ε) : Prop where
  answered : ∀ asked e out, (host.generate asked e).1 = .ok out → Q asked out
  rejected : ∀ asked e error, (host.generate asked e).1 = .error error → K (some "provider_error")

/-- A delivery of an answer of `Q`, or of a failure of `K` that does not end the call. -/
def Concierge.Delivers (Q : Asked → Provided → Prop) (K : Option String → Prop)
    (request : ContainerRequest) : DeliveryAnswer → Prop :=
  Allowed (fun r => ∃ out correlationId, Q request.asked out ∧
    r = coreResponse (out.success correlationId)) (fun _ => False) K

/-- What a provider answers, if `S` holds of it; no container refuses. -/
theorem ContainerHost.allowed {host : ContainerHost E ε} (hhost : Provides Q K host)
    (request : ContainerRequest) (e : ε) :
    Concierge.Delivers Q K request (.ok (host.answer request e).1) := by
  unfold ContainerHost.answer
  have hout := hhost.answered request.asked e
  have herror := hhost.rejected request.asked e
  generalize host.generate request.asked e = d at *
  obtain ⟨error | out, e'⟩ := d
  · exact herror error rfl
  · exact ⟨out, request.correlationId, hout out rfl, rfl⟩

section Lossy

variable (hK : ∀ kind, Concierge.Undelivered kind → K kind)
include hK

theorem Network.delivers_failure (request : ContainerRequest) (message : String) :
    Concierge.Delivers Q K request (.ok (Network.failure request message)) := by
  unfold Network.failure
  split_ifs
  · exact hK _ (.inr (.inl rfl))
  · exact hK _ (.inr (.inr rfl))

theorem Network.answers {net : Network E ε} (hnet : ∀ c, Provides Q K (net.host c))
    (o : GatewayOp) (w : GatewayWorld ε) :
    Concierge.Answers (Concierge.Delivers Q K) o (gatewayHandler net.direct o w).1 := by
  cases o with
  | deliver container request =>
    show Concierge.Delivers Q K request (net.delivery container request w.env).1
    unfold Network.delivery
    generalize net.fate container request w.env = d
    obtain ⟨fate, e⟩ := d
    cases fate with
    | unsent t => exact hK _ (.inl rfl)
    | failed message => exact Network.delivers_failure hK request message
    | lost message => exact Network.delivers_failure hK request message
    | served => exact ContainerHost.allowed (hnet container) request e
  | _ => trivial

end Lossy

/-- How a call over the wire ends: it resolves with a response that reads as one of `S`, finds no
    route, or has exhausted its plan, the last time with a failure of `K`. -/
inductive WireConcierge.Ended (S : CoreModelResponse → Prop) (K : Option String → Prop) :
    Except WireThrown WireResponse → Prop
  | resolved {r : WireResponse} {r' : CoreModelResponse} (hreads : ReadsResponse r r') (hr : S r') :
      Ended S K (.ok r)
  | noRoute (message : String) :
      Ended S K (.error (.conciergeError message (some (.str "no_route"))))
  | exhausted (message : String) {kind : Option String} (hkind : K kind) :
      Ended S K (.error (.conciergeError message (kind.map .str)))

theorem WireConcierge.SameOutcome.ended {x : Except WireThrown WireResponse}
    {y : Except Thrown CoreModelResponse} (h : SameOutcome x y)
    (hy : Concierge.Ended S (fun _ => False) K y) : Ended S K x := by
  rcases y with e | r'
  · rcases x with (⟨message, lastKind⟩ | _) | r
    · rcases hy with hno | ⟨modelClass, rfl⟩ | ⟨modelClass, kind, rfl, hkind⟩
      · exact hno.elim
      · obtain rfl : lastKind = some (.str "no_route") := h.2
        exact .noRoute message
      · obtain rfl : lastKind = kind.map .str := h.2
        exact .exhausted message hkind
    · exact h.elim
    · exact h.elim
  · rcases x with e | r
    · exact h.elim
    · exact .resolved h hy

/-- What the concierge asks the containers' providers for a call. -/
def CoreModelRequest.asked (config : Concierge.Config) (request : CoreModelRequest) : Asked :=
  (Concierge.envelope config request "").request.asked

theorem Concierge.Delivers.allowed {config : Config} {request : CoreModelRequest}
    {correlationId : String} {a : DeliveryAnswer}
    (hS : ∀ out correlationId, Q (request.asked config) out →
      S (coreResponse (out.success correlationId)))
    (ha : Delivers Q K (envelope config request correlationId).request a) :
    Allowed S (fun _ => False) K a := by
  rcases a with t | r | f
  · exact ha
  · obtain ⟨out, correlationId, hout, hr⟩ := ha
    show S (coreResponse r)
    rw [hr]
    exact hS out correlationId hout
  · exact ha

/-- A call over the wire resolves with what the providers answer to it, if it resolves. -/
theorem Network.ended {net : Network E ε} (hexact : ∀ c, Exacting engine decimal (net.host c))
    (hK : ∀ kind, Concierge.Undelivered kind → K kind) (hnet : ∀ c, Provides Q K (net.host c))
    {config : Concierge.Config} {request : CoreModelRequest}
    (hretries : 0 < config.retriesPerContainer) (hcall : ExactCall engine decimal config request)
    (hS : ∀ out correlationId, Q (request.asked config) out →
      S (Concierge.coreResponse (out.success correlationId))) (w : GatewayWorld ε) :
    WireConcierge.Ended S K (run (wireHandler (net.wire engine decimal))
      (WireConcierge.generate engine.number config request) w).1 := by
  have hsame := (WireConcierge.generate_refines_on (Network.sendsOn hexact) engine.number config
    request w fun _ => ⟨rfl, hcall.temperature, hcall.deadlineMs⟩).1
  exact hsame.ended ((Concierge.generate_ended (A := Concierge.Delivers Q K) config request hretries
    fun _ _ ha => ha.allowed hS).returns (Network.answers hK hnet) w)

end Answers

end Harp
