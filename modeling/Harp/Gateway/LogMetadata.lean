import Harp.Gateway.ConcurrentCalls

/-
  The log of the concierge is metadata only (`src/gateway/security/SafeLogger.ts`,
  `src/gateway/concierge/Concierge.ts`).

  `RequestAlike` and `AnswerAlike` say what of the requests and of the answers the log may depend
  on. Concurrent calls that agree on this, on whatever schedule, write the same lines, leave the
  same registry and end in the same steps, resolved or thrown (`log_alike`). So no prompt, redacted
  or not, no text of a model, no message of a failure and no cost shows in the log or in the health
  of the containers.
-/

namespace Harp.Concierge

open Prog

/-! ## What the log may depend on -/

/-- Requests for one class, in which the redactors find equally many of each kind. -/
structure RequestAlike (config config' : Config) (r r' : CoreModelRequest) : Prop where
  modelClass : r.modelClass = r'.modelClass
  findings : (config.redact r.systemPrompt).findings ++ (config.redact r.userPrompt).findings =
    (config'.redact r'.systemPrompt).findings ++ (config'.redact r'.userPrompt).findings

/-- Whether the transport threw; of a success its class, time and tokens, and of a failure its kind
    and whether it may be retried. -/
def AnswerAlike : DeliveryAnswer → DeliveryAnswer → Prop
  | .error _, .error _ => True
  | .ok (.success r), .ok (.success r') => r.modelClass = r'.modelClass ∧
      r.latencyMs = r'.latencyMs ∧ r.inputTokens = r'.inputTokens ∧
      r.outputTokens = r'.outputTokens
  | .ok (.failure f), .ok (.failure f') => f.kind = f'.kind ∧ f.retryable = f'.retryable
  | _, _ => False

/-- Operations that look the same to the log. -/
def OpAlike : GatewayOp → GatewayOp → Prop
  | .randomUUID, .randomUUID => True
  | .log fields, .log fields' => fields = fields'
  | .serving modelClass, .serving modelClass' => modelClass = modelClass'
  | .deliver container request, .deliver container' request' =>
    container = container' ∧ request.correlationId = request'.correlationId ∧
      request.modelClass = request'.modelClass
  | .markHealth id healthy, .markHealth id' healthy' => id = id' ∧ healthy = healthy'
  | _, _ => False

def AnsweredAlike : (o o' : GatewayOp) → GatewayOp.Res o → GatewayOp.Res o' → Prop
  | .randomUUID, .randomUUID, id, id' => id = id'
  | .log _, .log _, _, _ => True
  | .serving _, .serving _, containers, containers' => containers = containers'
  | .deliver .., .deliver .., answer, answer' => AnswerAlike answer answer'
  | .markHealth .., .markHealth .., _, _ => True
  | _, _, _, _ => False

theorem AnswerAlike.split {a a' : DeliveryAnswer} (h : AnswerAlike a a') :
    (∃ e e', a = .error e ∧ a' = .error e') ∨
    (∃ r r', a = .ok (.success r) ∧ a' = .ok (.success r') ∧ r.modelClass = r'.modelClass ∧
      r.latencyMs = r'.latencyMs ∧ r.inputTokens = r'.inputTokens ∧
      r.outputTokens = r'.outputTokens) ∨
    ∃ f f', a = .ok (.failure f) ∧ a' = .ok (.failure f') ∧ f.kind = f'.kind ∧
      f.retryable = f'.retryable := by
  match a, a', h with
  | .error e, .error e', _ => exact .inl ⟨e, e', rfl, rfl⟩
  | .ok (.success r), .ok (.success r'), h => exact .inr (.inl ⟨r, r', rfl, rfl, h⟩)
  | .ok (.failure f), .ok (.failure f'), h => exact .inr (.inr ⟨f, f', rfl, rfl, h⟩)

/-! ## Two calls in step -/

/-- Ends alike; the kind that is carried on is the same. -/
def TriedAlike : Tried → Tried → Prop
  | .resolved _, .resolved _ => True
  | .thrown _, .thrown _ => True
  | .moveOn lastKind, .moveOn lastKind' => lastKind = lastKind'
  | _, _ => False

/-- Both resolve, or both throw. -/
def SettledAlike (r r' : Except Thrown CoreModelResponse) : Prop := r.isOk = r'.isOk

section Alike

variable {env env' : Envelope}

/-- Envelopes of one call, but for the prompts and what else is asked. -/
structure EnvelopeAlike (env env' : Envelope) : Prop where
  correlationId : env.correlationId = env'.correlationId
  modelClass : env.modelClass = env'.modelClass
  requestId : env.request.correlationId = env'.request.correlationId
  requestClass : env.request.modelClass = env'.request.modelClass

theorem envelope_alike {config config' : Config} {r r' : CoreModelRequest}
    (h : RequestAlike config config' r r') (correlationId : String) :
    EnvelopeAlike (envelope config r correlationId) (envelope config' r' correlationId) :=
  ⟨rfl, h.modelClass, rfl, h.modelClass⟩

theorem attempts_alike (retries : ℕ) (henv : EnvelopeAlike env env')
    (container : RegisteredContainer) (left : ℕ) (lastKind : Option String) :
    Related OpAlike AnsweredAlike TriedAlike (attempts retries env container left lastKind)
      (attempts retries env' container left lastKind) := by
  induction left generalizing lastKind with
  | zero => exact rfl
  | succ left ih =>
    rw [attempts, attempts, henv.correlationId]
    refine ⟨⟨rfl, henv.requestId, henv.requestClass⟩, fun a a' ha => ?_⟩
    obtain ⟨e, e', rfl, rfl⟩ | ⟨r, r', rfl, rfl, hclass, htime, hinput, houtput⟩ |
      ⟨f, f', rfl, rfl, hkind, hretryable⟩ := ha.split
    · exact ⟨rfl, fun _ _ _ => ih _⟩
    · dsimp only [Prog.bind]
      rw [hclass, htime, hinput, houtput]
      exact ⟨rfl, fun _ _ _ => trivial⟩
    · dsimp only [Prog.bind]
      rw [hkind, hretryable]
      by_cases hf : fatal f'.kind = true
      · rw [if_pos hf, if_pos hf]
        exact ⟨rfl, fun _ _ _ => trivial⟩
      · rw [if_neg hf, if_neg hf]
        refine ⟨rfl, fun _ _ _ => ?_⟩
        by_cases hr : (f'.retryable && decide (retries - left < retries)) = true
        · simp only [if_pos hr]
          exact ih _
        · simp only [if_neg hr]
          exact ⟨⟨rfl, rfl⟩, fun _ _ _ => rfl⟩

theorem failover_alike (retries : ℕ) (henv : EnvelopeAlike env env')
    (plan : List RegisteredContainer) (lastKind : Option String) :
    Related OpAlike AnsweredAlike SettledAlike (failover retries env plan lastKind)
      (failover retries env' plan lastKind) := by
  induction plan generalizing lastKind with
  | nil =>
    rw [failover, failover, henv.correlationId, henv.modelClass]
    exact ⟨rfl, fun _ _ _ => rfl⟩
  | cons container rest ih =>
    refine (attempts_alike retries henv container retries lastKind).bind fun tried tried' h => ?_
    cases tried with
    | resolved r =>
      cases tried' with
      | resolved r' => exact rfl
      | _ => exact h.elim
    | thrown e =>
      cases tried' with
      | thrown e' => exact rfl
      | _ => exact h.elim
    | moveOn lastKind =>
      cases tried' with
      | moveOn lastKind' =>
        obtain rfl : lastKind = lastKind' := h
        exact ih lastKind
      | _ => exact h.elim

theorem generate_alike {config config' : Config}
    (hretries : config.retriesPerContainer = config'.retriesPerContainer)
    {r r' : CoreModelRequest} (h : RequestAlike config config' r r') :
    Related OpAlike AnsweredAlike SettledAlike (generate config r) (generate config' r') := by
  refine ⟨trivial, fun id id' hid => ?_⟩
  obtain rfl : id = id' := hid
  dsimp only [Prog.bind]
  rw [h.findings, h.modelClass]
  refine ⟨rfl, fun _ _ _ => ⟨rfl, fun serving serving' hserving => ?_⟩⟩
  obtain rfl : serving = serving' := hserving
  unfold deliverAlong
  rw [h.modelClass, hretries]
  by_cases hplan : (Router.tiered serving).length = 0
  · dsimp only [Prog.bind]
    rw [if_pos hplan, if_pos hplan]
    exact ⟨rfl, fun _ _ _ => rfl⟩
  · dsimp only [Prog.bind]
    rw [if_neg hplan, if_neg hplan]
    exact failover_alike _ (envelope_alike h id) _ none

end Alike

/-! ## Concurrent calls -/

section Calls

variable {ε ε' ι δ : Type}

/-- A logger that keeps its lines. -/
def logging (env : GatewayEnv ε) : GatewayEnv (List SafeLogFields × ε) where
  randomUUID s := ((env.randomUUID s.2).1, s.1, (env.randomUUID s.2).2)
  log fields s := (s.1 ++ [fields], env.log fields s.2)
  deliver container request registry s :=
    let d := env.deliver container request registry s.2
    (d.1, d.2.1, s.1, d.2.2)

/-- The lines so far. -/
def lines (w : GatewayWorld (List SafeLogFields × ε)) : List SafeLogFields := w.env.1

/-- Surroundings that draw the same ids and answer deliveries alike, in states related by `T`. -/
structure WorldAlike (T : ε → ε' → Prop) (env : GatewayEnv ε) (env' : GatewayEnv ε') : Prop where
  randomUUID : ∀ e e', T e e' → (env.randomUUID e).1 = (env'.randomUUID e').1 ∧
    T (env.randomUUID e).2 (env'.randomUUID e').2
  log : ∀ fields e e', T e e' → T (env.log fields e) (env'.log fields e')
  deliver : ∀ container request request' registry e e',
    request.correlationId = request'.correlationId → request.modelClass = request'.modelClass →
    T e e' → AnswerAlike (env.deliver container request registry e).1
        (env'.deliver container request' registry e').1 ∧
      (env.deliver container request registry e).2.1 =
        (env'.deliver container request' registry e').2.1 ∧
      T (env.deliver container request registry e).2.2
        (env'.deliver container request' registry e').2.2

/-- The same lines and the same registry. -/
structure StateAlike (T : ε → ε' → Prop) (w : GatewayWorld (List SafeLogFields × ε))
    (w' : GatewayWorld (List SafeLogFields × ε')) : Prop where
  lines : lines w = Concierge.lines w'
  registry : w.registry = w'.registry
  rest : T w.env.2 w'.env.2

theorem gatewayHandler_alike {T : ε → ε' → Prop} {env : GatewayEnv ε} {env' : GatewayEnv ε'}
    (henv : WorldAlike T env env') {o o' : GatewayOp} (ho : OpAlike o o')
    {w : GatewayWorld (List SafeLogFields × ε)} {w' : GatewayWorld (List SafeLogFields × ε')}
    (hw : StateAlike T w w') :
    AnsweredAlike o o' (gatewayHandler (logging env) o w).1
        (gatewayHandler (logging env') o' w').1 ∧
      StateAlike T (gatewayHandler (logging env) o w).2
        (gatewayHandler (logging env') o' w').2 := by
  obtain ⟨⟨ls, e⟩, registry⟩ := w
  obtain ⟨⟨ls', e'⟩, registry'⟩ := w'
  obtain ⟨hlines, hregistry, hrest⟩ := hw
  obtain rfl : ls = ls' := hlines
  obtain rfl : registry = registry' := hregistry
  cases o <;> cases o' <;> try exact False.elim ho
  case randomUUID.randomUUID =>
    obtain ⟨hid, hrest'⟩ := henv.randomUUID e e' hrest
    exact ⟨hid, rfl, rfl, hrest'⟩
  case log.log fields fields' =>
    obtain rfl : fields = fields' := ho
    exact ⟨trivial, rfl, rfl, henv.log fields e e' hrest⟩
  case serving.serving modelClass modelClass' =>
    obtain rfl : modelClass = modelClass' := ho
    exact ⟨rfl, rfl, rfl, hrest⟩
  case deliver.deliver container request container' request' =>
    obtain ⟨rfl, hid, hclass⟩ := ho
    obtain ⟨hanswer, hregistry', hrest'⟩ :=
      henv.deliver container request request' registry e e' hid hclass hrest
    exact ⟨hanswer, rfl, hregistry', hrest'⟩
  case markHealth.markHealth id healthy id' healthy' =>
    obtain ⟨rfl, rfl⟩ := ho
    exact ⟨trivial, rfl, rfl, hrest⟩

/-- Concurrent calls whose requests and answers agree on the metadata write the same lines, leave
    the same registry, and have resolved or thrown alike. -/
theorem log_alike [DecidableEq ι] {T : ε → ε' → Prop} {world : δ → GatewayEnv ε}
    {world' : δ → GatewayEnv ε'} (hworld : ∀ d, WorldAlike T (world d) (world' d))
    {config config' : Config}
    (hretries : config.retriesPerContainer = config'.retriesPerContainer)
    {requests requests' : ι → CoreModelRequest}
    (hrequests : ∀ i, RequestAlike config config' (requests i) (requests' i)) {e : ε} {e' : ε'}
    (he : T e e') (registry : ContainerRegistry) (schedule : List (ι × δ)) :
    let p := Pool.run (drawn fun d => logging (world d)) schedule
      (calls config requests ⟨([], e), registry⟩)
    let p' := Pool.run (drawn fun d => logging (world' d)) schedule
      (calls config' requests' ⟨([], e'), registry⟩)
    lines p.state = lines p'.state ∧ p.state.registry = p'.state.registry ∧
      ∀ i, Option.Rel SettledAlike (p.threads i).result (p'.threads i).result := by
  intro p p'
  have hcalls (i : ι) : Related OpAlike AnsweredAlike SettledAlike
      ((calls config requests ⟨(([] : List SafeLogFields), e), registry⟩).threads i)
      ((calls config' requests' ⟨(([] : List SafeLogFields), e'), registry⟩).threads i) :=
    generate_alike hretries (hrequests i)
  have hkeep (d : δ) (o o' : GatewayOp) (s : GatewayWorld (List SafeLogFields × ε))
      (t : GatewayWorld (List SafeLogFields × ε')) (ho : OpAlike o o') (hs : StateAlike T s t) :
      AnsweredAlike o o' (drawn (fun d => logging (world d)) d o s).1
          (drawn (fun d => logging (world' d)) d o' t).1 ∧
        StateAlike T (drawn (fun d => logging (world d)) d o s).2
          (drawn (fun d => logging (world' d)) d o' t).2 :=
    gatewayHandler_alike (hworld d) ho hs
  obtain ⟨hthreads, hstate⟩ := Pool.related_run hkeep hcalls ⟨rfl, rfl, he⟩ schedule
  exact ⟨hstate.lines, hstate.registry, fun i => (hthreads i).result⟩

/-- Backups answer with a text, and primaries fail with a message. -/
def spokenBy (text : String) : Tier → DeliveryAnswer
  | .primary => .ok (.failure ⟨"1.0.0", "uuid", .overloaded, text, false⟩)
  | .backup => .ok (.success ⟨"1.0.0", "uuid", text, text, .cloudReasoning, 1, 1, 0, 0⟩)

def speaking (text : String) : GatewayEnv Unit where
  randomUUID _ := ("uuid", ())
  log _ _ := ()
  deliver container _ registry _ := (spokenBy text container.descriptor.tier, registry, ())

/-- A redactor that takes every prompt for an address. -/
def oneAddress (prompt : String) : Config := ⟨2, fun _ => ⟨prompt, [⟨"email", 1⟩]⟩, none⟩

/-- Two prompts that share no text but are redacted equally often, and two answers. -/
theorem log_alike_two :
    let requests (prompt : String) (_ : Bool) : CoreModelRequest :=
      ⟨.cloudReasoning, prompt, prompt, none, none, none, none, none⟩
    let p (prompt text : String) := Pool.run (drawn fun _ => logging (speaking text))
      (firstSteps ++ lastSteps)
      (calls (oneAddress prompt) (requests prompt) ⟨([], ()), twoContainers⟩)
    lines (p "ann@x.io" "yes").state = lines (p "bob@y.org" "no").state ∧
      (p "ann@x.io" "yes").state.registry = (p "bob@y.org" "no").state.registry ∧
      Option.Rel SettledAlike ((p "ann@x.io" "yes").threads false).result
        ((p "bob@y.org" "no").threads false).result := by
  intro requests p
  have hanswer (tier : Tier) : AnswerAlike (spokenBy "yes" tier) (spokenBy "no" tier) := by
    cases tier with
    | primary => exact ⟨rfl, rfl⟩
    | backup => exact ⟨rfl, rfl, rfl, rfl⟩
  have hworld (_ : Unit) : WorldAlike Eq (speaking "yes") (speaking "no") :=
    ⟨fun _ _ _ => ⟨rfl, rfl⟩, fun _ _ _ _ => rfl,
      fun container _ _ _ _ _ _ _ _ => ⟨hanswer container.descriptor.tier, rfl, rfl⟩⟩
  have hrequests (i : Bool) : RequestAlike (oneAddress "ann@x.io") (oneAddress "bob@y.org")
      (requests "ann@x.io" i) (requests "bob@y.org" i) := ⟨rfl, rfl⟩
  have hretries : (oneAddress "ann@x.io").retriesPerContainer =
      (oneAddress "bob@y.org").retriesPerContainer := rfl
  obtain ⟨hlines, hregistry, hsettled⟩ :=
    log_alike hworld hretries hrequests (rfl : () = ()) twoContainers (firstSteps ++ lastSteps)
  exact ⟨hlines, hregistry, hsettled false⟩

end Calls

end Harp.Concierge
