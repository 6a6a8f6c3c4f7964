import Harp.Gateway.ContainerReply
import Harp.Gateway.MtlsHttpTransport
import Harp.Gateway.Failover

/-
  What a reply can do to the gateway client (`src/gateway/concierge/MtlsHttpTransport.ts`,
  `src/gateway/concierge/Concierge.ts`).

  `settles` says how one exchange ends a call, if it does; a call ends with the first exchange
  that settles it, or by running out of containers (`generate_runs`, by induction on the
  retries left and on the plan). `Tame` are the exchanges that the unchecked cast does no harm to.
-/

namespace Harp.WireConcierge

open Prog
open Concierge (Config Envelope)
open ContainerReply (isSuccess)

/-- One exchange: the container, what was sent, and how it ended. -/
structure Exchange where
  container : RegisteredContainer
  request : ContainerRequest
  outcome : HttpOutcome

def exchangeOf : ((o : WireOp) × WireOp.Res o) → Option Exchange
  | ⟨.exchange container request, outcome⟩ => some ⟨container, request, outcome⟩
  | _ => none

/-- The exchanges of a trace, in order. -/
def exchanges (t : List ((o : WireOp) × WireOp.Res o)) : List Exchange := t.filterMap exchangeOf

@[simp] theorem exchanges_append (s t : List ((o : WireOp) × WireOp.Res o)) :
    exchanges (s ++ t) = exchanges s ++ exchanges t := List.filterMap_append

@[simp] theorem exchanges_exchange (container : RegisteredContainer) (request : ContainerRequest)
    (outcome : HttpOutcome) (t : List ((o : WireOp) × WireOp.Res o)) :
    exchanges (⟨.exchange container request, outcome⟩ :: t) =
      ⟨container, request, outcome⟩ :: exchanges t := rfl

@[simp] theorem exchanges_log (fields : WireLogFields)
    (t : List ((o : WireOp) × WireOp.Res o)) (u : Unit) :
    exchanges (⟨.log fields, u⟩ :: t) = exchanges t := rfl

@[simp] theorem exchanges_markHealth (id : String) (healthy : Bool)
    (t : List ((o : WireOp) × WireOp.Res o)) (u : Unit) :
    exchanges (⟨.markHealth id healthy, u⟩ :: t) = exchanges t := rfl

/-! ## What a reply means -/

section Replies

variable (number : Int → Int → String)

/-- What the transport hands to the concierge. -/
def Exchange.response (d : Exchange) : Except Thrown Json :=
  MtlsHttpTransport.response d.request d.outcome

/-- What a response settles the call with, if it does. -/
def settlesWith (container : RegisteredContainer) (response : Json) :
    Option (Except WireThrown WireResponse) :=
  if response.isNull then some (.error .typeError)
  else if holds (response.get "ok") then some (.ok (coreResponse response))
  else if fatal (response.get "kind") then some (.error (fatalError number container response))
  else none

/-- What an exchange settles the call with, if it does. -/
def settles (d : Exchange) : Option (Except WireThrown WireResponse) :=
  match d.response with
  | .error _ => none
  | .ok response => settlesWith number d.container response

/-- The kind of failure that an exchange is reported as. -/
def kindOf (d : Exchange) : Option Json :=
  match d.response with
  | .error _ => some (.str "transport")
  | .ok response => response.get "kind"

/-- The kind of the last exchange; `before` where there was none. -/
def lastKindOf (before : Option Json) (ds : List Exchange) : Option Json :=
  (ds.getLast?.map kindOf).getD before

theorem lastKindOf_append (before : Option Json) (xs ys : List Exchange) :
    lastKindOf before (xs ++ ys) = lastKindOf (lastKindOf before xs) ys := by
  unfold lastKindOf
  rw [List.getLast?_append]
  cases ys.getLast? <;> rfl

/-- No exchange settles the call. -/
def Unsettled (ds : List Exchange) : Prop := ∀ d ∈ ds, settles number d = none

/-- The last exchange, and no other, settles the call with `o`. -/
def Settled (ds : List Exchange) (o : Except WireThrown WireResponse) : Prop :=
  ∃ pre d, ds = pre ++ [d] ∧ Unsettled number pre ∧ settles number d = some o

variable {number}

theorem unsettled_nil : Unsettled number [] := by simp [Unsettled]

theorem Unsettled.append {xs ys : List Exchange} (hx : Unsettled number xs)
    (hy : Unsettled number ys) : Unsettled number (xs ++ ys) := by
  intro d hd
  rcases List.mem_append.mp hd with hd | hd
  · exact hx d hd
  · exact hy d hd

theorem Unsettled.settled {xs ys : List Exchange} {o : Except WireThrown WireResponse}
    (hx : Unsettled number xs) (hy : Settled number ys o) : Settled number (xs ++ ys) o := by
  obtain ⟨pre, d, rfl, hpre, hd⟩ := hy
  exact ⟨xs ++ pre, d, (List.append_assoc _ _ _).symm, hx.append hpre, hd⟩

end Replies

/-! ## The exchanges of a run -/

section Run

variable {ε : Type} (world : WireEnv ε) (number : Int → Int → String) (retries : Nat)
  (env : Envelope)

/-- How the exchanges `ds` with one container end. -/
def Ends (ds : List Exchange) (before : Option Json) : Tried → Prop
  | .resolved r => Settled number ds (.ok r)
  | .thrown e => Settled number ds (.error e)
  | .moveOn lastKind => Unsettled number ds ∧ lastKind = lastKindOf before ds

theorem Ends.cons {d : Exchange} (hd : settles number d = none) {ds : List Exchange}
    {before : Option Json} {tried : Tried} (h : Ends number ds (kindOf d) tried) :
    Ends number (d :: ds) before tried := by
  have hone : Unsettled number [d] := by
    intro x hx
    rw [List.mem_singleton.mp hx]
    exact hd
  cases tried with
  | resolved r => exact hone.settled h
  | thrown e => exact hone.settled h
  | moveOn lastKind =>
    obtain ⟨hn, rfl⟩ := h
    exact ⟨hone.append hn, (lastKindOf_append before [d] ds).symm⟩

theorem attempts_ends (container : RegisteredContainer) (left : Nat) (lastKind : Option Json)
    (w : GatewayWorld ε) :
    Ends number
      (exchanges (trace (wireHandler world)
        (attempts number retries env container left lastKind) w)) lastKind
      (run (wireHandler world) (attempts number retries env container left lastKind) w).1 := by
  induction left generalizing lastKind w with
  | zero => exact ⟨unsettled_nil, rfl⟩
  | succ left ih =>
    simp only [attempts, deliver, perform_bind, call_bind, ret_bind, pure_eq_ret, run_call,
      trace_call, exchanges_exchange]
    generalize wireHandler world (.exchange container env.request) w = e
    obtain ⟨outcome, w'⟩ := e
    cases hresponse : MtlsHttpTransport.response env.request outcome with
    | error t =>
      have hnone : settles number ⟨container, env.request, outcome⟩ = none := by
        simp [settles, Exchange.response, hresponse]
      have hkind : kindOf ⟨container, env.request, outcome⟩ = some (.str "transport") := by
        simp [kindOf, Exchange.response, hresponse]
      refine Ends.cons number hnone ?_
      rw [hkind]
      exact ih _ _
    | ok response =>
      have hsettles : settles number ⟨container, env.request, outcome⟩ =
          settlesWith number container response := by
        simp [settles, Exchange.response, hresponse]
      have hkind : kindOf ⟨container, env.request, outcome⟩ = response.get "kind" := by
        simp [kindOf, Exchange.response, hresponse]
      have hlast {o} (h : settlesWith number container response = some o) :
          Settled number [⟨container, env.request, outcome⟩] o :=
        ⟨[], _, rfl, unsettled_nil, hsettles.trans h⟩
      unfold settlesWith at hsettles hlast
      by_cases hnull : response.isNull = true
      · simp only [hnull, if_true] at hlast ⊢
        exact hlast rfl
      · by_cases hok : holds (response.get "ok") = true
        · simp only [hnull, hok, if_true] at hlast ⊢
          exact hlast rfl
        · by_cases hfatal : fatal (response.get "kind") = true
          · simp only [hnull, hok, hfatal, if_true] at hlast ⊢
            exact hlast rfl
          · simp only [hnull, hok, hfatal] at hsettles ⊢
            refine Ends.cons number hsettles ?_
            rw [hkind]
            by_cases hr : (holds (response.get "retryable") &&
                decide (retries - left < retries)) = true
            · simp only [hr, if_true]
              exact ih _ _
            · simp only [hr]
              exact ⟨unsettled_nil, rfl⟩

/-- How the exchanges of a call end it, when it has a plan. -/
def Concluded (modelClass : WireModelClass) (before : Option Json) (ds : List Exchange)
    (out : Except WireThrown WireResponse) : Prop :=
  Settled number ds out ∨
    Unsettled number ds ∧ out = .error (exhaustedError number modelClass (lastKindOf before ds))

theorem failover_concluded (plan : List RegisteredContainer) (lastKind : Option Json)
    (w : GatewayWorld ε) :
    Concluded number env.modelClass lastKind
      (exchanges (trace (wireHandler world) (failover number retries env plan lastKind) w))
      (run (wireHandler world) (failover number retries env plan lastKind) w).1 := by
  induction plan generalizing lastKind w with
  | nil => exact .inr ⟨unsettled_nil, rfl⟩
  | cons container rest ih =>
    have hends := attempts_ends world number retries env container retries lastKind w
    simp only [failover, trace_bind, run_bind, exchanges_append]
    generalize hw : run (wireHandler world) _ w = e at hends ⊢
    generalize exchanges (trace (wireHandler world) _ w) = ds at hends ⊢
    obtain ⟨tried, w'⟩ := e
    cases tried with
    | resolved r => exact .inl (by simpa [exchanges, Ends] using hends)
    | thrown e => exact .inl (by simpa [exchanges, Ends] using hends)
    | moveOn lastKind' =>
      obtain ⟨hn, rfl⟩ := hends
      rcases ih (lastKindOf lastKind ds) w' with h | ⟨h, hout⟩
      · exact .inl (hn.settled h)
      · refine .inr ⟨hn.append h, ?_⟩
        rw [lastKindOf_append]
        exact hout

/-- A call without a plan exchanges nothing and rejects with an error of its own; any other call
    ends by what an exchange settles, or by running out of containers. -/
theorem generate_concluded (config : Config) (request : CoreModelRequest) (w : GatewayWorld ε) :
    let ds := exchanges (trace (wireHandler world) (generate number config request) w)
    let out := (run (wireHandler world) (generate number config request) w).1
    (ds = [] ∧ out = .error (noRouteError request.modelClass)) ∨
      Concluded number request.modelClass none ds out := by
  -- up to the plan nothing is exchanged
  have hplan : ∃ w', exchanges (trace (wireHandler world) (generate number config request) w) =
        exchanges (trace (wireHandler world) (deliverAlong number config request
          (world.randomUUID w.env).1 (Router.plan w.registry request.modelClass)) w') ∧
      run (wireHandler world) (generate number config request) w =
        run (wireHandler world) (deliverAlong number config request
          (world.randomUUID w.env).1 (Router.plan w.registry request.modelClass)) w' :=
    ⟨_, rfl, rfl⟩
  obtain ⟨w', hds, hrun⟩ := hplan
  intro ds out
  have hds : ds = _ := hds
  have hout : out = _ := congrArg Prod.fst hrun
  rw [hds, hout]
  unfold deliverAlong
  by_cases hp : (Router.plan w.registry request.modelClass).length = 0
  · rw [if_pos hp]
    exact .inl ⟨rfl, rfl⟩
  · rw [if_neg hp]
    exact .inr (failover_concluded world number _ _ _ none w')

end Run

/-! ## Replies that do no harm -/

/-- A call resolves from the body of its last reply, a `ContainerSuccess`, or rejects with a
    `ConciergeError`. -/
def Robust (ds : List Exchange) : Except WireThrown WireResponse → Prop
  | .ok r => ∃ d status body v, ds.getLast? = some d ∧ d.outcome = .reply status body ∧
      Json.parse body.toList = some v ∧ isSuccess v = true ∧ r = coreResponse v
  | .error e => ∃ message lastKind, e = .conciergeError message lastKind

section Tame

variable (number : Int → Int → String)

/-- The response is not `null`, is a `ContainerSuccess` if its `ok` is taken as true, and has a
    `message` that can be printed if its kind is fatal. -/
structure TameResponse (v : Json) : Prop where
  notNull : v.isNull = false
  success : holds (v.get "ok") = true → isSuccess v = true
  message : holds (v.get "ok") = false → fatal (v.get "kind") = true →
    (Json.textOf number (v.get "message")).isSome = true

def Tame (d : Exchange) : Prop := ∀ v, d.response = .ok v → TameResponse number v

/-- A kind that the error of an exhausted plan can print. -/
def Printable (lastKind : Option Json) : Prop := ((orUnknown lastKind).toText number).isSome = true

variable {number}

theorem tame_of_unsettled {d : Exchange} (h : settles number d = none) : Tame number d := by
  intro v hv
  simp only [settles, hv, settlesWith] at h
  split at h
  · exact nomatch h
  split at h
  · exact nomatch h
  split at h
  · exact nomatch h
  rename_i hnull hok hfatal
  exact ⟨by simpa using hnull, fun h => absurd h hok, fun _ h => absurd h hfatal⟩

/-- A response that is taken as a success is a body: what the transport makes up is a failure. -/
theorem body_of_holds {d : Exchange} {v : Json} (hv : d.response = .ok v)
    (hok : holds (v.get "ok") = true) :
    ∃ status body, d.outcome = .reply status body ∧ Json.parse body.toList = some v := by
  have hfail {kind message retryable} (h : MtlsHttpTransport.fail d.request kind message retryable
      = v) : False := by
    rw [← h] at hok
    exact nomatch hok
  unfold Exchange.response MtlsHttpTransport.response at hv
  cases ho : d.outcome with
  | unsent e => rw [ho] at hv; exact nomatch hv
  | failed message => rw [ho] at hv; exact (hfail (Except.ok.inj hv)).elim
  | reply status body =>
    rw [ho] at hv
    simp only at hv
    split at hv
    · exact (hfail (Except.ok.inj hv)).elim
    split at hv
    · exact (hfail (Except.ok.inj hv)).elim
    cases hparse : Json.parse body.toList with
    | none => rw [hparse] at hv; exact (hfail (Except.ok.inj hv)).elim
    | some v' =>
      rw [hparse] at hv
      obtain rfl := Except.ok.inj hv
      exact ⟨status, body, rfl, hparse⟩

theorem fatal_text (number : Int → Int → String) {kind : Option Json} (h : fatal kind = true) :
    ∃ text, Json.textOf number kind = some text := by
  match kind, h with
  | some (.str s), _ => exact ⟨s, by simp [Json.textOf, Json.toText]⟩

theorem fatalError_iff {container : RegisteredContainer} {v : Json}
    (hfatal : fatal (v.get "kind") = true) :
    (∃ message lastKind, fatalError number container v = .conciergeError message lastKind) ↔
      (Json.textOf number (v.get "message")).isSome = true := by
  obtain ⟨text, htext⟩ := fatal_text number hfatal
  unfold fatalError
  rw [htext]
  cases Json.textOf number (v.get "message") <;> simp

theorem exhaustedError_iff {modelClass : WireModelClass} {lastKind : Option Json} :
    (∃ message kind, exhaustedError number modelClass lastKind = .conciergeError message kind) ↔
      Printable number lastKind := by
  unfold exhaustedError Printable
  cases (orUnknown lastKind).toText number <;> simp

/-- An exchange that settles a call does it well exactly when it is tame. -/
theorem robust_iff_tame {pre : List Exchange} {d : Exchange}
    {o : Except WireThrown WireResponse} (h : settles number d = some o) :
    Robust (pre ++ [d]) o ↔ Tame number d := by
  unfold settles at h
  cases hv : d.response with
  | error e => rw [hv] at h; exact nomatch h
  | ok v =>
    have htame : Tame number d ↔ TameResponse number v :=
      ⟨fun h => h v hv, fun h v' hv' => by rw [hv] at hv'; cases hv'; exact h⟩
    rw [hv] at h
    rw [htame]
    simp only [settlesWith] at h
    split at h
    · rename_i hnull
      obtain rfl := Option.some.inj h
      exact ⟨fun ⟨_, _, he⟩ => (nomatch he), fun ht => (nomatch hnull.symm.trans ht.notNull)⟩
    rename_i hnull
    split at h
    · rename_i hok
      obtain rfl := Option.some.inj h
      obtain ⟨status, body, ho, hparse⟩ := body_of_holds hv hok
      constructor
      · rintro ⟨d', status', body', v', hlast, ho', hparse', hgood, -⟩
        rw [List.getLast?_concat] at hlast
        obtain rfl := Option.some.inj hlast
        rw [ho] at ho'
        obtain ⟨rfl, rfl⟩ := HttpOutcome.reply.inj ho'
        obtain rfl := Option.some.inj (hparse.symm.trans hparse')
        exact ⟨by simpa using hnull, fun _ => hgood, fun hno => nomatch hok.symm.trans hno⟩
      · intro ht
        exact ⟨d, status, body, v, List.getLast?_concat, ho, hparse, ht.success hok, rfl⟩
    rename_i hok
    split at h
    · rename_i hfatal
      obtain rfl := Option.some.inj h
      refine (fatalError_iff hfatal).trans ⟨fun hm => ⟨by simpa using hnull, fun h => absurd h hok,
        fun _ _ => hm⟩, fun ht => ht.message (by simpa using hok) hfatal⟩
    · exact nomatch h

end Tame

/-- A call is robust exactly when every reply that it reads is tame, and the kind of the last one
    can be printed when none of them settles the call. -/
theorem generate_robust_iff {ε : Type} (world : WireEnv ε) (number : Int → Int → String)
    (config : Config) (request : CoreModelRequest) (w : GatewayWorld ε) :
    let ds := exchanges (trace (wireHandler world) (generate number config request) w)
    Robust ds (run (wireHandler world) (generate number config request) w).1 ↔
      (∀ d ∈ ds, Tame number d) ∧
        (Unsettled number ds → Printable number (lastKindOf none ds)) := by
  intro ds
  rcases generate_concluded world number config request w with ⟨hds, hout⟩ | h
  · have hds : ds = [] := hds
    rw [hout, hds]
    refine ⟨fun _ => ⟨by simp, fun _ => by simp [Printable, lastKindOf, orUnknown, Json.toText]⟩,
      fun _ => ⟨_, _, rfl⟩⟩
  · rcases h with ⟨pre, d, hds, hpre, hd⟩ | ⟨hn, hout⟩
    · have hds : ds = pre ++ [d] := hds
      rw [hds, robust_iff_tame hd]
      constructor
      · intro ht
        refine ⟨fun x hx => ?_, fun hn => ?_⟩
        · rcases List.mem_append.mp hx with hx | hx
          · exact tame_of_unsettled (hpre x hx)
          · rw [List.mem_singleton.mp hx]
            exact ht
        · exact nomatch (hn d (by simp)).symm.trans hd
      · exact fun h => h.1 d (by simp)
    · rw [hout]
      refine exhaustedError_iff.trans ⟨fun hp => ⟨fun d hd => tame_of_unsettled (hn d hd),
        fun _ => hp⟩, fun h => h.2 hn⟩

/-- A network in which every container gives one reply. -/
def replying (status : Nat) (body : String) : WireEnv Unit where
  randomUUID _ := ("uuid", ())
  log _ _ := ()
  exchange _ _ registry _ := (.reply status body, registry, ())

/-- A container that answers `null`: the call rejects with a `TypeError`. -/
theorem generate_robust_counterexample :
    let call := generate (fun m _ => toString m) ⟨2, fun text => ⟨text, []⟩, none⟩
      ⟨.cloudReasoning, "", "", none, none, none, none, none⟩
    let w : GatewayWorld Unit := ⟨(), Concierge.twoContainers⟩
    ¬ Robust (exchanges (trace (wireHandler (replying 200 "null")) call w))
      (run (wireHandler (replying 200 "null")) call w).1 := by
  rintro call w ⟨message, lastKind, h⟩
  exact nomatch h

end Harp.WireConcierge
