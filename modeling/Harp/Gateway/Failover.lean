import Harp.Gateway.Concierge

/-
  Failover (`src/gateway/concierge/Concierge.ts`).

  `Follows` says how a sequence of deliveries follows a plan: the containers in order, a block
  of deliveries to each, the first answer that settles the call ends it. The transport is any
  function of the whole history. `attempts_block` is by induction on the retries left,
  `failover_follows` by induction on the containers left; each step is one of the three rules
  of `Follows`.
-/

namespace Harp.Concierge

open Prog

/-- One delivery: the container and what came back. -/
abbrev Delivery := RegisteredContainer × DeliveryAnswer

def deliveryOf : ((o : GatewayOp) × GatewayOp.Res o) → Option Delivery
  | ⟨.deliver container _, answer⟩ => some (container, answer)
  | _ => none

/-- The deliveries of a trace, in order. -/
def deliveries (t : List ((o : GatewayOp) × GatewayOp.Res o)) : List Delivery :=
  t.filterMap deliveryOf

@[simp] theorem deliveries_append (s t : List ((o : GatewayOp) × GatewayOp.Res o)) :
    deliveries (s ++ t) = deliveries s ++ deliveries t := List.filterMap_append

/-! ## What an answer means -/

/-- A throw, or a failure that is not fatal and says it may be retried. -/
def Retry : DeliveryAnswer → Prop
  | .error _ => True
  | .ok (.success _) => False
  | .ok (.failure f) => fatal f.kind = false ∧ f.retryable = true

/-- What an answer settles the call with, if it does. -/
def settles (container : RegisteredContainer) :
    DeliveryAnswer → Option (Except Thrown CoreModelResponse)
  | .error _ => none
  | .ok (.success r) => some (.ok (coreResponse r))
  | .ok (.failure f) => if fatal f.kind then some (.error (fatalError container f)) else none

/-- The kind of failure that an answer is reported as. -/
def kindOf : DeliveryAnswer → Option String
  | .error _ => some "transport"
  | .ok (.success _) => none
  | .ok (.failure f) => some f.kind.text

/-- The kind of the last delivery; `before` where there was none. -/
def lastKindOf (before : Option String) (ds : List Delivery) : Option String :=
  (ds.getLast?.map fun d => kindOf d.2).getD before

theorem lastKindOf_append (before : Option String) (pre : List Delivery) (d : Delivery)
    (ds : List Delivery) :
    lastKindOf before (pre ++ [d] ++ ds) = lastKindOf (kindOf d.2) ds := by
  unfold lastKindOf
  rw [List.getLast?_append, List.getLast?_append, List.getLast?_singleton]
  cases ds.getLast? <;> rfl

theorem settles_of_retry {a : DeliveryAnswer} (h : Retry a) (container : RegisteredContainer) :
    settles container a = none := by
  match a, h with
  | .error _, _ => rfl
  | .ok (.failure f), ⟨hf, _⟩ => simp [settles, hf]

/-- The deliveries to one container: again only after an answer that may be retried, and on to
    the next one only when the retries are used up or the answer may not be retried. -/
structure Block (retries : Nat) (block : List DeliveryAnswer) : Prop where
  ne_nil : block ≠ []
  length_le : block.length ≤ retries
  retry : ∀ a ∈ block.dropLast, Retry a
  ended : block.length = retries ∨ ∃ a, block.getLast? = some a ∧ ¬ Retry a

/-- A call's deliveries `ds` follow its plan and end in `out`; `unsettled` is thrown when no
    delivery settles the call. -/
structure Follows (retries : Nat) (plan : List RegisteredContainer) (ds : List Delivery)
    (unsettled : Thrown) (out : Except Thrown CoreModelResponse) : Prop where
  /-- One block for each container from the first one on; all are contacted unless an answer
      settles the call. -/
  blocks : ∃ blocks : List (List DeliveryAnswer), (∀ b ∈ blocks, Block retries b) ∧
    ds = (plan.zip blocks).flatMap (fun p => p.2.map (Prod.mk p.1)) ∧
    blocks.length ≤ plan.length ∧
    ((∀ d ∈ ds, settles d.1 d.2 = none) → blocks.length = plan.length)
  settled : ∀ pre d post o, ds = pre ++ d :: post → settles d.1 d.2 = some o →
    post = [] ∧ out = o
  unsettled : (∀ d ∈ ds, settles d.1 d.2 = none) → out = .error unsettled

/-! ## The rules of following a plan -/

section Rules

variable {retries : Nat} {plan : List RegisteredContainer} {ds : List Delivery}
  {e : Thrown} {out : Except Thrown CoreModelResponse}

theorem Follows.nil : Follows retries [] [] e (.error e) where
  blocks := ⟨[], by simp, rfl, le_refl _, fun _ => rfl⟩
  settled := by simp
  unsettled _ := rfl

/-- The last answer of the first container's block settles the call. -/
theorem Follows.settle {pre : List DeliveryAnswer} {a : DeliveryAnswer}
    (container : RegisteredContainer) (hb : Block retries (pre ++ [a]))
    (ha : settles container a = some out) :
    Follows retries (container :: plan) ((pre ++ [a]).map (Prod.mk container)) e out where
  blocks := by
    refine ⟨[pre ++ [a]], by simpa using hb, by simp, by simp, fun hn => ?_⟩
    have := hn (container, a) (by simp)
    simp [ha] at this
  settled before d post o hds ho := by
    rcases List.eq_nil_or_concat post with rfl | ⟨post', x, rfl⟩
    · rw [List.map_append, List.map_singleton] at hds
      obtain ⟨-, hd⟩ := List.append_inj' hds rfl
      obtain rfl : (container, a) = d := by simpa using hd
      exact ⟨rfl, Option.some.inj (ha.symm.trans ho)⟩
    · -- then `d` stands before the last delivery, and was retried
      rw [List.map_append, List.concat_eq_append, ← List.cons_append, ← List.append_assoc] at hds
      obtain ⟨hd, -⟩ := List.append_inj' hds rfl
      have hmem : d ∈ pre.map (Prod.mk container) := by rw [hd]; simp
      obtain ⟨x, hx, rfl⟩ := List.mem_map.mp hmem
      rw [settles_of_retry (hb.retry x (by simpa using hx))] at ho
      exact nomatch ho
  unsettled hn := by
    have := hn (container, a) (by simp)
    simp [ha] at this

/-- No answer of the first container's block settles the call. -/
theorem Follows.moveOn {block : List DeliveryAnswer} (container : RegisteredContainer)
    (hb : Block retries block) (hn : ∀ a ∈ block, settles container a = none)
    (h : Follows retries plan ds e out) :
    Follows retries (container :: plan) (block.map (Prod.mk container) ++ ds) e out where
  blocks := by
    obtain ⟨blocks, hbs, rfl, hle, hall⟩ := h.blocks
    refine ⟨block :: blocks, by simpa using ⟨hb, hbs⟩, by simp, by simpa using hle, fun hd => ?_⟩
    rw [List.length_cons, List.length_cons,
      hall fun d h => hd d (List.mem_append_right _ h)]
  settled pre d post o hds ho := by
    have hd : d ∉ block.map (Prod.mk container) := by
      intro hmem
      obtain ⟨a, ha, rfl⟩ := List.mem_map.mp hmem
      exact nomatch (hn a ha).symm.trans ho
    rcases List.append_eq_append_iff.mp hds with ⟨mid, -, hds⟩ | ⟨mid, hblock, hds⟩
    · exact h.settled mid d post o hds ho
    · cases mid with
      | nil => exact h.settled [] d post o hds.symm ho
      | cons x mid =>
        obtain rfl : d = x := (List.cons.inj hds).1
        exact absurd (by simp [hblock]) hd
  unsettled hd := h.unsettled fun d hmem => hd d (List.mem_append_right _ hmem)

/-- Only containers of the plan are delivered to. -/
theorem Follows.mem_plan (h : Follows retries plan ds e out) {d : Delivery} (hd : d ∈ ds) :
    d.1 ∈ plan := by
  obtain ⟨blocks, -, rfl, -, -⟩ := h.blocks
  obtain ⟨p, hp, hd⟩ := List.mem_flatMap.mp hd
  obtain ⟨a, -, rfl⟩ := List.mem_map.mp hd
  exact (List.of_mem_zip hp).1

end Rules

/-! ## The deliveries of a run -/

section Run

variable {ε : Type} (world : GatewayEnv ε) {retries : Nat} (env : Envelope)

/-- How the last answer of a block ends it; `spent` says that no retry is left. -/
def Ends (container : RegisteredContainer) (a : DeliveryAnswer) (spent : Prop) : Tried → Prop
  | .resolved r => settles container a = some (.ok r)
  | .thrown e => settles container a = some (.error e)
  | .moveOn lastKind => settles container a = none ∧ lastKind = kindOf a ∧ (spent ∨ ¬ Retry a)

@[simp] theorem deliveries_deliver (container : RegisteredContainer) (request : ContainerRequest)
    (a : DeliveryAnswer) (t : List ((o : GatewayOp) × GatewayOp.Res o)) :
    deliveries (⟨.deliver container request, a⟩ :: t) = (container, a) :: deliveries t := rfl

@[simp] theorem deliveries_log (fields : SafeLogFields)
    (t : List ((o : GatewayOp) × GatewayOp.Res o)) (u : Unit) :
    deliveries (⟨.log fields, u⟩ :: t) = deliveries t := rfl

@[simp] theorem deliveries_markHealth (id : String) (healthy : Bool)
    (t : List ((o : GatewayOp) × GatewayOp.Res o)) (u : Unit) :
    deliveries (⟨.markHealth id healthy, u⟩ :: t) = deliveries t := rfl

@[simp] theorem deliveries_nil : deliveries [] = [] := rfl

/-- One delivery of the attempts: its answer ends them, or it is retried. -/
theorem attempts_step (container : RegisteredContainer) (left : Nat) (hleft : left < retries)
    (lastKind : Option String) (w : GatewayWorld ε) :
    ∃ a, (deliveries (trace (gatewayHandler world)
          (attempts retries env container (left + 1) lastKind) w) = [(container, a)] ∧
        Ends container a (0 = left)
          (run (gatewayHandler world) (attempts retries env container (left + 1) lastKind) w).1) ∨
      (0 < left ∧ Retry a ∧ ∃ w',
        deliveries (trace (gatewayHandler world)
          (attempts retries env container (left + 1) lastKind) w) =
            (container, a) :: deliveries (trace (gatewayHandler world)
              (attempts retries env container left (kindOf a)) w') ∧
        (run (gatewayHandler world) (attempts retries env container (left + 1) lastKind) w).1 =
          (run (gatewayHandler world) (attempts retries env container left (kindOf a)) w').1) := by
  simp only [attempts, perform_bind, run_call, trace_call, deliveries_deliver]
  generalize gatewayHandler world (.deliver container env.request) w = d
  obtain ⟨a, w'⟩ := d
  refine ⟨a, ?_⟩
  match a with
  | .error t =>
    rcases Nat.eq_zero_or_pos left with rfl | hpos
    · left
      simp [attempts, Ends, settles, kindOf]
    · right
      refine ⟨hpos, trivial, _, rfl, rfl⟩
  | .ok (.success r) =>
    left
    simp [Ends, settles]
  | .ok (.failure f) =>
    by_cases hf : fatal f.kind = true
    · left
      simp [hf, Ends, settles]
    · by_cases hr : (f.retryable && decide (retries - left < retries)) = true
      · right
        simp only [hf, hr, if_true]
        obtain ⟨hr, hlt⟩ := by simpa using hr
        refine ⟨by omega, ⟨by simpa using hf, hr⟩, _, rfl, rfl⟩
      · left
        have hspent : 0 = left ∨ ¬ Retry (.ok (.failure f)) := by
          by_cases hpos : 0 = left
          · exact .inl hpos
          · refine .inr fun hretry => hr ?_
            have hlt : retries - left < retries := by omega
            simp [hretry.2, hlt]
        simp only [hf, hr]
        simpa [hf, Ends, settles, kindOf] using hspent

theorem attempts_block (container : RegisteredContainer) (left : Nat) (hleft : left < retries)
    (lastKind : Option String) (w : GatewayWorld ε) :
    ∃ pre a, deliveries (trace (gatewayHandler world)
        (attempts retries env container (left + 1) lastKind) w) =
          (pre ++ [a]).map (Prod.mk container) ∧
      pre.length ≤ left ∧ (∀ x ∈ pre, Retry x) ∧
      Ends container a (pre.length = left)
        (run (gatewayHandler world) (attempts retries env container (left + 1) lastKind) w).1 := by
  induction left generalizing lastKind w with
  | zero =>
    obtain ⟨a, ⟨hds, hends⟩ | ⟨hpos, -⟩⟩ := attempts_step world env container 0 hleft lastKind w
    · exact ⟨[], a, hds, le_refl _, by simp, hends⟩
    · exact absurd hpos (Nat.lt_irrefl 0)
  | succ left ih =>
    obtain ⟨a, ⟨hds, hends⟩ | ⟨-, ha, w', hds, hrun⟩⟩ :=
      attempts_step world env container (left + 1) hleft lastKind w
    · refine ⟨[], a, hds, Nat.zero_le _, by simp, ?_⟩
      exact hends
    · obtain ⟨pre, b, hds', hlen, hpre, hends⟩ := ih (Nat.lt_of_succ_lt hleft) (kindOf a) w'
      refine ⟨a :: pre, b, by rw [hds, hds']; rfl, Nat.succ_le_succ hlen, ?_, ?_⟩
      · exact List.forall_mem_cons.mpr ⟨ha, hpre⟩
      · rw [hrun, List.length_cons, Nat.succ_inj]
        exact hends

theorem failover_follows (hretries : 0 < retries) (plan : List RegisteredContainer)
    (lastKind : Option String) (w : GatewayWorld ε) :
    let ds := deliveries (trace (gatewayHandler world) (failover retries env plan lastKind) w)
    Follows retries plan ds (exhaustedError env.modelClass (lastKindOf lastKind ds))
      (run (gatewayHandler world) (failover retries env plan lastKind) w).1 := by
  obtain ⟨left, rfl⟩ : ∃ left, retries = left + 1 := ⟨retries - 1, by omega⟩
  induction plan generalizing lastKind w with
  | nil => exact .nil
  | cons container rest ih =>
    obtain ⟨pre, a, hds, hlen, hpre, hends⟩ :=
      attempts_block world env container left (Nat.lt_succ_self left) lastKind w
    simp only [failover, trace_bind, run_bind, deliveries_append, hds]
    generalize hw : run (gatewayHandler world) _ w = e at hends ⊢
    obtain ⟨tried, w'⟩ := e
    have hblock (hended : pre.length = left ∨ ¬ Retry a) : Block (left + 1) (pre ++ [a]) := by
      refine ⟨by simp, by simpa using hlen, by simpa using hpre, ?_⟩
      simpa using hended
    have hsettled {o} (h : settles container a = some o) : ¬ Retry a := fun hr =>
      nomatch (settles_of_retry hr container).symm.trans h
    cases tried with
    | resolved r =>
      simpa using Follows.settle container (hblock (.inr (hsettled hends))) hends
    | thrown e =>
      simpa using Follows.settle container (hblock (.inr (hsettled hends))) hends
    | moveOn lastKind' =>
      obtain ⟨hn, rfl, hended⟩ := hends
      have hnone : ∀ x ∈ pre ++ [a], settles container x = none := by
        intro x hx
        rcases List.mem_append.mp hx with hx | hx
        · exact settles_of_retry (hpre x hx) container
        · rw [List.mem_singleton.mp hx, hn]
      have h := Follows.moveOn container (hblock hended) hnone (ih (kindOf a) w')
      rwa [List.map_append, List.map_singleton, lastKindOf_append] at *

/-- Up to its plan a call delivers nothing and leaves the registry alone; from there on it is
    `deliverAlong`. -/
theorem generate_plan (config : Config) (request : CoreModelRequest) (w : GatewayWorld ε) :
    ∃ w', deliveries (trace (gatewayHandler world) (generate config request) w) =
        deliveries (trace (gatewayHandler world) (deliverAlong config request
          (world.randomUUID w.env).1 (Router.plan w.registry request.modelClass)) w') ∧
      run (gatewayHandler world) (generate config request) w =
        run (gatewayHandler world) (deliverAlong config request
          (world.randomUUID w.env).1 (Router.plan w.registry request.modelClass)) w' ∧
      w'.registry = w.registry :=
  ⟨_, rfl, rfl, rfl⟩

/-- The deliveries of a call follow the plan for its class. -/
theorem generate_follows (config : Config) (request : CoreModelRequest)
    (hretries : 0 < config.retriesPerContainer) (w : GatewayWorld ε) :
    let plan := Router.plan w.registry request.modelClass
    let ds := deliveries (trace (gatewayHandler world) (generate config request) w)
    Follows config.retriesPerContainer plan ds
      (if plan = [] then noRouteError request.modelClass
        else exhaustedError request.modelClass (lastKindOf none ds))
      (run (gatewayHandler world) (generate config request) w).1 := by
  obtain ⟨w', hds, hrun, -⟩ := generate_plan world config request w
  show Follows _ _ _ _ _
  rw [hds, hrun]
  unfold deliverAlong
  by_cases hp : Router.plan w.registry request.modelClass = []
  · rw [if_pos (by rw [hp]; rfl), if_pos hp, hp]
    exact .nil
  · rw [if_neg (by simpa using hp), if_neg hp]
    exact failover_follows world _ hretries _ none w'

end Run

/-- A call reads its plan from the registry of that moment, and its deliveries follow it. -/
theorem generate_failover {ε : Type} (world : GatewayEnv ε) (config : Config)
    (request : CoreModelRequest) (hretries : 1 ≤ config.retriesPerContainer)
    (w : GatewayWorld ε) :
    let plan := Router.plan w.registry request.modelClass
    let ds := deliveries (trace (gatewayHandler world) (generate config request) w)
    Router.IsPlan w.registry request.modelClass plan ∧
      Follows config.retriesPerContainer plan ds
        (if plan = [] then noRouteError request.modelClass
          else exhaustedError request.modelClass (lastKindOf none ds))
        (run (gatewayHandler world) (generate config request) w).1 :=
  ⟨Router.plan_isPlan _ _, generate_follows world config request hretries w⟩

/-- A transport that gives the answers of a list, one after the other. -/
def scripted (last : DeliveryAnswer) : GatewayEnv (List DeliveryAnswer) where
  randomUUID answers := ("uuid", answers)
  log _ answers := answers
  deliver _ _ registry answers := (answers.headD last, registry, answers.tail)

/-- A registered container of the cloud reasoning class. -/
def reasoningContainer (id : String) (tier : Tier) : RegisteredContainer where
  descriptor := {
    id := id
    servesClasses := [.cloudReasoning]
    tier := tier
    providerFamily := "family" }
  baseUrl := "https://" ++ id
  healthy := true

/-- A backup, registered before the primary. -/
def twoContainers : ContainerRegistry where
  containers := [reasoningContainer "b" .backup, reasoningContainer "p" .primary]
  nodup := by decide

/-- A throw and an overload at the primary, then an answer of the backup. -/
theorem generate_failover_two :
    Follows 2 [reasoningContainer "p" .primary, reasoningContainer "b" .backup]
      [(reasoningContainer "p" .primary, .error (.error "refused")),
        (reasoningContainer "p" .primary, .ok (.failure ⟨"1.0.0", "uuid", .overloaded, "", true⟩)),
        (reasoningContainer "b" .backup,
          .ok (.success ⟨"1.0.0", "uuid", "{}", "m", .cloudReasoning, 1, 1, 0, 0⟩))]
      (exhaustedError .cloudReasoning none)
      (.ok ⟨"{}", "m", .cloudReasoning, 1, 1, 0, 0⟩) :=
  (generate_failover
    (scripted (.error (.error "")))
    ⟨2, fun text => ⟨text, []⟩, none⟩ ⟨.cloudReasoning, "", "", none, none, none, none, none⟩
    (by decide)
    ⟨[.error (.error "refused"), .ok (.failure ⟨"1.0.0", "uuid", .overloaded, "", true⟩),
      .ok (.success ⟨"1.0.0", "uuid", "{}", "m", .cloudReasoning, 1, 1, 0, 0⟩)], twoContainers⟩).2

/-! ## The class of the response -/

section ModelClass

variable {ε : Type} (world : GatewayEnv ε)

/-- Without retries nothing is delivered, and no call resolves. -/
theorem failover_zero (env : Envelope) (plan : List RegisteredContainer)
    (lastKind : Option String) (w : GatewayWorld ε) :
    deliveries (trace (gatewayHandler world) (failover 0 env plan lastKind) w) = [] ∧
      ∃ e, (run (gatewayHandler world) (failover 0 env plan lastKind) w).1 = .error e := by
  induction plan generalizing lastKind with
  | nil => exact ⟨rfl, _, rfl⟩
  | cons container rest ih => exact ih lastKind

theorem generate_zero (config : Config) (request : CoreModelRequest)
    (hretries : config.retriesPerContainer = 0) (w : GatewayWorld ε) :
    deliveries (trace (gatewayHandler world) (generate config request) w) = [] ∧
      ∃ e, (run (gatewayHandler world) (generate config request) w).1 = .error e := by
  obtain ⟨w', hds, hrun, -⟩ := generate_plan world config request w
  rw [hds, hrun]
  unfold deliverAlong
  by_cases hp : (Router.plan w.registry request.modelClass).length = 0
  · rw [if_pos hp]
    exact ⟨rfl, _, rfl⟩
  · rw [if_neg hp, hretries]
    exact failover_zero world _ _ _ w'

/-- A call resolves exactly with what the success among its deliveries says. -/
theorem generate_ok_iff (config : Config) (request : CoreModelRequest) (w : GatewayWorld ε)
    (r : CoreModelResponse) :
    (run (gatewayHandler world) (generate config request) w).1 = .ok r ↔
      ∃ c s, (c, .ok (.success s)) ∈
          deliveries (trace (gatewayHandler world) (generate config request) w) ∧
        r = coreResponse s := by
  rcases Nat.eq_zero_or_pos config.retriesPerContainer with hzero | hpos
  · obtain ⟨hds, e, hout⟩ := generate_zero world config request hzero w
    rw [hds, hout]
    simp
  have h := generate_follows world config request hpos w
  constructor
  · intro hr
    by_contra hno
    -- then no delivery settles the call, or one with an error
    by_cases hn : ∀ d ∈ deliveries (trace (gatewayHandler world) (generate config request) w),
        settles d.1 d.2 = none
    · have hout := h.unsettled hn
      rw [hr] at hout
      exact nomatch hout
    · push Not at hn
      obtain ⟨d, hd, hsome⟩ := hn
      obtain ⟨pre, post, hds⟩ := List.append_of_mem hd
      obtain ⟨o, ho⟩ := Option.ne_none_iff_exists'.mp hsome
      have hout := (h.settled pre d post o hds ho).2
      obtain ⟨c, a⟩ := d
      match a, ho with
      | .ok (.success s), ho =>
        refine hno ⟨c, s, hd, ?_⟩
        have : o = .ok (coreResponse s) := (Option.some.inj ho).symm
        rw [hr, this] at hout
        exact Except.ok.inj hout
      | .ok (.failure f), ho =>
        simp only [settles] at ho
        split at ho
        · have : o = .error (fatalError c f) := (Option.some.inj ho).symm
          rw [hr, this] at hout
          exact nomatch hout
        · exact nomatch ho
  · rintro ⟨c, s, hmem, rfl⟩
    obtain ⟨pre, post, hds⟩ := List.append_of_mem hmem
    exact (h.settled pre (c, .ok (.success s)) post _ hds rfl).2

/-- A call hands the core a response of the requested class exactly when no container that it
    contacts answers it with a success of another class: nothing compares the two. -/
theorem generate_class_iff (config : Config) (request : CoreModelRequest)
    (w : GatewayWorld ε) :
    (∀ r, (run (gatewayHandler world) (generate config request) w).1 = .ok r →
        r.modelClass = request.modelClass) ↔
      ∀ c s, (c, .ok (.success s)) ∈
          deliveries (trace (gatewayHandler world) (generate config request) w) →
        s.modelClass = request.modelClass := by
  constructor
  · intro h c s hmem
    exact h _ ((generate_ok_iff world config request w _).mpr ⟨c, s, hmem, rfl⟩)
  · intro h r hr
    obtain ⟨c, s, hmem, rfl⟩ := (generate_ok_iff world config request w r).mp hr
    exact h c s hmem

end ModelClass

/-- A request for the cloud reasoning class, answered by a container of that class with the
    local fast class: the call resolves with it. -/
theorem generate_class_counterexample :
    (run (gatewayHandler (scripted (.error (.error ""))))
      (generate ⟨2, fun text => ⟨text, []⟩, none⟩
        ⟨.cloudReasoning, "", "", none, none, none, none, some true⟩)
      ⟨[.ok (.success ⟨"1.0.0", "uuid", "{}", "m", .localFast, 1, 1, 0, 0⟩)], twoContainers⟩).1 =
        .ok ⟨"{}", "m", .localFast, 1, 1, 0, 0⟩ ∧
      ModelClass.localFast ≠ .cloudReasoning :=
  ⟨rfl, by decide⟩

end Harp.Concierge
