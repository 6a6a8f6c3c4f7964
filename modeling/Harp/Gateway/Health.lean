import Harp.Gateway.Failover
import Mathlib.Data.List.Forall2

/-
  Health flags (`src/gateway/concierge/Concierge.ts`, `markHealth` of
  `src/gateway/routing/Router.ts`).

  `GaveUp` says that a call abandoned a container, `dropped` which containers the code marks:
  the two differ where the last delivery threw, since that path leaves the attempt loop
  without `markHealth`. `failover_registry` is by induction on the plan; its ids are
  distinct, so the block of one container decides that container's flag alone.
-/

namespace Harp.Concierge

open Prog

/-- The answer of the last delivery to the container of an id. -/
def lastTo (id : String) (ds : List Delivery) : Option DeliveryAnswer :=
  ((ds.filter fun d => d.1.descriptor.id == id).getLast?).map Prod.snd

theorem lastTo_append (id : String) (xs ys : List Delivery) :
    lastTo id (xs ++ ys) = (lastTo id ys).or (lastTo id xs) := by
  unfold lastTo
  rw [List.filter_append, List.getLast?_append]
  cases (List.filter (fun d => d.1.descriptor.id == id) ys).getLast? <;> rfl

theorem lastTo_block_self (container : RegisteredContainer) (block : List DeliveryAnswer) :
    lastTo container.descriptor.id (block.map (Prod.mk container)) = block.getLast? := by
  unfold lastTo
  rw [List.filter_eq_self.mpr (by simp), List.getLast?_map]
  cases block.getLast? <;> rfl

theorem lastTo_eq_none {id : String} {ds : List Delivery}
    (h : ∀ d ∈ ds, d.1.descriptor.id ≠ id) : lastTo id ds = none := by
  unfold lastTo
  rw [List.filter_eq_nil_iff.mpr (by simpa using h)]
  rfl

theorem mem_of_lastTo {id : String} {ds : List Delivery} {a : DeliveryAnswer}
    (h : lastTo id ds = some a) : ∃ c, (c, a) ∈ ds ∧ c.descriptor.id = id := by
  obtain ⟨⟨c, b⟩, hlast, rfl⟩ := Option.map_eq_some_iff.mp h
  obtain ⟨hmem, hid⟩ := List.mem_filter.mp (List.mem_of_getLast? hlast)
  exact ⟨c, hmem, by simpa using hid⟩

/-! ## Giving up on a container -/

/-- A reply that is a failure, but neither "unauthorized" nor "bad_request". -/
def refused : DeliveryAnswer → Bool
  | .ok (.failure f) => !fatal f.kind
  | _ => false

/-- A throw, or a refusal: neither a success nor a fatal reply. -/
def abandons : DeliveryAnswer → Bool
  | .error _ => true
  | a => refused a

/-- The call delivered to the container, and its last delivery neither succeeded nor was
    fatal. -/
def GaveUp (ds : List Delivery) (c : RegisteredContainer) : Prop :=
  ∃ a, lastTo c.descriptor.id ds = some a ∧ abandons a = true

/-- The flags after a call record the containers it gave up on, and nothing else changed. -/
def HealthExact (before after : ContainerRegistry) (ds : List Delivery) : Prop :=
  List.Forall₂ (fun c c' =>
    (c.healthy = true ∧ c'.healthy = false ↔ GaveUp ds c) ∧
    (¬ GaveUp ds c → c'.healthy = c.healthy) ∧
    c'.descriptor = c.descriptor ∧ c'.baseUrl = c.baseUrl) before.containers after.containers

/-- The last delivery to the container was refused: the code marks it. -/
def dropped (ds : List Delivery) (c : RegisteredContainer) : Bool :=
  (lastTo c.descriptor.id ds).any refused

/-- A registry entry after the deliveries `ds`. -/
def marked (ds : List Delivery) (c : RegisteredContainer) : RegisteredContainer :=
  if dropped ds c then { c with healthy := false } else c

theorem marked_of_not {ds : List Delivery} {c : RegisteredContainer}
    (h : dropped ds c = false) : marked ds c = c := by
  unfold marked
  rw [h]
  rfl

/-- Of all that gives up on a container only a throw at the end leaves its flag alone. -/
theorem gaveUp_iff_dropped {ds : List Delivery} {c : RegisteredContainer}
    (h : ∀ t, lastTo c.descriptor.id ds ≠ some (.error t)) :
    GaveUp ds c ↔ dropped ds c = true := by
  unfold GaveUp dropped
  cases hlast : lastTo c.descriptor.id ds with
  | none => simp
  | some a =>
    match a with
    | .error t => exact absurd hlast (h t)
    | .ok (.success s) => simp [abandons, refused]
    | .ok (.failure f) => simp [abandons, refused]

theorem dropped_of_throw {ds : List Delivery} {c : RegisteredContainer} {t : Thrown}
    (h : lastTo c.descriptor.id ds = some (.error t)) : dropped ds c = false := by
  unfold dropped
  rw [h]
  rfl

/-- The block of one container decides the flag of that container, and of no other. -/
theorem marked_block {container : RegisteredContainer} (pre : List DeliveryAnswer)
    (b : DeliveryAnswer) {ds : List Delivery}
    (hrest : ∀ d ∈ ds, d.1.descriptor.id ≠ container.descriptor.id)
    (registry : ContainerRegistry) :
    registry.containers.map (marked ((pre ++ [b]).map (Prod.mk container) ++ ds)) =
      (if refused b then registry.markHealth container.descriptor.id false
        else registry).containers.map (marked ds) := by
  have hmark : (if refused b then registry.markHealth container.descriptor.id false
      else registry).containers = registry.containers.map fun c =>
        if refused b = true ∧ c.descriptor.id = container.descriptor.id then
          { c with healthy := false } else c := by
    cases refused b <;> simp [ContainerRegistry.markHealth]
  rw [hmark, List.map_map]
  apply List.map_congr_left
  intro c _
  by_cases hc : c.descriptor.id = container.descriptor.id
  · have hblock : dropped ((pre ++ [b]).map (Prod.mk container) ++ ds) c = refused b := by
      unfold dropped
      rw [lastTo_append, hc, lastTo_eq_none hrest, lastTo_block_self, List.getLast?_concat]
      rfl
    have hafter (c' : RegisteredContainer) (hc' : c'.descriptor = c.descriptor) :
        dropped ds c' = false := by
      unfold dropped
      rw [hc', hc, lastTo_eq_none hrest]
      rfl
    rw [Function.comp, marked_of_not (hafter _ (by split <;> rfl))]
    simp only [marked, hblock, hc, and_true]
  · have hblock : dropped ((pre ++ [b]).map (Prod.mk container) ++ ds) c = dropped ds c := by
      unfold dropped
      have hnone : lastTo c.descriptor.id ((pre ++ [b]).map (Prod.mk container)) = none := by
        apply lastTo_eq_none
        intro d hd
        obtain ⟨a, -, rfl⟩ := List.mem_map.mp hd
        exact Ne.symm hc
      rw [lastTo_append, hnone, Option.or_none]
    rw [Function.comp, if_neg fun h => hc h.2]
    unfold marked
    rw [hblock]

/-! ## What a run does to the registry -/

section Run

variable {ε : Type} {world : GatewayEnv ε} {retries : Nat} (env : Envelope)
  (halone : ∀ c request registry e, (world.deliver c request registry e).2.1 = registry)
include halone

/-- From the attempts that a throw or a retry leads to, the attempts from one before. -/
theorem attempts_registry_step (container : RegisteredContainer) (left : Nat)
    (lastKind : Option String) (w : GatewayWorld ε)
    (hagain : ∀ a w', refused a = false ∨ 0 < left → w'.registry = w.registry →
      ∃ b, ((container, a) :: deliveries (trace (gatewayHandler world)
          (attempts retries env container left (kindOf a)) w')).getLast? = some (container, b) ∧
        (run (gatewayHandler world) (attempts retries env container left (kindOf a)) w').2.registry
          = if refused b then w.registry.markHealth container.descriptor.id false
            else w.registry) :
    ∃ b, (deliveries (trace (gatewayHandler world)
        (attempts retries env container (left + 1) lastKind) w)).getLast? =
          some (container, b) ∧
      (run (gatewayHandler world) (attempts retries env container (left + 1) lastKind) w).2.registry
        = if refused b then w.registry.markHealth container.descriptor.id false
          else w.registry := by
  have hreg : (gatewayHandler world (.deliver container env.request) w).2.registry =
    w.registry := halone _ _ _ _
  rw [attempts]
  simp only [perform_bind, run_call, trace_call, deliveries_deliver]
  generalize gatewayHandler world (.deliver container env.request) w = d at hreg ⊢
  obtain ⟨a, w'⟩ := d
  rcases a with t | r | f
  · exact hagain (.error t) _ (.inl rfl) hreg
  · exact ⟨_, rfl, hreg⟩
  · by_cases hf : fatal f.kind = true
    · simp only [hf, if_true]
      have hkeep : refused (.ok (.failure f)) = false := by simp [refused, hf]
      exact ⟨_, rfl, by rw [hkeep]; exact hreg⟩
    · by_cases hr : (f.retryable && decide (retries - left < retries)) = true
      · simp only [hf, hr, if_true]
        have hlt : retries - left < retries := by
          rw [Bool.and_eq_true, decide_eq_true_eq] at hr
          exact hr.2
        exact hagain (.ok (.failure f)) _ (.inr (by omega)) hreg
      · simp only [hf, hr]
        refine ⟨_, rfl, ?_⟩
        simp only [refused, hf]
        exact congrArg (·.markHealth container.descriptor.id false) hreg

/-- The attempts on a container mark it exactly when its last answer is a refusal. -/
theorem attempts_registry (container : RegisteredContainer) (left : Nat)
    (lastKind : Option String) (w : GatewayWorld ε) :
    ∃ a, (deliveries (trace (gatewayHandler world)
        (attempts retries env container (left + 1) lastKind) w)).getLast? =
          some (container, a) ∧
      (run (gatewayHandler world) (attempts retries env container (left + 1) lastKind) w).2.registry
        = if refused a then w.registry.markHealth container.descriptor.id false
          else w.registry := by
  induction left generalizing lastKind w with
  | zero =>
    apply attempts_registry_step env halone
    intro a w' ha hw
    -- no attempt is left, so this answer was not a refusal
    have hkeep : refused a = false := ha.resolve_right (Nat.lt_irrefl 0)
    refine ⟨a, rfl, ?_⟩
    rw [hkeep]
    exact hw
  | succ left ih =>
    apply attempts_registry_step env halone
    intro a w' _ hw
    obtain ⟨b, hlast, hrun⟩ := ih (kindOf a) w'
    rw [hw] at hrun
    refine ⟨b, ?_, hrun⟩
    rw [List.getLast?_cons, hlast]
    rfl

/-- A registry after a walk along a plan: the containers that its deliveries dropped are
    marked. -/
theorem failover_registry (hretries : 0 < retries) (plan : List RegisteredContainer)
    (hids : (plan.map (·.descriptor.id)).Nodup) (lastKind : Option String)
    (w : GatewayWorld ε) :
    (run (gatewayHandler world) (failover retries env plan lastKind) w).2.registry.containers =
      w.registry.containers.map (marked
        (deliveries (trace (gatewayHandler world) (failover retries env plan lastKind) w))) := by
  obtain ⟨left, rfl⟩ : ∃ left, retries = left + 1 := ⟨retries - 1, by omega⟩
  induction plan generalizing lastKind w with
  | nil => exact (List.map_id' _).symm
  | cons container rest ih =>
    obtain ⟨hnot, hids⟩ := List.nodup_cons.mp hids
    obtain ⟨pre, a, hds, -, -, hends⟩ :=
      attempts_block world env container left (Nat.lt_succ_self left) lastKind w
    obtain ⟨b, hlast, hreg⟩ :=
      attempts_registry env halone container left lastKind w
    obtain rfl : b = a := by
      rw [hds, List.getLast?_map, List.getLast?_concat] at hlast
      simpa using hlast.symm
    simp only [failover, trace_bind, run_bind, deliveries_append, hds]
    generalize hw : run (gatewayHandler world) _ w = e at hends hreg ⊢
    obtain ⟨tried, w'⟩ := e
    have hblock {ds : List Delivery}
        (hrest : ∀ d ∈ ds, d.1.descriptor.id ≠ container.descriptor.id) :
        w'.registry.containers.map (marked ds) =
          w.registry.containers.map (marked ((pre ++ [b]).map (Prod.mk container) ++ ds)) := by
      rw [marked_block pre b hrest, ← hreg]
    have hend : w'.registry.containers =
        w.registry.containers.map (marked ((pre ++ [b]).map (Prod.mk container) ++ [])) := by
      rw [← hblock (by simp)]
      exact (List.map_id' _).symm
    cases tried with
    | resolved r => exact hend
    | thrown e => exact hend
    | moveOn lastKind' =>
      rw [← hblock]
      · exact ih hids lastKind' w'
      · intro d hd heq
        have hmem := (failover_follows world env hretries rest lastKind' w').mem_plan hd
        exact hnot (List.mem_map.mpr ⟨d.1, hmem, heq⟩)

/-- A registry after a call that ran alone. -/
theorem generate_registry (config : Config) (request : CoreModelRequest)
    (hretries : 0 < config.retriesPerContainer) (w : GatewayWorld ε) :
    (run (gatewayHandler world) (generate config request) w).2.registry.containers =
      w.registry.containers.map (marked
        (deliveries (trace (gatewayHandler world) (generate config request) w))) := by
  obtain ⟨w', hds, hrun, hreg⟩ := generate_plan world config request w
  rw [hds, hrun, ← hreg]
  unfold deliverAlong
  by_cases hp : (Router.plan w'.registry request.modelClass).length = 0
  · rw [if_pos hp]
    exact (List.map_id' _).symm
  · rw [if_neg hp]
    exact failover_registry _ halone hretries _ (Router.plan_isPlan _ _).nodup none w'

end Run

/-- What a call gives up on was healthy when the call made its plan. -/
theorem generate_gaveUp_healthy {ε : Type} (world : GatewayEnv ε) (config : Config)
    (request : CoreModelRequest) (hretries : 0 < config.retriesPerContainer)
    (w : GatewayWorld ε) {c : RegisteredContainer} (hc : c ∈ w.registry.containers)
    (h : GaveUp (deliveries (trace (gatewayHandler world) (generate config request) w)) c) :
    c.healthy = true := by
  obtain ⟨a, hlast, -⟩ := h
  obtain ⟨c', hmem, hid⟩ := mem_of_lastTo hlast
  have hplan := (generate_follows world config request hretries w).mem_plan hmem
  have hserves := ((Router.plan_isPlan w.registry request.modelClass).mem c').mp hplan
  have hsame : c' = c := List.inj_on_of_nodup_map w.registry.nodup hserves.1 hc hid
  exact hsame ▸ hserves.2.1

/-- The last delivery to a registered container never threw. -/
def NoLastThrow (registry : ContainerRegistry) (ds : List Delivery) : Prop :=
  ∀ c ∈ registry.containers, ∀ t, lastTo c.descriptor.id ds ≠ some (.error t)

/-- The flags after a call that ran alone record the containers it gave up on exactly when no
    container threw at the last delivery to it: after such a throw the loop is left without
    marking the container. -/
theorem generate_health_iff {ε : Type} (world : GatewayEnv ε) (config : Config)
    (request : CoreModelRequest) (hretries : 1 ≤ config.retriesPerContainer)
    (halone : ∀ c request registry e, (world.deliver c request registry e).2.1 = registry)
    (w : GatewayWorld ε) :
    let ds := deliveries (trace (gatewayHandler world) (generate config request) w)
    HealthExact w.registry (run (gatewayHandler world) (generate config request) w).2.registry ds ↔
      NoLastThrow w.registry ds := by
  intro ds
  unfold HealthExact
  rw [generate_registry halone config request hretries w, List.forall₂_map_right_iff,
    List.forall₂_same]
  constructor
  · intro h c hc t ht
    have hgave : GaveUp ds c := ⟨_, ht, rfl⟩
    obtain ⟨hup, hdown⟩ := (h c hc).1.mpr hgave
    rw [marked_of_not (dropped_of_throw ht), hup] at hdown
    exact nomatch hdown
  · intro h c hc
    have hdropped := gaveUp_iff_dropped (h c hc)
    by_cases hgave : GaveUp ds c
    · have hhealthy := generate_gaveUp_healthy world config request hretries w hc hgave
      have hmark : marked ds c = { c with healthy := false } := if_pos (hdropped.mp hgave)
      rw [hmark]
      exact ⟨⟨fun _ => hgave, fun _ => ⟨hhealthy, rfl⟩⟩, fun hn => absurd hgave hn, rfl, rfl⟩
    · have hmark : marked ds c = c := marked_of_not (by simpa using mt hdropped.mpr hgave)
      rw [hmark]
      refine ⟨⟨fun hc => ?_, fun h => absurd h hgave⟩, fun _ => rfl, rfl, rfl⟩
      exact absurd (hc.1.symm.trans hc.2) nofun

/-- The primary refuses twice and the backup succeeds: the flags are exact. -/
theorem generate_health_refused :
    let w : GatewayWorld (List DeliveryAnswer) :=
      ⟨[.ok (.failure ⟨"1.0.0", "uuid", .overloaded, "", true⟩),
        .ok (.failure ⟨"1.0.0", "uuid", .overloaded, "", true⟩),
        .ok (.success ⟨"1.0.0", "uuid", "{}", "m", .cloudReasoning, 1, 1, 0, 0⟩)], twoContainers⟩
    let call := generate ⟨2, fun text => ⟨text, []⟩, none⟩
      ⟨.cloudReasoning, "", "", none, none, none, none, none⟩
    HealthExact twoContainers
      (run (gatewayHandler (scripted (.error (.error "")))) call w).2.registry
      (deliveries (trace (gatewayHandler (scripted (.error (.error "")))) call w)) := by
  intro w call
  refine (generate_health_iff (scripted (.error (.error ""))) _ _ (by decide)
    (fun _ _ _ _ => rfl) w).mpr ?_
  intro c hc t
  rcases List.mem_pair.mp hc with rfl | rfl
  · exact nofun
  · exact nofun

/-- A transport that always throws: the call gives up on both containers, and both stay
    healthy. -/
theorem generate_health_counterexample :
    let w : GatewayWorld (List DeliveryAnswer) := ⟨[], twoContainers⟩
    let call := generate ⟨2, fun text => ⟨text, []⟩, none⟩
      ⟨.cloudReasoning, "", "", none, none, none, none, none⟩
    ¬ HealthExact twoContainers
      (run (gatewayHandler (scripted (.error (.error "refused")))) call w).2.registry
      (deliveries (trace (gatewayHandler (scripted (.error (.error "refused")))) call w)) := by
  intro w call h
  obtain ⟨hflag, -⟩ := (List.forall₂_cons.mp h).1
  obtain ⟨-, hdown⟩ := hflag.mpr ⟨.error (.error "refused"), rfl, rfl⟩
  exact nomatch hdown

end Harp.Concierge
