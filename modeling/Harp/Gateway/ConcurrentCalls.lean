import Harp.Gateway.Health
import Harp.Lib.Pool

/-
  Calls that run concurrently (`src/gateway/concierge/Concierge.ts`,
  `src/gateway/routing/Router.ts`).

  All calls share one registry, and between two operations of a call any operations of the others
  may run. What a call delivers is a path of its program, and a path is replayed by a transport that
  gives the same answers (`replay`), so what `Follows` and `dropped` say of a call that runs alone
  holds of each call among others. The registry only loses health, by the marks of all calls
  (`run_registry`).
-/

namespace Harp.Concierge

open Prog

/-! ## The path of one call -/

def markOf : ((o : GatewayOp) × GatewayOp.Res o) → Option String
  | ⟨.markHealth id _, _⟩ => some id
  | _ => none

/-- The ids that a trace marks, in order. -/
def marks (t : List ((o : GatewayOp) × GatewayOp.Res o)) : List String := t.filterMap markOf

/-- The registry after the marks. -/
def markAll (ids : List String) (registry : ContainerRegistry) : ContainerRegistry :=
  ids.foldl (fun registry id => registry.markHealth id false) registry

/-- A container whose id is among the marks is unhealthy, every other one as before. -/
def markedBy (ids : List String) (c : RegisteredContainer) : RegisteredContainer :=
  if c.descriptor.id ∈ ids then { c with healthy := false } else c

@[simp] theorem markedBy_descriptor (ids : List String) (c : RegisteredContainer) :
    (markedBy ids c).descriptor = c.descriptor := by
  unfold markedBy
  split <;> rfl

@[simp] theorem markedBy_baseUrl (ids : List String) (c : RegisteredContainer) :
    (markedBy ids c).baseUrl = c.baseUrl := by
  unfold markedBy
  split <;> rfl

theorem markedBy_healthy (ids : List String) (c : RegisteredContainer) :
    (markedBy ids c).healthy = true ↔ c.healthy = true ∧ c.descriptor.id ∉ ids := by
  unfold markedBy
  split
  case isTrue h => simp [h]
  case isFalse h => simp [h]

/-- What is unhealthy stays as it is. -/
theorem markedBy_of_unhealthy (ids : List String) {c : RegisteredContainer}
    (h : c.healthy = false) : markedBy ids c = c := by
  unfold markedBy
  split
  case isTrue => rw [← h]
  case isFalse => rfl

theorem containers_markAll (ids : List String) (registry : ContainerRegistry) :
    (markAll ids registry).containers = registry.containers.map (markedBy ids) := by
  induction ids generalizing registry with
  | nil => exact (List.map_id' _).symm
  | cons id ids ih =>
    have hstep : (markAll (id :: ids) registry).containers =
        (registry.markHealth id false).containers.map (markedBy ids) := ih _
    rw [hstep, ContainerRegistry.markHealth, List.map_map]
    refine List.map_congr_left fun c _ => ?_
    by_cases hid : c.descriptor.id = id
    · simp [markedBy, hid]
    · simp [markedBy, hid]

/-- What a call may do once it has its plan: `P` bounds its deliveries. -/
def Delivering (P : RegisteredContainer → ContainerRequest → Prop) : GatewayOp → Prop
  | .deliver container request => P container request
  | .log _ => True
  | .markHealth _ healthy => healthy = false
  | _ => False

section Delivering

variable {retries : ℕ} {env : Envelope} {P : RegisteredContainer → ContainerRequest → Prop}

theorem attempts_delivering {container : RegisteredContainer} (h : P container env.request)
    (left : ℕ) (lastKind : Option String) :
    Meets (Delivering P) (fun _ _ => True) (fun _ => True)
      (attempts retries env container left lastKind) := by
  induction left generalizing lastKind with
  | zero => trivial
  | succ left ih =>
    simp only [attempts, perform_bind, meets_call]
    refine ⟨h, fun a _ => ?_⟩
    rcases a with t | r | f
    · exact ⟨trivial, fun _ _ => ih _⟩
    · exact ⟨trivial, fun _ _ => trivial⟩
    · by_cases hfatal : fatal f.kind = true
      · simp only [hfatal, if_true]
        exact ⟨trivial, fun _ _ => trivial⟩
      · simp only [hfatal]
        by_cases hagain : (f.retryable && decide (retries - left < retries)) = true
        · simp only [hagain, if_true]
          exact ⟨trivial, fun _ _ => ih _⟩
        · simp only [hagain]
          exact ⟨trivial, fun _ _ => ⟨rfl, fun _ _ => trivial⟩⟩

theorem failover_delivering {plan : List RegisteredContainer} (h : ∀ c ∈ plan, P c env.request)
    (lastKind : Option String) :
    Meets (Delivering P) (fun _ _ => True) (fun _ => True)
      (failover retries env plan lastKind) := by
  induction plan generalizing lastKind with
  | nil => exact ⟨trivial, fun _ _ => trivial⟩
  | cons container rest ih =>
    obtain ⟨hhead, htail⟩ := List.forall_mem_cons.mp h
    refine (attempts_delivering hhead retries lastKind).bind fun tried _ => ?_
    cases tried with
    | resolved r => trivial
    | thrown e => trivial
    | moveOn lastKind => exact ih htail lastKind

theorem deliverAlong_delivering {config : Config} {request : CoreModelRequest}
    {correlationId : String} {plan : List RegisteredContainer}
    (h : ∀ c ∈ plan, P c (envelope config request correlationId).request) :
    Meets (Delivering P) (fun _ _ => True) (fun _ => True)
      (deliverAlong config request correlationId plan) := by
  unfold deliverAlong
  by_cases hplan : plan.length = 0
  · rw [if_pos hplan]
    exact ⟨trivial, fun _ _ => trivial⟩
  · rw [if_neg hplan]
    exact failover_delivering h none

end Delivering

/-- A transport that gives the answers of a list, and throws when it has no more. -/
def replaying : GatewayEnv (List DeliveryAnswer) := scripted (.error (.error ""))

/-- A path to the end of a call is the run of the call against its own answers. -/
theorem replay {α : Type} {P : RegisteredContainer → ContainerRequest → Prop}
    {p : GatewayProg α} (hp : Meets (Delivering P) (fun _ _ => True) (fun _ => True) p)
    {tr : List ((o : GatewayOp) × GatewayOp.Res o)} {a : α} (h : Path p tr (ret a))
    (registry : ContainerRegistry) :
    let w : GatewayWorld (List DeliveryAnswer) := ⟨(deliveries tr).map Prod.snd, registry⟩
    (run (gatewayHandler replaying) p w).1 = a ∧
      deliveries (trace (gatewayHandler replaying) p w) = deliveries tr ∧
      (run (gatewayHandler replaying) p w).2.registry = markAll (marks tr) registry := by
  induction p generalizing tr registry with
  | ret b =>
    obtain ⟨rfl, hret⟩ := path_ret.mp h
    obtain rfl := Prog.ret.inj hret
    exact ⟨rfl, rfl, rfl⟩
  | call o k ih =>
    obtain ⟨r, tr, rfl, hrest⟩ := path_call_end h
    have hnext := ih r (hp.2 r trivial) hrest
    cases o with
    | randomUUID => exact hp.1.elim
    | serving modelClass => exact hp.1.elim
    | log fields => exact hnext registry
    | deliver container request =>
      obtain ⟨hrun, hds, hreg⟩ := hnext registry
      exact ⟨hrun, congrArg ((container, r) :: ·) hds, hreg⟩
    | markHealth id healthy =>
      obtain rfl : healthy = false := hp.1
      exact hnext (registry.markHealth id false)

/-- The operations of a call up to its plan. -/
theorem generate_path {config : Config} {request : CoreModelRequest}
    {tr : List ((o : GatewayOp) × GatewayOp.Res o)}
    {q : GatewayProg (Except Thrown CoreModelResponse)} (h : Path (generate config request) tr q) :
    (deliveries tr = [] ∧ marks tr = [] ∧ ∀ out, q ≠ ret out) ∨
      ∃ correlationId serving tr', ⟨.serving request.modelClass, serving⟩ ∈ tr ∧
        deliveries tr = deliveries tr' ∧ marks tr = marks tr' ∧
        Path (deliverAlong config request correlationId (Router.tiered serving)) tr' q := by
  simp only [generate, perform_bind, path_call] at h
  rcases h with ⟨rfl, rfl⟩ | ⟨correlationId, tr₁, rfl, h⟩
  · exact .inl ⟨rfl, rfl, fun _ hret => by cases hret⟩
  rcases h with ⟨rfl, rfl⟩ | ⟨_, tr₂, rfl, h⟩
  · exact .inl ⟨rfl, rfl, fun _ hret => by cases hret⟩
  rcases h with ⟨rfl, rfl⟩ | ⟨serving, tr₃, rfl, h⟩
  · exact .inl ⟨rfl, rfl, fun _ hret => by cases hret⟩
  · exact .inr ⟨correlationId, serving, tr₃, by simp, rfl, rfl, h⟩

/-- A call that has not ended has delivered along its plan as well. -/
theorem deliverAlong_mem {config : Config} {request : CoreModelRequest} {correlationId : String}
    {plan : List RegisteredContainer} {tr : List ((o : GatewayOp) × GatewayOp.Res o)}
    {q : GatewayProg (Except Thrown CoreModelResponse)}
    (h : Path (deliverAlong config request correlationId plan) tr q) :
    ∀ d ∈ deliveries tr, d.1 ∈ plan := by
  have hmeets : Meets (Delivering fun c _ => c ∈ plan) (fun _ _ => True) (fun _ => True)
      (deliverAlong config request correlationId plan) := deliverAlong_delivering fun _ hc => hc
  intro d hd
  obtain ⟨⟨o, r⟩, hx, heq⟩ := List.mem_filterMap.mp hd
  have ho := h.meets hmeets (fun _ _ => trivial) _ hx
  cases o with
  | deliver container request =>
    obtain rfl := Option.some.inj heq
    exact ho
  | _ => cases heq

/-- A call that has ended without a plan. -/
theorem deliverAlong_nil {config : Config} {request : CoreModelRequest} {correlationId : String}
    {tr : List ((o : GatewayOp) × GatewayOp.Res o)} {out : Except Thrown CoreModelResponse}
    (h : Path (deliverAlong config request correlationId []) tr (ret out)) :
    deliveries tr = [] ∧ marks tr = [] ∧ out = .error (noRouteError request.modelClass) := by
  obtain ⟨_, tr', rfl, hrest⟩ := path_call_end h
  obtain ⟨rfl, hret⟩ := path_ret.mp hrest
  exact ⟨rfl, rfl, Prog.ret.inj hret⟩

/-- With a plan, its run against its own answers. -/
theorem deliverAlong_replay {config : Config} {request : CoreModelRequest} {correlationId : String}
    {plan : List RegisteredContainer} (hplan : plan ≠ [])
    {tr : List ((o : GatewayOp) × GatewayOp.Res o)} {out : Except Thrown CoreModelResponse}
    (h : Path (deliverAlong config request correlationId plan) tr (ret out))
    (registry : ContainerRegistry) :
    let p := failover config.retriesPerContainer (envelope config request correlationId) plan none
    let w : GatewayWorld (List DeliveryAnswer) := ⟨(deliveries tr).map Prod.snd, registry⟩
    (run (gatewayHandler replaying) p w).1 = out ∧
      deliveries (trace (gatewayHandler replaying) p w) = deliveries tr ∧
      (run (gatewayHandler replaying) p w).2.registry = markAll (marks tr) registry := by
  unfold deliverAlong at h
  rw [if_neg (by simpa using hplan)] at h
  exact replay (failover_delivering (P := fun _ _ => True) (fun _ _ => trivial) none) h registry

/-- A call that has ended has followed its plan. -/
theorem deliverAlong_follows {config : Config} {request : CoreModelRequest}
    {correlationId : String} {plan : List RegisteredContainer}
    {tr : List ((o : GatewayOp) × GatewayOp.Res o)} {out : Except Thrown CoreModelResponse}
    (hretries : 0 < config.retriesPerContainer)
    (h : Path (deliverAlong config request correlationId plan) tr (ret out)) :
    Follows config.retriesPerContainer plan (deliveries tr)
      (if plan = [] then noRouteError request.modelClass
        else exhaustedError request.modelClass (lastKindOf none (deliveries tr))) out := by
  by_cases hplan : plan = []
  · subst hplan
    obtain ⟨hds, -, rfl⟩ := deliverAlong_nil h
    rw [hds, if_pos rfl]
    exact .nil
  · obtain ⟨hrun, hds, -⟩ := deliverAlong_replay hplan h ContainerRegistry.empty
    have hfollows := failover_follows replaying (envelope config request correlationId) hretries
      plan none ⟨(deliveries tr).map Prod.snd, ContainerRegistry.empty⟩
    rw [hrun, hds] at hfollows
    rw [if_neg hplan]
    exact hfollows

/-- A registry of one healthy container, to read a mark off. -/
def single (c : RegisteredContainer) : ContainerRegistry :=
  ⟨[{ c with healthy := true }], List.nodup_singleton _⟩

/-- A call that has ended has marked the containers it dropped. -/
theorem deliverAlong_marks {config : Config} {request : CoreModelRequest} {correlationId : String}
    {plan : List RegisteredContainer} {tr : List ((o : GatewayOp) × GatewayOp.Res o)}
    {out : Except Thrown CoreModelResponse} (hretries : 0 < config.retriesPerContainer)
    (hids : (plan.map (·.descriptor.id)).Nodup)
    (h : Path (deliverAlong config request correlationId plan) tr (ret out))
    (c : RegisteredContainer) :
    c.descriptor.id ∈ marks tr ↔ dropped (deliveries tr) c = true := by
  by_cases hplan : plan = []
  · subst hplan
    obtain ⟨hds, hmarks, -⟩ := deliverAlong_nil h
    rw [hds, hmarks]
    exact iff_of_false List.not_mem_nil Bool.false_ne_true
  · obtain ⟨-, hds, hreg⟩ := deliverAlong_replay hplan h (single c)
    have halone : ∀ c request registry e, (replaying.deliver c request registry e).2.1 = registry :=
      fun _ _ _ _ => rfl
    have hmarked := failover_registry (envelope config request correlationId) halone hretries plan
      hids none ⟨(deliveries tr).map Prod.snd, single c⟩
    rw [hds, hreg, containers_markAll] at hmarked
    have hone := congrArg (·.healthy) (List.cons.inj hmarked).1
    have hdropped : dropped (deliveries tr) { c with healthy := true } =
        dropped (deliveries tr) c := rfl
    simp only [markedBy, marked, hdropped] at hone
    by_cases hmark : c.descriptor.id ∈ marks tr
    · cases hd : dropped (deliveries tr) c with
      | true => exact iff_of_true hmark rfl
      | false => simp [hmark, hd] at hone
    · cases hd : dropped (deliveries tr) c with
      | true => simp [hmark, hd] at hone
      | false => exact iff_of_false hmark Bool.false_ne_true

/-! ## All calls -/

section Calls

variable {ε δ ι : Type} (world : δ → GatewayEnv ε) (config : Config)
  (requests : ι → CoreModelRequest) (w : GatewayWorld ε)

/-- How the surroundings answer a step, by its draw. -/
def drawn (d : δ) : Handler GatewayOp GatewayOp.Res (GatewayWorld ε) := gatewayHandler (world d)

/-- One call for each request, over one registry. -/
def calls : Pool ι GatewayOp GatewayOp.Res (Except Thrown CoreModelResponse) (GatewayWorld ε) where
  threads i := generate config (requests i)
  state := w

/-- Marks only take health away. -/
def Falling : GatewayOp → Prop
  | .markHealth _ healthy => healthy = false
  | _ => True

theorem generate_falling (request : CoreModelRequest) :
    Meets Falling (fun _ _ => True) (fun _ => True) (generate config request) := by
  have hfalling (o : GatewayOp) (h : Delivering (fun _ _ => True) o) : Falling o := by
    cases o with
    | markHealth id healthy => exact h
    | _ => trivial
  refine ⟨trivial, fun correlationId _ => ⟨trivial, fun _ _ => ⟨trivial, fun serving _ => ?_⟩⟩⟩
  exact (deliverAlong_delivering fun _ _ => trivial).weaken hfalling

theorem calls_falling :
    Pool.Meets (fun (_ : ι) => Falling) (calls config requests w) :=
  fun i => generate_falling config (requests i)

variable [DecidableEq ι]

variable {world} in
/-- The registry after a schedule is the first one with the marks of all calls. -/
theorem run_registry
    (halone : ∀ d c request registry e, ((world d).deliver c request registry e).2.1 = registry)
    {p : Pool ι GatewayOp GatewayOp.Res (Except Thrown CoreModelResponse) (GatewayWorld ε)}
    (hp : Pool.Meets (fun _ => Falling) p) (xs : List (ι × δ)) :
    (Pool.run (drawn world) xs p).state.registry =
      markAll (marks ((Pool.trace (drawn world) xs p).map Prod.snd)) p.state.registry := by
  induction xs generalizing p with
  | nil => rfl
  | cons x xs ih =>
    have hstep : (Pool.step (drawn world) p x).state.registry =
        markAll (marks (performed (drawn world x.2) (p.threads x.1, p.state)))
          p.state.registry := by
      have hx := hp x.1
      unfold Pool.step
      cases ht : p.threads x.1 with
      | ret a => rfl
      | call o k =>
        rw [ht] at hx
        cases o with
        | deliver container request => exact halone x.2 container request _ _
        | markHealth id healthy =>
          obtain rfl : healthy = false := hx.1
          rfl
        | _ => rfl
    have hsnd (ops : List ((o : GatewayOp) × GatewayOp.Res o)) :
        (ops.map (Prod.mk x.1)).map Prod.snd = ops := by
      rw [List.map_map]
      exact List.map_id ops
    rw [Pool.run_cons, ih (hp.step _ x), hstep, Pool.trace, List.map_append, hsnd]
    unfold marks markAll
    rw [List.filterMap_append, List.foldl_append]

theorem mem_marks_iff (id : String) (tr : List (ι × ((o : GatewayOp) × GatewayOp.Res o))) :
    id ∈ marks (tr.map Prod.snd) ↔ ∃ i, id ∈ marks (Pool.own i tr) := by
  constructor
  · intro h
    obtain ⟨x, hx, hid⟩ := List.mem_filterMap.mp h
    obtain ⟨y, hy, rfl⟩ := List.mem_map.mp hx
    exact ⟨y.1, List.mem_filterMap.mpr ⟨y.2, Pool.own_of_mem hy, hid⟩⟩
  · rintro ⟨i, h⟩
    obtain ⟨x, hx, hid⟩ := List.mem_filterMap.mp h
    exact List.mem_filterMap.mpr ⟨x, List.mem_map.mpr ⟨_, Pool.mem_of_own hx, rfl⟩, hid⟩

/-- A call reads its plan off the registry of a moment of the schedule. -/
theorem exists_plan {p : Pool ι GatewayOp GatewayOp.Res (Except Thrown CoreModelResponse)
      (GatewayWorld ε)} {i : ι} {xs : List (ι × δ)} {modelClass : WireModelClass}
    {serving : List RegisteredContainer}
    (h : (i, ⟨.serving modelClass, serving⟩) ∈ Pool.trace (drawn world) xs p) :
    ∃ pre, pre <+: xs ∧ Router.tiered serving =
      Router.plan (Pool.run (drawn world) pre p).state.registry modelClass := by
  obtain ⟨pre, d, hpre, hanswer⟩ := Pool.exists_moment (drawn world) h
  refine ⟨pre, (List.prefix_append _ _).trans hpre, ?_⟩
  exact congrArg Router.tiered hanswer

/-- Where a call among others has got to: it has no plan yet, or the plan is the one for its class
    at a moment of the schedule, and its deliveries go along it. -/
theorem call_cases (i : ι) (xs : List (ι × δ)) :
    let tr := Pool.own i (Pool.trace (drawn world) xs (calls config requests w))
    let q := (Pool.run (drawn world) xs (calls config requests w)).threads i
    (deliveries tr = [] ∧ marks tr = [] ∧ ∀ out, q ≠ ret out) ∨
      ∃ correlationId serving tr', ⟨.serving (requests i).modelClass, serving⟩ ∈ tr ∧
        deliveries tr = deliveries tr' ∧ marks tr = marks tr' ∧
        Path (deliverAlong config (requests i) correlationId (Router.tiered serving)) tr' q :=
  generate_path (Pool.path (drawn world) i xs (calls config requests w))

/-- Failover among other calls: whatever they do in between, a call that has ended has followed the
    plan for its class that some moment of the schedule gave. -/
theorem concurrent_failover (hretries : 1 ≤ config.retriesPerContainer) (i : ι)
    (schedule : List (ι × δ)) {out : Except Thrown CoreModelResponse}
    (hdone : (Pool.run (drawn world) schedule (calls config requests w)).threads i = ret out) :
    let ds := deliveries
      (Pool.own i (Pool.trace (drawn world) schedule (calls config requests w)))
    ∃ pre, pre <+: schedule ∧
      let registry := (Pool.run (drawn world) pre (calls config requests w)).state.registry
      let plan := Router.plan registry (requests i).modelClass
      Router.IsPlan registry (requests i).modelClass plan ∧
        Follows config.retriesPerContainer plan ds
          (if plan = [] then noRouteError (requests i).modelClass
            else exhaustedError (requests i).modelClass (lastKindOf none ds)) out := by
  rcases call_cases world config requests w i schedule with ⟨-, -, hnot⟩ |
    ⟨correlationId, serving, tr', hserving, hds, -, hpath⟩
  · exact absurd hdone (hnot out)
  · obtain ⟨pre, hpre, hplan⟩ := exists_plan world (Pool.mem_of_own hserving)
    rw [hdone] at hpath
    refine ⟨pre, hpre, Router.plan_isPlan _ _, ?_⟩
    rw [hds, ← hplan]
    exact deliverAlong_follows hretries hpath

/-- No call is under way: each has ended, or has not begun. -/
def Quiet (schedule : List (ι × δ)) : Prop :=
  ∀ i, (∃ out, (Pool.run (drawn world) schedule (calls config requests w)).threads i = ret out) ∨
    ∀ x ∈ schedule, x.1 ≠ i

/-- The health flags among other calls: when no call is under way, a container is healthy if it was
    and no call has dropped it, that is, has ended its deliveries to it with a refusal; nothing
    else of the registry has changed. -/
theorem concurrent_health (hretries : 1 ≤ config.retriesPerContainer)
    (halone : ∀ d c request registry e, ((world d).deliver c request registry e).2.1 = registry)
    (schedule : List (ι × δ)) (hquiet : Quiet world config requests w schedule) :
    let tr := Pool.trace (drawn world) schedule (calls config requests w)
    List.Forall₂ (fun c c' => c'.descriptor = c.descriptor ∧ c'.baseUrl = c.baseUrl ∧
        (c'.healthy = true ↔
          c.healthy = true ∧ ∀ i, dropped (deliveries (Pool.own i tr)) c = false))
      w.registry.containers
      (Pool.run (drawn world) schedule (calls config requests w)).state.registry.containers := by
  intro tr
  have hmarks (i : ι) (c : RegisteredContainer) : c.descriptor.id ∈ marks (Pool.own i tr) ↔
      dropped (deliveries (Pool.own i tr)) c = true := by
    rcases hquiet i with ⟨out, hdone⟩ | hnever
    · rcases call_cases world config requests w i schedule with ⟨-, -, hnot⟩ |
        ⟨correlationId, serving, tr', hserving, hds, hmarks, hpath⟩
      · exact absurd hdone (hnot out)
      · obtain ⟨pre, -, hplan⟩ := exists_plan world (Pool.mem_of_own hserving)
        rw [hdone] at hpath
        rw [hds, hmarks]
        exact deliverAlong_marks hretries (hplan ▸ (Router.plan_isPlan _ _).nodup) hpath c
    · rw [Pool.own_of_never (drawn world) hnever]
      exact iff_of_false List.not_mem_nil Bool.false_ne_true
  rw [run_registry halone (calls_falling config requests w) schedule, containers_markAll,
    List.forall₂_map_right_iff]
  refine List.forall₂_same.mpr fun c _ => ⟨markedBy_descriptor _ c, markedBy_baseUrl _ c, ?_⟩
  rw [markedBy_healthy, mem_marks_iff, not_exists]
  refine and_congr_right fun _ => forall_congr' fun i => ?_
  rw [hmarks i c, Bool.not_eq_true]

/-- A container that has been marked gets nothing of the calls that read their plans later: from a
    moment on at which it is unhealthy, no call that has no plan yet ever delivers to it. -/
theorem quarantine
    (halone : ∀ d c request registry e, ((world d).deliver c request registry e).2.1 = registry)
    (xs ys : List (ι × δ)) {c : RegisteredContainer}
    (hc : c ∈ (Pool.run (drawn world) xs (calls config requests w)).state.registry.containers)
    (hdown : c.healthy = false) (i : ι)
    (hplan : ∀ modelClass serving, ⟨.serving modelClass, serving⟩ ∉
      Pool.own i (Pool.trace (drawn world) xs (calls config requests w))) :
    ∀ d ∈ deliveries
        (Pool.own i (Pool.trace (drawn world) (xs ++ ys) (calls config requests w))),
      d.1.descriptor.id ≠ c.descriptor.id := by
  intro d hd hid
  rcases call_cases world config requests w i (xs ++ ys) with ⟨hnone, -, -⟩ |
    ⟨correlationId, serving, tr', hserving, hds, -, hpath⟩
  · rw [hnone] at hd
    exact List.not_mem_nil hd
  rw [Pool.trace_append, Pool.own_append, List.mem_append] at hserving
  have hafter := hserving.resolve_left (hplan _ _)
  obtain ⟨pre, -, hread⟩ := exists_plan world (Pool.mem_of_own hafter)
  have hregistry := run_registry halone
    ((calls_falling config requests w).run (drawn world) xs) pre
  -- the container is still there, and still down
  have hstays : c ∈ (Pool.run (drawn world) pre
      (Pool.run (drawn world) xs (calls config requests w))).state.registry.containers := by
    rw [hregistry, containers_markAll]
    exact List.mem_map.mpr ⟨c, hc, markedBy_of_unhealthy _ hdown⟩
  rw [hds] at hd
  have hmem := deliverAlong_mem hpath d hd
  rw [hread, (Router.plan_isPlan _ _).mem] at hmem
  obtain rfl : d.1 = c := List.inj_on_of_nodup_map (ContainerRegistry.nodup _) hmem.1 hstays hid
  rw [hdown] at hmem
  exact Bool.false_ne_true hmem.2.1

end Calls

/-! ## Two calls -/

/-- Primaries are overloaded, and backups answer. -/
def overloadedPrimary : GatewayEnv Unit where
  randomUUID _ := ("uuid", ())
  log _ _ := ()
  deliver container _ registry _ :=
    (match container.descriptor.tier with
    | .primary => .ok (.failure ⟨"1.0.0", "uuid", .overloaded, "", false⟩)
    | .backup => .ok (.success ⟨"1.0.0", "uuid", "{}", "m", .cloudReasoning, 1, 1, 0, 0⟩),
      registry, ())

def twoRetries : Config where
  retriesPerContainer := 2
  redact text := ⟨text, []⟩
  deadlineMs := none

/-- The same request twice. -/
def twoRequests (_ : Bool) : CoreModelRequest :=
  ⟨.cloudReasoning, "", "", none, none, none, none, none⟩

/-- One call draws its id, then the other runs from its start to its end. -/
def firstSteps : List (Bool × Unit) := (false, ()) :: List.replicate 8 (true, ())

/-- Then the first one goes on to its end. -/
def lastSteps : List (Bool × Unit) := List.replicate 4 (false, ())

theorem concurrent_failover_two :
    let p := calls twoRetries twoRequests ⟨(), twoContainers⟩
    let h := drawn fun _ => overloadedPrimary
    let ds := deliveries (Pool.own false (Pool.trace h (firstSteps ++ lastSteps) p))
    ∃ pre, pre <+: firstSteps ++ lastSteps ∧
      let registry := (Pool.run h pre p).state.registry
      let plan := Router.plan registry .cloudReasoning
      Router.IsPlan registry .cloudReasoning plan ∧
        Follows 2 plan ds
          (if plan = [] then noRouteError .cloudReasoning
            else exhaustedError .cloudReasoning (lastKindOf none ds))
          (.ok ⟨"{}", "m", .cloudReasoning, 1, 1, 0, 0⟩) :=
  concurrent_failover (fun _ => overloadedPrimary) twoRetries twoRequests ⟨(), twoContainers⟩
    (by decide) false (firstSteps ++ lastSteps) rfl

theorem concurrent_health_two :
    let p := calls twoRetries twoRequests ⟨(), twoContainers⟩
    let h := drawn fun _ => overloadedPrimary
    let tr := Pool.trace h (firstSteps ++ lastSteps) p
    List.Forall₂ (fun c c' => c'.descriptor = c.descriptor ∧ c'.baseUrl = c.baseUrl ∧
        (c'.healthy = true ↔
          c.healthy = true ∧ ∀ i, dropped (deliveries (Pool.own i tr)) c = false))
      twoContainers.containers
      (Pool.run h (firstSteps ++ lastSteps) p).state.registry.containers :=
  concurrent_health (fun _ => overloadedPrimary) twoRetries twoRequests ⟨(), twoContainers⟩
    (by decide) (fun _ _ _ _ _ => rfl) (firstSteps ++ lastSteps)
    fun i => .inl (by cases i <;> exact ⟨_, rfl⟩)

/-- The primary, after the second call has marked it. -/
def downPrimary : RegisteredContainer := { reasoningContainer "p" .primary with healthy := false }

theorem first_unplanned (modelClass : WireModelClass) (serving : List RegisteredContainer) :
    ⟨.serving modelClass, serving⟩ ∉ Pool.own false (Pool.trace (drawn fun _ => overloadedPrimary)
      firstSteps (calls twoRetries twoRequests ⟨(), twoContainers⟩)) := by
  have hown : Pool.own false (Pool.trace (drawn fun _ => overloadedPrimary) firstSteps
      (calls twoRetries twoRequests ⟨(), twoContainers⟩)) = [⟨.randomUUID, "uuid"⟩] := rfl
  rw [hown]
  intro h
  cases List.mem_singleton.mp h

theorem quarantine_two :
    "p" ∉ (deliveries (Pool.own false (Pool.trace (drawn fun _ => overloadedPrimary)
        (firstSteps ++ lastSteps) (calls twoRetries twoRequests ⟨(), twoContainers⟩)))).map
          (·.1.descriptor.id) := by
  rw [List.mem_map]
  rintro ⟨d, hd, hid⟩
  exact quarantine (fun _ => overloadedPrimary) twoRetries twoRequests ⟨(), twoContainers⟩
    (fun _ _ _ _ _ => rfl) firstSteps lastSteps (c := downPrimary) (.tail _ (.head _)) rfl false
    first_unplanned d hd hid

end Harp.Concierge
