import Harp.Gateway.Wire
import Mathlib.Data.List.Nodup

/-
  The container registry and the router (`src/gateway/routing/Router.ts`).

  A registry carries the fact that its ids are distinct: `register` refuses an id that is
  taken, and `markHealth` changes no id.
-/

namespace Harp

structure RegisteredContainer where
  descriptor : ContainerDescriptor
  baseUrl : String
  healthy : Bool
  deriving DecidableEq

structure ContainerRegistry where
  containers : List RegisteredContainer
  nodup : (containers.map (·.descriptor.id)).Nodup

namespace ContainerRegistry

def empty : ContainerRegistry := ⟨[], List.nodup_nil⟩

/-- Throws if the id is taken. -/
def register (registry : ContainerRegistry) (entry : RegisteredContainer) :
    Except Thrown ContainerRegistry :=
  if h : registry.containers.any (·.descriptor.id == entry.descriptor.id) then
    .error (.error ("Container already registered: " ++ entry.descriptor.id))
  else
    .ok {
      containers := registry.containers ++ [entry]
      nodup := by
        rw [List.map_append, List.map_singleton]
        refine List.nodup_append.mpr ⟨registry.nodup, List.nodup_singleton _, ?_⟩
        simpa using h }

def all (registry : ContainerRegistry) : List RegisteredContainer := registry.containers

def byId (registry : ContainerRegistry) (id : String) : Option RegisteredContainer :=
  registry.containers.find? (·.descriptor.id == id)

/-- Sets the flag of the container with that id, if there is one. -/
def markHealth (registry : ContainerRegistry) (id : String) (healthy : Bool) :
    ContainerRegistry where
  containers := registry.containers.map fun c =>
    if c.descriptor.id = id then { c with healthy := healthy } else c
  nodup := by
    have hid : (fun c : RegisteredContainer => c.descriptor.id) ∘ (fun c =>
        if c.descriptor.id = id then { c with healthy := healthy } else c) =
        fun c => c.descriptor.id := by
      funext c
      by_cases h : c.descriptor.id = id <;> simp [h]
    rw [List.map_map, hid]
    exact registry.nodup

/-- Healthy containers that serve a given model class. -/
def serving (registry : ContainerRegistry) (modelClass : WireModelClass) :
    List RegisteredContainer :=
  registry.containers.filter fun c => c.healthy && c.descriptor.servesClasses.contains modelClass

end ContainerRegistry

namespace Router

/-- The order of attempts for the containers that serve a class: primaries, then backups. -/
def tiered (serving : List RegisteredContainer) : List RegisteredContainer :=
  serving.filter (·.descriptor.tier == .primary) ++ serving.filter (·.descriptor.tier == .backup)

def plan (registry : ContainerRegistry) (modelClass : WireModelClass) :
    List RegisteredContainer :=
  tiered (registry.serving modelClass)

/-- What a plan for a class is: all that is healthy and serves it, once each, primaries before
    backups, each tier in the order of registration. -/
structure IsPlan (registry : ContainerRegistry) (modelClass : WireModelClass)
    (attempts : List RegisteredContainer) : Prop where
  mem : ∀ c, c ∈ attempts ↔
    c ∈ registry.containers ∧ c.healthy = true ∧ modelClass ∈ c.descriptor.servesClasses
  nodup : (attempts.map (·.descriptor.id)).Nodup
  tiers : ∃ primaries backups, attempts = primaries ++ backups ∧
    (∀ c ∈ primaries, c.descriptor.tier = .primary) ∧ primaries.Sublist registry.containers ∧
    (∀ c ∈ backups, c.descriptor.tier = .backup) ∧ backups.Sublist registry.containers

theorem mem_tiered (cs : List RegisteredContainer) (c : RegisteredContainer) :
    c ∈ tiered cs ↔ c ∈ cs := by
  cases h : c.descriptor.tier <;> simp [tiered, h]

theorem plan_isPlan (registry : ContainerRegistry) (modelClass : WireModelClass) :
    IsPlan registry modelClass (plan registry modelClass) where
  mem c := by simp [plan, mem_tiered, ContainerRegistry.serving]
  nodup := by
    have hs : ((registry.serving modelClass).map (·.descriptor.id)).Nodup :=
      registry.nodup.sublist (List.filter_sublist.map _)
    unfold plan tiered
    rw [List.map_append]
    refine List.nodup_append.mpr ⟨hs.sublist (List.filter_sublist.map _),
      hs.sublist (List.filter_sublist.map _), ?_⟩
    -- one id cannot stand in both tiers, since ids are distinct
    intro x hx y hy hxy
    obtain ⟨a, ha, rfl⟩ := List.mem_map.mp hx
    obtain ⟨b, hb, rfl⟩ := List.mem_map.mp hy
    obtain ⟨ha, hta⟩ := List.mem_filter.mp ha
    obtain ⟨hb, htb⟩ := List.mem_filter.mp hb
    obtain rfl := List.inj_on_of_nodup_map hs ha hb hxy
    simp only [beq_iff_eq] at hta htb
    exact absurd (hta.symm.trans htb) nofun
  tiers := ⟨_, _, rfl, by simp, List.filter_sublist.trans List.filter_sublist, by simp,
    List.filter_sublist.trans List.filter_sublist⟩

end Router

end Harp
