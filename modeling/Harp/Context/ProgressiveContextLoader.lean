import Harp.Core.Types
import Harp.Lib.Record
import Harp.Lib.Text

/-
  Progressive context loading (`src/context/ProgressiveContextLoader.ts`).

  A loader callback is a function: it returns a fixed value for each id. Spans and histograms of
  `obs` are left out.

  The bodies and references are records, filled id by id, and the costs are summed along the ids.
  So a cost is that of what was loaded exactly if no id of a text that is not empty is repeated
  or is `__proto__` (`costs_iff`).
-/

namespace Harp

structure SkillMetadata where
  id : String
  name : String
  description : String
  tags : Option (List String)
  deriving DecidableEq, Repr

structure SkillBody where
  instructions : String
  referenceIds : Option (List String)
  deriving DecidableEq, Repr

abbrev BodyLoader := String → SkillBody

abbrev ReferenceLoader := String → String

@[ext]
structure TokenCost where
  level1 : ℕ
  level2 : ℕ
  level3 : ℕ
  deriving DecidableEq, Repr

structure LoadedContext where
  catalog : List SkillMetadata
  bodies : List (String × SkillBody)
  references : List (String × String)
  tokenCost : TokenCost
  deriving DecidableEq, Repr

/-- `Math.ceil(text.length / 4)`. -/
def estimateTokens (text : String) : ℕ := (Js.length text.toList + 3) / 4

structure ProgressiveContextLoader where
  metadata : List SkillMetadata
  bodyLoaders : List (String × BodyLoader)
  referenceLoader : Option ReferenceLoader

namespace ProgressiveContextLoader

def create : ProgressiveContextLoader where
  metadata := []
  bodyLoaders := []
  referenceLoader := none

def register (loader : ProgressiveContextLoader) (metadata : SkillMetadata)
    (loadBody : BodyLoader) : Except Thrown ProgressiveContextLoader :=
  if loader.metadata.any (·.id == metadata.id) then
    .error (.error ("Skill already registered: " ++ metadata.id))
  else .ok { loader with
    metadata := loader.metadata ++ [metadata]
    bodyLoaders := loader.bodyLoaders ++ [(metadata.id, loadBody)] }

def setReferenceLoader (loader : ProgressiveContextLoader) (referenceLoader : ReferenceLoader) :
    ProgressiveContextLoader :=
  { loader with referenceLoader := some referenceLoader }

def catalog (loader : ProgressiveContextLoader) : List SkillMetadata := loader.metadata

/-- The body that `bodyLoaders.get(id)` loads, where there is a loader. -/
def body (loader : ProgressiveContextLoader) (id : String) : Option SkillBody :=
  (loader.bodyLoaders.find? (·.1 == id)).map (·.2 id)

/-- The reference that the reference loader loads, where there is one. -/
def reference (loader : ProgressiveContextLoader) (id : String) : Option String :=
  loader.referenceLoader.map (· id)

/-- A loop of `load`: what has a value is put into the record, and the estimate of its text is
    added. -/
def loadAll {β : Type} (value : String → Option β) (text : β → String) (ids : List String) :
    List (String × β) × ℕ :=
  ids.foldl (fun acc id =>
    match value id with
    | none => acc
    | some v => (Js.setProperty acc.1 id v, acc.2 + estimateTokens (text v))) ([], 0)

def level1 (catalog : List SkillMetadata) : ℕ :=
  catalog.foldl (fun sum m => sum + estimateTokens (m.name ++ ": " ++ m.description)) 0

def load (loader : ProgressiveContextLoader) (selectedSkillIds : List String)
    (referenceIds : Option (List String)) : LoadedContext :=
  let bodies := loadAll loader.body (·.instructions) selectedSkillIds
  let references := loadAll loader.reference id (referenceIds.getD [])
  { catalog := loader.catalog
    bodies := bodies.1
    references := references.1
    tokenCost := {
      level1 := level1 loader.catalog
      level2 := bodies.2
      level3 := references.2 } }

/-! ## Histories -/

/-- A call that changes a loader. -/
inductive LoaderOp where
  | register (metadata : SkillMetadata) (loadBody : BodyLoader)
  | setReferenceLoader (referenceLoader : ReferenceLoader)

/-- A registration that throws changes nothing. -/
def apply (loader : ProgressiveContextLoader) : LoaderOp → ProgressiveContextLoader
  | .register metadata loadBody => (loader.register metadata loadBody).toOption.getD loader
  | .setReferenceLoader referenceLoader => loader.setReferenceLoader referenceLoader

/-- The loader after a history. -/
def after (ops : List LoaderOp) : ProgressiveContextLoader := ops.foldl apply create

/-! ## The loops of `load` -/

section

variable {β : Type} (value : String → Option β) (text : β → String)

/-- A loop fills the record, and sums the estimates along the ids. -/
theorem loadAll_eq (ids : List String) : loadAll value text ids =
    (Js.setAll value ids [],
      (ids.map (Js.weight value fun v => estimateTokens (text v))).sum) := by
  have hfold (record : List (String × β)) (cost : ℕ) : ids.foldl (fun acc id =>
      match value id with
      | none => acc
      | some v => (Js.setProperty acc.1 id v, acc.2 + estimateTokens (text v))) (record, cost) =
        (Js.setAll value ids record,
          cost + (ids.map (Js.weight value fun v => estimateTokens (text v))).sum) := by
    induction ids generalizing record cost with
    | nil => rfl
    | cons id ids ih =>
      rw [List.foldl_cons, List.map_cons, List.sum_cons]
      cases hv : value id with
      | none =>
        rw [ih]
        simp [Js.setAll, Js.weight, hv]
      | some v =>
        rw [ih]
        simp [Js.setAll, Js.weight, hv, Nat.add_assoc]
  rw [loadAll, hfold, Nat.zero_add]

theorem estimateTokens_eq_zero {s : String} : estimateTokens s = 0 ↔ s = "" := by
  have hunit (c : Char) : 0 < Js.codeUnits c := by
    unfold Js.codeUnits
    split <;> omega
  constructor
  · intro h
    refine String.toList_eq_nil_iff.mp ?_
    cases hs : s.toList with
    | nil => rfl
    | cons c cs =>
      have hc := hunit c
      rw [estimateTokens, hs, Js.length, List.map_cons, List.sum_cons] at h
      omega
  · rintro rfl
    rfl

/-- No id that loads a text is repeated, and none is the name of the prototype. -/
def Once (ids : List String) : Prop :=
  ∀ id ∈ ids, ∀ v, value id = some v → text v ≠ "" → ids.count id = 1 ∧ id ≠ "__proto__"

theorem loadAll_cost_iff (ids : List String) : (loadAll value text ids).2 =
    ((loadAll value text ids).1.map fun p => estimateTokens (text p.2)).sum ↔
      Once value text ids := by
  rw [loadAll_eq, Js.sum_keys_eq_iff]
  refine forall_congr' fun id => imp_congr_right fun _ => ?_
  cases hv : value id with
  | none => simp [Js.weight, hv]
  | some v => simp [Js.weight, hv, estimateTokens_eq_zero]

/-- What a record weighs depends on the set of the ids alone. -/
theorem loadAll_record_congr {ids ids' : List String} (h : ∀ id, id ∈ ids ↔ id ∈ ids') :
    ((loadAll value text ids).1.map fun p => estimateTokens (text p.2)).sum =
      ((loadAll value text ids').1.map fun p => estimateTokens (text p.2)).sum := by
  have hset : ids.toFinset = ids'.toFinset := by
    ext id
    rw [List.mem_toFinset, List.mem_toFinset, h]
  rw [loadAll_eq, loadAll_eq, Js.sum_setAll value (fun v => estimateTokens (text v)),
    Js.sum_setAll value (fun v => estimateTokens (text v)), hset]

theorem loadAll_cost_perm {ids ids' : List String} (h : ids.Perm ids') :
    (loadAll value text ids).2 = (loadAll value text ids').2 := by
  rw [loadAll_eq, loadAll_eq]
  exact (h.map _).sum_eq

end

/-! ## What the costs are of -/

/-- The costs are those of what the context holds. -/
structure Accurate (context : LoadedContext) : Prop where
  level1 : context.tokenCost.level1 =
    (context.catalog.map fun m => estimateTokens (m.name ++ ": " ++ m.description)).sum
  level2 : context.tokenCost.level2 =
    (context.bodies.map fun p => estimateTokens p.2.instructions).sum
  level3 : context.tokenCost.level3 = (context.references.map fun p => estimateTokens p.2).sum

theorem level1_eq (catalog : List SkillMetadata) : level1 catalog =
    (catalog.map fun m => estimateTokens (m.name ++ ": " ++ m.description)).sum := by
  rw [level1, List.sum_eq_foldl, List.foldl_map]

variable (loader : ProgressiveContextLoader) (selected : List String)
  (references : Option (List String))

theorem load_accurate_iff : Accurate (loader.load selected references) ↔
    Once loader.body (·.instructions) selected ∧
      Once loader.reference id (references.getD []) := by
  rw [← loadAll_cost_iff, ← loadAll_cost_iff]
  constructor
  · intro h
    exact ⟨h.level2, h.level3⟩
  · rintro ⟨h2, h3⟩
    exact ⟨level1_eq _, h2, h3⟩

/-- The costs are accurate exactly if no id that loads a text is repeated or names the prototype;
    then they do not change when ids are permuted or repeated without harm. No permutation ever
    changes them. -/
theorem costs_iff (ops : List LoaderOp) (selected : List String)
    (references : Option (List String)) :
    let loader := after ops
    (Accurate (loader.load selected references) ↔
      Once loader.body (·.instructions) selected ∧
        Once loader.reference id (references.getD [])) ∧
    ∀ selected' references',
      (Accurate (loader.load selected references) →
        Accurate (loader.load selected' references') → (∀ id, id ∈ selected ↔ id ∈ selected') →
        (∀ id, id ∈ references.getD [] ↔ id ∈ references'.getD []) →
        (loader.load selected references).tokenCost =
          (loader.load selected' references').tokenCost) ∧
      (selected.Perm selected' → (references.getD []).Perm (references'.getD []) →
        (loader.load selected references).tokenCost =
          (loader.load selected' references').tokenCost) := by
  intro loader
  refine ⟨load_accurate_iff loader selected references, fun selected' references' => ⟨?_, ?_⟩⟩
  · intro h h' hselected hreferences
    have h2 := h.level2.trans ((loadAll_record_congr loader.body (·.instructions) hselected).trans
      h'.level2.symm)
    have h3 := h.level3.trans ((loadAll_record_congr loader.reference id hreferences).trans
      h'.level3.symm)
    exact TokenCost.ext rfl h2 h3
  · intro hselected hreferences
    exact TokenCost.ext rfl (loadAll_cost_perm loader.body (·.instructions) hselected)
      (loadAll_cost_perm loader.reference id hreferences)

/-- One skill. -/
def oneSkill : ProgressiveContextLoader :=
  after [.register ⟨"ts", "TypeScript", "TS review skill", none⟩ fun _ => ⟨"review", none⟩]

/-- A skill that is selected twice is held once and paid for twice. -/
theorem selected_twice_paid_twice :
    (oneSkill.load ["ts", "ts"] none).bodies = [("ts", ⟨"review", none⟩)] ∧
      (oneSkill.load ["ts"] none).tokenCost.level2 = 2 ∧
      (oneSkill.load ["ts", "ts"] none).tokenCost.level2 = 4 ∧
      ¬ Accurate (oneSkill.load ["ts", "ts"] none) := by
  refine ⟨by decide, by decide, by decide, fun h => ?_⟩
  exact absurd h.level2 (by decide)

end ProgressiveContextLoader

end Harp
