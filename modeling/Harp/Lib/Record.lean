import Mathlib.Algebra.BigOperators.Group.Finset.Basic
import Mathlib.Algebra.Order.BigOperators.Group.Finset
import Mathlib.Algebra.Ring.Nat

/-
  Records: objects that a program fills key by key (`record[key] = value`).

  A record is the list of its own properties; that a JavaScript object lists integer keys first is
  left out. When the value of a key is fixed (`f`), a record filled from a list of keys holds
  each key once (`Reads.setAll`). So a sum over its values is a sum over the set of the keys
  (`sum_setAll`), and it is the sum along the list exactly if no key that weighs anything is
  repeated or is `__proto__` (`sum_keys_eq_iff`).
-/

namespace Js

variable {β : Type}

/-- `record[key] = value` on a plain object: an assignment to `__proto__` sets the prototype, or
    nothing, and makes no property. -/
def setProperty (record : List (String × β)) (key : String) (value : β) : List (String × β) :=
  if key = "__proto__" then record
  else if record.any (·.1 == key) then
    record.map fun p => if p.1 = key then (key, value) else p
  else record ++ [(key, value)]

/-- Sets each key that `f` has a value for, in order. -/
def setAll (f : String → Option β) : List String → List (String × β) → List (String × β)
  | [], record => record
  | key :: keys, record =>
    match f key with
    | none => setAll f keys record
    | some value => setAll f keys (setProperty record key value)

/-- What a key weighs by the value that `f` has for it. -/
def weight (f : String → Option β) (w : β → ℕ) (key : String) : ℕ := (f key).elim 0 w

/-- The record holds values of `f`, under distinct keys. -/
structure Reads (f : String → Option β) (record : List (String × β)) : Prop where
  nodup : (record.map (·.1)).Nodup
  value : ∀ p ∈ record, f p.1 = some p.2

variable {f : String → Option β} {record : List (String × β)}

theorem reads_nil (f : String → Option β) : Reads f [] := ⟨List.nodup_nil, by simp⟩

/-- Setting a key again, to its own value, changes nothing. -/
theorem Reads.setProperty_same (h : Reads f record) {key : String} {value : β}
    (hf : f key = some value) (hkey : key ∈ record.map (·.1)) :
    setProperty record key value = record := by
  have hany : record.any (·.1 == key) = true := by
    obtain ⟨p, hp, rfl⟩ := List.mem_map.mp hkey
    exact List.any_eq_true.mpr ⟨p, hp, beq_self_eq_true _⟩
  have hsame : record.map (fun p => if p.1 = key then (key, value) else p) = record := by
    conv_rhs => rw [← List.map_id record]
    refine List.map_congr_left fun p hp => ?_
    by_cases hp1 : p.1 = key
    · have hp2 : some p.2 = some value := by rw [← h.value p hp, hp1, hf]
      rw [if_pos hp1, ← hp1, ← Option.some.inj hp2]
      rfl
    · rw [if_neg hp1]
      rfl
  unfold setProperty
  split
  · rfl
  · exact hsame

theorem setProperty_new {key : String} (hproto : key ≠ "__proto__")
    (hkey : key ∉ record.map (·.1)) (value : β) :
    setProperty record key value = record ++ [(key, value)] := by
  have hany : ¬ record.any (·.1 == key) = true := by
    intro h
    obtain ⟨p, hp, heq⟩ := List.any_eq_true.mp h
    exact hkey (List.mem_map.mpr ⟨p, hp, eq_of_beq heq⟩)
  unfold setProperty
  rw [if_neg hproto, if_neg hany]

theorem Reads.setProperty (h : Reads f record) {key : String} {value : β}
    (hf : f key = some value) : Reads f (setProperty record key value) := by
  by_cases hproto : key = "__proto__"
  · rw [Js.setProperty, if_pos hproto]
    exact h
  by_cases hkey : key ∈ record.map (·.1)
  · rw [h.setProperty_same hf hkey]
    exact h
  · rw [setProperty_new hproto hkey]
    refine ⟨?_, ?_⟩
    · rw [List.map_append, List.map_singleton, ← List.concat_eq_append]
      exact h.nodup.concat hkey
    · intro p hp
      rcases List.mem_append.mp hp with hp | hp
      · exact h.value p hp
      · rw [List.mem_singleton.mp hp]
        exact hf

theorem Reads.mem_setProperty (h : Reads f record) {key : String} {value : β}
    (hf : f key = some value) (k : String) : k ∈ (Js.setProperty record key value).map (·.1) ↔
      k ∈ record.map (·.1) ∨ k = key ∧ k ≠ "__proto__" := by
  by_cases hproto : key = "__proto__"
  · rw [Js.setProperty, if_pos hproto]
    grind
  by_cases hkey : key ∈ record.map (·.1)
  · rw [h.setProperty_same hf hkey]
    grind
  · rw [setProperty_new hproto hkey, List.map_append, List.mem_append]
    grind

/-- A record is filled with each key that has a value, once. -/
theorem Reads.setAll (h : Reads f record) (keys : List String) :
    Reads f (setAll f keys record) ∧ ∀ k, k ∈ (Js.setAll f keys record).map (·.1) ↔
      k ∈ record.map (·.1) ∨ k ∈ keys ∧ k ≠ "__proto__" ∧ (f k).isSome = true := by
  induction keys generalizing record with
  | nil => exact ⟨h, by simp [Js.setAll]⟩
  | cons key keys ih =>
    cases hf : f key with
    | none =>
      obtain ⟨hreads, hmem⟩ := ih h
      simp only [Js.setAll, hf]
      refine ⟨hreads, fun k => (hmem k).trans ?_⟩
      grind
    | some value =>
      obtain ⟨hreads, hmem⟩ := ih (h.setProperty hf)
      simp only [Js.setAll, hf]
      refine ⟨hreads, fun k => (hmem k).trans ?_⟩
      rw [h.mem_setProperty hf]
      grind

/-! ## Sums over the values -/

variable (f) (w : β → ℕ)

theorem Reads.sum_eq (h : Reads f record) : (record.map fun p => w p.2).sum =
    ∑ k ∈ (record.map (·.1)).toFinset, weight f w k := by
  rw [List.sum_toFinset _ h.nodup, List.map_map]
  congr 1
  refine List.map_congr_left fun p hp => ?_
  rw [Function.comp_apply, weight, h.value p hp]
  rfl

/-- The sum over a filled record is one over the set of the keys. -/
theorem sum_setAll (keys : List String) : ((setAll f keys []).map fun p => w p.2).sum =
    ∑ k ∈ keys.toFinset, if k = "__proto__" then 0 else weight f w k := by
  obtain ⟨hreads, hall⟩ := (reads_nil f).setAll keys
  have hmem (k : String) : k ∈ ((setAll f keys []).map (·.1)).toFinset ↔
      k ∈ keys ∧ k ≠ "__proto__" ∧ (f k).isSome = true := by
    rw [List.mem_toFinset, hall]
    simp
  have hsub : ((setAll f keys []).map (·.1)).toFinset ⊆ keys.toFinset := fun k hk =>
    List.mem_toFinset.mpr ((hmem k).mp hk).1
  rw [hreads.sum_eq, ← Finset.sum_subset hsub]
  · exact Finset.sum_congr rfl fun k hk => (if_neg ((hmem k).mp hk).2.1).symm
  · intro k hk hout
    split
    · rfl
    · next hproto =>
      -- no property of that name, so no value of that name
      have hnone : f k = none := by
        by_contra hsome
        exact hout ((hmem k).mpr ⟨List.mem_toFinset.mp hk, hproto,
          Option.isSome_iff_ne_none.mpr hsome⟩)
      rw [weight, hnone]
      rfl

/-- The sum along the keys is the sum over the record exactly if every key that weighs anything
    stands once and is not `__proto__`. -/
theorem sum_keys_eq_iff (keys : List String) :
    (keys.map (weight f w)).sum = ((setAll f keys []).map fun p => w p.2).sum ↔
      ∀ k ∈ keys, weight f w k ≠ 0 → keys.count k = 1 ∧ k ≠ "__proto__" := by
  rw [sum_setAll, Finset.sum_list_map_count, eq_comm, Finset.sum_eq_sum_iff_of_le]
  · refine forall_congr' fun k => ?_
    rw [List.mem_toFinset]
    refine imp_congr_right fun hk => ?_
    have hpos : keys.count k ≠ 0 := (List.count_pos_iff.mpr hk).ne'
    rw [Nat.nsmul_eq_mul]
    by_cases hweight : weight f w k = 0
    · simp [hweight]
    by_cases hproto : k = "__proto__"
    · rw [if_pos hproto]
      exact iff_of_false (Nat.mul_ne_zero hpos hweight).symm fun h => (h hweight).2 hproto
    · rw [if_neg hproto, eq_comm, Nat.mul_eq_right hweight]
      exact ⟨fun h _ => ⟨h, hproto⟩, fun h => (h hweight).1⟩
  · intro k hk
    have hpos : 0 < keys.count k := List.count_pos_iff.mpr (List.mem_toFinset.mp hk)
    split
    · exact Nat.zero_le _
    · rw [Nat.nsmul_eq_mul]
      exact Nat.le_mul_of_pos_left _ hpos

end Js
