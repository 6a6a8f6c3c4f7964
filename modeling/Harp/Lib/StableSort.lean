import Mathlib.Data.List.Sort

/-
  Stable sorting by a key.

  `StablySorted` says what a stable sort returns: the keys do not decrease, and the elements of
  each key stand in their old order. Sorting by insertion is stable, since an element goes before
  the first one that is not smaller.
-/

section

variable {α β : Type} [LinearOrder β]

/-- `ys` holds the elements of `xs` in the order of their keys, those of one key in the order of
    `xs`. -/
structure StablySorted (key : α → β) (xs ys : List α) : Prop where
  sorted : ys.Pairwise fun a b => key a ≤ key b
  stable : ∀ k, (ys.filter fun a => key a = k) = xs.filter fun a => key a = k

variable {key : α → β} {xs ys : List α}

theorem StablySorted.perm (h : StablySorted key xs ys) : ys.Perm xs := by
  classical
  rw [List.perm_iff_count]
  intro a
  have hcount (zs : List α) : zs.count a = (zs.filter fun b => key b = key a).count a :=
    (List.count_filter (p := fun b => key b = key a) (decide_eq_true rfl)).symm
  rw [hcount ys, hcount xs, h.stable]

/-- Elements of one key stand in their old order. -/
theorem StablySorted.ties (h : StablySorted key xs ys) :
    ys.Pairwise fun a b => key a = key b → [a, b].Sublist xs := by
  rw [List.pairwise_iff_forall_sublist]
  intro a b hab hkey
  have hboth : [a, b].filter (fun c => key c = key a) = [a, b] := by simp [hkey]
  have hys : [a, b].Sublist (ys.filter fun c => key c = key a) := hboth ▸ hab.filter _
  rw [h.stable] at hys
  exact hys.trans List.filter_sublist

theorem filter_orderedInsert (a : α) (ys : List α) (k : β)
    (hs : ys.Pairwise fun a b => key a ≤ key b) :
    ((ys.orderedInsert (fun a b => key a ≤ key b) a).filter fun b => key b = k) =
      (a :: ys).filter fun b => key b = k := by
  induction ys with
  | nil => rfl
  | cons b ys ih =>
    rw [List.orderedInsert_cons]
    split
    · rfl
    · next hab =>
      have hne : ¬ (key a = k ∧ key b = k) := by
        rintro ⟨rfl, hb⟩
        exact hab hb.ge
      rw [List.filter_cons, ih (List.pairwise_cons.mp hs).2]
      by_cases ha : key a = k
      · have hb : key b ≠ k := fun hb => hne ⟨ha, hb⟩
        simp [ha, hb]
      · simp [List.filter_cons, ha]

theorem stablySorted_insertionSort (key : α → β) (xs : List α) :
    StablySorted key xs (xs.insertionSort fun a b => key a ≤ key b) := by
  have : IsTrans α fun a b => key a ≤ key b := ⟨fun _ _ _ => le_trans⟩
  have : Std.Total fun a b => key a ≤ key b := ⟨fun a b => le_total (key a) (key b)⟩
  refine ⟨List.pairwise_insertionSort _ xs, ?_⟩
  intro k
  induction xs with
  | nil => rfl
  | cons a xs ih =>
    rw [List.insertionSort_cons, filter_orderedInsert a _ k (List.pairwise_insertionSort _ xs),
      List.filter_cons, List.filter_cons, ih]

/-! ## Two lists sorted alike -/

section

variable {γ : Type} {R : α → γ → Prop} {key : α → β} {key' : γ → β}

theorem forall₂_orderedInsert (hkey : ∀ a c, R a c → key a = key' c) {a : α} {c : γ}
    (hac : R a c) {xs : List α} {ys : List γ} (h : List.Forall₂ R xs ys) :
    List.Forall₂ R (xs.orderedInsert (fun a b => key a ≤ key b) a)
      (ys.orderedInsert (fun a b => key' a ≤ key' b) c) := by
  induction h with
  | nil => exact .cons hac .nil
  | cons hxy h ih =>
    rw [List.orderedInsert_cons, List.orderedInsert_cons, hkey a c hac, hkey _ _ hxy]
    split
    · exact .cons hac (.cons hxy h)
    · exact .cons hxy ih

/-- Lists whose elements are related one by one, with the same keys, are sorted alike. -/
theorem forall₂_insertionSort (hkey : ∀ a c, R a c → key a = key' c) {xs : List α}
    {ys : List γ} (h : List.Forall₂ R xs ys) :
    List.Forall₂ R (xs.insertionSort fun a b => key a ≤ key b)
      (ys.insertionSort fun a b => key' a ≤ key' b) := by
  induction h with
  | nil => exact .nil
  | cons hxy _ ih => exact forall₂_orderedInsert hkey hxy ih

end

end
