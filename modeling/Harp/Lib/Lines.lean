import Harp.Lib.Text
import Mathlib.Data.List.DropRight

/-
  Texts of several lines: how `split` and `join` fit together, and what `trim` leaves.
-/

namespace Js

theorem split_eq_splitOn (sep : Char) (cs : List Char) : split sep cs = cs.splitOn sep := by
  induction cs with
  | nil => rfl
  | cons c cs ih =>
    rw [List.splitOn_cons_eq_if_modifyHead, split, ih]
    by_cases hc : c = sep
    · simp [hc]
    · simp only [hc, if_false, beq_iff_eq]
      cases hs : cs.splitOn sep with
      | nil => exact absurd hs (List.splitOn_ne_nil sep cs)
      | cons l ls => rfl

theorem not_mem_of_mem_split {sep : Char} {cs l : List Char} (h : l ∈ split sep cs) :
    sep ∉ l := by
  induction cs generalizing l with
  | nil => simp_all [split]
  | cons c cs ih =>
    unfold split at h
    by_cases hc : c = sep
    · rw [if_pos hc] at h
      rcases List.mem_cons.mp h with rfl | h
      · exact List.not_mem_nil
      · exact ih h
    · rw [if_neg hc] at h
      cases hs : split sep cs with
      | nil =>
        rw [hs] at h
        obtain rfl := List.mem_singleton.mp h
        simpa using Ne.symm hc
      | cons l' ls =>
        rw [hs] at h ih
        rcases List.mem_cons.mp h with rfl | h
        · have hl' := ih List.mem_cons_self
          simpa [hl'] using Ne.symm hc
        · exact ih (List.mem_cons_of_mem _ h)

/-- The lines of a joined text are the lines of its parts. -/
theorem split_join {xs : List String} (h : xs ≠ []) :
    split '\n' (join "\n" xs).toList = xs.flatMap fun x => split '\n' x.toList := by
  induction xs with
  | nil => exact absurd rfl h
  | cons x xs ih =>
    cases xs with
    | nil => simp [join]
    | cons y ys =>
      have hjoin : (join "\n" (x :: y :: ys)).toList =
          x.toList ++ '\n' :: (join "\n" (y :: ys)).toList := by
        simp [join]
      rw [hjoin, split_eq_splitOn, List.splitOn_append_cons_self, ← split_eq_splitOn,
        ← split_eq_splitOn, ih (List.cons_ne_nil y ys)]
      rfl

/-! ## Trimmed text -/

/-- Neither end is white space. -/
def Trimmed (cs : List Char) : Prop :=
  ∀ h : cs ≠ [], isSpace (cs.head h) = false ∧ isSpace (cs.getLast h) = false

instance (cs : List Char) : Decidable (Trimmed cs) :=
  inferInstanceAs (Decidable (∀ h : cs ≠ [],
    isSpace (cs.head h) = false ∧ isSpace (cs.getLast h) = false))

theorem trimChars_eq (cs : List Char) : trimChars cs = (trimStart cs).rdropWhile isSpace := rfl

theorem trimStart_eq_self {cs : List Char} (h : ∀ hne : cs ≠ [], isSpace (cs.head hne) = false) :
    trimStart cs = cs := by
  cases cs with
  | nil => rfl
  | cons c cs =>
    have hc : isSpace c = false := h (List.cons_ne_nil c cs)
    unfold trimStart
    rw [List.dropWhile_cons_of_neg (by simp [hc])]

theorem trimChars_eq_self {cs : List Char} (h : Trimmed cs) : trimChars cs = cs := by
  rw [trimChars_eq, trimStart_eq_self fun hne => (h hne).1, List.rdropWhile_eq_self_iff]
  intro hne
  simp [(h hne).2]

/-- What `trim` leaves is trimmed. -/
theorem trimmed_trimChars (cs : List Char) : Trimmed (trimChars cs) := by
  intro h
  constructor
  · have hstart : trimChars cs <+: trimStart cs := List.rdropWhile_prefix isSpace _
    have hne : trimStart cs ≠ [] := fun hnil => h (List.prefix_nil.mp (hnil ▸ hstart))
    rw [hstart.head h]
    exact List.head_dropWhile_not isSpace hne
  · exact eq_false_of_ne_true (List.rdropWhile_last_not isSpace (trimStart cs) h)

theorem mem_of_mem_trimChars {cs : List Char} {c : Char} (h : c ∈ trimChars cs) : c ∈ cs := by
  rw [trimChars_eq] at h
  have hstart : c ∈ trimStart cs := (List.rdropWhile_prefix isSpace _).subset h
  exact (List.dropWhile_suffix _).subset hstart

/-- A text that starts with white space or not, and does not end with it, is trimmed by
    `trimStart` alone, and not to nothing. -/
theorem trimmed_trimStart {cs : List Char} (hne : cs ≠ [])
    (hlast : isSpace (cs.getLast hne) = false) :
    trimStart cs ≠ [] ∧ Trimmed (trimStart cs) := by
  have hnonempty : trimStart cs ≠ [] := by
    intro hnil
    have hall := List.dropWhile_eq_nil_iff.mp hnil
    rw [hall _ (List.getLast_mem hne)] at hlast
    cases hlast
  refine ⟨hnonempty, fun h => ⟨?_, ?_⟩⟩
  · exact List.head_dropWhile_not isSpace h
  · have hsuffix : trimStart cs <:+ cs := List.dropWhile_suffix _
    rw [hsuffix.getLast h]
    exact hlast

end Js
