import Harp.Lib.Masking

/-
  How often a placeholder occurs in a text, and what a replacement does to that number.

  The placeholders of a bracketed family start with one symbol, end with another and have neither
  in between; so none of them begins inside another. If a pattern passes over them, replacing its
  matches by one of them adds one occurrence of that placeholder for each match and leaves the
  number of every other as it was (`occurrences_replaceAll`).
-/

variable {α : Type} [DecidableEq α]

/-- At how many places of the text the word starts. -/
def occurrences (w t : List α) : ℕ := t.tails.countP fun s => decide (w <+: s)

theorem occurrences_cons (w : List α) (c : α) (t : List α) :
    occurrences w (c :: t) = occurrences w t + if w <+: c :: t then 1 else 0 := by
  simp [occurrences, List.countP_cons]

/-- A word does not start where its first symbol is not. -/
theorem occurrences_append {o : α} {s : List α} (hs : o ∉ s) (w t : List α) :
    occurrences (o :: w) (s ++ t) = occurrences (o :: w) t := by
  induction s with
  | nil => rfl
  | cons d s ih =>
    have hnot : ¬ (o :: w <+: d :: (s ++ t)) := fun hp =>
      List.ne_of_not_mem_cons hs (List.cons_prefix_cons.mp hp).1
    rw [List.cons_append, occurrences_cons, ih (List.not_mem_of_not_mem_cons hs), if_neg hnot,
      Nat.add_zero]

omit [DecidableEq α] in
/-- Words that end at the first `c` are no proper prefixes of each other. -/
theorem eq_of_prefix_delimited {c : α} {v w r : List α} (hv : c ∉ v) (hw : c ∉ w)
    (h : v ++ [c] <+: w ++ c :: r) : v = w := by
  induction v generalizing w with
  | nil =>
    cases w with
    | nil => rfl
    | cons d w => exact absurd (List.cons_prefix_cons.mp h).1 (List.ne_of_not_mem_cons hw)
  | cons d v ih =>
    cases w with
    | nil => exact absurd (List.cons_prefix_cons.mp h).1.symm (List.ne_of_not_mem_cons hv)
    | cons e w =>
      obtain ⟨rfl, hrest⟩ := List.cons_prefix_cons.mp h
      rw [ih (List.not_mem_of_not_mem_cons hv) (List.not_mem_of_not_mem_cons hw) hrest]

/-! ## Bracketed families -/

/-- Every placeholder starts with `o` and ends with `c`, and neither is in between. -/
structure Bracketed {κ : Type} (ph : κ → Placeholder α) (o c : α) : Prop where
  first : ∀ k, (ph k).first = o
  last : ∀ k, (ph k).last = c
  opens_once : ∀ k, o ∉ (ph k).inner
  closes_once : ∀ k, c ∉ (ph k).inner
  ne : o ≠ c

namespace Bracketed

variable {κ : Type} {ph : κ → Placeholder α} {o c : α}

omit [DecidableEq α] in
theorem chars_eq (hb : Bracketed ph o c) (k : κ) :
    (ph k).chars = o :: ((ph k).inner ++ [c]) := by
  rw [Placeholder.chars, hb.first, hb.last, List.cons_append]

omit [DecidableEq α] in
theorem not_mem_rest (hb : Bracketed ph o c) (k : κ) : o ∉ (ph k).inner ++ [c] := by
  simp [hb.opens_once, hb.ne]

omit [DecidableEq α] in
theorem prefix_iff (hb : Bracketed ph o c) (j k : κ) (t : List α) :
    (ph j).chars <+: (ph k).chars ++ t ↔ (ph j).chars = (ph k).chars := by
  constructor
  · rw [hb.chars_eq, hb.chars_eq, List.cons_append, List.append_assoc, List.cons_prefix_cons]
    rintro ⟨-, hp⟩
    rw [eq_of_prefix_delimited (hb.closes_once j) (hb.closes_once k) hp]
  · exact fun h => h ▸ List.prefix_append _ _

theorem occurrences_placeholder (hb : Bracketed ph o c) (j k : κ) (t : List α) :
    occurrences (ph j).chars ((ph k).chars ++ t) =
      occurrences (ph j).chars t + if (ph j).chars = (ph k).chars then 1 else 0 := by
  have hp := hb.prefix_iff j k t
  rw [hb.chars_eq j, hb.chars_eq k, List.cons_append] at *
  rw [occurrences_cons, occurrences_append (hb.not_mem_rest k)]
  simp only [hp]

end Bracketed

/-! ## Replacement -/

namespace Pattern

variable {κ : Type} {pat : Pattern α} {ph : κ → Placeholder α} {o c : α} {b : Option α}
  {t : List α} {ps : List (Piece α)}

omit [DecidableEq α] in
/-- A word that stands in the text after the replacement, without the first symbol of what was
    written there, has been kept. -/
theorem kept_of_prefix {o : α} {w tok : List α} (hw : o ∉ w)
    (h : w <+: ps.flatMap (Piece.replaced fun _ => o :: tok)) :
    ∃ qs, ps = w.map .kept ++ qs := by
  induction w generalizing ps with
  | nil => exact ⟨ps, rfl⟩
  | cons d w ih =>
    cases ps with
    | nil => cases List.prefix_nil.mp h
    | cons p ps =>
      cases p with
      | kept e =>
        obtain ⟨rfl, hrest⟩ := List.cons_prefix_cons.mp h
        obtain ⟨qs, rfl⟩ := ih (List.not_mem_of_not_mem_cons hw) hrest
        exact ⟨qs, rfl⟩
      | hit v =>
        exact absurd (List.cons_prefix_cons.mp h).1.symm (List.ne_of_not_mem_cons hw)

omit [DecidableEq α] in
/-- A placeholder at the head of a text is kept. -/
theorem Cuts.keeps_placeholder {ph : Placeholder α} (hpass : pat.passesOver ph = true)
    {u : List α} (h : pat.Cuts b (ph.chars ++ u) ps) : ∃ qs, ps = ph.chars.map .kept ++ qs := by
  rw [h.eq_pieces, ← (cuts_placeholder hpass (cuts_pieces (some ph.last) u) b).eq_pieces]
  exact ⟨_, rfl⟩

omit [DecidableEq α] in
theorem flatMap_replaced_kept (f : List α → List α) (w : List α) :
    (w.map Piece.kept).flatMap (Piece.replaced f) = w := by
  rw [List.flatMap_map]
  exact List.flatMap_singleton' w

omit [DecidableEq α] in
/-- The replacement makes no placeholder at the head of a text, and destroys none. -/
theorem Cuts.prefix_replaced_iff (hb : Bracketed ph o c)
    (hpass : ∀ k, pat.passesOver (ph k) = true) {d : α} (h : pat.Cuts b (d :: t) (.kept d :: ps))
    (j k : κ) :
    (ph j).chars <+: d :: ps.flatMap (Piece.replaced fun _ => (ph k).chars) ↔
      (ph j).chars <+: d :: t := by
  constructor
  · intro hp
    rw [hb.chars_eq, hb.chars_eq, List.cons_prefix_cons] at hp
    obtain ⟨rfl, hrest⟩ := hp
    obtain ⟨qs, rfl⟩ := kept_of_prefix (hb.not_mem_rest j) hrest
    rw [← h.source, hb.chars_eq, List.flatMap_cons, List.flatMap_append, List.flatMap_map]
    refine List.cons_prefix_cons.mpr ⟨rfl, qs.flatMap Piece.source, congrArg (· ++ _) ?_⟩
    exact (List.flatMap_singleton' ((ph j).inner ++ [c])).symm
  · rintro ⟨u, hu⟩
    rw [← hu] at h
    obtain ⟨qs, hqs⟩ := h.keeps_placeholder (hpass j)
    have hreplaced : d :: ps.flatMap (Piece.replaced fun _ => (ph k).chars) =
        (ph j).chars ++ qs.flatMap (Piece.replaced fun _ => (ph k).chars) := by
      change (Piece.kept d :: ps).flatMap (Piece.replaced fun _ => (ph k).chars) = _
      rw [hqs, List.flatMap_append, flatMap_replaced_kept]
    exact ⟨_, hreplaced.symm⟩

/-- Along a cut. -/
theorem Cuts.occurrences_replaced (hb : Bracketed ph o c)
    (hpass : ∀ k, pat.passesOver (ph k) = true) (h : pat.Cuts b t ps) (j k : κ) :
    occurrences (ph j).chars (ps.flatMap (Piece.replaced fun _ => (ph k).chars)) =
      occurrences (ph j).chars t +
        if (ph j).chars = (ph k).chars then ps.countP Piece.isHit else 0 := by
  induction h with
  | nil => simp
  | @kept b d t ps hm hrest ih =>
    have hiff := (Cuts.kept hm hrest).prefix_replaced_iff hb hpass j k
    change occurrences _ (d :: ps.flatMap _) = _
    rw [occurrences_cons, occurrences_cons, ih, List.countP_cons_of_neg (by simp [Piece.isHit])]
    simp only [hiff]
    omega
  | @hit b w t ps hm hrest ih =>
    have hrejects := body_rejects (passesOver_iff.mp (hpass j)).1
    rw [hb.first] at hrejects
    have hw : o ∉ w := Regex.not_mem_of_rejects hrejects (fits_of_matchAt hm).2.1
    have ht : occurrences (ph j).chars (w ++ t) = occurrences (ph j).chars t := by
      rw [hb.chars_eq, occurrences_append hw]
    change occurrences _ ((ph k).chars ++ ps.flatMap _) = _
    rw [hb.occurrences_placeholder, ih, ht, List.countP_cons_of_pos rfl]
    by_cases hjk : (ph j).chars = (ph k).chars
    · simp only [if_pos hjk]
      omega
    · simp only [if_neg hjk]

/-- Replacing the matches by a placeholder adds that placeholder once for each match, and no
    other. -/
theorem occurrences_replaceAll (hb : Bracketed ph o c)
    (hpass : ∀ k, pat.passesOver (ph k) = true) (t : List α) (j k : κ) :
    occurrences (ph j).chars (pat.replaceAll (fun _ => (ph k).chars) t) =
      occurrences (ph j).chars t +
        if (ph j).chars = (ph k).chars then (pat.cut t).countP Piece.isHit else 0 :=
  (cuts_cut pat t).occurrences_replaced hb hpass j k

omit [DecidableEq α] in
/-- Without a match nothing is replaced. -/
theorem replaceAll_of_no_hit {f : List α → List α} (h : (pat.cut t).countP Piece.isHit = 0) :
    pat.replaceAll f t = t := by
  refine replaceAll_of_not_occurs f fun hocc => ?_
  obtain ⟨w, hw⟩ := (occurs_iff_hit t).mp hocc
  exact List.countP_eq_zero.mp h _ hw rfl

end Pattern
