import Harp.Lib.Regex
import Mathlib.Data.List.Infix

/-
  Masking the matches of patterns.

  A text with masked spans is a list of symbols, each a kept symbol of the text or a span
  that is masked as of some kind. No class of a pattern has a masked span, and to an assertion
  it looks like an end of the text. `mask` masks the matches of a pattern.

  `render` writes a placeholder for each masked span. When a pattern passes over the
  placeholders, masking and replacing are the same (`replaceAll_render`), and the pattern
  occurs in the text with masked spans exactly if it occurs in the rendered one.
-/

/-- A symbol of a text, or a span of the text masked as `k`. -/
inductive Glyph (κ α : Type) where
  | kept (c : α)
  | masked (k : κ) (span : List α)

namespace Glyph

variable {κ α : Type}

def char? : Glyph κ α → Option α
  | kept c => some c
  | masked _ _ => none

/-- The class on texts with masked spans. -/
def lift (p : α → Bool) (s : Glyph κ α) : Bool := s.char?.any p

/-- The part of the original text. -/
def source : Glyph κ α → List α
  | kept c => [c]
  | masked _ span => span

/-- The symbol with a placeholder for a masked span. -/
def render (tok : κ → List α) : Glyph κ α → List α
  | kept c => [c]
  | masked k _ => tok k

/-- What an assertion sees of a neighbour. -/
def seen (s : Option (Glyph κ α)) : Option α := s.bind char?

@[simp] theorem lift_kept (p : α → Bool) (c : α) : lift p (kept c : Glyph κ α) = p c := rfl

@[simp] theorem lift_masked (p : α → Bool) (k : κ) (span : List α) :
    lift p (masked k span) = false := rfl

@[simp] theorem seen_none : seen (none : Option (Glyph κ α)) = none := rfl

@[simp] theorem seen_kept (c : α) : seen (some (kept c : Glyph κ α)) = some c := rfl

@[simp] theorem seen_masked (k : κ) (span : List α) : seen (some (masked k span)) = none := rfl

theorem any_lift (p : α → Bool) (s : Option (Glyph κ α)) : s.any (lift p) = (seen s).any p := by
  rcases s with _ | s
  · rfl
  · cases s <;> rfl

end Glyph

/-! ## Patterns on texts with masked spans -/

namespace Regex

variable {κ α : Type} {r : Regex α}

/-- The words are those of the expression, none of their symbols masked. -/
theorem lang_lift (r : Regex α) :
    (r.mapCls (Glyph.lift (κ := κ))).lang = Language.map Glyph.kept r.lang := by
  induction r with
  | cls p =>
    ext w
    constructor
    · rintro ⟨s, hs, rfl⟩
      cases s with
      | kept c => exact ⟨[c], ⟨c, hs, rfl⟩, rfl⟩
      | masked k span => exact nomatch hs
    · rintro ⟨_, ⟨c, hc, rfl⟩, rfl⟩
      exact ⟨.kept c, hc, rfl⟩
  | seq r s ihr ihs => rw [mapCls, lang, lang, map_mul, ihr, ihs]
  | alt r s ihr ihs => rw [mapCls, lang, lang, map_add, ihr, ihs]
  | rep r min max ih =>
    ext w
    rw [mapCls, mem_lang_rep, ih]
    constructor
    · rintro ⟨n, hmin, hmax, hw⟩
      rw [← map_pow] at hw
      obtain ⟨v, hv, rfl⟩ := hw
      exact ⟨v, ⟨n, hmin, hmax, hv⟩, rfl⟩
    · rintro ⟨v, ⟨n, hmin, hmax, hv⟩, rfl⟩
      refine ⟨n, hmin, hmax, ?_⟩
      rw [← map_pow]
      exact ⟨v, hv, rfl⟩

end Regex

namespace Pattern

section Lift

variable {κ α : Type}

/-- The assertion on texts with masked spans. -/
def liftAssertion : Assertion α → Assertion (Glyph κ α)
  | .always => .always
  | .notBehind p => .notBehind (Glyph.lift p)
  | .notAhead p => .notAhead (Glyph.lift p)
  | .boundary p => .boundary (Glyph.lift p)

theorem holds_lift (a : Assertion α) (s s' : Option (Glyph κ α)) :
    (liftAssertion a).holds s s' = a.holds (Glyph.seen s) (Glyph.seen s') := by
  cases a <;> simp [liftAssertion, Assertion.holds, Glyph.any_lift]

/-- The pattern on texts with masked spans. -/
def lift (κ : Type) (pat : Pattern α) : Pattern (Glyph κ α) where
  before := liftAssertion pat.before
  body := pat.body.mapCls Glyph.lift
  after := liftAssertion pat.after
  proper := by rw [Regex.proper_mapCls, pat.proper]
  nonempty := by rw [Regex.nullable_mapCls, pat.nonempty]

variable {pat : Pattern α}

theorem fits_lift {b a : Option (Glyph κ α)} {w : List (Glyph κ α)} :
    (pat.lift κ).Fits b w a ↔
      ∃ v, w = v.map .kept ∧ pat.Fits (Glyph.seen b) v (Glyph.seen a) := by
  have hhead (v : List α) : Glyph.seen (v.map (Glyph.kept (κ := κ))).head? = v.head? := by
    cases v <;> rfl
  have hlast (v : List α) : Glyph.seen (v.map (Glyph.kept (κ := κ))).getLast? = v.getLast? := by
    rw [List.getLast?_map]
    cases v.getLast? <;> rfl
  unfold Fits lift
  rw [Regex.lang_lift]
  constructor
  · rintro ⟨⟨v, hv, rfl⟩, hb, ha⟩
    rw [holds_lift, hhead] at hb
    rw [holds_lift, hlast] at ha
    exact ⟨v, rfl, hv, hb, ha⟩
  · rintro ⟨v, rfl, hv, hb, ha⟩
    refine ⟨⟨v, hv, rfl⟩, ?_, ?_⟩
    · rw [holds_lift, hhead, hb]
    · rw [holds_lift, hlast, ha]

end Lift

/-! ## Masking -/

variable {κ α : Type}

/-- A piece of a cut, its match masked as `k`. -/
def maskPiece (k : κ) : Piece (Glyph κ α) → Glyph κ α
  | .kept s => s
  | .hit w => .masked k (w.flatMap Glyph.source)

/-- Masks all matches of the pattern as `k`. -/
def mask (pat : Pattern α) (k : κ) (t : List (Glyph κ α)) : List (Glyph κ α) :=
  ((pat.lift κ).cut t).map (maskPiece k)

variable (pat : Pattern α)

/-- Masking hides parts of the text and changes none. -/
theorem source_mask (k : κ) (t : List (Glyph κ α)) :
    (pat.mask k t).flatMap Glyph.source = t.flatMap Glyph.source := by
  have hpiece (p : Piece (Glyph κ α)) :
      (maskPiece k p).source = (Piece.source p).flatMap Glyph.source := by
    cases p with
    | kept s => simp [maskPiece, Piece.source]
    | hit w => rfl
  rw [mask, List.flatMap_map]
  simp only [hpiece]
  rw [← List.flatMap_assoc, source_cut]

end Pattern

/-! ## Placeholders -/

/-- A placeholder, with its first and its last symbol told apart. -/
structure Placeholder (α : Type) where
  first : α
  inner : List α
  last : α

def Placeholder.chars {α : Type} (ph : Placeholder α) : List α := ph.first :: ph.inner ++ [ph.last]

namespace Pattern

variable {κ α : Type} (pat : Pattern α)

def assertionAvoids : Assertion α → α → Bool
  | .always, _ => true
  | .notBehind p, c => !p c
  | .notAhead p, c => !p c
  | .boundary p, c => !p c

/-- No class of the pattern or of its assertions has the symbol. -/
def avoids (c : α) : Bool :=
  assertionAvoids pat.before c && pat.body.rejects c && assertionAvoids pat.after c

/-- The pattern avoids the ends of the placeholder, and no match starts between them. -/
def passesOver (ph : Placeholder α) : Bool :=
  pat.avoids ph.first && pat.avoids ph.last &&
    ph.inner.tails.all fun w => (pat.body.results (w ++ [ph.last])).isEmpty

end Pattern

namespace Regex

variable {κ α : Type} {r : Regex α} {tok : κ → List α}

theorem stops_both {s : Regex α}
    (htok : ∀ k, ∃ c v, tok k = c :: v ∧ (r.rejects c && s.rejects c) = true) :
    (∀ k, ∃ c v, tok k = c :: v ∧ r.rejects c = true) ∧
      ∀ k, ∃ c v, tok k = c :: v ∧ s.rejects c = true := by
  refine ⟨fun k => ?_, fun k => ?_⟩
  · obtain ⟨c, v, hk, hc⟩ := htok k
    exact ⟨c, v, hk, (Bool.and_eq_true_iff.mp hc).1⟩
  · obtain ⟨c, v, hk, hc⟩ := htok k
    exact ⟨c, v, hk, (Bool.and_eq_true_iff.mp hc).2⟩

theorem render_ne_nil (htok : ∀ k, tok k ≠ []) (s : Glyph κ α) : s.render tok ≠ [] := by
  cases s with
  | kept c => exact List.cons_ne_nil c []
  | masked k span => exact htok k

theorem isEmpty_render (htok : ∀ k, tok k ≠ []) (t : List (Glyph κ α)) :
    (t.flatMap (Glyph.render tok)).isEmpty = t.isEmpty := by
  cases t with
  | nil => rfl
  | cons s t =>
    rw [List.flatMap_cons, List.isEmpty_cons, List.isEmpty_eq_false_iff]
    exact List.append_ne_nil_of_left_ne_nil (render_ne_nil htok s) _

/-- Placeholders make no text shorter. -/
theorem length_le_render (htok : ∀ k, tok k ≠ []) (t : List (Glyph κ α)) :
    t.length ≤ (t.flatMap (Glyph.render tok)).length := by
  induction t with
  | nil => rfl
  | cons s t ih =>
    have hs : 0 < (s.render tok).length := List.length_pos_of_ne_nil (render_ne_nil htok s)
    rw [List.flatMap_cons, List.length_append, List.length_cons]
    omega

/-- The results on a rendered text are the rendered results. -/
theorem results_render (htok : ∀ k, ∃ c v, tok k = c :: v ∧ r.rejects c = true)
    (t : List (Glyph κ α)) :
    r.results (t.flatMap (Glyph.render tok)) = ((r.mapCls Glyph.lift).results t).map
      (Prod.map (List.flatMap (Glyph.render tok)) (List.flatMap (Glyph.render tok))) := by
  induction r generalizing t with
  | cls p =>
    cases t with
    | nil => rfl
    | cons s t =>
      cases s with
      | kept c => by_cases hc : p c = true <;> simp [results, mapCls, Glyph.render, hc]
      | masked k span =>
        obtain ⟨c, v, hk, hc⟩ := htok k
        have hpc : p c = false := by simpa [rejects] using hc
        simp [results, mapCls, Glyph.render, hk, hpc]
  | seq r s ihr ihs =>
    obtain ⟨hr, hs⟩ := stops_both htok
    rw [results, mapCls, results, ihr hr, List.flatMap_map, List.map_flatMap]
    refine List.flatMap_congr fun x _ => ?_
    rw [Prod.map_snd, ihs hs, List.map_map, List.map_map]
    refine List.map_congr_left fun y _ => ?_
    simp
  | alt r s ihr ihs =>
    obtain ⟨hr, hs⟩ := stops_both htok
    rw [results, mapCls, results, ihr hr, ihs hs, List.map_append]
  | rep r min max ih =>
    have hne (k : κ) : tok k ≠ [] := by
      obtain ⟨c, v, hk, -⟩ := htok k
      rw [hk]
      exact List.cons_ne_nil c v
    have hlen := length_le_render hne t
    rw [results, mapCls, results,
      repeated_map _ (fun _ _ => List.flatMap_append) (isEmpty_render hne) (ih htok)]
    cases max with
    | some k => rfl
    | none =>
      rw [Option.getD_none, Option.getD_none,
        repeated_le (fun _ _ _ h => (results_sound h).1) (by omega) (le_refl _)]

end Regex

namespace Regex

variable {α : Type} {r : Regex α} {c : α}

theorem results_eq_nil_of_rejects (hr : r.nullable = false) (hc : r.rejects c = true)
    (u : List α) : r.results (c :: u) = [] := by
  refine List.eq_nil_iff_forall_not_mem.mpr fun x hx => ?_
  obtain ⟨hw, hlang⟩ := results_sound (w := x.1) (u := x.2) hx
  obtain ⟨d, v, hv⟩ := List.exists_cons_of_ne_nil (ne_nil_of_mem hr hlang)
  rw [hv] at hw hlang
  obtain rfl : c = d := (List.cons.inj hw).1
  exact not_mem_of_rejects hc hlang List.mem_cons_self

/-- A symbol of no class ends the search, whatever stands behind it. -/
theorem results_eq_nil_of_stop (hc : r.rejects c = true) {w : List α}
    (hw : r.results (w ++ [c]) = []) (u : List α) : r.results (w ++ c :: u) = [] := by
  have hrender (u : List α) : (w.map Glyph.kept ++ [Glyph.masked () []]).flatMap
      (Glyph.render fun _ => c :: u) = w ++ c :: u := by
    rw [List.flatMap_append, List.flatMap_map, List.flatMap_singleton]
    exact congrArg (· ++ c :: u) (List.flatMap_singleton' w)
  have hlift := results_render (r := r) (fun _ => ⟨c, [], rfl, hc⟩)
    (w.map Glyph.kept ++ [Glyph.masked () []])
  rw [hrender, hw, eq_comm, List.map_eq_nil_iff] at hlift
  have hresults := results_render (r := r) (fun _ => ⟨c, u, rfl, hc⟩)
    (w.map Glyph.kept ++ [Glyph.masked () []])
  rwa [hrender, hlift] at hresults

end Regex

/-! ## Rendering -/

namespace Pattern

variable {κ α : Type} {pat : Pattern α}

theorem passesOver_iff {ph : Placeholder α} :
    pat.passesOver ph = true ↔ pat.avoids ph.first = true ∧ pat.avoids ph.last = true ∧
      ∀ w ∈ ph.inner.tails, pat.body.results (w ++ [ph.last]) = [] := by
  simp [passesOver, and_assoc]

theorem body_rejects {c : α} (h : pat.avoids c = true) : pat.body.rejects c = true := by
  unfold avoids at h
  simp only [Bool.and_eq_true] at h
  exact h.1.2

theorem matchAt_eq_none_of_results {b : Option α} {t : List α} (h : pat.body.results t = []) :
    pat.matchAt b t = none := by
  unfold matchAt
  rw [h, List.find?_nil, ite_self]

/-- No match starts in a placeholder that the pattern passes over. -/
theorem cuts_placeholder {ph : Placeholder α} (h : pat.passesOver ph = true) {u : List α}
    {qs : List (Piece α)} (hu : pat.Cuts (some ph.last) u qs) (b : Option α) :
    pat.Cuts b (ph.chars ++ u) (ph.chars.map .kept ++ qs) := by
  obtain ⟨hfirst, hlast, hinner⟩ := passesOver_iff.mp h
  have hrest (w : List α) (hw : w <:+ ph.inner) (b : Option α) :
      pat.Cuts b (w ++ ph.last :: u) (w.map .kept ++ .kept ph.last :: qs) := by
    have hnone : pat.body.results (w ++ ph.last :: u) = [] :=
      Regex.results_eq_nil_of_stop (body_rejects hlast) (hinner w ((List.mem_tails _ _).mpr hw)) u
    induction w generalizing b with
    | nil => exact .kept (matchAt_eq_none_of_results hnone) hu
    | cons c w ih =>
      have hw' : w <:+ ph.inner := (List.suffix_cons c w).trans hw
      exact .kept (matchAt_eq_none_of_results hnone) (ih hw' (some c)
        (Regex.results_eq_nil_of_stop (body_rejects hlast)
          (hinner w ((List.mem_tails _ _).mpr hw')) u))
  have hnone := Regex.results_eq_nil_of_rejects pat.nonempty (body_rejects hfirst)
    (ph.inner ++ ph.last :: u)
  have hcuts := Cuts.kept (b := b) (matchAt_eq_none_of_results hnone)
    (hrest ph.inner (List.suffix_refl _) (some ph.first))
  simpa [Placeholder.chars] using hcuts

variable (pat) in
/-- `c` looks like `s` to the assertions of the pattern. -/
def Looks (s : Option (Glyph κ α)) (c : Option α) : Prop :=
  Glyph.seen s = c ∨ Glyph.seen s = none ∧ ∃ d, c = some d ∧ pat.avoids d = true

theorem Looks.holds {a : Assertion α} {s s' : Option (Glyph κ α)} {c c' : Option α}
    (ha : ∀ d, pat.avoids d = true → assertionAvoids a d = true) (h : pat.Looks s c)
    (h' : pat.Looks s' c') : (liftAssertion a).holds s s' = a.holds c c' := by
  have hany {p : α → Bool} (hp : ∀ d, pat.avoids d = true → p d = false)
      {s : Option (Glyph κ α)} {c : Option α} (h : pat.Looks s c) :
      (Glyph.seen s).any p = c.any p := by
    rcases h with rfl | ⟨hs, d, rfl, hd⟩
    · rfl
    · rw [hs, Option.any_none, Option.any_some, hp d hd]
  rw [holds_lift]
  cases a with
  | always => rfl
  | notBehind p =>
    have hp (d : α) (hd : pat.avoids d = true) : p d = false := by
      simpa [assertionAvoids] using ha d hd
    rw [Assertion.holds, Assertion.holds, hany hp h]
  | notAhead p =>
    have hp (d : α) (hd : pat.avoids d = true) : p d = false := by
      simpa [assertionAvoids] using ha d hd
    rw [Assertion.holds, Assertion.holds, hany hp h']
  | boundary p =>
    have hp (d : α) (hd : pat.avoids d = true) : p d = false := by
      simpa [assertionAvoids] using ha d hd
    rw [Assertion.holds, Assertion.holds, hany hp h, hany hp h']

section Render

variable {ph : κ → Placeholder α}

/-- The text with the placeholders. -/
def renderAll (ph : κ → Placeholder α) (t : List (Glyph κ α)) : List α :=
  t.flatMap (Glyph.render fun k => (ph k).chars)

theorem looks_head (hph : ∀ k, pat.passesOver (ph k) = true) (t : List (Glyph κ α)) :
    pat.Looks t.head? (renderAll ph t).head? := by
  cases t with
  | nil => exact .inl rfl
  | cons s t =>
    cases s with
    | kept c => exact .inl rfl
    | masked k span => exact .inr ⟨rfl, _, rfl, (passesOver_iff.mp (hph k)).1⟩

theorem looks_last (hph : ∀ k, pat.passesOver (ph k) = true) (t : List (Glyph κ α)) :
    pat.Looks t.getLast? (renderAll ph t).getLast? := by
  rcases List.eq_nil_or_concat t with rfl | ⟨t, s, rfl⟩
  · exact .inl rfl
  · rw [List.concat_eq_append, renderAll, List.flatMap_append, List.flatMap_singleton,
      List.getLast?_append, List.getLast?_append]
    cases s with
    | kept c => exact .inl rfl
    | masked k span =>
      refine .inr ⟨rfl, (ph k).last, ?_, (passesOver_iff.mp (hph k)).2.1⟩
      rw [Glyph.render, Placeholder.chars, List.getLast?_append]
      rfl

theorem matchAt_render (hph : ∀ k, pat.passesOver (ph k) = true) {b : Option (Glyph κ α)}
    {b' : Option α} (hb : pat.Looks b b') (t : List (Glyph κ α)) :
    pat.matchAt b' (renderAll ph t) =
      ((pat.lift κ).matchAt b t).map (Prod.map (renderAll ph) (renderAll ph)) := by
  have hbefore (d : α) (hd : pat.avoids d = true) : assertionAvoids pat.before d = true := by
    simp only [avoids, Bool.and_eq_true] at hd
    exact hd.1.1
  have hafter (d : α) (hd : pat.avoids d = true) : assertionAvoids pat.after d = true := by
    simp only [avoids, Bool.and_eq_true] at hd
    exact hd.2
  have htok (k : κ) : ∃ c v, (ph k).chars = c :: v ∧ pat.body.rejects c = true :=
    ⟨_, _, rfl, body_rejects (passesOver_iff.mp (hph k)).1⟩
  have hpred : (fun x : List α × List α => pat.after.holds x.1.getLast? x.2.head?) ∘
      Prod.map (renderAll ph) (renderAll ph) =
      fun x => (liftAssertion pat.after).holds x.1.getLast? x.2.head? := by
    funext x
    exact (Looks.holds hafter (looks_last hph x.1) (looks_head hph x.2)).symm
  unfold matchAt
  rw [← Looks.holds hbefore hb (looks_head hph t)]
  unfold lift
  dsimp only
  split
  · rw [show renderAll ph t = t.flatMap (Glyph.render fun k => (ph k).chars) from rfl,
      Regex.results_render htok t]
    rw [show (List.flatMap (Glyph.render fun k => (ph k).chars) : List (Glyph κ α) → List α) =
      renderAll ph from rfl, List.find?_map, hpred]
  · rfl

/-- A piece of a cut with the placeholders. -/
def renderPiece (ph : κ → Placeholder α) : Piece (Glyph κ α) → List (Piece α)
  | .kept s => (renderAll ph [s]).map .kept
  | .hit w => [.hit (renderAll ph w)]

theorem cuts_render (hph : ∀ k, pat.passesOver (ph k) = true) {b : Option (Glyph κ α)}
    {b' : Option α} (hb : pat.Looks b b') {t : List (Glyph κ α)} {ps : List (Piece (Glyph κ α))}
    (h : (pat.lift κ).Cuts b t ps) :
    pat.Cuts b' (renderAll ph t) (ps.flatMap (renderPiece ph)) := by
  induction h generalizing b' with
  | nil => exact .nil
  | @kept b s t ps hm _ ih =>
    cases s with
    | kept c =>
      refine .kept ?_ (ih (.inl rfl))
      rw [show c :: _ = renderAll ph (.kept c :: t) from rfl, matchAt_render hph hb, hm]
      rfl
    | masked k span =>
      have hu := ih (.inr ⟨rfl, (ph k).last, rfl, (passesOver_iff.mp (hph k)).2.1⟩)
      have hcuts := cuts_placeholder (hph k) hu b'
      simpa [renderAll, renderPiece, Glyph.render] using hcuts
  | @hit b w t ps hm _ ih =>
    have happend : renderAll ph (w ++ t) = renderAll ph w ++ renderAll ph t :=
      List.flatMap_append
    rw [happend]
    refine .hit ?_ (ih (looks_last hph w))
    rw [← happend, matchAt_render hph hb, hm]
    rfl

theorem cut_render (hph : ∀ k, pat.passesOver (ph k) = true) (t : List (Glyph κ α)) :
    pat.cut (renderAll ph t) = ((pat.lift κ).cut t).flatMap (renderPiece ph) :=
  (cuts_render hph (.inl rfl) (cuts_cut _ t)).eq_pieces.symm

/-- Replacing matches by their placeholder is masking them. -/
theorem replaceAll_render (hph : ∀ k, pat.passesOver (ph k) = true) (k : κ)
    (t : List (Glyph κ α)) :
    pat.replaceAll (fun _ => (ph k).chars) (renderAll ph t) = renderAll ph (pat.mask k t) := by
  rw [replaceAll, cut_render hph, mask, renderAll, List.flatMap_map, List.flatMap_assoc]
  refine List.flatMap_congr fun p _ => ?_
  cases p with
  | kept s => simp [renderPiece, renderAll, maskPiece, List.flatMap_map, Piece.replaced]
  | hit w => simp [renderPiece, maskPiece, Piece.replaced, Glyph.render]

/-- The pattern occurs in the text with placeholders exactly if it occurs outside the masked
    spans. -/
theorem occurs_render (hph : ∀ k, pat.passesOver (ph k) = true) (t : List (Glyph κ α)) :
    pat.Occurs (renderAll ph t) ↔ (pat.lift κ).Occurs t := by
  rw [occurs_iff_hit, occurs_iff_hit, cut_render hph]
  constructor
  · rintro ⟨v, hv⟩
    obtain ⟨p, hp, hv⟩ := List.mem_flatMap.mp hv
    cases p with
    | kept s => simp [renderPiece] at hv
    | hit w => exact ⟨w, hp⟩
  · rintro ⟨w, hw⟩
    exact ⟨_, List.mem_flatMap.mpr ⟨_, hw, List.mem_singleton_self _⟩⟩

end Render

end Pattern

/-! ## What masking exposes -/

namespace Pattern

variable {κ α : Type} {p q : Pattern α} {k : κ} {t : List (Glyph κ α)}
  {G : Option (Glyph κ α) → Option (Glyph κ α) → Prop}

/-- `q` matches in `t` only between neighbours in `G`. -/
def Only (q : Pattern α) (t : List (Glyph κ α))
    (G : Option (Glyph κ α) → Option (Glyph κ α) → Prop) : Prop :=
  ∀ pre v post, t = pre ++ v.map .kept ++ post →
    q.Fits (Glyph.seen pre.getLast?) v (Glyph.seen post.head?) → G pre.getLast? post.head?

theorem only_false_iff : q.Only t (fun _ _ => False) ↔ ¬ (q.lift κ).Occurs t := by
  constructor
  · rintro h ⟨pre, w, post, ht, hw⟩
    obtain ⟨v, rfl, hv⟩ := fits_lift.mp hw
    exact h pre v post ht hv
  · intro h pre v post ht hv
    exact h ⟨pre, v.map .kept, post, ht, fits_lift.mpr ⟨v, rfl, hv⟩⟩

/-- What the pieces stand for in the text. -/
def sources (ps : List (Piece (Glyph κ α))) : List (Glyph κ α) := ps.flatMap Piece.source

/-- A symbol that is kept twice: by the cut, and by the masking before. -/
def keep (c : α) : Piece (Glyph κ α) := .kept (.kept c)

/-- Where `p` keeps a symbol, `q` matches only between neighbours in `G`. -/
def OnlyKept (p q : Pattern α) (t : List (Glyph κ α))
    (G : Option (Glyph κ α) → Option (Glyph κ α) → Prop) : Prop :=
  ∀ ps c qs v u, (p.lift κ).cut t = ps ++ keep c :: qs →
    .kept c :: sources qs = v.map .kept ++ u →
    q.Fits (Glyph.seen (sources ps).getLast?) v (Glyph.seen u.head?) →
      G (sources ps).getLast? u.head?

theorem sources_keep (v : List α) :
    sources (v.map (keep (κ := κ))) = v.map .kept := by
  rw [sources, List.flatMap_map]
  induction v with
  | nil => rfl
  | cons c v ih => rw [List.flatMap_cons, ih]; rfl

theorem sources_append (ps qs : List (Piece (Glyph κ α))) :
    sources (ps ++ qs) = sources ps ++ sources qs := List.flatMap_append

/-- The pattern that cuts matches at no symbol it keeps. -/
theorem onlyKept_self (p : Pattern α) (t : List (Glyph κ α)) :
    OnlyKept p p t fun _ _ => False := by
  intro ps c qs v u hcut hsrc hv
  have hnone := kept_at hcut
  rw [show Glyph.kept c :: qs.flatMap Piece.source = v.map .kept ++ u from hsrc] at hnone
  exact not_fits_of_matchAt hnone (fits_lift.mpr ⟨v, rfl, hv⟩)

theorem Only.onlyKept (h : q.Only t G) (p : Pattern α) : OnlyKept p q t G := by
  intro ps c qs v u hcut hsrc hv
  refine h (sources ps) v u ?_ hv
  rw [← source_cut (p.lift κ) t, hcut, List.append_assoc, ← hsrc, List.flatMap_append,
    List.flatMap_cons]
  rfl

theorem OnlyKept.of_fits (h : OnlyKept p q t G) {ps qs : List (Piece (Glyph κ α))} {v : List α}
    (hcut : (p.lift κ).cut t = ps ++ v.map keep ++ qs)
    (hv : q.Fits (Glyph.seen (sources ps).getLast?) v (Glyph.seen (sources qs).head?)) :
    G (sources ps).getLast? (sources qs).head? := by
  obtain ⟨c, v, rfl⟩ := List.exists_cons_of_ne_nil hv.ne_nil
  refine h ps c (v.map keep ++ qs) (c :: v) (sources qs) ?_ ?_ hv
  · rw [hcut, List.map_cons, List.append_assoc, List.cons_append]
  · rw [sources_append, sources_keep, List.map_cons, List.cons_append]

/-- A match of `p` that ends in `l` may be followed by `n` only if `R l n`. -/
def After (κ : Type) (p : Pattern α) (R : α → α → Prop) : Prop :=
  ∀ b w (u : List (Glyph κ α)) l n, (p.lift κ).matchAt b (w ++ u) = some (w, u) →
    w.getLast? = some (.kept l) → u.head? = some (.kept n) → R l n

/-- A symbol that `p` keeps may stand before a match of `p` only if `P` holds of it. -/
def Before (κ : Type) (p : Pattern α) (P : α → Prop) : Prop :=
  ∀ (t : List (Glyph κ α)) ps c w qs, (p.lift κ).cut t = ps ++ keep c :: .hit w :: qs → P c

/-- The neighbour before a place in the masked text is the one in the text, or it is a match
    that has been masked. -/
def SameLeft (k : κ) (R : α → α → Prop) (s s' : Option (Glyph κ α)) (v : List α) : Prop :=
  s = s' ∨ (∃ span, s = some (.masked k span)) ∧
    ∃ l, s' = some (.kept l) ∧ ∀ n ∈ v.head?, R l n

/-- The neighbour after a place, in the same way. -/
def SameRight (k : κ) (P : α → Prop) (s : Option (Glyph κ α)) (qs : List (Piece (Glyph κ α)))
    (v : List α) : Prop :=
  s = (sources qs).head? ∨ (∃ span, s = some (.masked k span)) ∧
    (∃ f w qs', qs = .hit (.kept f :: w) :: qs') ∧ ∀ c ∈ v.getLast?, P c

theorem maskPiece_eq_kept {x : Piece (Glyph κ α)} {c : α} (h : maskPiece k x = .kept c) :
    x = keep c := by
  cases x with
  | kept s => exact congrArg Piece.kept h
  | hit w => exact nomatch h

/-- A run of kept symbols in the masked text is a run of kept symbols in the cut. -/
theorem mask_split {pre post : List (Glyph κ α)} {v : List α}
    (h : p.mask k t = pre ++ v.map .kept ++ post) :
    ∃ ps qs, (p.lift κ).cut t = ps ++ v.map keep ++ qs ∧ ps.map (maskPiece k) = pre ∧
      qs.map (maskPiece k) = post := by
  obtain ⟨xs, qs, hcut, hxs, hqs⟩ := List.map_eq_append_iff.mp h
  obtain ⟨ps, vs, rfl, hps, hvs⟩ := List.map_eq_append_iff.mp hxs
  have hv : vs = v.map keep := by
    clear hcut hxs h
    induction v generalizing vs with
    | nil => exact List.map_eq_nil_iff.mp hvs
    | cons c v ih =>
      obtain ⟨x, xs, rfl, hx, hxs⟩ := List.map_eq_cons_iff.mp hvs
      rw [maskPiece_eq_kept hx, ih xs hxs]
      rfl
  exact ⟨ps, qs, hv ▸ hcut, hps, hqs⟩

theorem mask_edges {R : α → α → Prop} {P : α → Prop} (hR : p.After κ R) (hP : p.Before κ P)
    {pre post : List (Glyph κ α)} {v : List α} (hv : v ≠ [])
    (h : p.mask k t = pre ++ v.map .kept ++ post) :
    ∃ ps qs, (p.lift κ).cut t = ps ++ v.map keep ++ qs ∧
      SameLeft k R pre.getLast? (sources ps).getLast? v ∧ SameRight k P post.head? qs v := by
  obtain ⟨ps, qs, hcut, rfl, rfl⟩ := mask_split h
  refine ⟨ps, qs, hcut, ?_, ?_⟩
  · rcases List.eq_nil_or_concat ps with rfl | ⟨ps, x, rfl⟩
    · exact .inl rfl
    · rw [List.concat_eq_append] at hcut ⊢
      rw [List.map_append, List.map_singleton, List.getLast?_concat, sources_append]
      cases x with
      | kept s => exact .inl (by simp [maskPiece, sources, Piece.source])
      | hit w =>
        rw [List.append_assoc, List.append_assoc] at hcut
        have hat := hit_at hcut
        obtain ⟨-, hfits⟩ := fits_of_matchAt hat
        obtain ⟨w, rfl, hw⟩ := fits_lift.mp hfits
        obtain ⟨l, hl⟩ : ∃ l, w.getLast? = some l :=
          ⟨_, List.getLast?_eq_some_getLast hw.ne_nil⟩
        refine .inr ⟨⟨_, rfl⟩, l, ?_, fun n hn => ?_⟩
        · simp [sources, Piece.source, hl]
        · obtain ⟨n', v, rfl⟩ := List.exists_cons_of_ne_nil hv
          obtain rfl : n' = n := by simpa using hn
          exact hR _ _ _ l n' hat (by simp [hl]) rfl
  · cases qs with
    | nil => exact .inl rfl
    | cons x qs =>
      cases x with
      | kept s => exact .inl rfl
      | hit w =>
        obtain ⟨-, hfits⟩ := fits_of_matchAt (hit_at hcut)
        obtain ⟨w, rfl, hw⟩ := fits_lift.mp hfits
        obtain ⟨f, w, rfl⟩ := List.exists_cons_of_ne_nil hw.ne_nil
        refine .inr ⟨⟨_, rfl⟩, ⟨f, w.map .kept, qs, rfl⟩, fun c hc => ?_⟩
        obtain ⟨v, rfl⟩ : ∃ v', v = v' ++ [c] := ⟨_, (List.dropLast_append_getLast? c hc).symm⟩
        refine hP t (ps ++ v.map keep) c ((f :: w).map .kept) qs ?_
        simpa using hcut

/-! ## The edges of matches -/

section Edges

variable {R R' : α → α → Prop} {P P' : α → Prop} {d : α → Bool}

theorem After.mono (h : p.After κ R) (hR : ∀ l n, R l n → R' l n) : p.After κ R' :=
  fun b w u l n hm hl hn => hR l n (h b w u l n hm hl hn)

theorem Before.mono (h : p.Before κ P) (hP : ∀ c, P c → P' c) : p.Before κ P' :=
  fun t ps c w qs hcut => hP c (h t ps c w qs hcut)

/-- What a match and its neighbours satisfy. -/
theorem before_of_fits
    (h : ∀ c v (a : Option (Glyph κ α)), p.Fits (some c) v (Glyph.seen a) → P c) :
    p.Before κ P := by
  intro t ps c w qs hcut
  rw [List.append_cons] at hcut
  obtain ⟨-, hfits⟩ := fits_of_matchAt (hit_at hcut)
  obtain ⟨v, -, hv⟩ := fits_lift.mp hfits
  rw [List.flatMap_append, List.getLast?_append] at hv
  exact h c v _ hv

theorem after_of_fits
    (h : ∀ b v l n, v.getLast? = some l → p.Fits b v (some n) → R l n) : p.After κ R := by
  intro b w u l n hm hl hn
  obtain ⟨-, hfits⟩ := fits_of_matchAt hm
  obtain ⟨v, rfl, hv⟩ := fits_lift.mp hfits
  rw [hn] at hv
  refine h _ v l n ?_ hv
  rw [List.getLast?_map, Option.map_eq_some_iff] at hl
  obtain ⟨l', hl', heq⟩ := hl
  rw [hl', Glyph.kept.inj heq]

theorem before_notBehind (h : p.before = .notBehind d) : p.Before κ fun c => d c = false :=
  before_of_fits fun c v a hv => by
    have := hv.2.1
    rw [h] at this
    simpa [Assertion.holds] using this

theorem after_notAhead (h : p.after = .notAhead d) : p.After κ fun _ n => d n = false :=
  after_of_fits fun b v l n _ hv => by
    have := hv.2.2
    rw [h] at this
    simpa [Assertion.holds] using this

theorem before_boundary (h : p.before = .boundary d) (hs : p.body.Starts P) :
    p.Before κ fun c => ∃ f, P f ∧ d c ≠ d f :=
  before_of_fits fun c v a hv => by
    obtain ⟨f, v, rfl⟩ := List.exists_cons_of_ne_nil hv.ne_nil
    refine ⟨f, hs _ hv.1 f rfl, ?_⟩
    have := hv.2.1
    rw [h] at this
    simpa [Assertion.holds] using this

theorem after_boundary (h : p.after = .boundary d) : p.After κ fun l n => d l ≠ d n :=
  after_of_fits fun b v l n hl hv => by
    have := hv.2.2
    rw [h, hl] at this
    simpa [Assertion.holds] using this

/-- A match that takes all symbols of `d` is followed by none. -/
theorem after_munches (h : p.after = .always) (he : p.body.Ends P)
    (hm : (p.body.mapCls (Glyph.lift (κ := κ))).Munches (Glyph.lift d)) :
    p.After κ fun l n => P l ∧ d n = false := by
  intro b w u l n hmatch hl hn
  obtain ⟨-, hfits⟩ := fits_of_matchAt hmatch
  obtain ⟨v, rfl, hv⟩ := fits_lift.mp hfits
  rw [List.getLast?_map, Option.map_eq_some_iff] at hl
  obtain ⟨l', hl', heq⟩ := hl
  refine ⟨he v hv.1 l (by rw [hl', Glyph.kept.inj heq]; rfl), ?_⟩
  have hfirst : ((p.lift κ).body.results (v.map .kept ++ u)).head? = some (v.map .kept, u) := by
    unfold matchAt at hmatch
    split at hmatch
    · have hall : (fun x : List (Glyph κ α) × List (Glyph κ α) =>
          (p.lift κ).after.holds x.1.getLast? x.2.head?) = fun _ => true := by
        funext x
        simp [lift, h, liftAssertion, Assertion.holds]
      rw [hall] at hmatch
      rw [← hmatch]
      cases (p.lift κ).body.results (v.map .kept ++ u) <;> rfl
    · exact nomatch hmatch
  have := hm _ _ _ hfirst
  rwa [hn] at this

/-- A match that might as well have started earlier did not. -/
theorem before_extends (hb : p.before = .always) (hext : ∀ c v, d c = true → v ∈ p.body.lang →
      c :: v ∈ p.body.lang) : p.Before κ fun c => d c = false := by
  intro t ps c w qs hcut
  by_contra hc
  have hcut' := hcut
  rw [List.append_cons] at hcut'
  obtain ⟨-, hfits⟩ := fits_of_matchAt (hit_at hcut')
  obtain ⟨v, rfl, hv⟩ := fits_lift.mp hfits
  refine onlyKept_self p t ps c (.hit (v.map .kept) :: qs) (c :: v) (sources qs) hcut rfl ?_
  refine ⟨hext c v (by simpa using hc) hv.1, by rw [hb]; rfl, ?_⟩
  rw [List.getLast?_cons_of_ne_nil hv.ne_nil]
  exact hv.2.2

end Edges

end Pattern
