import Mathlib.Computability.Language
import Mathlib.Tactic.Common

/-
  Regular expressions as a backtracking matcher runs them.

  `Regex.results` lists the ways in which an expression matches a prefix of a text, in the
  order in which they are tried: the left alternative first, one more repetition before
  none. `Regex.lang` is the language of the expression, and `mem_results_iff` says that the
  results are exactly its words. A `Pattern` has an assertion at each end about the symbols
  around the match; `matchAt` is the first result that meets them.

  `cut` splits a text into the matches that a scan from left to right finds, none
  overlapping, and the symbols between them.
-/

/-- An expression over symbols of `α`; `rep` is greedy. -/
inductive Regex (α : Type) where
  | cls (p : α → Bool)
  | seq (r s : Regex α)
  | alt (r s : Regex α)
  | rep (r : Regex α) (min : Nat) (max : Option Nat)

namespace Regex

variable {α : Type}

/-! ## The matcher -/

/-- Up to `bound` repetitions of `f`, the first `min` of which must be there. Beyond these a
    repetition that matches nothing is cut off. -/
def repeated (f : List α → List (List α × List α)) :
    (bound min : Nat) → List α → List (List α × List α)
  | 0, min, t => if min = 0 then [([], t)] else []
  | bound + 1, min, t =>
    (((f t).filter fun x => decide (min ≠ 0) || !x.1.isEmpty).flatMap fun x =>
      (repeated f bound (min - 1) x.2).map fun y => (x.1 ++ y.1, y.2)) ++
    if min = 0 then [([], t)] else []

/-- The matched prefixes of a text, each with the rest. -/
def results : Regex α → List α → List (List α × List α)
  | cls _, [] => []
  | cls p, c :: t => if p c then [([c], t)] else []
  | seq r s, t => (results r t).flatMap fun x => (results s x.2).map fun y => (x.1 ++ y.1, y.2)
  | alt r s, t => results r t ++ results s t
  | rep r min max, t => repeated (results r) (max.getD (min + t.length)) min t

/-- Whether the expression may match nothing. -/
def nullable : Regex α → Bool
  | cls _ => false
  | seq r s => nullable r && nullable s
  | alt r s => nullable r || nullable s
  | rep r min _ => min == 0 || nullable r

/-- No repetition is of an expression that may match nothing. -/
def proper : Regex α → Bool
  | cls _ => true
  | seq r s => proper r && proper s
  | alt r s => proper r && proper s
  | rep r _ _ => proper r && !nullable r

/-! ## The language -/

def lang : Regex α → Language α
  | cls p => {w | ∃ c, p c = true ∧ w = [c]}
  | seq r s => lang r * lang s
  | alt r s => lang r + lang s
  | rep r min max => {w | ∃ n, min ≤ n ∧ (∀ k ∈ max, n ≤ k) ∧ w ∈ lang r ^ n}

variable {r s : Regex α} {w t u : List α}

theorem mem_lang_seq : w ∈ (seq r s).lang ↔ ∃ a ∈ r.lang, ∃ b ∈ s.lang, a ++ b = w :=
  Language.mem_mul

theorem mem_lang_alt : w ∈ (alt r s).lang ↔ w ∈ r.lang ∨ w ∈ s.lang :=
  Language.mem_add _ _ _

theorem mem_lang_rep {min : Nat} {max : Option Nat} :
    w ∈ (rep r min max).lang ↔ ∃ n, min ≤ n ∧ (∀ k ∈ max, n ≤ k) ∧ w ∈ r.lang ^ n := Iff.rfl

theorem mem_pow_cls {p : α → Bool} {n : Nat} :
    w ∈ (cls p).lang ^ n ↔ w.length = n ∧ ∀ c ∈ w, p c = true := by
  induction n generalizing w with
  | zero =>
    rw [pow_zero, Language.mem_one, List.length_eq_zero_iff]
    refine ⟨?_, And.left⟩
    rintro rfl
    exact ⟨rfl, fun _ h => nomatch h⟩
  | succ n ih =>
    rw [pow_succ', Language.mem_mul]
    constructor
    · rintro ⟨a, ⟨c, hc, rfl⟩, b, hb, rfl⟩
      obtain ⟨hlen, hall⟩ := ih.mp hb
      exact ⟨congrArg (· + 1) hlen, List.forall_mem_cons.mpr ⟨hc, hall⟩⟩
    · rintro ⟨hlen, hall⟩
      obtain ⟨c, b, rfl⟩ := List.exists_cons_of_length_eq_add_one hlen
      obtain ⟨hc, hall⟩ := List.forall_mem_cons.mp hall
      exact ⟨[c], ⟨c, hc, rfl⟩, b, ih.mpr ⟨Nat.succ.inj hlen, hall⟩, rfl⟩

/-- A repetition of a class: how long a word is, and that its symbols are of the class. -/
theorem mem_lang_rep_cls {p : α → Bool} {min : Nat} {max : Option Nat} :
    w ∈ (rep (cls p) min max).lang ↔
      min ≤ w.length ∧ (∀ k ∈ max, w.length ≤ k) ∧ ∀ c ∈ w, p c = true := by
  simp only [mem_lang_rep, mem_pow_cls]
  constructor
  · rintro ⟨n, hmin, hmax, rfl, hall⟩
    exact ⟨hmin, hmax, hall⟩
  · rintro ⟨hmin, hmax, hall⟩
    exact ⟨_, hmin, hmax, rfl, hall⟩

theorem nil_mem_pow {L : Language α} {n : Nat} (h : [] ∈ L ^ n) : n = 0 ∨ [] ∈ L := by
  cases n with
  | zero => exact .inl rfl
  | succ n =>
    rw [pow_succ', Language.mem_mul] at h
    obtain ⟨a, ha, b, -, hab⟩ := h
    rw [(List.append_eq_nil_iff.mp hab).1] at ha
    exact .inr ha

theorem nullable_of_nil_mem (h : [] ∈ r.lang) : r.nullable = true := by
  induction r with
  | cls p => obtain ⟨c, -, hc⟩ := h; exact nomatch hc
  | seq r s ihr ihs =>
    obtain ⟨a, ha, b, hb, hab⟩ := mem_lang_seq.mp h
    obtain ⟨rfl, rfl⟩ := List.append_eq_nil_iff.mp hab
    simp [nullable, ihr ha, ihs hb]
  | alt r s ihr ihs =>
    rcases mem_lang_alt.mp h with h | h
    · simp [nullable, ihr h]
    · simp [nullable, ihs h]
  | rep r min max ih =>
    obtain ⟨n, hmin, -, hn⟩ := mem_lang_rep.mp h
    rcases nil_mem_pow hn with rfl | hnil
    · simp [nullable, Nat.le_zero.mp hmin]
    · simp [nullable, ih hnil]

theorem ne_nil_of_mem (hr : r.nullable = false) (h : w ∈ r.lang) : w ≠ [] := by
  rintro rfl
  exact absurd (nullable_of_nil_mem h) (by simp [hr])

/-! ## The results are the words of the language -/

theorem repeated_sound {f : List α → List (List α × List α)} {L : Language α}
    (hf : ∀ t w u, (w, u) ∈ f t → t = w ++ u ∧ w ∈ L) {bound min : Nat}
    (h : (w, u) ∈ repeated f bound min t) :
    t = w ++ u ∧ ∃ n, min ≤ n ∧ n ≤ bound ∧ w ∈ L ^ n := by
  have stop {b m : Nat} {t w u : List α}
      (h : (w, u) ∈ if m = 0 then [(([] : List α), t)] else []) :
      t = w ++ u ∧ ∃ n, m ≤ n ∧ n ≤ b ∧ w ∈ L ^ n := by
    by_cases hm : m = 0
    · rw [if_pos hm, List.mem_singleton, Prod.mk.injEq] at h
      obtain ⟨rfl, rfl⟩ := h
      exact ⟨rfl, 0, hm.le, Nat.zero_le b, by rw [pow_zero]; rfl⟩
    · rw [if_neg hm] at h
      exact nomatch h
  induction bound generalizing min t w u with
  | zero => exact stop h
  | succ bound ih =>
    rcases List.mem_append.mp h with h | h
    · obtain ⟨x, hx, h⟩ := List.mem_flatMap.mp h
      obtain ⟨y, hy, heq⟩ := List.mem_map.mp h
      obtain ⟨rfl, rfl⟩ := Prod.mk.inj heq
      obtain ⟨rfl, hxL⟩ := hf t x.1 x.2 (List.mem_filter.mp hx).1
      obtain ⟨hrest, n, hmin, hle, hyL⟩ := ih hy
      refine ⟨by rw [List.append_assoc, ← hrest], n + 1, by omega, by omega, ?_⟩
      rw [pow_succ']
      exact Language.append_mem_mul hxL hyL
    · exact stop h

theorem repeated_complete {f : List α → List (List α × List α)} {L : Language α}
    (hf : ∀ w u, w ∈ L → (w, u) ∈ f (w ++ u)) (hnil : [] ∉ L) {bound min n : Nat}
    (hmin : min ≤ n) (hle : n ≤ bound) (hw : w ∈ L ^ n) :
    (w, u) ∈ repeated f bound min (w ++ u) := by
  induction n generalizing bound min w with
  | zero =>
    rw [pow_zero, Language.mem_one] at hw
    subst hw
    obtain rfl := Nat.le_zero.mp hmin
    cases bound <;> simp [repeated]
  | succ n ih =>
    obtain ⟨bound, rfl⟩ : ∃ b, bound = b + 1 := ⟨bound - 1, by omega⟩
    rw [pow_succ', Language.mem_mul] at hw
    obtain ⟨a, ha, b, hb, rfl⟩ := hw
    have hne : a ≠ [] := fun h => hnil (h ▸ ha)
    refine List.mem_append_left _ (List.mem_flatMap.mpr ⟨(a, b ++ u), ?_, ?_⟩)
    · rw [List.append_assoc]
      exact List.mem_filter.mpr ⟨hf a (b ++ u) ha, by simp [hne]⟩
    · exact List.mem_map.mpr ⟨(b, u), ih (by omega) (by omega) hb, rfl⟩

theorem length_le_of_mem_pow {L : Language α} (hnil : [] ∉ L) {n : Nat} (h : w ∈ L ^ n) :
    n ≤ w.length := by
  induction n generalizing w with
  | zero => exact Nat.zero_le _
  | succ n ih =>
    rw [pow_succ', Language.mem_mul] at h
    obtain ⟨a, ha, b, hb, rfl⟩ := h
    have hpos : 0 < a.length := List.length_pos_of_ne_nil fun h => hnil (h ▸ ha)
    have := ih hb
    rw [List.length_append]
    omega

theorem results_sound (h : (w, u) ∈ r.results t) : t = w ++ u ∧ w ∈ r.lang := by
  induction r generalizing t w u with
  | cls p =>
    cases t with
    | nil => exact nomatch h
    | cons c t =>
      by_cases hc : p c = true
      · rw [results, if_pos hc, List.mem_singleton, Prod.mk.injEq] at h
        obtain ⟨rfl, rfl⟩ := h
        exact ⟨rfl, c, hc, rfl⟩
      · rw [results, if_neg hc] at h
        exact nomatch h
  | seq r s ihr ihs =>
    obtain ⟨x, hx, h⟩ := List.mem_flatMap.mp h
    obtain ⟨y, hy, heq⟩ := List.mem_map.mp h
    obtain ⟨rfl, rfl⟩ := Prod.mk.inj heq
    obtain ⟨rfl, hxr⟩ := ihr hx
    obtain ⟨hrest, hys⟩ := ihs hy
    exact ⟨by rw [List.append_assoc, ← hrest], Language.append_mem_mul hxr hys⟩
  | alt r s ihr ihs =>
    rcases List.mem_append.mp h with h | h
    · exact ⟨(ihr h).1, mem_lang_alt.mpr (.inl (ihr h).2)⟩
    · exact ⟨(ihs h).1, mem_lang_alt.mpr (.inr (ihs h).2)⟩
  | rep r min max ih =>
    obtain ⟨ht, n, hmin, hle, hw⟩ := repeated_sound (fun _ _ _ h => ih h) h
    refine ⟨ht, n, hmin, fun k hk => ?_, hw⟩
    rwa [Option.mem_def.mp hk] at hle

theorem results_complete (hr : r.proper = true) (h : w ∈ r.lang) :
    (w, u) ∈ r.results (w ++ u) := by
  induction r generalizing w u with
  | cls p =>
    obtain ⟨c, hc, rfl⟩ := h
    simp [results, hc]
  | seq r s ihr ihs =>
    obtain ⟨hr, hs⟩ := Bool.and_eq_true_iff.mp hr
    obtain ⟨a, ha, b, hb, rfl⟩ := mem_lang_seq.mp h
    refine List.mem_flatMap.mpr ⟨(a, b ++ u), ?_, List.mem_map.mpr ⟨(b, u), ihs hs hb, rfl⟩⟩
    rw [List.append_assoc]
    exact ihr hr ha
  | alt r s ihr ihs =>
    obtain ⟨hr, hs⟩ := Bool.and_eq_true_iff.mp hr
    rcases mem_lang_alt.mp h with h | h
    · exact List.mem_append_left _ (ihr hr h)
    · exact List.mem_append_right _ (ihs hs h)
  | rep r min max ih =>
    obtain ⟨hr, hnull⟩ := Bool.and_eq_true_iff.mp hr
    obtain ⟨n, hmin, hmax, hw⟩ := mem_lang_rep.mp h
    have hnil : [] ∉ r.lang := fun h => absurd (nullable_of_nil_mem h) (by simpa using hnull)
    refine repeated_complete (fun _ _ h => ih hr h) hnil hmin ?_ hw
    cases max with
    | none =>
      have := length_le_of_mem_pow hnil hw
      rw [Option.getD_none, List.length_append]
      omega
    | some k => exact hmax k rfl

/-- What the matcher finds are the prefixes in the language. -/
theorem mem_results_iff (hr : r.proper = true) :
    (w, u) ∈ r.results t ↔ t = w ++ u ∧ w ∈ r.lang := by
  refine ⟨results_sound, ?_⟩
  rintro ⟨rfl, h⟩
  exact results_complete hr h

/-! ## First and last symbols -/

/-- Every word of the language starts with a symbol of `P`. -/
def Starts (P : α → Prop) (r : Regex α) : Prop := ∀ w ∈ r.lang, ∀ c ∈ w.head?, P c

/-- Every word of the language ends with a symbol of `P`. -/
def Ends (P : α → Prop) (r : Regex α) : Prop := ∀ w ∈ r.lang, ∀ c ∈ w.getLast?, P c

section Starts

variable {P : α → Prop}

theorem starts_cls {p : α → Bool} (h : ∀ c, p c = true → P c) : (cls p).Starts P := by
  rintro w ⟨c, hc, rfl⟩ d hd
  obtain rfl : c = d := by simpa using hd
  exact h c hc

theorem ends_cls {p : α → Bool} (h : ∀ c, p c = true → P c) : (cls p).Ends P := by
  rintro w ⟨c, hc, rfl⟩ d hd
  obtain rfl : c = d := by simpa using hd
  exact h c hc

theorem Starts.seq (hr : r.Starts P) (hn : r.nullable = false ∨ s.Starts P) :
    (seq r s).Starts P := by
  intro w hw c hc
  obtain ⟨a, ha, b, hb, rfl⟩ := mem_lang_seq.mp hw
  by_cases hne : a = []
  · subst hne
    rcases hn with hn | hs
    · exact absurd rfl (ne_nil_of_mem hn ha)
    · exact hs b hb c hc
  · rw [List.head?_append_of_ne_nil _ hne] at hc
    exact hr a ha c hc

theorem Ends.seq (hs : s.Ends P) (hn : s.nullable = false ∨ r.Ends P) : (seq r s).Ends P := by
  intro w hw c hc
  obtain ⟨a, ha, b, hb, rfl⟩ := mem_lang_seq.mp hw
  by_cases hne : b = []
  · subst hne
    rw [List.append_nil] at hc
    rcases hn with hn | hr
    · exact absurd rfl (ne_nil_of_mem hn hb)
    · exact hr a ha c hc
  · rw [List.getLast?_append_of_ne_nil _ hne] at hc
    exact hs b hb c hc

theorem Starts.alt (hr : r.Starts P) (hs : s.Starts P) : (alt r s).Starts P := fun w hw =>
  (mem_lang_alt.mp hw).elim (hr w) (hs w)

theorem Starts.rep (hr : r.Starts P) (min : Nat) (max : Option Nat) :
    (rep r min max).Starts P := by
  rintro w ⟨n, -, -, hw⟩ c hc
  induction n generalizing w with
  | zero =>
    rw [pow_zero, Language.mem_one] at hw
    subst hw
    exact nomatch hc
  | succ n ih =>
    rw [pow_succ', Language.mem_mul] at hw
    obtain ⟨a, ha, b, hb, rfl⟩ := hw
    by_cases hne : a = []
    · subst hne
      exact ih b hb hc
    · rw [List.head?_append_of_ne_nil _ hne] at hc
      exact hr a ha c hc

theorem Ends.rep (hr : r.Ends P) (min : Nat) (max : Option Nat) : (rep r min max).Ends P := by
  rintro w ⟨n, -, -, hw⟩ c hc
  induction n generalizing w with
  | zero =>
    rw [pow_zero, Language.mem_one] at hw
    subst hw
    exact nomatch hc
  | succ n ih =>
    rw [pow_succ, Language.mem_mul] at hw
    obtain ⟨a, ha, b, hb, rfl⟩ := hw
    by_cases hne : b = []
    · subst hne
      rw [List.append_nil] at hc
      exact ih a ha hc
    · rw [List.getLast?_append_of_ne_nil _ hne] at hc
      exact hr b hb c hc

end Starts

/-- Any symbols of `P` may be added to a word of the language. -/
def Extends (P : α → Prop) (r : Regex α) : Prop :=
  ∀ w ∈ r.lang, ∀ d : List α, (∀ c ∈ d, P c) → w ++ d ∈ r.lang

theorem extends_rep_cls {p : α → Bool} {P : α → Prop} (h : ∀ c, P c → p c = true) (min : Nat) :
    (rep (cls p) min none).Extends P := by
  intro w hw d hd
  obtain ⟨hmin, -, hall⟩ := mem_lang_rep_cls.mp hw
  refine mem_lang_rep_cls.mpr ⟨?_, nofun, fun c hc => ?_⟩
  · rw [List.length_append]
    omega
  · rcases List.mem_append.mp hc with hc | hc
    · exact hall c hc
    · exact h c (hd c hc)

theorem Extends.seq {P : α → Prop} (h : s.Extends P) : (seq r s).Extends P := by
  intro w hw d hd
  obtain ⟨a, ha, b, hb, rfl⟩ := mem_lang_seq.mp hw
  exact mem_lang_seq.mpr ⟨a, ha, b ++ d, h b hb d hd, (List.append_assoc a b d).symm⟩

theorem Extends.alt {P : α → Prop} (hr : r.Extends P) (hs : s.Extends P) :
    (alt r s).Extends P := fun w hw d hd =>
  mem_lang_alt.mpr ((mem_lang_alt.mp hw).imp (hr w · d hd) (hs w · d hd))

/-! ## Greed -/

/-- The first result leaves no symbol of `p` at the head of the rest. -/
def Munches (r : Regex α) (p : α → Bool) : Prop :=
  ∀ t w u, (r.results t).head? = some (w, u) → u.head?.any p = false

theorem Munches.seq {p : α → Bool} (h : s.Munches p) : (seq r s).Munches p := by
  intro t w u hw
  rw [results, List.head?_flatMap] at hw
  obtain ⟨x, -, hx⟩ := List.exists_of_findSome?_eq_some hw
  rw [List.head?_map, Option.map_eq_some_iff] at hx
  obtain ⟨⟨y, v⟩, hy, heq⟩ := hx
  obtain ⟨-, rfl⟩ := Prod.mk.inj heq
  exact h x.2 y v hy

theorem repeated_zero_ne_nil (f : List α → List (List α × List α)) (bound : Nat) (t : List α) :
    repeated f bound 0 t ≠ [] := by
  cases bound <;> simp [repeated]

theorem repeated_cls_munches (p : α → Bool) {bound min : Nat} (hb : min + t.length ≤ bound)
    (h : (repeated (cls p).results bound min t).head? = some (w, u)) :
    u.head?.any p = false := by
  induction t generalizing bound min w with
  | nil =>
    -- nothing is left of an empty text
    obtain ⟨ht, -⟩ := repeated_sound (fun _ _ _ h => results_sound h) (List.mem_of_mem_head? h)
    rw [(List.append_eq_nil_iff.mp ht.symm).2]
    rfl
  | cons c t ih =>
    rw [List.length_cons] at hb
    obtain ⟨bound, rfl⟩ : ∃ b, bound = b + 1 := ⟨bound - 1, by omega⟩
    by_cases hc : p c = true
    · have hone : (results (cls p) (c :: t)).filter
          (fun x => decide (min ≠ 0) || !x.1.isEmpty) = [([c], t)] := by
        simp [results, hc]
      rw [repeated, hone, List.flatMap_singleton, List.head?_append, List.head?_map] at h
      cases hr : (repeated (cls p).results bound (min - 1) t).head? with
      | some x =>
        obtain ⟨y, v⟩ := x
        rw [hr] at h
        obtain ⟨-, rfl⟩ := Prod.mk.inj (Option.some.inj h)
        exact ih (by omega) hr
      | none =>
        -- then more repetitions are due than there are symbols
        have hm : min ≠ 0 := by
          rintro rfl
          exact repeated_zero_ne_nil _ _ _ (List.head?_eq_none_iff.mp hr)
        simp [hr, hm] at h
    · have hnone : results (cls p) (c :: t) = [] := by simp [results, hc]
      rw [repeated, hnone] at h
      by_cases hm : min = 0
      · obtain ⟨-, rfl⟩ : w = [] ∧ c :: t = u := by simpa [hm, eq_comm] using h
        simpa using hc
      · simp [hm] at h

/-- A repetition of a class takes all there is. -/
theorem munches_rep_cls (p : α → Bool) (min : Nat) : (rep (cls p) min none).Munches p :=
  fun _ _ _ h => repeated_cls_munches p (le_refl _) h

/-! ## Other alphabets -/

section Comap

variable {β : Type} (f : (α → Bool) → β → Bool)

/-- The same expression over other symbols. -/
def mapCls : Regex α → Regex β
  | cls p => cls (f p)
  | seq r s => seq (mapCls r) (mapCls s)
  | alt r s => alt (mapCls r) (mapCls s)
  | rep r min max => rep (mapCls r) min max

@[simp] theorem nullable_mapCls (r : Regex α) : (r.mapCls f).nullable = r.nullable := by
  induction r with
  | cls p => rfl
  | seq r s ihr ihs => simp [mapCls, nullable, ihr, ihs]
  | alt r s ihr ihs => simp [mapCls, nullable, ihr, ihs]
  | rep r min max ih => simp [mapCls, nullable, ih]

@[simp] theorem proper_mapCls (r : Regex α) : (r.mapCls f).proper = r.proper := by
  induction r with
  | cls p => rfl
  | seq r s ihr ihs => simp [mapCls, proper, ihr, ihs]
  | alt r s ihr ihs => simp [mapCls, proper, ihr, ihs]
  | rep r min max ih => simp [mapCls, proper, ih]

end Comap

section Repeated

variable {β : Type} {f : List α → List (List α × List α)} {g : List β → List (List β × List β)}

/-- Repetitions carry over along a map of texts. -/
theorem repeated_map (φ : List β → List α) (happend : ∀ v w, φ (v ++ w) = φ v ++ φ w)
    (hempty : ∀ v, (φ v).isEmpty = v.isEmpty) (hf : ∀ t, f (φ t) = (g t).map (Prod.map φ φ))
    (bound min : Nat) (t : List β) :
    repeated f bound min (φ t) = (repeated g bound min t).map (Prod.map φ φ) := by
  have hnil : φ [] = [] := List.isEmpty_iff.mp (hempty [])
  induction bound generalizing min t with
  | zero => by_cases hm : min = 0 <;> simp [repeated, hm, hnil]
  | succ bound ih =>
    rw [repeated, repeated, hf, List.map_append, List.filter_map, List.flatMap_map,
      List.map_flatMap]
    congr 1
    · have hfilter : (fun x : List α × List α => decide (min ≠ 0) || !x.1.isEmpty) ∘ Prod.map φ φ =
          fun x => decide (min ≠ 0) || !x.1.isEmpty := by
        funext x
        simp [hempty]
      rw [hfilter]
      refine List.flatMap_congr fun x _ => ?_
      rw [Prod.map_snd, ih, List.map_map, List.map_map]
      refine List.map_congr_left fun y _ => ?_
      simp [happend]
    · by_cases hm : min = 0 <;> simp [hm, hnil]

/-- More than enough repetitions are allowed. -/
theorem repeated_le (hf : ∀ t w u, (w, u) ∈ f t → t = w ++ u) {bound bound' min : Nat}
    (hle : bound ≤ bound') {t : List α} (hb : min + t.length ≤ bound) :
    repeated f bound' min t = repeated f bound min t := by
  have hnext {b m : Nat} {t : List α} (hb : m + t.length ≤ b + 1) {x : List α × List α}
      (hx : x ∈ (f t).filter fun x => decide (m ≠ 0) || !x.1.isEmpty) :
      (m - 1) + x.2.length ≤ b := by
    obtain ⟨hmem, hx⟩ := List.mem_filter.mp hx
    rw [hf t x.1 x.2 hmem, List.length_append] at hb
    have : m ≠ 0 ∨ 0 < x.1.length := by
      simpa [List.isEmpty_iff, List.length_pos_iff] using hx
    omega
  induction bound generalizing bound' min t with
  | zero =>
    obtain ⟨rfl, ht⟩ : min = 0 ∧ t.length = 0 := by omega
    obtain rfl := List.length_eq_zero_iff.mp ht
    cases bound' with
    | zero => rfl
    | succ bound' =>
      have hnone : (f []).filter (fun x => decide (0 ≠ 0) || !x.1.isEmpty) = [] := by
        refine List.filter_eq_nil_iff.mpr fun x hx => ?_
        rw [(List.append_eq_nil_iff.mp (hf [] x.1 x.2 hx).symm).1]
        simp
      conv_lhs => rw [repeated, hnone]
      rfl
  | succ bound ih =>
    obtain ⟨bound', rfl⟩ : ∃ b, bound' = b + 1 := ⟨bound' - 1, by omega⟩
    rw [repeated, repeated]
    congr 1
    refine List.flatMap_congr fun x hx => ?_
    rw [ih (Nat.le_of_succ_le_succ hle) (hnext hb hx)]

end Repeated

/-- No class of the expression has the symbol. -/
def rejects : Regex α → α → Bool
  | cls p, c => !p c
  | seq r s, c => rejects r c && rejects s c
  | alt r s, c => rejects r c && rejects s c
  | rep r _ _, c => rejects r c

theorem not_mem_pow {L : Language α} {c : α} (hL : ∀ w ∈ L, c ∉ w) {n : Nat} (h : w ∈ L ^ n) :
    c ∉ w := by
  induction n generalizing w with
  | zero =>
    rw [pow_zero, Language.mem_one] at h
    simp [h]
  | succ n ih =>
    rw [pow_succ', Language.mem_mul] at h
    obtain ⟨a, ha, b, hb, rfl⟩ := h
    simp [hL a ha, ih hb]

theorem not_mem_of_rejects {c : α} (hc : r.rejects c = true) (h : w ∈ r.lang) : c ∉ w := by
  induction r generalizing w with
  | cls p =>
    obtain ⟨d, hd, rfl⟩ := h
    rw [List.mem_singleton]
    rintro rfl
    simp [rejects, hd] at hc
  | seq r s ihr ihs =>
    obtain ⟨hr, hs⟩ := Bool.and_eq_true_iff.mp hc
    obtain ⟨a, ha, b, hb, rfl⟩ := mem_lang_seq.mp h
    simp [ihr hr ha, ihs hs hb]
  | alt r s ihr ihs =>
    obtain ⟨hr, hs⟩ := Bool.and_eq_true_iff.mp hc
    rcases mem_lang_alt.mp h with h | h
    · exact ihr hr h
    · exact ihs hs h
  | rep r min max ih =>
    obtain ⟨n, -, -, hn⟩ := mem_lang_rep.mp h
    exact not_mem_pow (fun w hw => ih hc hw) hn

end Regex

/-! ## Patterns -/

/-- What is asked of the symbols before and after a position; `none` is an end of the text. -/
inductive Assertion (α : Type) where
  | always
  /-- `(?<!p)` -/
  | notBehind (p : α → Bool)
  /-- `(?!p)` -/
  | notAhead (p : α → Bool)
  /-- `\b` -/
  | boundary (word : α → Bool)

def Assertion.holds {α : Type} : Assertion α → (before after : Option α) → Bool
  | always, _, _ => true
  | notBehind p, before, _ => !before.any p
  | notAhead p, _, after => !after.any p
  | boundary word, before, after => before.any word != after.any word

/-- An expression between two assertions. It does not match the empty text. -/
structure Pattern (α : Type) where
  before : Assertion α
  body : Regex α
  after : Assertion α
  proper : body.proper = true
  nonempty : body.nullable = false

namespace Pattern

variable {α : Type} (pat : Pattern α)

/-- `w` matches where it has `b` before it and `a` after it. -/
def Fits (b : Option α) (w : List α) (a : Option α) : Prop :=
  w ∈ pat.body.lang ∧ pat.before.holds b w.head? = true ∧ pat.after.holds w.getLast? a = true

/-- Some part of the text matches, with its neighbours in the text. -/
def Occurs (t : List α) : Prop :=
  ∃ pre w post, t = pre ++ w ++ post ∧ pat.Fits pre.getLast? w post.head?

/-- The match at the head of a text that has `b` before it, with the rest of the text. -/
def matchAt (b : Option α) (t : List α) : Option (List α × List α) :=
  if pat.before.holds b t.head? then
    (pat.body.results t).find? fun x => pat.after.holds x.1.getLast? x.2.head?
  else none

variable {pat} {b a : Option α} {w t u : List α}

theorem Fits.ne_nil (h : pat.Fits b w a) : w ≠ [] := Regex.ne_nil_of_mem pat.nonempty h.1

theorem fits_of_matchAt (h : pat.matchAt b t = some (w, u)) :
    t = w ++ u ∧ pat.Fits b w u.head? := by
  unfold matchAt at h
  by_cases hb : pat.before.holds b t.head? = true
  · rw [if_pos hb] at h
    obtain ⟨rfl, hw⟩ := Regex.results_sound (List.mem_of_find?_eq_some h)
    have hne : w ≠ [] := Regex.ne_nil_of_mem pat.nonempty hw
    rw [List.head?_append_of_ne_nil _ hne] at hb
    exact ⟨rfl, hw, hb, by simpa using List.find?_some h⟩
  · rw [if_neg hb] at h
    exact nomatch h

theorem not_fits_of_matchAt (h : pat.matchAt b (w ++ u) = none) : ¬ pat.Fits b w u.head? := by
  intro hw
  obtain ⟨hlang, hb, ha⟩ := id hw
  rw [matchAt, List.head?_append_of_ne_nil _ hw.ne_nil, if_pos hb, List.find?_eq_none] at h
  exact h (w, u) (Regex.results_complete pat.proper hlang) ha

end Pattern

/-! ## Cutting a text -/

/-- A symbol that no match covers, or a match. -/
inductive Piece (α : Type) where
  | kept (c : α)
  | hit (w : List α)

namespace Piece

variable {α : Type}

/-- The part of the text that a piece stands for. -/
def source : Piece α → List α
  | kept c => [c]
  | hit w => w

/-- What replaces a piece when `f` replaces the matches. -/
def replaced (f : List α → List α) : Piece α → List α
  | kept c => [c]
  | hit w => f w

def isHit : Piece α → Bool
  | kept _ => false
  | hit _ => true

end Piece

namespace Pattern

variable {α : Type} (pat : Pattern α)

/-- Scans a text that has `b` before it. The first `skip` symbols belong to a match. -/
def pieces : (skip : Nat) → (b : Option α) → List α → List (Piece α)
  | _, _, [] => []
  | skip + 1, _, c :: t => pieces skip (some c) t
  | 0, b, c :: t =>
    match pat.matchAt b (c :: t) with
    | some (w, _) => .hit w :: pieces (w.length - 1) (some c) t
    | none => .kept c :: pieces 0 (some c) t

/-- All matches of a text, as a global search finds them, and what is between them. -/
def cut (t : List α) : List (Piece α) := pat.pieces 0 none t

/-- Replaces all matches. -/
def replaceAll (f : List α → List α) (t : List α) : List α :=
  (pat.cut t).flatMap (Piece.replaced f)

/-- `ps` is the cut of a text that has `b` before it. -/
inductive Cuts : Option α → List α → List (Piece α) → Prop where
  | nil {b} : Cuts b [] []
  | kept {b c t ps} : pat.matchAt b (c :: t) = none → Cuts (some c) t ps →
      Cuts b (c :: t) (.kept c :: ps)
  | hit {b w t ps} : pat.matchAt b (w ++ t) = some (w, t) → Cuts w.getLast? t ps →
      Cuts b (w ++ t) (.hit w :: ps)

variable {pat} {b : Option α} {t : List α} {ps qs : List (Piece α)}

theorem pieces_skip (b : Option α) {w : List α} (hw : w ≠ []) (t : List α) :
    pat.pieces w.length b (w ++ t) = pat.pieces 0 w.getLast? t := by
  induction w generalizing b with
  | nil => exact absurd rfl hw
  | cons c w ih =>
    rw [List.length_cons, List.cons_append, pieces]
    by_cases h : w = []
    · subst h
      rfl
    · rw [ih (some c) h, List.getLast?_cons_of_ne_nil h]

theorem pieces_hit {w u : List α} (h : pat.matchAt b (w ++ u) = some (w, u)) :
    pat.pieces 0 b (w ++ u) = .hit w :: pat.pieces 0 w.getLast? u := by
  obtain ⟨c, w, rfl⟩ := List.exists_cons_of_ne_nil (fits_of_matchAt h).2.ne_nil
  rw [List.cons_append] at h ⊢
  simp only [pieces, h, List.length_cons, Nat.add_sub_cancel]
  by_cases hw : w = []
  · subst hw
    rfl
  · rw [pieces_skip _ hw, List.getLast?_cons_of_ne_nil hw]

theorem cuts_pieces (b : Option α) (t : List α) : pat.Cuts b t (pat.pieces 0 b t) := by
  induction h : t.length using Nat.strong_induction_on generalizing b t with
  | _ n ih =>
    cases t with
    | nil => exact .nil
    | cons c t =>
      cases hm : pat.matchAt b (c :: t) with
      | none =>
        rw [pieces, hm]
        exact .kept hm (ih t.length (by simp [← h]) _ _ rfl)
      | some x =>
        obtain ⟨w, u⟩ := x
        obtain ⟨ht, hfits⟩ := fits_of_matchAt hm
        have hpos : 0 < w.length := List.length_pos_of_ne_nil hfits.ne_nil
        rw [ht] at hm h ⊢
        rw [pieces_hit hm]
        exact .hit hm (ih u.length (by rw [← h, List.length_append]; omega) _ _ rfl)

theorem cuts_cut (pat : Pattern α) (t : List α) : pat.Cuts none t (pat.cut t) := cuts_pieces none t

/-- A text has one cut. -/
theorem Cuts.eq_pieces (h : pat.Cuts b t ps) : ps = pat.pieces 0 b t := by
  induction h with
  | nil => rfl
  | kept hm _ ih => rw [pieces, hm, ih]
  | hit hm _ ih => rw [pieces_hit hm, ih]

theorem Cuts.source (h : pat.Cuts b t ps) : ps.flatMap Piece.source = t := by
  induction h with
  | nil => rfl
  | kept _ _ ih => rw [List.flatMap_cons, ih]; rfl
  | hit _ _ ih => rw [List.flatMap_cons, ih]; rfl

theorem Cuts.tail_at {p : Piece α} (h : pat.Cuts b t (ps ++ p :: qs)) :
    pat.Cuts ((ps.flatMap Piece.source).getLast?.or b) (p.source ++ qs.flatMap Piece.source)
      (p :: qs) := by
  induction ps generalizing b t with
  | nil =>
    have hs := h.source
    rw [List.nil_append, List.flatMap_cons] at hs
    rwa [hs]
  | cons q ps ih =>
    cases h with
    | @kept _ c _ _ hm h =>
      have hlast : (([c] ++ ps.flatMap Piece.source).getLast?).or b =
          (ps.flatMap Piece.source).getLast?.or (some c) := by
        rw [List.getLast?_append]
        cases (ps.flatMap Piece.source).getLast? <;> rfl
      rw [List.flatMap_cons, Piece.source, hlast]
      exact ih h
    | @hit _ w _ _ hm h =>
      have hne : w ≠ [] := (fits_of_matchAt hm).2.ne_nil
      have hlast : ((w ++ ps.flatMap Piece.source).getLast?).or b =
          (ps.flatMap Piece.source).getLast?.or w.getLast? := by
        rw [List.getLast?_append, List.getLast?_eq_some_getLast hne]
        cases (ps.flatMap Piece.source).getLast? <;> rfl
      rw [List.flatMap_cons, Piece.source, hlast]
      exact ih h

/-- At a kept symbol the search found nothing. -/
theorem kept_at {c : α} (h : pat.cut t = ps ++ .kept c :: qs) :
    pat.matchAt (ps.flatMap Piece.source).getLast? (c :: qs.flatMap Piece.source) = none := by
  have hcut := cuts_cut pat t
  rw [h] at hcut
  have hat := hcut.tail_at
  rw [Option.or_none] at hat
  generalize ht : (Piece.kept c).source ++ qs.flatMap Piece.source = t' at hat
  cases hat with
  | kept hm hrest =>
    obtain ⟨-, rfl⟩ := List.cons.inj ht
    exact hm

/-- A match is what the search found where it starts. -/
theorem hit_at {w : List α} (h : pat.cut t = ps ++ .hit w :: qs) :
    pat.matchAt (ps.flatMap Piece.source).getLast? (w ++ qs.flatMap Piece.source) =
      some (w, qs.flatMap Piece.source) := by
  have hcut := cuts_cut pat t
  rw [h] at hcut
  have hat := hcut.tail_at
  rw [Option.or_none] at hat
  generalize ht : (Piece.hit w).source ++ qs.flatMap Piece.source = t' at hat
  cases hat with
  | hit hm hrest =>
    rw [List.append_cancel_left ht]
    exact hm

theorem source_cut (pat : Pattern α) (t : List α) : (pat.cut t).flatMap Piece.source = t :=
  (cuts_cut pat t).source

/-- A cut without matches is the text itself. -/
theorem Cuts.eq_map (h : pat.Cuts b t ps) (hps : ∀ w, .hit w ∉ ps) : ps = t.map .kept := by
  induction h with
  | nil => rfl
  | kept _ _ ih =>
    rw [ih fun w hw => hps w (List.mem_cons_of_mem _ hw)]
    rfl
  | hit _ _ _ => exact absurd List.mem_cons_self (hps _)

/-- A pattern occurs in a text exactly if its cut has a match. -/
theorem occurs_iff_hit (t : List α) : pat.Occurs t ↔ ∃ w, .hit w ∈ pat.cut t := by
  constructor
  · rintro ⟨pre, w, post, rfl, hw⟩
    by_contra hnone
    have hcut := (cuts_cut pat (pre ++ w ++ post)).eq_map (not_exists.mp hnone)
    obtain ⟨c, w, rfl⟩ := List.exists_cons_of_ne_nil hw.ne_nil
    have hps : pat.cut (pre ++ c :: w ++ post) =
        pre.map .kept ++ .kept c :: (w ++ post).map .kept := by rw [hcut]; simp
    have hat := kept_at hps
    rw [List.flatMap_map, List.flatMap_map] at hat
    simp only [Piece.source, List.flatMap_singleton'] at hat
    exact not_fits_of_matchAt hat hw
  · rintro ⟨w, hw⟩
    obtain ⟨ps, qs, hps⟩ := List.append_of_mem hw
    obtain ⟨-, hfits⟩ := fits_of_matchAt (hit_at hps)
    refine ⟨_, w, _, ?_, hfits⟩
    rw [← source_cut pat t, hps, List.flatMap_append, List.flatMap_cons,
      List.append_assoc]
    rfl

/-- Where a pattern does not occur, there is nothing to replace. -/
theorem replaceAll_of_not_occurs (f : List α → List α) (h : ¬ pat.Occurs t) :
    pat.replaceAll f t = t := by
  rw [occurs_iff_hit, not_exists] at h
  rw [replaceAll, (cuts_cut pat t).eq_map h, List.flatMap_map]
  exact List.flatMap_singleton' t

end Pattern
