import Harp.Lib.Text

/-
  Taking every occurrence of a pattern out of a text (`s.replace(/sub/g, "")`).

  A character that no occurrence can hold cuts the text in two that are treated apart
  (`removeAllBy_cut`). So a text that is put together of pieces is cleaned piece by piece
  (`Removes`), and an escaping that only adds such characters commutes with the removal
  (`removeAllBy_flatMap`).
-/

namespace Js

section

variable (eq : Char → Char → Bool) (sub : List Char)

/-- No character of the pattern matches `c`. -/
def Foreign (c : Char) : Prop := ∀ p ∈ sub, eq p c = false

/-- No occurrence opens with `c`. -/
def NoOpening (c : Char) : Prop := Foreign eq (sub.take 1) c

instance (c : Char) : Decidable (Foreign eq sub c) :=
  List.decidableBAll (fun p => eq p c = false) sub

instance (c : Char) : Decidable (NoOpening eq sub c) :=
  List.decidableBAll (fun p => eq p c = false) (sub.take 1)

/-- The removal turns the piece into `cleaned`, whatever stands behind it. -/
def Removes (piece cleaned : List Char) : Prop :=
  ∀ rest, removeAllBy eq sub 0 (piece ++ rest) = cleaned ++ removeAllBy eq sub 0 rest

end

variable {eq : Char → Char → Bool} {sub : List Char}

theorem Foreign.noOpening {c : Char} (h : Foreign eq sub c) : NoOpening eq sub c :=
  fun p hp => h p (List.mem_of_mem_take hp)

/-! ## Occurrences -/

theorem length_of_startsWithBy {cs : List Char} (h : startsWithBy eq sub cs = true) :
    sub.length ≤ cs.length := by
  induction sub generalizing cs with
  | nil => exact Nat.zero_le _
  | cons p ps ih =>
    cases cs with
    | nil => cases h
    | cons c cs =>
      have htail := ih (Bool.and_eq_true_iff.mp h).2
      simp only [List.length_cons]
      omega

theorem startsWithBy_cut {b : Char} (hb : Foreign eq sub b) (xs ys : List Char) :
    startsWithBy eq sub (xs ++ b :: ys) = startsWithBy eq sub xs := by
  induction sub generalizing xs with
  | nil => cases xs <;> rfl
  | cons p ps ih =>
    have hps : Foreign eq ps b := fun q hq => hb q (List.mem_cons_of_mem _ hq)
    cases xs with
    | nil => simp [startsWithBy, hb p List.mem_cons_self]
    | cons x xs => simp only [List.cons_append, startsWithBy, ih hps]

theorem startsWithBy_noOpening {c : Char} (hne : sub ≠ []) (hc : NoOpening eq sub c)
    (cs : List Char) : startsWithBy eq sub (c :: cs) = false := by
  cases sub with
  | nil => exact absurd rfl hne
  | cons p ps => simp [startsWithBy, hc p List.mem_cons_self]

/-- A pattern occurs wherever one occurs that it opens. -/
theorem includesBy_mono {eq' : Char → Char → Bool} {sub' : List Char}
    (h : ∀ cs, startsWithBy eq sub cs = true → startsWithBy eq' sub' cs = true) {cs : List Char}
    (hcs : includesBy eq sub cs = true) : includesBy eq' sub' cs = true := by
  induction cs with
  | nil => exact h [] hcs
  | cons c cs ih =>
    rcases Bool.or_eq_true_iff.mp hcs with hstart | hrest
    · exact Bool.or_eq_true_iff.mpr (.inl (h _ hstart))
    · exact Bool.or_eq_true_iff.mpr (.inr (ih hrest))

/-- A text without a match of the pattern's first character. -/
theorem not_includesBy_cons {p : Char} {ps cs : List Char} (h : ∀ c ∈ cs, eq p c = false) :
    includesBy eq (p :: ps) cs = false := by
  induction cs with
  | nil => rfl
  | cons c cs ih =>
    obtain ⟨hc, hcs⟩ := List.forall_mem_cons.mp h
    rw [includesBy, startsWithBy, hc, ih hcs]
    rfl

/-! ## What the removal leaves -/

theorem mem_of_mem_removeAllBy {k : ℕ} {c : Char} {cs : List Char}
    (h : c ∈ removeAllBy eq sub k cs) : c ∈ cs := by
  induction cs generalizing k with
  | nil => cases k <;> exact h
  | cons d cs ih =>
    cases k with
    | zero =>
      rw [removeAllBy] at h
      split at h
      · exact List.mem_cons_of_mem _ (ih h)
      · rcases List.mem_cons.mp h with rfl | h
        · exact List.mem_cons_self
        · exact List.mem_cons_of_mem _ (ih h)
    | succ k => exact List.mem_cons_of_mem _ (ih h)

theorem length_removeAllBy_le (k : ℕ) (cs : List Char) :
    (removeAllBy eq sub k cs).length ≤ cs.length := by
  induction cs generalizing k with
  | nil => cases k <;> exact Nat.le_refl _
  | cons c cs ih =>
    cases k with
    | zero =>
      have htaken := ih (sub.length - 1)
      have hkept := ih 0
      rw [removeAllBy]
      split
      · rw [List.length_cons]
        omega
      · simp only [List.length_cons]
        omega
    | succ k =>
      have htaken := ih k
      rw [removeAllBy, List.length_cons]
      omega

/-- A text without an occurrence stays. -/
theorem removeAllBy_of_not_includes {cs : List Char} (h : includesBy eq sub cs = false) :
    removeAllBy eq sub 0 cs = cs := by
  induction cs with
  | nil => rfl
  | cons c cs ih =>
    obtain ⟨hstart, hrest⟩ := Bool.or_eq_false_iff.mp h
    rw [removeAllBy, if_neg (by rw [hstart]; decide), ih hrest]

/-- A text with an occurrence gets shorter. -/
theorem length_removeAllBy_lt (hne : sub ≠ []) {cs : List Char}
    (h : includesBy eq sub cs = true) : (removeAllBy eq sub 0 cs).length < cs.length := by
  induction cs with
  | nil =>
    cases sub with
    | nil => exact absurd rfl hne
    | cons p ps => cases h
  | cons c cs ih =>
    rw [removeAllBy]
    split
    · have htaken := @length_removeAllBy_le eq sub (sub.length - 1) cs
      rw [List.length_cons]
      omega
    · next hstart =>
      have hrest : includesBy eq sub cs = true := by
        simpa only [includesBy, hstart, Bool.false_or] using h
      have htail := ih hrest
      simp only [List.length_cons]
      omega

theorem not_includes_of_length (hne : sub ≠ []) {cs : List Char}
    (h : cs.length ≤ (removeAllBy eq sub 0 cs).length) : includesBy eq sub cs = false := by
  cases hincludes : includesBy eq sub cs with
  | false => rfl
  | true => exact absurd (length_removeAllBy_lt hne hincludes) (Nat.not_lt.mpr h)

/-! ## Cutting the text -/

theorem removeAllBy_cut_aux {b : Char} (hne : sub ≠ []) (hb : Foreign eq sub b)
    (ys : List Char) (xs : List Char) (k : ℕ) (hk : k ≤ xs.length) :
    removeAllBy eq sub k (xs ++ b :: ys) =
      removeAllBy eq sub k xs ++ b :: removeAllBy eq sub 0 ys := by
  induction xs generalizing k with
  | nil =>
    obtain rfl : k = 0 := Nat.le_zero.mp hk
    have hstart := startsWithBy_noOpening hne hb.noOpening ys
    simp [removeAllBy, hstart]
  | cons x xs ih =>
    rw [List.length_cons] at hk
    cases k with
    | zero =>
      have hcut := startsWithBy_cut hb (x :: xs) ys
      rw [List.cons_append] at hcut
      rw [List.cons_append, removeAllBy, removeAllBy, hcut]
      split
      · next hstart =>
        have hlength := length_of_startsWithBy hstart
        rw [List.length_cons] at hlength
        exact ih _ (by omega)
      · rw [ih 0 (Nat.zero_le _), List.cons_append]
    | succ k =>
      rw [List.cons_append, removeAllBy, removeAllBy]
      exact ih k (by omega)

/-- What stands before a foreign character is cleaned apart from what stands behind it. -/
theorem removeAllBy_cut {b : Char} (hne : sub ≠ []) (hb : Foreign eq sub b)
    (xs ys : List Char) :
    removeAllBy eq sub 0 (xs ++ b :: ys) =
      removeAllBy eq sub 0 xs ++ b :: removeAllBy eq sub 0 ys :=
  removeAllBy_cut_aux hne hb ys xs 0 (Nat.zero_le _)

/-! ## Pieces -/

theorem Removes.append {p p' q q' : List Char} (hp : Removes eq sub p p')
    (hq : Removes eq sub q q') : Removes eq sub (p ++ q) (p' ++ q') := by
  intro rest
  rw [List.append_assoc, hp, hq, List.append_assoc]

theorem Removes.cons {c : Char} {p p' : List Char} (hne : sub ≠ []) (hc : NoOpening eq sub c)
    (hp : Removes eq sub p p') : Removes eq sub (c :: p) (c :: p') := by
  intro rest
  have hstart := startsWithBy_noOpening hne hc (p ++ rest)
  rw [List.cons_append, removeAllBy, if_neg (by rw [hstart]; decide), hp, List.cons_append]

/-- A piece that holds no opening stays. -/
theorem Removes.kept (hne : sub ≠ []) {p : List Char} (hp : ∀ c ∈ p, NoOpening eq sub c) :
    Removes eq sub p p := by
  induction p with
  | nil => exact fun rest => rfl
  | cons c p ih =>
    exact .cons hne (hp c List.mem_cons_self) (ih fun d hd => hp d (List.mem_cons_of_mem _ hd))

/-- A piece that a foreign character closes. -/
theorem Removes.closed {b : Char} (hne : sub ≠ []) (hb : Foreign eq sub b) (p : List Char) :
    Removes eq sub (p ++ [b]) (removeAllBy eq sub 0 p ++ [b]) := by
  intro rest
  simp only [List.append_assoc, List.singleton_append]
  exact removeAllBy_cut hne hb p rest

/-! ## Escaping -/

section

variable (eq sub)

/-- `f` puts for the foreign character `c` a text that opens with a foreign one and holds no
    opening. -/
def Escapes (f : Char → List Char) (c : Char) : Prop :=
  Foreign eq sub c ∧ f c ≠ [] ∧ (∀ d ∈ (f c).take 1, Foreign eq sub d) ∧
    ∀ e ∈ (f c).tail, NoOpening eq sub e

instance (f : Char → List Char) (c : Char) : Decidable (Escapes eq sub f c) :=
  decidable_of_iff (Foreign eq sub c ∧ f c ≠ [] ∧
    ((f c).take 1).all (fun d => decide (Foreign eq sub d)) = true ∧
    (f c).tail.all (fun e => decide (NoOpening eq sub e)) = true) (by simp [Escapes])

/-- Every character is escaped or left as it is. -/
def Transparent (f : Char → List Char) : Prop := ∀ c, f c = [c] ∨ Escapes eq sub f c

end

theorem flatMap_eq_self {f : Char → List Char} {cs : List Char} (h : ∀ c ∈ cs, f c = [c]) :
    cs.flatMap f = cs := by
  induction cs with
  | nil => rfl
  | cons c cs ih =>
    rw [List.flatMap_cons, h c List.mem_cons_self,
      ih fun d hd => h d (List.mem_cons_of_mem _ hd), List.singleton_append]

theorem removeAllBy_flatMap_aux {f : Char → List Char} (hne : sub ≠ [])
    (hf : Transparent eq sub f) (ys xs : List Char) (hxs : ∀ c ∈ xs, f c = [c]) :
    removeAllBy eq sub 0 (xs ++ ys.flatMap f) = (removeAllBy eq sub 0 (xs ++ ys)).flatMap f := by
  have hkept : (removeAllBy eq sub 0 xs).flatMap f = removeAllBy eq sub 0 xs :=
    flatMap_eq_self fun c hc => hxs c (mem_of_mem_removeAllBy hc)
  induction ys generalizing xs with
  | nil =>
    simp only [List.flatMap_nil, List.append_nil]
    exact hkept.symm
  | cons y ys ih =>
    rcases hf y with hy | ⟨hforeign, hnil, hhead, htail⟩
    · -- an unescaped character joins the text before it
      have hxs' : ∀ c ∈ xs ++ [y], f c = [c] := by
        intro c hc
        rcases List.mem_append.mp hc with hc | hc
        · exact hxs c hc
        · rw [List.mem_singleton.mp hc]
          exact hy
      have hrest := ih (xs ++ [y]) hxs'
        (flatMap_eq_self fun c hc => hxs' c (mem_of_mem_removeAllBy hc))
      simpa only [List.flatMap_cons, hy, List.append_assoc, List.singleton_append] using hrest
    · have hrest := ih [] (by simp) (by simp [removeAllBy])
      simp only [List.nil_append] at hrest
      obtain ⟨d, ds, hy⟩ := List.exists_cons_of_ne_nil hnil
      rw [hy] at hhead htail
      have hd : Foreign eq sub d := hhead d List.mem_cons_self
      have hpiece := Removes.kept hne htail (ys.flatMap f)
      rw [List.tail_cons] at hpiece
      rw [List.flatMap_cons, hy, List.cons_append, removeAllBy_cut hne hd, hpiece, hrest,
        removeAllBy_cut hne hforeign, List.flatMap_append, List.flatMap_cons, hkept, hy]
      rfl

/-- Such an escaping commutes with the removal. -/
theorem removeAllBy_flatMap {f : Char → List Char} (hne : sub ≠ [])
    (hf : Transparent eq sub f) (cs : List Char) :
    removeAllBy eq sub 0 (cs.flatMap f) = (removeAllBy eq sub 0 cs).flatMap f :=
  removeAllBy_flatMap_aux hne hf cs [] (by simp)

end Js
