import Harp.Lib.JsonText
import Mathlib.Algebra.Field.Rat
import Mathlib.Algebra.GroupWithZero.Basic
import Mathlib.Data.List.Basic
import Mathlib.Data.List.TakeWhile

/-
  Reading back JSON texts with numbers.

  The text of a number ends where a delimiter stands (`number_append`), so that a value is read
  back with its numbers as their texts are read (`parse_stringify_legible`). Two pairs of
  mantissa and exponent may stand for one number; `Prints` asks for the number only.
-/

namespace Json

/-! ## The end of a number -/

section Append

variable {cs rest : List Char}

theorem Delimited.not_digit (hrest : Delimited rest) : ∀ c ∈ rest.head?, isDigit c = false := by
  intro c hc
  rcases hrest c hc with rfl | rfl | rfl <;> decide

/-- The digits before a delimiter end there. -/
theorem Delimited.digits (hrest : Delimited rest) (cs : List Char) :
    (cs ++ rest).takeWhile isDigit = cs.takeWhile isDigit ∧
      (cs ++ rest).dropWhile isDigit = cs.dropWhile isDigit ++ rest := by
  induction cs with
  | nil =>
    cases rest with
    | nil => exact ⟨rfl, rfl⟩
    | cons c rest =>
      have hc : ¬ isDigit c = true := by simp [hrest.not_digit c rfl]
      exact ⟨List.takeWhile_cons_of_neg hc, List.dropWhile_cons_of_neg hc⟩
  | cons c cs ih =>
    by_cases hc : isDigit c = true
    · simp [hc, ih]
    · simp [hc]

theorem fraction_append (hrest : Delimited rest) {fs r : List Char}
    (h : fraction cs = some (fs, r)) : fraction (cs ++ rest) = some (fs, r ++ rest) := by
  unfold fraction at h ⊢
  split at h
  · simp only [List.cons_append, hrest.digits] at h ⊢
    grind
  · next hdot =>
    obtain ⟨rfl, rfl⟩ : [] = fs ∧ cs = r := by simpa using h
    split
    · next heq =>
      cases cs with
      | nil =>
        obtain rfl : rest = '.' :: _ := heq
        rcases hrest '.' rfl with h | h | h <;> cases h
      | cons c cs => exact absurd (by rw [(List.cons.inj heq).1]) (hdot cs)
    · rfl

theorem exponent_append (hrest : Delimited rest) {e : Int} {r : List Char}
    (h : exponent cs = some (e, r)) : exponent (cs ++ rest) = some (e, r ++ rest) := by
  cases cs with
  | nil =>
    obtain ⟨rfl, rfl⟩ : 0 = e ∧ [] = r := by simpa [exponent] using h
    cases rest with
    | nil => rfl
    | cons d rest =>
      have hd : ¬ (d = 'e' ∨ d = 'E') := by
        rcases hrest d rfl with rfl | rfl | rfl <;> decide
      simp [exponent, hd]
  | cons c cs =>
    by_cases hc : c = 'e' ∨ c = 'E'
    · -- the sign decides where the digits start
      simp only [exponent, hc, if_true, List.cons_append] at h ⊢
      rcases cs with _ | ⟨d, cs⟩
      · simp at h
      · simp only [List.cons_append]
        by_cases hplus : d = '+'
        · subst hplus
          simp only [hrest.digits] at h ⊢
          grind
        · by_cases hminus : d = '-'
          · subst hminus
            simp only [hrest.digits] at h ⊢
            grind
          · have hdigits := hrest.digits (d :: cs)
            rw [List.cons_append] at hdigits
            grind
    · obtain ⟨rfl, rfl⟩ : 0 = e ∧ c :: cs = r := by simpa [exponent, hc] using h
      simp [exponent, hc]

theorem unsigned_append (hrest : Delimited rest) {m e : Int} {r : List Char}
    (h : unsigned cs = some (m, e, r)) : unsigned (cs ++ rest) = some (m, e, r ++ rest) := by
  unfold unsigned at h ⊢
  rw [(hrest.digits cs).1, (hrest.digits cs).2]
  dsimp only at h ⊢
  split_ifs at h ⊢ with hdigits
  obtain ⟨⟨fs, cs'⟩, hfraction, h⟩ := Option.bind_eq_some_iff.mp h
  obtain ⟨⟨e', r'⟩, hexponent, h⟩ := Option.bind_eq_some_iff.mp h
  rw [fraction_append hrest hfraction]
  show (exponent (cs' ++ rest)).bind _ = _
  rw [exponent_append hrest hexponent]
  obtain ⟨rfl, rfl, rfl⟩ : _ = m ∧ _ = e ∧ r' = r := by simpa using h
  rfl

theorem number_append (hrest : Delimited rest) {v : Json} {r : List Char}
    (h : number cs = some (v, r)) : number (cs ++ rest) = some (v, r ++ rest) := by
  unfold number at h ⊢
  split at h
  · next cs =>
    obtain ⟨⟨m, e, r'⟩, hunsigned, heq⟩ := Option.map_eq_some_iff.mp h
    obtain ⟨rfl, rfl⟩ := Prod.mk.inj heq
    rw [List.cons_append]
    simp only [unsigned_append hrest hunsigned]
    rfl
  · next hminus =>
    obtain ⟨⟨m, e, r'⟩, hunsigned, heq⟩ := Option.map_eq_some_iff.mp h
    obtain ⟨rfl, rfl⟩ := Prod.mk.inj heq
    have hne : cs ≠ [] := by
      rintro rfl
      cases hunsigned
    obtain ⟨c, cs, rfl⟩ := List.exists_cons_of_ne_nil hne
    split
    · next heq => exact absurd (by rw [(List.cons.inj heq).1]) (hminus cs)
    · rw [unsigned_append hrest hunsigned]
      rfl

end Append

/-! ## Values with numbers -/

mutual

/-- The value with `f` applied to every number in it. -/
def mapNumbers (f : Int → Int → Int × Int) : Json → Json
  | .null => .null
  | .bool b => .bool b
  | .num m e => .num (f m e).1 (f m e).2
  | .str s => .str s
  | .arr items => .arr (mapNumberItems f items)
  | .obj ms => .obj (mapNumberMembers f ms)

def mapNumberItems (f : Int → Int → Int × Int) : List Json → List Json
  | [] => []
  | v :: rest => mapNumbers f v :: mapNumberItems f rest

def mapNumberMembers (f : Int → Int → Int × Int) : List (String × Json) → List (String × Json)
  | [] => []
  | (key, v) :: rest => (key, mapNumbers f v) :: mapNumberMembers f rest

end

section

variable (f : Int → Int → Int × Int)

theorem mapNumberItems_eq (items : List Json) :
    mapNumberItems f items = items.map (mapNumbers f) := by
  induction items with
  | nil => rfl
  | cons v items ih => rw [mapNumberItems, ih, List.map_cons]

theorem mapNumberMembers_eq (ms : List (String × Json)) :
    mapNumberMembers f ms = ms.map fun m => (m.1, mapNumbers f m.2) := by
  induction ms with
  | nil => rfl
  | cons m ms ih => rw [mapNumberMembers, ih, List.map_cons]

/-- A property is the property of the value, with its numbers changed. -/
theorem get_mapNumbers (key : String) (v : Json) :
    (v.mapNumbers f).get key = (v.get key).map (mapNumbers f) := by
  cases v with
  | obj ms =>
    rw [mapNumbers, mapNumberMembers_eq, get, get, ← List.map_reverse, List.find?_map,
      Option.map_map, Option.map_map]
    rfl
  | _ => rfl

end

section

variable (number : Int → Int → String)

/-- The text of the number is one of the same number. -/
def Prints (m e : Int) : Prop :=
  ∃ m' e' : Int, Json.number (number m e).toList = some (.num m' e', []) ∧
    (m : ℚ) * 10 ^ e = m' * 10 ^ e'

/-- The mantissa and the exponent that the text of a number is read with. -/
def reread (m e : Int) : Int × Int :=
  match Json.number (number m e).toList with
  | some (.num m' e', []) => (m', e')
  | _ => (m, e)

variable {number} in
theorem Prints.reread_eq {m e : Int} (h : Prints number m e) :
    Json.number (number m e).toList = some (.num (reread number m e).1 (reread number m e).2, []) ∧
      (m : ℚ) * 10 ^ e = (reread number m e).1 * 10 ^ (reread number m e).2 := by
  obtain ⟨m', e', hread, hvalue⟩ := h
  have heq : reread number m e = (m', e') := by rw [reread, hread]
  rw [heq]
  exact ⟨hread, hvalue⟩

/-- A value whose numbers print as themselves. -/
inductive Legible : Json → Prop
  | null : Legible .null
  | bool (b : Bool) : Legible (.bool b)
  | num {m e : Int} (h : Prints number m e) : Legible (.num m e)
  | str (s : String) : Legible (.str s)
  | arr {items : List Json} (h : ∀ v ∈ items, Legible v) : Legible (.arr items)
  | obj {ms : List (String × Json)} (h : ∀ m ∈ ms, Legible m.2) : Legible (.obj ms)

end

/-! ## Reading them back -/

theorem unsigned_head {cs : List Char} {x : Int × Int × List Char} (h : unsigned cs = some x) :
    ∃ c ∈ cs.head?, isDigit c = true := by
  unfold unsigned at h
  cases cs with
  | nil => cases h
  | cons c cs =>
    refine ⟨c, rfl, ?_⟩
    by_contra hc
    simp [hc] at h

/-- The text of a number opens with a digit or a minus sign. -/
theorem number_head {cs : List Char} {x : Json × List Char} (h : number cs = some x) :
    ∃ c ∈ cs.head?, isDigit c = true ∨ c = '-' := by
  unfold number at h
  split at h
  · exact ⟨'-', rfl, .inr rfl⟩
  · obtain ⟨y, hy, -⟩ := Option.map_eq_some_iff.mp h
    obtain ⟨c, hc, hdigit⟩ := unsigned_head hy
    exact ⟨c, hc, .inl hdigit⟩

theorem not_ws_of_opening {c : Char} (hc : isDigit c = true ∨ c = '-') : isWs c = false := by
  rcases hc with hc | rfl
  · by_contra hws
    simp only [isWs, Bool.not_eq_false, Bool.or_eq_true, beq_iff_eq] at hws
    rcases hws with ((rfl | rfl) | rfl) | rfl <;> exact absurd hc (by decide)
  · rfl

/-- A text that opens so is read as a number. -/
theorem value_number {c : Char} (hc : isDigit c = true ∨ c = '-') (n : Nat) (cs : List Char) :
    value (n + 1) (c :: cs) = number (c :: cs) := by
  have hne (d : Char) (hd : isDigit d = false) (hd' : d ≠ '-') : c ≠ d := by
    rintro rfl
    rcases hc with hc | hc
    · rw [hd] at hc
      cases hc
    · exact hd' hc
  have hn := hne 'n' (by decide) (by decide)
  have ht := hne 't' (by decide) (by decide)
  have hf := hne 'f' (by decide) (by decide)
  have hquote := hne '"' (by decide) (by decide)
  have hbracket := hne '[' (by decide) (by decide)
  have hbrace := hne '{' (by decide) (by decide)
  rw [value, skipWs_of_not (not_ws_of_opening hc)]
  grind

section

variable {number : Int → Int → String}

theorem Prints.readsAs {m e : Int} (h : Prints number m e) :
    ReadsAs number (.num m e) (.num (reread number m e).1 (reread number m e).2) := by
  intro n rest hrest hn
  obtain ⟨hread, -⟩ := h.reread_eq
  obtain ⟨c, hc, hopen⟩ := number_head hread
  obtain ⟨cs, hcs⟩ := List.head?_eq_some_iff.mp hc
  rw [stringify, hcs] at hn ⊢
  obtain ⟨k, rfl⟩ : ∃ k, n = k + 1 := ⟨n - 1, by rw [List.length_cons] at hn; omega⟩
  rw [List.cons_append, value_number hopen, ← List.cons_append, ← hcs, number_append hrest hread]
  rfl

theorem Legible.head {v : Json} (h : Legible number v) :
    ∃ c cs, stringify number v = c :: cs ∧ isWs c = false ∧ c ≠ ']' := by
  cases h with
  | null => exact ⟨_, _, rfl, by decide, by decide⟩
  | bool b => cases b <;> exact ⟨_, _, rfl, by decide, by decide⟩
  | str s => exact ⟨_, _, rfl, by decide, by decide⟩
  | arr h => exact ⟨_, _, by rw [stringify], by decide, by decide⟩
  | obj h => exact ⟨_, _, by rw [stringify], by decide, by decide⟩
  | num h =>
    obtain ⟨c, hc, hopen⟩ := number_head h.reread_eq.1
    obtain ⟨cs, hcs⟩ := List.head?_eq_some_iff.mp hc
    refine ⟨c, cs, by rw [stringify, hcs], not_ws_of_opening hopen, ?_⟩
    rintro rfl
    rcases hopen with h | h <;> exact absurd h (by decide)

theorem Legible.readsAs {v : Json} (h : Legible number v) :
    ReadsAs number v (v.mapNumbers (reread number)) := by
  induction h with
  | null => exact (Numberless.null.readsBack number).readsAs
  | bool b => exact ((Numberless.bool b).readsBack number).readsAs
  | str s => exact ((Numberless.str s).readsBack number).readsAs
  | num h => exact h.readsAs
  | arr hitems ih =>
    intro n rest _ hn
    rw [mapNumbers, mapNumberItems_eq]
    exact value_stringifyItems number (fun v hv => (hitems v hv).head) ih n rest hn
  | obj hms ih =>
    intro n rest _ hn
    rw [mapNumbers, mapNumberMembers_eq]
    exact value_stringifyMembers number ih n rest hn

/-- `JSON.parse` undoes `JSON.stringify` up to the way in which numbers are written. -/
theorem parse_stringify_legible {v : Json} (h : Legible number v) :
    parse (stringify number v) = some (v.mapNumbers (reread number)) := by
  have hread := h.readsAs (2 * (stringify number v).length + 2) [] (fun _ hc => nomatch hc)
    (by omega)
  rw [List.append_nil] at hread
  rw [parse, hread]
  rfl

end

/-! ## Integers -/

theorem digitChar_ne_zero : ∀ n, n < 10 → 0 < n → Nat.digitChar n ≠ '0' := by decide

/-- No leading zero. -/
theorem head_toDigits {n : Nat} (hn : 0 < n) : (Nat.toDigits 10 n).head? ≠ some '0' := by
  induction n using Nat.base_induction 10 (by decide) with
  | single m hm =>
    rw [Nat.toDigits_of_lt_base hm, List.head?_cons]
    exact fun h => digitChar_ne_zero m hm hn (Option.some.inj h)
  | digit m k hk hm ih =>
    rw [← Nat.toDigits_append_toDigits (by decide) hm hk,
      List.head?_append_of_ne_nil _ Nat.toDigits_ne_nil]
    exact ih hm

theorem digits_toDigits (n : Nat) : ∀ c ∈ Nat.toDigits 10 n, isDigit c = true := by
  intro c hc
  have hdigit := Nat.isDigit_of_mem_toDigits (by decide) (by decide) hc
  simpa [isDigit, Char.isDigit, Char.le_def] using hdigit

theorem unsigned_toDigits (n : Nat) : unsigned (Nat.toDigits 10 n) = some ((n : Int), 0, []) := by
  have hall := digits_toDigits n
  have htake : (Nat.toDigits 10 n).takeWhile isDigit = Nat.toDigits 10 n :=
    List.takeWhile_eq_self_iff.mpr hall
  have hdrop : (Nat.toDigits 10 n).dropWhile isDigit = [] := List.dropWhile_eq_nil_iff.mpr hall
  have hgood : ¬ (Nat.toDigits 10 n = [] ∨
      (Nat.toDigits 10 n).length > 1 ∧ (Nat.toDigits 10 n).head? = some '0') := by
    rintro (h | ⟨hlen, h⟩)
    · exact Nat.toDigits_ne_nil h
    · rcases Nat.eq_zero_or_pos n with rfl | hn
      · simp at hlen
      · exact head_toDigits hn h
  have hvalue : digitsValue (Nat.toDigits 10 n) = n := Nat.ofDigitChars_ten_toDigits
  unfold unsigned
  simp only [htake, hdrop, if_neg hgood]
  simp [fraction, exponent, hvalue]

/-- An integer that is printed in decimal digits is read back. -/
theorem number_repr (z : Int) : number z.repr.toList = some (.num z 0, []) := by
  cases z with
  | ofNat n =>
    have htext : (Int.ofNat n).repr.toList = Nat.toDigits 10 n := Nat.toList_repr
    rw [htext]
    unfold number
    split
    · next heq =>
      have hminus := digits_toDigits n '-' (heq ▸ List.mem_cons_self)
      exact absurd hminus (by decide)
    · rw [unsigned_toDigits]
      rfl
  | negSucc n =>
    have htext : (Int.negSucc n).repr.toList = '-' :: Nat.toDigits 10 (n + 1) := by
      simp [Int.repr]
    rw [htext]
    simp only [number, unsigned_toDigits]
    rfl

end Json
