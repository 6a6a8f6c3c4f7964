import Harp.Lib.Json
import Harp.Lib.Removal

/-
  JSON texts as `JSON.stringify` writes them, their reading back, and what becomes of them when a
  pattern is removed.

  `Json.stringify` writes no white space; the text of a number is a parameter. A value without
  numbers is read back by `Json.parse` (`parse_stringify`): twice the length of its text is
  fuel enough for it. A pattern that keeps apart from the punctuation (`Apart`) is removed
  from the text string by string (`Numberless.removes`).
-/

namespace Json

/-! ## Writing -/

def hexLower (n : Nat) : Char :=
  if n < 10 then Char.ofNat ('0'.toNat + n) else Char.ofNat ('a'.toNat + (n - 10))

/-- The text of a character inside a string literal. -/
def escapeChar (c : Char) : List Char :=
  if c = '"' then ['\\', '"']
  else if c = '\\' then ['\\', '\\']
  else if c = Char.ofNat 8 then ['\\', 'b']
  else if c = Char.ofNat 12 then ['\\', 'f']
  else if c = '\n' then ['\\', 'n']
  else if c = '\r' then ['\\', 'r']
  else if c = '\t' then ['\\', 't']
  else if c.toNat < 0x20 then
    ['\\', 'u', '0', '0', hexLower (c.toNat / 16), hexLower (c.toNat % 16)]
  else [c]

def quote (s : String) : List Char := '"' :: (s.toList.flatMap escapeChar ++ ['"'])

mutual

/-- `JSON.stringify(value)`. -/
def stringify (number : Int → Int → String) : Json → List Char
  | .null => ['n', 'u', 'l', 'l']
  | .bool true => ['t', 'r', 'u', 'e']
  | .bool false => ['f', 'a', 'l', 's', 'e']
  | .num m e => (number m e).toList
  | .str s => quote s
  | .arr items => '[' :: stringifyItems number items
  | .obj ms => '{' :: stringifyMembers number ms

/-- The elements of an array, through its closing bracket. -/
def stringifyItems (number : Int → Int → String) : List Json → List Char
  | [] => [']']
  | [v] => stringify number v ++ [']']
  | v :: w :: rest => stringify number v ++ ',' :: stringifyItems number (w :: rest)

/-- The members of an object, through its closing brace. -/
def stringifyMembers (number : Int → Int → String) : List (String × Json) → List Char
  | [] => ['}']
  | [(key, v)] => quote key ++ ':' :: (stringify number v ++ ['}'])
  | (key, v) :: m :: rest =>
    quote key ++ ':' :: (stringify number v ++ ',' :: stringifyMembers number (m :: rest))

end

/-- A value in which no number stands. -/
inductive Numberless : Json → Prop
  | null : Numberless .null
  | bool (b : Bool) : Numberless (.bool b)
  | str (s : String) : Numberless (.str s)
  | arr {items : List Json} (h : ∀ v ∈ items, Numberless v) : Numberless (.arr items)
  | obj {ms : List (String × Json)} (h : ∀ m ∈ ms, Numberless m.2) : Numberless (.obj ms)

/-! ## Reading a string literal -/

theorem hex4_hexLower : ∀ n, n < 0x20 →
    hex4 '0' '0' (hexLower (n / 16)) (hexLower (n % 16)) = some n := by decide

theorem stringBody_letter {e x : Char} (hu : e ≠ 'u') (he : escape e = some x) (cs : List Char) :
    stringBody ('\\' :: e :: cs) = (stringBody cs).map fun p => (x.toNat :: p.1, p.2) := by
  rw [stringBody]
  · rw [he]
    cases stringBody cs <;> rfl
  · intro a b c d rest h
    exact absurd h hu

/-- The text of one character is read as that character. -/
theorem stringBody_escapeChar (c : Char) (cs : List Char) :
    stringBody (escapeChar c ++ cs) = (stringBody cs).map fun p => (c.toNat :: p.1, p.2) := by
  unfold escapeChar
  split_ifs with hquote hslash hb hf hn hr ht hcontrol
  · rw [hquote]
    exact stringBody_letter (by decide) rfl cs
  · rw [hslash]
    exact stringBody_letter (by decide) rfl cs
  · rw [hb]
    exact stringBody_letter (by decide) rfl cs
  · rw [hf]
    exact stringBody_letter (by decide) rfl cs
  · rw [hn]
    exact stringBody_letter (by decide) rfl cs
  · rw [hr]
    exact stringBody_letter (by decide) rfl cs
  · rw [ht]
    exact stringBody_letter (by decide) rfl cs
  · have hhex := hex4_hexLower c.toNat hcontrol
    cases h : stringBody cs <;> simp [stringBody, hhex, h]
  · have hval : ¬ (c.val < 0x20 ∨ c = '\\') := by
      rintro (h | h)
      · exact hcontrol h
      · exact hslash h
    rw [List.singleton_append, stringBody]
    · rw [if_neg hval]
      cases stringBody cs <;> rfl
    all_goals grind

/-- A literal is read as far as its closing quote. -/
theorem stringBody_escaped (s rest : List Char) :
    stringBody (s.flatMap escapeChar ++ '"' :: rest) = some (s.map Char.toNat, rest) := by
  induction s with
  | nil => rfl
  | cons c s ih =>
    rw [List.flatMap_cons, List.append_assoc, stringBody_escapeChar, ih]
    rfl

theorem not_surrogate (c : Char) :
    isHighSurrogate c.toNat = false ∧ isLowSurrogate c.toNat = false := by
  have hvalid := c.valid
  have hc : c.toNat = c.val.toNat := rfl
  simp only [isHighSurrogate, isLowSurrogate, Bool.and_eq_false_iff, decide_eq_false_iff_not]
  simp only [UInt32.isValidChar, Nat.isValidChar] at hvalid
  omega

/-- No character is half of a surrogate pair. -/
theorem decodeUnits_toNat (s : List Char) : decodeUnits (s.map Char.toNat) = s := by
  induction s with
  | nil => rfl
  | cons c s ih =>
    obtain ⟨hhigh, hlow⟩ := not_surrogate c
    cases s with
    | nil => simp [decodeUnits, hhigh, hlow]
    | cons d s =>
      simp only [List.map_cons, decodeUnits, hhigh, hlow] at ih ⊢
      simp [ih]

theorem string_quote (s : String) (rest : List Char) :
    string (s.toList.flatMap escapeChar ++ '"' :: rest) = some (s, rest) := by
  unfold string
  rw [stringBody_escaped, Option.map_some, decodeUnits_toNat, String.ofList_toList]

/-! ## Reading a value -/

theorem skipWs_of_not {c : Char} (h : isWs c = false) (cs : List Char) :
    skipWs (c :: cs) = c :: cs := List.dropWhile_cons_of_neg (by rw [h]; decide)

theorem value_quote (n : Nat) (s : String) (rest : List Char) :
    value (n + 1) (quote s ++ rest) = some (.str s, rest) := by
  have hquote : quote s ++ rest = '"' :: (s.toList.flatMap escapeChar ++ '"' :: rest) := by
    simp [quote]
  rw [hquote, value, skipWs_of_not (by decide)]
  simp only [string_quote]
  rfl

/-- The text of a value opens with a character that neither is white space nor closes a list. -/
theorem stringify_head (number : Int → Int → String) {v : Json} (h : Numberless v) :
    ∃ c cs, stringify number v = c :: cs ∧ isWs c = false ∧ c ≠ ']' := by
  cases h with
  | null => exact ⟨_, _, rfl, by decide, by decide⟩
  | bool b => cases b <;> exact ⟨_, _, rfl, by decide, by decide⟩
  | str s => exact ⟨_, _, rfl, by decide, by decide⟩
  | arr h => exact ⟨_, _, by rw [stringify], by decide, by decide⟩
  | obj h => exact ⟨_, _, by rw [stringify], by decide, by decide⟩

theorem value_bracket (n : Nat) (cs : List Char) :
    value (n + 1) ('[' :: cs) =
      match skipWs cs with
      | ']' :: r => some (.arr [], r)
      | r => (elements n r).map fun p => (.arr p.1, p.2) := by
  rw [value, skipWs_of_not (by decide)]
  rfl

theorem value_brace (n : Nat) (cs : List Char) :
    value (n + 1) ('{' :: cs) =
      match skipWs cs with
      | '}' :: r => some (.obj [], r)
      | r => (members n r).map fun p => (.obj p.1, p.2) := by
  rw [value, skipWs_of_not (by decide)]
  rfl

/-- What is read of a text with an opening brace is an object. -/
theorem parse_brace {cs : List Char} {v : Json} (h : parse ('{' :: cs) = some v) :
    ∃ ms, v = .obj ms := by
  unfold parse at h
  rw [show 2 * ('{' :: cs).length + 2 = 2 * ('{' :: cs).length + 1 + 1 from rfl, value_brace] at h
  split at h
  case h_2 => cases h
  case h_1 u rest heq =>
    have hu : u = v := by
      split at h
      · exact Option.some.inj h
      · cases h
    subst hu
    split at heq
    · exact ⟨[], (Prod.mk.inj (Option.some.inj heq)).1.symm⟩
    · obtain ⟨p, -, hp⟩ := Option.map_eq_some_iff.mp heq
      exact ⟨p.1, (Prod.mk.inj hp).1.symm⟩

section

variable (number : Int → Int → String)

/-- The value is read back, with any fuel from twice the length of its text on. -/
def ReadsBack (v : Json) : Prop :=
  ∀ n rest, 2 * (stringify number v).length ≤ n →
    value n (stringify number v ++ rest) = some (v, rest)

/-- What may follow a value that stands in a list, or alone. -/
def Delimited (rest : List Char) : Prop := ∀ c ∈ rest.head?, c = ',' ∨ c = ']' ∨ c = '}'

/-- The text of `v` is read as `w` before a delimiter. -/
def ReadsAs (v w : Json) : Prop :=
  ∀ n rest, Delimited rest → 2 * (stringify number v).length ≤ n →
    value n (stringify number v ++ rest) = some (w, rest)

variable {number} in
theorem ReadsBack.readsAs {v : Json} (h : ReadsBack number v) : ReadsAs number v v :=
  fun n rest _ hn => h n rest hn

theorem elements_stringifyItems {g : Json → Json} {items : List Json} (hne : items ≠ [])
    (h : ∀ v ∈ items, ReadsAs number v (g v)) (n : Nat) (rest : List Char)
    (hn : 2 * (stringifyItems number items).length ≤ n) :
    elements n (stringifyItems number items ++ rest) = some (items.map g, rest) := by
  induction items generalizing n with
  | nil => exact absurd rfl hne
  | cons v vs ih =>
    have hv := h v List.mem_cons_self
    cases vs with
    | nil =>
      simp only [stringifyItems, List.length_append, List.length_singleton] at hn
      obtain ⟨m, rfl⟩ : ∃ m, n = m + 1 := ⟨n - 1, by omega⟩
      have hread := hv m (']' :: rest) (by simp [Delimited]) (by omega)
      simp only [stringifyItems, List.append_assoc, List.singleton_append]
      rw [elements, hread]
      rfl
    | cons w ws =>
      simp only [stringifyItems, List.length_append, List.length_cons] at hn
      obtain ⟨m, rfl⟩ : ∃ m, n = m + 1 := ⟨n - 1, by omega⟩
      have hread := hv m (',' :: (stringifyItems number (w :: ws) ++ rest)) (by simp [Delimited])
        (by omega)
      have hrest := ih (List.cons_ne_nil _ _) (fun u hu => h u (List.mem_cons_of_mem _ hu)) m
        (by omega)
      simp only [stringifyItems, List.append_assoc, List.cons_append]
      rw [elements, hread]
      simp only [skipWs_of_not (c := ',') (by decide)]
      rw [hrest]
      rfl

theorem members_stringifyMembers {g : Json → Json} {ms : List (String × Json)} (hne : ms ≠ [])
    (h : ∀ m ∈ ms, ReadsAs number m.2 (g m.2)) (n : Nat) (rest : List Char)
    (hn : 2 * (stringifyMembers number ms).length ≤ n) :
    members n (stringifyMembers number ms ++ rest) =
      some (ms.map fun m => (m.1, g m.2), rest) := by
  induction ms generalizing n with
  | nil => exact absurd rfl hne
  | cons m ms ih =>
    obtain ⟨key, v⟩ := m
    have hv : ReadsAs number v (g v) := h (key, v) List.mem_cons_self
    have hkey (cs : List Char) :
        quote key ++ ':' :: cs = '"' :: (key.toList.flatMap escapeChar ++ '"' :: ':' :: cs) := by
      simp [quote]
    cases ms with
    | nil =>
      simp only [stringifyMembers, List.length_append, List.length_cons, List.length_nil] at hn
      obtain ⟨k, rfl⟩ : ∃ k, n = k + 1 := ⟨n - 1, by omega⟩
      have hread := hv k ('}' :: rest) (by simp [Delimited]) (by omega)
      simp only [stringifyMembers, List.append_assoc, List.cons_append, List.nil_append, hkey]
      rw [members, skipWs_of_not (by decide)]
      simp only [string_quote, skipWs_of_not (c := ':') (by decide), hread]
      rfl
    | cons m' ms =>
      simp only [stringifyMembers, List.length_append, List.length_cons] at hn
      obtain ⟨k, rfl⟩ : ∃ k, n = k + 1 := ⟨n - 1, by omega⟩
      have hread := hv k (',' :: (stringifyMembers number (m' :: ms) ++ rest))
        (by simp [Delimited]) (by omega)
      have hrest := ih (List.cons_ne_nil _ _) (fun u hu => h u (List.mem_cons_of_mem _ hu)) k
        (by omega)
      simp only [stringifyMembers, List.append_assoc, List.cons_append, hkey]
      rw [members, skipWs_of_not (by decide)]
      simp only [string_quote, skipWs_of_not (c := ':') (by decide), hread]
      simp only [skipWs_of_not (c := ',') (by decide), hrest]
      rfl

/-- The text of an object's members opens with a quotation mark. -/
theorem stringifyMembers_head {ms : List (String × Json)} (hne : ms ≠ []) :
    ∃ cs, stringifyMembers number ms = '"' :: cs := by
  match ms with
  | [] => exact absurd rfl hne
  | [(key, v)] => exact ⟨_, by rw [stringifyMembers, quote, List.cons_append]⟩
  | (key, v) :: m :: rest => exact ⟨_, by rw [stringifyMembers, quote, List.cons_append]⟩

theorem stringifyMembers_close (ms : List (String × Json)) :
    ∃ cs, stringifyMembers number ms = cs ++ ['}'] := by
  induction ms with
  | nil => exact ⟨[], rfl⟩
  | cons m ms ih =>
    obtain ⟨key, v⟩ := m
    cases ms with
    | nil => exact ⟨quote key ++ ':' :: stringify number v, by simp [stringifyMembers]⟩
    | cons m' ms =>
      obtain ⟨cs, hcs⟩ := ih
      refine ⟨quote key ++ ':' :: (stringify number v ++ ',' :: cs), ?_⟩
      rw [stringifyMembers, hcs]
      simp

theorem stringifyItems_head {items : List Json} (hne : items ≠ [])
    (h : ∀ v ∈ items, ∃ c cs, stringify number v = c :: cs ∧ isWs c = false ∧ c ≠ ']') :
    ∃ c cs, stringifyItems number items = c :: cs ∧ isWs c = false ∧ c ≠ ']' := by
  match items with
  | [] => exact absurd rfl hne
  | [v] =>
    obtain ⟨c, cs, hc, hws, hclose⟩ := h v List.mem_cons_self
    exact ⟨c, _, by rw [stringifyItems, hc, List.cons_append], hws, hclose⟩
  | v :: w :: rest =>
    obtain ⟨c, cs, hc, hws, hclose⟩ := h v List.mem_cons_self
    exact ⟨c, _, by rw [stringifyItems, hc, List.cons_append], hws, hclose⟩

/-- An array is read element by element. -/
theorem value_stringifyItems {g : Json → Json} {items : List Json}
    (hhead : ∀ v ∈ items, ∃ c cs, stringify number v = c :: cs ∧ isWs c = false ∧ c ≠ ']')
    (h : ∀ v ∈ items, ReadsAs number v (g v)) (n : Nat) (rest : List Char)
    (hn : 2 * (stringify number (.arr items)).length ≤ n) :
    value n (stringify number (.arr items) ++ rest) = some (.arr (items.map g), rest) := by
  simp only [stringify, List.length_cons] at hn
  obtain ⟨k, rfl⟩ : ∃ k, n = k + 1 := ⟨n - 1, by omega⟩
  rw [stringify, List.cons_append, value_bracket]
  by_cases hne : items = []
  · subst hne
    rfl
  · obtain ⟨c, cs, hc, hws, hclose⟩ := stringifyItems_head number hne hhead
    have hread := elements_stringifyItems number hne h k rest (by omega)
    rw [hc, List.cons_append] at hread ⊢
    rw [skipWs_of_not hws]
    grind

/-- An object is read member by member. -/
theorem value_stringifyMembers {g : Json → Json} {ms : List (String × Json)}
    (h : ∀ m ∈ ms, ReadsAs number m.2 (g m.2)) (n : Nat) (rest : List Char)
    (hn : 2 * (stringify number (.obj ms)).length ≤ n) :
    value n (stringify number (.obj ms) ++ rest) =
      some (.obj (ms.map fun m => (m.1, g m.2)), rest) := by
  simp only [stringify, List.length_cons] at hn
  obtain ⟨k, rfl⟩ : ∃ k, n = k + 1 := ⟨n - 1, by omega⟩
  rw [stringify, List.cons_append, value_brace]
  by_cases hne : ms = []
  · subst hne
    rfl
  · obtain ⟨cs, hc⟩ := stringifyMembers_head number hne
    have hread := members_stringifyMembers number hne h k rest (by omega)
    rw [hc, List.cons_append] at hread ⊢
    rw [skipWs_of_not (by decide)]
    show (members k ('"' :: (cs ++ rest))).map (fun p => (Json.obj p.1, p.2)) = _
    rw [hread]
    rfl

theorem readsBack_arr {items : List Json} (hitems : ∀ v ∈ items, Numberless v)
    (h : ∀ v ∈ items, ReadsBack number v) : ReadsBack number (.arr items) := by
  intro n rest hn
  have hread := value_stringifyItems number (g := id)
    (fun v hv => stringify_head number (hitems v hv)) (fun v hv => (h v hv).readsAs) n rest hn
  rwa [List.map_id] at hread

theorem readsBack_obj {ms : List (String × Json)} (h : ∀ m ∈ ms, ReadsBack number m.2) :
    ReadsBack number (.obj ms) := by
  intro n rest hn
  have hread := value_stringifyMembers number (g := id) (fun m hm => (h m hm).readsAs) n rest hn
  rwa [show (fun m : String × Json => (m.1, id m.2)) = id from rfl, List.map_id] at hread

/-- A value whose text is read in one step. -/
theorem readsBack_of_step {v : Json} (hne : stringify number v ≠ [])
    (h : ∀ k rest, value (k + 1) (stringify number v ++ rest) = some (v, rest)) :
    ReadsBack number v := by
  intro n rest hn
  have hlength := List.length_pos_iff.mpr hne
  obtain ⟨k, rfl⟩ : ∃ k, n = k + 1 := ⟨n - 1, by omega⟩
  exact h k rest

theorem Numberless.readsBack {v : Json} (h : Numberless v) : ReadsBack number v := by
  induction h with
  | null => exact readsBack_of_step number (List.cons_ne_nil _ _) fun k rest => rfl
  | bool b =>
    cases b with
    | false => exact readsBack_of_step number (List.cons_ne_nil _ _) fun k rest => rfl
    | true => exact readsBack_of_step number (List.cons_ne_nil _ _) fun k rest => rfl
  | str s =>
    refine readsBack_of_step number (List.cons_ne_nil _ _) fun k rest => ?_
    rw [stringify, value_quote]
  | arr hitems ih => exact readsBack_arr number hitems ih
  | obj hms ih => exact readsBack_obj number ih

/-- `JSON.parse` undoes `JSON.stringify` on a value without numbers. -/
theorem parse_stringify {v : Json} (h : Numberless v) :
    parse (stringify number v) = some v := by
  have hread := h.readsBack number (2 * (stringify number v).length + 2) [] (by omega)
  rw [List.append_nil] at hread
  rw [parse, hread]
  rfl

end

/-! ## Removing a pattern -/

mutual

/-- The value with `f` applied to every string in it, the keys included. -/
def mapTexts (f : String → String) : Json → Json
  | .null => .null
  | .bool b => .bool b
  | .num m e => .num m e
  | .str s => .str (f s)
  | .arr items => .arr (mapItems f items)
  | .obj ms => .obj (mapMembers f ms)

def mapItems (f : String → String) : List Json → List Json
  | [] => []
  | v :: rest => mapTexts f v :: mapItems f rest

def mapMembers (f : String → String) : List (String × Json) → List (String × Json)
  | [] => []
  | (key, v) :: rest => (f key, mapTexts f v) :: mapMembers f rest

end

theorem mapItems_eq (f : String → String) (items : List Json) :
    mapItems f items = items.map (mapTexts f) := by
  induction items with
  | nil => rfl
  | cons v items ih => rw [mapItems, ih, List.map_cons]

theorem mapMembers_eq (f : String → String) (ms : List (String × Json)) :
    mapMembers f ms = ms.map fun m => (f m.1, mapTexts f m.2) := by
  induction ms with
  | nil => rfl
  | cons m ms ih => rw [mapMembers, ih, List.map_cons]

/-- The characters that `escapeChar` does not leave as they are. -/
def escapedChars : List Char := '"' :: '\\' :: (List.range 0x20).map Char.ofNat

theorem escapeChar_of_not_mem {c : Char} (h : c ∉ escapedChars) : escapeChar c = [c] := by
  have hlow : ∀ n, n < 0x20 → c ≠ Char.ofNat n := by
    rintro n hn rfl
    exact h (List.mem_cons_of_mem _ (List.mem_cons_of_mem _
      (List.mem_map.mpr ⟨n, List.mem_range.mpr hn, rfl⟩)))
  have hcontrol : ¬ c.toNat < 0x20 := fun hc => hlow c.toNat hc (Char.ofNat_toNat c).symm
  unfold escapeChar
  split_ifs with hquote hslash hb hf hn hr ht
  · exact absurd (hquote ▸ List.mem_cons_self) h
  · exact absurd (hslash ▸ List.mem_cons_of_mem _ List.mem_cons_self) h
  · exact absurd hb (hlow 8 (by decide))
  · exact absurd hf (hlow 12 (by decide))
  · exact absurd hn (hlow 10 (by decide))
  · exact absurd hr (hlow 13 (by decide))
  · exact absurd ht (hlow 9 (by decide))
  · rfl

section

variable (eq : Char → Char → Bool) (sub : List Char)

/-- What stands outside of the strings in the text of a value without numbers. -/
def outerChars : List Char := "\x7b\x7d[],:nulltruefalse".toList

/-- The pattern holds no quotation mark and nothing of an escape, and does not open with the
    punctuation or a literal of a JSON text. -/
structure Apart : Prop where
  nonempty : sub ≠ []
  quotation : Js.Foreign eq sub '"'
  outer : ∀ c ∈ outerChars, Js.NoOpening eq sub c
  escapes : Js.Transparent eq sub escapeChar

/-- The string without the pattern. -/
def removeText (s : String) : String := String.ofList (Js.removeAllBy eq sub 0 s.toList)

end

section

variable {eq : Char → Char → Bool} {sub : List Char} (h : Apart eq sub)

include h

theorem Apart.removes_quote (s : String) :
    Js.Removes eq sub (quote s) (quote (removeText eq sub s)) := by
  have hbody := Js.Removes.closed h.nonempty h.quotation (s.toList.flatMap escapeChar)
  rw [Js.removeAllBy_flatMap h.nonempty h.escapes] at hbody
  have hquote := Js.Removes.cons h.nonempty h.quotation.noOpening hbody
  simpa only [quote, removeText, String.toList_ofList] using hquote

theorem Apart.removes_char (c : Char) (hc : c ∈ outerChars)
    {p p' : List Char} (hp : Js.Removes eq sub p p') : Js.Removes eq sub (c :: p) (c :: p') :=
  .cons h.nonempty (h.outer c hc) hp

theorem Apart.removes_literal (cs : List Char) (hcs : cs ⊆ outerChars) :
    Js.Removes eq sub cs cs :=
  .kept h.nonempty fun c hc => h.outer c (hcs hc)

variable (number : Int → Int → String)

theorem Apart.removes_items {items : List Json}
    (hitems : ∀ v ∈ items, Js.Removes eq sub (stringify number v)
      (stringify number (v.mapTexts (removeText eq sub)))) :
    Js.Removes eq sub (stringifyItems number items)
      (stringifyItems number (mapItems (removeText eq sub) items)) := by
  induction items with
  | nil => exact h.removes_literal [']'] (by decide)
  | cons v vs ih =>
    have hv := hitems v List.mem_cons_self
    have hvs := ih fun w hw => hitems w (List.mem_cons_of_mem _ hw)
    cases vs with
    | nil =>
      simp only [mapItems, stringifyItems]
      exact hv.append (h.removes_literal [']'] (by decide))
    | cons w ws =>
      simp only [mapItems, stringifyItems] at hvs ⊢
      exact hv.append (h.removes_char ',' (by decide) hvs)

theorem Apart.removes_members {ms : List (String × Json)}
    (hms : ∀ m ∈ ms, Js.Removes eq sub (stringify number m.2)
      (stringify number (m.2.mapTexts (removeText eq sub)))) :
    Js.Removes eq sub (stringifyMembers number ms)
      (stringifyMembers number (mapMembers (removeText eq sub) ms)) := by
  induction ms with
  | nil => exact h.removes_literal ['}'] (by decide)
  | cons m ms ih =>
    obtain ⟨key, v⟩ := m
    have hkey := h.removes_quote key
    have hv := hms (key, v) List.mem_cons_self
    have hrest := ih fun m hm => hms m (List.mem_cons_of_mem _ hm)
    cases ms with
    | nil =>
      simp only [mapMembers, stringifyMembers]
      exact hkey.append (h.removes_char ':' (by decide)
        (hv.append (h.removes_literal ['}'] (by decide))))
    | cons m' ms =>
      simp only [mapMembers, stringifyMembers] at hrest ⊢
      exact hkey.append (h.removes_char ':' (by decide)
        (hv.append (h.removes_char ',' (by decide) hrest)))

/-- The removal takes the pattern out of each string of the value. -/
theorem Numberless.removes {v : Json} (hv : Numberless v) :
    Js.Removes eq sub (stringify number v)
      (stringify number (v.mapTexts (removeText eq sub))) := by
  induction hv with
  | null => exact h.removes_literal ['n', 'u', 'l', 'l'] (by decide)
  | bool b =>
    cases b with
    | false => exact h.removes_literal ['f', 'a', 'l', 's', 'e'] (by decide)
    | true => exact h.removes_literal ['t', 'r', 'u', 'e'] (by decide)
  | str s => exact h.removes_quote s
  | arr hitems ih =>
    simp only [mapTexts, stringify]
    exact h.removes_char '[' (by decide) (h.removes_items number ih)
  | obj hms ih =>
    simp only [mapTexts, stringify]
    exact h.removes_char '{' (by decide) (h.removes_members number ih)

end

end Json
