import Harp.Agents.ModelOutput
import Harp.Lib.JsonText
import Mathlib.Data.Bool.AllAny
import Mathlib.Data.List.Nodup

/-
  What becomes of an answer that a model encodes with `JSON.stringify`
  (`HarpAgent.parseModelOutput`).

  The fences are taken out of the whole text, before the object is read, so also out of the
  strings in it (`parseModelOutput_stringify`). The encoding is undone exactly for the
  outputs without three backticks in a row (`roundTrips_iff`).
-/

namespace Harp

namespace ModelOutput

/-- The member of a list that may be absent: `JSON.stringify` leaves out what is `undefined`. -/
def optionalMember (key : String) : Option (List String) → List (String × Json)
  | none => []
  | some ss => [(key, .arr (ss.map .str))]

@[simp] theorem mem_optionalMember {key : String} {value : Option (List String)}
    {m : String × Json} :
    m ∈ optionalMember key value ↔ ∃ ss, value = some ss ∧ m = (key, .arr (ss.map .str)) := by
  cases value <;> simp [optionalMember]

/-- The members of the output as an object. -/
def members (o : ModelOutput) : List (String × Json) :=
  [("summary", .str o.summary),
    ("findings", .arr (o.findings.map .str)),
    ("risks", .arr (o.risks.map .str)),
    ("recommendations", .arr (o.recommendations.map .str)),
    ("unknowns", .arr (o.unknowns.map .str)),
    ("nextSafeStep", .str o.nextSafeStep),
    ("assumptions", .arr (o.assumptions.map .str))] ++
  (optionalMember "filesAffected" o.filesAffected ++
    (optionalMember "testPlan" o.testPlan ++
      (optionalMember "rollbackPlan" o.rollbackPlan ++
        optionalMember "validationCommands" o.validationCommands)))

/-- Every string of the output. -/
def strings (o : ModelOutput) : List String :=
  [o.summary, o.nextSafeStep] ++ o.findings ++ o.risks ++ o.recommendations ++ o.unknowns ++
    o.assumptions ++ o.filesAffected.getD [] ++ o.testPlan.getD [] ++ o.rollbackPlan.getD [] ++
    o.validationCommands.getD []

/-- The output with `f` applied to every string. -/
def mapTexts (f : String → String) (o : ModelOutput) : ModelOutput where
  summary := f o.summary
  findings := o.findings.map f
  risks := o.risks.map f
  recommendations := o.recommendations.map f
  unknowns := o.unknowns.map f
  nextSafeStep := f o.nextSafeStep
  assumptions := o.assumptions.map f
  filesAffected := o.filesAffected.map (List.map f)
  testPlan := o.testPlan.map (List.map f)
  rollbackPlan := o.rollbackPlan.map (List.map f)
  validationCommands := o.validationCommands.map (List.map f)

theorem mapTexts_mapTexts (f g : String → String) (o : ModelOutput) :
    (o.mapTexts f).mapTexts g = o.mapTexts (g ∘ f) := by
  simp [mapTexts]

/-- The names of the fields. -/
def keys : List String :=
  ["summary", "findings", "risks", "recommendations", "unknowns", "nextSafeStep", "assumptions",
    "filesAffected", "testPlan", "rollbackPlan", "validationCommands"]

theorem optionalMember_keys (key : String) (value : Option (List String)) :
    ((optionalMember key value).map (·.1)).Sublist [key] := by
  cases value with
  | none => exact List.nil_sublist _
  | some ss => exact List.Sublist.refl _

theorem members_keys (o : ModelOutput) : (o.members.map (·.1)).Sublist keys := by
  simp only [members, List.map_append]
  exact (List.Sublist.refl _).append ((optionalMember_keys _ _).append
    ((optionalMember_keys _ _).append ((optionalMember_keys _ _).append
      (optionalMember_keys _ _))))

theorem members_nodup (o : ModelOutput) : (o.members.map (·.1)).Nodup :=
  (members_keys o).nodup (by decide)

theorem map_eq_self_iff (f : String → String) (ss : List String) :
    ss.map f = ss ↔ ∀ s ∈ ss, f s = s := by
  have hid := List.map_inj_left (l := ss) (f := f) (g := id)
  rwa [List.map_id] at hid

theorem optional_map_eq_self_iff (f : String → String) (value : Option (List String)) :
    value.map (List.map f) = value ↔ ∀ s ∈ value.getD [], f s = s := by
  cases value with
  | none => simp
  | some ss => simp [map_eq_self_iff]

theorem mapTexts_eq_self_iff (f : String → String) (o : ModelOutput) :
    o.mapTexts f = o ↔ ∀ s ∈ o.strings, f s = s := by
  have hfields : o.mapTexts f = o ↔
      f o.summary = o.summary ∧ o.findings.map f = o.findings ∧ o.risks.map f = o.risks ∧
      o.recommendations.map f = o.recommendations ∧ o.unknowns.map f = o.unknowns ∧
      f o.nextSafeStep = o.nextSafeStep ∧ o.assumptions.map f = o.assumptions ∧
      o.filesAffected.map (List.map f) = o.filesAffected ∧
      o.testPlan.map (List.map f) = o.testPlan ∧
      o.rollbackPlan.map (List.map f) = o.rollbackPlan ∧
      o.validationCommands.map (List.map f) = o.validationCommands := by
    cases o
    simp only [mapTexts, ModelOutput.mk.injEq]
  rw [hfields]
  simp only [map_eq_self_iff, optional_map_eq_self_iff, strings, List.forall_mem_append,
    List.forall_mem_cons]
  constructor
  · rintro ⟨h1, h2, h3, h4, h5, h6, h7, h8, h9, h10, h11⟩
    exact ⟨⟨⟨⟨⟨⟨⟨⟨⟨⟨h1, h6, by simp⟩, h2⟩, h3⟩, h4⟩, h5⟩, h7⟩, h8⟩, h9⟩, h10⟩, h11⟩
  · rintro ⟨⟨⟨⟨⟨⟨⟨⟨⟨⟨h1, h6, -⟩, h2⟩, h3⟩, h4⟩, h5⟩, h7⟩, h8⟩, h9⟩, h10⟩, h11⟩
    exact ⟨h1, h2, h3, h4, h5, h6, h7, h8, h9, h10, h11⟩

theorem members_numberless (o : ModelOutput) : ∀ m ∈ o.members, Json.Numberless m.2 := by
  have hlist (ss : List String) : Json.Numberless (.arr (ss.map .str)) := by
    constructor
    intro v hv
    obtain ⟨s, -, rfl⟩ := List.mem_map.mp hv
    exact .str s
  intro m hm
  simp only [members, List.mem_append, List.mem_cons, mem_optionalMember] at hm
  rcases hm with (rfl | rfl | rfl | rfl | rfl | rfl | rfl | h) | ⟨ss, -, rfl⟩ | ⟨ss, -, rfl⟩ |
    ⟨ss, -, rfl⟩ | ⟨ss, -, rfl⟩
  case inl.inr.inr.inr.inr.inr.inr.inr => cases h
  all_goals first | exact .str _ | exact hlist _

/-- The members of the changed output are the changed members. -/
theorem mapMembers_members {f : String → String} (hf : ∀ key ∈ keys, f key = key)
    (o : ModelOutput) : Json.mapMembers f o.members = (o.mapTexts f).members := by
  have hlist (ss : List String) :
      Json.mapItems f (ss.map .str) = (ss.map f).map .str := by
    rw [Json.mapItems_eq, List.map_map, List.map_map]
    rfl
  have hoptional (key : String) (hkey : f key = key) (value : Option (List String)) :
      (optionalMember key value).map (fun m => (f m.1, m.2.mapTexts f)) =
        optionalMember key (value.map (List.map f)) := by
    cases value with
    | none => rfl
    | some ss => simp [optionalMember, Json.mapTexts, hkey, hlist]
  simp only [keys, List.forall_mem_cons] at hf
  obtain ⟨h1, h2, h3, h4, h5, h6, h7, h8, h9, h10, h11, -⟩ := hf
  rw [Json.mapMembers_eq]
  simp only [members, mapTexts, List.map_append, List.map_cons, List.map_nil, Json.mapTexts, hlist,
    hoptional _ h8, hoptional _ h9, hoptional _ h10, hoptional _ h11, h1, h2, h3, h4, h5, h6, h7]

end ModelOutput

namespace HarpAgent

open ModelOutput

/-! ## Reading an object that encodes an output -/

/-- A member of an object without repeated keys is found under its key. -/
theorem get_of_mem {ms : List (String × Json)} (hnodup : (ms.map (·.1)).Nodup) {key : String}
    {v : Json} (h : (key, v) ∈ ms) : (Json.obj ms).get key = some v := by
  show (ms.reverse.find? (·.1 == key)).map (·.2) = some v
  cases hfind : ms.reverse.find? (·.1 == key) with
  | none =>
    have hnone := List.find?_eq_none.mp hfind (key, v) (List.mem_reverse.mpr h)
    exact absurd (beq_self_eq_true key) hnone
  | some m =>
    have hm : m ∈ ms := List.mem_reverse.mp (List.mem_of_find?_eq_some hfind)
    have hkey : m.1 = key := by simpa using List.find?_some hfind
    rw [List.inj_on_of_nodup_map hnodup hm h hkey]
    rfl

theorem get_of_not_mem {ms : List (String × Json)} {key : String} (h : key ∉ ms.map (·.1)) :
    (Json.obj ms).get key = none := by
  show (ms.reverse.find? (·.1 == key)).map (·.2) = none
  rw [Option.map_eq_none_iff, List.find?_eq_none]
  intro m hm hkey
  exact h (List.mem_map.mpr ⟨m, List.mem_reverse.mp hm, beq_iff_eq.mp hkey⟩)

/-- A list that may be absent is read back, if the object has its member or none of its name. -/
theorem optionalStrArray_get {ms : List (String × Json)} (hnodup : (ms.map (·.1)).Nodup)
    {key : String} {value : Option (List String)} (hmem : ∀ m ∈ optionalMember key value, m ∈ ms)
    (habsent : value = none → key ∉ ms.map (·.1)) :
    optionalStrArray ((Json.obj ms).get key) = value := by
  cases value with
  | none =>
    rw [get_of_not_mem (habsent rfl)]
    rfl
  | some ss =>
    rw [get_of_mem hnodup (hmem _ List.mem_cons_self)]
    exact congrArg some (strArray_map_str ss)

/-- Reading undoes the encoding, whichever order the members stand in. -/
theorem outputOf_members {o : ModelOutput} {ms : List (String × Json)} (h : ms.Perm o.members) :
    outputOf (.obj ms) = o := by
  have hkeys : (ms.map (·.1)).Perm (o.members.map (·.1)) := h.map _
  have hnodup : (ms.map (·.1)).Nodup := hkeys.nodup_iff.mpr o.members_nodup
  have hget (key : String) (v : Json) (hm : (key, v) ∈ o.members) :
      (Json.obj ms).get key = some v := get_of_mem hnodup (h.mem_iff.mpr hm)
  have hoptional (key : String) (value : Option (List String))
      (hmem : ∀ m ∈ optionalMember key value, m ∈ o.members)
      (habsent : value = none → key ∉ o.members.map (·.1)) :
      optionalStrArray ((Json.obj ms).get key) = value :=
    optionalStrArray_get hnodup (fun m hm => h.mem_iff.mpr (hmem m hm))
      fun hnone hm => habsent hnone (hkeys.mem_iff.mp hm)
  have hfilesAffected := hoptional "filesAffected" o.filesAffected
    (fun m hm => by simp [members, hm]) (fun hnone => by simp [members, hnone])
  have htestPlan := hoptional "testPlan" o.testPlan
    (fun m hm => by simp [members, hm]) (fun hnone => by simp [members, hnone])
  have hrollbackPlan := hoptional "rollbackPlan" o.rollbackPlan
    (fun m hm => by simp [members, hm]) (fun hnone => by simp [members, hnone])
  have hvalidationCommands := hoptional "validationCommands" o.validationCommands
    (fun m hm => by simp [members, hm]) (fun hnone => by simp [members, hnone])
  unfold outputOf
  rw [hfilesAffected, htestPlan, hrollbackPlan, hvalidationCommands,
    hget "summary" (.str o.summary) (by simp [members]),
    hget "findings" (.arr (o.findings.map .str)) (by simp [members]),
    hget "risks" (.arr (o.risks.map .str)) (by simp [members]),
    hget "recommendations" (.arr (o.recommendations.map .str)) (by simp [members]),
    hget "unknowns" (.arr (o.unknowns.map .str)) (by simp [members]),
    hget "nextSafeStep" (.str o.nextSafeStep) (by simp [members]),
    hget "assumptions" (.arr (o.assumptions.map .str)) (by simp [members])]
  simp only [strArray_map_str, str]

/-! ## Removing the fences -/

/-- The comparison of `/sub/g`. -/
def sameChar (p c : Char) : Bool := p == c

/-- The comparison of `/sub/gi`. -/
def sameLetter (p c : Char) : Bool := Js.lowerAscii p == Js.lowerAscii c

def fence : List Char := "```".toList

def jsonFence : List Char := "```json".toList

/-- A string with both kinds of fence taken out. -/
def cleanText (s : String) : String :=
  Json.removeText sameChar fence (Json.removeText sameLetter jsonFence s)

theorem transparent_of_escaped {eq : Char → Char → Bool} {sub : List Char}
    (h : ∀ c ∈ Json.escapedChars, Js.Escapes eq sub Json.escapeChar c) :
    Js.Transparent eq sub Json.escapeChar := by
  intro c
  by_cases hc : c ∈ Json.escapedChars
  · exact .inr (h c hc)
  · exact .inl (Json.escapeChar_of_not_mem hc)

theorem apart_fence : Json.Apart sameChar fence where
  nonempty := by decide
  quotation := by decide
  outer := List.all_iff_forall_prop.mp (by decide)
  escapes := transparent_of_escaped (List.all_iff_forall_prop.mp (by decide +kernel))

theorem apart_jsonFence : Json.Apart sameLetter jsonFence where
  nonempty := by decide
  quotation := by decide
  outer := List.all_iff_forall_prop.mp (by decide)
  escapes := transparent_of_escaped (List.all_iff_forall_prop.mp (by decide +kernel))

theorem removeText_keys : ∀ key ∈ keys, Json.removeText sameLetter jsonFence key = key ∧
    Json.removeText sameChar fence key = key := by decide +kernel

section

variable (number : Int → Int → String)

/-- The removal takes the pattern out of the text before the object, out of its strings, and out of
    the text behind it. -/
theorem removeAllBy_stringify {eq : Char → Char → Bool} {sub : List Char}
    (hapart : Json.Apart eq sub) (hbrace : Js.Foreign eq sub '{') {ms : List (String × Json)}
    (hms : ∀ m ∈ ms, Json.Numberless m.2) (before after : List Char) :
    Js.removeAllBy eq sub 0 (before ++ (Json.stringify number (.obj ms) ++ after)) =
      Js.removeAllBy eq sub 0 before ++
        (Json.stringify number (.obj (Json.mapMembers (Json.removeText eq sub) ms)) ++
          Js.removeAllBy eq sub 0 after) := by
  have hmembers := hapart.removes_members number fun m hm => (hms m hm).removes hapart number
  simp only [Json.stringify, List.cons_append]
  rw [Js.removeAllBy_cut hapart.nonempty hbrace, hmembers]

/-- Both removals, on the text of an output. -/
theorem removeFences_stringify {o : ModelOutput} {ms : List (String × Json)}
    (hms : ms.Perm o.members) (before after : List Char) :
    ∃ ms', ms'.Perm (o.mapTexts cleanText).members ∧
      Js.removeAll fence (Js.removeAllIgnoreCase jsonFence
          (before ++ (Json.stringify number (.obj ms) ++ after))) =
        Js.removeAll fence (Js.removeAllIgnoreCase jsonFence before) ++
          (Json.stringify number (.obj ms') ++
            Js.removeAll fence (Js.removeAllIgnoreCase jsonFence after)) := by
  have hmapped {ms₁ : List (String × Json)} {o₁ : ModelOutput} {f : String → String}
      (h : ms₁.Perm o₁.members) (hf : ∀ key ∈ keys, f key = key) :
      (Json.mapMembers f ms₁).Perm (o₁.mapTexts f).members := by
    rw [← mapMembers_members hf, Json.mapMembers_eq, Json.mapMembers_eq]
    exact h.map _
  have hnumberless {ms₁ : List (String × Json)} {o₁ : ModelOutput} (h : ms₁.Perm o₁.members) :
      ∀ m ∈ ms₁, Json.Numberless m.2 :=
    fun m hm => o₁.members_numberless m (h.mem_iff.mp hm)
  have hfirst := hmapped hms fun key hkey => (removeText_keys key hkey).1
  have hsecond := hmapped hfirst fun key hkey => (removeText_keys key hkey).2
  rw [mapTexts_mapTexts] at hsecond
  refine ⟨_, hsecond, ?_⟩
  show Js.removeAllBy sameChar fence 0 (Js.removeAllBy sameLetter jsonFence 0 _) = _
  rw [removeAllBy_stringify number apart_jsonFence (by decide) (hnumberless hms),
    removeAllBy_stringify number apart_fence (by decide) (hnumberless hfirst)]
  rfl

def backtick : Char := Char.ofNat 0x60

theorem fence_eq : fence = [backtick, backtick, backtick] := rfl

theorem jsonFence_eq : jsonFence = backtick :: backtick :: backtick :: "json".toList := rfl

theorem not_capital_backtick : ∀ n, n < 91 → 65 ≤ n → Char.ofNat (n + 32) ≠ backtick := by decide

theorem sameChar_of_sameLetter {c : Char} (h : sameLetter backtick c = true) :
    sameChar backtick c = true := by
  have hlower : Js.lowerAscii c = backtick := (beq_iff_eq.mp h).symm
  unfold Js.lowerAscii at hlower
  split at hlower
  · next hcapital =>
    have hupper : c.toNat ≤ 90 := hcapital.2
    exact absurd hlower (not_capital_backtick c.toNat (by omega) hcapital.1)
  · exact beq_iff_eq.mpr hlower.symm

/-- A JSON fence opens with three backticks. -/
theorem startsWithBy_fence (cs : List Char) (h : Js.startsWithBy sameLetter jsonFence cs = true) :
    Js.startsWithBy sameChar fence cs = true := by
  rw [jsonFence_eq] at h
  rw [fence_eq]
  match cs with
  | [] => cases h
  | [a] => cases (Bool.and_eq_true_iff.mp h).2
  | [a, b] => cases (Bool.and_eq_true_iff.mp (Bool.and_eq_true_iff.mp h).2).2
  | a :: b :: c :: cs =>
    obtain ⟨ha, h⟩ := Bool.and_eq_true_iff.mp h
    obtain ⟨hb, h⟩ := Bool.and_eq_true_iff.mp h
    obtain ⟨hc, -⟩ := Bool.and_eq_true_iff.mp h
    have ha' := sameChar_of_sameLetter ha
    have hb' := sameChar_of_sameLetter hb
    have hc' := sameChar_of_sameLetter hc
    simp [Js.startsWithBy, ha', hb', hc']

/-- The cleaning leaves exactly the strings without a fence as they are. -/
theorem cleanText_eq_self_iff (s : String) :
    cleanText s = s ↔ Js.includes s "```" = false := by
  have hclean : cleanText s = String.ofList (Js.removeAllBy sameChar fence 0
      (Js.removeAllBy sameLetter jsonFence 0 s.toList)) := by
    simp only [cleanText, Json.removeText, String.toList_ofList]
  have hincludes : Js.includes s "```" = Js.includesBy sameChar fence s.toList := rfl
  rw [hclean, hincludes]
  constructor
  · intro h
    have hchars := congrArg String.toList h
    rw [String.toList_ofList] at hchars
    have hlength := congrArg List.length hchars
    have hsecond := @Js.length_removeAllBy_le sameChar fence 0
      (Js.removeAllBy sameLetter jsonFence 0 s.toList)
    have hjson : Js.includesBy sameLetter jsonFence s.toList = false :=
      Js.not_includes_of_length (by decide) (by omega)
    rw [Js.removeAllBy_of_not_includes hjson] at hlength
    exact Js.not_includes_of_length (by decide) (Nat.le_of_eq hlength.symm)
  · intro h
    have hjson : Js.includesBy sameLetter jsonFence s.toList = false := by
      by_contra htrue
      have hfence := Js.includesBy_mono startsWithBy_fence (Bool.not_eq_false _ ▸ htrue)
      rw [h] at hfence
      cases hfence
    rw [Js.removeAllBy_of_not_includes hjson, Js.removeAllBy_of_not_includes h,
      String.ofList_toList]

/-! ## Cutting the object out -/

theorem trimStart_cut {c : Char} (hc : Js.isSpace c = false) (xs ys : List Char) :
    Js.trimStart (xs ++ c :: ys) = Js.trimStart xs ++ c :: ys := by
  unfold Js.trimStart
  induction xs with
  | nil => exact List.dropWhile_cons_of_neg (by rw [hc]; decide)
  | cons x xs ih =>
    by_cases hx : Js.isSpace x = true
    · rw [List.cons_append, List.dropWhile_cons_of_pos hx, List.dropWhile_cons_of_pos hx, ih]
    · rw [List.cons_append, List.dropWhile_cons_of_neg hx, List.dropWhile_cons_of_neg hx,
        List.cons_append]

theorem mem_of_mem_trimStart {c : Char} {cs : List Char} (h : c ∈ Js.trimStart cs) : c ∈ cs :=
  (List.dropWhile_sublist _).mem h

/-- Trimming leaves an object and what it keeps of the prose around it. -/
theorem trimChars_object (xs mid ys : List Char) :
    Js.trimChars (xs ++ '{' :: (mid ++ '}' :: ys)) =
      Js.trimStart xs ++ '{' :: (mid ++ '}' :: (Js.trimStart ys.reverse).reverse) := by
  unfold Js.trimChars
  rw [trimStart_cut (by decide)]
  have hreverse : (Js.trimStart xs ++ '{' :: (mid ++ '}' :: ys)).reverse =
      ys.reverse ++ '}' :: (Js.trimStart xs ++ '{' :: mid).reverse := by simp
  rw [hreverse, trimStart_cut (by decide)]
  simp

theorem findIdx_cut {c : Char} {xs ys : List Char} (h : c ∉ xs) :
    (xs ++ c :: ys).findIdx? (· == c) = some xs.length := by
  rw [List.findIdx?_append, List.findIdx?_eq_none_iff.mpr]
  · simp [List.findIdx?_cons]
  · intro x hx
    exact beq_eq_false_iff_ne.mpr fun heq => h (heq ▸ hx)

/-- The span is the object, when no brace stands around it. -/
theorem candidate_object {xs ys : List Char} (mid : List Char) (hxs : '{' ∉ xs) (hys : '}' ∉ ys) :
    candidate (xs ++ '{' :: (mid ++ '}' :: ys)) = some ('{' :: (mid ++ ['}'])) := by
  have hfirst : Js.indexOf '{' (xs ++ '{' :: (mid ++ '}' :: ys)) = some xs.length :=
    findIdx_cut hxs
  have hreverse : (xs ++ '{' :: (mid ++ '}' :: ys)).reverse =
      ys.reverse ++ '}' :: (xs ++ '{' :: mid).reverse := by simp
  have hlast : Js.lastIndexOf '}' (xs ++ '{' :: (mid ++ '}' :: ys)) =
      some (xs.length + 1 + mid.length) := by
    unfold Js.lastIndexOf
    rw [hreverse, findIdx_cut (by simpa using hys)]
    simp only [Option.map_some, List.length_append, List.length_cons, List.length_reverse,
      Option.some.injEq]
    omega
  unfold candidate
  rw [hfirst, hlast]
  have hlt : ¬ xs.length + 1 + mid.length ≤ xs.length := by omega
  simp only [if_neg hlt, Js.slice]
  have htext : xs ++ '{' :: (mid ++ '}' :: ys) = (xs ++ '{' :: (mid ++ ['}'])) ++ ys := by simp
  have hlength : xs.length + 1 + mid.length + 1 = (xs ++ '{' :: (mid ++ ['}'])).length := by
    simp
    omega
  rw [htext, hlength, List.take_left, List.drop_left]

/-! ## The round trip -/

/-- No brace stands in the prose. -/
def BraceFree (prose : String) : Prop := '{' ∉ prose.toList ∧ '}' ∉ prose.toList

instance (prose : String) : Decidable (BraceFree prose) :=
  inferInstanceAs (Decidable ('{' ∉ prose.toList ∧ '}' ∉ prose.toList))

/-- `JSON.stringify` of the output, its members in the order of `ms`. -/
def stringified (ms : List (String × Json)) : String :=
  String.ofList (Json.stringify number (.obj ms))

/-- A text in a JSON fence. -/
def fenced (text : String) : String := "```json\n" ++ text ++ "\n```"

/-- The output is read back from its encoding, whichever order its fields were set in: from the bare
    text, and from the fenced text with prose around it. -/
def RoundTrips (o : ModelOutput) : Prop :=
  ∀ ms : List (String × Json), ms.Perm o.members →
    parseModelOutput (stringified number ms) = some o ∧
    ∀ before after, BraceFree before → BraceFree after →
      parseModelOutput (before ++ fenced (stringified number ms) ++ after) = some o

/-- An encoded output is read with every string of it cleaned. -/
theorem parseModelOutput_stringify {o : ModelOutput} {ms : List (String × Json)}
    (hms : ms.Perm o.members) {before after : String} (hbefore : BraceFree before)
    (hafter : BraceFree after) :
    parseModelOutput (before ++ stringified number ms ++ after) = some (o.mapTexts cleanText) := by
  obtain ⟨ms', hms', hremoved⟩ := removeFences_stringify number hms before.toList after.toList
  obtain ⟨mid, hmid⟩ : ∃ mid, Json.stringifyMembers number ms' = mid ++ ['}'] :=
    Json.stringifyMembers_close number ms'
  have hobject : Json.stringify number (.obj ms') = '{' :: (mid ++ ['}']) := by
    rw [Json.stringify, hmid]
  have hkept {c : Char} {cs : List Char}
      (h : c ∈ Js.removeAll fence (Js.removeAllIgnoreCase jsonFence cs)) : c ∈ cs :=
    Js.mem_of_mem_removeAllBy (Js.mem_of_mem_removeAllBy h)
  have htext : (before ++ stringified number ms ++ after).toList =
      before.toList ++ (Json.stringify number (.obj ms) ++ after.toList) := by
    simp [stringified]
  have hspan : candidate (cleaned (before ++ stringified number ms ++ after)) =
      some (Json.stringify number (.obj ms')) := by
    show candidate (Js.trimChars (Js.removeAll fence (Js.removeAllIgnoreCase jsonFence _))) = _
    rw [htext, hremoved, hobject, List.cons_append, List.append_assoc, List.singleton_append,
      trimChars_object]
    apply candidate_object
    · exact fun h => hbefore.1 (hkept (mem_of_mem_trimStart h))
    · intro h
      exact hafter.2 (hkept (List.mem_reverse.mp (mem_of_mem_trimStart (List.mem_reverse.mp h))))
  have hnumberless : Json.Numberless (.obj ms') :=
    .obj fun m hm => (o.mapTexts cleanText).members_numberless m (hms'.mem_iff.mp hm)
  unfold parseModelOutput
  rw [hspan]
  show (Json.parse _).map outputOf = _
  rw [Json.parse_stringify number hnumberless, Option.map_some, outputOf_members hms']

/-- An output comes back exactly when all its strings pass the cleaning unchanged. -/
theorem roundTrips_iff_mapTexts (o : ModelOutput) :
    RoundTrips number o ↔ o.mapTexts cleanText = o := by
  have hempty : BraceFree "" := by decide
  constructor
  · intro h
    have hbare := (h o.members (List.Perm.refl _)).1
    have hread := parseModelOutput_stringify number (List.Perm.refl o.members) hempty hempty
    rw [String.empty_append, String.append_empty, hbare] at hread
    exact (Option.some.inj hread).symm
  · intro h ms hms
    constructor
    · have hread := parseModelOutput_stringify number hms hempty hempty
      rw [String.empty_append, String.append_empty, h] at hread
      exact hread
    · intro before after hbefore hafter
      have hopen : BraceFree (before ++ "```json\n") := by
        simpa [BraceFree] using hbefore
      have hclose : BraceFree ("\n```" ++ after) := by
        simpa [BraceFree] using hafter
      have hread := parseModelOutput_stringify number hms hopen hclose
      rw [h] at hread
      rw [← hread]
      simp only [fenced, String.append_assoc]

/-- An output comes back exactly when no string of it holds three backticks in a row. -/
theorem roundTrips_iff (o : ModelOutput) :
    RoundTrips number o ↔ ∀ s ∈ o.strings, Js.includes s "```" = false := by
  rw [roundTrips_iff_mapTexts, mapTexts_eq_self_iff]
  constructor
  · intro h s hs
    exact (cleanText_eq_self_iff s).mp (h s hs)
  · intro h s hs
    exact (cleanText_eq_self_iff s).mpr (h s hs)

end

/-! ## A fence in a string -/

/-- An answer that speaks of a fence. -/
def fenceAnswer : ModelOutput where
  summary := "Wrap it in ```json fences."
  findings := []
  risks := []
  recommendations := []
  unknowns := []
  nextSafeStep := ""
  assumptions := []
  filesAffected := none
  testPlan := none
  rollbackPlan := none
  validationCommands := none

/-- The fence is gone from the summary. -/
theorem fenceAnswer_changed :
    parseModelOutput (stringified (fun _ _ => "0") fenceAnswer.members) =
        some { fenceAnswer with summary := "Wrap it in  fences." } ∧
      ¬ RoundTrips (fun _ _ => "0") fenceAnswer := by
  have hread : parseModelOutput (stringified (fun _ _ => "0") fenceAnswer.members) =
      some { fenceAnswer with summary := "Wrap it in  fences." } := by decide +kernel
  refine ⟨hread, ?_⟩
  intro h
  have hbare := (h fenceAnswer.members (List.Perm.refl _)).1
  rw [hread] at hbare
  exact absurd hbare (by decide)

end HarpAgent

end Harp
