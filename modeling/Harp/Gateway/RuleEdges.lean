import Harp.Gateway.Spans

/-
  The edges of the default rules: what stands next to a match.

  A digit is never told apart from a digit next to it, by any rule (`digitEdges`). The secret,
  bearer, email and phone rules match next to no letter or word character either
  (`WordEdges`); the SSN and the card rule do.
-/

namespace Harp

open Redactor Pattern

/-! ## The edges of the rules -/

theorem word_of_digit {c : Char} (h : digit c = true) : word c = true := by
  unfold digit at h
  simp [word, Char.isAlphanum, h]

theorem word_of_alpha {c : Char} (h : c.isAlpha = true) : word c = true := by
  simp [word, Char.isAlphanum, h]

theorem not_alpha_of_digit {c : Char} (h : digit c = true) : c.isAlpha = false := by
  have hupper : c.isUpper = decide (c.val ≥ 'A'.val ∧ c.val ≤ 'Z'.val) := rfl
  have hlower : c.isLower = (decide (c.val ≥ 'a'.val) && decide (c.val ≤ 'z'.val)) := rfl
  show (c.isUpper || c.isLower) = false
  rw [hupper, hlower]
  simp only [digit, Char.isDigit, Bool.and_eq_true, decide_eq_true_eq, Bool.or_eq_false_iff,
    Bool.and_eq_false_iff, decide_eq_false_iff_not, ge_iff_le, UInt32.le_iff_toNat_le] at h ⊢
  have h0 : '0'.val.toNat = 48 := rfl
  have h9 : '9'.val.toNat = 57 := rfl
  have hA : 'A'.val.toNat = 65 := rfl
  have ha : 'a'.val.toNat = 97 := rfl
  omega

theorem localPart_of_word {c : Char} (h : word c = true) : localPart c = true := by
  simp only [word, localPart, Bool.or_eq_true] at h ⊢
  tauto

theorem bearerChar_of_word {c : Char} (h : word c = true) : bearerChar c = true := by
  simp only [word, bearerChar, Bool.or_eq_true] at h ⊢
  tauto

/-- No digits next to each other are told apart. -/
structure DigitEdges (p : Pattern Char) : Prop where
  after : p.After RuleKind fun l n => digit l = true → digit n = false
  before : p.Before RuleKind fun c => digit c = false

/-- No word character before the match, and no letter right after one. -/
structure WordEdges (p : Pattern Char) : Prop where
  after : p.After RuleKind fun l n => n.isAlpha = true → word l = false
  before : p.Before RuleKind fun c => word c = false

theorem digitEdges_of_not_digit {p : Pattern Char} (hb : p.before = .notBehind digit)
    (ha : p.after = .notAhead digit) : DigitEdges p where
  after := (after_notAhead ha).mono fun _ _ hn _ => hn
  before := before_notBehind hb

theorem starts_text {cs : List Char} {r : Regex Char} (h : ∀ c ∈ cs.head?, c.isAlpha = true)
    (hne : cs ≠ []) : (text chr cs r).Starts fun c => c.isAlpha = true := by
  obtain ⟨c, cs, rfl⟩ := List.exists_cons_of_ne_nil hne
  refine (Regex.starts_cls fun d hd => ?_).seq (.inl rfl)
  rw [beq_iff_eq.mp hd]
  exact h c rfl

theorem secretToken_starts : RuleKind.secretToken.pattern.body.Starts fun c => c.isAlpha = true :=
  (starts_text (by simp) (by simp)).alt ((starts_text (by simp) (by simp)).alt
    ((starts_text (by simp) (by simp)).alt (starts_text (by simp) (by simp))))

theorem bearer_starts : RuleKind.bearer.pattern.body.Starts fun c => c.isAlpha = true := by
  refine (Regex.starts_cls fun c hc => ?_).seq (.inl rfl)
  by_cases hu : c.isUpper = true
  · show (c.isUpper || c.isLower) = true
    rw [hu, Bool.true_or]
  · have hupper : ¬ (c.val ≥ 'A'.val ∧ c.val ≤ 'Z'.val) :=
      fun hc => hu (decide_eq_true hc)
    have hlower : c.toLower = c := by
      unfold Char.toLower
      exact dif_neg hupper
    rw [hlower, beq_iff_eq] at hc
    rw [hc]
    rfl

theorem wordEdges_secretToken : WordEdges RuleKind.secretToken.pattern where
  after := (after_boundary rfl).mono fun l n hne hn => by
    rw [word_of_alpha hn] at hne
    simpa using hne
  before := (before_boundary rfl secretToken_starts).mono fun c h => by
    obtain ⟨f, hf, hne⟩ := h
    rw [word_of_alpha hf] at hne
    simpa using hne

theorem munches_bearer :
    (RuleKind.bearer.pattern.body.mapCls (Glyph.lift (κ := RuleKind))).Munches
      (Glyph.lift bearerChar) :=
  .seq (.seq (.seq (.seq (.seq (.seq (.seq (Regex.munches_rep_cls _ 1)))))))

theorem munches_email :
    (RuleKind.email.pattern.body.mapCls (Glyph.lift (κ := RuleKind))).Munches
      (Glyph.lift Char.isAlpha) :=
  .seq (.seq (.seq (.seq (Regex.munches_rep_cls _ 2))))

theorem email_ends : RuleKind.email.pattern.body.Ends fun c => c.isAlpha = true := by
  refine Regex.Ends.seq ?_ (.inl rfl)
  refine Regex.Ends.seq ?_ (.inl rfl)
  refine Regex.Ends.seq ?_ (.inl rfl)
  refine Regex.Ends.seq ?_ (.inl rfl)
  exact (Regex.ends_cls fun c hc => hc).rep 2 none

/-- An address that could start one character earlier does. -/
theorem before_email : RuleKind.email.pattern.Before RuleKind fun c => localPart c = false := by
  refine before_extends rfl fun c v hc hv => ?_
  obtain ⟨a, ha, b, hb, rfl⟩ := Regex.mem_lang_seq.mp hv
  obtain ⟨hmin, -, hall⟩ := Regex.mem_lang_rep_cls.mp ha
  refine Regex.mem_lang_seq.mpr ⟨c :: a, Regex.mem_lang_rep_cls.mpr ⟨?_, ?_, ?_⟩, b, hb, rfl⟩
  · rw [List.length_cons]
    omega
  · exact fun k hk => nomatch hk
  · exact List.forall_mem_cons.mpr ⟨hc, hall⟩

theorem wordEdges_bearer : WordEdges RuleKind.bearer.pattern where
  after := (after_munches rfl (P := fun _ => True) (fun _ _ _ _ => trivial) munches_bearer).mono
    fun l n h hn => by
      rw [bearerChar_of_word (word_of_alpha hn)] at h
      exact nomatch h.2
  before := (before_boundary rfl bearer_starts).mono fun c h => by
    obtain ⟨f, hf, hne⟩ := h
    rw [word_of_alpha hf] at hne
    simpa using hne

theorem wordEdges_email : WordEdges RuleKind.email.pattern where
  after := (after_munches rfl email_ends munches_email).mono fun l n h hn => by
    rw [hn] at h
    exact nomatch h.2
  before := before_email.mono fun c hc => by
    by_contra hw
    rw [localPart_of_word (by simpa using hw)] at hc
    exact nomatch hc

theorem wordEdges_phone : WordEdges RuleKind.phone.pattern where
  after := (after_notAhead rfl).mono fun l n hw hn => by
    rw [word_of_alpha hn] at hw
    exact nomatch hw
  before := before_notBehind rfl

theorem not_digit_of_not_word {c : Char} (h : word c = false) : digit c = false := by
  by_contra hd
  rw [word_of_digit (by simpa using hd)] at h
  exact nomatch h

/-- No rule tells digits apart that stand next to each other. -/
theorem digitEdges (k : RuleKind) : DigitEdges k.pattern := by
  cases k with
  | ip => exact digitEdges_of_not_digit rfl rfl
  | ssn => exact digitEdges_of_not_digit rfl rfl
  | creditCard => exact digitEdges_of_not_digit rfl rfl
  | secretToken =>
    refine ⟨(after_boundary rfl).mono fun l n hne hl => ?_,
      wordEdges_secretToken.before.mono fun c => not_digit_of_not_word⟩
    rw [word_of_digit hl] at hne
    exact not_digit_of_not_word (by simpa using hne.symm)
  | bearer =>
    refine ⟨(after_munches rfl (P := fun _ => True) (fun _ _ _ _ => trivial) munches_bearer).mono
      fun l n h _ => ?_, wordEdges_bearer.before.mono fun c => not_digit_of_not_word⟩
    by_contra hd
    rw [bearerChar_of_word (word_of_digit (by simpa using hd))] at h
    exact nomatch h.2
  | email =>
    refine ⟨(after_munches rfl email_ends munches_email).mono fun l n h hl => ?_,
      wordEdges_email.before.mono fun c => not_digit_of_not_word⟩
    rw [not_alpha_of_digit hl] at h
    exact nomatch h.1
  | phone =>
    exact ⟨(after_notAhead rfl).mono fun l n hw _ => not_digit_of_not_word hw,
      wordEdges_phone.before.mono fun c => not_digit_of_not_word⟩

/-! ## The words of the rules -/

/-- A word of digits at both ends, or one that may end one separator earlier. -/
structure DigitEnds (q : Pattern Char) : Prop where
  before : q.before = .notBehind digit
  after : q.after = .notAhead digit
  starts : q.body.Starts fun c => digit c = true
  ends : ∀ v c, v ++ [c] ∈ q.body.lang → digit c = false → v ∈ q.body.lang

theorem digitEnds_of_ends {q : Pattern Char} (hb : q.before = .notBehind digit)
    (ha : q.after = .notAhead digit) (hs : q.body.Starts fun c => digit c = true)
    (he : q.body.Ends fun c => digit c = true) : DigitEnds q where
  before := hb
  after := ha
  starts := hs
  ends v c hv hc := by
    rw [he _ hv c (by simp)] at hc
    exact nomatch hc

theorem starts_digits (min : Nat) (max : Option Nat) :
    (Regex.rep (.cls digit) min max).Starts fun c => digit c = true :=
  (Regex.starts_cls fun _ h => h).rep min max

theorem ends_digits (min : Nat) (max : Option Nat) :
    (Regex.rep (.cls digit) min max).Ends fun c => digit c = true :=
  (Regex.ends_cls fun _ h => h).rep min max

theorem digitEnds_ip : DigitEnds RuleKind.ip.pattern :=
  digitEnds_of_ends rfl rfl
    ((((starts_digits 1 (some 3)).seq (.inl rfl)).rep 3 (some 3)).seq (.inl rfl))
    ((ends_digits 1 (some 3)).seq (.inl rfl))

theorem digitEnds_ssn : DigitEnds RuleKind.ssn.pattern :=
  digitEnds_of_ends rfl rfl ((starts_digits 3 (some 3)).seq (.inl rfl))
    ((((ends_digits 4 (some 4)).seq (.inl rfl)).seq (.inl rfl)).seq (.inl rfl) |>.seq (.inl rfl))

theorem digitEnds_creditCard : DigitEnds RuleKind.creditCard.pattern where
  before := rfl
  after := rfl
  starts := ((Regex.starts_cls fun _ h => h).seq (.inl rfl)).rep 13 (some 16)
  ends v c hv hc := by
    obtain ⟨n, hmin, hmax, hn⟩ := Regex.mem_lang_rep.mp hv
    obtain ⟨m, rfl⟩ : ∃ m, n = m + 1 := ⟨n - 1, by omega⟩
    rw [pow_succ, Language.mem_mul] at hn
    obtain ⟨a, ha, b, hb, hab⟩ := hn
    obtain ⟨_, ⟨d, hd, rfl⟩, o, ho, rfl⟩ := Regex.mem_lang_seq.mp hb
    obtain ⟨-, hone, -⟩ := Regex.mem_lang_rep_cls.mp ho
    match o, hone 1 rfl with
    | [], _ =>
      -- the last group is a digit alone
      obtain ⟨-, h⟩ := List.append_inj' hab rfl
      obtain rfl := List.singleton_inj.mp h
      rw [hd] at hc
      exact nomatch hc
    | [s], _ =>
      rw [List.singleton_append, List.append_cons] at hab
      obtain ⟨rfl, -⟩ := List.append_inj' hab rfl
      refine Regex.mem_lang_rep.mpr ⟨m + 1, hmin, hmax, ?_⟩
      rw [pow_succ]
      refine Language.append_mem_mul ha (Regex.mem_lang_seq.mpr ⟨[d], ⟨d, hd, rfl⟩, [], ?_, rfl⟩)
      exact Regex.mem_lang_rep_cls.mpr ⟨Nat.zero_le _, fun _ _ => Nat.zero_le _, nofun⟩

/-- A phone number without its `+`. -/
theorem phone_tail {v : List Char} (h : '+' :: v ∈ RuleKind.phone.pattern.body.lang) :
    v ∈ RuleKind.phone.pattern.body.lang := by
  obtain ⟨a, ha, b, hb, hab⟩ := Regex.mem_lang_seq.mp h
  obtain ⟨-, hone, hall⟩ := Regex.mem_lang_rep_cls.mp ha
  have hnil : ([] : List Char) ∈ (between 0 1 (· == '+')).lang :=
    Regex.mem_lang_rep_cls.mpr ⟨Nat.zero_le _, fun _ _ => Nat.zero_le _, nofun⟩
  match a, hone 1 rfl with
  | [], _ =>
    -- the number itself starts with a digit
    obtain ⟨_, ⟨d, hd, rfl⟩, _, -, rfl⟩ := Regex.mem_lang_seq.mp hb
    obtain rfl : d = '+' := (List.cons.inj hab).1
    exact absurd hd (by decide)
  | [c], _ =>
    obtain rfl : b = v := (List.cons.inj hab).2
    exact Regex.mem_lang_seq.mpr ⟨[], hnil, b, hb, rfl⟩

theorem phone_starts : RuleKind.phone.pattern.body.Starts fun c => c = '+' ∨ digit c = true :=
  ((Regex.starts_cls fun _ h => .inl (beq_iff_eq.mp h)).rep 0 (some 1)).seq
    (.inr ((Regex.starts_cls fun _ h => .inr h).seq (.inl rfl)))

theorem phone_ends : RuleKind.phone.pattern.body.Ends fun c => digit c = true :=
  (((Regex.ends_cls fun _ h => h).seq (.inl rfl)).seq (.inl rfl)).seq (.inl rfl)

theorem secretToken_extends :
    RuleKind.secretToken.pattern.body.Extends fun c => digit c = true := by
  have halnum (c : Char) (h : digit c = true) : alnum c = true := by
    unfold digit at h
    simp [alnum, Char.isAlphanum, h]
  have hupper (c : Char) (h : digit c = true) : upperAlnum c = true := by
    unfold digit at h
    simp [upperAlnum, h]
  have hdash (c : Char) (h : digit c = true) : alnumDash c = true := by
    unfold digit at h
    simp [alnumDash, Char.isAlphanum, h]
  exact (Regex.extends_rep_cls halnum 16).seq.seq.seq.alt
    ((Regex.extends_rep_cls halnum 20).seq.seq.seq.seq.alt
      ((Regex.extends_rep_cls hupper 12).seq.seq.seq.seq.alt
        (Regex.extends_rep_cls hdash 10).seq.seq.seq.seq.seq))

end Harp
