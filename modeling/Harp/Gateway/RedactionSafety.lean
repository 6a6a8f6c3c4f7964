import Harp.Gateway.RuleEdges

/-
  What redaction leaves (`src/gateway/redaction/Redactor.ts`).

  After its own pass no rule matches any more, and later passes keep it so as long as they
  do not change what its assertions see. The SSN and the card rule do: a `\b` that failed
  between a digit and a letter holds between a token and the letter. What they can expose is
  a secret or a bearer credential that stands directly against the number.
-/

namespace Harp

open Redactor Pattern

/-! ## What stays away -/

section Stays

variable {p q : Pattern Char} {k : RuleKind} {t : Marked}
  {G : Option (Glyph RuleKind Char) → Option (Glyph RuleKind Char) → Prop}

/-- Masking at digit edges exposes no number. -/
theorem DigitEnds.stays (hq : DigitEnds q) (hp : DigitEdges p)
    (hkept : OnlyKept p q t fun _ _ => False) : q.Only (p.mask k t) fun _ _ => False := by
  intro pre v post h hv
  obtain ⟨ps, qs, hcut, hleft, hright⟩ := mask_edges hp.after hp.before hv.ne_nil h
  obtain ⟨hlang, hb, ha⟩ := id hv
  -- the neighbour before is no digit in `t` either
  have hb' : q.before.holds (Glyph.seen (sources ps).getLast?) v.head? = true := by
    rcases hleft with heq | ⟨-, l, hl, hR⟩
    · rw [← heq, hb]
    · obtain ⟨n, v, rfl⟩ := List.exists_cons_of_ne_nil hv.ne_nil
      have hn : digit n = true := hq.starts _ hlang n rfl
      have hld : digit l = false := by
        by_contra hd
        rw [hR n rfl (by simpa using hd)] at hn
        exact nomatch hn
      simp [hq.before, Assertion.holds, hl, hld]
  rcases hright with heq | ⟨-, -, hP⟩
  · exact hkept.of_fits hcut ⟨hlang, hb', by rw [← heq, ha]⟩
  · -- a digit cannot stand before a match, so the word ends in a separator
    obtain ⟨v, c, rfl⟩ := List.eq_nil_or_concat v |>.resolve_left hv.ne_nil
    rw [List.concat_eq_append] at *
    have hc : digit c = false := hP c (by simp)
    have hv' : v ∈ q.body.lang := hq.ends v c hlang hc
    have hne : v ≠ [] := Regex.ne_nil_of_mem q.nonempty hv'
    rw [List.map_append, List.map_singleton, ← List.append_assoc, List.append_assoc] at hcut
    refine hkept.of_fits hcut ⟨hv', ?_, ?_⟩
    · rwa [List.head?_append_of_ne_nil _ hne] at hb'
    · rw [hq.after]
      simpa [Assertion.holds, sources, keep, Piece.source] using hc

/-- Without assertions there is nothing to expose. -/
theorem always_stays (hb : q.before = .always) (ha : q.after = .always)
    (hkept : OnlyKept p q t fun _ _ => False) : q.Only (p.mask k t) fun _ _ => False := by
  intro pre v post h hv
  obtain ⟨ps, qs, hcut, -, -⟩ := mask_split h
  exact hkept.of_fits hcut ⟨hv.1, by rw [hb]; rfl, by rw [ha]; rfl⟩

/-- The left neighbour of a word that starts with a letter is in `G`, or was as good before. -/
theorem letters_left (hb : q.before = .boundary word) {n : Char} (hn : n.isAlpha = true)
    (hGl : ∀ l span s, G (some (.kept l)) s → G (some (.masked k span)) s) {v : List Char}
    {left left' : Option (Glyph RuleKind Char)}
    (hl : SameLeft k (fun l n => (n.isAlpha = true → word l = false) ∨
      ∀ span s, G (some (.masked k span)) s) left left' (n :: v))
    (hvb : q.before.holds (Glyph.seen left) (some n) = true) :
    (∀ s, G left s) ∨
      q.before.holds (Glyph.seen left') (some n) = true ∧ ∀ s, G left' s → G left s := by
  rcases hl with heq | ⟨⟨span, hspan⟩, l, hl, hR⟩
  · exact .inr ⟨by rw [← heq]; exact hvb, fun s hs => heq ▸ hs⟩
  · rcases hR n rfl with hR | hG
    · refine .inr ⟨?_, fun s hs => ?_⟩
      · simp [hb, Assertion.holds, hl, hR hn, word_of_alpha hn]
      · rw [hspan]
        exact hGl l span s (hl ▸ hs)
    · exact .inl fun s => hspan ▸ hG span s

/-- The same of the right neighbour of any word. -/
theorem letters_right (ha : q.after = .always ∨ q.after = .boundary word) {w : List Char}
    (hne : w ≠ []) (hGr : ∀ s f span, G s (some (.kept f)) → G s (some (.masked k span)))
    {right : Option (Glyph RuleKind Char)} {qs : List (Piece (Glyph RuleKind Char))}
    (hr : SameRight k (fun c => q.after = .always ∨ word c = false ∨
      ∀ s span, G s (some (.masked k span))) right qs w)
    (hva : q.after.holds w.getLast? (Glyph.seen right) = true) :
    (∀ s, G s right) ∨ q.after.holds w.getLast? (Glyph.seen (sources qs).head?) = true ∧
      ∀ s, G s (sources qs).head? → G s right := by
  rcases hr with heq | ⟨⟨span, hspan⟩, ⟨f, w, qs', rfl⟩, hP⟩
  · exact .inr ⟨by rw [← heq]; exact hva, fun s hs => heq ▸ hs⟩
  · have hc := List.getLast?_eq_some_getLast hne
    have hmasked (s : Option (Glyph RuleKind Char)) (hs : G s (some (.kept f))) : G s right :=
      hspan ▸ hGr s f span hs
    rcases hP _ hc with ha | hw | hG
    · exact .inr ⟨by rw [ha]; rfl, hmasked⟩
    · rcases ha with ha | ha
      · exact .inr ⟨by rw [ha]; rfl, hmasked⟩
      · -- a word character is needed before the mask
        rw [ha, hc, hspan] at hva
        simp [Assertion.holds, hw] at hva
    · exact .inl fun s => hspan ▸ hG s span

/-- Masking exposes a word that starts with a letter at most between neighbours in `G`. -/
theorem letters_stay (hb : q.before = .boundary word) (ha : q.after = .always ∨
      q.after = .boundary word) (hs : q.body.Starts fun c => c.isAlpha = true)
    (hkept : OnlyKept p q t G)
    (hleft : p.After RuleKind (fun l n => n.isAlpha = true → word l = false) ∨
      ∀ span s, G (some (.masked k span)) s)
    (hright : q.after = .always ∨ p.Before RuleKind (fun c => word c = false) ∨
      ∀ s span, G s (some (.masked k span)))
    (hGl : ∀ l span s, G (some (.kept l)) s → G (some (.masked k span)) s)
    (hGr : ∀ s f span, G s (some (.kept f)) → G s (some (.masked k span))) :
    q.Only (p.mask k t) G := by
  intro pre v post h hv
  have hR : p.After RuleKind fun l n => (n.isAlpha = true → word l = false) ∨
      ∀ span s, G (some (.masked k span)) s := by
    rcases hleft with hR | hG
    · exact hR.mono fun _ _ => .inl
    · exact fun _ _ _ _ _ _ _ _ => .inr hG
  have hP : p.Before RuleKind fun c => q.after = .always ∨ word c = false ∨
      ∀ s span, G s (some (.masked k span)) := by
    rcases hright with ha | hP | hG
    · exact fun _ _ _ _ _ _ => .inl ha
    · exact hP.mono fun _ hc => .inr (.inl hc)
    · exact fun _ _ _ _ _ _ => .inr (.inr hG)
  obtain ⟨ps, qs, hcut, hl, hr⟩ := mask_edges hR hP hv.ne_nil h
  obtain ⟨hlang, hvb, hva⟩ := id hv
  obtain ⟨n, v, rfl⟩ := List.exists_cons_of_ne_nil hv.ne_nil
  have hn : n.isAlpha = true := hs _ hlang n rfl
  -- either a neighbour is in `G` already, or the word matches in `t` too
  rcases letters_left hb hn hGl hl hvb with hl' | ⟨hb', hGb⟩
  · exact hl' _
  · rcases letters_right ha hv.ne_nil hGr hr hva with hr' | ⟨ha', hGa⟩
    · exact hr' _
    · exact hGb _ (hGa _ (hkept.of_fits hcut ⟨hlang, hb', ha'⟩))

/-- Masking between word edges exposes no phone number. -/
theorem phone_stays_of (hafter : p.After RuleKind fun l n => digit n = true → word l = false)
    (hbefore : p.Before RuleKind fun c => word c = false)
    (hkept : OnlyKept p RuleKind.phone.pattern t fun _ _ => False) :
    RuleKind.phone.pattern.Only (p.mask k t) fun _ _ => False := by
  intro pre v post h hv
  obtain ⟨ps, qs, hcut, hl, hr⟩ := mask_edges hafter hbefore hv.ne_nil h
  obtain ⟨hlang, hvb, hva⟩ := id hv
  -- the number ends in a digit, and no word character stands before a match
  have ha : RuleKind.phone.pattern.after.holds v.getLast? (Glyph.seen (sources qs).head?) =
      true := by
    rcases hr with heq | ⟨-, -, hP⟩
    · rw [← heq, hva]
    · obtain ⟨c, hc⟩ : ∃ c, v.getLast? = some c := ⟨_, List.getLast?_eq_some_getLast hv.ne_nil⟩
      have hw : word c = false := hP c hc
      rw [word_of_digit (phone_ends v hlang c hc)] at hw
      exact nomatch hw
  rcases hl with heq | ⟨-, l, hl, hR⟩
  · exact hkept.of_fits hcut ⟨hlang, by rw [← heq, hvb], ha⟩
  · obtain ⟨n, v, rfl⟩ := List.exists_cons_of_ne_nil hv.ne_nil
    rcases phone_starts _ hlang n rfl with rfl | hd
    · -- behind the `+` the number matches in `t`
      have hv' := phone_tail hlang
      have hne : v ≠ [] := Regex.ne_nil_of_mem RuleKind.phone.pattern.nonempty hv'
      have hcut' : (p.lift RuleKind).cut t = (ps ++ [keep '+']) ++ v.map keep ++ qs := by
        rw [hcut]
        simp
      refine hkept.of_fits hcut' ⟨hv', ?_, ?_⟩
      · rw [sources_append, List.getLast?_append]
        rfl
      · rwa [List.getLast?_cons_of_ne_nil hne] at ha
    · -- a word character before the number would have been seen
      refine hkept.of_fits hcut ⟨hlang, ?_, ha⟩
      show (!(Glyph.seen (sources ps).getLast?).any word) = true
      rw [hl, Glyph.seen_kept, Option.any_some, hR n rfl hd]
      rfl

end Stays

theorem phone_stays (t : Marked) :
    RuleKind.phone.pattern.Only (RuleKind.phone.pattern.mask .phone t) fun _ _ => False := by
  refine phone_stays_of ((after_notAhead rfl).mono fun l n hw hd => ?_) (before_notBehind rfl)
    (onlyKept_self _ t)
  rw [word_of_digit hd] at hw
  exact nomatch hw

/-! ## What the number rules expose -/

/-- The neighbour is masked as an SSN or a card number. -/
def NumberMask (s : Option (Glyph RuleKind Char)) : Prop :=
  ∃ span, s = some (.masked .ssn span) ∨ s = some (.masked .creditCard span)

/-- The neighbour is masked as a card number. -/
def CardMask (s : Option (Glyph RuleKind Char)) : Prop :=
  ∃ span, s = some (.masked .creditCard span)

/-- Between which neighbours a match of the rule may be left. -/
def Exposed : RuleKind → Option (Glyph RuleKind Char) → Option (Glyph RuleKind Char) → Prop
  | .secretToken, s, s' => NumberMask s ∨ CardMask s'
  | .bearer, s, _ => NumberMask s
  | _, _, _ => False

theorem not_numberMask_kept (c : Char) : ¬ NumberMask (some (.kept c)) := by
  rintro ⟨span, h | h⟩ <;> exact nomatch h

theorem not_cardMask_kept (c : Char) : ¬ CardMask (some (.kept c)) := by
  rintro ⟨span, h⟩
  exact nomatch h

/-- The SSN rule exposes a secret at most behind its match: before the match, its first digits
    would have been part of the secret. -/
theorem secretToken_ssn (t : Marked)
    (h : RuleKind.secretToken.pattern.Only t fun _ _ => False) :
    RuleKind.secretToken.pattern.Only (RuleKind.ssn.pattern.mask .ssn t)
      (Exposed .secretToken) := by
  intro pre v post hmask hv
  have hkept := h.onlyKept RuleKind.ssn.pattern
  obtain ⟨ps, qs, hcut, hl, hr⟩ := mask_edges (R := fun _ _ => True) (P := fun _ => True)
    (fun _ _ _ _ _ _ _ _ => trivial) (fun _ _ _ _ _ _ => trivial) hv.ne_nil hmask
  obtain ⟨hlang, hvb, hva⟩ := id hv
  rcases hl with heq | ⟨⟨span, hspan⟩, -⟩
  · exfalso
    rw [heq] at hvb
    rcases hr with heq' | ⟨-, ⟨f, w, qs', rfl⟩, -⟩
    · exact hkept.of_fits hcut ⟨hlang, hvb, by rw [← heq', hva]⟩
    · obtain ⟨-, hfits⟩ := fits_of_matchAt (hit_at hcut)
      obtain ⟨x, hx, hssn, -, -⟩ := fits_lift.mp hfits
      obtain ⟨d, hd, _, hrest, rfl⟩ := Regex.mem_lang_seq.mp hssn
      obtain ⟨_, ⟨dash, hdash, rfl⟩, y, -, rfl⟩ := Regex.mem_lang_seq.mp hrest
      obtain ⟨hlen, -, hdigits⟩ := Regex.mem_lang_rep_cls.mp hd
      have hdne : d ≠ [] := List.length_pos_iff.mp (by omega)
      obtain ⟨c, v, rfl⟩ := List.exists_cons_of_ne_nil hv.ne_nil
      refine hkept ps c (v.map keep ++ .hit (.kept f :: w) :: qs') (c :: v ++ d)
        (.kept dash :: (y.map .kept ++ sources qs')) ?_ ?_ ⟨?_, ?_, ?_⟩
      · rw [hcut]
        simp
      · rw [sources_append, sources_keep, sources, List.flatMap_cons, Piece.source, hx]
        simp [sources]
      · exact secretToken_extends _ hlang d hdigits
      · exact hvb
      · have hlast : digit (d.getLast hdne) = true := hdigits _ (List.getLast_mem hdne)
        rw [List.getLast?_append_of_ne_nil _ hdne, List.getLast?_eq_some_getLast hdne]
        rw [beq_iff_eq.mp hdash]
        simp only [List.head?_cons, Glyph.seen_kept]
        show (word (d.getLast hdne) != word '-') = true
        rw [word_of_digit hlast]
        rfl
  · exact .inl ⟨span, .inl hspan⟩

theorem exposed_left (k j : RuleKind) (l : Char) (span : List Char)
    (s : Option (Glyph RuleKind Char)) (h : Exposed k (some (.kept l)) s) :
    Exposed k (some (.masked j span)) s := by
  cases k with
  | secretToken => exact .inr (h.resolve_left (not_numberMask_kept l))
  | bearer => exact absurd h (not_numberMask_kept l)
  | ip | email | ssn | creditCard | phone => exact h

theorem exposed_right (k j : RuleKind) (s : Option (Glyph RuleKind Char)) (f : Char)
    (span : List Char) (h : Exposed k s (some (.kept f))) :
    Exposed k s (some (.masked j span)) := by
  cases k with
  | secretToken => exact .inl (h.resolve_right (not_cardMask_kept f))
  | bearer => exact h
  | ip | email | ssn | creditCard | phone => exact h

/-- Masking by rules that keep a rule's matches away keeps them away. -/
theorem stays_maskAll {q : Pattern Char} (hq : ∀ (k : RuleKind) (t : Marked),
      q.Only t (fun _ _ => False) → q.Only (k.pattern.mask k t) fun _ _ => False)
    (ks : List RuleKind) {t : Marked} (h : q.Only t fun _ _ => False) :
    q.Only (maskAll ks t) fun _ _ => False := by
  induction ks generalizing t with
  | nil => exact h
  | cons k ks ih => exact ih (hq k t h)

/-- The matches of a number rule are gone after its pass, and stay away. -/
theorem DigitEnds.only_maskAll {k : RuleKind} (hq : DigitEnds k.pattern) (ks : List RuleKind)
    (t : Marked) : k.pattern.Only (maskAll (k :: ks) t) fun _ _ => False := by
  rw [maskAll_cons]
  exact stays_maskAll (fun j _ h => hq.stays (digitEdges j) (h.onlyKept _)) ks
    (hq.stays (digitEdges k) (onlyKept_self k.pattern t))

/-- A rule with word edges exposes no word that starts with a letter. -/
theorem WordEdges.stays {p q : Pattern Char} (hp : WordEdges p) (hb : q.before = .boundary word)
    (ha : q.after = .always ∨ q.after = .boundary word)
    (hs : q.body.Starts fun c => c.isAlpha = true) (k : RuleKind) {t : Marked}
    (hkept : OnlyKept p q t fun _ _ => False) : q.Only (p.mask k t) fun _ _ => False :=
  letters_stay hb ha hs hkept (.inl hp.after) (.inr (.inl hp.before)) (fun _ _ _ h => h)
    fun _ _ _ h => h

theorem secretToken_email (t : Marked) : RuleKind.secretToken.pattern.Only
    (maskAll [.secretToken, .bearer, .email] t) fun _ _ => False := by
  have h₁ := wordEdges_secretToken.stays rfl (.inr rfl) secretToken_starts .secretToken
    (onlyKept_self RuleKind.secretToken.pattern t)
  have h₂ := wordEdges_bearer.stays rfl (.inr rfl) secretToken_starts .bearer (h₁.onlyKept _)
  exact wordEdges_email.stays rfl (.inr rfl) secretToken_starts .email (h₂.onlyKept _)

theorem bearer_email (t : Marked) : RuleKind.bearer.pattern.Only
    (maskAll [.bearer, .email] t) fun _ _ => False := by
  have h₁ := wordEdges_bearer.stays rfl (.inl rfl) bearer_starts .bearer
    (onlyKept_self RuleKind.bearer.pattern t)
  exact wordEdges_email.stays rfl (.inl rfl) bearer_starts .email (h₁.onlyKept _)

theorem secretToken_numbers (t : Marked)
    (h : RuleKind.secretToken.pattern.Only t fun _ _ => False) :
    RuleKind.secretToken.pattern.Only (maskAll [.ssn, .creditCard, .phone] t)
      (Exposed .secretToken) := by
  have h₁ := secretToken_ssn t h
  have h₂ : RuleKind.secretToken.pattern.Only (maskAll [.ssn, .creditCard] t)
      (Exposed .secretToken) :=
    letters_stay rfl (.inr rfl) secretToken_starts (h₁.onlyKept _)
      (.inr fun span _ => .inl ⟨span, .inr rfl⟩) (.inr (.inr fun _ span => .inr ⟨span, rfl⟩))
      (exposed_left .secretToken .creditCard) (exposed_right .secretToken .creditCard)
  exact letters_stay rfl (.inr rfl) secretToken_starts (h₂.onlyKept _)
    (.inl wordEdges_phone.after) (.inr (.inl wordEdges_phone.before))
    (exposed_left .secretToken .phone) (exposed_right .secretToken .phone)

theorem bearer_numbers (t : Marked) (h : RuleKind.bearer.pattern.Only t fun _ _ => False) :
    RuleKind.bearer.pattern.Only (maskAll [.ssn, .creditCard, .phone] t) (Exposed .bearer) := by
  have h₀ : RuleKind.bearer.pattern.Only t (Exposed .bearer) :=
    fun pre v post ht hv => (h pre v post ht hv).elim
  have h₁ : RuleKind.bearer.pattern.Only (maskAll [.ssn] t) (Exposed .bearer) :=
    letters_stay rfl (.inl rfl) bearer_starts (h₀.onlyKept _)
      (.inr fun span _ => ⟨span, .inl rfl⟩) (.inl rfl)
      (exposed_left .bearer .ssn) (exposed_right .bearer .ssn)
  have h₂ : RuleKind.bearer.pattern.Only (maskAll [.ssn, .creditCard] t) (Exposed .bearer) :=
    letters_stay rfl (.inl rfl) bearer_starts (h₁.onlyKept _)
      (.inr fun span _ => ⟨span, .inr rfl⟩) (.inl rfl)
      (exposed_left .bearer .creditCard) (exposed_right .bearer .creditCard)
  exact letters_stay rfl (.inl rfl) bearer_starts (h₂.onlyKept _)
    (.inl wordEdges_phone.after) (.inl rfl)
    (exposed_left .bearer .phone) (exposed_right .bearer .phone)

theorem spans_split (text : String) (ks js : List RuleKind) (h : RuleKind.order = ks ++ js) :
    spans text = maskAll js (maskAll ks (text.toList.map .kept)) := by
  rw [spans, h, maskAll_append]

/-- What the rules leave of their matches. -/
theorem spans_only (text : String) (k : RuleKind) :
    k.pattern.Only (spans text) (Exposed k) := by
  have hemail (k : RuleKind) (t : Marked) (h : RuleKind.email.pattern.Only t fun _ _ => False) :
      RuleKind.email.pattern.Only (k.pattern.mask k t) fun _ _ => False :=
    always_stays rfl rfl (h.onlyKept _)
  cases k with
  | ip =>
    rw [spans_split text [] (.ip :: _) rfl]
    exact digitEnds_ip.only_maskAll _ _
  | secretToken =>
    rw [spans_split text [.ip] ([.secretToken, .bearer, .email] ++ _) rfl, maskAll_append]
    exact secretToken_numbers _ (secretToken_email _)
  | bearer =>
    rw [spans_split text [.ip, .secretToken] ([.bearer, .email] ++ _) rfl, maskAll_append]
    exact bearer_numbers _ (bearer_email _)
  | email =>
    rw [spans_split text [.ip, .secretToken, .bearer] (.email :: _) rfl, maskAll_cons]
    exact stays_maskAll hemail _ (always_stays rfl rfl (onlyKept_self _ _))
  | ssn =>
    rw [spans_split text [.ip, .secretToken, .bearer, .email] (.ssn :: _) rfl]
    exact digitEnds_ssn.only_maskAll _ _
  | creditCard =>
    rw [spans_split text [.ip, .secretToken, .bearer, .email, .ssn] (.creditCard :: _) rfl]
    exact digitEnds_creditCard.only_maskAll _ _
  | phone =>
    rw [spans_split text [.ip, .secretToken, .bearer, .email, .ssn, .creditCard] (.phone :: _) rfl,
      maskAll_cons, maskAll_nil]
    exact phone_stays _

/-! ## Redaction -/

/-- No default rule matches in the text. -/
def Clean (text : String) : Prop := ∀ rule ∈ defaultRules, ¬ rule.pattern.Occurs text.toList

/-- In the text, no bearer credential and no secret that is not masked itself stands directly
    behind a span that is masked as an SSN or a card number, and no such secret directly in
    front of one masked as a card number. -/
structure NumbersApart (text : String) : Prop where
  bearer : ∀ pre k span v post, spans text = pre ++ .masked k span :: (v.map .kept ++ post) →
    k = .ssn ∨ k = .creditCard → v ∉ Rule.bearer.pattern.body.lang
  behind : ∀ pre k span v post, spans text = pre ++ .masked k span :: (v.map .kept ++ post) →
    k = .ssn ∨ k = .creditCard →
      ¬ Rule.secretToken.pattern.Fits none v (Glyph.seen post.head?)
  inFront : ∀ pre v span post,
    spans text = pre ++ v.map .kept ++ .masked .creditCard span :: post →
      ¬ Rule.secretToken.pattern.Fits (Glyph.seen pre.getLast?) v none

theorem clean_redact_iff (text : String) :
    Clean (DefaultRedactor.redact [] text).text ↔
      ∀ k : RuleKind, k.pattern.Only (spans text) fun _ _ => False := by
  have hoccurs (k : RuleKind) :
      k.pattern.Occurs (DefaultRedactor.redact [] text).text.toList ↔
        (k.pattern.lift RuleKind).Occurs (spans text) := by
    rw [text_redact]
    exact occurs_render k.passesOver (spans text)
  constructor
  · intro h k
    exact only_false_iff.mpr fun hk => h k.rule (RuleKind.mem_defaultRules.mpr ⟨k, rfl⟩)
      ((hoccurs k).mpr hk)
  · rintro h rule hrule
    obtain ⟨k, rfl⟩ := RuleKind.mem_defaultRules.mp hrule
    exact fun hk => only_false_iff.mp (h k) ((hoccurs k).mp hk)

theorem redactStep_of_not_occurs {acc : RedactionResult} {rule : Rule}
    (h : ¬ rule.pattern.Occurs acc.text.toList) :
    DefaultRedactor.redactStep acc rule = acc := by
  have htext : (rule.replace acc.text).1 = acc.text := by
    unfold Rule.replace
    rw [replaceAll_of_not_occurs _ h, String.ofList_toList]
  have hcount : (rule.replace acc.text).2 = 0 := by
    unfold Rule.replace
    rw [occurs_iff_hit, not_exists] at h
    rw [(cuts_cut _ _).eq_map h, List.countP_eq_zero]
    simp [Piece.isHit]
  unfold DefaultRedactor.redactStep
  rw [htext, hcount]
  rfl

/-- A clean text is left as it is. -/
theorem redact_of_clean {text : String} (h : Clean text) :
    DefaultRedactor.redact [] text = { text := text, findings := [] } := by
  have hall (ks : List RuleKind) : (ks.map RuleKind.rule).foldl DefaultRedactor.redactStep
      { text := text, findings := [] } = { text := text, findings := [] } := by
    induction ks with
    | nil => rfl
    | cons k ks ih =>
      rw [List.map_cons, List.foldl_cons, redactStep_of_not_occurs
        (h k.rule (RuleKind.mem_defaultRules.mpr ⟨k, rfl⟩)), ih]
  exact hall RuleKind.order

theorem exists_masked_of_numberMask {pre : Marked} (h : NumberMask pre.getLast?) :
    ∃ pre' k span, pre = pre' ++ [.masked k span] ∧ (k = .ssn ∨ k = .creditCard) := by
  obtain ⟨span, h | h⟩ := h
  · exact ⟨pre.dropLast, .ssn, span, (List.dropLast_append_getLast? _ h).symm, .inl rfl⟩
  · exact ⟨pre.dropLast, .creditCard, span, (List.dropLast_append_getLast? _ h).symm, .inr rfl⟩

theorem only_of_numbersApart {text : String} (h : NumbersApart text) (k : RuleKind) :
    k.pattern.Only (spans text) fun _ _ => False := by
  intro pre v post hspans hv
  have hexposed := spans_only text k pre v post hspans hv
  have hsplit {pre' : Marked} {j : RuleKind} {span : List Char}
      (hpre : pre = pre' ++ [.masked j span]) :
      spans text = pre' ++ .masked j span :: (v.map .kept ++ post) := by
    rw [hspans, hpre]
    simp
  cases k with
  | ip | email | ssn | creditCard | phone => exact hexposed
  | bearer =>
    obtain ⟨pre', j, span, hpre, hj⟩ := exists_masked_of_numberMask hexposed
    exact h.bearer pre' j span v post (hsplit hpre) hj hv.1
  | secretToken =>
    rcases hexposed with hmask | ⟨span, hcard⟩
    · obtain ⟨pre', j, span, rfl, hj⟩ := exists_masked_of_numberMask hmask
      rw [List.getLast?_concat] at hv
      exact h.behind pre' j span v post (hsplit rfl) hj hv
    · obtain ⟨post', rfl⟩ := List.head?_eq_some_iff.mp hcard
      exact h.inFront pre v span post' hspans hv

theorem numbersApart_of_only {text : String}
    (h : ∀ k : RuleKind, k.pattern.Only (spans text) fun _ _ => False) : NumbersApart text := by
  have hsplit {pre : Marked} {k : RuleKind} {span : List Char} {v : List Char} {post : Marked}
      (hspans : spans text = pre ++ .masked k span :: (v.map .kept ++ post)) :
      spans text = (pre ++ [.masked k span]) ++ v.map .kept ++ post := by
    rw [hspans]
    simp
  have hseen (pre : Marked) (k : RuleKind) (span : List Char) :
      Glyph.seen (pre ++ [Glyph.masked k span]).getLast? = none := by
    rw [List.getLast?_concat]
    rfl
  constructor
  · rintro pre k span v post hspans - hv
    refine h .bearer _ v post (hsplit hspans) ⟨hv, ?_, rfl⟩
    -- behind a mask, the first letter is at a word boundary
    obtain ⟨c, v, rfl⟩ := List.exists_cons_of_ne_nil
      (Regex.ne_nil_of_mem Rule.bearer.pattern.nonempty hv)
    have hc := word_of_alpha (bearer_starts _ hv c rfl)
    rw [hseen]
    show (false != word c) = true
    rw [hc]
    rfl
  · rintro pre k span v post hspans - hv
    refine h .secretToken _ v post (hsplit hspans) ?_
    rw [hseen]
    exact hv
  · intro pre v span post hspans hv
    exact h .secretToken pre v _ hspans hv

/-- Redaction leaves nothing that a default rule matches exactly if the numbers that it masks
    stand apart from secrets and bearer credentials. -/
theorem redact_clean_iff (text : String) :
    (Clean (DefaultRedactor.redact [] text).text ∧
      (DefaultRedactor.redact [] (DefaultRedactor.redact [] text).text).text =
        (DefaultRedactor.redact [] text).text) ↔ NumbersApart text := by
  constructor
  · rintro ⟨h, -⟩
    exact numbersApart_of_only ((clean_redact_iff text).mp h)
  · intro h
    have hclean := (clean_redact_iff text).mpr (only_of_numbersApart h)
    exact ⟨hclean, by rw [redact_of_clean hclean]⟩

/-- The SSN rule puts a bracket where `\b` had seen a digit. -/
theorem not_clean_ssn_secret :
    ¬ (Clean (DefaultRedactor.redact [] "123-45-6789sk-AAAAAAAAAAAAAAAA").text ∧
      (DefaultRedactor.redact []
        (DefaultRedactor.redact [] "123-45-6789sk-AAAAAAAAAAAAAAAA").text).text =
          (DefaultRedactor.redact [] "123-45-6789sk-AAAAAAAAAAAAAAAA").text) := by
  rintro ⟨hclean, -⟩
  have htext : (DefaultRedactor.redact [] "123-45-6789sk-AAAAAAAAAAAAAAAA").text =
      "[REDACTED_SSN]sk-AAAAAAAAAAAAAAAA" := by decide +kernel
  have hsecret := hclean RuleKind.secretToken.rule (RuleKind.mem_defaultRules.mpr ⟨_, rfl⟩)
  rw [htext] at hsecret
  exact absurd (replaceAll_of_not_occurs (fun _ => []) hsecret) (by decide +kernel)

end Harp
