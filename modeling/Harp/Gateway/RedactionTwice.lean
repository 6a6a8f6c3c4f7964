import Harp.Gateway.RedactionSafety

/-
  A second redaction (`src/gateway/redaction/Redactor.ts`).

  What the number rules expose is gone after one more pass: there the secret and the bearer
  rule are the only ones that find anything, and neither exposes a match of another rule.
-/

namespace Harp

open Redactor Pattern

/-! ## A rule without a match -/

theorem mask_of_only {k : RuleKind} {t : Marked} (h : k.pattern.Only t fun _ _ => False) :
    k.pattern.mask k t = t := by
  have hocc := only_false_iff.mp h
  rw [occurs_iff_hit, not_exists] at hocc
  rw [mask, (cuts_cut _ _).eq_map hocc, List.map_map]
  exact List.map_id t

theorem maskAll_of_only {ks : List RuleKind} {t : Marked}
    (h : ∀ k ∈ ks, k.pattern.Only t fun _ _ => False) : maskAll ks t = t := by
  induction ks with
  | nil => rfl
  | cons k ks ih =>
    rw [maskAll_cons, mask_of_only (h k List.mem_cons_self)]
    exact ih fun j hj => h j (List.mem_cons_of_mem k hj)

theorem redactStep_of_only {acc : RedactionResult} {k : RuleKind} {t : Marked}
    (ht : acc.text.toList = withTokens t) (h : k.pattern.Only t fun _ _ => False) :
    DefaultRedactor.redactStep acc k.rule = acc := by
  refine redactStep_of_not_occurs ?_
  rw [ht]
  exact fun hocc => only_false_iff.mp h ((occurs_render k.passesOver t).mp hocc)

theorem foldl_of_only {ks : List RuleKind} {acc : RedactionResult} {t : Marked}
    (ht : acc.text.toList = withTokens t) (h : ∀ k ∈ ks, k.pattern.Only t fun _ _ => False) :
    (ks.map RuleKind.rule).foldl DefaultRedactor.redactStep acc = acc := by
  induction ks with
  | nil => rfl
  | cons k ks ih =>
    rw [List.map_cons, List.foldl_cons, redactStep_of_only ht (h k List.mem_cons_self)]
    exact ih fun j hj => h j (List.mem_cons_of_mem k hj)

/-! ## The second pass -/

theorem phone_secretToken {t : Marked} (h : RuleKind.phone.pattern.Only t fun _ _ => False) :
    RuleKind.phone.pattern.Only (RuleKind.secretToken.pattern.mask .secretToken t)
      fun _ _ => False := by
  refine phone_stays_of ((after_boundary rfl).mono fun l n hne hd => ?_)
    wordEdges_secretToken.before (h.onlyKept _)
  rw [word_of_digit hd] at hne
  simpa using hne

theorem phone_bearer {t : Marked} (h : RuleKind.phone.pattern.Only t fun _ _ => False) :
    RuleKind.phone.pattern.Only (RuleKind.bearer.pattern.mask .bearer t) fun _ _ => False := by
  refine phone_stays_of ((after_munches rfl (P := fun _ => True) (fun _ _ _ _ => trivial)
    munches_bearer).mono fun l n hn hd => ?_) wordEdges_bearer.before (h.onlyKept _)
  rw [bearerChar_of_word (word_of_digit hd)] at hn
  exact nomatch hn.2

/-- What a pass leaves to the next one: its numbers and addresses are masked for good. -/
def Settled (k : RuleKind) : Prop := k ≠ .secretToken ∧ k ≠ .bearer

theorem spans_settled (text : String) {k : RuleKind} (hk : Settled k) :
    k.pattern.Only (spans text) fun _ _ => False := by
  have h := spans_only text k
  cases k with
  | secretToken => exact absurd rfl hk.1
  | bearer => exact absurd rfl hk.2
  | ip | email | ssn | creditCard | phone => exact h

/-- Secrets and bearer credentials are masked without exposing anything else. -/
theorem settled_mask {j k : RuleKind} (hj : j = .secretToken ∨ j = .bearer) (hk : Settled k)
    {t : Marked} (h : k.pattern.Only t fun _ _ => False) :
    k.pattern.Only (j.pattern.mask j t) fun _ _ => False := by
  cases k with
  | secretToken => exact absurd rfl hk.1
  | bearer => exact absurd rfl hk.2
  | ip => exact digitEnds_ip.stays (digitEdges j) (h.onlyKept _)
  | ssn => exact digitEnds_ssn.stays (digitEdges j) (h.onlyKept _)
  | creditCard => exact digitEnds_creditCard.stays (digitEdges j) (h.onlyKept _)
  | email => exact always_stays rfl rfl (h.onlyKept _)
  | phone =>
    rcases hj with rfl | rfl
    · exact phone_secretToken h
    · exact phone_bearer h

/-- The text after the secret and the bearer rule have masked once more. -/
def spansAgain (text : String) : Marked := maskAll [.secretToken, .bearer] (spans text)

theorem bearer_secretToken (t : Marked) : RuleKind.secretToken.pattern.Only
    (maskAll [.secretToken, .bearer] t) fun _ _ => False := by
  have h := wordEdges_secretToken.stays rfl (.inr rfl) secretToken_starts .secretToken
    (onlyKept_self RuleKind.secretToken.pattern t)
  exact wordEdges_bearer.stays rfl (.inr rfl) secretToken_starts .bearer (h.onlyKept _)

theorem bearer_bearer (t : Marked) :
    RuleKind.bearer.pattern.Only (maskAll [.bearer] t) fun _ _ => False :=
  wordEdges_bearer.stays rfl (.inl rfl) bearer_starts .bearer
    (onlyKept_self RuleKind.bearer.pattern t)

theorem settled_spansAgain (text : String) {k : RuleKind} (hk : Settled k) :
    k.pattern.Only (spansAgain text) fun _ _ => False := by
  have h := settled_mask (j := .secretToken) (.inl rfl) hk (spans_settled text hk)
  rw [spansAgain, maskAll_cons, maskAll_cons, maskAll_nil]
  exact settled_mask (.inr rfl) hk h

theorem spansAgain_only (text : String) (k : RuleKind) :
    k.pattern.Only (spansAgain text) fun _ _ => False := by
  by_cases hk : Settled k
  · exact settled_spansAgain text hk
  · rcases Decidable.or_iff_not_not_and_not.mpr hk with rfl | rfl
    · exact bearer_secretToken (spans text)
    · rw [spansAgain, maskAll_cons]
      exact bearer_bearer _

theorem redact_eq (text : String) :
    DefaultRedactor.redact [] text = (RuleKind.order.map RuleKind.rule).foldl
      DefaultRedactor.redactStep { text := text, findings := [] } := rfl

/-- From the masked text on, two rules of a pass find something. -/
theorem foldl_order {text : String} {acc : RedactionResult}
    (h : acc.text.toList = withTokens (spans text)) :
    (RuleKind.order.map RuleKind.rule).foldl DefaultRedactor.redactStep acc =
      ([RuleKind.secretToken, .bearer].map RuleKind.rule).foldl DefaultRedactor.redactStep acc := by
  have hip : ∀ k ∈ [RuleKind.ip], k.pattern.Only (spans text) fun _ _ => False :=
    List.forall_mem_singleton.mpr (spans_settled text ⟨nofun, nofun⟩)
  have hagain := text_foldl [.secretToken, .bearer] h
  rw [show RuleKind.order = [.ip] ++ ([.secretToken, .bearer] ++ [.email, .ssn, .creditCard,
    .phone]) from rfl, List.map_append, List.foldl_append, List.map_append, List.foldl_append,
    foldl_of_only h hip]
  exact foldl_of_only hagain fun k _ => spansAgain_only text k

theorem redact_redact (text : String) :
    DefaultRedactor.redact [] (DefaultRedactor.redact [] text).text =
      ([RuleKind.secretToken, .bearer].map RuleKind.rule).foldl DefaultRedactor.redactStep
        { text := (DefaultRedactor.redact [] text).text, findings := [] } := by
  rw [redact_eq (DefaultRedactor.redact [] text).text]
  exact foldl_order (text_redact text)

theorem clean_redact_redact (text : String) :
    Clean (DefaultRedactor.redact [] (DefaultRedactor.redact [] text).text).text := by
  intro rule hrule hocc
  obtain ⟨k, rfl⟩ := RuleKind.mem_defaultRules.mp hrule
  have hfirst : ({ text := (DefaultRedactor.redact [] text).text, findings := [] } :
      RedactionResult).text.toList = withTokens (spans text) := text_redact text
  rw [redact_redact, text_foldl [.secretToken, .bearer] hfirst] at hocc
  exact only_false_iff.mp (spansAgain_only text k) ((occurs_render k.passesOver _).mp hocc)

theorem kinds_foldl (rules : List Rule) (acc : RedactionResult) :
    ∀ f ∈ (rules.foldl DefaultRedactor.redactStep acc).findings,
      f ∈ acc.findings ∨ f.kind ∈ rules.map Rule.kind := by
  induction rules generalizing acc with
  | nil => exact fun f hf => .inl hf
  | cons rule rules ih =>
    intro f hf
    rcases ih _ f hf with hf | hf
    · unfold DefaultRedactor.redactStep at hf
      dsimp only at hf
      split at hf
      · rcases List.mem_append.mp hf with hf | hf
        · exact .inl hf
        · rw [List.mem_singleton.mp hf]
          exact .inr List.mem_cons_self
      · exact .inl hf
    · exact .inr (List.mem_cons_of_mem _ hf)

/-- Two passes are enough: whatever the text, the second one finds at most secrets and bearer
    credentials, and after it no default rule matches. -/
theorem redact_twice (text : String) :
    let twice := DefaultRedactor.redact [] (DefaultRedactor.redact [] text).text
    (∀ f ∈ twice.findings, f.kind = "secret_token" ∨ f.kind = "bearer") ∧
      Clean twice.text ∧
      DefaultRedactor.redact [] twice.text = { text := twice.text, findings := [] } := by
  intro twice
  have hclean : Clean twice.text := clean_redact_redact text
  refine ⟨fun f hf => ?_, hclean, redact_of_clean hclean⟩
  rw [show twice = _ from redact_redact text] at hf
  rcases kinds_foldl _ _ f hf with hf | hf
  · exact absurd hf List.not_mem_nil
  · simpa [RuleKind.rule, Rule.secretToken, Rule.bearer] using hf

end Harp
