import Harp.Gateway.Redactor

/-
  Which parts of a text the default rules mask (`src/gateway/redaction/Redactor.ts`).

  `spans` runs the rules as maskings: it keeps the text, with the masked spans in it. The
  redacted text is it with the tokens written out, since no rule matches into a token.
-/

namespace Harp

open Redactor Pattern

/-- The kinds of the default rules. -/
inductive RuleKind where
  | ip
  | secretToken
  | bearer
  | email
  | ssn
  | creditCard
  | phone
  deriving DecidableEq

namespace RuleKind

def rule : RuleKind → Rule
  | ip => .ip
  | secretToken => .secretToken
  | bearer => .bearer
  | email => .email
  | ssn => .ssn
  | creditCard => .creditCard
  | phone => .phone

abbrev pattern (k : RuleKind) : Pattern Char := k.rule.pattern

/-- The rule's token. -/
def placeholder : RuleKind → Placeholder Char
  | ip => ⟨'[', "REDACTED_IP".toList, ']'⟩
  | secretToken => ⟨'[', "REDACTED_SECRET".toList, ']'⟩
  | bearer => ⟨'[', "REDACTED_BEARER".toList, ']'⟩
  | email => ⟨'[', "REDACTED_EMAIL".toList, ']'⟩
  | ssn => ⟨'[', "REDACTED_SSN".toList, ']'⟩
  | creditCard => ⟨'[', "REDACTED_CC".toList, ']'⟩
  | phone => ⟨'[', "REDACTED_PHONE".toList, ']'⟩

theorem token_eq (k : RuleKind) : k.rule.token.toList = k.placeholder.chars := by
  cases k <;> decide

/-- No rule matches in a token, or into one. -/
theorem passesOver (k j : RuleKind) : k.pattern.passesOver j.placeholder = true := by
  cases k <;> cases j <;> decide

/-- The order in which the default rules run. -/
def order : List RuleKind := [ip, secretToken, bearer, email, ssn, creditCard, phone]

theorem mem_defaultRules {r : Rule} : r ∈ defaultRules ↔ ∃ k : RuleKind, r = k.rule := by
  constructor
  · intro h
    simp only [defaultRules, List.mem_cons, List.not_mem_nil, or_false] at h
    rcases h with rfl | rfl | rfl | rfl | rfl | rfl | rfl
    exacts [⟨email, rfl⟩, ⟨phone, rfl⟩, ⟨creditCard, rfl⟩, ⟨ssn, rfl⟩, ⟨ip, rfl⟩,
      ⟨secretToken, rfl⟩, ⟨bearer, rfl⟩]
  · rintro ⟨k, rfl⟩
    cases k <;> simp [defaultRules, rule]

end RuleKind

/-! ## Which parts of a text are masked -/

/-- A text in which the rules have masked spans. -/
abbrev Marked := List (Glyph RuleKind Char)

/-- The rules mask their matches, one after the other. -/
def maskAll (ks : List RuleKind) (t : Marked) : Marked := ks.foldl (fun t k => k.pattern.mask k t) t

theorem maskAll_nil (t : Marked) : maskAll [] t = t := rfl

theorem maskAll_cons (k : RuleKind) (ks : List RuleKind) (t : Marked) :
    maskAll (k :: ks) t = maskAll ks (k.pattern.mask k t) := rfl

theorem maskAll_append (ks js : List RuleKind) (t : Marked) :
    maskAll (ks ++ js) t = maskAll js (maskAll ks t) := List.foldl_append

/-- The text, with the spans that the default rules mask. -/
def spans (text : String) : Marked := maskAll RuleKind.order (text.toList.map .kept)

/-- The masked spans and the rest are the text. -/
theorem source_spans (text : String) : (spans text).flatMap Glyph.source = text.toList := by
  have hall (ks : List RuleKind) (t : Marked) :
      (maskAll ks t).flatMap Glyph.source = t.flatMap Glyph.source := by
    induction ks generalizing t with
    | nil => rfl
    | cons k ks ih => exact (ih _).trans (source_mask k.pattern k t)
  rw [spans, hall, List.flatMap_map]
  exact List.flatMap_singleton' _

/-- The text with the tokens. -/
abbrev withTokens (t : Marked) : List Char := renderAll RuleKind.placeholder t

theorem text_redactStep (acc : RedactionResult) (k : RuleKind) {t : Marked}
    (h : acc.text.toList = withTokens t) :
    (DefaultRedactor.redactStep acc k.rule).text.toList = withTokens (k.pattern.mask k t) := by
  unfold DefaultRedactor.redactStep Rule.replace
  rw [String.toList_ofList, h, k.token_eq]
  exact replaceAll_render k.passesOver k t

theorem text_foldl (ks : List RuleKind) {acc : RedactionResult} {t : Marked}
    (h : acc.text.toList = withTokens t) :
    ((ks.map RuleKind.rule).foldl DefaultRedactor.redactStep acc).text.toList =
      withTokens (maskAll ks t) := by
  induction ks generalizing acc t with
  | nil => exact h
  | cons k ks ih => exact ih (text_redactStep acc k h)

/-- The redacted text. -/
theorem text_redact (text : String) :
    (DefaultRedactor.redact [] text).text.toList = withTokens (spans text) := by
  refine text_foldl RuleKind.order ?_
  rw [withTokens, renderAll, List.flatMap_map]
  exact (List.flatMap_singleton' _).symm

end Harp
