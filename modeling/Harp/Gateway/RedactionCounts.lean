import Harp.Gateway.Spans
import Harp.Lib.Occurrences

/-
  What the findings of the default redactor count (`src/gateway/redaction/Redactor.ts`).

  All tokens are in square brackets, and no rule matches into a token or over one. So a rule adds
  as many of its tokens as it reports matches, and neither makes nor destroys a token of another
  rule; over all seven rules the findings are exactly what has been written into the text.
-/

namespace Harp

open Pattern

namespace RuleKind

theorem bracketed : Bracketed placeholder '[' ']' where
  first k := by cases k <;> rfl
  last k := by cases k <;> rfl
  opens_once k := by cases k <;> decide
  closes_once k := by cases k <;> decide
  ne := by decide

theorem chars_inj {j k : RuleKind} : j.placeholder.chars = k.placeholder.chars ↔ j = k := by
  cases j <;> cases k <;> decide

theorem kind_inj {j k : RuleKind} : j.rule.kind = k.rule.kind ↔ j = k := by
  cases j <;> cases k <;> decide

theorem nodup_order : order.Nodup := by decide

theorem rules_eq : DefaultRedactor.rules [] = order.map rule := rfl

/-- The matches of the rule in a text. -/
def hits (k : RuleKind) (text : String) : ℕ := (k.rule.replace text).2

/-- One rule adds its token once for each match, and no other token. -/
theorem occurrences_replace (j k : RuleKind) (text : String) :
    occurrences j.rule.token.toList (k.rule.replace text).1.toList =
      occurrences j.rule.token.toList text.toList + if j = k then k.hits text else 0 := by
  rw [Rule.replace, String.toList_ofList, token_eq, token_eq,
    occurrences_replaceAll bracketed k.passesOver]
  simp only [chars_inj]
  rfl

theorem replace_of_no_hits {k : RuleKind} {text : String} (h : k.hits text = 0) :
    (k.rule.replace text).1 = text := by
  rw [Rule.replace, replaceAll_of_no_hit h, String.ofList_toList]

end RuleKind

namespace DefaultRedactor

/-- The count that the findings report for a kind, 0 if they do not list it. -/
def reported (findings : List RedactionFinding) (kind : String) : ℕ :=
  ((findings.find? fun f => f.kind == kind).map RedactionFinding.count).getD 0

theorem reported_snoc {findings : List RedactionFinding} {g : RedactionFinding}
    (hg : ∀ f ∈ findings, f.kind ≠ g.kind) (kind : String) :
    reported (findings ++ [g]) kind =
      reported findings kind + if g.kind = kind then g.count else 0 := by
  by_cases hkind : g.kind = kind
  · subst hkind
    have hnone : findings.find? (fun f => f.kind == g.kind) = none := by simpa using hg
    simp [reported, List.find?_append, hnone]
  · have hlast : [g].find? (fun f => f.kind == kind) = none := by simpa using hkind
    simp [reported, List.find?_append, hlast, hkind]

/-- What the rules `ks` have made of a text. -/
structure Counted (text : String) (ks : List RuleKind) (acc : RedactionResult) : Prop where
  listed : (acc.findings.map (·.kind)).Sublist (ks.map fun k => k.rule.kind)
  positive : ∀ f ∈ acc.findings, 0 < f.count
  tokens : ∀ j : RuleKind, occurrences j.rule.token.toList acc.text.toList =
    occurrences j.rule.token.toList text.toList + reported acc.findings j.rule.kind
  unchanged : acc.findings = [] → acc.text = text

theorem Counted.kind_ne {text : String} {ks : List RuleKind} {acc : RedactionResult}
    (h : Counted text ks acc) {k : RuleKind} (hk : k ∉ ks) :
    ∀ f ∈ acc.findings, f.kind ≠ k.rule.kind := by
  intro f hf heq
  obtain ⟨j, hj, hjf⟩ := List.mem_map.mp (h.listed.subset (List.mem_map_of_mem hf))
  exact hk (RuleKind.kind_inj.mp (hjf.trans heq) ▸ hj)

/-- One more rule. -/
theorem Counted.step {text : String} {ks : List RuleKind} {acc : RedactionResult}
    (h : Counted text ks acc) {k : RuleKind} (hk : k ∉ ks) :
    Counted text (ks ++ [k]) (redactStep acc k.rule) := by
  by_cases hhits : k.hits acc.text = 0
  · have hstep : redactStep acc k.rule = acc := by
      unfold redactStep
      rw [RuleKind.replace_of_no_hits hhits, if_neg (by exact hhits.not_gt)]
    rw [hstep]
    refine ⟨?_, h.positive, h.tokens, h.unchanged⟩
    rw [List.map_append]
    exact h.listed.trans (List.sublist_append_left _ _)
  · have hpos : 0 < k.hits acc.text := Nat.pos_of_ne_zero hhits
    have hfindings : (redactStep acc k.rule).findings =
        acc.findings ++ [{ kind := k.rule.kind, count := k.hits acc.text }] := if_pos hpos
    refine ⟨?_, ?_, fun j => ?_, fun hnil => ?_⟩
    · rw [hfindings, List.map_append, List.map_append]
      exact h.listed.append (List.Sublist.refl _)
    · rw [hfindings]
      exact List.forall_mem_append.mpr ⟨h.positive, List.forall_mem_singleton.mpr hpos⟩
    · change occurrences _ (k.rule.replace acc.text).1.toList = _
      rw [hfindings, reported_snoc (h.kind_ne hk), RuleKind.occurrences_replace, h.tokens,
        Nat.add_assoc]
      simp only [RuleKind.kind_inj, eq_comm]
    · rw [hfindings] at hnil
      exact absurd hnil (List.append_ne_nil_of_right_ne_nil _ (List.cons_ne_nil _ _))

/-- Any rules of different kinds, one after the other. -/
theorem counted_foldl (text : String) {ks : List RuleKind} (hks : ks.Nodup) :
    Counted text ks ((ks.map RuleKind.rule).foldl redactStep { text := text, findings := [] }) := by
  induction ks using List.reverseRecOn with
  | nil => exact ⟨.slnil, nofun, fun _ => rfl, fun _ => rfl⟩
  | append_singleton ks k ih =>
    rw [List.map_append, List.foldl_append]
    have hsplit := List.nodup_append.mp hks
    exact (ih hsplit.1).step fun hk => hsplit.2.2 k hk k List.mem_cons_self rfl

/-- The findings say exactly what was masked. -/
structure FindingsExact (text : String) (r : RedactionResult) : Prop where
  once : (r.findings.map (·.kind)).Nodup
  inOrder : (r.findings.map (·.kind)).Sublist ((rules []).map (·.kind))
  positive : ∀ f ∈ r.findings, 0 < f.count
  tokens : ∀ rule ∈ rules [], occurrences rule.token.toList r.text.toList =
    occurrences rule.token.toList text.toList + reported r.findings rule.kind
  empty_iff : r.findings = [] ↔ r.text = text

/-- A kind that is listed has more tokens than before. -/
theorem Counted.ne_of_mem {text : String} {ks : List RuleKind} {acc : RedactionResult}
    (h : Counted text ks acc) {f : RedactionFinding} (hf : f ∈ acc.findings) : acc.text ≠ text := by
  obtain ⟨k, -, hk⟩ := List.mem_map.mp (h.listed.subset (List.mem_map_of_mem hf))
  intro heq
  have htokens := h.tokens k
  rw [heq] at htokens
  obtain ⟨g, hg⟩ : ∃ g, acc.findings.find? (fun g => g.kind == k.rule.kind) = some g := by
    rw [← Option.isSome_iff_exists, List.find?_isSome]
    exact ⟨f, hf, by simp [hk]⟩
  have hpos := h.positive g (List.mem_of_find?_eq_some hg)
  rw [reported, hg] at htokens
  simp at htokens
  omega

theorem redact_findings (text : String) : FindingsExact text (redact [] text) := by
  have h := counted_foldl text RuleKind.nodup_order
  rw [← RuleKind.rules_eq] at h
  have hkinds : ((rules []).map (·.kind)).Nodup := by decide
  refine ⟨h.listed.nodup hkinds, h.listed, h.positive, ?_, h.unchanged, fun heq => ?_⟩
  · intro rule hrule
    rw [RuleKind.rules_eq] at hrule
    obtain ⟨k, -, rfl⟩ := List.mem_map.mp hrule
    exact h.tokens k
  · exact List.eq_nil_iff_forall_not_mem.mpr fun f hf => h.ne_of_mem hf heq

end DefaultRedactor

end Harp
