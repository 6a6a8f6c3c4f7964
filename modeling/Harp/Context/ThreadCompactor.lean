import Harp.Lib.Text
import Mathlib.Algebra.GroupWithZero.Nat
import Mathlib.Algebra.Group.Defs
import Mathlib.Algebra.Order.Ring.Rat

/-
  Thread compaction (`src/context/ThreadCompactor.ts`).

  Token weights are numbers that the code only adds up and compares. A summariser is code from
  outside: it gives a text or throws. Spans and meters of `obs` are left out.

  The record holds the text, the ids, the weights and the number of the claims. So the claims
  can be read off a record exactly when the text of the summariser tells them apart
  (`preserves_iff`).
-/

namespace Harp

structure CompactableItem (α : Type) where
  id : String
  title : String
  claims : List String
  approxTokens : α
  deriving DecidableEq, Repr

structure CompactionRecord (α : Type) where
  summary : String
  preservedDecisionCount : ℕ
  tokensBefore : α
  tokensAfter : ℕ
  compactedItemIds : List String
  deriving DecidableEq, Repr

/-- Gives the text of the items, or throws. -/
abbrev Summariser (α E : Type) := List (CompactableItem α) → Except E String

structure CompactionOptions (α : Type) where
  thresholdTokens : α

namespace ThreadCompactor

variable {α E : Type} [AddMonoid α]

/-- `items.reduce((s, i) => s + i.approxTokens, 0)`. -/
def totalTokens (items : List (CompactableItem α)) : α :=
  items.foldl (fun s i => s + i.approxTokens) 0

def shouldCompact [LT α] [DecidableLT α] (options : CompactionOptions α)
    (items : List (CompactableItem α)) : Bool :=
  totalTokens items > options.thresholdTokens

/-- The claims of all items, in order. -/
def decisions (items : List (CompactableItem α)) : List String := items.flatMap (·.claims)

/-- `Math.ceil(summary.length / 4)`. -/
def textTokens (summary : String) : ℕ := ((summary.toList.map Js.codeUnits).sum + 3) / 4

def compact (summarise : Summariser α E) (items : List (CompactableItem α)) :
    Except E (CompactionRecord α) := do
  let summary ← summarise items
  return {
    summary := summary
    preservedDecisionCount := (decisions items).length
    tokensBefore := totalTokens items
    tokensAfter := textTokens summary
    compactedItemIds := items.map (·.id) }

/-! ## What a record preserves -/

/-- The items have the same ids and token weights. -/
structure SameShape (xs ys : List (CompactableItem α)) : Prop where
  ids : xs.map (·.id) = ys.map (·.id)
  weights : xs.map (·.approxTokens) = ys.map (·.approxTokens)

/-- Items of the same shape that the summariser gives the same text, and whose records are equal,
    have the same claims. -/
def Preserves (summarise : Summariser α E) : Prop :=
  ∀ xs ys text, SameShape xs ys → summarise xs = .ok text → summarise ys = .ok text →
    (compact summarise xs).toOption = (compact summarise ys).toOption →
    decisions xs = decisions ys

theorem SameShape.totalTokens {xs ys : List (CompactableItem α)} (h : SameShape xs ys) :
    totalTokens xs = ThreadCompactor.totalTokens ys := by
  have hfold (items : List (CompactableItem α)) : ThreadCompactor.totalTokens items =
      (items.map (·.approxTokens)).foldl (· + ·) 0 := (List.foldl_map).symm
  rw [hfold xs, hfold ys, h.weights]

/-- Lists of the same shape are compacted at the same threshold. -/
theorem SameShape.shouldCompact [LT α] [DecidableLT α] {xs ys : List (CompactableItem α)}
    (h : SameShape xs ys) (options : CompactionOptions α) :
    shouldCompact options xs = ThreadCompactor.shouldCompact options ys := by
  unfold ThreadCompactor.shouldCompact
  rw [h.totalTokens]

theorem compact_ok {summarise : Summariser α E} {items : List (CompactableItem α)} {text : String}
    (h : summarise items = .ok text) : compact summarise items = .ok {
      summary := text
      preservedDecisionCount := (decisions items).length
      tokensBefore := totalTokens items
      tokensAfter := textTokens text
      compactedItemIds := items.map (·.id) } := by
  unfold compact
  rw [h]
  rfl

/-- Of two lists of the same shape with the same text, the records tell only the numbers of claims
    apart. -/
theorem compact_eq_iff {summarise : Summariser α E} {xs ys : List (CompactableItem α)}
    {text : String} (hshape : SameShape xs ys) (hxs : summarise xs = .ok text)
    (hys : summarise ys = .ok text) :
    (compact summarise xs).toOption = (compact summarise ys).toOption ↔
      (decisions xs).length = (decisions ys).length := by
  rw [compact_ok hxs, compact_ok hys, hshape.totalTokens, hshape.ids]
  simp [Except.toOption]

/-- Compaction preserves the claims exactly when the text of the summariser tells apart any two
    lists of the same shape with equally many but different claims. -/
theorem preserves_iff (summarise : Summariser α E) :
    Preserves summarise ↔
      ∀ xs ys, SameShape xs ys → (decisions xs).length = (decisions ys).length →
        decisions xs ≠ decisions ys →
        ¬ ∃ text, summarise xs = .ok text ∧ summarise ys = .ok text := by
  constructor
  · rintro h xs ys hshape hlength hne ⟨text, hxs, hys⟩
    exact hne (h xs ys text hshape hxs hys ((compact_eq_iff hshape hxs hys).mpr hlength))
  · intro h xs ys text hshape hxs hys heq
    by_contra hne
    have hlength := (compact_eq_iff hshape hxs hys).mp heq
    exact h xs ys hshape hlength hne ⟨text, hxs, hys⟩

/-! ## A summariser that counts -/

/-- One decision of one item. -/
def oneDecision (claim : String) : List (CompactableItem ℚ) :=
  [{ id := "1", title := "A", claims := [claim], approxTokens := 80 }]

/-- Two opposite decisions leave the same record. -/
theorem counting_loses_decisions :
    let summarise : Summariser ℚ Empty := fun _ => .ok "Summary of 1 items"
    SameShape (oneDecision "repo writes need approval") (oneDecision "repo writes are free") ∧
      compact summarise (oneDecision "repo writes need approval") =
        compact summarise (oneDecision "repo writes are free") ∧
      ¬ Preserves summarise := by
  intro summarise
  have hshape : SameShape (oneDecision "repo writes need approval")
      (oneDecision "repo writes are free") := ⟨rfl, rfl⟩
  refine ⟨hshape, rfl, ?_⟩
  intro h
  have hsame := h _ _ _ hshape rfl rfl rfl
  exact absurd hsame (by decide)

end ThreadCompactor

end Harp
