import Harp.Core.Types
import Mathlib.Data.List.Basic

/-
  The knowledge store (`src/knowledge/KnowledgeStore.ts`): what it holds after a load.

  A document is known by its kind and its place in the list of its kind; `sourceId_inj` says
  that the two can be read off its id.
-/

namespace Harp

inductive KnowledgeKind where
  | architecture
  | sop
  | decision
  | issue
  | history
  deriving DecidableEq, Repr

structure KnowledgeHit where
  sourceId : String
  text : String
  kind : KnowledgeKind
  deriving DecidableEq, Repr

namespace KnowledgeKind

/-- What the id of a document begins with. -/
def idText : KnowledgeKind → String
  | architecture => "arch"
  | sop => "sop"
  | decision => "decision"
  | issue => "issue"
  | history => "history"

/-- The documents of a kind. -/
def documents (context : ProjectContext) : KnowledgeKind → List String
  | architecture => context.architectureDocs
  | sop => context.standardOperatingProcedures
  | decision => context.priorDecisions
  | issue => context.openIssues
  | history => context.workflowHistory

/-- The id of the document at place `i`. -/
def sourceId (kind : KnowledgeKind) (i : ℕ) : String := kind.idText ++ ":" ++ toString i

theorem toString_inj {i j : ℕ} (h : toString i = toString j) : i = j := by
  have hdigits : Nat.toDigits 10 i = Nat.toDigits 10 j := String.ofList_inj.mp h
  have hvalue := congrArg (fun ds => Nat.ofDigitChars 10 ds 0) hdigits
  simpa using hvalue

/-- The first letters of the five kinds are distinct. -/
theorem kind_of_head {kind kind' : KnowledgeKind}
    (h : kind.idText.toList.head? = kind'.idText.toList.head?) : kind = kind' := by
  revert h
  cases kind <;> cases kind' <;> decide

theorem head_sourceId (kind : KnowledgeKind) (i : ℕ) :
    (kind.sourceId i).toList.head? = kind.idText.toList.head? := by
  unfold sourceId
  rw [String.toList_append, String.toList_append, List.append_assoc]
  cases kind <;> rfl

theorem sourceId_inj {kind kind' : KnowledgeKind} {i j : ℕ} :
    sourceId kind i = sourceId kind' j ↔ kind = kind' ∧ i = j := by
  constructor
  · intro h
    have hhead := congrArg (fun s => s.toList.head?) h
    rw [head_sourceId, head_sourceId] at hhead
    obtain rfl := kind_of_head hhead
    unfold sourceId at h
    have hchars := congrArg String.toList h
    simp only [String.toList_append] at hchars
    exact ⟨rfl, toString_inj (String.toList_inj.mp (List.append_cancel_left hchars))⟩
  · rintro ⟨rfl, rfl⟩
    rfl

end KnowledgeKind

structure InMemoryKnowledgeStore where
  hits : List KnowledgeHit

namespace InMemoryKnowledgeStore

/-- `docs.forEach((text, i) => entries.push({ sourceId: …, text, kind }))`. -/
def entries (context : ProjectContext) (kind : KnowledgeKind) : List KnowledgeHit :=
  (kind.documents context).zipIdx.map fun p =>
    { sourceId := kind.sourceId p.2, text := p.1, kind := kind }

def load (context : ProjectContext) : InMemoryKnowledgeStore where
  hits := entries context .architecture ++ entries context .sop ++ entries context .decision ++
    entries context .issue ++ entries context .history

def all (store : InMemoryKnowledgeStore) : List KnowledgeHit := store.hits

/-- The store holds each document once under its own id. -/
theorem mem_load {context : ProjectContext} {hit : KnowledgeHit} :
    hit ∈ (load context).all ↔
      ∃ i, (hit.kind.documents context)[i]? = some hit.text ∧
        hit.sourceId = hit.kind.sourceId i := by
  have hentries (kind : KnowledgeKind) : hit ∈ entries context kind ↔ hit.kind = kind ∧
      ∃ i, (kind.documents context)[i]? = some hit.text ∧ hit.sourceId = kind.sourceId i := by
    unfold entries
    rw [List.mem_map]
    constructor
    · rintro ⟨⟨text, i⟩, hp, rfl⟩
      exact ⟨rfl, i, List.mem_zipIdx_iff_getElem?.mp hp, rfl⟩
    · rintro ⟨rfl, i, hi, hid⟩
      refine ⟨(hit.text, i), List.mem_zipIdx_iff_getElem?.mpr hi, ?_⟩
      rw [← hid]
  unfold all load
  simp only [List.mem_append, hentries]
  constructor
  · rintro ((((⟨hkind, h⟩ | ⟨hkind, h⟩) | ⟨hkind, h⟩) | ⟨hkind, h⟩) | ⟨hkind, h⟩) <;>
      exact hkind ▸ h
  · intro h
    cases hkind : hit.kind <;> rw [hkind] at h <;> simp [h]

end InMemoryKnowledgeStore

end Harp
