import Harp.Knowledge.KnowledgeStore
import Harp.Lib.StableSort
import Harp.Lib.Text

/-
  The search of the knowledge store (`src/knowledge/KnowledgeStore.ts`).

  `toLowerCase` is a parameter: any function from texts to texts. A limit is a natural number.

  The hits that score are sorted by their score, and the sort is stable, so the load order breaks
  ties. What is returned is a first part of that ranking, and so the best of it (`search_top`).
-/

namespace Harp.InMemoryKnowledgeStore

section

variable (toLowerCase : String → String)

/-- The terms of a query, in lower case and with repetitions. -/
def terms (query : String) : List String :=
  ((Js.splitSpaces (toLowerCase query).toList).filter fun t => Js.length t > 2).map String.ofList

/-- A hit and its score. -/
structure ScoredHit where
  hit : KnowledgeHit
  score : ℕ

/-- A hit scores for each term that it contains. -/
def scored (terms : List String) (hit : KnowledgeHit) : ScoredHit where
  hit := hit
  score := terms.foldl (fun acc term =>
    acc + if Js.includes (toLowerCase hit.text) term then 1 else 0) 0

/-- `search(query, limit)`, where `limit` is 10 by default. -/
def search (store : InMemoryKnowledgeStore) (query : String) (limit : Option ℕ) :
    List KnowledgeHit :=
  let limit := limit.getD 10
  let terms := terms toLowerCase query
  if terms.length = 0 then store.hits.take limit
  else
    ((((store.hits.map (scored toLowerCase terms)).filter (·.score > 0)).insertionSort
      fun a b => b.score ≤ a.score).take limit).map (·.hit)

/-! ## The ranking -/

/-- How many of the terms a hit contains. -/
def contained (terms : List String) (hit : KnowledgeHit) : ℕ :=
  terms.countP fun term => Js.includes (toLowerCase hit.text) term

/-- The hits that contain a term, the greatest number first. -/
def ranking (terms : List String) (hits : List KnowledgeHit) : List KnowledgeHit :=
  (hits.filter (contained toLowerCase terms · > 0)).insertionSort fun a b =>
    OrderDual.toDual (contained toLowerCase terms a) ≤
      OrderDual.toDual (contained toLowerCase terms b)

theorem scored_score (terms : List String) (hit : KnowledgeHit) :
    (scored toLowerCase terms hit).score = contained toLowerCase terms hit := by
  have hfold (n : ℕ) : terms.foldl (fun acc term =>
      acc + if Js.includes (toLowerCase hit.text) term then 1 else 0) n =
        n + contained toLowerCase terms hit := by
    unfold contained
    induction terms generalizing n with
    | nil => rfl
    | cons term terms ih =>
      rw [List.foldl_cons, ih, List.countP_cons]
      omega
  rw [scored, hfold, Nat.zero_add]

/-- The search takes a first part of the ranking. -/
theorem search_eq (store : InMemoryKnowledgeStore) {query : String} (limit : Option ℕ)
    (hterms : terms toLowerCase query ≠ []) :
    search toLowerCase store query limit =
      (ranking toLowerCase (terms toLowerCase query) store.hits).take (limit.getD 10) := by
  have hne : ¬ (terms toLowerCase query).length = 0 := by simpa using hterms
  have hfilter : (store.hits.map (scored toLowerCase (terms toLowerCase query))).filter
      (·.score > 0) =
        (store.hits.filter (contained toLowerCase (terms toLowerCase query) · > 0)).map
          (scored toLowerCase (terms toLowerCase query)) := by
    rw [List.filter_map]
    congr 1
    refine List.filter_congr fun hit _ => ?_
    rw [Function.comp_apply, scored_score]
  have hid (hits : List KnowledgeHit) :
      (hits.map (scored toLowerCase (terms toLowerCase query))).map (·.hit) = hits := by
    rw [List.map_map]
    exact List.map_id hits
  unfold search ranking
  simp only [hne, if_false]
  rw [List.map_take, hfilter, ← List.map_insertionSort
    (r := fun a b => contained toLowerCase (terms toLowerCase query) b ≤
      contained toLowerCase (terms toLowerCase query) a), hid]
  · rfl
  · intro a _ b _
    rw [scored_score, scored_score]

theorem ranking_stablySorted (terms : List String) (hits : List KnowledgeHit) :
    StablySorted (fun hit => OrderDual.toDual (contained toLowerCase terms hit))
      (hits.filter (contained toLowerCase terms · > 0)) (ranking toLowerCase terms hits) :=
  stablySorted_insertionSort _ _

/-! ## The top of the ranking -/

/-- What a search for terms finds among the hits of a store. -/
structure TopHits (terms : List String) (hits found : List KnowledgeHit) (limit : ℕ) : Prop where
  length : found.length =
    min limit (hits.countP fun hit => terms.any (Js.includes (toLowerCase hit.text)))
  distinct : (found.map (·.sourceId)).Nodup
  matching : ∀ hit ∈ found, hit ∈ hits ∧ contained toLowerCase terms hit > 0
  ordered : found.Pairwise fun a b =>
    contained toLowerCase terms b < contained toLowerCase terms a ∨
      contained toLowerCase terms a = contained toLowerCase terms b ∧ [a, b].Sublist hits
  best : ∀ hit ∈ hits, hit ∉ found → ∀ r ∈ found,
    contained toLowerCase terms hit ≤ contained toLowerCase terms r

/-- The text of the hit is the document that its id names. -/
def Identifies (context : ProjectContext) (hit : KnowledgeHit) : Prop :=
  ∃ kind i, (KnowledgeKind.documents context kind)[i]? = some hit.text ∧
    ∀ kind' i', hit.sourceId = kind'.sourceId i' ↔ kind' = kind ∧ i' = i

variable {toLowerCase} {terms : List String} {hits : List KnowledgeHit}

theorem contained_pos (hit : KnowledgeHit) : contained toLowerCase terms hit > 0 ↔
    terms.any (Js.includes (toLowerCase hit.text)) = true := by
  unfold contained
  rw [gt_iff_lt, List.countP_pos_iff, List.any_eq_true]

theorem take_topHits (hnodup : (hits.map (·.sourceId)).Nodup) (limit : ℕ) :
    TopHits toLowerCase terms hits ((ranking toLowerCase terms hits).take limit) limit where
  length := by
    rw [List.length_take, (ranking_stablySorted toLowerCase terms hits).perm.length_eq,
      ← List.countP_eq_length_filter]
    congr 1
    refine List.countP_congr fun hit _ => ?_
    rw [decide_eq_true_iff, contained_pos]
  distinct := by
    have hperm := (ranking_stablySorted toLowerCase terms hits).perm.map (·.sourceId)
    have hsub := (List.filter_sublist (p := (contained toLowerCase terms · > 0))
      (l := hits)).map (·.sourceId)
    exact (hperm.nodup_iff.mpr (hsub.nodup hnodup)).sublist ((List.take_sublist _ _).map _)
  matching := by
    intro hit hhit
    have hmem := (ranking_stablySorted toLowerCase terms hits).perm.mem_iff.mp
      (List.mem_of_mem_take hhit)
    simpa using hmem
  ordered := by
    have hsorted := (ranking_stablySorted toLowerCase terms hits).sorted
    have hties := (ranking_stablySorted toLowerCase terms hits).ties
    refine List.Pairwise.sublist (List.take_sublist _ _) ((hsorted.and hties).imp ?_)
    rintro a b ⟨hle, hsub⟩
    rcases lt_or_eq_of_le (OrderDual.toDual_le_toDual.mp hle) with hlt | heq
    · exact .inl hlt
    · exact .inr ⟨heq.symm, (hsub (congrArg _ heq.symm)).trans List.filter_sublist⟩
  best := by
    intro hit hhit hout r hr
    by_cases hpos : contained toLowerCase terms hit > 0
    · have hmem := (ranking_stablySorted toLowerCase terms hits).perm.mem_iff.mpr
        (List.mem_filter.mpr ⟨hhit, decide_eq_true hpos⟩)
      have hsorted := (ranking_stablySorted toLowerCase terms hits).sorted
      rw [← List.take_append_drop limit (ranking toLowerCase terms hits)] at hmem hsorted
      rcases List.mem_append.mp hmem with h | h
      · exact absurd h hout
      · exact OrderDual.toDual_le_toDual.mp ((List.pairwise_append.mp hsorted).2.2 r hr hit h)
    · omega

/-! ## Searching what has been loaded -/

theorem load_nodup (context : ProjectContext) : ((load context).hits.map (·.sourceId)).Nodup := by
  have hhits : (load context).hits = [KnowledgeKind.architecture, .sop, .decision, .issue,
      .history].flatMap (entries context) := by simp [load]
  have hids (kind : KnowledgeKind) : (entries context kind).map (·.sourceId) =
      (List.range (kind.documents context).length).map kind.sourceId := by
    rw [List.range_eq_range', ← List.zipIdx_map_snd, entries, List.map_map, List.map_map]
    rfl
  rw [hhits, List.map_flatMap, List.nodup_flatMap]
  constructor
  · intro kind _
    rw [hids]
    exact List.nodup_range.map fun i j h => (KnowledgeKind.sourceId_inj.mp h).2
  · have hkinds : [KnowledgeKind.architecture, .sop, .decision, .issue, .history].Nodup := by
      decide
    refine hkinds.imp fun {kind kind'} hne => ?_
    intro id h h'
    simp only [hids] at h h'
    obtain ⟨i, -, rfl⟩ := List.mem_map.mp h
    obtain ⟨j, -, hj⟩ := List.mem_map.mp h'
    exact hne (KnowledgeKind.sourceId_inj.mp hj).1.symm

theorem identifies_of_mem {context : ProjectContext} {hit : KnowledgeHit}
    (h : hit ∈ (load context).hits) : Identifies context hit := by
  obtain ⟨i, htext, hid⟩ := mem_load.mp h
  refine ⟨hit.kind, i, htext, fun kind' i' => ?_⟩
  rw [hid, KnowledgeKind.sourceId_inj]
  exact and_congr eq_comm eq_comm

end

/-- A search of a loaded context finds the top hits, or the first ones if the query has no term,
    and each under the id of its document. -/
theorem search_top (toLowerCase : String → String) (context : ProjectContext) (query : String)
    (limit : Option ℕ) :
    let hits := (load context).hits
    let found := search toLowerCase (load context) query limit
    let terms := terms toLowerCase query
    (terms ≠ [] → TopHits toLowerCase terms hits found (limit.getD 10)) ∧
      (terms = [] → found = hits.take (limit.getD 10)) ∧
      ∀ hit ∈ found, Identifies context hit := by
  intro hits found terms
  have htop (hterms : terms ≠ []) : TopHits toLowerCase terms hits found (limit.getD 10) := by
    rw [show found = _ from search_eq toLowerCase (load context) limit hterms]
    exact take_topHits (load_nodup context) _
  have hfirst (hterms : terms = []) : found = hits.take (limit.getD 10) := by
    simp only [found, search]
    rw [if_pos (List.length_eq_zero_iff.mpr hterms)]
  refine ⟨htop, hfirst, fun hit hhit => identifies_of_mem ?_⟩
  by_cases hterms : terms = []
  · rw [hfirst hterms] at hhit
    exact List.mem_of_mem_take hhit
  · exact ((htop hterms).matching hit hhit).1

end Harp.InMemoryKnowledgeStore
