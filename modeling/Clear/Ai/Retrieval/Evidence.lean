import Clear.Core.Enums
import Clear.Core.Text
import Clear.Core.Uuid
import Clear.Core.Value
import Clear.Lib.Dict
import Mathlib.Algebra.Order.Ring.Rat
import Mathlib.Data.List.Sort

/-!
# Retrieved evidence

One item of `RetrievalResult.evidence`, and the functions of `app/ai/retrieval/engine.py` that
reorder and thin out lists of items: reciprocal rank fusion, deduplication and the suppression of
near duplicates. None of them changes where an item comes from (`origin`).
-/

namespace Clear

namespace Retrieval

/-- How an item was found. -/
inductive EvidenceSource where
  | vector | keyword | fused | neighbour | graph
  deriving DecidableEq, Repr

/-- One retrieved item, with everything a citation needs. -/
structure Evidence where
  level : EmbeddingLevel
  refId : Uuid
  contractId : Uuid
  projectId : Uuid
  text : String
  score : Rat
  source : EvidenceSource := .vector
  rank : Nat := 0
  contractTitle : Option String := none
  clauseType : Option String := none
  clauseNumber : Option String := none
  sectionTitle : Option String := none
  pageStart : Option Nat := none
  pageEnd : Option Nat := none
  boundingBoxes : List Value := []
  chunkId : Option Uuid := none
  similarity : Option Rat := none
  rerankScore : Option Rat := none

namespace Evidence

def key (e : Evidence) : EmbeddingLevel × Uuid := (e.level, e.refId)

structure Origin where
  level : EmbeddingLevel
  refId : Uuid
  contractId : Uuid
  projectId : Uuid
  chunkId : Option Uuid

def origin (e : Evidence) : Origin where
  level := e.level
  refId := e.refId
  contractId := e.contractId
  projectId := e.projectId
  chunkId := e.chunkId

end Evidence

def renumber (items : List Evidence) : List Evidence :=
  (items.zipIdx 1).map fun (item, rank) => { item with rank }

def byScore {α : Type} (score : α → Rat) (items : List α) : List α :=
  items.insertionSort fun a b => score b ≤ score a

/-! ## Fusion -/

def rrfK : Nat := 60

def addScore (scores : List ((EmbeddingLevel × Uuid) × Rat)) (hit : Evidence × Nat) :
    List ((EmbeddingLevel × Uuid) × Rat) :=
  Dict.assign scores hit.1.key ((scores.lookup hit.1.key).getD 0 + 1 / (rrfK + hit.2 : Nat))

def keepRicher (items : List ((EmbeddingLevel × Uuid) × Evidence)) (item : Evidence) :
    List ((EmbeddingLevel × Uuid) × Evidence) :=
  match items.lookup item.key with
  | none => Dict.assign items item.key item
  | some kept =>
    if kept.boundingBoxes.isEmpty && !item.boundingBoxes.isEmpty then
      Dict.assign items item.key item
    else items

/-- Reciprocal rank fusion of the two legs. -/
def fuse (vectorHits keywordHits : List Evidence) (limit : Nat) : List Evidence :=
  let scores := (vectorHits.zipIdx 1 ++ keywordHits.zipIdx 1).foldl addScore []
  let items := (vectorHits ++ keywordHits).foldl keepRicher []
  let similarities := Dict.ofItems (vectorHits.map fun item => (item.key, item.score))
  let inBoth key := (vectorHits.any (·.key = key)) && keywordHits.any (·.key = key)
  renumber <| ((byScore (·.2) scores).take limit).filterMap fun (key, score) =>
    (items.lookup key).map fun item =>
      { item with
        score
        similarity := item.similarity.or (similarities.lookup key)
        source := if inBoth key then .fused else item.source }

/-! ## Duplicates -/

/-- Overlapping word n-grams; a text too short for one is compared as a whole. -/
def shingles (lower : String → String) (text : String) : List String :=
  let words := Text.split (lower text)
  if words.length < 8 then
    if words.isEmpty then [] else [" ".intercalate words]
  else
    ((List.range (words.length - 7)).map fun i =>
      " ".intercalate ((words.drop i).take 8)).eraseDups

/-- Four fifths of the shorter text's shingles are in the other (`_NEAR_DUPLICATE_CONTAINMENT`). -/
def nearDuplicate (a b : List String) : Bool :=
  4 * min a.length b.length ≤ 5 * (a.filter (· ∈ b)).length

/-- Drop passages that repeat text already admitted higher up. -/
def suppressNearDuplicates (lower : String → String) (evidence : List Evidence) :
    List Evidence :=
  (evidence.foldl (fun (kept : List Evidence × List (List String)) item =>
    let shingles := shingles lower item.text
    if shingles.isEmpty then (kept.1 ++ [item], kept.2)
    else if kept.2.any (nearDuplicate shingles) then kept
    else (kept.1 ++ [item], kept.2 ++ [shingles])) ([], [])).1

/-- Keep the highest-scoring occurrence of each key; it takes over the source of a real hit. -/
def keepBest (best : List ((EmbeddingLevel × Uuid) × Evidence)) (item : Evidence) :
    List ((EmbeddingLevel × Uuid) × Evidence) :=
  match best.lookup item.key with
  | none => Dict.assign best item.key item
  | some existing =>
    if existing.score < item.score then
      Dict.assign best item.key
        (if existing.source ∈ [.vector, .keyword, .fused] then
          { item with source := existing.source }
        else item)
    else best

def deduplicate (lower : String → String) (evidence : List Evidence) : List Evidence :=
  renumber <| suppressNearDuplicates lower <|
    byScore (·.score) ((evidence.foldl keepBest []).map (·.2))

/-! ## Origins are kept -/

section

variable {item : Evidence} {items evidence : List Evidence}

theorem origin_of_mem_renumber (h : item ∈ renumber items) :
    ∃ source ∈ items, source.origin = item.origin := by
  unfold renumber at h
  obtain ⟨⟨source, rank⟩, hmem, rfl⟩ := List.mem_map.1 h
  exact ⟨source, List.fst_mem_of_mem_zipIdx hmem, rfl⟩

theorem mem_byScore {α : Type} {score : α → Rat} {a : α} {l : List α} :
    a ∈ byScore score l ↔ a ∈ l := List.mem_insertionSort _

theorem mem_keepRicher {d : List ((EmbeddingLevel × Uuid) × Evidence)}
    {e : (EmbeddingLevel × Uuid) × Evidence} (h : e ∈ keepRicher d item) : e ∈ d ∨ e.2 = item := by
  unfold keepRicher at h
  split at h
  · exact (Dict.mem_assign h).imp_right fun h => by rw [h]
  · split at h
    · exact (Dict.mem_assign h).imp_right fun h => by rw [h]
    · exact .inl h

/-- What a dict that is filled item by item holds under a key is one of the items, up to what the
filling changes. -/
theorem mem_of_foldl {f : List ((EmbeddingLevel × Uuid) × Evidence) → Evidence →
      List ((EmbeddingLevel × Uuid) × Evidence)}
    (hf : ∀ d item, ∀ e ∈ f d item, e ∈ d ∨ e.2.origin = item.origin)
    {e : (EmbeddingLevel × Uuid) × Evidence} (h : e ∈ items.foldl f []) :
    ∃ source ∈ items, source.origin = e.2.origin := by
  have hfold : ∀ (todo : List Evidence) (d : List ((EmbeddingLevel × Uuid) × Evidence)),
      e ∈ todo.foldl f d → e ∈ d ∨ ∃ source ∈ todo, source.origin = e.2.origin := by
    intro todo
    induction todo with
    | nil => exact fun d h => .inl h
    | cons item todo ih =>
      intro d h
      rcases ih _ h with h | ⟨source, hsource, horigin⟩
      · rcases hf d item e h with h | horigin
        · exact .inl h
        · exact .inr ⟨item, List.mem_cons_self, horigin.symm⟩
      · exact .inr ⟨source, List.mem_cons_of_mem _ hsource, horigin⟩
  exact (hfold items [] h).resolve_left (by simp)

theorem origin_of_mem_fuse {vectorHits keywordHits : List Evidence} {limit : Nat}
    (h : item ∈ fuse vectorHits keywordHits limit) :
    ∃ source ∈ vectorHits ++ keywordHits, source.origin = item.origin := by
  unfold fuse at h
  obtain ⟨fused, hfused, horigin⟩ := origin_of_mem_renumber h
  obtain ⟨⟨key, score⟩, -, hmap⟩ := List.mem_filterMap.1 hfused
  obtain ⟨kept, hkept, rfl⟩ := Option.map_eq_some_iff.1 hmap
  obtain ⟨source, hsource, heq⟩ := mem_of_foldl (f := keepRicher)
    (fun d item e he => (mem_keepRicher he).imp_right fun h => by rw [h])
    (Dict.mem_of_lookup hkept)
  exact ⟨source, hsource, heq.trans horigin⟩

theorem mem_suppressNearDuplicates {lower : String → String}
    (h : item ∈ suppressNearDuplicates lower evidence) : item ∈ evidence := by
  have hfold : ∀ (todo : List Evidence) (kept : List Evidence × List (List String)),
      item ∈ (todo.foldl (fun (kept : List Evidence × List (List String)) item =>
        let shingles := shingles lower item.text
        if shingles.isEmpty then (kept.1 ++ [item], kept.2)
        else if kept.2.any (nearDuplicate shingles) then kept
        else (kept.1 ++ [item], kept.2 ++ [shingles])) kept).1 → item ∈ kept.1 ∨ item ∈ todo := by
    intro todo
    induction todo with
    | nil => exact fun kept h => .inl h
    | cons next todo ih =>
      intro kept h
      rw [List.foldl_cons] at h
      rcases ih _ h with h | h
      · dsimp only at h
        split at h
        · rcases List.mem_append.1 h with h | h
          · exact .inl h
          · exact .inr (by simp [List.mem_singleton.1 h])
        · split at h
          · exact .inl h
          · rcases List.mem_append.1 h with h | h
            · exact .inl h
            · exact .inr (by simp [List.mem_singleton.1 h])
      · exact .inr (List.mem_cons_of_mem _ h)
  exact (hfold evidence ([], []) h).resolve_left (by simp)

theorem origin_of_mem_keepBest {d : List ((EmbeddingLevel × Uuid) × Evidence)}
    {e : (EmbeddingLevel × Uuid) × Evidence} (h : e ∈ keepBest d item) :
    e ∈ d ∨ e.2.origin = item.origin := by
  unfold keepBest at h
  split at h
  · exact (Dict.mem_assign h).imp_right fun h => by rw [h]
  · split at h
    · refine (Dict.mem_assign h).imp_right fun h => ?_
      rw [h]
      dsimp only
      split <;> rfl
    · exact .inl h

theorem origin_of_mem_deduplicate {lower : String → String}
    (h : item ∈ deduplicate lower evidence) :
    ∃ source ∈ evidence, source.origin = item.origin := by
  unfold deduplicate at h
  obtain ⟨kept, hkept, horigin⟩ := origin_of_mem_renumber h
  obtain ⟨e, he, rfl⟩ := List.mem_map.1 (mem_byScore.1 (mem_suppressNearDuplicates hkept))
  obtain ⟨source, hsource, heq⟩ := mem_of_foldl (f := keepBest)
    (fun d item e he => origin_of_mem_keepBest he) he
  exact ⟨source, hsource, heq.trans horigin⟩

end

end Retrieval

end Clear
