import Clear.Ai.Retrieval.Engine

/-!
# Reciprocal rank fusion

What `fuse` makes of two ranked legs: the keys with the highest sums of reciprocal ranks, each once
and in the order of the sums (`fuse_ranking`), with the facts of the records that the legs hold for
them.
-/

namespace Clear

namespace Retrieval

/-! ## The legs -/

structure VectorLeg (hits : List Evidence) : Prop where
  source : ∀ hit ∈ hits, hit.source = .vector
  similarity : ∀ hit ∈ hits, hit.similarity = some hit.score

structure KeywordLeg (hits : List Evidence) : Prop where
  source : ∀ hit ∈ hits, hit.source = .keyword
  similarity : ∀ hit ∈ hits, hit.similarity = none

def reciprocalRank (leg : List Evidence) (key : EmbeddingLevel × Uuid) : Rat :=
  if key ∈ leg.map (·.key) then
    1 / (rrfK + ((leg.map (·.key)).idxOf key + 1) : Nat)
  else 0

def rrf (vectorHits keywordHits : List Evidence) (key : EmbeddingLevel × Uuid) : Rat :=
  reciprocalRank vectorHits key + reciprocalRank keywordHits key

structure FusedRanking (vectorHits keywordHits : List Evidence) (limit : Nat)
    (fused : List Evidence) : Prop where
  nodup : (fused.map (·.key)).Nodup
  mem : ∀ item ∈ fused, item.key ∈ (vectorHits ++ keywordHits).map (·.key)
  length : fused.length = min limit ((vectorHits ++ keywordHits).map (·.key)).toFinset.card
  score : ∀ item ∈ fused, item.score = rrf vectorHits keywordHits item.key
  sorted : fused.Pairwise fun item later => later.score ≤ item.score
  best : ∀ hit ∈ vectorHits ++ keywordHits, hit.key ∉ fused.map (·.key) →
    ∀ item ∈ fused, rrf vectorHits keywordHits hit.key ≤ item.score
  ranks : fused.map (·.rank) = List.range' 1 fused.length
  fused_iff : ∀ item ∈ fused, item.source = .fused ↔
    item.key ∈ vectorHits.map (·.key) ∧ item.key ∈ keywordHits.map (·.key)
  similarity : ∀ item ∈ fused, ∀ hit ∈ vectorHits, hit.key = item.key →
    item.similarity = hit.similarity
  boxes : ∀ item ∈ fused, ∀ hit ∈ vectorHits ++ keywordHits, hit.key = item.key →
    hit.boundingBoxes ≠ [] → item.boundingBoxes ≠ []

/-! ## Ranks and orders -/

section

variable {items leg : List Evidence} {item : Evidence} {key : EmbeddingLevel × Uuid}

theorem mem_renumber :
    item ∈ renumber items ↔ ∃ hit ∈ items.zipIdx 1, { hit.1 with rank := hit.2 } = item := by
  unfold renumber
  rw [List.mem_map]

theorem map_renumber {β : Type} (f : Evidence → β)
    (hf : ∀ (item : Evidence) (n : Nat), f { item with rank := n } = f item) :
    (renumber items).map f = items.map f := by
  unfold renumber
  rw [List.map_map]
  refine Eq.trans (List.map_congr_left fun hit _ => hf hit.1 hit.2) ?_
  show (items.zipIdx 1).map (f ∘ Prod.fst) = items.map f
  rw [← List.map_map, List.zipIdx_map_fst]

theorem ranks_renumber : (renumber items).map (·.rank) = List.range' 1 items.length := by
  unfold renumber
  rw [List.map_map]
  exact List.zipIdx_map_snd 1 items

theorem length_renumber : (renumber items).length = items.length := by
  have h : ((renumber items).map (·.key)).length = (items.map (·.key)).length :=
    congrArg List.length (map_renumber _ fun _ _ => rfl)
  rwa [List.length_map, List.length_map] at h

theorem byScore_perm {α : Type} (score : α → Rat) (l : List α) : (byScore score l).Perm l :=
  List.perm_insertionSort _ l

theorem pairwise_byScore {α : Type} (score : α → Rat) (l : List α) :
    (byScore score l).Pairwise fun a b => score b ≤ score a := by
  have htotal : Std.Total fun a b : α => score b ≤ score a :=
    ⟨fun a b => le_total (score b) (score a)⟩
  have htrans : IsTrans α fun a b => score b ≤ score a := ⟨fun _ _ _ h h' => le_trans h' h⟩
  exact List.pairwise_insertionSort _ l

theorem map_key_zipIdx (leg : List Evidence) :
    (leg.zipIdx 1).map (·.1.key) = leg.map (·.key) := by
  conv_rhs => rw [← List.zipIdx_map_fst 1 leg, List.map_map]
  rfl

theorem filter_zipIdx_key (hnodup : (leg.map (·.key)).Nodup) (key : EmbeddingLevel × Uuid) :
    (key ∉ leg.map (·.key) ∧ (leg.zipIdx 1).filter (·.1.key = key) = []) ∨
      ∃ hit ∈ leg, hit.key = key ∧
        (leg.zipIdx 1).filter (·.1.key = key) = [(hit, (leg.map (·.key)).idxOf key + 1)] := by
  have hkeys := map_key_zipIdx leg
  have hnodup' : ((leg.zipIdx 1).map (·.1.key)).Nodup := by
    rw [hkeys]
    exact hnodup
  rcases Keyed.filter_eq_nil_or_singleton hnodup' key with hnone | ⟨⟨hit, n⟩, hone⟩
  · refine .inl ⟨fun hmem => ?_, hnone⟩
    rw [← hkeys] at hmem
    obtain ⟨hit, hhit, hkey⟩ := List.mem_map.1 hmem
    exact List.filter_eq_nil_iff.1 hnone hit hhit (by simpa using hkey)
  · have hmem : (hit, n) ∈ (leg.zipIdx 1).filter (·.1.key = key) := by rw [hone]; simp
    obtain ⟨hhit, hkey⟩ := List.mem_filter.1 hmem
    have hkey : hit.key = key := of_decide_eq_true hkey
    obtain ⟨hle, hget⟩ := List.mk_mem_zipIdx_iff_le_and_getElem?_sub.1 hhit
    obtain ⟨hlt, hget⟩ := List.getElem?_eq_some_iff.1 hget
    have hindex : (leg.map (·.key)).idxOf key = n - 1 := by
      have h := hnodup.idxOf_getElem (n - 1) (by simpa using hlt)
      rwa [List.getElem_map, hget, hkey] at h
    refine .inr ⟨hit, List.fst_mem_of_mem_zipIdx hhit, hkey, ?_⟩
    rw [hone, hindex, Nat.sub_add_cancel hle]

end

/-! ## The two dicts of the loop -/

section

variable {vectorHits keywordHits : List Evidence} {key : EmbeddingLevel × Uuid}

theorem fills_addScore : Dict.Fills (fun hit : Evidence × Nat => hit.1.key)
    (fun old hit => old.getD (0 : Rat) + 1 / (rrfK + hit.2 : Nat)) addScore :=
  .of_cases fun _ _ => .inl rfl

/-- The record that stays of a key. -/
def richer (kept : Option Evidence) (item : Evidence) : Evidence :=
  match kept with
  | none => item
  | some kept => if kept.boundingBoxes.isEmpty && !item.boundingBoxes.isEmpty then item else kept

theorem fills_keepRicher : Dict.Fills Evidence.key richer keepRicher := by
  refine .of_cases fun items item => ?_
  unfold keepRicher richer
  cases hkept : items.lookup item.key with
  | none => exact .inl rfl
  | some kept =>
    dsimp only
    split
    · exact .inl rfl
    · exact .inr ⟨rfl, rfl⟩

def fusedScores (vectorHits keywordHits : List Evidence) : List ((EmbeddingLevel × Uuid) × Rat) :=
  (vectorHits.zipIdx 1 ++ keywordHits.zipIdx 1).foldl addScore []

/-- `items` after the loop. -/
def fusedItems (vectorHits keywordHits : List Evidence) :
    List ((EmbeddingLevel × Uuid) × Evidence) :=
  (vectorHits ++ keywordHits).foldl keepRicher []

theorem mem_keys_fusedScores : key ∈ (fusedScores vectorHits keywordHits).map (·.1) ↔
    key ∈ (vectorHits ++ keywordHits).map (·.key) := by
  unfold fusedScores
  have hkeys : (vectorHits.zipIdx 1 ++ keywordHits.zipIdx 1).map (·.1.key) =
      (vectorHits ++ keywordHits).map (·.key) := by
    rw [List.map_append, map_key_zipIdx, map_key_zipIdx, List.map_append]
  rw [fills_addScore.mem_keys, hkeys]

theorem score_of_mem_fusedScores (hvector : (vectorHits.map (·.key)).Nodup)
    (hkeyword : (keywordHits.map (·.key)).Nodup) {score : Rat}
    (h : (key, score) ∈ fusedScores vectorHits keywordHits) :
    score = rrf vectorHits keywordHits key := by
  have hlookup := (Dict.lookup_eq_some_iff (fills_addScore.nodup_foldl _)).2 h
  rw [fills_addScore.lookup, List.filter_append] at hlookup
  unfold rrf reciprocalRank
  rcases filter_zipIdx_key hvector key with ⟨hv, hnone⟩ | ⟨hit, hmem, rfl, hone⟩
  · rw [hnone, List.nil_append] at hlookup
    rw [if_neg hv, zero_add]
    rcases filter_zipIdx_key hkeyword key with ⟨hk, hnone'⟩ | ⟨hit', hmem', rfl, hone'⟩
    · rw [hnone'] at hlookup
      cases hlookup
    · rw [hone'] at hlookup
      rw [if_pos (List.mem_map_of_mem hmem')]
      simpa using hlookup.symm
  · rw [hone] at hlookup
    rw [if_pos (List.mem_map_of_mem hmem)]
    rcases filter_zipIdx_key hkeyword hit.key with ⟨hk, hnone'⟩ | ⟨hit', hmem', hkey, hone'⟩
    · rw [hnone'] at hlookup
      rw [if_neg hk, add_zero]
      simpa using hlookup.symm
    · rw [hone'] at hlookup
      rw [if_pos (hkey ▸ List.mem_map_of_mem hmem')]
      simpa using hlookup.symm

/-- The record of a key is the one of a leg, with coordinates where a leg has them. -/
theorem lookup_fusedItems (h : key ∈ (vectorHits ++ keywordHits).map (·.key)) :
    ∃ kept ∈ vectorHits ++ keywordHits, kept.key = key ∧
      (fusedItems vectorHits keywordHits).lookup key = some kept ∧
      ∀ hit ∈ vectorHits ++ keywordHits, hit.key = key → hit.boundingBoxes ≠ [] →
        kept.boundingBoxes ≠ [] := by
  unfold fusedItems
  generalize vectorHits ++ keywordHits = hits at *
  -- the fold over the hits of the key, from the first of them on
  have hfold : ∀ (todo : List Evidence) (first : Evidence), ∃ kept ∈ first :: todo,
      todo.foldl (fun old item => some (richer old item)) (some first) = some kept ∧
      ∀ hit ∈ first :: todo, hit.boundingBoxes ≠ [] → kept.boundingBoxes ≠ [] := by
    intro todo
    induction todo with
    | nil => exact fun first => ⟨first, by simp, rfl, by simp⟩
    | cons item todo ih =>
      intro first
      obtain ⟨kept, hmem, heq, hboxes⟩ := ih (richer (some first) item)
      have hricher : (richer (some first) item = first ∨ richer (some first) item = item) ∧
          (first.boundingBoxes ≠ [] ∨ item.boundingBoxes ≠ [] →
            (richer (some first) item).boundingBoxes ≠ []) := by
        unfold richer
        by_cases hempty : first.boundingBoxes = []
        · by_cases hitem : item.boundingBoxes = []
          · simp [hempty, hitem]
          · simp [hempty, hitem]
        · simp [hempty]
      refine ⟨kept, ?_, heq, fun hit hhit hbox => ?_⟩
      · rcases List.mem_cons.1 hmem with rfl | hmem
        · rcases hricher.1 with h | h
          · rw [h]
            exact List.mem_cons_self
          · rw [h]
            exact List.mem_cons_of_mem _ List.mem_cons_self
        · exact List.mem_cons_of_mem _ (List.mem_cons_of_mem _ hmem)
      · rcases List.mem_cons.1 hhit with rfl | hhit
        · exact hboxes _ List.mem_cons_self (hricher.2 (.inl hbox))
        · rcases List.mem_cons.1 hhit with rfl | hhit
          · exact hboxes _ List.mem_cons_self (hricher.2 (.inr hbox))
          · exact hboxes hit (List.mem_cons_of_mem _ hhit) hbox
  rw [fills_keepRicher.lookup]
  obtain ⟨hit, hhit, hkey⟩ := List.mem_map.1 h
  have hmem : hit ∈ hits.filter (·.key = key) := List.mem_filter.2 ⟨hhit, by simpa using hkey⟩
  cases hsame : hits.filter (·.key = key) with
  | nil =>
    rw [hsame] at hmem
    cases hmem
  | cons first todo =>
    obtain ⟨kept, hkept, heq, hboxes⟩ := hfold todo first
    rw [← hsame] at hkept hboxes
    obtain ⟨hkept, hkey⟩ := List.mem_filter.1 hkept
    exact ⟨kept, hkept, of_decide_eq_true hkey, heq,
      fun hit hhit hkey => hboxes hit (List.mem_filter.2 ⟨hhit, by simpa using hkey⟩)⟩

/-! ## What fusion answers -/

/-- The entries of `scores` that are answered, best first. -/
def topScores (vectorHits keywordHits : List Evidence) (limit : Nat) :
    List ((EmbeddingLevel × Uuid) × Rat) :=
  (byScore (·.2) (fusedScores vectorHits keywordHits)).take limit

/-- The record of a key filled in for the answer. -/
def fusedItem (vectorHits keywordHits : List Evidence) (e : (EmbeddingLevel × Uuid) × Rat)
    (item : Evidence) : Evidence :=
  { item with
    score := e.2
    similarity := item.similarity.or
      ((Dict.ofItems (vectorHits.map fun item => (item.key, item.score))).lookup e.1)
    source :=
      if (vectorHits.any (·.key = e.1)) && keywordHits.any (·.key = e.1) then .fused
      else item.source }

theorem fuse_eq (vectorHits keywordHits : List Evidence) (limit : Nat) :
    fuse vectorHits keywordHits limit =
      renumber ((topScores vectorHits keywordHits limit).filterMap fun e =>
        ((fusedItems vectorHits keywordHits).lookup e.1).map
          (fusedItem vectorHits keywordHits e)) :=
  rfl

theorem mem_topScores {limit : Nat} {e : (EmbeddingLevel × Uuid) × Rat}
    (h : e ∈ topScores vectorHits keywordHits limit) : e ∈ fusedScores vectorHits keywordHits :=
  mem_byScore.1 (List.mem_of_mem_take h)

/-- The record that the answer has for an entry. -/
theorem lookup_of_mem_topScores {limit : Nat} {e : (EmbeddingLevel × Uuid) × Rat}
    (h : e ∈ topScores vectorHits keywordHits limit) :
    ∃ kept ∈ vectorHits ++ keywordHits, kept.key = e.1 ∧
      (fusedItems vectorHits keywordHits).lookup e.1 = some kept ∧
      ∀ hit ∈ vectorHits ++ keywordHits, hit.key = e.1 → hit.boundingBoxes ≠ [] →
        kept.boundingBoxes ≠ [] :=
  lookup_fusedItems (mem_keys_fusedScores.1 (List.mem_map_of_mem (mem_topScores h)))

theorem map_fuse (limit : Nat) :
    (fuse vectorHits keywordHits limit).map (fun item => (item.key, item.score)) =
      topScores vectorHits keywordHits limit := by
  rw [fuse_eq, map_renumber _ fun _ _ => rfl, List.map_filterMap]
  conv_rhs => rw [← List.filterMap_some (l := topScores vectorHits keywordHits limit)]
  refine List.filterMap_congr fun e he => ?_
  obtain ⟨kept, -, hkept, hlookup, -⟩ := lookup_of_mem_topScores he
  rw [hlookup]
  show some (kept.key, e.2) = some e
  rw [hkept]

theorem exists_of_mem_fuse {limit : Nat} {item : Evidence}
    (h : item ∈ fuse vectorHits keywordHits limit) :
    ∃ kept ∈ vectorHits ++ keywordHits, kept.key = item.key ∧
      item =
        { fusedItem vectorHits keywordHits (item.key, item.score) kept with rank := item.rank } ∧
      ∀ hit ∈ vectorHits ++ keywordHits, hit.key = item.key → hit.boundingBoxes ≠ [] →
        kept.boundingBoxes ≠ [] := by
  rw [fuse_eq, mem_renumber] at h
  obtain ⟨⟨filled, n⟩, hfilled, rfl⟩ := h
  obtain ⟨e, he, heq⟩ := List.mem_filterMap.1 (List.fst_mem_of_mem_zipIdx hfilled)
  obtain ⟨kept, hmem, hkept, hlookup, hboxes⟩ := lookup_of_mem_topScores he
  rw [hlookup] at heq
  obtain rfl : fusedItem vectorHits keywordHits e kept = filled := Option.some.inj heq
  refine ⟨kept, hmem, rfl, ?_, ?_⟩
  · show { fusedItem vectorHits keywordHits e kept with rank := n } =
      { fusedItem vectorHits keywordHits (kept.key, e.2) kept with rank := n }
    rw [hkept]
  · show ∀ hit ∈ vectorHits ++ keywordHits, hit.key = kept.key → hit.boundingBoxes ≠ [] →
      kept.boundingBoxes ≠ []
    rw [hkept]
    exact hboxes

end

/-! ## The ranking -/

section

variable {vectorHits keywordHits : List Evidence} {limit : Nat} {item : Evidence}

theorem keys_fuse : (fuse vectorHits keywordHits limit).map (·.key) =
    (topScores vectorHits keywordHits limit).map (·.1) := by
  rw [← map_fuse, List.map_map]
  rfl

theorem nodup_keys_fusedScores : ((fusedScores vectorHits keywordHits).map (·.1)).Nodup :=
  fills_addScore.nodup_foldl _

theorem length_fuse : (fuse vectorHits keywordHits limit).length =
    min limit ((vectorHits ++ keywordHits).map (·.key)).toFinset.card := by
  have hcard : (fusedScores vectorHits keywordHits).length =
      ((vectorHits ++ keywordHits).map (·.key)).toFinset.card := by
    rw [← List.length_map (·.1), ← List.toFinset_card_of_nodup nodup_keys_fusedScores]
    congr 1
    ext key
    rw [List.mem_toFinset, List.mem_toFinset, mem_keys_fusedScores]
  have hlength : ((fuse vectorHits keywordHits limit).map fun item =>
      (item.key, item.score)).length = (topScores vectorHits keywordHits limit).length :=
    congrArg List.length (map_fuse limit)
  rw [List.length_map] at hlength
  rw [hlength, ← hcard, topScores, List.length_take, (byScore_perm _ _).length_eq]

theorem mem_topScores_of_mem_fuse (h : item ∈ fuse vectorHits keywordHits limit) :
    (item.key, item.score) ∈ topScores vectorHits keywordHits limit := by
  rw [← map_fuse]
  exact List.mem_map_of_mem (f := fun item => (item.key, item.score)) h

theorem pairwise_fuse : (fuse vectorHits keywordHits limit).Pairwise
    fun item later => later.score ≤ item.score := by
  have hsorted : (topScores vectorHits keywordHits limit).Pairwise fun e e' => e'.2 ≤ e.2 :=
    (pairwise_byScore _ _).sublist (List.take_sublist _ _)
  rw [← map_fuse, List.pairwise_map] at hsorted
  exact hsorted

/-- What is cut off scores no more than what is answered. -/
theorem score_le_of_notMem_fuse {key : EmbeddingLevel × Uuid} {score : Rat}
    (h : (key, score) ∈ fusedScores vectorHits keywordHits)
    (hcut : key ∉ (fuse vectorHits keywordHits limit).map (·.key))
    (hitem : item ∈ fuse vectorHits keywordHits limit) : score ≤ item.score := by
  have hsorted := pairwise_byScore (·.2) (fusedScores vectorHits keywordHits)
  rw [← List.take_append_drop limit (byScore _ _), List.pairwise_append] at hsorted
  refine hsorted.2.2 (item.key, item.score) (mem_topScores_of_mem_fuse hitem) (key, score) ?_
  have hmem : (key, score) ∈ byScore (·.2) (fusedScores vectorHits keywordHits) := mem_byScore.2 h
  rw [← List.take_append_drop limit (byScore _ _), List.mem_append] at hmem
  refine hmem.resolve_left fun htop => hcut ?_
  rw [keys_fuse]
  exact List.mem_map_of_mem htop

end

/-- Fusion ranks the best keys of two legs with distinct keys. -/
theorem fuse_ranking {vectorHits keywordHits : List Evidence} (hvector : VectorLeg vectorHits)
    (hkeyword : KeywordLeg keywordHits) (hvectorKeys : (vectorHits.map (·.key)).Nodup)
    (hkeywordKeys : (keywordHits.map (·.key)).Nodup) (limit : Nat) :
    FusedRanking vectorHits keywordHits limit (fuse vectorHits keywordHits limit) := by
  have hscore : ∀ {key score}, (key, score) ∈ fusedScores vectorHits keywordHits →
      score = rrf vectorHits keywordHits key :=
    fun h => score_of_mem_fusedScores hvectorKeys hkeywordKeys h
  constructor
  case nodup =>
    rw [keys_fuse]
    exact (((byScore_perm _ _).map _).nodup_iff.2 nodup_keys_fusedScores).sublist
      ((List.take_sublist _ _).map _)
  case mem =>
    intro item hitem
    obtain ⟨kept, hmem, hkey, -⟩ := exists_of_mem_fuse hitem
    exact hkey ▸ List.mem_map_of_mem hmem
  case length => exact length_fuse
  case score =>
    intro item hitem
    exact hscore (mem_topScores (mem_topScores_of_mem_fuse hitem))
  case sorted => exact pairwise_fuse
  case best =>
    intro hit hhit hcut item hitem
    obtain ⟨⟨key, score⟩, he, rfl⟩ := List.mem_map.1
      (mem_keys_fusedScores.2 (List.mem_map_of_mem (f := Evidence.key) hhit))
    rw [← hscore he]
    exact score_le_of_notMem_fuse he hcut hitem
  case ranks =>
    rw [fuse_eq, ranks_renumber, length_renumber]
  case fused_iff =>
    intro item hitem
    obtain ⟨kept, hmem, -, heq, -⟩ := exists_of_mem_fuse hitem
    have hkept : kept.source ≠ .fused := by
      rcases List.mem_append.1 hmem with h | h
      · simp [hvector.source kept h]
      · simp [hkeyword.source kept h]
    have hsource : item.source =
        if (vectorHits.any (·.key = item.key)) && keywordHits.any (·.key = item.key) then .fused
        else kept.source := congrArg (·.source) heq
    rw [hsource, ite_eq_left_iff]
    simp only [hkept, imp_false, not_not, Bool.and_eq_true, List.any_eq_true, decide_eq_true_eq,
      List.mem_map]
  case similarity =>
    intro item hitem hit hhit hkey
    obtain ⟨kept, hmem, hkept, heq, -⟩ := exists_of_mem_fuse hitem
    rw [heq, hvector.similarity hit hhit]
    show kept.similarity.or (List.lookup item.key _) = some hit.score
    rcases List.mem_append.1 hmem with h | h
    · rw [hvector.similarity kept h,
        Keyed.inj hvectorKeys h hhit (hkept.trans hkey.symm), Option.some_or]
    · rw [hkeyword.similarity kept h, Option.none_or, ← hkey]
      refine Dict.lookup_ofItems (List.mem_map_of_mem hhit) fun e he heq => ?_
      obtain ⟨hit', hhit', rfl⟩ := List.mem_map.1 he
      rw [Keyed.inj hvectorKeys hhit' hhit heq]
  case boxes =>
    intro item hitem hit hhit hkey hbox
    obtain ⟨kept, -, -, heq, hboxes⟩ := exists_of_mem_fuse hitem
    rw [heq]
    exact hboxes hit hhit hkey hbox

namespace FusionSample

def hit (refId : Uuid) (source : EvidenceSource) (score : Rat) (similarity : Option Rat)
    (boundingBoxes : List Value) : Evidence :=
  { level := .chunk, refId, contractId := 1, projectId := 1, text := "Rent is due monthly.", score,
    source, similarity, boundingBoxes }

def vectorHits : List Evidence :=
  [hit 1 .vector (9 / 10) (some (9 / 10)) [], hit 2 .vector (4 / 5) (some (4 / 5)) []]

def keywordHits : List Evidence :=
  [hit 2 .keyword 3 none [.list []], hit 3 .keyword 1 none []]

end FusionSample

/-- The chunk that both legs found comes first. -/
theorem fuse_ranking_pair :
    FusedRanking FusionSample.vectorHits FusionSample.keywordHits 2
        (fuse FusionSample.vectorHits FusionSample.keywordHits 2) ∧
      (fuse FusionSample.vectorHits FusionSample.keywordHits 2).map
          (fun item => (item.refId, item.source, item.similarity)) =
        [(2, .fused, some (4 / 5)), (1, .vector, some (9 / 10))] := by
  refine ⟨fuse_ranking ⟨by decide, by decide +kernel⟩ ⟨by decide, by decide⟩ (by decide)
    (by decide) 2, by decide +kernel⟩

end Retrieval

end Clear
