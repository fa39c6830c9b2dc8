import Clear.Ai.Retrieval.Proof.Fusion
import Clear.Lib.Thinning
import Mathlib.Data.List.MinMax

/-!
# Deduplication

`deduplicate` keeps of each key the first occurrence with the highest score, as it is but for the
source that it may take over (`deduplicate_eq`). So it keeps the facts of every hit if and only if
those occurrences have them (`keepsFacts_iff`).
-/

/-!
## Suppression of near duplicates

`suppressNearDuplicates` compares a passage with every passage that is admitted, of whatever
contract. It removes repetition and nothing else if and only if the passages that stay when the
repetition inside each contract is removed do not overlap (`removesRepetition_iff`).
-/

namespace Clear

namespace Retrieval

variable {lower : String → String} {evidence : List Evidence}

/-! ## The loop -/

/-- Neither passage is blank, and one repeats the other. -/
def overlap (lower : String → String) (a b : Evidence) : Bool :=
  !(shingles lower a.text).isEmpty && !(shingles lower b.text).isEmpty &&
    nearDuplicate (shingles lower a.text) (shingles lower b.text)

theorem suppressNearDuplicates_eq (lower : String → String) (evidence : List Evidence) :
    suppressNearDuplicates lower evidence = Thinning.thin (overlap lower) evidence := by
  -- the signatures are the shingles of the passages admitted that are not blank
  have hfold : ∀ (todo kept : List Evidence),
      (todo.foldl (fun (kept : List Evidence × List (List String)) item =>
        let shingles := shingles lower item.text
        if shingles.isEmpty then (kept.1 ++ [item], kept.2)
        else if kept.2.any (nearDuplicate shingles) then kept
        else (kept.1 ++ [item], kept.2 ++ [shingles]))
          (kept, (kept.map (shingles lower ·.text)).filter (!·.isEmpty))).1 =
      todo.foldl (Thinning.step (overlap lower)) kept := by
    intro todo
    induction todo with
    | nil => exact fun kept => rfl
    | cons item todo ih =>
      intro kept
      rw [List.foldl_cons, List.foldl_cons, ← ih]
      congr 2
      dsimp only
      unfold Thinning.step
      by_cases hblank : (shingles lower item.text).isEmpty = true
      · have hnone : ¬ kept.any (overlap lower item) = true := by
          rw [List.any_eq_true]
          intro ⟨b, _, hclash⟩
          simp [overlap, hblank] at hclash
        rw [if_pos hblank, if_neg hnone]
        simp [hblank]
      · have hany : ((kept.map (shingles lower ·.text)).filter (!·.isEmpty)).any
            (nearDuplicate (shingles lower item.text)) = kept.any (overlap lower item) := by
          rw [List.any_filter, List.any_map]
          refine List.any_congr rfl fun b => ?_
          simp [overlap, hblank]
        rw [if_neg hblank, hany]
        split
        · rfl
        · simp [hblank]
  exact hfold evidence []

/-! ## Repetition and nothing else -/

/-- Only repetition inside a contract is removed. The passages kept of a first part of the list
stay, whatever comes after it (`admitted`), so `dropped` is about each passage at its turn. -/
structure RemovesRepetition (lower : String → String) (evidence : List Evidence) : Prop where
  sublist : (suppressNearDuplicates lower evidence).Sublist evidence
  apart : (suppressNearDuplicates lower evidence).Pairwise fun earlier later =>
    overlap lower later earlier = false
  admitted : ∀ before after, evidence = before ++ after →
    suppressNearDuplicates lower before <+: suppressNearDuplicates lower evidence
  dropped : ∀ before item after, evidence = before ++ item :: after →
    suppressNearDuplicates lower (before ++ [item]) =
        suppressNearDuplicates lower before ++ [item] ∨
      ∃ kept ∈ suppressNearDuplicates lower before,
        overlap lower item kept = true ∧ kept.contractId = item.contractId
  represented : ∀ item ∈ evidence, ∃ kept ∈ suppressNearDuplicates lower evidence,
    kept.contractId = item.contractId

def overlapWithin (lower : String → String) (a b : Evidence) : Bool :=
  overlap lower a b && a.contractId = b.contractId

/-- The passages that stay when each is compared with those of its own contract only. -/
def withinContracts (lower : String → String) (evidence : List Evidence) : List Evidence :=
  Thinning.thin (overlapWithin lower) evidence

def ApartAcross (lower : String → String) (evidence : List Evidence) : Prop :=
  (withinContracts lower evidence).Pairwise fun earlier later =>
    earlier.contractId ≠ later.contractId → overlap lower later earlier = false

theorem overlap_of_within (a b : Evidence) (h : overlapWithin lower a b = true) :
    overlap lower a b = true := (Bool.and_eq_true_iff.1 h).1

theorem apartAcross_iff : ApartAcross lower evidence ↔
    (withinContracts lower evidence).Pairwise fun earlier later =>
      overlap lower later earlier = false := by
  unfold ApartAcross
  refine ⟨fun h => ?_, fun h => h.imp fun {earlier later} hapart
    (_ : earlier.contractId ≠ later.contractId) => hapart⟩
  refine (h.and (Thinning.pairwise_thin (overlapWithin lower) evidence)).imp ?_
  intro earlier later hboth
  by_cases hcontract : earlier.contractId = later.contractId
  · simpa [overlapWithin, hcontract] using hboth.2
  · exact hboth.1 hcontract

/-- Suppression removes repetition and nothing else if and only if no passage repeats one of another
contract, once the repetition inside each contract is gone. -/
theorem removesRepetition_iff (lower : String → String) (evidence : List Evidence) :
    RemovesRepetition lower evidence ↔ ApartAcross lower evidence := by
  have heq : ∀ l, suppressNearDuplicates lower l = Thinning.thin (overlap lower) l :=
    suppressNearDuplicates_eq lower
  have hsame : Thinning.thin (overlap lower) evidence = withinContracts lower evidence ↔
      ApartAcross lower evidence := by
    rw [apartAcross_iff]
    exact Thinning.thin_eq_iff overlap_of_within
  have hturns : Thinning.thin (overlap lower) evidence = withinContracts lower evidence ↔ _ :=
    Thinning.thin_eq_iff_dropped overlap_of_within
  constructor
  · intro h
    rw [← hsame, hturns]
    intro before item after hsplit
    have hdropped := h.dropped before item after hsplit
    rw [heq, heq] at hdropped
    refine hdropped.imp_right fun ⟨kept, hkept, hoverlap, hcontract⟩ => ⟨kept, hkept, ?_⟩
    simp [overlapWithin, hoverlap, hcontract]
  · intro h
    have hall := hsame.2 h
    constructor
    case sublist =>
      rw [heq]
      exact Thinning.thin_sublist _ _
    case apart =>
      rw [heq]
      exact Thinning.pairwise_thin _ _
    case admitted =>
      intro before after hsplit
      rw [heq, heq, hsplit]
      exact Thinning.thin_isPrefix _ _ _
    case dropped =>
      intro before item after hsplit
      rw [heq, heq]
      refine (hturns.1 hall before item after hsplit).imp_right ?_
      intro ⟨kept, hkept, hwithin⟩
      refine ⟨kept, hkept, overlap_of_within _ _ hwithin, ?_⟩
      simpa using (of_decide_eq_true (Bool.and_eq_true_iff.1 hwithin).2).symm
    case represented =>
      intro item hitem
      rw [heq, hall]
      refine Thinning.exists_mem_thin (fun a b hwithin ha => ?_) hitem rfl
      exact (of_decide_eq_true (Bool.and_eq_true_iff.1 hwithin).2).symm.trans ha

def boilerplate (contractId : Uuid) (score : Rat) : Evidence :=
  { level := .clause, refId := contractId, contractId, projectId := 1, score,
    text := "Either party may terminate this Agreement for convenience upon thirty days prior " ++
      "written notice to the other party." }

/-- A clause that two contracts share is kept of one of them. -/
theorem shared_boilerplate :
    ¬ RemovesRepetition Stdlib.ascii.lower [boilerplate 1 (9 / 10), boilerplate 2 (4 / 5)] := by
  intro h
  obtain ⟨kept, hkept, hcontract⟩ := h.represented (boilerplate 2 (4 / 5)) (by simp)
  have hone : (suppressNearDuplicates Stdlib.ascii.lower
      [boilerplate 1 (9 / 10), boilerplate 2 (4 / 5)]).all (·.contractId = 1) = true := by
    decide +kernel
  have hfirst : kept.contractId = 1 := of_decide_eq_true (List.all_eq_true.1 hone kept hkept)
  rw [hfirst] at hcontract
  exact absurd hcontract (by decide)

end Retrieval

end Clear

namespace Clear

namespace Retrieval

/-- Found by a search itself, not by an expansion. -/
def Evidence.IsHit (item : Evidence) : Prop := item.source ∈ [.vector, .keyword, .fused]

/-! ## The occurrences of one key -/

def better (existing : Option Evidence) (item : Evidence) : Evidence :=
  match existing with
  | none => item
  | some existing =>
    if existing.score < item.score then
      if existing.source ∈ [.vector, .keyword, .fused] then
        { item with source := existing.source }
      else item
    else existing

def Leads (occurrences : List Evidence) : Prop :=
  ∃ before hit after, occurrences = before ++ hit :: after ∧ hit.IsHit ∧
    ∀ item ∈ before, item.score < hit.score

def bestOf (occurrences : List Evidence) : Option Evidence := occurrences.argmax (·.score)

def winner (occurrences : List Evidence) : Option Evidence :=
  occurrences.foldl (fun existing item => some (better existing item)) none

section

variable {occurrences : List Evidence} {item : Evidence}

theorem leads_concat : Leads (occurrences ++ [item]) ↔
    Leads occurrences ∨ item.IsHit ∧ ∀ e ∈ occurrences, e.score < item.score := by
  constructor
  · intro ⟨before, hit, after, heq, hhit, hbefore⟩
    rcases List.eq_nil_or_concat after with rfl | ⟨after, last, rfl⟩
    · obtain ⟨rfl, hlast⟩ := List.append_inj' heq rfl
      obtain rfl := List.singleton_inj.1 hlast
      exact .inr ⟨hhit, hbefore⟩
    · left
      rw [List.concat_eq_append, ← List.cons_append, ← List.append_assoc] at heq
      exact ⟨before, hit, after, (List.append_inj' heq rfl).1, hhit, hbefore⟩
  · rintro (⟨before, hit, after, rfl, hhit, hbefore⟩ | ⟨hhit, hbefore⟩)
    · exact ⟨before, hit, after ++ [item], by simp, hhit, hbefore⟩
    · exact ⟨occurrences, item, [], rfl, hhit, hbefore⟩

theorem winner_concat :
    winner (occurrences ++ [item]) = some (better (winner occurrences) item) := by
  unfold winner
  rw [List.foldl_append, List.foldl_cons, List.foldl_nil]

theorem winner_eq (hne : occurrences ≠ []) : ∃ best source, bestOf occurrences = some best ∧
    winner occurrences = some { best with source } ∧
      (source ∈ [EvidenceSource.vector, .keyword, .fused] ↔ Leads occurrences) := by
  induction occurrences using List.reverseRecOn with
  | nil => exact absurd rfl hne
  | append_singleton occurrences item ih =>
    rw [winner_concat, leads_concat]
    unfold bestOf at *
    rw [List.argmax_concat]
    by_cases hempty : occurrences = []
    · subst hempty
      refine ⟨item, item.source, rfl, rfl, ?_⟩
      have hnone : ¬ Leads [] := by
        intro ⟨before, hit, after, heq, _⟩
        simp at heq
      simp [hnone, Evidence.IsHit]
    · obtain ⟨best, source, hbest, hwinner, hsource⟩ := ih hempty
      rw [hbest, hwinner]
      have hmax : ∀ e ∈ occurrences, e.score ≤ best.score :=
        fun e he => List.le_of_mem_argmax he hbest
      by_cases hlt : best.score < item.score
      · have hbefore : ∀ e ∈ occurrences, e.score < item.score :=
          fun e he => lt_of_le_of_lt (hmax e he) hlt
        refine ⟨item, if source ∈ [.vector, .keyword, .fused] then source else item.source,
          if_pos hlt, ?_, ?_⟩
        · unfold better
          dsimp only
          rw [if_pos hlt]
          split <;> rfl
        · rw [← hsource]
          unfold Evidence.IsHit
          split
          next h => simp only [h, true_or]
          next h => simp only [h, false_or, and_iff_left hbefore]
      · have hnot : ¬ (item.IsHit ∧ ∀ e ∈ occurrences, e.score < item.score) :=
          fun h => hlt (h.2 best (List.argmax_mem hbest))
        refine ⟨best, source, if_neg hlt, ?_, ?_⟩
        · unfold better
          dsimp only
          rw [if_neg hlt]
        · rw [hsource, or_iff_left hnot]

end

/-! ## The items that stay -/

section

variable {lower : String → String} {evidence : List Evidence} {item : Evidence}

theorem fills_keepBest : Dict.Fills Evidence.key better keepBest := by
  refine .of_cases fun best item => ?_
  unfold keepBest better
  cases hexisting : best.lookup item.key with
  | none => exact .inl rfl
  | some existing =>
    dsimp only
    split
    · exact .inl rfl
    · exact .inr ⟨rfl, rfl⟩

def occurrencesOf (evidence : List Evidence) (key : EmbeddingLevel × Uuid) : List Evidence :=
  evidence.filter (·.key = key)

def bestOccurrences (evidence : List Evidence) : List Evidence :=
  (evidence.map (·.key)).eraseDups.filterMap fun key => bestOf (occurrencesOf evidence key)

def survivors (lower : String → String) (evidence : List Evidence) : List Evidence :=
  suppressNearDuplicates lower (byScore (·.score) (bestOccurrences evidence))

def credit (evidence : List Evidence) (best : Evidence) : Evidence :=
  { best with
    source := (winner (occurrencesOf evidence best.key)).elim best.source (·.source) }

theorem mem_occurrencesOf {key : EmbeddingLevel × Uuid} :
    item ∈ occurrencesOf evidence key ↔ item ∈ evidence ∧ item.key = key := by
  unfold occurrencesOf
  rw [List.mem_filter, decide_eq_true_eq]

theorem occurrencesOf_ne_nil {key : EmbeddingLevel × Uuid} (h : key ∈ evidence.map (·.key)) :
    occurrencesOf evidence key ≠ [] := by
  obtain ⟨item, hitem, hkey⟩ := List.mem_map.1 h
  exact List.ne_nil_of_mem (mem_occurrencesOf.2 ⟨hitem, hkey⟩)

theorem foldl_keepBest (evidence : List Evidence) :
    (evidence.foldl keepBest []).map (·.2) = (bestOccurrences evidence).map (credit evidence) := by
  rw [Dict.map_snd_eq (fills_keepBest.nodup_foldl evidence), fills_keepBest.keys_foldl]
  unfold bestOccurrences
  rw [List.map_filterMap]
  refine List.filterMap_congr fun key hkey => ?_
  obtain ⟨best, source, hbest, hwinner, -⟩ :=
    winner_eq (occurrencesOf_ne_nil (List.mem_eraseDups.1 hkey))
  have hkey' : best.key = key := (mem_occurrencesOf.1 (List.argmax_mem hbest)).2
  rw [fills_keepBest.lookup, hbest, Option.map_some]
  show winner (occurrencesOf evidence key) = some (credit evidence best)
  unfold credit
  rw [hkey', hwinner]
  rfl

theorem byScore_map {f : Evidence → Evidence} (hf : ∀ e, (f e).score = e.score)
    (l : List Evidence) : byScore (·.score) (l.map f) = (byScore (·.score) l).map f := by
  unfold byScore
  refine (List.map_insertionSort _ _ f l fun a _ b _ => ?_).symm
  show b.score ≤ a.score ↔ (f b).score ≤ (f a).score
  rw [hf, hf]

theorem suppressNearDuplicates_map {f : Evidence → Evidence} (hf : ∀ e, (f e).text = e.text)
    (l : List Evidence) : suppressNearDuplicates lower (l.map f) =
      (suppressNearDuplicates lower l).map f := by
  have hsame : (fun a b => overlap lower (f a) (f b)) = overlap lower := by
    funext a b
    unfold overlap
    rw [hf, hf]
  rw [suppressNearDuplicates_eq, suppressNearDuplicates_eq, Thinning.thin_map, hsame]

theorem deduplicate_eq (lower : String → String) (evidence : List Evidence) :
    deduplicate lower evidence = renumber ((survivors lower evidence).map (credit evidence)) := by
  unfold deduplicate survivors
  have hscore : ∀ e, (credit evidence e).score = e.score := fun _ => rfl
  have htext : ∀ e, (credit evidence e).text = e.text := fun _ => rfl
  rw [foldl_keepBest, byScore_map hscore, suppressNearDuplicates_map htext]

theorem bestOf_of_mem_survivors (h : item ∈ survivors lower evidence) :
    bestOf (occurrencesOf evidence item.key) = some item := by
  obtain ⟨key, -, hbest⟩ := List.mem_filterMap.1 (mem_byScore.1 (mem_suppressNearDuplicates h))
  have hkey : item.key = key := (mem_occurrencesOf.1 (List.argmax_mem hbest)).2
  rw [hkey]
  exact hbest

theorem credit_isHit (h : item ∈ survivors lower evidence) :
    (credit evidence item).IsHit ↔ Leads (occurrencesOf evidence item.key) := by
  have hbest := bestOf_of_mem_survivors h
  have hne : occurrencesOf evidence item.key ≠ [] :=
    List.ne_nil_of_mem (List.argmax_mem hbest)
  obtain ⟨best, source, -, hwinner, hsource⟩ := winner_eq hne
  rw [← hsource]
  unfold Evidence.IsHit credit
  rw [hwinner]
  exact Iff.rfl

theorem nodup_survivors : ((survivors lower evidence).map (·.key)).Nodup := by
  have hkeys : ((bestOccurrences evidence).map (·.key)) = (evidence.map (·.key)).eraseDups := by
    unfold bestOccurrences
    rw [List.map_filterMap]
    conv_rhs => rw [← List.filterMap_some (l := (evidence.map (·.key)).eraseDups)]
    refine List.filterMap_congr fun key hkey => ?_
    obtain ⟨best, -, hbest, -, -⟩ :=
      winner_eq (occurrencesOf_ne_nil (List.mem_eraseDups.1 hkey))
    rw [hbest, Option.map_some, (mem_occurrencesOf.1 (List.argmax_mem hbest)).2]
  have hnodup : ((bestOccurrences evidence).map (·.key)).Nodup := by
    rw [hkeys, ← fills_keepBest.keys_foldl]
    exact fills_keepBest.nodup_foldl evidence
  have hsub : (survivors lower evidence).Sublist
      (byScore (·.score) (bestOccurrences evidence)) := by
    unfold survivors
    rw [suppressNearDuplicates_eq]
    exact Thinning.thin_sublist _ _
  exact (((byScore_perm _ _).map _).nodup_iff.2 hnodup).sublist (hsub.map _)

/-! ## The facts of the hits -/

structure KeepsFacts (evidence out : List Evidence) : Prop where
  nodup : (out.map (·.key)).Nodup
  sorted : out.Pairwise fun item later => later.score ≤ item.score
  ranks : out.map (·.rank) = List.range' 1 out.length
  source : ∀ item ∈ out, ∀ e ∈ evidence, e.key = item.key → e.IsHit → item.IsHit
  similarity : ∀ item ∈ out, ∀ e ∈ evidence, e.key = item.key →
    e.similarity.isSome = true → item.similarity.isSome = true
  chunkId : ∀ item ∈ out, ∀ e ∈ evidence, e.key = item.key →
    e.chunkId.isSome = true → item.chunkId.isSome = true
  boxes : ∀ item ∈ out, ∀ e ∈ evidence, e.key = item.key →
    e.boundingBoxes ≠ [] → item.boundingBoxes ≠ []

/-- The best occurrence of a key has each fact that an occurrence has, and a hit of the key leads.
-/
structure BestHasFacts (best : Evidence) (occurrences : List Evidence) : Prop where
  source : (∃ e ∈ occurrences, e.IsHit) → Leads occurrences
  similarity : (∃ e ∈ occurrences, e.similarity.isSome = true) → best.similarity.isSome = true
  chunkId : (∃ e ∈ occurrences, e.chunkId.isSome = true) → best.chunkId.isSome = true
  boxes : (∃ e ∈ occurrences, e.boundingBoxes ≠ []) → best.boundingBoxes ≠ []

/-- A fact that the answer takes from the best occurrence. -/
theorem exists_of_mem_deduplicate (h : item ∈ deduplicate lower evidence) :
    ∃ best ∈ survivors lower evidence, best.key = item.key ∧
      item = { credit evidence best with rank := item.rank } := by
  rw [deduplicate_eq, mem_renumber] at h
  obtain ⟨⟨credited, n⟩, hcredited, rfl⟩ := h
  obtain ⟨best, hbest, rfl⟩ := List.mem_map.1 (List.fst_mem_of_mem_zipIdx hcredited)
  exact ⟨best, hbest, rfl, rfl⟩

theorem exists_deduplicate_of_mem (h : item ∈ survivors lower evidence) :
    ∃ n, { credit evidence item with rank := n } ∈ deduplicate lower evidence := by
  obtain ⟨i, hi, hget⟩ := List.mem_iff_getElem.1 (List.mem_map_of_mem (f := credit evidence) h)
  rw [deduplicate_eq]
  refine ⟨i + 1, mem_renumber.2 ⟨(credit evidence item, i + 1), ?_, rfl⟩⟩
  rw [List.mk_mem_zipIdx_iff_le_and_getElem?_sub]
  exact ⟨by omega, by rw [Nat.add_sub_cancel, List.getElem?_eq_getElem hi, hget]⟩

end

theorem pairwise_deduplicate (lower : String → String) (evidence : List Evidence) :
    (deduplicate lower evidence).Pairwise fun item later => later.score ≤ item.score := by
  have hscores : (deduplicate lower evidence).map (·.score) =
      (survivors lower evidence).map (·.score) := by
    rw [deduplicate_eq, map_renumber _ fun _ _ => rfl, List.map_map]
    rfl
  have hsub : (survivors lower evidence).Sublist
      (byScore (·.score) (bestOccurrences evidence)) := by
    unfold survivors
    rw [suppressNearDuplicates_eq]
    exact Thinning.thin_sublist _ _
  have hsorted : ((survivors lower evidence).map (·.score)).Pairwise fun x y => y ≤ x :=
    List.pairwise_map.2 ((pairwise_byScore _ _).sublist hsub)
  rw [← hscores] at hsorted
  exact List.pairwise_map.1 hsorted

/-- Deduplication keeps the best facts of every surviving key if and only if the best occurrence of
each of them has its facts, and a hit leads where there is one. -/
theorem keepsFacts_iff (lower : String → String) (evidence : List Evidence) :
    KeepsFacts evidence (deduplicate lower evidence) ↔
      ∀ best ∈ survivors lower evidence, BestHasFacts best (occurrencesOf evidence best.key) := by
  constructor
  · intro h best hbest
    obtain ⟨n, hitem⟩ := exists_deduplicate_of_mem hbest
    constructor
    case source =>
      intro ⟨e, he, hhit⟩
      obtain ⟨hmem, hkey⟩ := mem_occurrencesOf.1 he
      have hkept := h.source _ hitem e hmem hkey hhit
      exact (credit_isHit hbest).1 hkept
    case similarity =>
      intro ⟨e, he, hsimilarity⟩
      obtain ⟨hmem, hkey⟩ := mem_occurrencesOf.1 he
      have hkept := h.similarity _ hitem e hmem hkey hsimilarity
      exact hkept
    case chunkId =>
      intro ⟨e, he, hchunk⟩
      obtain ⟨hmem, hkey⟩ := mem_occurrencesOf.1 he
      have hkept := h.chunkId _ hitem e hmem hkey hchunk
      exact hkept
    case boxes =>
      intro ⟨e, he, hboxes⟩
      obtain ⟨hmem, hkey⟩ := mem_occurrencesOf.1 he
      have hkept := h.boxes _ hitem e hmem hkey hboxes
      exact hkept
  · intro h
    constructor
    case nodup =>
      rw [deduplicate_eq, map_renumber _ fun _ _ => rfl, List.map_map]
      exact nodup_survivors
    case sorted => exact pairwise_deduplicate lower evidence
    case ranks => rw [deduplicate_eq, ranks_renumber, length_renumber]
    case source =>
      intro item hitem e he hkey hhit
      obtain ⟨best, hbest, hkey', heq⟩ := exists_of_mem_deduplicate hitem
      rw [heq]
      refine (credit_isHit hbest).2 ((h best hbest).source ⟨e, ?_, hhit⟩)
      exact mem_occurrencesOf.2 ⟨he, hkey.trans hkey'.symm⟩
    case similarity =>
      intro item hitem e he hkey hsimilarity
      obtain ⟨best, hbest, hkey', heq⟩ := exists_of_mem_deduplicate hitem
      rw [heq]
      exact (h best hbest).similarity
        ⟨e, mem_occurrencesOf.2 ⟨he, hkey.trans hkey'.symm⟩, hsimilarity⟩
    case chunkId =>
      intro item hitem e he hkey hchunk
      obtain ⟨best, hbest, hkey', heq⟩ := exists_of_mem_deduplicate hitem
      rw [heq]
      exact (h best hbest).chunkId ⟨e, mem_occurrencesOf.2 ⟨he, hkey.trans hkey'.symm⟩, hchunk⟩
    case boxes =>
      intro item hitem e he hkey hboxes
      obtain ⟨best, hbest, hkey', heq⟩ := exists_of_mem_deduplicate hitem
      rw [heq]
      exact (h best hbest).boxes ⟨e, mem_occurrencesOf.2 ⟨he, hkey.trans hkey'.symm⟩, hboxes⟩

namespace DeduplicationSample

/-- A clause that the vector search found, and its best passage. -/
def clauseHit : Evidence :=
  { level := .clause, refId := 7, contractId := 1, projectId := 1, text := "Rent is due monthly.",
    score := 3 / 10, similarity := some (3 / 10), chunkId := some 4 }

/-- The clause of a much better hit, which refers to it. -/
def seed : Evidence :=
  { level := .clause, refId := 8, contractId := 1, projectId := 1, score := 9 / 10,
    text := "Interest accrues on rent that is overdue.", similarity := some (9 / 10) }

def clauseRow : Evidence :=
  { level := .clause, refId := 7, contractId := 1, projectId := 1, text := "Rent is due monthly.",
    score := seed.score * (2 / 5), source := .graph }

end DeduplicationSample

/-- The similarity and the chunk of a hit are lost to the graph item that outscores it. -/
theorem graph_item_wins : ¬ KeepsFacts
    [DeduplicationSample.seed, DeduplicationSample.clauseHit, DeduplicationSample.clauseRow]
    (deduplicate Stdlib.ascii.lower
      [DeduplicationSample.seed, DeduplicationSample.clauseHit,
        DeduplicationSample.clauseRow]) := by
  intro h
  have hlost : (deduplicate Stdlib.ascii.lower
      [DeduplicationSample.seed, DeduplicationSample.clauseHit,
        DeduplicationSample.clauseRow]).any (fun item =>
          item.key = DeduplicationSample.clauseHit.key && item.similarity.isNone) = true := by
    decide +kernel
  obtain ⟨item, hitem, hnone⟩ := List.any_eq_true.1 hlost
  rw [Bool.and_eq_true, decide_eq_true_eq] at hnone
  have hsome := h.similarity item hitem DeduplicationSample.clauseHit (by simp) hnone.1.symm rfl
  rw [← Option.not_isSome, hsome] at hnone
  exact absurd hnone.2 (by decide)

end Retrieval

end Clear
