import Clear.Ai.Extraction.Models
import Clear.Lib.Dict
import Clear.Lib.Greedy
import Mathlib.Algebra.Order.BigOperators.Group.List
import Mathlib.Data.List.Infix

/-!
# An empty bundle

The candidates are the chunks that satisfy the rule, the best first (`mem_candidates`), whatever the
order in which the chunks were supplied. The bundle keeps to the budget and the limit and holds no
chunk twice. It is filled until a candidate does not fit, so it is empty although a chunk satisfies
the rule when the best one is larger than the budget.

* `honest_iff`: the selection does what it promises exactly when the best match fits.
-/

/-!
## Evidence selection

`app/ai/extraction/evidence.py`: the deterministic pre-filter before any call. A category's rule
selects a small, ranked evidence set, and the parents of the chunks in it.
-/

namespace Clear

structure ExtractionRule where
  headingPatterns : List String := []
  keywords : List String := []
  mustNotContain : List String := []
  minTokens : Int := 0

structure ScoredChunk where
  chunk : CandidateChunk
  score : Rat
  matchedHeadings : List String := []
  matchedKeywords : List String := []

namespace EvidenceSelector

def headingWeight : Rat := 10

def keywordWeight : Rat := 2

def titleKeywordWeight : Rat := 3

def synonymWeight : Rat := 4

/-- Preference between chunk types when scores are otherwise equal. -/
def typeBonus : ChunkType → Rat
  | .clause => 2
  | .«section» => 1
  | .list => 3 / 4
  | .table => 1 / 2
  | .paragraph => 1 / 4
  | _ => 0

def heading (c : CandidateChunk) : String :=
  Text.strip (" ".intercalate
    ([c.clauseNumber.getD "", c.sectionTitle.getD ""].filter (· ≠ "")))

section
variable (std : Stdlib) (rule : ExtractionRule) (synonyms : List String)

def lowered (terms : List String) : List String := (terms.filter (· ≠ "")).map std.lower

def firstLine (c : CandidateChunk) : String :=
  String.ofList ((std.lower c.text).toList.takeWhile (· ≠ '\n'))

/-- Tables and lists are exempt from the size floor. -/
def structural (c : CandidateChunk) : Bool := c.chunkType = .table || c.chunkType = .list

/-- An explicit exclusion, or a chunk that is too small. -/
def excluded (c : CandidateChunk) : Bool :=
  (lowered std rule.mustNotContain).any (Text.contains · (std.lower c.text)) ||
    (rule.minTokens ≠ 0 && (c.tokenCount : Int) < rule.minTokens && !structural c)

def matchedHeadings (c : CandidateChunk) : List String :=
  let headings := lowered std rule.headingPatterns
  let inHeading := headings.filter fun h => h ≠ "" && Text.contains h (std.lower (heading c))
  inHeading ++ headings.filter fun h => !inHeading.contains h && Text.contains h (firstLine std c)

def matchedKeywords (c : CandidateChunk) : List String :=
  (lowered std rule.keywords).filter (Text.contains · (std.lower c.text))

def matchedSynonyms (c : CandidateChunk) : List String :=
  (lowered std synonyms).filter fun s =>
    Text.contains s (std.lower (heading c)) || Text.contains s (firstLine std c)

def score (c : CandidateChunk) : Rat :=
  headingWeight * (matchedHeadings std rule c).length +
    synonymWeight * (matchedSynonyms std synonyms c).length +
    keywordWeight * (matchedKeywords std rule c).length + typeBonus c.chunkType +
    titleKeywordWeight *
      ((lowered std rule.keywords).filter (Text.contains · (std.lower (heading c)))).length

def scored (c : CandidateChunk) : Option ScoredChunk :=
  if (matchedHeadings std rule c).isEmpty && (matchedKeywords std rule c).isEmpty &&
      (matchedSynonyms std synonyms c).isEmpty then none
  else some
    { chunk := c
      score := score std rule synonyms c
      matchedHeadings := matchedHeadings std rule c ++ matchedSynonyms std synonyms c
      matchedKeywords := matchedKeywords std rule c }

def ordered (chunks : List CandidateChunk) : List CandidateChunk :=
  chunks.mergeSort fun c d => c.readingOrder ≤ d.readingOrder

def before (s t : ScoredChunk) : Bool :=
  t.score < s.score || (s.score = t.score && s.chunk.readingOrder ≤ t.chunk.readingOrder)

def candidates (chunks : List CandidateChunk) : List ScoredChunk :=
  (((ordered chunks).filter (!excluded std rule ·)).filterMap (scored std rule synonyms)).mergeSort
    before

def byId (chunks : List CandidateChunk) (id : String) : Option CandidateChunk :=
  (Dict.ofItems ((ordered chunks).map fun c => (c.chunkId, c))).lookup id

def parentsFor (chunks picked : List CandidateChunk) (remaining : Nat) : List CandidateChunk :=
  Greedy.fetch (fun c : CandidateChunk => c.parentId.filter (· ≠ "")) (byId chunks) (·.tokenCount)
    remaining (picked.map (·.chunkId)) 0 picked

def select (chunks : List CandidateChunk) (budget limit : Nat) (includeParents : Bool) :
    EvidenceBundle :=
  let ranked := candidates std rule synonyms chunks
  let picked := (Greedy.fill (·.chunk.tokenCount) limit budget 0 0 ranked).map (·.chunk)
  let spent := (picked.map (·.tokenCount)).sum
  { scored := picked
    context := if includeParents then parentsFor chunks picked (budget - spent) else []
    considered := chunks.length
    excluded := ((ordered chunks).filter (excluded std rule)).length
    truncated := picked.length < ranked.length }

end

end EvidenceSelector

end Clear

namespace Clear

namespace EvidenceSelector

variable {std : Stdlib} {rule : ExtractionRule} {synonyms : List String}
  {chunks : List CandidateChunk} {budget limit : Nat} {includeParents : Bool}

/-! ## Statements -/

/-- The chunk matches a heading, keyword or synonym, is not excluded, and is large enough or
structural. -/
structure Satisfies (std : Stdlib) (rule : ExtractionRule) (synonyms : List String)
    (c : CandidateChunk) : Prop where
  allowed : ∀ term ∈ rule.mustNotContain, term ≠ "" →
    Text.contains (std.lower term) (std.lower c.text) = false
  sized : rule.minTokens ≤ c.tokenCount ∨ c.chunkType = .table ∨ c.chunkType = .list
  found : (∃ term ∈ rule.headingPatterns ++ synonyms, term ≠ "" ∧
      (Text.contains (std.lower term) (std.lower (heading c)) = true ∨
        Text.contains (std.lower term) (firstLine std c) = true)) ∨
    ∃ term ∈ rule.keywords, term ≠ "" ∧
      Text.contains (std.lower term) (std.lower c.text) = true

structure Best (std : Stdlib) (rule : ExtractionRule) (synonyms : List String)
    (chunks : List CandidateChunk) (c : CandidateChunk) : Prop where
  mem : c ∈ chunks
  satisfies : Satisfies std rule synonyms c
  above : ∀ d ∈ chunks, Satisfies std rule synonyms d →
    score std rule synonyms d < score std rule synonyms c ∨
      score std rule synonyms d = score std rule synonyms c ∧ c.readingOrder ≤ d.readingOrder

structure Honest (std : Stdlib) (rule : ExtractionRule) (synonyms : List String)
    (chunks : List CandidateChunk) (budget limit : Nat) (includeParents : Bool) : Prop where
  absent : (select std rule synonyms chunks budget limit includeParents).isEmpty = true →
    ∀ c ∈ chunks, ¬ Satisfies std rule synonyms c
  within : (select std rule synonyms chunks budget limit includeParents).totalTokens ≤ budget
  limited : (select std rule synonyms chunks budget limit includeParents).scored.length ≤ limit
  once : ((select std rule synonyms chunks budget limit includeParents).scored ++
    (select std rule synonyms chunks budget limit includeParents).context).Nodup
  anyOrder : ∀ chunks', chunks.Perm chunks' →
    select std rule synonyms chunks' budget limit includeParents =
      select std rule synonyms chunks budget limit includeParents

/-! ## Candidates -/

theorem mem_lowered {terms : List String} {t : String} :
    t ∈ lowered std terms ↔ ∃ term ∈ terms, term ≠ "" ∧ std.lower term = t := by
  simp [lowered, and_assoc]

theorem excluded_eq_false {c : CandidateChunk} :
    excluded std rule c = false ↔
      (∀ term ∈ rule.mustNotContain, term ≠ "" →
        Text.contains (std.lower term) (std.lower c.text) = false) ∧
      (rule.minTokens ≤ c.tokenCount ∨ c.chunkType = .table ∨ c.chunkType = .list) := by
  unfold excluded
  rw [Bool.or_eq_false_iff]
  refine and_congr ?_ ?_
  · rw [List.any_eq_false]
    constructor
    · intro h term hterm hne
      exact Bool.eq_false_iff.2 (h _ (mem_lowered.2 ⟨term, hterm, hne, rfl⟩))
    · intro h t ht
      obtain ⟨term, hterm, hne, rfl⟩ := mem_lowered.1 ht
      exact Bool.eq_false_iff.1 (h term hterm hne)
  · unfold structural
    by_cases hsize : rule.minTokens ≤ c.tokenCount
    · have hlt : ¬ (c.tokenCount : Int) < rule.minTokens := by omega
      simp [hsize, hlt]
    · have hlt : (c.tokenCount : Int) < rule.minTokens := by omega
      have hzero : rule.minTokens ≠ 0 := by omega
      simp [hsize, hlt, hzero, or_iff_not_imp_left]

theorem contains_empty (s : String) : Text.contains "" s = true :=
  List.any_eq_true.2 ⟨s.toList, (List.mem_tails _ _).2 (List.suffix_refl _), rfl⟩

theorem matchedHeadings_ne_nil {c : CandidateChunk} :
    matchedHeadings std rule c ≠ [] ↔ ∃ term ∈ rule.headingPatterns, term ≠ "" ∧
      (Text.contains (std.lower term) (std.lower (heading c)) = true ∨
        Text.contains (std.lower term) (firstLine std c) = true) := by
  constructor
  · intro hne
    obtain ⟨h, hh⟩ := List.exists_mem_of_ne_nil _ hne
    unfold matchedHeadings at hh
    rcases List.mem_append.1 hh with hh | hh
    · obtain ⟨hmem, hfound⟩ := List.mem_filter.1 hh
      obtain ⟨term, hterm, hne, rfl⟩ := mem_lowered.1 hmem
      exact ⟨term, hterm, hne, .inl (Bool.and_eq_true_iff.1 hfound).2⟩
    · obtain ⟨hmem, hfound⟩ := List.mem_filter.1 hh
      obtain ⟨term, hterm, hne, rfl⟩ := mem_lowered.1 hmem
      exact ⟨term, hterm, hne, .inr (Bool.and_eq_true_iff.1 hfound).2⟩
  · rintro ⟨term, hterm, hne, hfound⟩ hnil
    have hmem : std.lower term ∈ lowered std rule.headingPatterns :=
      mem_lowered.2 ⟨term, hterm, hne, rfl⟩
    unfold matchedHeadings at hnil
    obtain ⟨hheading, hline⟩ := List.append_eq_nil_iff.1 hnil
    rw [hheading] at hline
    have hnoline := List.filter_eq_nil_iff.1 hline _ hmem
    have hnoheading := List.filter_eq_nil_iff.1 hheading _ hmem
    simp only [List.contains_nil, Bool.not_false, Bool.true_and] at hnoline
    rcases hfound with hfound | hfound
    · -- the empty term is in every line
      have hempty : std.lower term = "" := by
        simpa [hfound] using hnoheading
      rw [hempty] at hnoline
      exact hnoline (contains_empty _)
    · exact hnoline hfound

theorem scored_eq_some {c : CandidateChunk} {s : ScoredChunk}
    (h : scored std rule synonyms c = some s) :
    s.chunk = c ∧ s.score = score std rule synonyms c := by
  unfold scored at h
  split at h
  · cases h
  · cases h
    exact ⟨rfl, rfl⟩

theorem scored_isSome {c : CandidateChunk} :
    (scored std rule synonyms c).isSome = true ↔
      matchedHeadings std rule c ≠ [] ∨ matchedKeywords std rule c ≠ [] ∨
        matchedSynonyms std synonyms c ≠ [] := by
  unfold scored
  split
  next h =>
    simp only [Bool.and_eq_true, List.isEmpty_iff] at h
    simp [h.1.1, h.1.2, h.2]
  next h =>
    simp only [Bool.and_eq_true, List.isEmpty_iff] at h
    refine ⟨fun _ => ?_, fun _ => rfl⟩
    by_contra hnone
    simp only [not_or, not_not] at hnone
    exact h ⟨⟨hnone.1, hnone.2.1⟩, hnone.2.2⟩

theorem satisfies_iff {c : CandidateChunk} :
    Satisfies std rule synonyms c ↔
      excluded std rule c = false ∧ (scored std rule synonyms c).isSome = true := by
  have hkeywords : matchedKeywords std rule c ≠ [] ↔ ∃ term ∈ rule.keywords, term ≠ "" ∧
      Text.contains (std.lower term) (std.lower c.text) = true := by
    unfold matchedKeywords
    rw [Ne, List.filter_eq_nil_iff]
    simp [mem_lowered]
  have hsynonyms : matchedSynonyms std synonyms c ≠ [] ↔ ∃ term ∈ synonyms, term ≠ "" ∧
      (Text.contains (std.lower term) (std.lower (heading c)) = true ∨
        Text.contains (std.lower term) (firstLine std c) = true) := by
    unfold matchedSynonyms
    rw [Ne, List.filter_eq_nil_iff]
    simp [mem_lowered, -not_or, or_iff_not_imp_left]
  rw [excluded_eq_false, scored_isSome, matchedHeadings_ne_nil, hkeywords, hsynonyms]
  constructor
  · rintro ⟨hallowed, hsized, ⟨term, hterm, hfound⟩ | hfound⟩
    · rcases List.mem_append.1 hterm with hterm | hterm
      · exact ⟨⟨hallowed, hsized⟩, .inl ⟨term, hterm, hfound⟩⟩
      · exact ⟨⟨hallowed, hsized⟩, .inr (.inr ⟨term, hterm, hfound⟩)⟩
    · exact ⟨⟨hallowed, hsized⟩, .inr (.inl hfound)⟩
  · rintro ⟨⟨hallowed, hsized⟩, ⟨term, hterm, hfound⟩ | hfound | ⟨term, hterm, hfound⟩⟩
    · exact ⟨hallowed, hsized, .inl ⟨term, List.mem_append_left _ hterm, hfound⟩⟩
    · exact ⟨hallowed, hsized, .inr hfound⟩
    · exact ⟨hallowed, hsized, .inl ⟨term, List.mem_append_right _ hterm, hfound⟩⟩

/-! ## The order -/

theorem ordered_perm (chunks : List CandidateChunk) : (ordered chunks).Perm chunks :=
  List.mergeSort_perm _ _

theorem pairwise_ordered (chunks : List CandidateChunk) :
    (ordered chunks).Pairwise fun c d => c.readingOrder ≤ d.readingOrder := by
  have htrans : ∀ c d e : CandidateChunk, decide (c.readingOrder ≤ d.readingOrder) = true →
      decide (d.readingOrder ≤ e.readingOrder) = true →
        decide (c.readingOrder ≤ e.readingOrder) = true := by
    simp only [decide_eq_true_eq]
    exact fun _ _ _ => Int.le_trans
  have htotal : ∀ c d : CandidateChunk, (decide (c.readingOrder ≤ d.readingOrder) ||
      decide (d.readingOrder ≤ c.readingOrder)) = true := by
    simp only [Bool.or_eq_true, decide_eq_true_eq]
    exact fun _ _ => Int.le_total _ _
  exact (List.pairwise_mergeSort htrans htotal chunks).imp fun h => of_decide_eq_true h

theorem ordered_congr {chunks' : List CandidateChunk} (h : chunks.Perm chunks')
    (hdistinct : (chunks.map (·.readingOrder)).Nodup) : ordered chunks' = ordered chunks := by
  have hperm : (ordered chunks').Perm (ordered chunks) :=
    ((ordered_perm chunks').trans h.symm).trans (ordered_perm chunks).symm
  refine List.Perm.eq_of_pairwise ?_ (pairwise_ordered chunks') (pairwise_ordered chunks) hperm
  intro c d hc hd hcd hdc
  have hmem : c ∈ chunks := h.symm.mem_iff.1 ((ordered_perm chunks').mem_iff.1 hc)
  have hmem' : d ∈ chunks := (ordered_perm chunks).mem_iff.1 hd
  exact List.inj_on_of_nodup_map hdistinct hmem hmem' (Int.le_antisymm hcd hdc)

theorem before_iff {s t : ScoredChunk} :
    before s t = true ↔ t.score < s.score ∨
      s.score = t.score ∧ s.chunk.readingOrder ≤ t.chunk.readingOrder := by
  unfold before
  rw [Bool.or_eq_true, Bool.and_eq_true, decide_eq_true_eq, decide_eq_true_eq, decide_eq_true_eq]

theorem before_trans (s t u : ScoredChunk) (h : before s t = true) (h' : before t u = true) :
    before s u = true := by
  rw [before_iff] at *
  rcases h with h | ⟨h, ho⟩
  · rcases h' with h' | ⟨h', -⟩
    · exact .inl (h'.trans h)
    · exact .inl (h' ▸ h)
  · rcases h' with h' | ⟨h', ho'⟩
    · exact .inl (h ▸ h')
    · exact .inr ⟨h.trans h', ho.trans ho'⟩

theorem before_total (s t : ScoredChunk) : (before s t || before t s) = true := by
  rw [Bool.or_eq_true, before_iff, before_iff]
  rcases lt_trichotomy s.score t.score with h | h | h
  · exact .inr (.inl h)
  · rcases le_total s.chunk.readingOrder t.chunk.readingOrder with ho | ho
    · exact .inl (.inr ⟨h, ho⟩)
    · exact .inr (.inr ⟨h.symm, ho⟩)
  · exact .inl (.inl h)

theorem mem_candidates {s : ScoredChunk} :
    s ∈ candidates std rule synonyms chunks ↔ ∃ c ∈ chunks, Satisfies std rule synonyms c ∧
      scored std rule synonyms c = some s := by
  unfold candidates
  rw [(List.mergeSort_perm _ _).mem_iff, List.mem_filterMap]
  refine exists_congr fun c => ?_
  rw [List.mem_filter, (ordered_perm chunks).mem_iff, satisfies_iff]
  constructor
  · rintro ⟨⟨hc, hallowed⟩, hs⟩
    refine ⟨hc, ⟨by simpa using hallowed, ?_⟩, hs⟩
    rw [hs]
    rfl
  · rintro ⟨hc, ⟨hallowed, -⟩, hs⟩
    exact ⟨⟨hc, by simpa using hallowed⟩, hs⟩

theorem mem_candidates_of_satisfies {c : CandidateChunk} (hc : c ∈ chunks)
    (h : Satisfies std rule synonyms c) :
    ∃ s ∈ candidates std rule synonyms chunks, s.chunk = c ∧
      s.score = score std rule synonyms c := by
  obtain ⟨s, hs⟩ := Option.isSome_iff_exists.1 (satisfies_iff.1 h).2
  exact ⟨s, mem_candidates.2 ⟨c, hc, h, hs⟩, scored_eq_some hs⟩

theorem best_head {s : ScoredChunk} (h : (candidates std rule synonyms chunks).head? = some s) :
    Best std rule synonyms chunks s.chunk := by
  obtain ⟨c, hc, hsat, hs⟩ := mem_candidates.1 (List.mem_of_head? h)
  obtain ⟨rfl, hscore⟩ := scored_eq_some hs
  refine ⟨hc, hsat, fun d hd hdsat => ?_⟩
  obtain ⟨t, ht, rfl, htscore⟩ := mem_candidates_of_satisfies hd hdsat
  have hsorted : (candidates std rule synonyms chunks).Pairwise fun s t => before s t = true :=
    List.pairwise_mergeSort before_trans before_total _
  have hle : before s t = true := by
    cases hlist : candidates std rule synonyms chunks with
    | nil =>
      rw [hlist] at h
      cases h
    | cons x rest =>
      rw [hlist] at h ht hsorted
      cases h
      rcases List.mem_cons.1 ht with rfl | ht
      · have hself := before_total t t
        simpa using hself
      · exact List.rel_of_pairwise_cons hsorted ht
  rw [before_iff, hscore, htscore] at hle
  exact hle.imp_right fun ⟨heq, ho⟩ => ⟨heq.symm, ho⟩

theorem best_unique (hdistinct : (chunks.map (·.readingOrder)).Nodup) {c d : CandidateChunk}
    (h : Best std rule synonyms chunks c) (h' : Best std rule synonyms chunks d) : c = d := by
  refine List.inj_on_of_nodup_map hdistinct h.mem h'.mem ?_
  rcases h.above d h'.mem h'.satisfies with hlt | ⟨heq, ho⟩
  · rcases h'.above c h.mem h.satisfies with hlt' | ⟨heq', -⟩
    · exact absurd hlt (lt_asymm hlt')
    · exact absurd hlt (by rw [heq']; exact lt_irrefl _)
  · rcases h'.above c h.mem h.satisfies with hlt' | ⟨-, ho'⟩
    · exact absurd hlt' (by rw [heq]; exact lt_irrefl _)
    · exact le_antisymm ho ho'

/-! ## The bundle -/

def picked (std : Stdlib) (rule : ExtractionRule) (synonyms : List String)
    (chunks : List CandidateChunk) (budget limit : Nat) : List CandidateChunk :=
  (Greedy.fill (·.chunk.tokenCount) limit budget 0 0 (candidates std rule synonyms chunks)).map
    (·.chunk)

theorem select_scored :
    (select std rule synonyms chunks budget limit includeParents).scored =
      picked std rule synonyms chunks budget limit := by
  rfl

theorem select_context :
    (select std rule synonyms chunks budget limit includeParents).context =
      if includeParents = true then parentsFor chunks (picked std rule synonyms chunks budget limit)
        (budget - ((picked std rule synonyms chunks budget limit).map (·.tokenCount)).sum)
      else [] := by
  rfl

theorem length_picked_le :
    (picked std rule synonyms chunks budget limit).length ≤ limit := by
  unfold picked
  rw [List.length_map, ← Nat.zero_add (List.length _)]
  exact Greedy.length_fill_le _ 0 (Nat.zero_le limit)

theorem sum_picked_le :
    ((picked std rule synonyms chunks budget limit).map (·.tokenCount)).sum ≤ budget := by
  unfold picked
  rw [List.map_map, ← Nat.zero_add (List.sum _)]
  exact Greedy.sum_fill_le _ 0 (Nat.zero_le budget)

theorem firsts_sublist (l : List CandidateChunk) (seen : List String) :
    (EvidenceBundle.firsts seen l).Sublist l := by
  induction l generalizing seen with
  | nil => exact List.Sublist.refl _
  | cons c l ih =>
    unfold EvidenceBundle.firsts
    split
    · exact (ih seen).cons _
    · exact (ih _).cons_cons _

theorem totalTokens_le (b : EvidenceBundle) :
    b.totalTokens ≤ (b.scored.map (·.tokenCount)).sum + (b.context.map (·.tokenCount)).sum := by
  have hperm : (b.chunks.map (·.tokenCount)).Perm
      ((EvidenceBundle.firsts [] (b.scored ++ b.context)).map (·.tokenCount)) :=
    (List.mergeSort_perm _ _).map _
  have hsub : ((EvidenceBundle.firsts [] (b.scored ++ b.context)).map (·.tokenCount)).Sublist
      ((b.scored ++ b.context).map (·.tokenCount)) := (firsts_sublist _ _).map _
  have hsum := hsub.sum_le_sum fun _ _ => Nat.zero_le _
  unfold EvidenceBundle.totalTokens
  rw [hperm.sum_eq]
  rw [List.map_append, List.sum_append] at hsum
  exact hsum

theorem sum_parentsFor_le (l : List CandidateChunk) (remaining : Nat) :
    ((parentsFor chunks l remaining).map (·.tokenCount)).sum ≤ remaining := by
  unfold parentsFor
  rw [← Nat.zero_add (List.sum _)]
  exact Greedy.sum_fetch_le l _ (Nat.zero_le remaining)

theorem byId_chunkId (id : String) (c : CandidateChunk) (h : byId chunks id = some c) :
    c.chunkId = id := by
  obtain ⟨d, -, heq⟩ := List.mem_map.1 (Dict.mem_ofItems (Dict.mem_of_lookup h))
  cases heq
  rfl

theorem nodup_parentsFor (l : List CandidateChunk) (remaining : Nat) :
    (parentsFor chunks l remaining).Nodup ∧ ∀ c ∈ parentsFor chunks l remaining, c ∉ l := by
  unfold parentsFor
  obtain ⟨hnodup, hmem⟩ := Greedy.nodup_fetch byId_chunkId l (l.map (·.chunkId)) 0
  exact ⟨List.Nodup.of_map _ hnodup, fun c hc hl => (hmem c hc).1 (List.mem_map_of_mem hl)⟩

theorem within_select :
    (select std rule synonyms chunks budget limit includeParents).totalTokens ≤ budget := by
  refine (totalTokens_le _).trans ?_
  rw [select_scored, select_context]
  have hpicked : ((picked std rule synonyms chunks budget limit).map (·.tokenCount)).sum ≤ budget :=
    sum_picked_le
  split
  · have hparents : ((parentsFor chunks (picked std rule synonyms chunks budget limit)
        (budget - ((picked std rule synonyms chunks budget limit).map (·.tokenCount)).sum)).map
          (·.tokenCount)).sum ≤
        budget - ((picked std rule synonyms chunks budget limit).map (·.tokenCount)).sum :=
      sum_parentsFor_le _ _
    omega
  · exact hpicked

theorem filterMap_chunk_sublist (l : List CandidateChunk) :
    ((l.filterMap (scored std rule synonyms)).map (·.chunk)).Sublist l := by
  induction l with
  | nil => exact List.Sublist.refl _
  | cons c l ih =>
    cases hs : scored std rule synonyms c with
    | none =>
      rw [List.filterMap_cons_none hs]
      exact ih.cons _
    | some s =>
      rw [List.filterMap_cons_some hs, List.map_cons, (scored_eq_some hs).1]
      exact ih.cons_cons _

theorem nodup_picked (hchunks : chunks.Nodup) :
    (picked std rule synonyms chunks budget limit).Nodup := by
  have hsub : ((((ordered chunks).filter (!excluded std rule ·)).filterMap
      (scored std rule synonyms)).map (·.chunk)).Sublist _ := filterMap_chunk_sublist _
  have hordered : (ordered chunks).Nodup := (ordered_perm chunks).nodup_iff.2 hchunks
  have hcandidates : ((candidates std rule synonyms chunks).map (·.chunk)).Nodup :=
    ((List.mergeSort_perm _ _).map _).nodup_iff.2 (hsub.nodup (hordered.filter _))
  exact ((Greedy.fill_prefix _ 0 0).sublist.map _).nodup hcandidates

theorem once_select (hchunks : chunks.Nodup) :
    ((select std rule synonyms chunks budget limit includeParents).scored ++
      (select std rule synonyms chunks budget limit includeParents).context).Nodup := by
  rw [select_scored, select_context]
  have hpicked : (picked std rule synonyms chunks budget limit).Nodup := nodup_picked hchunks
  split
  · refine List.Nodup.append hpicked (nodup_parentsFor _ _).1 fun c hc hcontext => ?_
    exact (nodup_parentsFor _ _).2 c hcontext hc
  · rw [List.append_nil]
    exact hpicked

theorem select_congr {chunks' : List CandidateChunk} (h : chunks.Perm chunks')
    (hdistinct : (chunks.map (·.readingOrder)).Nodup) :
    select std rule synonyms chunks' budget limit includeParents =
      select std rule synonyms chunks budget limit includeParents := by
  unfold select parentsFor candidates byId
  rw [ordered_congr h hdistinct, h.length_eq]

/-! ## An empty bundle -/

theorem isEmpty_iff (hlimit : 1 ≤ limit) :
    (select std rule synonyms chunks budget limit includeParents).isEmpty = true ↔
      ∀ s ∈ (candidates std rule synonyms chunks).head?, budget < s.chunk.tokenCount := by
  unfold EvidenceBundle.isEmpty
  rw [select_scored, List.isEmpty_iff, picked, List.map_eq_nil_iff]
  exact Greedy.fill_eq_nil_iff hlimit

/-- The selection is honest exactly when the best match, if there is one, fits into the budget. -/
theorem honest_iff (std : Stdlib) (rule : ExtractionRule) (synonyms : List String)
    (chunks : List CandidateChunk) (budget limit : Nat) (includeParents : Bool)
    (hdistinct : (chunks.map (·.readingOrder)).Nodup) (hlimit : 1 ≤ limit) :
    Honest std rule synonyms chunks budget limit includeParents ↔
      ∀ c, Best std rule synonyms chunks c → c.tokenCount ≤ budget := by
  constructor
  · intro h c hbest
    by_contra hlarge
    refine h.absent ((isEmpty_iff hlimit).2 fun s hs => ?_) c hbest.mem hbest.satisfies
    rw [best_unique hdistinct (best_head hs) hbest]
    exact Nat.not_le.1 hlarge
  · intro h
    refine ⟨fun hempty c hc hsat => ?_, within_select, length_picked_le,
      once_select (List.Nodup.of_map _ hdistinct), fun _ hperm => select_congr hperm hdistinct⟩
    obtain ⟨s, hs, -⟩ := mem_candidates_of_satisfies hc hsat
    obtain ⟨first, hfirst⟩ : ∃ first, (candidates std rule synonyms chunks).head? = some first := by
      cases hlist : candidates std rule synonyms chunks with
      | nil =>
        rw [hlist] at hs
        exact absurd hs List.not_mem_nil
      | cons x rest => exact ⟨x, rfl⟩
    have hlarge := (isEmpty_iff hlimit).1 hempty first hfirst
    have hfits := h first.chunk (best_head hfirst)
    omega

def capRule : ExtractionRule := { keywords := ["liability"] }

def liability (tokens : Nat) : CandidateChunk :=
  { chunkId := "1", text := "limitation of liability", chunkType := .clause, tokenCount := tokens }

theorem satisfies_liability (tokens : Nat) :
    Satisfies Stdlib.ascii capRule [] (liability tokens) := by
  refine ⟨fun _ h => absurd h List.not_mem_nil, .inl ?_, .inr ⟨"liability", ?_, ?_, ?_⟩⟩
  · exact Int.natCast_nonneg _
  · exact List.mem_singleton_self _
  · decide
  · show Text.contains (Text.lower "liability") (Text.lower "limitation of liability") = true
    decide

theorem honest_small :
    Honest Stdlib.ascii capRule [] [liability 40] 6000 12 true := by
  refine (honest_iff Stdlib.ascii capRule [] [liability 40] 6000 12 true (by decide)
    (by decide)).2 fun c hc => ?_
  rw [List.mem_singleton.1 hc.mem]
  decide

/-- The only chunk about liability is larger than the budget, and the bundle is empty. -/
theorem oversized_absent :
    ¬ Honest Stdlib.ascii capRule [] [liability 7000] 6000 12 true := by
  intro h
  refine h.absent ((isEmpty_iff (by decide)).2 fun s hs => ?_) _ (List.mem_singleton_self _)
    (satisfies_liability 7000)
  rw [List.mem_singleton.1 (best_head hs).mem]
  decide

end EvidenceSelector

end Clear
