import Clear.Core.Stdlib
import Clear.Core.Uuid
import Clear.Lib.Cover
import Mathlib.Algebra.Order.Field.Rat
import Mathlib.Data.Nat.Cast.Order.Field
import Mathlib.Data.Rat.Cast.Order
import Mathlib.Tactic.Positivity

/-!
# Relevance and the retrieval metrics

`app/evaluation/metrics/relevance.py` and the metrics of one ranked list in
`app/evaluation/metrics/retrieval.py`. Shares and gains are exact rationals, the discount of a rank
is given. `RelevanceJudge.grade` and `found_units` are two cascades over what a case expects, and
`scores_agree_iff` says on which cases and lists they agree.
-/

namespace Clear

/-- What a correct answer would have drawn on, as far as relevance reads it. -/
structure GoldenExpectation where
  contracts : List Uuid := []
  clauses : List Uuid := []
  pages : List Int := []
  headings : List String := []

/-- A retrieved passage, as far as relevance reads it. -/
structure RetrievedItem where
  refId : Uuid
  contractId : Uuid
  chunkId : Option Uuid := none
  clauseNumber : Option String := none
  sectionTitle : Option String := none
  pageStart : Option Int := none
  pageEnd : Option Int := none

structure Log2 where
  value : Nat → Rat
  pos : ∀ n, 2 ≤ n → 0 < value n

/-- The whole part of the logarithm. -/
def Log2.floor : Log2 where
  value n := n.log2
  pos n hn := by
    have h : 0 < n.log2 := by
      have := (Nat.le_log2 (by omega)).2 (show 2 ^ 1 ≤ n by omega)
      omega
    exact_mod_cast h

namespace Relevance

inductive Grade where
  | none | contract | page | heading | exact
  deriving DecidableEq, Repr

def Grade.value : Grade → Nat
  | .none => 0
  | .contract => 1
  | .page => 2
  | .heading => 3
  | .exact => 4

def isAlnum (c : Char) : Bool := ('a' ≤ c && c ≤ 'z') || ('0' ≤ c && c ≤ '9')

def normalise (std : Stdlib) (value : Option String) : String :=
  let lowered := std.lower (Text.strip (value.getD ""))
  Text.strip (String.ofList (Text.replaceRuns isAlnum ' ' false lowered.toList))

end Relevance

open Relevance

namespace RetrievedItem

def isNamedIn (item : RetrievedItem) (ids : List Uuid) : Bool :=
  ids.contains item.refId || item.chunkId.any ids.contains

def headingMatches (std : Stdlib) (item : RetrievedItem) (headings : List String) : Bool :=
  let wanted := headings.map fun heading => normalise std (some heading)
  let candidates := [normalise std item.sectionTitle, normalise std item.clauseNumber]
  candidates.any fun candidate => candidate ≠ "" && wanted.contains candidate

def pageMatches (item : RetrievedItem) (pages : List Int) : Bool :=
  item.pageStart.any fun start =>
    pages.any fun page => start ≤ page && page ≤ item.pageEnd.getD start

end RetrievedItem

namespace GoldenExpectation

variable (std : Stdlib) (expected : GoldenExpectation)

def hasRelevanceSignal : Bool :=
  expected.contracts ≠ [] || expected.clauses ≠ [] || expected.headings ≠ []

/-- `grade`, where no clause is named or the case has something coarser. -/
def coarseGrade (item : RetrievedItem) : Grade :=
  if expected.headings ≠ [] && item.headingMatches std expected.headings then .heading
  else if expected.contracts ≠ [] && expected.contracts.contains item.contractId then
    if expected.pages ≠ [] && item.pageMatches expected.pages then .page else .contract
  else .none

/-- `RelevanceJudge.grade`. -/
def grade (item : RetrievedItem) : Grade :=
  if expected.clauses ≠ [] then
    if item.isNamedIn expected.clauses then .exact
    else if !(expected.contracts ≠ [] || expected.headings ≠ []) then .none
    else expected.coarseGrade std item
  else expected.coarseGrade std item

def isRelevant (item : RetrievedItem) : Bool :=
  Grade.contract.value ≤ (expected.grade std item).value

def totalRelevant : Nat :=
  if expected.clauses ≠ [] then expected.clauses.length
  else if expected.headings ≠ [] then expected.headings.length
  else expected.contracts.length

def foundUnits (items : List RetrievedItem) : Nat :=
  if expected.clauses ≠ [] then
    (Cover.found (fun item => item.refId :: item.chunkId.toList) expected.clauses items).length
  else if expected.headings ≠ [] then
    let wanted := expected.headings.map fun heading => normalise std (some heading)
    (Cover.found (fun item => [normalise std item.sectionTitle]) wanted items).length
  else (Cover.found (fun item => [item.contractId]) expected.contracts items).length

def recallAtK (items : List RetrievedItem) (k : Nat) : Option Rat :=
  if expected.totalRelevant ≤ 0 then none
  else some (min ((expected.foundUnits std (items.take k) : Rat) / expected.totalRelevant) 1)

def precisionAtK (items : List RetrievedItem) (k : Nat) : Option Rat :=
  if expected.hasRelevanceSignal then
    match items.take k with
    | [] => some 0
    | window => some ((window.countP (expected.isRelevant std) : Rat) / window.length)
  else none

/-- The loop of `reciprocal_rank`. -/
def reciprocalFrom (index : Nat) : List RetrievedItem → Rat
  | [] => 0
  | item :: items =>
    if expected.isRelevant std item then 1 / index else reciprocalFrom (index + 1) items

def reciprocalRank (items : List RetrievedItem) : Option Rat :=
  if expected.hasRelevanceSignal then some (expected.reciprocalFrom std 1 items) else none

def gain (log2 : Log2) (grade index : Nat) : Rat := (2 ^ grade - 1) / log2.value (index + 1)

def gainsFrom (log2 : Log2) (index : Nat) : List Nat → Rat
  | [] => 0
  | grade :: grades =>
    (if 0 < grade then gain log2 grade index else 0) + gainsFrom log2 (index + 1) grades

def ndcgAtK (log2 : Log2) (items : List RetrievedItem) (k : Nat) : Option Rat :=
  if expected.hasRelevanceSignal then
    let dcg := gainsFrom log2 1 ((items.take k).map fun item => (expected.grade std item).value)
    let bestGrade := if expected.clauses ≠ [] then 4 else if expected.headings ≠ [] then 3 else 1
    let idealCount := min expected.totalRelevant k
    let idcg := gainsFrom log2 1 (List.replicate idealCount bestGrade)
    if idcg ≤ 0 then none else some (min (dcg / idcg) 1)
  else none

/-! ## What the metrics should agree on -/

def Matched (items : List RetrievedItem) : Prop :=
  if expected.clauses ≠ [] then
    ∀ clause ∈ expected.clauses, ∃ item ∈ items, item.isNamedIn [clause] = true
  else if expected.headings ≠ [] then
    ∀ heading ∈ expected.headings, ∃ item ∈ items, item.headingMatches std [heading] = true
  else ∀ contract ∈ expected.contracts, ∃ item ∈ items, item.contractId = contract

end GoldenExpectation

namespace Relevance

def Positive (metric : Option Rat) : Prop := ∃ value ∈ metric, 0 < value

/-- A metric that is scored within the unit interval. -/
def Unital (metric : Option Rat) : Prop := ∃ value ∈ metric, 0 ≤ value ∧ value ≤ 1

structure Agrees (std : Stdlib) (log2 : Log2) (expected : GoldenExpectation)
    (items : List RetrievedItem) : Prop where
  alone : expected.clauses ≠ [] → ∀ item ∈ items, expected.isRelevant std item = true →
    item.isNamedIn expected.clauses = true
  reciprocal : ∀ k, items.length ≤ k →
    (Positive (expected.recallAtK std items k) ↔ Positive (expected.reciprocalRank std items))
  precision : ∀ k, items.length ≤ k →
    (Positive (expected.recallAtK std items k) ↔ Positive (expected.precisionAtK std items k))
  monotone : ∀ k k', k ≤ k' → ∃ r ∈ expected.recallAtK std items k,
    ∃ r' ∈ expected.recallAtK std items k', r ≤ r'
  full : ∀ k, expected.Matched std (items.take k) → expected.recallAtK std items k = some 1
  unital : ∀ k, Unital (expected.recallAtK std items k) ∧
    Unital (expected.precisionAtK std items k) ∧
    ∀ value ∈ expected.ndcgAtK std log2 items k, 0 ≤ value ∧ value ≤ 1

def Coarse (std : Stdlib) (expected : GoldenExpectation) (item : RetrievedItem) : Prop :=
  item.headingMatches std expected.headings = true ∨ item.contractId ∈ expected.contracts

/-- Where clauses are named, a passage that is none of them has none of the headings and contracts
of the case; and where headings are judged, a passage is relevant in the list only if one of them is
the title of a section. Wherever everything is matched, nothing is listed twice, and each heading is
the title of a section. -/
def Unambiguous (std : Stdlib) (expected : GoldenExpectation) (items : List RetrievedItem) : Prop :=
  let wanted := expected.headings.map fun heading => normalise std (some heading)
  if expected.clauses ≠ [] then
    (∀ item ∈ items, Coarse std expected item → item.isNamedIn expected.clauses = true) ∧
      (expected.Matched std items → expected.clauses.Nodup)
  else if expected.headings ≠ [] then
    ((∃ item ∈ items, normalise std item.sectionTitle ∈ wanted) ↔
        ∃ item ∈ items, Coarse std expected item) ∧
      ∀ k, expected.Matched std (items.take k) → wanted.Nodup ∧
        ∀ title ∈ wanted, ∃ item ∈ items.take k, normalise std item.sectionTitle = title
  else expected.Matched std items → expected.contracts.Nodup

/-! ## Which passages are relevant -/

variable {std : Stdlib} {log2 : Log2} {expected : GoldenExpectation} {item : RetrievedItem}
  {items items' : List RetrievedItem} {k : Nat}

theorem isNamedIn_iff {ids : List Uuid} : item.isNamedIn ids = true ↔
    ∃ key ∈ item.refId :: item.chunkId.toList, key ∈ ids := by
  cases h : item.chunkId <;> simp [RetrievedItem.isNamedIn, h]

theorem headingMatches_nil : item.headingMatches std [] = false := by
  simp [RetrievedItem.headingMatches]

theorem coarseGrade_pos : 1 ≤ (expected.coarseGrade std item).value ↔ Coarse std expected item := by
  unfold GoldenExpectation.coarseGrade Coarse
  by_cases hheading : item.headingMatches std expected.headings = true
  · have hne : expected.headings ≠ [] := by
      intro h
      rw [h, headingMatches_nil] at hheading
      cases hheading
    simp [hheading, hne, Grade.value]
  · by_cases hcontract : item.contractId ∈ expected.contracts
    · have hne : expected.contracts ≠ [] := List.ne_nil_of_mem hcontract
      by_cases hpages : (expected.pages ≠ [] && item.pageMatches expected.pages) = true
      · rw [if_neg (by simp [hheading]), if_pos (by simp [hne, hcontract]), if_pos hpages]
        simp [Grade.value, hcontract]
      · rw [if_neg (by simp [hheading]), if_pos (by simp [hne, hcontract]), if_neg hpages]
        simp [Grade.value, hcontract]
    · simp [hheading, hcontract, Grade.value]

/-- A passage is relevant if it is a named clause, or what the case names besides: the cascade of
`grade` falls through where a clause is named. -/
theorem isRelevant_iff : expected.isRelevant std item = true ↔
    item.isNamedIn expected.clauses = true ∨ Coarse std expected item := by
  unfold GoldenExpectation.isRelevant GoldenExpectation.grade
  rw [decide_eq_true_iff, show Grade.contract.value = 1 from rfl]
  by_cases hclauses : expected.clauses ≠ []
  · rw [if_pos hclauses]
    by_cases hnamed : item.isNamedIn expected.clauses = true
    · simp [hnamed, Grade.value]
    · rw [if_neg hnamed]
      split
      · next h =>
        have hempty : expected.contracts = [] ∧ expected.headings = [] := by simpa using h
        simp [hnamed, Coarse, hempty, headingMatches_nil, Grade.value]
      · rw [coarseGrade_pos]
        simp [hnamed]
  · rw [if_neg hclauses, coarseGrade_pos]
    have hempty : expected.clauses = [] := by simpa using hclauses
    have hnamed : ¬ item.isNamedIn expected.clauses = true := by
      simp [isNamedIn_iff, hempty]
    simp [hnamed]

/-! ## Which units are found -/

/-- Some unit that the case is judged on is found among the passages. -/
def Covered (std : Stdlib) (expected : GoldenExpectation) (items : List RetrievedItem) : Prop :=
  if expected.clauses ≠ [] then ∃ item ∈ items, item.isNamedIn expected.clauses = true
  else if expected.headings ≠ [] then ∃ item ∈ items, normalise std item.sectionTitle ∈
    expected.headings.map fun heading => normalise std (some heading)
  else ∃ item ∈ items, item.contractId ∈ expected.contracts

theorem foundUnits_pos_iff : 0 < expected.foundUnits std items ↔ Covered std expected items := by
  unfold GoldenExpectation.foundUnits Covered
  split
  · simp only [Cover.count_pos_iff, isNamedIn_iff]
  · split
    · simp [Cover.count_pos_iff]
    · simp [Cover.count_pos_iff]

theorem foundUnits_le : expected.foundUnits std items ≤ expected.totalRelevant := by
  unfold GoldenExpectation.foundUnits GoldenExpectation.totalRelevant
  split
  · exact Cover.count_le
  · split
    · exact Cover.count_le.trans_eq (List.length_map _)
    · exact Cover.count_le

theorem foundUnits_mono (h : items ⊆ items') :
    expected.foundUnits std items ≤ expected.foundUnits std items' := by
  unfold GoldenExpectation.foundUnits
  split
  · exact Cover.count_mono h
  · split
    · exact Cover.count_mono h
    · exact Cover.count_mono h

/-- Every unit is found and counted. -/
def Complete (std : Stdlib) (expected : GoldenExpectation) (items : List RetrievedItem) : Prop :=
  let wanted := expected.headings.map fun heading => normalise std (some heading)
  if expected.clauses ≠ [] then
    expected.clauses.Nodup ∧
      ∀ clause ∈ expected.clauses, ∃ item ∈ items, item.isNamedIn [clause] = true
  else if expected.headings ≠ [] then
    wanted.Nodup ∧ ∀ title ∈ wanted, ∃ item ∈ items, normalise std item.sectionTitle = title
  else expected.contracts.Nodup ∧
    ∀ contract ∈ expected.contracts, ∃ item ∈ items, item.contractId = contract

theorem foundUnits_eq_iff : expected.foundUnits std items = expected.totalRelevant ↔
    Complete std expected items := by
  unfold GoldenExpectation.foundUnits GoldenExpectation.totalRelevant Complete
  split
  · rw [Cover.count_eq_length_iff]
    simp only [isNamedIn_iff, List.mem_singleton, exists_eq_right]
  · split
    · have hlength : (expected.headings.map fun heading => normalise std (some heading)).length =
          expected.headings.length := List.length_map _
      rw [← hlength, Cover.count_eq_length_iff]
      simp only [List.mem_singleton, eq_comm]
    · rw [Cover.count_eq_length_iff]
      simp only [List.mem_singleton, eq_comm]

theorem totalRelevant_pos (h : expected.hasRelevanceSignal = true) :
    0 < expected.totalRelevant := by
  unfold GoldenExpectation.totalRelevant
  split
  · next hne => exact List.length_pos_iff.2 hne
  · split
    · next hne => exact List.length_pos_iff.2 hne
    · have hne : expected.contracts ≠ [] := by
        simp_all [GoldenExpectation.hasRelevanceSignal]
      exact List.length_pos_iff.2 hne

/-! ## The metrics -/

theorem recallAtK_eq (h : expected.hasRelevanceSignal = true) (items : List RetrievedItem)
    (k : Nat) : expected.recallAtK std items k =
      some ((expected.foundUnits std (items.take k) : Rat) / expected.totalRelevant) := by
  have hpos := totalRelevant_pos h
  have hle : (expected.foundUnits std (items.take k) : Rat) ≤ expected.totalRelevant := by
    exact_mod_cast foundUnits_le
  unfold GoldenExpectation.recallAtK
  rw [if_neg (by omega), min_eq_left]
  exact div_le_one_of_le₀ hle (by positivity)

theorem positive_recallAtK (h : expected.hasRelevanceSignal = true) :
    Positive (expected.recallAtK std items k) ↔ Covered std expected (items.take k) := by
  have hpos : (0 : Rat) < expected.totalRelevant := by exact_mod_cast totalRelevant_pos h
  rw [recallAtK_eq h, ← foundUnits_pos_iff]
  simp [Positive, div_pos_iff_of_pos_right hpos]

theorem recallAtK_eq_one_iff (h : expected.hasRelevanceSignal = true) :
    expected.recallAtK std items k = some 1 ↔ Complete std expected (items.take k) := by
  have hpos : (expected.totalRelevant : Rat) ≠ 0 := by
    exact_mod_cast (totalRelevant_pos h).ne'
  rw [recallAtK_eq h, ← foundUnits_eq_iff, Option.some_inj, div_eq_one_iff_eq hpos, Nat.cast_inj]

theorem recallAtK_mono (h : expected.hasRelevanceSignal = true) {k' : Nat} (hk : k ≤ k') :
    ∃ r ∈ expected.recallAtK std items k, ∃ r' ∈ expected.recallAtK std items k', r ≤ r' := by
  have hmono : (expected.foundUnits std (items.take k) : Rat) ≤
      expected.foundUnits std (items.take k') := by
    exact_mod_cast foundUnits_mono (List.take_subset_take_left items hk)
  refine ⟨_, recallAtK_eq h items k, _, recallAtK_eq h items k', ?_⟩
  exact div_le_div_of_nonneg_right hmono (by positivity)

theorem unital_recallAtK (h : expected.hasRelevanceSignal = true) :
    Unital (expected.recallAtK std items k) := by
  have hle : (expected.foundUnits std (items.take k) : Rat) ≤ expected.totalRelevant := by
    exact_mod_cast foundUnits_le
  exact ⟨_, recallAtK_eq h items k, by positivity, div_le_one_of_le₀ hle (by positivity)⟩

theorem precisionAtK_eq (h : expected.hasRelevanceSignal = true) (items : List RetrievedItem)
    (k : Nat) : expected.precisionAtK std items k =
      some (((items.take k).countP (expected.isRelevant std) : Rat) / (items.take k).length) := by
  unfold GoldenExpectation.precisionAtK
  rw [if_pos h]
  cases items.take k with
  | nil => simp
  | cons item rest => rfl

theorem positive_precisionAtK (h : expected.hasRelevanceSignal = true) :
    Positive (expected.precisionAtK std items k) ↔
      ∃ item ∈ items.take k, expected.isRelevant std item = true := by
  rw [precisionAtK_eq h, ← List.countP_pos_iff]
  generalize items.take k = window
  have hle : window.countP (expected.isRelevant std) ≤ window.length := List.countP_le_length
  simp only [Positive, Option.mem_some_iff, exists_eq_left']
  constructor
  · intro hpos
    by_contra hzero
    have : window.countP (expected.isRelevant std) = 0 := by omega
    simp [this] at hpos
  · intro hpos
    have hlength : 0 < window.length := by omega
    positivity

theorem unital_precisionAtK (h : expected.hasRelevanceSignal = true) :
    Unital (expected.precisionAtK std items k) := by
  have hle : ((items.take k).countP (expected.isRelevant std) : Rat) ≤ (items.take k).length := by
    exact_mod_cast List.countP_le_length
  exact ⟨_, precisionAtK_eq h items k, by positivity, div_le_one_of_le₀ hle (by positivity)⟩

theorem reciprocalFrom_pos_iff {index : Nat} (hindex : 0 < index) :
    0 < expected.reciprocalFrom std index items ↔
      ∃ item ∈ items, expected.isRelevant std item = true := by
  induction items generalizing index with
  | nil => simp [GoldenExpectation.reciprocalFrom]
  | cons item items ih =>
    unfold GoldenExpectation.reciprocalFrom
    by_cases hrel : expected.isRelevant std item = true
    · rw [if_pos hrel]
      simp [hrel, hindex]
    · rw [if_neg hrel, ih (by omega)]
      simp [hrel]

theorem positive_reciprocalRank (h : expected.hasRelevanceSignal = true) :
    Positive (expected.reciprocalRank std items) ↔
      ∃ item ∈ items, expected.isRelevant std item = true := by
  unfold GoldenExpectation.reciprocalRank
  rw [if_pos h, ← reciprocalFrom_pos_iff Nat.zero_lt_one]
  simp [Positive]

theorem gainsFrom_nonneg (log2 : Log2) {index : Nat} (hindex : 0 < index) (grades : List Nat) :
    0 ≤ GoldenExpectation.gainsFrom log2 index grades := by
  induction grades generalizing index with
  | nil => exact le_rfl
  | cons grade grades ih =>
    unfold GoldenExpectation.gainsFrom
    refine add_nonneg ?_ (ih (by omega))
    split
    · have hpow : (1 : Rat) ≤ 2 ^ grade := one_le_pow₀ (by norm_num)
      exact div_nonneg (by linarith) (log2.pos _ (by omega)).le
    · exact le_rfl

theorem ndcgAtK_unital {value : Rat} (h : value ∈ expected.ndcgAtK std log2 items k) :
    0 ≤ value ∧ value ≤ 1 := by
  unfold GoldenExpectation.ndcgAtK at h
  split at h
  · dsimp only at h
    have hdcg := gainsFrom_nonneg log2 Nat.zero_lt_one
      ((items.take k).map fun item => (expected.grade std item).value)
    generalize GoldenExpectation.gainsFrom log2 1 (List.replicate _ _) = idcg at h
    by_cases hideal : idcg ≤ 0
    · rw [if_pos hideal] at h
      cases h
    · rw [if_neg hideal, Option.mem_some_iff] at h
      rw [← h]
      exact ⟨le_min (div_nonneg hdcg (not_le.1 hideal).le) zero_le_one, min_le_right _ _⟩
  · cases h

/-! ## Where the metrics agree -/

/-- The metrics agree as far as the two cascades do. -/
theorem agrees_iff_cascades (h : expected.hasRelevanceSignal = true) :
    Agrees std log2 expected items ↔
      (expected.clauses ≠ [] → ∀ item ∈ items, expected.isRelevant std item = true →
        item.isNamedIn expected.clauses = true) ∧
      (Covered std expected items ↔ ∃ item ∈ items, expected.isRelevant std item = true) ∧
      ∀ k, expected.Matched std (items.take k) → Complete std expected (items.take k) := by
  constructor
  · intro hagrees
    refine ⟨hagrees.alone, ?_, fun k hk => (recallAtK_eq_one_iff h).1 (hagrees.full k hk)⟩
    have hreciprocal := hagrees.reciprocal items.length le_rfl
    rwa [positive_recallAtK h, positive_reciprocalRank h, List.take_length] at hreciprocal
  · intro ⟨halone, hcovered, hfull⟩
    exact {
      alone := halone
      reciprocal k hk := by
        rw [positive_recallAtK h, positive_reciprocalRank h, List.take_of_length_le hk, hcovered]
      precision k hk := by
        rw [positive_recallAtK h, positive_precisionAtK h, List.take_of_length_le hk, hcovered]
      monotone _ _ hk := recallAtK_mono h hk
      full k hk := (recallAtK_eq_one_iff h).2 (hfull k hk)
      unital _ := ⟨unital_recallAtK h, unital_precisionAtK h, fun _ => ndcgAtK_unital⟩ }

theorem matched_mono (hsub : items ⊆ items') (h : expected.Matched std items) :
    expected.Matched std items' := by
  unfold GoldenExpectation.Matched at h ⊢
  split at h
  · next hclauses =>
    rw [if_pos hclauses]
    exact fun clause hclause => (h clause hclause).imp fun _ hi => ⟨hsub hi.1, hi.2⟩
  · next hclauses =>
    rw [if_neg hclauses]
    split at h
    · next hheadings =>
      rw [if_pos hheadings]
      exact fun heading hheading => (h heading hheading).imp fun _ hi => ⟨hsub hi.1, hi.2⟩
    · next hheadings =>
      rw [if_neg hheadings]
      exact fun contract hcontract => (h contract hcontract).imp fun _ hi => ⟨hsub hi.1, hi.2⟩

/-- A condition on the matched parts of the list is one on the whole list, if it is about what the
case names. -/
theorem forall_take_iff {p : Prop} : (∀ k, expected.Matched std (items.take k) → p) ↔
    (expected.Matched std items → p) := by
  constructor
  · intro h hmatched
    exact h items.length (by rwa [List.take_length])
  · intro h k hmatched
    exact h (matched_mono (List.take_subset k items) hmatched)

theorem not_named_of_nil (h : expected.clauses = []) :
    ¬ item.isNamedIn expected.clauses = true := by
  rw [isNamedIn_iff, h]
  simp

/-- For a case with a relevance signal the metrics agree on a ranked list exactly if it is
unambiguous what the case names. -/
theorem scores_agree_iff (h : expected.hasRelevanceSignal = true) :
    Agrees std log2 expected items ↔ Unambiguous std expected items := by
  rw [agrees_iff_cascades h]
  simp only [isRelevant_iff]
  unfold Unambiguous Covered Complete
  by_cases hclauses : expected.clauses ≠ []
  · have hcomplete : (∀ k, expected.Matched std (items.take k) → expected.clauses.Nodup ∧
        ∀ clause ∈ expected.clauses, ∃ item ∈ items.take k, item.isNamedIn [clause] = true) ↔
        (expected.Matched std items → expected.clauses.Nodup) := by
      rw [← forall_take_iff]
      refine forall_congr' fun k => imp_congr_right fun hmatched => and_iff_left ?_
      rwa [GoldenExpectation.Matched, if_pos hclauses] at hmatched
    simp only [if_pos hclauses, hcomplete, ← and_assoc]
    refine and_congr_left fun _ => ?_
    constructor
    · intro hagree item hitem hcoarse
      exact hagree.1 hclauses item hitem (.inr hcoarse)
    · intro hnamed
      refine ⟨fun _ item hitem hrel => hrel.elim id (hnamed item hitem), ?_⟩
      refine exists_congr fun item => and_congr_right fun hitem => ?_
      exact ⟨.inl, fun hrel => hrel.elim id (hnamed item hitem)⟩
  · have hempty : expected.clauses = [] := not_not.1 hclauses
    simp only [if_neg hclauses, not_named_of_nil hempty]
    by_cases hheadings : expected.headings ≠ []
    · simp [if_pos hheadings, hempty]
    · have hnone : expected.headings = [] := not_not.1 hheadings
      have hcomplete : (∀ k, expected.Matched std (items.take k) → expected.contracts.Nodup ∧
          ∀ contract ∈ expected.contracts, ∃ item ∈ items.take k, item.contractId = contract) ↔
          (expected.Matched std items → expected.contracts.Nodup) := by
        rw [← forall_take_iff]
        refine forall_congr' fun k => imp_congr_right fun hmatched => and_iff_left ?_
        rwa [GoldenExpectation.Matched, if_neg hclauses, if_neg hheadings] at hmatched
      simp only [if_neg hheadings, hcomplete]
      simp [hempty, hnone, Coarse, headingMatches_nil]

/-- Two named clauses of a contract that is not named itself, and a list with one of them. -/
theorem agrees_iff_clauses : Agrees Stdlib.ascii Log2.floor { clauses := [1, 2] }
    [{ refId := 3, contractId := 9 }, { refId := 4, contractId := 9, chunkId := some 2 }] := by
  refine (scores_agree_iff (by decide)).2 ?_
  unfold Unambiguous
  rw [if_pos (by decide)]
  exact ⟨by simp [Coarse, headingMatches_nil], fun _ => by decide⟩

/-- A passage of the named contract is relevant, though it is not the named clause; and a passage
whose clause number is the named heading is relevant, though the heading is not found. -/
theorem agrees_fails :
    ¬ Agrees Stdlib.ascii Log2.floor { clauses := [1], contracts := [9] }
        [{ refId := 3, contractId := 9 }] ∧
      ¬ Agrees Stdlib.ascii Log2.floor { headings := ["Term"] }
        [{ refId := 3, contractId := 9, clauseNumber := some "Term",
           sectionTitle := some "Length" }] := by
  constructor
  · intro hagrees
    have hnamed := hagrees.alone (by decide) _ List.mem_cons_self
      (isRelevant_iff.2 (.inr (.inr (by decide))))
    revert hnamed
    decide
  · intro hagrees
    have hcovered := ((agrees_iff_cascades (by decide)).1 hagrees).2.1
    have hrelevant := hcovered.2 ⟨_, List.mem_cons_self,
      isRelevant_iff.2 (.inr (.inl (by decide +kernel)))⟩
    rw [Covered, if_neg (by decide), if_pos (by decide)] at hrelevant
    obtain ⟨item, hitem, htitle⟩ := hrelevant
    rw [List.mem_singleton.1 hitem] at htitle
    revert htitle
    decide +kernel

end Relevance

end Clear
