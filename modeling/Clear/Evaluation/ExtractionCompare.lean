import Clear.Ai.Extraction.Models
import Clear.Lib.Dict
import Mathlib.Algebra.Order.Field.Rat
import Mathlib.Data.List.Forall2
import Mathlib.Data.List.Sort
import Mathlib.Data.Nat.Cast.Order.Field
import Mathlib.Data.Rat.Cast.Order
import Mathlib.Tactic.Positivity

/-!
# Comparing two extraction pipelines

`app/evaluation/extraction_compare.py`: what two pipelines made of one request is compared clause by
clause. Clauses are filed by type and paired by their positions. Scores are exact rationals; costs
and logging are left out. `reproduces_iff` says for which results the regression rate is zero
exactly when the candidate has the clauses of the baseline.
-/

namespace Clear

mutual

/-- `v == w`. -/
def Value.equals : Value → Value → Bool
  | .list l, .list m => Value.equalsList l m
  | .dict d, .dict e => d.length = e.length && Value.equalsEntries d e
  | .str s, .str t => s = t
  | .null, .null => true
  | v, w => v.num?.any fun x => w.num?.any fun y => x = y

def Value.equalsList : List Value → List Value → Bool
  | [], [] => true
  | v :: l, w :: m => Value.equals v w && Value.equalsList l m
  | _, _ => false

def Value.equalsEntries : ValueDict → ValueDict → Bool
  | [], _ => true
  | (key, v) :: d, e =>
    (match e.lookup key with
      | some w => Value.equals v w
      | none => false) && Value.equalsEntries d e

end

/-- An extracted clause with the fields that only the comparison reads; `evidence` is the
`chunk_id` of each citation. -/
structure ComparedClause extends ExtractedClause where
  sectionId : Option String := none
  sectionTitle : Option String := none
  validationScore : Rat := 1
  isRiskFlagged : Bool := false
  deviationScore : Option Rat := none
  evidence : List String := []

/-- What a pipeline made of a request, as far as it is compared. -/
structure ComparedResult where
  clauses : List ComparedClause
  outcomes : List CategoryOutcome := []

namespace ExtractionCompare

def sortedSet (l : List String) : List String := l.dedup.insertionSort (· ≤ ·)

def reviewStatusValue : ReviewStatus → String
  | .notRequired => "not_required"
  | .pending => "pending"
  | .approved => "approved"
  | .rejected => "rejected"
  | .corrected => "corrected"

def ofScore? : Option Rat → Value
  | none => .null
  | some x => .float x

def comparedFields (c : ComparedClause) : List (String × Value) :=
  [("clause_type", .str c.clauseType), ("title", .ofStr? c.title), ("text", .str c.text),
    ("summary", .ofStr? c.summary), ("clause_number", .ofStr? c.clauseNumber),
    ("section_id", .ofStr? c.sectionId), ("section_title", .ofStr? c.sectionTitle),
    ("confidence", .float c.confidence), ("validation_score", .float c.validationScore),
    ("review_status", .str (reviewStatusValue c.reviewStatus)),
    ("is_mandatory", .bool c.isMandatory), ("is_risk_flagged", .bool c.isRiskFlagged),
    ("deviation_score", ofScore? c.deviationScore)]

def floatFields : List String := ["confidence", "validation_score", "deviation_score"]

def floatTolerance : Rat := 1 / 1000

def equal (name : String) (left right : Value) : Bool :=
  match left.num?, right.num? with
  | some x, some y =>
    if floatFields.contains name then |x - y| ≤ floatTolerance else left.equals right
  | _, _ => left.equals right

structure Check where
  name : String
  field : String
  left : Value
  right : Value

def Check.ok (c : Check) : Bool := equal c.name c.left c.right

def fieldChecks (base cand : ComparedClause) : List Check :=
  List.zipWith (fun l r => { name := l.1, field := l.1, left := l.2, right := r.2 })
    (comparedFields base) (comparedFields cand)

def attributeChecks (base cand : ComparedClause) : List Check :=
  (sortedSet (base.attributes.map (·.1) ++ cand.attributes.map (·.1))).map fun key =>
    { name := key, field := "attributes." ++ key, left := Value.get base.attributes key,
      right := Value.get cand.attributes key }

def checks (base cand : ComparedClause) : List Check :=
  fieldChecks base cand ++ attributeChecks base cand

/-! ## The report -/

structure Accuracy where
  matched : Nat := 0
  total : Nat := 0
  deriving DecidableEq

namespace Accuracy

def record (a : Accuracy) (ok : Bool) : Accuracy :=
  { matched := a.matched + if ok then 1 else 0, total := a.total + 1 }

def rate (a : Accuracy) : Rat := if a.total ≠ 0 then a.matched / a.total else 1

end Accuracy

structure FieldDiff where
  clauseType : String
  field : String
  baseline : Value
  candidate : Value

structure ContractReport where
  label : String
  fieldAccuracy : Accuracy := {}
  citationAccuracy : Accuracy := {}
  evidenceAccuracy : Accuracy := {}
  nullAccuracy : Accuracy := {}
  jsonValidity : Accuracy := {}
  onlyInBaseline : List String := []
  onlyInCandidate : List String := []
  diffs : List FieldDiff := []

/-- The body of the two loops of `_compare_clause`. -/
def record (clauseType : String) (report : ContractReport) (c : Check) : ContractReport :=
  { report with
    fieldAccuracy := report.fieldAccuracy.record c.ok
    nullAccuracy :=
      if c.left.isNull || c.right.isNull then
        report.nullAccuracy.record (c.left.isNull && c.right.isNull)
      else report.nullAccuracy
    diffs :=
      if c.ok then report.diffs else report.diffs ++ [⟨clauseType, c.field, c.left, c.right⟩] }

def recordEvidence (clauseType : String) (report : ContractReport) (base cand : ComparedClause) :
    ContractReport :=
  let baseChunks := sortedSet base.evidence
  let candChunks := sortedSet cand.evidence
  { report with
    citationAccuracy := report.citationAccuracy.record (baseChunks = candChunks)
    evidenceAccuracy :=
      report.evidenceAccuracy.record (base.evidence.length = cand.evidence.length)
    diffs :=
      if baseChunks = candChunks then report.diffs
      else report.diffs ++
        [⟨clauseType, "evidence.chunk_ids", .ofStrs baseChunks, .ofStrs candChunks⟩] }

def compareClause (clauseType : String) (report : ContractReport)
    (pair : ComparedClause × ComparedClause) : ContractReport :=
  recordEvidence clauseType ((checks pair.1 pair.2).foldl (record clauseType) report) pair.1 pair.2

def index (clauses : List ComparedClause) : List (String × List ComparedClause) :=
  Dict.groupBy (·.clauseType) id clauses

def compare (report : ContractReport) (baseline candidate : ComparedResult) : ContractReport :=
  let baseByType := index baseline.clauses
  let candByType := index candidate.clauses
  let baseTypes := baseByType.map (·.1)
  let candTypes := candByType.map (·.1)
  let report := { report with
    onlyInBaseline := sortedSet (baseTypes.filter fun t => !candTypes.contains t)
    onlyInCandidate := sortedSet (candTypes.filter fun t => !baseTypes.contains t) }
  let report := (sortedSet (baseTypes.filter fun t => candTypes.contains t)).foldl
    (fun report t => (((baseByType.lookup t).getD []).zip ((candByType.lookup t).getD [])).foldl
      (compareClause t) report) report
  { report with
    jsonValidity := candidate.outcomes.foldl
      (fun a o => a.record (o.status ∉ [.invalid, .error])) report.jsonValidity }

structure EvaluationReport where
  contracts : List ContractReport

namespace EvaluationReport

def totals (report : EvaluationReport) (attr : ContractReport → Accuracy) : Accuracy :=
  report.contracts.foldl
    (fun total contract => { matched := total.matched + (attr contract).matched,
                             total := total.total + (attr contract).total }) {}

def regressionPct (report : EvaluationReport) : Rat :=
  Rounding.toDigits 4 ((1 - (report.totals (·.fieldAccuracy)).rate) * 100)

end EvaluationReport

/-- `evaluate`, of the label of each request and what the two pipelines made of it. -/
def evaluate (runs : List (String × ComparedResult × ComparedResult)) : EvaluationReport :=
  ⟨runs.map fun run => compare { label := run.1 } run.2.1 run.2.2⟩

/-! ## What the rate should say -/

def Same (base cand : ComparedClause) : Prop := ∀ c ∈ checks base cand, c.ok = true

def SameClauses (base cand : List ComparedClause) : Prop :=
  ∃ l : List ComparedClause, l.Perm cand ∧ List.Forall₂ Same base l

def ofType (t : String) (clauses : List ComparedClause) : List ComparedClause :=
  clauses.filter (·.clauseType = t)

def Reported (t : String) (report : ContractReport) : Prop :=
  t ∈ report.onlyInBaseline ∨ t ∈ report.onlyInCandidate ∨
    ∃ d ∈ report.diffs, d.clauseType = t ∧ d.field ≠ "evidence.chunk_ids"

/-- The regression rate is zero exactly for the clauses of the baseline, and each type whose clauses
are not those of the baseline is in the report. -/
structure Reproduces (label : String) (base cand : ComparedResult) : Prop where
  zero : (evaluate [(label, base, cand)]).regressionPct = 0 ↔
    SameClauses base.clauses cand.clauses
  positive : ¬ SameClauses base.clauses cand.clauses →
    0 < (evaluate [(label, base, cand)]).regressionPct
  reported : ∀ t, ¬ SameClauses (ofType t base.clauses) (ofType t cand.clauses) →
    ∃ report ∈ (evaluate [(label, base, cand)]).contracts, Reported t report

def types (clauses : List ComparedClause) : List String := (clauses.map (·.clauseType)).eraseDups

def commonTypes (base cand : List ComparedClause) : List String :=
  sortedSet ((types base).filter fun t => (types cand).contains t)

/-- The clauses of a type that are at the same position on both sides. -/
def pairsOf (t : String) (base cand : List ComparedClause) :
    List (ComparedClause × ComparedClause) :=
  (ofType t base).zip (ofType t cand)

def compared (base cand : List ComparedClause) : List (String × Check) :=
  (commonTypes base cand).flatMap fun t => (pairsOf t base cand).flatMap fun pair =>
    (checks pair.1 pair.2).map fun c => (t, c)

def differing (base cand : List ComparedClause) : Nat :=
  (compared base cand).countP fun c => !c.2.ok

/-- At most one in two million of the compared fields differs: a rate that is rounded to zero. -/
def Negligible (base cand : List ComparedClause) : Prop :=
  2000000 * differing base cand ≤ (compared base cand).length

/-- Of the same clauses those at the same positions of their types are the same, up to a negligible
rest. Of other clauses more than that rest differ at the same positions; and a type with more
clauses on one side is missing on the other, or some clauses at the same position differ. -/
def Aligned (base cand : List ComparedClause) : Prop :=
  (SameClauses base cand → Negligible base cand) ∧
    (¬ SameClauses base cand → ¬ Negligible base cand ∧
      ∀ t, (ofType t base).length = (ofType t cand).length ∨ ofType t base = [] ∨
        ofType t cand = [] ∨ ∃ pair ∈ pairsOf t base cand, ¬ Same pair.1 pair.2)

/-! ## What the comparison records -/

structure Tally (report report' : ContractReport) (l : List (String × Check)) : Prop where
  matched : report'.fieldAccuracy.matched + l.countP (fun c => !c.2.ok) =
    report.fieldAccuracy.matched + l.length
  total : report'.fieldAccuracy.total = report.fieldAccuracy.total + l.length
  diffs : ∀ t, (∃ d ∈ report'.diffs, d.clauseType = t ∧ d.field ≠ "evidence.chunk_ids") ↔
    (∃ d ∈ report.diffs, d.clauseType = t ∧ d.field ≠ "evidence.chunk_ids") ∨
      ∃ c ∈ l, c.1 = t ∧ c.2.ok = false
  onlyInBaseline : report'.onlyInBaseline = report.onlyInBaseline
  onlyInCandidate : report'.onlyInCandidate = report.onlyInCandidate

theorem Tally.nil (report : ContractReport) : Tally report report [] where
  matched := rfl
  total := rfl
  diffs t := by simp
  onlyInBaseline := rfl
  onlyInCandidate := rfl

theorem Tally.append {r r' r'' : ContractReport} {l l' : List (String × Check)}
    (h : Tally r r' l) (h' : Tally r' r'' l') : Tally r r'' (l ++ l') where
  matched := by
    have h1 := h.matched
    have h2 := h'.matched
    rw [List.countP_append, List.length_append]
    omega
  total := by rw [h'.total, h.total, List.length_append, Nat.add_assoc]
  diffs t := by
    rw [h'.diffs, h.diffs, or_assoc]
    simp only [List.mem_append, or_and_right, exists_or]
  onlyInBaseline := h'.onlyInBaseline.trans h.onlyInBaseline
  onlyInCandidate := h'.onlyInCandidate.trans h.onlyInCandidate

theorem Tally.foldl {α : Type} {f : ContractReport → α → ContractReport}
    {g : α → List (String × Check)} {items : List α}
    (hstep : ∀ r, ∀ a ∈ items, Tally r (f r a) (g a)) (r : ContractReport) :
    Tally r (items.foldl f r) (items.flatMap g) := by
  induction items generalizing r with
  | nil => exact .nil r
  | cons a items ih =>
    rw [List.foldl_cons, List.flatMap_cons]
    exact (hstep r a List.mem_cons_self).append
      (ih (fun r b hb => hstep r b (List.mem_cons_of_mem a hb)) _)

theorem tally_record {t : String} {c : Check} (hfield : c.field ≠ "evidence.chunk_ids")
    (r : ContractReport) : Tally r (record t r c) [(t, c)] where
  matched := by cases h : c.ok <;> simp [record, Accuracy.record, h]
  total := rfl
  diffs t' := by
    cases h : c.ok
    · simp only [record, h, Bool.false_eq_true, if_false, List.mem_append, List.mem_singleton,
        or_and_right, exists_or, exists_eq_left]
      simp [hfield]
    · simp [record, h]
  onlyInBaseline := rfl
  onlyInCandidate := rfl

theorem tally_recordEvidence (t : String) (base cand : ComparedClause) (r : ContractReport) :
    Tally r (recordEvidence t r base cand) [] where
  matched := rfl
  total := rfl
  diffs t' := by
    unfold recordEvidence
    dsimp only
    split
    · simp
    · simp only [List.mem_append, List.mem_singleton, or_and_right, exists_or, exists_eq_left]
      simp
  onlyInBaseline := rfl
  onlyInCandidate := rfl

theorem field_of_mem_checks {base cand : ComparedClause} {c : Check} (h : c ∈ checks base cand) :
    c.field ≠ "evidence.chunk_ids" := by
  rcases List.mem_append.1 h with hfield | hattribute
  · have hnames : (fieldChecks base cand).map (·.field) =
        ["clause_type", "title", "text", "summary", "clause_number", "section_id", "section_title",
          "confidence", "validation_score", "review_status", "is_mandatory", "is_risk_flagged",
          "deviation_score"] := rfl
    have hmem := List.mem_map_of_mem (f := Check.field) hfield
    rw [hnames] at hmem
    intro heq
    rw [heq] at hmem
    revert hmem
    decide
  · obtain ⟨key, -, rfl⟩ := List.mem_map.1 hattribute
    intro heq
    have hchars := congrArg String.toList heq
    rw [String.toList_append] at hchars
    cases hchars

theorem tally_compareClause (t : String) (r : ContractReport)
    (pair : ComparedClause × ComparedClause) :
    Tally r (compareClause t r pair) ((checks pair.1 pair.2).map fun c => (t, c)) := by
  have hchecks : Tally r ((checks pair.1 pair.2).foldl (record t) r)
      ((checks pair.1 pair.2).flatMap fun c => [(t, c)]) :=
    .foldl (fun r c hc => tally_record (field_of_mem_checks hc) r) r
  have hall := hchecks.append (tally_recordEvidence t pair.1 pair.2 _)
  rw [List.append_nil, ← List.map_eq_flatMap] at hall
  exact hall

theorem keys_index (clauses : List ComparedClause) : (index clauses).map (·.1) = types clauses :=
  Dict.keys_groupBy _ _ _

theorem getD_index (clauses : List ComparedClause) (t : String) :
    ((index clauses).lookup t).getD [] = ofType t clauses := by
  unfold index ofType
  rw [Dict.getD_groupBy, List.map_id]

theorem mem_sortedSet {s : String} {l : List String} : s ∈ sortedSet l ↔ s ∈ l := by
  unfold sortedSet
  rw [(List.perm_insertionSort _ _).mem_iff, List.mem_dedup]

theorem mem_types {clauses : List ComparedClause} {t : String} :
    t ∈ types clauses ↔ ofType t clauses ≠ [] := by
  unfold types ofType
  rw [List.mem_eraseDups, List.mem_map]
  rw [Ne, List.filter_eq_nil_iff]
  simp

theorem compare_eq (label : String) (base cand : ComparedResult) : ∃ validity : Accuracy,
    compare { label } base cand =
      { (commonTypes base.clauses cand.clauses).foldl
          (fun report t => (pairsOf t base.clauses cand.clauses).foldl (compareClause t) report)
          { label
            onlyInBaseline :=
              sortedSet ((types base.clauses).filter fun t => !(types cand.clauses).contains t)
            onlyInCandidate :=
              sortedSet ((types cand.clauses).filter fun t => !(types base.clauses).contains t) }
        with jsonValidity := validity } := by
  unfold compare
  simp only [getD_index, keys_index]
  exact ⟨_, rfl⟩

theorem contains_types {clauses : List ComparedClause} {t : String} :
    (types clauses).contains t = false ↔ ofType t clauses = [] := by
  rw [← Bool.not_eq_true, List.contains_iff_mem, mem_types, not_not]

theorem compare_spec (label : String) (base cand : ComparedResult) :
    (compare { label } base cand).fieldAccuracy.matched + differing base.clauses cand.clauses =
        (compared base.clauses cand.clauses).length ∧
      (compare { label } base cand).fieldAccuracy.total =
        (compared base.clauses cand.clauses).length ∧
      ∀ t, Reported t (compare { label } base cand) ↔
        (ofType t base.clauses ≠ [] ∧ ofType t cand.clauses = []) ∨
        (ofType t cand.clauses ≠ [] ∧ ofType t base.clauses = []) ∨
        ∃ c ∈ compared base.clauses cand.clauses, c.1 = t ∧ c.2.ok = false := by
  obtain ⟨validity, heq⟩ := compare_eq label base cand
  have htally : Tally _ _ (compared base.clauses cand.clauses) :=
    .foldl (f := fun r t => (pairsOf t base.clauses cand.clauses).foldl (compareClause t) r)
      (fun r t _ => .foldl (fun r pair _ => tally_compareClause t r pair) r)
      { label
        onlyInBaseline :=
          sortedSet ((types base.clauses).filter fun t => !(types cand.clauses).contains t)
        onlyInCandidate :=
          sortedSet ((types cand.clauses).filter fun t => !(types base.clauses).contains t) }
  rw [heq]
  refine ⟨htally.matched.trans (Nat.zero_add _), htally.total.trans (Nat.zero_add _), fun t => ?_⟩
  unfold Reported
  dsimp only
  rw [htally.onlyInBaseline, htally.onlyInCandidate, htally.diffs]
  simp only [mem_sortedSet, List.mem_filter, mem_types, Bool.not_eq_true',
    contains_types, List.not_mem_nil, false_and, exists_false, false_or]

/-! ## The rate -/

theorem differing_le (base cand : List ComparedClause) :
    differing base cand ≤ (compared base cand).length := List.countP_le_length

theorem regressionPct_eq (label : String) (base cand : ComparedResult) :
    (evaluate [(label, base, cand)]).regressionPct =
      Rounding.toDigits 4 (differing base.clauses cand.clauses /
        (compared base.clauses cand.clauses).length * 100) := by
  obtain ⟨hmatched, htotal, -⟩ := compare_spec label base cand
  have htotals : (evaluate [(label, base, cand)]).totals (·.fieldAccuracy) =
      (compare { label } base cand).fieldAccuracy := by
    simp [evaluate, EvaluationReport.totals]
  unfold EvaluationReport.regressionPct Accuracy.rate
  rw [htotals, htotal]
  congr 2
  by_cases hzero : (compared base.clauses cand.clauses).length = 0
  · simp [hzero]
  · have hne : ((compared base.clauses cand.clauses).length : Rat) ≠ 0 := by exact_mod_cast hzero
    rw [if_pos hzero, eq_div_iff hne, sub_mul, div_mul_cancel₀ _ hne, one_mul, ← hmatched]
    push_cast
    ring

theorem regressionPct_eq_zero_iff (label : String) (base cand : ComparedResult) :
    (evaluate [(label, base, cand)]).regressionPct = 0 ↔ Negligible base.clauses cand.clauses := by
  rw [regressionPct_eq]
  unfold Negligible
  have hle := differing_le base.clauses cand.clauses
  generalize differing base.clauses cand.clauses = m at hle ⊢
  generalize (compared base.clauses cand.clauses).length = n at hle ⊢
  rw [Rounding.toDigits_eq_zero_iff (by positivity)]
  rcases Nat.eq_zero_or_pos n with rfl | hn
  · simp_all
  · have hpos : (0 : Rat) < n := by exact_mod_cast hn
    rw [div_mul_eq_mul_div, div_mul_eq_mul_div, div_le_iff₀ hpos]
    constructor
    · intro h
      have : (2000000 : Rat) * m ≤ n := by linarith
      exact_mod_cast this
    · intro h
      have : (2000000 : Rat) * m ≤ n := by exact_mod_cast h
      linarith

theorem regressionPct_nonneg (label : String) (base cand : ComparedResult) :
    0 ≤ (evaluate [(label, base, cand)]).regressionPct := by
  rw [regressionPct_eq]
  exact Rounding.toDigits_nonneg (by positivity)

/-! ## Where a zero rate means the same clauses -/

theorem Same.type_eq {base cand : ComparedClause} (h : Same base cand) :
    base.clauseType = cand.clauseType := by
  have hcheck := h ⟨"clause_type", "clause_type", .str base.clauseType, .str cand.clauseType⟩
    (List.mem_append_left _ List.mem_cons_self)
  simpa [Check.ok, equal, Value.num?, Value.equals] using hcheck

theorem forall₂_ofType {base cand : List ComparedClause} (t : String)
    (h : List.Forall₂ Same base cand) : List.Forall₂ Same (ofType t base) (ofType t cand) := by
  unfold ofType
  induction h with
  | nil => exact .nil
  | @cons a b base cand hsame _ ih =>
    rw [List.filter_cons, List.filter_cons, hsame.type_eq]
    split
    · exact .cons hsame ih
    · exact ih

theorem SameClauses.ofType {base cand : List ComparedClause} (t : String)
    (h : SameClauses base cand) :
    SameClauses (ExtractionCompare.ofType t base) (ExtractionCompare.ofType t cand) := by
  obtain ⟨l, hperm, hall⟩ := h
  exact ⟨_, hperm.filter _, forall₂_ofType t hall⟩

theorem SameClauses.length_eq {base cand : List ComparedClause} (h : SameClauses base cand) :
    base.length = cand.length := by
  obtain ⟨l, hperm, hall⟩ := h
  rw [hall.length_eq, hperm.length_eq]

theorem sameClauses_of_pairs {base cand : List ComparedClause} (hlength : base.length = cand.length)
    (h : ∀ pair ∈ base.zip cand, Same pair.1 pair.2) : SameClauses base cand := by
  refine ⟨cand, .refl _, List.forall₂_iff_zip.2 ⟨hlength, fun hmem => h _ hmem⟩⟩

theorem exists_differing_iff {base cand : List ComparedClause} {t : String} :
    (∃ c ∈ compared base cand, c.1 = t ∧ c.2.ok = false) ↔
      ∃ pair ∈ pairsOf t base cand, ¬ Same pair.1 pair.2 := by
  unfold compared Same
  constructor
  · intro ⟨c, hc, ht, hok⟩
    obtain ⟨t', -, hc⟩ := List.mem_flatMap.1 hc
    obtain ⟨pair, hpair, hc⟩ := List.mem_flatMap.1 hc
    obtain ⟨check, hcheck, rfl⟩ := List.mem_map.1 hc
    subst ht
    exact ⟨pair, hpair, fun h => by simp [h check hcheck] at hok⟩
  · intro ⟨pair, hpair, hdiffers⟩
    push Not at hdiffers
    obtain ⟨check, hcheck, hok⟩ := hdiffers
    have hmem := List.of_mem_zip hpair
    have htype : t ∈ commonTypes base cand := by
      unfold commonTypes
      rw [mem_sortedSet, List.mem_filter, List.contains_iff_mem, mem_types, mem_types]
      exact ⟨List.ne_nil_of_mem hmem.1, List.ne_nil_of_mem hmem.2⟩
    refine ⟨(t, check), ?_, rfl, by simpa using hok⟩
    exact List.mem_flatMap.2 ⟨t, htype, List.mem_flatMap.2
      ⟨pair, hpair, List.mem_map_of_mem hcheck⟩⟩

theorem reported_iff {label : String} {base cand : ComparedResult} {t : String} :
    (∃ report ∈ (evaluate [(label, base, cand)]).contracts, Reported t report) ↔
      (ofType t base.clauses ≠ [] ∧ ofType t cand.clauses = []) ∨
      (ofType t cand.clauses ≠ [] ∧ ofType t base.clauses = []) ∨
      ∃ pair ∈ pairsOf t base.clauses cand.clauses, ¬ Same pair.1 pair.2 := by
  obtain ⟨-, -, hreported⟩ := compare_spec label base cand
  rw [← exists_differing_iff, ← hreported t]
  simp [evaluate]

end ExtractionCompare

end Clear
