import Clear.Ai.Extraction.Proof.Omissions
import Clear.Lib.Keyed
import Clear.Lib.OrderBy

/-!
# What a category can do to the others

The clause categories are gathered with their exceptions, the categories derived from them without:
an answer of a derived category that its reader raises on fails the whole extraction. Which answers
these are is decided by the shape of the answer alone (`Derived.fits`, `derived_reads_iff`): a list
of items that cannot be iterated, or an integer beyond the range of `float` under a key that is
converted. A clause category can fail the extraction too, through the carve-outs of an accepted
limitation of liability, which the assessor iterates outside its guarded rules. Nothing else of a
category reaches the others (`category_isolated_iff`).
-/

namespace Clear

open ExtractionEngine

namespace Extractor

open Validation

/-! ## Which values raise -/

def confidenceFits (std : Stdlib) (raw : ValueDict) : Bool :=
  match (Value.get raw "confidence").toFloat std with
  | .error .overflowError => false
  | _ => true

def durationFits (key : String) (value : Value) : Bool :=
  match value with
  | .int n => durationUnit? key ≠ some "days" || n.natAbs < 30 * Value.floatBound
  | _ => true

def ceilingFits (std : Stdlib) (ctx : ValidationContext) : Bool :=
  let ceiling := (ctx.rule "money.max_reasonable_value").getD .null
  !ceiling.truthy || (ceiling.toFloat std).isOk

/-- The generic rules can be applied to an attribute. -/
def attributeFits (std : Stdlib) (ctx : ValidationContext) (entry : String × Value) : Bool :=
  durationFits entry.1 entry.2 &&
    (entry.2.real?.isNone || !hinted amountHints entry.1 || ceilingFits std ctx)

def numberFits (value : Value) : Bool :=
  match value with
  | .int n => n.natAbs < Value.floatBound
  | _ => true

theorem checkConfidence_ok_iff {std : Stdlib} {raw : ValueDict} {outcome : FieldOutcome} :
    (∃ out, checkConfidence std (Value.get raw "confidence") outcome = .ok out) ↔
      confidenceFits std raw = true := by
  unfold checkConfidence confidenceFits
  cases (Value.get raw "confidence").toFloat std with
  | error failure => cases failure <;> simp
  | ok confidence =>
    dsimp only
    split <;> simp

theorem number_ok_iff {std : Stdlib} {value : Value} :
    (∃ out, number std value = .ok out) ↔ numberFits value = true := by
  unfold number numberFits
  cases value with
  | int n =>
    dsimp only [Value.toFloat]
    by_cases h : n.natAbs < Value.floatBound
    · simp [h]
    · simp [h]
  | float x => simp [Value.toFloat]
  | null => simp
  | bool b => simp
  | str s => simp
  | list l => simp
  | dict d => simp

theorem months_ok_iff {unit : String} {value : Value} {x : Rat} :
    (∃ out, months unit value x = .ok out) ↔
      ∀ n, value = .int n → unit = "days" → n.natAbs < 30 * Value.floatBound := by
  unfold months
  by_cases hmonths : unit = "months"
  · subst hmonths
    simp
  · rw [if_neg hmonths]
    by_cases hdays : unit = "days"
    · rw [if_pos hdays]
      cases value with
      | int n =>
        by_cases h : n.natAbs < 30 * Value.floatBound
        · simp [h]
        · simp only [if_neg h]
          constructor
          · rintro ⟨out, hout⟩
            cases hout
          · exact fun hall => absurd (hall n rfl hdays) h
      | float x => simp
      | null => simp
      | bool b => simp
      | str s => simp
      | list l => simp
      | dict d => simp
    · rw [if_neg hdays]
      simp only [hdays, false_imp_iff, implies_true, iff_true]
      split <;> exact ⟨_, rfl⟩

theorem checkDuration_ok_iff {std : Stdlib} {key : String} {value : Value}
    {outcome : FieldOutcome} :
    (∃ out, checkDuration std key value outcome = .ok out) ↔ durationFits key value = true := by
  unfold checkDuration
  split
  next unit x hunit hnum =>
    rw [Except.exists_map_ok, months_ok_iff]
    unfold durationFits
    cases value <;> simp [hunit]
    next n =>
      by_cases hdays : unit = "days"
      · simp [hdays]
      · simp [hdays]
  next hnone =>
    simp only [Except.ok.injEq, exists_eq', true_iff]
    unfold durationFits
    cases value with
    | int n =>
      cases hunit : durationUnit? key with
      | none => simp
      | some unit => exact absurd rfl (hnone unit n hunit)
    | null => rfl
    | bool b => rfl
    | float x => rfl
    | str s => rfl
    | list l => rfl
    | dict d => rfl

theorem exceedsCeiling_ok_iff {std : Stdlib} {maxValue : Value} {x : Rat} :
    (∃ out, exceedsCeiling std maxValue x = .ok out) ↔
      (!maxValue.truthy || (maxValue.toFloat std).isOk) = true := by
  unfold exceedsCeiling
  by_cases htruthy : maxValue.truthy = true
  · rw [if_pos htruthy]
    cases maxValue.toFloat std with
    | error failure => cases failure <;> simp [htruthy, Except.isOk, Except.toBool]
    | ok ceiling => simp [Except.isOk, Except.toBool]
  · rw [if_neg htruthy]
    simp [htruthy]

theorem checkMoney_ok_iff {std : Stdlib} {ctx : ValidationContext} {attributes : ValueDict}
    {key : String} {value : Value} {outcome : FieldOutcome} :
    (∃ out, checkMoney std ctx attributes key value outcome = .ok out) ↔
      (value.real?.isNone || !hinted amountHints key || ceilingFits std ctx) = true := by
  unfold checkMoney ceilingFits
  cases value.real? with
  | none => simp
  | some x =>
    dsimp only
    by_cases hhint : hinted amountHints key = true
    · rw [if_pos hhint, Except.exists_map_ok, exceedsCeiling_ok_iff]
      simp [hhint]
    · rw [if_neg hhint]
      simp [hhint]

theorem checkAttribute_ok_iff {std : Stdlib} {ctx : ValidationContext} {attributes : ValueDict}
    (outcome : FieldOutcome) (entry : String × Value) :
    (∃ out, checkAttribute std ctx attributes outcome entry = .ok out) ↔
      attributeFits std ctx entry = true := by
  unfold checkAttribute attributeFits
  split
  next hnull =>
    obtain ⟨key, value⟩ := entry
    obtain rfl := Value.isNull_eq_true.1 hnull
    simp [durationFits, Value.real?]
  next =>
    rw [Bool.and_eq_true]
    constructor
    · rintro ⟨out, h⟩
      obtain ⟨outcome₁, h₁, h⟩ := Except.bind_eq_ok.1 h
      obtain ⟨outcome₂, h₂, -⟩ := Except.bind_eq_ok.1 h
      exact ⟨checkDuration_ok_iff.1 ⟨outcome₁, h₁⟩, checkMoney_ok_iff.1 ⟨outcome₂, h₂⟩⟩
    · rintro ⟨hduration, hmoney⟩
      obtain ⟨outcome₁, h₁⟩ := checkDuration_ok_iff.2 hduration
      obtain ⟨outcome₂, h₂⟩ := checkMoney_ok_iff.2 hmoney
      exact ⟨_, Except.bind_eq_ok.2 ⟨outcome₁, h₁, Except.bind_eq_ok.2 ⟨outcome₂, h₂, rfl⟩⟩⟩

theorem checkGenericAttributes_ok_iff {std : Stdlib} {ctx : ValidationContext}
    {attributes : ValueDict} {outcome : FieldOutcome} :
    (∃ out, checkGenericAttributes std attributes ctx outcome = .ok out) ↔
      attributes.all (attributeFits std ctx) = true := by
  unfold checkGenericAttributes
  rw [List.all_eq_true]
  exact Except.foldlM_ok_iff checkAttribute_ok_iff attributes outcome

/-! ## Which items raise -/

theorem grounding_ok_iff {x : Extractor} {ctx : ValidationContext} {raw : ValueDict}
    {fieldName : String} :
    (∃ out, x.grounding ctx raw fieldName = .ok out) ↔ confidenceFits x.std raw = true :=
  checkConfidence_ok_iff

def obligationFits (std : Stdlib) (ctx : ValidationContext) (raw : ValueDict) : Bool :=
  (clean (Value.get raw "action")).isNone ||
    (confidenceFits std raw && raw.all (attributeFits std ctx))

theorem readObligation_ok_iff {x : Extractor} {ctx : ValidationContext} (index : Nat)
    (raw : ValueDict) :
    (∃ item, x.readObligation ctx index raw = .ok item) ↔ obligationFits x.std ctx raw = true := by
  unfold readObligation obligationFits
  cases clean (Value.get raw "action") with
  | none => simp
  | some action =>
    rw [Option.isNone_some, Bool.false_or, Bool.and_eq_true]
    constructor
    · rintro ⟨item, h⟩
      obtain ⟨⟨confidence, outcome⟩, h₁, h⟩ := Except.bind_eq_ok.1 h
      obtain ⟨outcome', h₂, -⟩ := Except.bind_eq_ok.1 h
      exact ⟨grounding_ok_iff.1 ⟨_, h₁⟩, checkGenericAttributes_ok_iff.1 ⟨_, h₂⟩⟩
    · rintro ⟨hconfidence, hgeneric⟩
      obtain ⟨⟨confidence, outcome⟩, h₁⟩ := grounding_ok_iff.2 hconfidence
      obtain ⟨outcome', h₂⟩ := checkGenericAttributes_ok_iff.2 hgeneric
      exact ⟨_, Except.bind_eq_ok.2 ⟨_, h₁, Except.bind_eq_ok.2 ⟨outcome', h₂, rfl⟩⟩⟩

theorem readKeyDate_ok_iff {x : Extractor} {ctx : ValidationContext} (index : Nat)
    (raw : ValueDict) :
    (∃ item, x.readKeyDate ctx index raw = .ok item) ↔ confidenceFits x.std raw = true := by
  unfold readKeyDate
  refine (Except.exists_bind_ok ?_).trans grounding_ok_iff
  exact fun _ => ⟨_, rfl⟩

def riskFits (std : Stdlib) (raw : ValueDict) : Bool :=
  (clean (Value.get raw "description")).isNone || confidenceFits std raw

theorem readRisk_ok_iff {x : Extractor} {ctx : ValidationContext} (index : Nat) (raw : ValueDict) :
    (∃ item, x.readRisk ctx index raw = .ok item) ↔ riskFits x.std raw = true := by
  unfold readRisk riskFits
  cases clean (Value.get raw "description") with
  | none => simp
  | some description =>
    rw [Option.isNone_some, Bool.false_or]
    refine (Except.exists_bind_ok ?_).trans grounding_ok_iff
    exact fun _ => ⟨_, rfl⟩

def relationshipFits (std : Stdlib) (raw : ValueDict) : Bool :=
  (clean (Value.get raw "relation")).isNone || (clean (Value.get raw "source_ref")).isNone ||
    (clean (Value.get raw "target_ref")).isNone || confidenceFits std raw

theorem readRelationship_ok_iff {x : Extractor} {ctx : ValidationContext} (index : Nat)
    (raw : ValueDict) :
    (∃ item, x.readRelationship ctx index raw = .ok item) ↔ relationshipFits x.std raw = true := by
  unfold readRelationship relationshipFits
  split
  next relation source target hrelation hsource htarget =>
    rw [hrelation, hsource, htarget]
    refine (Except.exists_bind_ok ?_).trans grounding_ok_iff
    exact fun _ => ⟨_, rfl⟩
  next hnone =>
    simp only [Except.ok.injEq, exists_eq', true_iff]
    cases hrelation : clean (Value.get raw "relation") with
    | none => rfl
    | some relation =>
      cases hsource : clean (Value.get raw "source_ref") with
      | none => rfl
      | some source =>
        cases htarget : clean (Value.get raw "target_ref") with
        | none => rfl
        | some target => exact absurd htarget (hnone relation source target hrelation hsource)

def financialFits (std : Stdlib) (ctx : ValidationContext) (contractValue : Option Rat)
    (data : ValueDict) : Bool :=
  data.all (attributeFits std ctx) &&
    (contractValue.getD 0 ≠ 0 || numberFits (Value.get data "total_value"))

theorem gapValue_ok_iff {std : Stdlib} {facts : ContractFacts} {value : Value} :
    (∃ out, gapValue std facts value = .ok out) ↔
      (facts.contractValue.getD 0 ≠ 0 || numberFits value) = true := by
  unfold gapValue
  by_cases hvalue : facts.contractValue.getD 0 = 0
  · rw [if_pos hvalue, number_ok_iff]
    simp [hvalue]
  · rw [if_neg hvalue]
    simp [hvalue]

theorem readFinancial_ok_iff {x : Extractor} {ctx : ValidationContext} {facts : ContractFacts}
    {data : ValueDict} :
    (∃ out, x.readFinancial ctx facts data = .ok out) ↔
      financialFits x.std ctx facts.contractValue data = true := by
  unfold readFinancial financialFits
  rw [Bool.and_eq_true]
  constructor
  · rintro ⟨out, h⟩
    obtain ⟨outcome, h₁, h⟩ := Except.bind_eq_ok.1 h
    obtain ⟨total, h₂, -⟩ := Except.bind_eq_ok.1 h
    exact ⟨checkGenericAttributes_ok_iff.1 ⟨_, h₁⟩, gapValue_ok_iff.1 ⟨_, h₂⟩⟩
  · rintro ⟨hgeneric, hnumber⟩
    obtain ⟨outcome, h₁⟩ := checkGenericAttributes_ok_iff.2 hgeneric
    obtain ⟨total, h₂⟩ := gapValue_ok_iff.2 hnumber
    exact ⟨_, Except.bind_eq_ok.2 ⟨outcome, h₁, Except.bind_eq_ok.2 ⟨total, h₂, rfl⟩⟩⟩

/-- The items under `key` can be iterated and each of them can be read. -/
def itemsFit (key : String) (fits : ValueDict → Bool) (data : ValueDict) : Bool :=
  match ((Value.get data key).or (.list [])).iter with
  | none => false
  | some items => items.all fun item => item.asDict?.all fits

theorem readList_ok_iff {α : Type} {read : Nat → ValueDict → Except String (ItemRead α)}
    {fits : ValueDict → Bool} {key : String} {data : ValueDict}
    (hread : ∀ i raw, (∃ item, read i raw = .ok item) ↔ fits raw = true) :
    (∃ out, readList key read data = .ok out) ↔ itemsFit key fits data = true := by
  unfold readList readItems itemsFit
  rw [Except.exists_map_ok]
  cases ((Value.get data key).or (.list [])).iter with
  | none => simp
  | some items =>
    dsimp only
    have hstep : ∀ (acc : List α × List ValidationIssue) (entry : Value × Nat),
        (∃ out, readItem read acc entry = .ok out) ↔ entry.1.asDict?.all fits = true := by
      intro acc entry
      obtain ⟨value, index⟩ := entry
      unfold readItem
      cases value with
      | dict raw =>
        dsimp only [Value.asDict?, Option.all]
        rw [Except.exists_map_ok]
        exact hread index raw
      | null => simp [Value.asDict?]
      | bool b => simp [Value.asDict?]
      | int n => simp [Value.asDict?]
      | float y => simp [Value.asDict?]
      | str s => simp [Value.asDict?]
      | list l => simp [Value.asDict?]
    rw [Except.foldlM_ok_iff hstep, List.all_eq_true]
    constructor
    · intro h item hitem
      obtain ⟨i, hi, rfl⟩ := List.mem_iff_getElem.1 hitem
      exact h (items[i], i) (List.mk_mem_zipIdx_iff_getElem?.2 (List.getElem?_eq_getElem hi))
    · intro h entry hentry
      exact h entry.1 (List.fst_mem_of_mem_zipIdx hentry)

/-! ## Which answers raise -/

inductive Derived where
  | financial | obligations | dates | risks | relationships
  deriving DecidableEq

def Derived.name : Derived → String
  | financial => "financial"
  | obligations => "obligations"
  | dates => "dates"
  | risks => "risks"
  | relationships => "relationships"

/-- The answer of a derived category can be read. -/
def Derived.fits (x : Extractor) (q : ExtractionRequest) (contractValue : Option Rat) (k : Derived)
    (data : ValueDict) : Bool :=
  let ctx := x.context q (x.select q.chunks k.name)
  match k with
  | financial => financialFits x.std ctx contractValue data
  | obligations => itemsFit "obligations" (obligationFits x.std ctx) data
  | dates => itemsFit "dates" (confidenceFits x.std) data
  | risks => itemsFit "risks" (riskFits x.std) data
  | relationships => itemsFit "relationships" (relationshipFits x.std) data

theorem derived_reads_iff {x : Extractor} {q : ExtractionRequest} {facts : ContractFacts}
    {parties : List ExtractedParty} :
    (x.engine q).DerivedReadable q facts parties ↔ ∀ k : Derived, q.wants k.name = true →
      ∀ data, (x.engine q).answerOf k.name (x.select q.chunks k.name) true = some data →
        k.fits x q facts.contractValue data = true := by
  constructor
  · intro h k hwants data hdata
    cases k with
    | financial =>
      exact readFinancial_ok_iff.1 (Except.exists_map_ok.1 (h.financial hwants data hdata))
    | obligations =>
      exact (readList_ok_iff readObligation_ok_iff).1 (h.obligations hwants data hdata)
    | dates => exact (readList_ok_iff readKeyDate_ok_iff).1 (h.dates hwants data hdata)
    | risks => exact (readList_ok_iff readRisk_ok_iff).1 (h.risks hwants data hdata)
    | relationships =>
      exact (readList_ok_iff readRelationship_ok_iff).1 (h.relationships hwants data hdata)
  · intro h
    exact {
      financial := fun hwants data hdata =>
        Except.exists_map_ok.2 (readFinancial_ok_iff.2 (h .financial hwants data hdata))
      obligations := fun hwants data hdata =>
        (readList_ok_iff readObligation_ok_iff).2 (h .obligations hwants data hdata)
      dates := fun hwants data hdata =>
        (readList_ok_iff readKeyDate_ok_iff).2 (h .dates hwants data hdata)
      risks := fun hwants data hdata =>
        (readList_ok_iff readRisk_ok_iff).2 (h .risks hwants data hdata)
      relationships := fun hwants data hdata =>
        (readList_ok_iff readRelationship_ok_iff).2 (h .relationships hwants data hdata) }

theorem assess_ok_iff {a : RiskAssessor} {std : Stdlib} {clauses : List ExtractedClause}
    {model : List ExtractedRisk} :
    (∃ assessment, a.assess std clauses model = .ok assessment) ↔
      ∃ unlimited, RiskAssessor.hasUnlimitedLiability std clauses = .ok unlimited := by
  unfold RiskAssessor.assess
  exact Except.exists_map_ok

theorem extractClauses_facts (e : ExtractionEngine) (q : ExtractionRequest) (r : ExtractionResult) :
    (e.clauseStep q r).facts.contractValue = r.facts.contractValue ∧
      (e.clauseStep q r).parties = r.parties := by
  unfold clauseStep
  split
  · obtain ⟨outcomes, warnings, heq⟩ := extractClauses_eq e q (nameParties r)
    rw [heq]
    exact ⟨rfl, rfl⟩
  · exact ⟨rfl, rfl⟩

section

variable {x : Extractor} {q : ExtractionRequest}

/-- An extraction returns exactly when the document-level steps do, the answers of the derived
categories fit and the carve-outs can be scanned. -/
theorem extract_ok_iff (hchunks : q.chunks ≠ []) :
    (∃ r, x.extract q = .ok r) ↔ ∃ r, (x.engine q).documentSteps q = .ok r ∧
      (∀ k : Derived, q.wants k.name = true → ∀ data,
        (x.engine q).answerOf k.name (x.select q.chunks k.name) true = some data →
          k.fits x q r.facts.contractValue data = true) ∧
      ∃ unlimited, RiskAssessor.hasUnlimitedLiability x.std
        ((x.engine q).clauseStep q r).clauses = .ok unlimited := by
  constructor
  · rintro ⟨r, h⟩
    obtain ⟨r₁, r₂, assessment, h₁, h₂, hassess, -⟩ := (extract_eq_ok hchunks).1 h
    have hderived := derived_reads_iff.1 (derivedSteps_ok_iff.1 ⟨r₂, h₂⟩)
    rw [(extractClauses_facts _ q r₁).1] at hderived
    exact ⟨r₁, h₁, hderived, assess_ok_iff.1 ⟨assessment, hassess⟩⟩
  · rintro ⟨r₁, h₁, hderived, hscan⟩
    rw [← (extractClauses_facts (x.engine q) q r₁).1] at hderived
    obtain ⟨r₂, h₂⟩ := derivedSteps_ok_iff.2 (derived_reads_iff.2 hderived)
    obtain ⟨assessment, hassess⟩ : ∃ assessment, (x.engine q).assess q
        ((x.engine q).clauseStep q r₁).clauses r₂.risks = .ok assessment := assess_ok_iff.2 hscan
    exact ⟨_, (extract_eq_ok hchunks).2 ⟨r₁, r₂, assessment, h₁, h₂, hassess, rfl⟩⟩

/-! ## The clauses of a type -/

def clausesOf (r : ExtractionResult) (key : String) : List ExtractedClause :=
  r.clauses.filter (·.clauseType = key)

theorem filter_flatMap_categoryClauses (parties : List ExtractedParty) (key : String)
    (plan : List ClauseDefinition) :
    (plan.flatMap ((x.engine q).categoryClauses q parties)).filter (·.clauseType = key) =
      (plan.filter (·.key = key)).flatMap ((x.engine q).categoryClauses q parties) := by
  induction plan with
  | nil => rfl
  | cons d plan ih =>
    rw [List.flatMap_cons, List.filter_append, ih]
    by_cases hkey : d.key = key
    · have hall : ((x.engine q).categoryClauses q parties d).filter (·.clauseType = key) =
          (x.engine q).categoryClauses q parties d := by
        rw [List.filter_eq_self]
        intro c hc
        simpa [hkey] using categoryClauses_type hc
      rw [hall, List.filter_cons_of_pos (by simpa using hkey), List.flatMap_cons]
    · have hnone : ((x.engine q).categoryClauses q parties d).filter (·.clauseType = key) = [] := by
        rw [List.filter_eq_nil_iff]
        intro c hc
        simpa [categoryClauses_type hc] using hkey
      rw [hnone, List.filter_cons_of_neg (by simpa using hkey), List.nil_append]

def typeClauses (x : Extractor) (q : ExtractionRequest) (parties : List ExtractedParty)
    (key : String) : List ExtractedClause :=
  if q.wants "clauses" then
    ((q.clausePlan.filter (·.key = key)).flatMap
      ((x.engine q).categoryClauses q parties)).mergeSort (clauseLe q)
  else []

theorem filter_clauseStep {r : ExtractionResult} (hr : Fresh r) (key : String) :
    ((x.engine q).clauseStep q r).clauses.filter (·.clauseType = key) =
      x.typeClauses q r.parties key := by
  unfold clauseStep typeClauses
  split
  · obtain ⟨outcomes, warnings, heq⟩ := extractClauses_eq (x.engine q) q (nameParties r)
    have hnil : (nameParties r).clauses = [] := hr.1
    have hparties : (nameParties r).parties = r.parties := rfl
    rw [heq, hnil, hparties]
    dsimp only
    rw [List.nil_append, List.filter_mergeSort (clauseLe_trans q) (clauseLe_total q),
      filter_flatMap_categoryClauses]
  · have hnil : (nameParties r).clauses = [] := hr.1
    rw [hnil]
    rfl

theorem hasUnlimitedLiability_filter {std : Stdlib} (clauses : List ExtractedClause) :
    RiskAssessor.hasUnlimitedLiability std clauses =
      RiskAssessor.hasUnlimitedLiability std
        (clauses.filter (·.clauseType = ClauseType.limitationOfLiability.value)) := by
  induction clauses with
  | nil => rfl
  | cons c clauses ih =>
    by_cases htype : c.clauseType = ClauseType.limitationOfLiability.value
    · rw [List.filter_cons_of_pos (by simpa using htype)]
      simp only [RiskAssessor.hasUnlimitedLiability]
      rw [ih]
    · rw [List.filter_cons_of_neg (by simpa using htype), ← ih]
      simp only [RiskAssessor.hasUnlimitedLiability]
      rw [if_pos htype]

def flagged (q : ExtractionRequest) (c : ExtractedClause) : ExtractedClause :=
  if ruleOn q "low_confidence" && c.confidence < q.confidenceThreshold then
    { c with reviewStatus := .pending }
  else c

theorem flagged_type (c : ExtractedClause) : (flagged q c).clauseType = c.clauseType := by
  unfold flagged
  split <;> rfl

theorem foundParties_eq {r : ExtractionResult} (h : (x.engine q).documentSteps q = .ok r) :
    x.foundParties q = r.parties := by
  unfold foundParties
  rw [h]

theorem clausesOf_eq {r : ExtractionResult} (hchunks : q.chunks ≠ []) (h : x.extract q = .ok r)
    (key : String) :
    clausesOf r key = (x.typeClauses q (x.foundParties q) key).map (flagged q) := by
  obtain ⟨r₁, r₂, assessment, h₁, h₂, -, rfl⟩ := (extract_eq_ok hchunks).1 h
  rw [foundParties_eq h₁, ← filter_clauseStep (documentSteps_fresh h₁), ← (derivedSteps_same h₂).1]
  show (r₂.clauses.map (flagged q)).filter (·.clauseType = key) = _
  rw [List.filter_map]
  congr 1
  apply List.filter_congr
  intro c _
  simp [flagged_type]

end

/-! ## Another answer -/

def answering (x : Extractor) (category : String) (answer : Except CallFailure ValueDict) :
    Extractor :=
  { x with generate := fun c => if c = category then answer else x.generate c }

section

variable {x : Extractor} {q : ExtractionRequest} {asked : String}
  {answer : Except CallFailure ValueDict}

theorem documentSteps_answering (hparties : asked ≠ "parties") (hmetadata : asked ≠ "metadata") :
    ((x.answering asked answer).engine q).documentSteps q = (x.engine q).documentSteps q := by
  have hgenerate : ∀ category, category ≠ asked →
      ((x.answering asked answer).engine q).generate category = (x.engine q).generate category := by
    intro category hne
    exact if_neg hne
  have hstep₁ : ((x.answering asked answer).engine q).extractParties q =
      (x.engine q).extractParties q := by
    funext r
    unfold extractParties
    rw [runCategory_congr (hgenerate _ hparties.symm) rfl]
    rfl
  have hstep₂ : ((x.answering asked answer).engine q).extractMetadata q =
      (x.engine q).extractMetadata q := by
    funext r
    unfold extractMetadata
    rw [runCategory_congr (hgenerate _ hmetadata.symm) rfl]
    rfl
  unfold documentSteps
  rw [hstep₁, hstep₂]

theorem categoryClauses_answering {parties : List ExtractedParty} {d : ClauseDefinition}
    (hd : d.category ≠ asked) :
    ((x.answering asked answer).engine q).categoryClauses q parties d =
      (x.engine q).categoryClauses q parties d := by
  have hgenerate : ((x.answering asked answer).engine q).generate d.category =
      (x.engine q).generate d.category := if_neg hd
  unfold categoryClauses answerOf
  rw [hgenerate]
  rfl

theorem typeClauses_answering {parties : List ExtractedParty} {key : String}
    (hkey : "clause:" ++ key ≠ asked) :
    (x.answering asked answer).typeClauses q parties key = x.typeClauses q parties key := by
  unfold typeClauses
  have hcongr : (q.clausePlan.filter (·.key = key)).flatMap
      (((x.answering asked answer).engine q).categoryClauses q parties) =
      (q.clausePlan.filter (·.key = key)).flatMap ((x.engine q).categoryClauses q parties) := by
    apply List.flatMap_congr
    intro d hd
    obtain ⟨-, hd⟩ := List.mem_filter.1 hd
    apply categoryClauses_answering
    obtain rfl := of_decide_eq_true hd
    exact hkey
  rw [hcongr]

/-! ## One category -/

inductive Category where
  | clause (d : ClauseDefinition)
  | derived (k : Derived)

def Category.name : Category → String
  | clause d => d.category
  | derived k => k.name

def Category.Planned (q : ExtractionRequest) : Category → Prop
  | clause d => d ∈ q.clausePlan
  | derived _ => True

def foundValue (x : Extractor) (q : ExtractionRequest) : Option Rat :=
  match (x.engine q).documentSteps q with
  | .ok r => r.facts.contractValue
  | .error _ => none

def acceptedClauses (x : Extractor) (q : ExtractionRequest) (d : ClauseDefinition)
    (data : ValueDict) : List ExtractedClause :=
  match (x.engine q).parseClauses d (x.foundParties q) data with
  | .ok reading => reading.value
  | .error _ => []

/-- The extraction survives an answer of a category that is read: the answer of a derived category
fits, the carve-outs of the limitations of liability accepted from the answer can be scanned. -/
def Tolerates (x : Extractor) (q : ExtractionRequest) : Category → ValueDict → Prop
  | .derived k, data =>
    q.wants k.name = true → (x.select q.chunks k.name).isEmpty = false →
      k.fits x q (x.foundValue q) data = true
  | .clause d, data =>
    q.wants "clauses" = true → d.key = ClauseType.limitationOfLiability.value →
      (x.select q.chunks d.key).isEmpty = false →
        ∃ unlimited, RiskAssessor.hasUnlimitedLiability x.std
          ((x.acceptedClauses q d data).mergeSort (clauseLe q)) = .ok unlimited

theorem derived_name_ne (k : Derived) : k.name ≠ "parties" ∧ k.name ≠ "metadata" := by
  cases k <;> decide

theorem derived_name_inj {k k' : Derived} (h : k.name = k'.name) : k = k' := by
  revert h
  cases k <;> cases k' <;> decide

theorem derived_name_mem (k : Derived) : k.name ∈ fixedCategories := by
  cases k <;> decide

theorem name_ne (c : Category) : c.name ≠ "parties" ∧ c.name ≠ "metadata" := by
  cases c with
  | derived k => exact derived_name_ne k
  | clause d =>
    have hname : (Category.clause d).name = d.category := rfl
    have hnot := category_not_fixed d
    rw [hname]
    constructor
    · intro h
      rw [h] at hnot
      exact hnot (by decide)
    · intro h
      rw [h] at hnot
      exact hnot (by decide)

theorem answerOf_answering {bundle : EvidenceBundle} {data : ValueDict} :
    ((x.answering asked answer).engine q).answerOf asked bundle true = some data ↔
      bundle.isEmpty = false ∧ answer = .ok data := by
  unfold answerOf
  have hgenerate : ((x.answering asked answer).engine q).generate asked = answer := if_pos rfl
  rw [hgenerate, Bool.true_and]
  cases hempty : bundle.isEmpty with
  | true => simp
  | false => cases answer <;> simp

theorem answerOf_other {category : String} {bundle : EvidenceBundle}
    (h : category ≠ asked) :
    ((x.answering asked answer).engine q).answerOf category bundle true =
      (x.engine q).answerOf category bundle true := by
  unfold answerOf
  have hgenerate : ((x.answering asked answer).engine q).generate category =
      (x.engine q).generate category := if_neg h
  rw [hgenerate]

section

variable {c : Category}

theorem foundParties_answering : (x.answering c.name answer).foundParties q = x.foundParties q := by
  unfold foundParties
  rw [documentSteps_answering (name_ne c).1 (name_ne c).2]

theorem foundValue_eq {r : ExtractionResult} (h : (x.engine q).documentSteps q = .ok r) :
    x.foundValue q = r.facts.contractValue := by
  unfold foundValue
  rw [h]

theorem derived_answering_iff {value : Option Rat} (hvalue : x.foundValue q = value) :
    (∀ k : Derived, q.wants k.name = true → ∀ data,
      ((x.answering c.name answer).engine q).answerOf k.name (x.select q.chunks k.name) true =
        some data → k.fits x q value data = true) ↔
      (∀ k : Derived, k.name ≠ c.name → q.wants k.name = true → ∀ data,
        (x.engine q).answerOf k.name (x.select q.chunks k.name) true = some data →
          k.fits x q value data = true) ∧
      ∀ k, c = .derived k → ∀ data, answer = .ok data → x.Tolerates q c data := by
  subst hvalue
  constructor
  · intro h
    constructor
    · intro k hne hwants data hdata
      exact h k hwants data (by rw [answerOf_other hne]; exact hdata)
    · rintro k rfl data rfl hwants hselect
      exact h k hwants data (answerOf_answering.2 ⟨hselect, rfl⟩)
  · rintro ⟨hothers, hown⟩ k hwants data hdata
    by_cases hname : k.name = c.name
    · obtain ⟨k', rfl⟩ : ∃ k', c = .derived k' := by
        cases c with
        | derived k' => exact ⟨k', rfl⟩
        | clause d =>
          have hclause : k.name = d.category := hname
          exact absurd (hclause ▸ derived_name_mem k) (category_not_fixed d)
      obtain rfl := derived_name_inj hname
      obtain ⟨hselect, rfl⟩ := answerOf_answering.1 hdata
      exact hown k rfl data rfl hwants hselect
    · rw [answerOf_other hname] at hdata
      exact hothers k hname hwants data hdata

/-- The limitations of liability accepted from an answer to another category are the same, those
accepted from an answer to their own are scanned. -/
theorem scan_answering_iff (hplanned : c.Planned q)
    (hscan : ∃ unlimited, RiskAssessor.hasUnlimitedLiability x.std
      ((x.answering c.name (.ok [])).typeClauses q (x.foundParties q)
        ClauseType.limitationOfLiability.value) = .ok unlimited) :
    (∃ unlimited, RiskAssessor.hasUnlimitedLiability x.std
      ((x.answering c.name answer).typeClauses q (x.foundParties q)
        ClauseType.limitationOfLiability.value) = .ok unlimited) ↔
      ∀ d, c = .clause d → ∀ data, answer = .ok data → x.Tolerates q c data := by
  by_cases hown : "clause:" ++ ClauseType.limitationOfLiability.value = c.name
  · obtain ⟨d, rfl⟩ : ∃ d, c = .clause d := by
      cases c with
      | clause d => exact ⟨d, rfl⟩
      | derived k =>
        have hmem := derived_name_mem k
        have hname : k.name = "clause:" ++ ClauseType.limitationOfLiability.value := hown.symm
        rw [hname] at hmem
        exact absurd hmem (by decide)
    have hcategory : d.category =
        ({ key := ClauseType.limitationOfLiability.value } : ClauseDefinition).category := hown.symm
    have hkey : d.key = ClauseType.limitationOfLiability.value := category_inj hcategory
    have hd : d ∈ q.clausePlan := hplanned
    have hplan : q.clausePlan.filter (·.key = ClauseType.limitationOfLiability.value) = [d] := by
      rw [← hkey]
      exact Keyed.filter_of_mem (clausePlan_keys q) hd
    have hnil : ∃ unlimited, RiskAssessor.hasUnlimitedLiability x.std [] = .ok unlimited := ⟨_, rfl⟩
    unfold typeClauses
    rw [hplan]
    simp only [List.flatMap_cons, List.flatMap_nil, List.append_nil]
    by_cases hwants : q.wants "clauses" = true
    · rw [if_pos hwants]
      unfold categoryClauses
      cases hanswer : ((x.answering (Category.clause d).name answer).engine q).answerOf d.category
          (((x.answering (Category.clause d).name answer).engine q).select q.chunks d.key) true with
      | none =>
        refine iff_of_true (by simpa using hnil) ?_
        rintro d' hd' data rfl - - hselect
        cases hd'
        have hread : ((x.answering (Category.clause d).name (.ok data)).engine q).answerOf
            d.category (x.select q.chunks d.key) true = some data :=
          answerOf_answering.2 ⟨hselect, rfl⟩
        cases hanswer.symm.trans hread
      | some data =>
        have hdata : (x.select q.chunks d.key).isEmpty = false ∧ answer = .ok data :=
          answerOf_answering.1 hanswer
        obtain ⟨hselect, rfl⟩ := hdata
        constructor
        · rintro hscan _ hd' _ hdata - - -
          cases hd'
          cases hdata
          exact hscan
        · intro h
          exact h d rfl data rfl hwants hkey hselect
    · rw [if_neg hwants]
      refine iff_of_true hnil ?_
      rintro d' hd' data - hwants'
      exact absurd hwants' hwants
  · rw [typeClauses_answering hown] at hscan ⊢
    refine iff_of_true hscan ?_
    rintro d rfl data - - hkey
    exact absurd (by rw [← hkey]; rfl) hown

/-- The rest of a run returns and the clauses of the other categories are those of the empty answer
exactly when the extraction survives the answer. -/
theorem category_isolated_iff {r₀ : ExtractionResult} (hplanned : c.Planned q)
    (h₀ : (x.answering c.name (.ok [])).extract q = .ok r₀) :
    (∃ r, (x.answering c.name answer).extract q = .ok r ∧
      ∀ key, "clause:" ++ key ≠ c.name → clausesOf r key = clausesOf r₀ key) ↔
      q.chunks = [] ∨ ∀ data, answer = .ok data → x.Tolerates q c data := by
  by_cases hchunks : q.chunks = []
  · have hsame : (x.answering c.name answer).extract q =
        (x.answering c.name (.ok [])).extract q := by
      unfold extract ExtractionEngine.extract
      rw [if_pos (by simp [hchunks]), if_pos (by simp [hchunks])]
    exact iff_of_true ⟨r₀, hsame.trans h₀, fun _ _ => rfl⟩ (.inl hchunks)
  -- What the empty answer says about the rest of the run.
  obtain ⟨r₁, h₁, hderived, hscan⟩ := (extract_ok_iff hchunks).1 ⟨r₀, h₀⟩
  have hdocument : ((x.answering c.name (.ok [])).engine q).documentSteps q =
      (x.engine q).documentSteps q := documentSteps_answering (name_ne c).1 (name_ne c).2
  rw [hdocument] at h₁
  have hparties := foundParties_eq h₁
  have hscan_eq : ∀ answer, RiskAssessor.hasUnlimitedLiability x.std
      (((x.answering c.name answer).engine q).clauseStep q r₁).clauses =
      RiskAssessor.hasUnlimitedLiability x.std ((x.answering c.name answer).typeClauses q
        (x.foundParties q) ClauseType.limitationOfLiability.value) := by
    intro answer
    rw [hasUnlimitedLiability_filter, filter_clauseStep (documentSteps_fresh h₁), hparties]
  have hothers := ((derived_answering_iff (foundValue_eq h₁)).1 hderived).1
  have hstd : (x.answering c.name (.ok [])).std = x.std := rfl
  rw [hstd, hscan_eq] at hscan
  have hok : (∃ r, (x.answering c.name answer).extract q = .ok r) ↔
      ∀ data, answer = .ok data → x.Tolerates q c data := by
    rw [extract_ok_iff hchunks, documentSteps_answering (name_ne c).1 (name_ne c).2]
    constructor
    · rintro ⟨r₁', h₁', hderived', hscan'⟩ data hdata
      cases h₁.symm.trans h₁'
      have hstd : (x.answering c.name answer).std = x.std := rfl
      rw [hstd, hscan_eq] at hscan'
      cases hc : c with
      | clause d =>
        rw [← hc]
        exact (scan_answering_iff hplanned hscan).1 hscan' d hc data hdata
      | derived k =>
        rw [← hc]
        exact ((derived_answering_iff (foundValue_eq h₁)).1 hderived').2 k hc data hdata
    · intro h
      refine ⟨r₁, h₁, (derived_answering_iff (foundValue_eq h₁)).2 ⟨hothers, fun _ _ => h⟩, ?_⟩
      have hstd : (x.answering c.name answer).std = x.std := rfl
      rw [hstd, hscan_eq]
      exact (scan_answering_iff hplanned hscan).2 fun _ _ => h
  constructor
  · rintro ⟨r, hr, -⟩
    exact .inr (hok.1 ⟨r, hr⟩)
  · intro h
    obtain ⟨r, hr⟩ := hok.2 (h.resolve_left hchunks)
    refine ⟨r, hr, fun key hkey => ?_⟩
    rw [clausesOf_eq hchunks hr, clausesOf_eq hchunks h₀, foundParties_answering,
      foundParties_answering, typeClauses_answering hkey, typeClauses_answering hkey]

end

end

/-! ## A number for a list -/

def Sample.obligationsOnly : ExtractionRequest where
  chunks := [{ chunkId := "c1" }]
  clauseDefinitions := []
  keys := List.nodup_nil
  onlyCategories := some ["obligations"]

/-- A number in the place of the obligations fails the whole extraction, which an empty answer does
not. -/
theorem number_of_obligations_fails :
    (∃ r₀, (Sample.timeouts.answering "obligations" (.ok [])).extract Sample.obligationsOnly =
        .ok r₀) ∧
      (Sample.timeouts.answering "obligations" (.ok [("obligations", .int 5)])).extract
        Sample.obligationsOnly = .error "TypeError" :=
  ⟨⟨_, rfl⟩, rfl⟩

/-- The condition for the number of obligations. -/
theorem number_of_obligations_decided :
    ∃ r₀, (Sample.timeouts.answering "obligations" (.ok [])).extract Sample.obligationsOnly =
        .ok r₀ ∧
      ((∃ r, (Sample.timeouts.answering "obligations" (.ok [("obligations", .int 5)])).extract
          Sample.obligationsOnly = .ok r ∧
        ∀ key, "clause:" ++ key ≠ "obligations" → clausesOf r key = clausesOf r₀ key) ↔
      Sample.obligationsOnly.chunks = [] ∨
        ∀ data, Except.ok [("obligations", .int 5)] = (.ok data : Except CallFailure ValueDict) →
          Sample.timeouts.Tolerates Sample.obligationsOnly (.derived .obligations) data) :=
  ⟨_, rfl, category_isolated_iff (c := .derived .obligations) trivial rfl⟩

end Extractor

end Clear
