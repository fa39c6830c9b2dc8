import Clear.Ai.Extraction.Risk
import Clear.Ai.Extraction.Validation

/-!
# The engine with the platform's validation

How the engine reads one item of each category: the fields it takes from the response, the checks it
makes and what it drops (`ItemReaders`), and the extraction of one contract with these readers and the
risk assessor (`Extractor.extract`). The provider's answers, the selection of evidence, the schemas
of the responses and the attribute rules of a clause remain parameters.
-/

namespace Clear

structure Extractor where
  std : Stdlib
  generate : String → Except CallFailure ValueDict
  select : List CandidateChunk → String → EvidenceBundle
  head : List CandidateChunk → EvidenceBundle
  organisationAliases : List String := []
  /-- `validate_against_schema` of a response. -/
  schemaIssues : String → ValueDict → List ValidationIssue
  /-- `validate_clause_attributes`, given the parties. -/
  clauseAttributes : ClauseDefinition → List ExtractedParty → ValueDict → Except String FieldOutcome
  riskRules : RiskRules

/-- The model's own words for nothing. -/
def nullWords : List String := ["null", "none", "n/a", "not stated", "not specified"]

/-- `_clean`: a trimmed text; blanks and null-words are none. -/
def clean (value : Value) : Option String :=
  match value with
  | .str s =>
    let text := Text.strip s
    if text = "" || nullWords.contains (Text.lower text) then none else some text
  | _ => none

def number (std : Stdlib) (value : Value) : Except String (Option Rat) :=
  match value with
  | .int _ | .float _ =>
    match value.toFloat std with
    | .ok x => .ok (some x)
    | .error _ => .error "int too large to convert to float"
  | _ => .ok none

def integer (value : Value) : Option Int :=
  match value with
  | .int n => some n
  | .float x => if x.den = 1 then some x.num else none
  | _ => none

def currency (std : Stdlib) (value : Value) : Option String :=
  match clean value with
  | none => none
  | some code =>
    let code := std.upper code
    if Validation.isCurrencyCode std code then some code else none

def enumOr {α : Type} (ofValue? : String → Option α) (value : Value) (default : α) : α :=
  match value with
  | .str s => (ofValue? s).getD default
  | _ => default

def texts (std : Stdlib) (value : Value) : Except String (List String) :=
  match (value.or (.list [])).iter with
  | none => .error "TypeError"
  | some items => .ok ((items.filter Value.truthy).map (Value.text std))

namespace Extractor

open Validation

def context (x : Extractor) (q : ExtractionRequest) (bundle : EvidenceBundle) :
    ValidationContext where
  bundle := some bundle
  organisationAliases := x.organisationAliases
  rules := q.validationRules

def grounding (x : Extractor) (ctx : ValidationContext) (raw : ValueDict) (fieldName : String) :
    Except String (Rat × FieldOutcome) :=
  checkConfidence x.std (Value.get raw "confidence")
    (checkCitations x.std (Value.get raw "evidence_chunk_ids") ctx {} fieldName).2

def citationField (kind : String) (index : Nat) : String :=
  kind ++ "[" ++ toString index ++ "].evidence_chunk_ids"

def accept {α : Type} (outcome : FieldOutcome) (item : α) : ItemRead α :=
  if outcome.hasErrors then .rejected outcome.errors else .accepted item

def readParty (x : Extractor) (ctx : ValidationContext) (index : Nat) (raw : ValueDict) :
    Except String (ItemRead ExtractedParty) :=
  match clean (Value.get raw "name") with
  | none => .ok .skipped
  | some name => do
    let (confidence, outcome) ← x.grounding ctx raw (citationField "parties" index)
    if outcome.hasErrors then return .rejected outcome.errors
    else
      let _ ← texts x.std (Value.get raw "aliases")
      return .accepted
        { name
          isPrimary := (Value.get raw "is_primary").truthy
          isOurOrganisation := ctx.isOurs name
          confidence
          issues := outcome.issues }

def readMetadata (x : Extractor) (ctx : ValidationContext) (payload : ValueDict) :
    Except String ContractFacts := do
  let (confidence, outcome) ← x.grounding ctx payload "evidence"
  let outcome ← checkGenericAttributes x.std payload ctx outcome
  let outcome := checkDateOrder x.std payload outcome ctx
  let keyTopics ← texts x.std (Value.get payload "key_topics")
  let contractValue ← number x.std (Value.get payload "contract_value")
  return {
    title := clean (Value.get payload "title")
    summary := clean (Value.get payload "summary")
    keyTopics
    contractValue
    currency := currency x.std (Value.get payload "currency")
    effectiveDate := parseDate (Value.get payload "effective_date")
    executionDate := parseDate (Value.get payload "execution_date")
    expirationDate := parseDate (Value.get payload "expiration_date")
    termMonths := integer (Value.get payload "term_months")
    confidence
    issues := outcome.issues }

/-- One clause of `_parse_clauses`. -/
def readClause (x : Extractor) (ctx : ValidationContext) (bundle : EvidenceBundle)
    (definition : ClauseDefinition) (parties : List ExtractedParty) (index : Nat)
    (raw : ValueDict) : Except String (ItemRead ExtractedClause) := do
  let (validIds, outcome) := checkCitations x.std (Value.get raw "evidence_chunk_ids") ctx {}
    (citationField "clauses" index)
  let text := ((Value.get raw "text").or (.str "")).text x.std
  let outcome := checkQuote x.std text ctx outcome ("clauses[" ++ toString index ++ "].text")
  let (confidence, outcome) ← checkConfidence x.std (Value.get raw "confidence") outcome
  let attributes := (Value.get raw "attributes").asDict?.getD []
  let attributeOutcome ← x.clauseAttributes definition parties attributes
  let outcome := outcome.merge attributeOutcome
  let attributes := attributeOutcome.corrections.foldl (fun d e => Dict.assign d e.1 e.2) attributes
  let evidence := validIds.filterMap bundle.byId
  let uncertainty : List ValidationIssue := match clean (Value.get raw "uncertainty") with
    | none => []
    | some message => [{ code := "model_uncertainty", message, severity := "warning" }]
  return accept outcome
    { clauseType := definition.key
      title := clean (Value.get raw "title")
      text
      summary := clean (Value.get raw "summary")
      clauseNumber :=
        (clean (Value.get raw "clause_number")).or (evidence.head?.bind (·.clauseNumber))
      attributes
      isMandatory := definition.mandatory
      confidence
      issues := outcome.issues ++ uncertainty
      reviewStatus :=
        if confidence < definition.confidenceThreshold then .pending else .notRequired }

def gapValue (std : Stdlib) (facts : ContractFacts) (value : Value) : Except String (Option Rat) :=
  if facts.contractValue.getD 0 = 0 then number std value else .ok none

def readFinancial (x : Extractor) (ctx : ValidationContext) (facts : ContractFacts)
    (payload : ValueDict) : Except String FinancialTerms := do
  let outcome := (checkCitations x.std (Value.get payload "evidence_chunk_ids") ctx {} "evidence").2
  let outcome ← checkGenericAttributes x.std payload ctx outcome
  let totalValue ← gapValue x.std facts (Value.get payload "total_value")
  return {
    totalValue
    currency := currency x.std (Value.get payload "currency")
    paymentDays := integer (Value.get payload "payment_days")
    issues := outcome.issues }

def readObligation (x : Extractor) (ctx : ValidationContext) (index : Nat) (raw : ValueDict) :
    Except String (ItemRead ExtractedObligation) :=
  match clean (Value.get raw "action") with
  | none => .ok .skipped
  | some action => do
    let (confidence, outcome) ← x.grounding ctx raw (citationField "obligations" index)
    let outcome ← checkGenericAttributes x.std raw ctx outcome
    return accept outcome { action, confidence, issues := outcome.issues }

/-- One date of `_run_dates`: without a value and without a wording it is none. -/
def readKeyDate (x : Extractor) (ctx : ValidationContext) (index : Nat) (raw : ValueDict) :
    Except String (ItemRead ExtractedKeyDate) := do
  let (confidence, outcome) ← x.grounding ctx raw (citationField "dates" index)
  let dateValue := parseDate (Value.get raw "date_value")
  let dateExpression := clean (Value.get raw "date_expression")
  let outcome :=
    if dateValue.isSome || dateExpression.isSome then outcome
    else outcome.error "date_without_value" "Neither a date nor a date expression was extracted."
      ("dates[" ++ toString index ++ "]")
  return accept outcome
    { dateType := enumOr DateType.ofValue? (Value.get raw "date_type") .other
      dateValue
      dateExpression
      confidence
      issues := outcome.issues }

def readRisk (x : Extractor) (ctx : ValidationContext) (index : Nat) (raw : ValueDict) :
    Except String (ItemRead ExtractedRisk) :=
  match clean (Value.get raw "description") with
  | none => .ok .skipped
  | some description => do
    let (confidence, outcome) ← x.grounding ctx raw (citationField "risks" index)
    return accept outcome
      { riskType := (enumOr RiskType.ofValue? (Value.get raw "risk_type") .other).value
        severity := enumOr RiskSeverity.ofValue? (Value.get raw "severity") .medium
        description
        recommendation := clean (Value.get raw "recommendation")
        clauseType := clean (Value.get raw "clause_type")
        category := some "model"
        confidence
        issues := outcome.issues }

def readRelationship (x : Extractor) (ctx : ValidationContext) (index : Nat) (raw : ValueDict) :
    Except String (ItemRead ExtractedRelationship) :=
  match clean (Value.get raw "relation"), clean (Value.get raw "source_ref"),
    clean (Value.get raw "target_ref") with
  | some relation, some sourceRef, some targetRef => do
    let (confidence, outcome) ← x.grounding ctx raw (citationField "relationships" index)
    return accept outcome { relation, sourceRef, targetRef, confidence, issues := outcome.issues }
  | _, _, _ => .ok .skipped

def readers (x : Extractor) (q : ExtractionRequest) : ItemReaders :=
  let headContext := x.context q (x.head q.chunks)
  let derived (category : String) := x.context q (x.select q.chunks category)
  { party := x.readParty headContext
    metadata := fun _ => x.readMetadata headContext
    clause := fun definition =>
      let bundle := x.select q.chunks definition.key
      x.readClause (x.context q bundle) bundle definition
    financial := fun facts _ => x.readFinancial (derived "financial") facts
    obligation := fun _ => x.readObligation (derived "obligations")
    keyDate := fun _ => x.readKeyDate (derived "dates")
    risk := fun _ => x.readRisk (derived "risks")
    relationship := fun _ => x.readRelationship (derived "relationships")
    schemaIssues := x.schemaIssues }

def assessor (x : Extractor) (q : ExtractionRequest) : RiskAssessor where
  mandatory := q.mandatoryClauseKeys
  weights := q.riskWeights
  lowMax := q.lowMax
  mediumMax := q.mediumMax
  rules := x.riskRules

def engine (x : Extractor) (q : ExtractionRequest) : ExtractionEngine where
  generate := x.generate
  select := x.select
  head := x.head
  readers := x.readers q
  assess := fun q clauses risks => (x.assessor q).assess x.std clauses risks
  repr := x.std.repr

/-- `extract` with the platform's validation and assessor. -/
def extract (x : Extractor) (q : ExtractionRequest) : Except String ExtractionResult :=
  (x.engine q).extract q

end Extractor

end Clear
