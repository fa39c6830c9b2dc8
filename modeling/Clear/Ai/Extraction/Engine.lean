import Clear.Ai.Extraction.Models

/-!
# The AI extraction engine

`ExtractionEngine.extract` (`app/ai/extraction/engine.py`): the categories in their order, one call
for each, its reading and its outcome, then the risk assessment and the review triggers. The
categories that the source runs concurrently run one after the other here: they append to
`result.outcomes` in some order and touch different parts of the result.

The selection of evidence, the validation of one item and the rules of the risk assessor are
parameters of the engine, and so are the provider's answers; `on_progress` only reports and is left
out.
-/

namespace Clear

/-! ## What the engine is given -/

structure ClauseDefinition where
  key : String
  name : String := ""
  priority : Int := 999
  mandatory : Bool := false
  confidenceThreshold : Rat := 17 / 20

/-- Everything the engine needs for one contract. The clause categories come from the Clause Master,
whose key is unique. -/
structure ExtractionRequest where
  chunks : List CandidateChunk
  clauseDefinitions : List ClauseDefinition
  keys : (clauseDefinitions.map (·.key)).Nodup
  /-- `profile.mandatory_clauses`, as texts. -/
  mandatoryClauses : List String := []
  /-- `profile.risk_mapping`: the severities by risk type and the thresholds of the bands. -/
  riskWeights : ValueDict := []
  lowMax : Int := 33
  mediumMax : Int := 66
  validationRules : ValueDict := []
  reviewRules : ValueDict := []
  confidenceThreshold : Rat := 17 / 20
  onlyClauses : Option (List String) := none
  onlyCategories : Option (List String) := none

inductive CallFailure where
  | provider (message : String)
  | schemaValidation (message : String)
  | other (message : String)
  deriving DecidableEq

inductive ItemRead (α : Type) where
  | skipped
  | rejected (issues : List ValidationIssue)
  | accepted (item : α)

/-- What the financial call adds to the document facts. -/
structure FinancialTerms where
  totalValue : Option Rat
  currency : Option String
  paymentDays : Option Int
  issues : List ValidationIssue

/-- The validation of one item, by category. It sees the parties found before and may raise. -/
structure ItemReaders where
  party : Nat → ValueDict → Except String (ItemRead ExtractedParty)
  metadata : List ExtractedParty → ValueDict → Except String ContractFacts
  clause : ClauseDefinition → List ExtractedParty → Nat → ValueDict →
    Except String (ItemRead ExtractedClause)
  financial : ContractFacts → List ExtractedParty → ValueDict → Except String FinancialTerms
  obligation : List ExtractedParty → Nat → ValueDict →
    Except String (ItemRead ExtractedObligation)
  keyDate : List ExtractedParty → Nat → ValueDict → Except String (ItemRead ExtractedKeyDate)
  risk : List ExtractedParty → Nat → ValueDict → Except String (ItemRead ExtractedRisk)
  relationship : List ExtractedParty → Nat → ValueDict →
    Except String (ItemRead ExtractedRelationship)
  /-- `validate_against_schema` of a response. -/
  schemaIssues : String → ValueDict → List ValidationIssue

structure ExtractionEngine where
  generate : String → Except CallFailure ValueDict
  select : List CandidateChunk → String → EvidenceBundle
  head : List CandidateChunk → EvidenceBundle
  readers : ItemReaders
  assess : ExtractionRequest → List ExtractedClause → List ExtractedRisk →
    Except String RiskAssessment
  repr : Value → String

namespace ExtractionRequest

def wants (q : ExtractionRequest) (category : String) : Bool :=
  match q.onlyCategories with
  | none => true
  | some categories => categories.contains category

def mandatoryClauseKeys (q : ExtractionRequest) : List String :=
  if q.mandatoryClauses.isEmpty then (q.clauseDefinitions.filter (·.mandatory)).map (·.key)
  else q.mandatoryClauses

def clausePlan (q : ExtractionRequest) : List ClauseDefinition :=
  let definitions := q.clauseDefinitions.mergeSort fun a b =>
    a.priority < b.priority || (a.priority = b.priority && a.key ≤ b.key)
  match q.onlyClauses with
  | none | some [] => definitions
  | some wanted => definitions.filter fun d => wanted.contains d.key

end ExtractionRequest

def ClauseDefinition.category (d : ClauseDefinition) : String := "clause:" ++ d.key

namespace ExtractionEngine

/-! ## One call -/

/-- `_call`: make one structured call; a failure is recorded on the outcome and swallowed. -/
def call (e : ExtractionEngine) (outcome : CategoryOutcome) (result : ExtractionResult) :
    ExtractionResult × CategoryOutcome × Option ValueDict :=
  match e.generate outcome.category with
  | .error (.provider message) =>
    let refused := Text.contains "declined" (Text.lower message)
    ({ result with
        warnings := result.warnings ++ [outcome.category ++ " could not be extracted: " ++ message ++
          ". The remaining categories were unaffected."] },
      { outcome with
        status := if refused then .refused else .error
        detail := some message }, none)
  | .error (.schemaValidation message) =>
    ({ result with
        warnings := result.warnings ++ [outcome.category ++ " returned an unusable response."] },
      { outcome with
        status := .invalid
        detail := some message }, none)
  | .error (.other message) =>
    (result,
      { outcome with
        status := .error
        detail := some message }, none)
  | .ok data =>
    (result,
      { outcome with
        llmCalls := outcome.llmCalls + 1
        issues := outcome.issues ++ e.readers.schemaIssues outcome.category data }, some data)

/-- What the reading of a response yields, and what it leaves on the outcome. -/
structure Reading (α : Type) where
  value : α
  itemCount : Nat
  issues : List ValidationIssue := []
  status : OutcomeStatus := .ok
  detail : Option String := none

def Reading.finish {α : Type} (reading : Reading α) (outcome : CategoryOutcome) :
    CategoryOutcome :=
  { outcome with
    itemCount := reading.itemCount
    issues := outcome.issues ++ reading.issues
    status := reading.status
    detail := reading.detail.or outcome.detail }

def append (result : ExtractionResult) (outcome : CategoryOutcome) : ExtractionResult :=
  { result with outcomes := result.outcomes ++ [outcome] }

/-- The course of one category: evidence, call, reading, outcome. `noEvidence` is the detail of the
outcome that is appended without a call when the bundle is empty; the document-level categories
have none and call anyway. The value is absent when nothing was read. -/
def runCategory {α : Type} (e : ExtractionEngine) (outcome : CategoryOutcome)
    (bundle : EvidenceBundle) (skipEmpty : Bool) (noEvidence : Option String)
    (read : ValueDict → Except String (Reading α)) (result : ExtractionResult) :
    Except String (ExtractionResult × Option α) :=
  let outcome := { outcome with evidenceChunks := bundle.chunkCount }
  if skipEmpty && bundle.isEmpty then
    .ok (append result
      { outcome with
        status := .notFound
        detail := noEvidence }, none)
  else
    match e.call outcome result with
    -- the caller returns here: the outcome that `_call` filled is not appended
    | (result, _, none) => .ok (result, none)
    | (result, outcome, some data) =>
      (read data).map fun reading => (append result (reading.finish outcome), some reading.value)

def readItem {α : Type} (read : Nat → ValueDict → Except String (ItemRead α))
    (acc : List α × List ValidationIssue) (entry : Value × Nat) :
    Except String (List α × List ValidationIssue) :=
  match entry.1 with
  | .dict raw =>
    (read entry.2 raw).map fun
      | .skipped => acc
      | .rejected issues => (acc.1, acc.2 ++ issues)
      | .accepted item => (acc.1 ++ [item], acc.2)
  | _ => .ok acc

/-- `for index, raw in enumerate(items)`. -/
def readItems {α : Type} (read : Nat → ValueDict → Except String (ItemRead α)) (items : Value) :
    Except String (List α × List ValidationIssue) :=
  match items.iter with
  | none => .error "TypeError"
  | some items => items.zipIdx.foldlM (readItem read) ([], [])

def readList {α : Type} (key : String) (read : Nat → ValueDict → Except String (ItemRead α))
    (data : ValueDict) : Except String (Reading (List α)) :=
  (readItems read ((Value.get data key).or (.list []))).map fun (items, issues) =>
    { value := items
      itemCount := items.length
      issues
      status := if items.isEmpty then .notFound else .ok }

/-! ## The categories -/

def extractParties (e : ExtractionEngine) (q : ExtractionRequest) (result : ExtractionResult) :
    Except String ExtractionResult :=
  (e.runCategory { category := "parties", promptId := "extraction.parties" } (e.head q.chunks) false
    none (readList "parties" e.readers.party) result).map
    fun (result, parties) => { result with parties := parties.getD [] }

def extractMetadata (e : ExtractionEngine) (q : ExtractionRequest) (result : ExtractionResult) :
    Except String ExtractionResult :=
  (e.runCategory { category := "metadata", promptId := "extraction.metadata" } (e.head q.chunks)
    false none
    (fun data => (e.readers.metadata result.parties data).map fun facts =>
      { value := facts, itemCount := 1 }) result).map
    fun (result, facts) => { result with facts := facts.getD {} }

def nameParties (result : ExtractionResult) : ExtractionResult :=
  let primary := result.parties.filter (·.isPrimary)
  let primary := if primary.isEmpty then result.parties else primary
  let keep (name : Option String) (party : Option ExtractedParty) : Option String :=
    match name with
    | none | some "" => (party.map (·.name)).or name
    | some name => some name
  { result with
    facts :=
      { result.facts with
        partyA := keep result.facts.partyA primary[0]?
        partyB := keep result.facts.partyB primary[1]? } }

def parseClauses (e : ExtractionEngine) (definition : ClauseDefinition)
    (parties : List ExtractedParty) (data : ValueDict) :
    Except String (Reading (List ExtractedClause)) :=
  let absent : Option String :=
    let reason := ((Value.get data "absence_reason").or (.str "")).toStr e.repr
    some (if reason = "" then "The model reported the clause as absent from the evidence."
      else reason)
  if (Value.get data "found").truthy then
    match Value.get data "clauses" with
    | .list items =>
      (readItems (e.readers.clause definition parties) (.list items)).map fun (clauses, issues) =>
        { value := clauses
          itemCount := clauses.length
          issues
          status := if clauses.isEmpty then .notFound else .ok
          detail := if clauses.isEmpty then absent else none }
    | _ =>
      .ok
        { value := []
          itemCount := 0
          status := .invalid
          detail := some "The response did not contain a clause list." }
  else .ok { value := [], itemCount := 0, status := .notFound, detail := absent }

def extractOneClause (e : ExtractionEngine) (q : ExtractionRequest)
    (definition : ClauseDefinition) (result : ExtractionResult) :
    Except String (ExtractionResult × Option (List ExtractedClause)) :=
  e.runCategory { category := definition.category, promptId := "extraction.clauses" }
    (e.select q.chunks definition.key) true
    (some "No chunk matched this clause category's extraction rule.")
    (e.parseClauses definition result.parties) result

/-- One clause category under `gather(return_exceptions=True)`: the result as it left it and what it
returned or raised. -/
def gatherClause (e : ExtractionEngine) (q : ExtractionRequest)
    (s : ExtractionResult × List (ClauseDefinition × Except String (List ExtractedClause)))
    (definition : ClauseDefinition) :
    ExtractionResult × List (ClauseDefinition × Except String (List ExtractedClause)) :=
  match e.extractOneClause q definition s.1 with
  | .error message => (s.1, s.2 ++ [(definition, .error message)])
  | .ok (result, clauses) => (result, s.2 ++ [(definition, .ok (clauses.getD []))])

def collectBatch (result : ExtractionResult)
    (batch : ClauseDefinition × Except String (List ExtractedClause)) : ExtractionResult :=
  match batch.2 with
  | .error message =>
    append result
      { category := batch.1.category
        promptId := "extraction.clauses"
        status := .error
        detail := some message }
  | .ok clauses => { result with clauses := result.clauses ++ clauses }

def extractClauses (e : ExtractionEngine) (q : ExtractionRequest) (result : ExtractionResult) :
    ExtractionResult :=
  let gathered := q.clausePlan.foldl (e.gatherClause q) (result, [])
  let collected := gathered.2.foldl collectBatch gathered.1
  let order (clauseType : String) : Nat :=
    ((q.clausePlan.map (·.key)).idxOf? clauseType).getD 999
  { collected with
    clauses := collected.clauses.mergeSort fun a b =>
      order a.clauseType < order b.clauseType ||
        (order a.clauseType = order b.clauseType && b.confidence ≤ a.confidence) }

def runDerived {α : Type} (e : ExtractionEngine) (q : ExtractionRequest) (category : String)
    (read : ValueDict → Except String (Reading α)) (result : ExtractionResult) :
    Except String (ExtractionResult × Option α) :=
  e.runCategory { category, promptId := "extraction." ++ category } (e.select q.chunks category)
    true none read result

def runFinancial (e : ExtractionEngine) (q : ExtractionRequest) (result : ExtractionResult) :
    Except String ExtractionResult :=
  (e.runDerived q "financial"
    (fun data => (e.readers.financial result.facts result.parties data).map fun terms =>
      { value := terms, itemCount := 1 }) result).map
    fun (result, terms) =>
      match terms with
      | none => result
      | some terms =>
        let value := match result.facts.contractValue with
          | none | some 0 => terms.totalValue
          | some value => some value
        let currency := match result.facts.currency with
          | none | some "" => terms.currency
          | some currency => some currency
        { result with
          facts :=
            { result.facts with
              contractValue := value
              currency
              paymentTermsDays := terms.paymentDays
              issues := result.facts.issues ++ terms.issues } }

def runObligations (e : ExtractionEngine) (q : ExtractionRequest) (result : ExtractionResult) :
    Except String ExtractionResult :=
  (e.runDerived q "obligations"
    (readList "obligations" (e.readers.obligation result.parties)) result).map
    fun (result, items) => { result with obligations := items.getD result.obligations }

def promoteDate (facts : ContractFacts) (entry : ExtractedKeyDate) : ContractFacts :=
  match entry.dateValue, entry.dateType with
  | none, _ => facts
  | some day, .effectiveDate =>
    { facts with effectiveDate := facts.effectiveDate.or (some day) }
  | some day, .expirationDate =>
    { facts with expirationDate := facts.expirationDate.or (some day) }
  | some day, .executionDate =>
    { facts with executionDate := facts.executionDate.or (some day) }
  | some _, _ => facts

def runDates (e : ExtractionEngine) (q : ExtractionRequest) (result : ExtractionResult) :
    Except String ExtractionResult :=
  (e.runDerived q "dates" (readList "dates" (e.readers.keyDate result.parties)) result).map
    fun (result, items) =>
      match items with
      | none => result
      | some dates =>
        { result with
          keyDates := dates
          facts := dates.foldl promoteDate result.facts }

def runModelRisks (e : ExtractionEngine) (q : ExtractionRequest) (result : ExtractionResult) :
    Except String ExtractionResult :=
  (e.runDerived q "risks" (readList "risks" (e.readers.risk result.parties)) result).map
    fun (result, items) => { result with risks := items.getD result.risks }

def runRelationships (e : ExtractionEngine) (q : ExtractionRequest) (result : ExtractionResult) :
    Except String ExtractionResult :=
  (e.runDerived q "relationships"
    (readList "relationships" (e.readers.relationship result.parties)) result).map
    fun (result, items) => { result with relationships := items.getD result.relationships }

/-! ## Review triggers -/

def ruleOn (q : ExtractionRequest) (name : String) : Bool :=
  ((q.reviewRules.lookup name).getD (.bool true)).truthy

def allItems (result : ExtractionResult) : List ExtractedItem :=
  result.clauses.map (·.toExtractedItem) ++ result.parties.map (·.toExtractedItem) ++
    result.obligations.map (·.toExtractedItem) ++ result.risks.map (·.toExtractedItem) ++
    result.keyDates.map (·.toExtractedItem) ++ result.relationships.map (·.toExtractedItem)

def trigger (on : Bool) (message : String) : List String := if on then [message] else []

def failedOutcomes (result : ExtractionResult) : List CategoryOutcome :=
  result.outcomes.filter (·.failed)

/-- The messages of the triggers that fired. -/
def reviewReasons (q : ExtractionRequest) (result : ExtractionResult) : List String :=
  let low := result.clauses.filter (·.confidence < q.confidenceThreshold)
  let critical := result.assessment.risks.filter (·.severity = .critical)
  let failed := failedOutcomes result
  let conflicting := result.facts.issues.filter fun i =>
    i.code = "effective_after_expiration" || i.code = "execution_after_effective"
  let corrected := ((allItems result).flatMap (·.issues)).countP (·.code = "auto_corrected")
  trigger (ruleOn q "low_confidence" && !low.isEmpty)
      (toString low.length ++ " clause(s) were extracted with confidence below " ++
        Text.percent q.confidenceThreshold ++ ".") ++
    trigger (ruleOn q "missing_mandatory_clause" && !result.assessment.missingMandatory.isEmpty)
      ("Mandatory clauses are absent: " ++
        ", ".intercalate result.assessment.missingMandatory ++ ".") ++
    trigger (ruleOn q "high_risk_clause" && !critical.isEmpty)
      (toString critical.length ++ " critical risk(s) were identified.") ++
    trigger (ruleOn q "validation_failure" && !failed.isEmpty)
      (toString failed.length ++ " extraction categor(ies) failed: " ++
        ", ".intercalate (failed.map (·.category)) ++ ".") ++
    trigger (ruleOn q "conflicting_dates" && !conflicting.isEmpty)
      "The extracted dates are inconsistent with one another." ++
    trigger (corrected ≠ 0)
      (toString corrected ++
        " field(s) were corrected by validation and should be confirmed against the source.")

def applyReviewTriggers (q : ExtractionRequest) (result : ExtractionResult) : ExtractionResult :=
  let reasons := reviewReasons q result
  let flag (c : ExtractedClause) : ExtractedClause :=
    if ruleOn q "low_confidence" && c.confidence < q.confidenceThreshold then
      { c with reviewStatus := .pending }
    else c
  { result with
    clauses := result.clauses.map flag
    reviewReasons := reasons
    needsReview := !reasons.isEmpty }

/-! ## One contract -/

def whenWanted (q : ExtractionRequest) (category : String)
    (step : ExtractionResult → Except String ExtractionResult) (result : ExtractionResult) :
    Except String ExtractionResult :=
  if q.wants category then step result else .ok result

def runCategories (e : ExtractionEngine) (q : ExtractionRequest) :
    Except String ExtractionResult := do
  let r ← whenWanted q "parties" (e.extractParties q) {}
  let r ← whenWanted q "metadata" (e.extractMetadata q) r
  let r ← whenWanted q "clauses" (fun r => .ok (e.extractClauses q r)) (nameParties r)
  let r ← whenWanted q "financial" (e.runFinancial q) r
  let r ← whenWanted q "obligations" (e.runObligations q) r
  let r ← whenWanted q "dates" (e.runDates q) r
  let r ← whenWanted q "risks" (e.runModelRisks q) r
  whenWanted q "relationships" (e.runRelationships q) r

def extract (e : ExtractionEngine) (q : ExtractionRequest) : Except String ExtractionResult :=
  if q.chunks.isEmpty then
    .ok { warnings := ["The contract produced no chunks, so there was nothing to extract."] }
  else do
    let r ← e.runCategories q
    let assessment ← e.assess q r.clauses r.risks
    return applyReviewTriggers q { r with assessment, risks := assessment.risks }

end ExtractionEngine

end Clear
