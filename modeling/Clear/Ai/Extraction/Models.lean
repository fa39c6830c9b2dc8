import Clear.Ai.Parsers.Layout
import Clear.Core.Enums
import Mathlib.Data.String.Basic

/-!
# Extraction result types

What one extraction run produced (`app/ai/extraction/models.py`): the items with their confidence
and validation issues, the document-level facts, the risk assessment and one outcome for each
extraction call. `failedCategories` lists the outcomes that failed, `clauseByType` picks the clause
that the document-level facts use.
-/

namespace Clear

/-- One validation finding against an extracted item. -/
structure ValidationIssue where
  code : String
  message : String
  field : Option String := none
  /-- `error` blocks acceptance; `warning` records a concern and lets it pass. -/
  severity : String := "error"
  deriving DecidableEq

namespace ValidationIssue

def isError (i : ValidationIssue) : Bool := i.severity = "error"

def asDict (i : ValidationIssue) : Value :=
  .dict [("code", .str i.code), ("message", .str i.message), ("field", .ofStr? i.field),
    ("severity", .str i.severity)]

end ValidationIssue

/-- Shared provenance for everything the extraction engine produces. -/
structure ExtractedItem where
  confidence : Rat := 0
  issues : List ValidationIssue := []
  reviewStatus : ReviewStatus := .notRequired
  deriving DecidableEq

structure ExtractedClause extends ExtractedItem where
  clauseType : String
  title : Option String := none
  text : String := ""
  summary : Option String := none
  clauseNumber : Option String := none
  attributes : ValueDict := []
  isMandatory : Bool := false

/-- A contracting party or other named entity. -/
structure ExtractedParty extends ExtractedItem where
  name : String
  isPrimary : Bool := false
  isOurOrganisation : Bool := false

/-- A duty one party owes. -/
structure ExtractedObligation extends ExtractedItem where
  action : String

structure ExtractedRisk extends ExtractedItem where
  riskType : String := "other"
  severity : RiskSeverity := .medium
  description : String := ""
  recommendation : Option String := none
  category : Option String := none
  /-- A mandatory clause that is absent: the risk is the omission itself. -/
  isOmission : Bool := false
  clauseType : Option String := none
  scoreContribution : Nat := 0

structure ExtractedKeyDate extends ExtractedItem where
  dateType : DateType := .other
  dateValue : Option Date := none
  dateExpression : Option String := none

/-- An edge for the knowledge graph. -/
structure ExtractedRelationship extends ExtractedItem where
  relation : String
  sourceRef : String
  targetRef : String

/-- Document-level facts, as they land on `contract_metadata`. -/
structure ContractFacts where
  title : Option String := none
  summary : Option String := none
  executiveSummary : Option String := none
  keyTopics : List String := []
  partyA : Option String := none
  partyB : Option String := none
  contractValue : Option Rat := none
  currency : Option String := none
  effectiveDate : Option Date := none
  executionDate : Option Date := none
  expirationDate : Option Date := none
  termMonths : Option Int := none
  paymentTermsDays : Option Int := none
  governingLaw : Option String := none
  jurisdiction : Option String := none
  disputeResolution : Option String := none
  confidence : Rat := 0
  issues : List ValidationIssue := []

structure RiskAssessment where
  score : Int := 0
  band : RiskBand := .low
  risks : List ExtractedRisk := []
  missingMandatory : List String := []
  breakdown : List ValueDict := []
  hasUnlimitedLiability : Bool := false

inductive OutcomeStatus where
  | ok | skipped | notFound | invalid | refused | error
  deriving DecidableEq, Repr

def OutcomeStatus.value : OutcomeStatus → String
  | .ok => "ok"
  | .skipped => "skipped"
  | .notFound => "not_found"
  | .invalid => "invalid"
  | .refused => "refused"
  | .error => "error"

/-- What one extraction call produced. -/
structure CategoryOutcome where
  category : String
  promptId : String
  status : OutcomeStatus := .ok
  itemCount : Nat := 0
  evidenceChunks : Nat := 0
  llmCalls : Nat := 0
  detail : Option String := none
  issues : List ValidationIssue := []

namespace CategoryOutcome

def failed (o : CategoryOutcome) : Bool := o.status ∈ [.error, .refused, .invalid]

def asDict (o : CategoryOutcome) : Value :=
  .dict [("category", .str o.category), ("prompt_id", .str o.promptId),
    ("status", .str o.status.value), ("items", .int o.itemCount),
    ("evidence_chunks", .int o.evidenceChunks), ("llm_calls", .int o.llmCalls),
    ("detail", .ofStr? o.detail), ("issues", .list (o.issues.map ValidationIssue.asDict))]

end CategoryOutcome

structure ExtractionResult where
  facts : ContractFacts := {}
  clauses : List ExtractedClause := []
  parties : List ExtractedParty := []
  obligations : List ExtractedObligation := []
  risks : List ExtractedRisk := []
  keyDates : List ExtractedKeyDate := []
  relationships : List ExtractedRelationship := []
  assessment : RiskAssessment := {}
  outcomes : List CategoryOutcome := []
  /-- Set when any item tripped a review trigger. -/
  needsReview : Bool := false
  reviewReasons : List String := []
  warnings : List String := []

namespace ExtractionResult

def failedCategories (r : ExtractionResult) : List String :=
  (r.outcomes.filter CategoryOutcome.failed).map (·.category)

def mostConfident : List ExtractedClause → Option ExtractedClause
  | [] => none
  | c :: rest =>
    match mostConfident rest with
    | none => some c
    | some best => if c.confidence < best.confidence then some best else some c

def clauseByType (r : ExtractionResult) (clauseType : String) : Option ExtractedClause :=
  mostConfident (r.clauses.filter (·.clauseType = clauseType))

def found (r : ExtractionResult) (clauseType : String) : Bool :=
  r.clauses.any (·.clauseType = clauseType)

end ExtractionResult

end Clear

/-!
## Evidence

The chunks of a document as the extraction sees them (`app/ai/extraction/evidence.py`), the bundle
that one category's call is given, and the normal form in which quotes are compared with it.
-/

namespace Clear

structure CandidateChunk where
  chunkId : String
  text : String := ""
  chunkType : ChunkType := .paragraph
  readingOrder : Int := 0
  tokenCount : Nat := 0
  sectionTitle : Option String := none
  clauseNumber : Option String := none
  pageStart : Option Int := none
  pageEnd : Option Int := none
  boundingBoxes : List Coordinates := []
  parentId : Option String := none
  deriving DecidableEq

/-- The evidence one category's call will see. -/
structure EvidenceBundle where
  scored : List CandidateChunk := []
  /-- Chunks pulled in for context rather than because they matched. -/
  context : List CandidateChunk := []
  considered : Nat := 0
  excluded : Nat := 0
  truncated : Bool := false

namespace EvidenceBundle

def firsts (seen : List String) : List CandidateChunk → List CandidateChunk
  | [] => []
  | c :: rest =>
    if seen.contains c.chunkId then firsts seen rest else c :: firsts (c.chunkId :: seen) rest

def chunks (b : EvidenceBundle) : List CandidateChunk :=
  (firsts [] (b.scored ++ b.context)).mergeSort fun c d => c.readingOrder ≤ d.readingOrder

def isEmpty (b : EvidenceBundle) : Bool := b.scored.isEmpty

def chunkCount (b : EvidenceBundle) : Nat := b.chunks.length

def totalTokens (b : EvidenceBundle) : Nat := (b.chunks.map (·.tokenCount)).sum

def chunkIds (b : EvidenceBundle) : List String := b.chunks.map (·.chunkId)

def byId (b : EvidenceBundle) (chunkId : String) : Option CandidateChunk :=
  b.chunks.find? (·.chunkId = chunkId)

end EvidenceBundle

/-- The punctuation that PDF extraction mangles, unified. -/
def unifyPunctuation (c : Char) : List Char :=
  match c.toNat with
  | 0x2018 | 0x2019 => [Char.ofNat 0x27]
  | 0x201C | 0x201D => [Char.ofNat 0x22]
  | 0x2013 | 0x2014 | 0x2212 => ['-']
  | 0xA0 => [' ']
  | 0xFB01 => ['f', 'i']
  | 0xFB02 => ['f', 'l']
  | _ => [c]

def normaliseQuote (std : Stdlib) (text : String) : String :=
  let unified := (std.lower text).toList.flatMap unifyPunctuation
  Text.strip (String.ofList (Text.replaceRuns (fun c => !Text.isSpace c) ' ' false unified))

end Clear
