import Clear.Ai.DocPipeline.Mapping
import Clear.Ai.Retrieval.Assembler
import Clear.Models.Identity

/-!
# The Copilot

`app/services/copilot.py`: a question is classified, planned, searched and guarded in `prepare`; what
follows depends on how the answer is delivered. The classifier is a parameter. Timings, models, tokens
and cost are left out.
-/

namespace Clear

open Retrieval

/-- `resolve_document_type` (`app/ai/docpipeline/mapping.py`): nothing for a label that no configured
type has. -/
def resolveDocumentType (available : Option (List String)) (label : String) :
    Option ResolvedDocumentType :=
  let wanted := Taxonomy.normalise label
  if wanted = "" || isFallback label then none
  else
    match available with
    | none => none
    | some available =>
      match available.find? (Taxonomy.normalise · = wanted) with
      | some label => some { label, agreementType := (Taxonomy.agreementTypeFor label).1 }
      | none =>
        match Taxonomy.legacyAgreementType label with
        | some (agreementType, _) =>
          if agreementType ∈ available then some { label := agreementType, agreementType } else none
        | none => none

namespace Copilot

/-- Shown when the guardrail fires. -/
def insufficientContext : String :=
  "I couldn't find wording in this contract that answers that confidently, so I'd rather say so than " ++
    "guess.\n\nTwo things usually help:\n" ++
    "- Name the clause directly - \"What is the liability cap?\" rather than \"Key risks?\". Broad " ++
    "questions match many passages weakly instead of one strongly, which is what this check measures." ++
    "\n- Check the contract has finished processing. Clauses only become searchable once extraction " ++
    "and indexing complete."

def generationUnavailable : String :=
  "The answer could not be generated just now - the language model is unavailable. The passages the " ++
    "search found are listed below; they are the evidence an answer would have been built from."

def unsummarisedWarning : String :=
  "The answer could not be generated. The passages below are what the search found, unsummarised."

inductive RetrievalMode where
  | documentTypeFiltered | contractScoped | unfiltered
  deriving DecidableEq, Repr

/-- One supporting passage, in the shape the API reports it. -/
structure SourceRef where
  contractId : Uuid
  contractName : Option String
  clauseHeading : Option String
  sectionNumber : Option String
  pageNumber : Option Nat
  similarityScore : Option Rat
  rerankScore : Option Rat
  matchType : String
  text : String
  label : Nat

/-- Everything decided before a token is generated. -/
structure Preparation where
  plan : RetrievalPlan
  retrieval : Result
  analysis : QueryAnalysis
  documentType : Option ResolvedDocumentType
  retrievalMode : RetrievalMode
  /-- `None` when the guardrail fired. -/
  package : Option ContextPackage := none
  /-- A document-type filter matched nothing and was dropped. -/
  relaxedFilters : Bool := false

structure CopilotResult where
  answer : String
  sources : List SourceRef := []
  insufficientContext : Bool := false
  generationFailed : Bool := false
  documentType : Option String := none
  documentTypeDetected : Bool := false
  documentTypeConfidence : Rat := 0
  retrievalMode : RetrievalMode
  retrievedChunks : Nat := 0
  topSimilarity : Rat := 0
  relaxedFilters : Bool := false
  scopeTruncated : Bool := false
  confidence : Rat := 0
  confidenceBand : ConfidenceBand := .low
  needsReview : Bool := false
  refused : Bool := false
  warnings : List String := []
  generated : Option Rag.Answer := none

/-- The settings, and what the providers and the database compute. -/
structure Service (ν : Type) where
  std : Stdlib
  planner : RetrievalPlanner
  backend : Backend ν
  labels : Sql.Engine String
  /-- `QueryAnalysisService.analyse`, which never raises. -/
  analyse : (query : String) → (docTypes : List String) → QueryAnalysis
  /-- `copilot_top_k`. -/
  topK : Nat
  /-- `answer_similarity_threshold`. -/
  threshold : Rat
  /-- `top_context_chunks`. -/
  contextChunks : Nat
  /-- The budget of the context assembler. -/
  budget : Nat

/-- What a question is answered from. -/
structure Store (ν : Type) where
  corpus : Corpus ν
  profiles : List DocumentProfile

/-! ## Preparation -/

def answerableSimilarity (retrieval : Result) : Rat :=
  match (retrieval.topSimilarityByLevel.filter (·.1 ∈ [.clause, .chunk])).map (·.2) with
  | [] => 0
  | top :: rest => rest.foldl max top

variable {ν : Type} (service : Service ν) (store : Store ν)

def loadContract (projectIds : List Uuid) (contractId : Uuid) : Except Raised ContractRow :=
  match store.corpus.contracts.find? fun c =>
    c.id = contractId && (c.projectId ∈ projectIds && c.deletedAt.isNone) with
  | some contract => .ok contract
  | none => .error (.app (.notFound "Contract" contractId))

def documentTypeOf (query : String) (contract : Option ContractRow) :
    QueryAnalysis × Option ResolvedDocumentType :=
  match contract with
  | some contract =>
    -- its recorded type is fact, and no filter is needed on top of the contract
    ({ documentType := contract.agreementType
       confidence := if (contract.agreementType.getD "") = "" then 0 else 1
       method := .skipped
       reasoning := "The question names a contract, so its recorded type is used." }, none)
  | none =>
    match loadDocTypes service.labels store.profiles with
    | none => ({}, none)
    | some docTypes =>
      let analysis := service.analyse query docTypes
      (analysis, (analysis.documentType.filter (· ≠ "")).bind
        (resolveDocumentType (some docTypes)))

def modeOf (plan : RetrievalPlan) (documentType : Option ResolvedDocumentType)
    (contractId : Option Uuid) : RetrievalMode :=
  if !plan.filters.agreementTypes.isEmpty && documentType.isSome then .documentTypeFiltered
  else if contractId.isSome then .contractScoped
  else .unfiltered

def search (plan : RetrievalPlan) : Except Raised Result :=
  retrieve service.std service.planner.settings service.backend store.corpus plan

def planOf (query : String) (projectIds : List Uuid) (contractId : Option Uuid)
    (analysis : QueryAnalysis) (documentType : Option ResolvedDocumentType) :
    Except Raised RetrievalPlan :=
  match service.planner.plan query
    { projectIds
      scope := if contractId.isSome then .contract else .project
      contractIds := contractId.toList
      analysis := some analysis
      documentType
      levelLimit := some service.topK
      preferContent := true
      forAnswer := true } with
  | some plan => .ok plan
  | none => .error (.other "OverflowError")

/-- One bounded retry without the type filter, where it removed everything. -/
def relax (contractId : Option Uuid) (p : Preparation) : Except Raised Preparation :=
  if p.retrieval.evidence.isEmpty && !p.plan.filters.agreementTypes.isEmpty then do
    let plan := { p.plan with filters := { p.plan.filters with agreementTypes := [] } }
    let retrieval ← search service store plan
    return { p with
      plan
      retrieval
      retrievalMode := if contractId.isSome then .contractScoped else .unfiltered
      relaxedFilters := true }
  else .ok p

/-- The guardrail, and the context package behind it. -/
def guard (query : String) (history : List Turn) (p : Preparation) : Preparation :=
  if p.retrieval.evidence.isEmpty || answerableSimilarity p.retrieval < service.threshold then p
  else
    { p with
      package := some <| assemble service.std service.budget query p.plan.intent p.retrieval history
        service.contextChunks }

/-- Classify, plan, retrieve and apply the guardrail. -/
def prepare (query : String) (projectIds : List Uuid) (contractId : Option Uuid)
    (history : List Turn) : Except Raised Preparation := do
  let contract ←
    match contractId with
    | some contractId => (loadContract store projectIds contractId).map some
    | none => .ok none
  let (analysis, documentType) := documentTypeOf service store query contract
  let plan ← planOf service query projectIds contractId analysis documentType
  let retrieval ← search service store plan
  let retrievalMode := modeOf plan documentType contractId
  let prepared ←
    relax service store contractId { plan, retrieval, analysis, documentType, retrievalMode }
  return guard service query history prepared

/-! ## Results -/

def title (std : Stdlib) (text : String) : String :=
  String.join <| (text.toList.zip ('_' :: text.toList)).map fun (c, previous) =>
    if c = '_' then " "
    else if std.isAlpha previous then std.lower (String.singleton c)
    else std.upper (String.singleton c)

/-- Retrieval's provenance labels, in the vocabulary the API reports. -/
def matchType : EvidenceSource → String
  | .vector => "semantic"
  | .keyword => "keyword"
  | .fused => "hybrid"
  | .neighbour | .graph => "context"

def source (std : Stdlib) (citation : Citation) : SourceRef where
  contractId := citation.contractId
  contractName := citation.contractTitle
  clauseHeading := (citation.sectionTitle.filter (· ≠ "")).or
    ((citation.clauseType.filter (· ≠ "")).map (title std))
  sectionNumber := citation.clauseNumber
  pageNumber := citation.pageStart
  similarityScore := citation.similarity.map (Rag.roundTo 4)
  rerankScore := citation.rerankScore.map (Rag.roundTo 4)
  matchType := matchType citation.source
  text := citation.text
  label := citation.label

def sources (std : Stdlib) (package : ContextPackage) (generated : Option Rag.Answer) :
    List SourceRef :=
  let cited := (generated.map (·.citations)).getD []
  (if cited.isEmpty then package.citations else cited).map (source std)

def describe (p : Preparation) (result : CopilotResult) : CopilotResult :=
  let documentType := (p.documentType.map (·.label)).or p.analysis.documentType
  { result with
    documentType
    documentTypeDetected := (documentType.getD "") ≠ "" &&
      result.retrievalMode ∈ [.documentTypeFiltered, .contractScoped]
    documentTypeConfidence := Rag.roundTo 4 p.analysis.confidence }

def outline (p : Preparation) (answer : String) : CopilotResult where
  answer
  retrievalMode := p.retrievalMode
  topSimilarity := Rag.roundTo 4 (answerableSimilarity p.retrieval)
  relaxedFilters := p.relaxedFilters
  scopeTruncated := p.retrieval.truncated

/-- The answer when the model could not be reached. -/
def degradedResult (p : Preparation) : CopilotResult :=
  describe p
    { outline p generationUnavailable with
      sources := (p.package.map (sources service.std · none)).getD []
      generationFailed := true
      retrievedChunks := (p.package.map (·.citations.length)).getD 0
      needsReview := true
      warnings := [unsummarisedWarning] }

/-- The answer when nothing retrieved was good enough to answer from. -/
def guardrailResult (p : Preparation) : CopilotResult :=
  describe p
    { outline p insufficientContext with
      insufficientContext := true
      warnings := p.retrieval.warnings }

def finish (p : Preparation) (generated : Rag.Answer) : CopilotResult :=
  match p.package with
  | none => guardrailResult p
  | some package =>
    describe p
      { outline p generated.text with
        sources := sources service.std package (some generated)
        retrievedChunks := package.citations.length
        confidence := generated.confidence
        confidenceBand := generated.confidenceBand
        needsReview := generated.needsReview
        refused := generated.refused
        warnings := generated.warnings
        generated := some generated }

def resultOf (p : Preparation) (generation : Rag.Generation) : CopilotResult :=
  match p.package with
  | none => guardrailResult p
  | some package =>
    match Rag.answer service.std package generation with
    | .error _ => degradedResult service p
    | .ok generated => finish service p generated

def answer (query : String) (projectIds : List Uuid) (contractId : Option Uuid)
    (history : List Turn) (generation : Rag.Generation) : Except Raised CopilotResult :=
  (prepare service store query projectIds contractId history).map (resultOf service · generation)

end Copilot

end Clear
