import Mathlib.Data.List.Basic

/-!
# Canonical enumerations

The closed vocabularies of the platform (`app/core/enums.py`) and the tables over them. A member
of a `StrEnum` is a constructor; `value` is the text stored in the database and sent on the wire.

* `stageOrder`, `stageIndex`, `stagePosition`, `stagesFrom`: the execution order of the pipeline,
* `stageToState`: the job state held while a stage runs,
* `stageArtifacts`: the artifact kinds a stage emits.
-/

namespace Clear

/-! ## Documents -/

/-- What the user uploaded. -/
inductive FileType where
  | pdf | doc | docx
  deriving DecidableEq, Repr

namespace FileType

def value : FileType → String
  | pdf => "pdf"
  | doc => "doc"
  | docx => "docx"

def ofValue? (text : String) : Option FileType := [pdf, doc, docx].find? (·.value = text)

/-- Word documents are converted before the pipeline sees them. -/
def needsPdfConversion (t : FileType) : Bool := t ∈ [doc, docx]

end FileType

/-- Container formats accepted at upload but never stored as a contract. -/
inductive ArchiveType where
  | zip
  deriving DecidableEq, Repr

def ArchiveType.value : ArchiveType → String
  | zip => "zip"

inductive ContractStatus where
  | uploaded | processing | ready | failed | needsReview | archived | conversionFailed
  deriving DecidableEq, Repr

/-! ## Jobs -/

inductive JobState where
  | queued | validating | parsing | enriching | classifying | chunking | aiExtraction
  | embedding | indexing | ready | failed | retrying | cancelled | paused
  deriving DecidableEq, Repr

namespace JobState

def value : JobState → String
  | queued => "QUEUED"
  | validating => "VALIDATING"
  | parsing => "PARSING"
  | enriching => "ENRICHING"
  | classifying => "CLASSIFYING"
  | chunking => "CHUNKING"
  | aiExtraction => "AI_EXTRACTION"
  | embedding => "EMBEDDING"
  | indexing => "INDEXING"
  | ready => "READY"
  | failed => "FAILED"
  | retrying => "RETRYING"
  | cancelled => "CANCELLED"
  | paused => "PAUSED"

def isTerminal (s : JobState) : Bool := s ∈ [ready, failed, cancelled]

def isRunning (s : JobState) : Bool :=
  s ∈ [validating, parsing, enriching, classifying, chunking, aiExtraction, embedding, indexing]

end JobState

/-- Order in which claims are handed out: the labels sort in declaration order. -/
inductive JobPriority where
  | high | normal | low
  deriving DecidableEq, Repr

namespace JobPriority

def value : JobPriority → String
  | high => "high"
  | normal => "normal"
  | low => "low"

def ofValue? (text : String) : Option JobPriority := [high, normal, low].find? (·.value = text)

/-- Position of the label in the declaration of the native enum (`ORDER BY priority`). -/
def rank : JobPriority → Nat
  | high => 0
  | normal => 1
  | low => 2

end JobPriority

inductive StageQueueState where
  | pending | claimed | done | dead
  deriving DecidableEq, Repr

inductive StageStatus where
  | pending | running | succeeded | failed | skipped | cancelled
  deriving DecidableEq, Repr

/-! ## Stages -/

/-- Every stage a job row can name. The last four are retired: readable for history, never
dispatched. -/
inductive PipelineStage where
  | validation | parser | docpipeline | extraction | embedding | indexing
  | enrichment | classification | chunking | aiExtraction
  deriving DecidableEq, Repr

namespace PipelineStage

def value : PipelineStage → String
  | validation => "validation"
  | parser => "parser"
  | docpipeline => "docpipeline"
  | extraction => "extraction"
  | embedding => "embedding"
  | indexing => "indexing"
  | enrichment => "enrichment"
  | classification => "classification"
  | chunking => "chunking"
  | aiExtraction => "ai_extraction"

def ofValue? (text : String) : Option PipelineStage :=
  [validation, parser, docpipeline, extraction, embedding, indexing, enrichment, classification,
    chunking, aiExtraction].find? (·.value = text)

end PipelineStage

open PipelineStage

def stageOrder : List PipelineStage :=
  [validation, parser, docpipeline, extraction, embedding, indexing]

def stageToState : PipelineStage → JobState
  | validation => .validating
  | parser => .parsing
  | docpipeline => .aiExtraction
  | extraction => .aiExtraction
  | embedding => .embedding
  | indexing => .indexing
  | enrichment => .enriching
  | classification => .classifying
  | chunking => .chunking
  | aiExtraction => .aiExtraction

def stagePosition (stage : PipelineStage) : Option Nat := stageOrder.idxOf? stage

def stageIndex (stage : PipelineStage) : Option Nat := stageOrder.idxOf? stage

/-- `stage` and every stage after it: the replay set for a reprocess. -/
def stagesFrom (stage : PipelineStage) : Option (List PipelineStage) :=
  (stageIndex stage).map stageOrder.drop

/-! ## Artifacts -/

inductive ArtifactKind where
  | validation | normalizedDocument | canonicalDocument | classification | chunks
  | chunkStatistics | chunkValidation | clauses | entities | obligations | risks | timelines
  | relationships | extractionStatistics | summaryEmbeddings | clauseEmbeddings
  | chunkEmbeddings | embeddingStatistics | indexStatistics | statistics | «export» | docPipeline
  deriving DecidableEq, Repr

def ArtifactKind.value : ArtifactKind → String
  | .validation => "validation"
  | .normalizedDocument => "normalized_document"
  | .canonicalDocument => "canonical_document"
  | .classification => "classification"
  | .chunks => "chunks"
  | .chunkStatistics => "chunk_statistics"
  | .chunkValidation => "chunk_validation"
  | .clauses => "clauses"
  | .entities => "entities"
  | .obligations => "obligations"
  | .risks => "risks"
  | .timelines => "timelines"
  | .relationships => "relationships"
  | .extractionStatistics => "extraction_statistics"
  | .summaryEmbeddings => "summary_embeddings"
  | .clauseEmbeddings => "clause_embeddings"
  | .chunkEmbeddings => "chunk_embeddings"
  | .embeddingStatistics => "embedding_statistics"
  | .indexStatistics => "index_statistics"
  | .statistics => "statistics"
  | .export => "export"
  | .docPipeline => "doc_pipeline"

def stageArtifacts : PipelineStage → List ArtifactKind
  | validation => [.validation]
  | parser => [.normalizedDocument]
  | docpipeline => [.docPipeline]
  | extraction =>
    [.chunks, .clauses, .entities, .obligations, .risks, .timelines, .relationships,
      .extractionStatistics]
  | embedding =>
    [.summaryEmbeddings, .clauseEmbeddings, .chunkEmbeddings, .embeddingStatistics]
  | indexing => [.indexStatistics]
  | _ => []

/-! ## Embeddings -/

inductive EmbeddingLevel where
  | documentSummary | clause | chunk
  deriving DecidableEq, Repr

def EmbeddingLevel.value : EmbeddingLevel → String
  | .documentSummary => "document_summary"
  | .clause => "clause"
  | .chunk => "chunk"

def embeddingLevels : List EmbeddingLevel := [.documentSummary, .clause, .chunk]

/-! ## Retrieval -/

inductive SearchScope where
  | application | project | contract
  deriving DecidableEq, Repr

inductive SearchMode where
  | keyword | semantic | hybrid
  deriving DecidableEq, Repr

/-- What a question is trying to do. -/
inductive QueryIntent where
  | metadataLookup | clauseLookup | obligationLookup | riskAssessment | comparison | summarization
  | timeline | relationship | compliance | financial | generalQa
  deriving DecidableEq, Repr

namespace QueryIntent

def value : QueryIntent → String
  | metadataLookup => "metadata_lookup"
  | clauseLookup => "clause_lookup"
  | obligationLookup => "obligation_lookup"
  | riskAssessment => "risk_assessment"
  | comparison => "comparison"
  | summarization => "summarization"
  | timeline => "timeline"
  | relationship => "relationship"
  | compliance => "compliance"
  | financial => "financial"
  | generalQa => "general_qa"

def ofValue? (text : String) : Option QueryIntent :=
  [metadataLookup, clauseLookup, obligationLookup, riskAssessment, comparison, summarization,
    timeline, relationship, compliance, financial, generalQa].find? (·.value = text)

theorem ofValue?_value (intent : QueryIntent) : ofValue? intent.value = some intent := by
  cases intent <;> decide

end QueryIntent

/-- How a classification was reached. -/
inductive AnalysisMethod where
  | llm | unavailable | skipped
  deriving DecidableEq, Repr

def AnalysisMethod.value : AnalysisMethod → String
  | .llm => "llm"
  | .unavailable => "unavailable"
  | .skipped => "skipped"

/-- How a plan answers a question. -/
inductive RetrievalStrategy where
  | metadataOnly | metadataPlusDocument | clauseRetrieval | chunkRetrieval | graphTraversal | hybrid
  deriving DecidableEq, Repr

/-! ## Classification -/

/-- Contract taxonomy used by classification, profile selection and filters. -/
inductive AgreementType where
  | msa | nda | vendorAgreement | employmentAgreement | lease | consultingAgreement
  | governmentContract | healthcareAgreement | insurancePolicy | researchCollaboration | sow
  | purchaseOrder | licenseAgreement | serviceAgreement | partnershipAgreement | amendment | other
  deriving DecidableEq, Repr

namespace AgreementType

def value : AgreementType → String
  | msa => "msa"
  | nda => "nda"
  | vendorAgreement => "vendor_agreement"
  | employmentAgreement => "employment_agreement"
  | lease => "lease"
  | consultingAgreement => "consulting_agreement"
  | governmentContract => "government_contract"
  | healthcareAgreement => "healthcare_agreement"
  | insurancePolicy => "insurance_policy"
  | researchCollaboration => "research_collaboration"
  | sow => "sow"
  | purchaseOrder => "purchase_order"
  | licenseAgreement => "license_agreement"
  | serviceAgreement => "service_agreement"
  | partnershipAgreement => "partnership_agreement"
  | amendment => "amendment"
  | other => "other"

def ofValue? (text : String) : Option AgreementType :=
  [msa, nda, vendorAgreement, employmentAgreement, lease, consultingAgreement, governmentContract,
    healthcareAgreement, insurancePolicy, researchCollaboration, sow, purchaseOrder,
    licenseAgreement, serviceAgreement, partnershipAgreement, amendment,
    other].find? (·.value = text)

theorem value_of_isSome {text : String} (h : (ofValue? text).isSome = true) :
    ∃ t : AgreementType, text = t.value := by
  obtain ⟨t, ht⟩ := Option.isSome_iff_exists.1 h
  have hvalue := List.find?_some ht
  exact ⟨t, (of_decide_eq_true hvalue).symm⟩

end AgreementType

/-! ## Extraction -/

/-- The clause categories that the metadata projection and the rules read. `clause_type` itself is a
text: the Clause Master adds categories at run time. -/
inductive ClauseType where
  | terminationForConvenience | terminationForCause | paymentTerms | intellectualProperty
  | limitationOfLiability | indemnification | governingLaw | dataProtection | autoRenewal
  | exclusivity | assignment | auditRights | forceMajeure | nonSolicitation
  deriving DecidableEq, Repr

def ClauseType.value : ClauseType → String
  | .terminationForConvenience => "termination_for_convenience"
  | .terminationForCause => "termination_for_cause"
  | .paymentTerms => "payment_terms"
  | .intellectualProperty => "intellectual_property"
  | .limitationOfLiability => "limitation_of_liability"
  | .indemnification => "indemnification"
  | .governingLaw => "governing_law"
  | .dataProtection => "data_protection"
  | .autoRenewal => "auto_renewal"
  | .exclusivity => "exclusivity"
  | .assignment => "assignment"
  | .auditRights => "audit_rights"
  | .forceMajeure => "force_majeure"
  | .nonSolicitation => "non_solicitation"

inductive LiabilityCapBasis where
  | oneXFeesPaid | twoXFeesPaid | otherMultipleOfFees | fixedAmount | feesPaidInPeriod | uncapped
  | notSpecified
  deriving DecidableEq, Repr

def LiabilityCapBasis.value : LiabilityCapBasis → String
  | .oneXFeesPaid => "1x_fees_paid"
  | .twoXFeesPaid => "2x_fees_paid"
  | .otherMultipleOfFees => "other_multiple_of_fees"
  | .fixedAmount => "fixed_amount"
  | .feesPaidInPeriod => "fees_paid_in_period"
  | .uncapped => "uncapped"
  | .notSpecified => "not_specified"

inductive IndemnityPosture where
  | mutual | oneSidedInOurFavour | oneSidedAgainstUs | notSpecified
  deriving DecidableEq, Repr

def IndemnityPosture.value : IndemnityPosture → String
  | .mutual => "mutual"
  | .oneSidedInOurFavour => "one_sided_in_our_favour"
  | .oneSidedAgainstUs => "one_sided_against_us"
  | .notSpecified => "not_specified"

def PartySide.unknown : String := "unknown"

def PartySide.ourOrganisation : String := "our_organisation"

def PartySide.counterparty : String := "counterparty"

def PartySide.both : String := "both"

def PartySide.neither : String := "neither"

inductive LiabilityCarveOut where
  | ipInfringement | confidentialityBreach | grossNegligence | wilfulMisconduct | fraud
  | deathOrPersonalInjury | dataProtectionBreach | indemnificationObligations | paymentObligations
  | breachOfLaw | other
  deriving DecidableEq, Repr

def LiabilityCarveOut.value : LiabilityCarveOut → String
  | .ipInfringement => "ip_infringement"
  | .confidentialityBreach => "confidentiality_breach"
  | .grossNegligence => "gross_negligence"
  | .wilfulMisconduct => "wilful_misconduct"
  | .fraud => "fraud"
  | .deathOrPersonalInjury => "death_or_personal_injury"
  | .dataProtectionBreach => "data_protection_breach"
  | .indemnificationObligations => "indemnification_obligations"
  | .paymentObligations => "payment_obligations"
  | .breachOfLaw => "breach_of_law"
  | .other => "other"

inductive RiskSeverity where
  | critical | high | medium | low
  deriving DecidableEq, Repr

namespace RiskSeverity

def value : RiskSeverity → String
  | critical => "critical"
  | high => "high"
  | medium => "medium"
  | low => "low"

def ofValue? (text : String) : Option RiskSeverity :=
  [critical, high, medium, low].find? (·.value = text)

def weight : RiskSeverity → Nat
  | critical => 40
  | high => 25
  | medium => 10
  | low => 3

end RiskSeverity

/-- The types of risk that the extraction names. `risk_type` itself is stored as a text. -/
inductive RiskType where
  | unlimitedLiability | uncappedIndemnity | broadTerminationRights | unilateralTermination
  | autoRenewal | shortPaymentTerms | latePaymentPenalty | missingLiabilityCap
  | missingMandatoryClause | unfavourableGoverningLaw | ipAssignmentRisk | dataProtectionGap
  | complianceGap | exclusivity | nonCompeteBreadth | changeOfControl | noAuditRights | weakSla
  | currencyExposure | ambiguousScope | other
  deriving DecidableEq, Repr

namespace RiskType

def value : RiskType → String
  | unlimitedLiability => "unlimited_liability"
  | uncappedIndemnity => "uncapped_indemnity"
  | broadTerminationRights => "broad_termination_rights"
  | unilateralTermination => "unilateral_termination"
  | autoRenewal => "auto_renewal"
  | shortPaymentTerms => "short_payment_terms"
  | latePaymentPenalty => "late_payment_penalty"
  | missingLiabilityCap => "missing_liability_cap"
  | missingMandatoryClause => "missing_mandatory_clause"
  | unfavourableGoverningLaw => "unfavourable_governing_law"
  | ipAssignmentRisk => "ip_assignment_risk"
  | dataProtectionGap => "data_protection_gap"
  | complianceGap => "compliance_gap"
  | exclusivity => "exclusivity"
  | nonCompeteBreadth => "non_compete_breadth"
  | changeOfControl => "change_of_control"
  | noAuditRights => "no_audit_rights"
  | weakSla => "weak_sla"
  | currencyExposure => "currency_exposure"
  | ambiguousScope => "ambiguous_scope"
  | other => "other"

def ofValue? (text : String) : Option RiskType :=
  [unlimitedLiability, uncappedIndemnity, broadTerminationRights, unilateralTermination, autoRenewal,
    shortPaymentTerms, latePaymentPenalty, missingLiabilityCap, missingMandatoryClause,
    unfavourableGoverningLaw, ipAssignmentRisk, dataProtectionGap, complianceGap, exclusivity,
    nonCompeteBreadth, changeOfControl, noAuditRights, weakSla, currencyExposure, ambiguousScope,
    other].find? (·.value = text)

end RiskType

inductive RiskBand where
  | low | medium | high
  deriving DecidableEq, Repr

def RiskBand.value : RiskBand → String
  | .low => "low"
  | .medium => "medium"
  | .high => "high"

inductive DateType where
  | effectiveDate | executionDate | expirationDate | renewalDate | noticeDeadline | milestone
  | paymentDue | deliveryDate | reviewDate | terminationDate | commencementDate | other
  deriving DecidableEq, Repr

namespace DateType

def value : DateType → String
  | effectiveDate => "effective_date"
  | executionDate => "execution_date"
  | expirationDate => "expiration_date"
  | renewalDate => "renewal_date"
  | noticeDeadline => "notice_deadline"
  | milestone => "milestone"
  | paymentDue => "payment_due"
  | deliveryDate => "delivery_date"
  | reviewDate => "review_date"
  | terminationDate => "termination_date"
  | commencementDate => "commencement_date"
  | other => "other"

def ofValue? (text : String) : Option DateType :=
  [effectiveDate, executionDate, expirationDate, renewalDate, noticeDeadline, milestone, paymentDue,
    deliveryDate, reviewDate, terminationDate, commencementDate, other].find? (·.value = text)

end DateType

/-- Human-review state of an extracted item. -/
inductive ReviewStatus where
  | notRequired | pending | approved | rejected | corrected
  deriving DecidableEq, Repr

inductive EntityType where
  | party | organization | person | vendor | customer | affiliate | guarantor | signatory
  | governmentBody
  deriving DecidableEq, Repr

/-! ## Knowledge graph -/

inductive GraphNodeType where
  | contract | party | vendor | customer | clause | obligation | risk | definition | schedule
  | amendment | renewal
  deriving DecidableEq, Repr

def GraphNodeType.value : GraphNodeType → String
  | .contract => "contract"
  | .party => "party"
  | .vendor => "vendor"
  | .customer => "customer"
  | .clause => "clause"
  | .obligation => "obligation"
  | .risk => "risk"
  | .definition => "definition"
  | .schedule => "schedule"
  | .amendment => "amendment"
  | .renewal => "renewal"

inductive ChunkType where
  | «section» | clause | paragraph | table | list | definition | appendix | signature | footnote
  deriving DecidableEq, Repr

inductive GraphRelation where
  | references | dependsOn | defines | amends | replaces | belongsTo | contains | governedBy
  | assignedTo | renewedBy
  deriving DecidableEq, Repr

/-! ## Alerts -/

inductive ObligationStatus where
  | open | inProgress | fulfilled | breached | waived | unknown
  deriving DecidableEq, Repr

inductive AlertType where
  | contractExpiring | highRisk | missingMandatoryClause | processingFailed | autoRenewalNotice
  | obligationDue | reviewRequired
  deriving DecidableEq, Repr

/-- Weakest first. -/
inductive AlertSeverity where
  | info | low | medium | high | critical
  deriving DecidableEq, Repr

inductive AlertStatus where
  | open | acknowledged | resolved | dismissed
  deriving DecidableEq, Repr

/-! ## Exports and the audit trail -/

inductive ExportStatus where
  | queued | running | completed | failed | expired
  deriving DecidableEq, Repr

inductive AuditAction where
  | create | update | delete | login | loginFailed | logout | upload | download | export | search
  | copilotQuery | jobRetry | jobCancel | jobPause | jobResume | reviewDecision | permissionChange
  | configChange
  deriving DecidableEq, Repr

/-! ## Answers -/

inductive ConfidenceBand where
  | high | medium | low
  deriving DecidableEq, Repr

inductive ChatRole where
  | user | assistant | system
  deriving DecidableEq, Repr

def ChatRole.value : ChatRole → String
  | user => "user"
  | assistant => "assistant"
  | system => "system"

/-! ## Facts about the order -/

theorem ArtifactKind.value_inj {a b : ArtifactKind} : a.value = b.value ↔ a = b := by
  refine ⟨fun h => ?_, congrArg _⟩
  revert h
  cases a <;> cases b <;> decide

theorem GraphNodeType.value_inj {a b : GraphNodeType} : a.value = b.value ↔ a = b := by
  refine ⟨fun h => ?_, congrArg _⟩
  revert h
  cases a <;> cases b <;> decide

end Clear
