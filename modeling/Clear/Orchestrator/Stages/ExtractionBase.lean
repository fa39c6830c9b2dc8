import Clear.Ai.Extraction.Models
import Clear.Repositories.ContractMetadata

/-!
# The extraction stage: the metadata projection

`ExtractionStageBase._update_metadata` (`app/orchestrator/stages/extraction_base.py`): the columns of
`contract_metadata` that the stage owns, each computed from the extraction result, and the upsert
that writes those that have a value.
-/

namespace Clear

structure ExtractionCounts where
  clauses : Nat
  obligations : Nat
  risks : Nat

def MetadataColumn.projected : List MetadataColumn :=
  [.effectiveDate, .executionDate, .expirationDate, .noticeDeadline, .termMonths, .governingLaw,
    .jurisdiction, .country, .language, .currency, .contractValue, .paymentTermsDays, .partyA,
    .partyB, .riskScore, .riskBand, .riskLevel, .riskFactors, .autoRenewal,
    .autoRenewalNoticeDays, .renewalTermMonths, .missingMandatoryClauses, .hasUnlimitedLiability,
    .hasLiabilityCap, .liabilityCapAmount, .hasTerminationForConvenience,
    .hasDataProtectionClause, .terminationNoticeDays, .clauseCount, .obligationCount, .riskCount,
    .highRiskCount, .summary, .keyTopics, .extra]

namespace ExtractionResult

def attributesOf (r : ExtractionResult) (clauseType : ClauseType) : ValueDict :=
  match r.clauseByType clauseType.value with
  | none => []
  | some clause => clause.attributes

def noticeDeadline (r : ExtractionResult) : Option Date :=
  ((r.keyDates.filter (·.dateType = .noticeDeadline)).filterMap (·.dateValue)).min?

/-- `_ip_answer`: whether we retain rights in pre-existing IP. -/
def ipAnswer (toStr : Value → String) (r : ExtractionResult) : String :=
  match r.clauseByType ClauseType.intellectualProperty.value with
  | none => PartySide.unknown
  | some clause =>
    toStr ((Value.get clause.attributes "we_retain_pre_existing_ip").or (.str PartySide.unknown))

def capBasis (r : ExtractionResult) : Value :=
  Value.get (r.attributesOf .limitationOfLiability) "cap_basis"

/-- `has_liability_cap`. The set that it is looked up in needs its hash. -/
def hasLiabilityCap (r : ExtractionResult) : Except Raised Bool :=
  match r.clauseByType ClauseType.limitationOfLiability.value with
  | none => .ok false
  | some _ =>
    if r.capBasis.hashable then
      .ok !(r.capBasis.isNull || r.capBasis.isStr LiabilityCapBasis.uncapped.value ||
        r.capBasis.isStr LiabilityCapBasis.notSpecified.value)
    else .error (.other "TypeError")

def hasTerminationForConvenience (r : ExtractionResult) : Bool :=
  (r.clauseByType ClauseType.terminationForConvenience.value).isSome &&
    !(Value.get (r.attributesOf .terminationForConvenience) "is_permitted").isFalse

/-- `extra`: answers kept where the UI can read them. -/
def extra (toStr : Value → String) (r : ExtractionResult) : ValueDict :=
  let termination := r.attributesOf .terminationForConvenience
  let liability := r.attributesOf .limitationOfLiability
  [("can_we_terminate",
      (Value.get termination "can_we_terminate").or (.str PartySide.unknown)),
    ("we_retain_pre_existing_ip", .str (r.ipAnswer toStr)),
    ("liability_cap_basis", r.capBasis),
    ("liability_cap_multiple", Value.get liability "cap_multiple"),
    ("liability_carve_outs", (Value.get liability "carve_outs").or (.list [])),
    ("dispute_resolution", .ofStr? r.facts.disputeResolution),
    ("review_reasons", .ofStrs r.reviewReasons),
    ("extraction_categories", .list (r.outcomes.map CategoryOutcome.asDict))]

end ExtractionResult

/-- What the projection depends on besides the result: the language of the contract, the counts,
Python's `str` and whether a liability cap was found. -/
structure Projection where
  toStr : Value → String
  language : Option String
  counts : ExtractionCounts

namespace Projection

def date (d : Option Date) : Option Cell := d.map .date

def always (v : Value) : Option Cell := some (.value v)

def value (p : Projection) (r : ExtractionResult) (hasCap : Bool) :
    MetadataColumn → Option Cell
  | .effectiveDate => date r.facts.effectiveDate
  | .executionDate => date r.facts.executionDate
  | .expirationDate => date r.facts.expirationDate
  | .noticeDeadline => date r.noticeDeadline
  | .termMonths => Cell.ofValue? (.ofInt? r.facts.termMonths)
  | .governingLaw =>
    Cell.ofValue? ((Value.ofStr? r.facts.governingLaw).or
      (.get (r.attributesOf .governingLaw) "governing_law"))
  | .jurisdiction =>
    Cell.ofValue? ((Value.ofStr? r.facts.jurisdiction).or
      (.get (r.attributesOf .governingLaw) "jurisdiction"))
  | .country => Cell.ofValue? (.get (r.attributesOf .governingLaw) "country")
  | .language => Cell.ofValue? (.ofStr? p.language)
  | .currency => Cell.ofValue? (.ofStr? r.facts.currency)
  | .contractValue => r.facts.contractValue.map fun x => .value (.float x)
  | .paymentTermsDays =>
    Cell.ofValue? ((Value.ofInt? r.facts.paymentTermsDays).or
      (.get (r.attributesOf .paymentTerms) "payment_days"))
  | .partyA => Cell.ofValue? (.ofStr? r.facts.partyA)
  | .partyB => Cell.ofValue? (.ofStr? r.facts.partyB)
  | .riskScore => always (.int r.assessment.score)
  | .riskBand => always (.str r.assessment.band.value)
  | .riskLevel => always (.str r.assessment.band.value)
  | .riskFactors => always (.list (r.assessment.breakdown.map .dict))
  | .autoRenewal => Cell.ofValue? (.get (r.attributesOf .autoRenewal) "auto_renews")
  | .autoRenewalNoticeDays =>
    Cell.ofValue? (.get (r.attributesOf .autoRenewal) "renewal_notice_days")
  | .renewalTermMonths => Cell.ofValue? (.get (r.attributesOf .autoRenewal) "renewal_term_months")
  | .missingMandatoryClauses => always (.ofStrs r.assessment.missingMandatory)
  | .hasUnlimitedLiability => always (.bool r.assessment.hasUnlimitedLiability)
  | .hasLiabilityCap => always (.bool hasCap)
  | .liabilityCapAmount =>
    Cell.ofValue? (.get (r.attributesOf .limitationOfLiability) "cap_amount")
  | .hasTerminationForConvenience => always (.bool r.hasTerminationForConvenience)
  | .hasDataProtectionClause => always (.bool (r.found ClauseType.dataProtection.value))
  | .terminationNoticeDays =>
    Cell.ofValue? (.get (r.attributesOf .terminationForConvenience) "notice_days")
  | .clauseCount => always (.int p.counts.clauses)
  | .obligationCount => always (.int p.counts.obligations)
  | .riskCount => always (.int p.counts.risks)
  | .highRiskCount =>
    always (.int (r.assessment.risks.countP (·.severity ∈ [.critical, .high])))
  | .summary =>
    Cell.ofValue? ((Value.ofStr? r.facts.executiveSummary).or (.ofStr? r.facts.summary))
  | .keyTopics => always (.ofStrs r.facts.keyTopics)
  | .extra => always (.dict (r.extra p.toStr))
  | _ => none

def values (p : Projection) (r : ExtractionResult) (hasCap : Bool) :
    List (MetadataColumn × Cell) :=
  MetadataColumn.projected.filterMap fun c => (p.value r hasCap c).map (c, ·)

def updateMetadata (p : Projection) (bind : MetadataColumn → Cell → Except Raised Cell)
    (contractId projectId : Uuid) (r : ExtractionResult) (t : MetadataTable) :
    Except Raised MetadataTable := do
  let hasCap ← r.hasLiabilityCap
  t.upsert bind contractId projectId (p.values r hasCap)

end Projection

end Clear
