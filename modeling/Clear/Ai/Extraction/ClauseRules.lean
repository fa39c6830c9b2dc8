import Clear.Ai.Extraction.Risk

/-!
# The risk rules of the clause categories

The handlers of `RiskAssessor._from_clause` (`app/ai/extraction/risk.py`), one for each clause
category that has rules. A handler reads the attributes of a clause as the model left them and may
raise; then the clause has no findings.
-/

/-!
## The risk score

`RiskAssessor._score` (`app/ai/extraction/risk.py`): each risk consumes its contribution of the
remaining headroom, the highest first; the consumed part is rounded, and raised to the floor of the
worst severity. Floating-point numbers are exact rationals.
-/

namespace Clear

namespace RiskAssessor

def scoreLe (r s : ExtractedRisk) : Bool :=
  s.scoreContribution < r.scoreContribution ||
    (r.scoreContribution = s.scoreContribution &&
      (r.riskType < s.riskType || (r.riskType = s.riskType && r.description ≤ s.description)))

def ordered (risks : List ExtractedRisk) : List ExtractedRisk := risks.mergeSort scoreLe

def share (risk : ExtractedRisk) : Rat := risk.scoreContribution / 100

def applied (risks : List ExtractedRisk) : List Rat :=
  Headroom.taken 100 ((ordered risks).map share)

def riskEntry (risk : ExtractedRisk) (applied : Rat) : ValueDict :=
  [("risk_type", .str risk.riskType), ("severity", .str risk.severity.value),
    ("clause_type", .ofStr? risk.clauseType), ("weight", .int risk.scoreContribution),
    ("applied", .float (Rounding.toDigits 2 applied)), ("is_omission", .bool risk.isOmission),
    ("description", .str (String.ofList (risk.description.toList.take 200)))]

/-- `_severity_floor`: the minimum score the worst single finding justifies. -/
def severityFloor (lowMax mediumMax : Int) (risks : List ExtractedRisk) : Int × String :=
  if risks.any (·.severity = .critical) then (mediumMax + 1, RiskSeverity.critical.value)
  else if risks.any (·.severity = .high) then (lowMax + 1, RiskSeverity.high.value)
  else (0, "")

def bandOf (lowMax mediumMax score : Int) : RiskBand :=
  if mediumMax < score then .high else if lowMax < score then .medium else .low

def floorEntry (lowMax mediumMax score floor : Int) (reason : String) : ValueDict :=
  [("risk_type", .str "severity_floor"), ("severity", .str reason), ("clause_type", .null),
    ("weight", .int 0), ("applied", .float (Rounding.toDigits 2 (floor - score : Int))),
    ("is_omission", .bool false),
    ("description", .str ("Raised from " ++ toString score ++ " to " ++ toString floor ++ ": a " ++
      reason ++ " finding places this contract in the " ++
      (bandOf lowMax mediumMax floor).value ++ " band on its own."))]

def saturated (risks : List ExtractedRisk) : Int :=
  min (max (Rounding.halfEven (100 - Headroom.rest 100 ((ordered risks).map share))) 0) 100

/-- `_score`: combine contributions into 0-100. -/
def score (lowMax mediumMax : Int) (risks : List ExtractedRisk) : Int × List ValueDict :=
  let breakdown := (ordered risks).zipWith riskEntry (applied risks)
  let (floor, reason) := severityFloor lowMax mediumMax (ordered risks)
  if saturated risks < floor then
    (floor, breakdown ++ [floorEntry lowMax mediumMax (saturated risks) floor reason])
  else (saturated risks, breakdown)

end RiskAssessor

end Clear

namespace Clear

structure ClauseRules where
  std : Stdlib
  /-- `f"{x:g}"`. -/
  general : Rat → String
  /-- `risk_mapping.weights`. -/
  weights : ValueDict

namespace ClauseRules

def severity (c : ClauseRules) (riskType : RiskType) (default : RiskSeverity) : RiskSeverity :=
  severityOr (Value.get c.weights riskType.value) default

def formatG (c : ClauseRules) (v : Value) : Except String String :=
  match v.toFloat c.std with
  | .ok x => .ok (c.general x)
  | .error _ => .error "int too large to convert to float"

def isOneOf (v : Value) (texts : List String) : Except String Bool :=
  if v.hashable then .ok (texts.any v.isStr) else .error "unhashable type"

def found (holds : Bool) (finding : ClauseFinding) : List ClauseFinding :=
  if holds then [finding] else []

def foundNumber (c : ClauseRules) (v : Value) (p : Rat → Bool) (finding : String → ClauseFinding) :
    Except String (List ClauseFinding) :=
  match v.num? with
  | some x => if p x then (c.formatG v).map fun text => [finding text] else .ok []
  | none => .ok []

/-! ## Limitation of liability -/

/-- The cap does not exist. -/
def uncappedFinding (c : ClauseRules) : ClauseFinding where
  riskType := .unlimitedLiability
  severity := c.severity .unlimitedLiability .critical
  description := "Liability is not capped. Exposure under this agreement is unlimited."
  recommendation := some
    "Negotiate an aggregate cap, conventionally expressed as a multiple of fees paid."
  category := some "liability"

def undeterminedFinding (c : ClauseRules) : ClauseFinding where
  riskType := .missingLiabilityCap
  severity := c.severity .missingLiabilityCap .high
  description := "A limitation of liability clause is present but states no cap, " ++
    "so the extent of the limitation is undetermined."
  recommendation := some "Clarify the cap basis and amount in writing."
  category := some "liability"

def carveOutFinding (material : List String) : ClauseFinding where
  riskType := .unlimitedLiability
  severity := if 3 ≤ material.length then .critical else .high
  description := "The cap does not apply to " ++ ", ".intercalate (material.map spaced) ++
    ". Liability for those matters is unlimited despite the cap."
  recommendation := some
    "Bring the carve-outs inside a super-cap, or accept them explicitly as unlimited exposure."
  category := some "liability"

def unidentifiedFinding : ClauseFinding where
  riskType := .unlimitedLiability
  severity := .medium
  description := "The clause carves matters out of the cap but the carve-outs " ++
    "could not be identified, so the unlimited exposure is unquantified."
  recommendation := some "Review the clause text and record the carve-outs."
  category := some "liability"

def lowCapFinding (multiple : String) : ClauseFinding where
  riskType := .other
  severity := .low
  description := "The cap is " ++ multiple ++ "x fees paid, which leaves little " ++
    "headroom relative to the value of the engagement."
  recommendation := some "Consider whether the cap covers realistic loss."
  category := some "liability"

def oneSidedFinding : ClauseFinding where
  riskType := .other
  severity := .medium
  description := "The limitation of liability is not mutual: it protects one party only."
  recommendation := some "Seek reciprocity in the limitation."
  category := some "liability"

def carveOuts (std : Stdlib) (attributes : ValueDict) : Except String (List String) :=
  match ((Value.get attributes "carve_outs").or (.list [])).iter with
  | none => .error "TypeError"
  | some items => .ok (items.map (Value.text std))

def isUncapped (attributes : ValueDict) : Bool :=
  (Value.get attributes "cap_basis").isStr LiabilityCapBasis.uncapped.value

def lowCapMultiple : Rat := 1

def liabilityRisks (c : ClauseRules) (attributes : ValueDict) :
    Except String (List ClauseFinding) := do
  let basis := Value.get attributes "cap_basis"
  let cap := if isUncapped attributes then [c.uncappedFinding]
    else found (basis.isStr LiabilityCapBasis.notSpecified.value) c.undeterminedFinding
  let carveOuts ← carveOuts c.std attributes
  let material := carveOuts.filter materialCarveOuts.contains
  let carved := if !material.isEmpty then [carveOutFinding material]
    else found ((Value.get attributes "has_carve_outs").truthy && carveOuts.isEmpty)
      unidentifiedFinding
  let low ← c.foundNumber (Value.get attributes "cap_multiple")
    (fun multiple => multiple ≤ lowCapMultiple && !isUncapped attributes) lowCapFinding
  return cap ++ carved ++ low ++
    found (Value.get attributes "is_mutual").isFalse oneSidedFinding

/-! ## The other categories -/

def indemnityRisks (c : ClauseRules) (attributes : ValueDict) :
    Except String (List ClauseFinding) :=
  .ok (found (Value.get attributes "is_capped").isFalse
      { riskType := .uncappedIndemnity
        severity := c.severity .uncappedIndemnity .critical
        description := "The indemnity is not subject to any cap, so it carries " ++
          "unlimited exposure independently of the liability clause."
        recommendation := some
          "Bring the indemnity within the liability cap or give it its own cap."
        category := some "indemnity" } ++
    found ((Value.get attributes "posture").isStr IndemnityPosture.oneSidedAgainstUs.value)
      { riskType := .other
        severity := .high
        description := "The indemnity runs one way only, against us: we indemnify the " ++
          "counterparty without a reciprocal obligation."
        recommendation := some "Seek a mutual indemnity, or narrow the covered claims."
        category := some "indemnity" })

def tightNoticeDays : Rat := 30

/-- How the description of a renewal speaks of its notice. -/
def noticeClause (c : ClauseRules) (notice : Value) : Except String String :=
  match notice.num? with
  | some days => (c.formatG notice).map fun text =>
    if days < tightNoticeDays then
      ", and notice to prevent renewal must be given " ++ text ++
        " days in advance - a window short enough to pass unnoticed."
    else ", with " ++ text ++ " days' notice required to prevent it."
  | none => .ok ", and the notice period could not be determined."

def renewalRisks (c : ClauseRules) (attributes : ValueDict) :
    Except String (List ClauseFinding) :=
  let notice := Value.get attributes "renewal_notice_days"
  let tight := match notice.num? with
    | some days => decide (days < tightNoticeDays)
    | none => false
  if (Value.get attributes "auto_renews").truthy then
    (c.noticeClause notice).map fun text =>
      [{ riskType := .autoRenewal
         severity := c.severity .autoRenewal (if tight then .high else .medium)
         description := "The agreement renews automatically" ++ text
         recommendation := some
           "Diarise the notice deadline; an alert should be configured well before it."
         category := some "term" }]
  else .ok []

def tightPaymentDays : Rat := 15

def paymentRisks (c : ClauseRules) (attributes : ValueDict) :
    Except String (List ClauseFinding) := do
  let short ← c.foundNumber (Value.get attributes "payment_days")
    (fun days => 0 < days && days ≤ tightPaymentDays) fun text =>
      { riskType := .shortPaymentTerms
        severity := c.severity .shortPaymentTerms .medium
        description := "Payment falls due within " ++ text ++ " days, which is short for a " ++
          "commercial agreement and tight against normal invoicing cycles."
        recommendation := some "Confirm the term is operationally achievable."
        category := some "financial" }
  let late ← c.foundNumber (Value.get attributes "late_fee_percent") (fun fee => 0 < fee) fun text =>
      { riskType := .latePaymentPenalty
        severity := c.severity .latePaymentPenalty .low
        description := "Late payment attracts a charge of " ++ text ++ "%."
        recommendation := some "Ensure invoice approval cycles fit the payment term."
        category := some "financial" }
  return short ++ late

def terminationRisks (c : ClauseRules) (attributes : ValueDict) :
    Except String (List ClauseFinding) := do
  let terminating := Value.get attributes "terminating_side"
  let oneSided := terminating.isStr PartySide.counterparty ||
    (Value.get attributes "can_we_terminate").isStr PartySide.neither
  let unilateral := found (!(Value.get attributes "is_permitted").isFalse && oneSided)
    { riskType := .unilateralTermination
      severity := c.severity .unilateralTermination .high
      description := "Only the counterparty may terminate for convenience; we are " ++
        "bound for the full term."
      recommendation := some "Seek a reciprocal right to terminate for convenience."
      category := some "term" }
  let notice := Value.get attributes "notice_days"
  -- the side is only looked up in the set when the notice is short
  let theirs ← match notice.num? with
    | some days => if days ≤ tightNoticeDays then
        isOneOf terminating [PartySide.counterparty, PartySide.both] else .ok false
    | none => .ok false
  let broad ← c.foundNumber notice (fun _ => theirs) fun text =>
    { riskType := .broadTerminationRights
      severity := c.severity .broadTerminationRights .medium
      description := "The agreement can be terminated for convenience on " ++ text ++
        " days' notice, giving little certainty of revenue or supply."
      recommendation := some "Negotiate a longer notice period or a minimum term."
      category := some "term" }
  return unilateral ++ broad

def terminationCauseRisks (c : ClauseRules) (attributes : ValueDict) :
    Except String (List ClauseFinding) := do
  let incurable := found (Value.get attributes "is_curable").isFalse
    { riskType := .broadTerminationRights
      severity := .high
      description := "Breach is not curable: the agreement can be terminated for " ++
        "cause with no opportunity to remedy."
      recommendation := some "Negotiate a cure period for remediable breaches."
      category := some "term" }
  let short ← c.foundNumber (Value.get attributes "cure_period_days")
    (fun days => 0 < days && days < 15) fun text =>
      { riskType := .broadTerminationRights
        severity := .medium
        description := "The cure period is only " ++ text ++ " days, which may be too short " ++
          "to remedy a substantive breach."
        recommendation := some "Seek a longer cure period, typically 30 days."
        category := some "term" }
  return incurable ++ short

def ipRisks (c : ClauseRules) (attributes : ValueDict) : Except String (List ClauseFinding) := do
  let lost ← isOneOf (Value.get attributes "we_retain_pre_existing_ip")
    [PartySide.counterparty, PartySide.neither]
  return found lost
      { riskType := .ipAssignmentRisk
        severity := c.severity .ipAssignmentRisk .critical
        description := "The agreement does not preserve our rights in pre-existing " ++
          "intellectual property, so background IP may transfer."
        recommendation := some ("Add an express carve-out retaining all pre-existing and " ++
          "independently developed IP.")
        category := some "ip" } ++
    found ((Value.get attributes "work_product_owner_side").isStr PartySide.counterparty)
      { riskType := .ipAssignmentRisk
        severity := .high
        description := "Work product created under this agreement is owned by the counterparty."
        recommendation := some ("Confirm this is the commercial intent, and secure a licence " ++
          "back for anything we need to reuse.")
        category := some "ip" }

def governingLawRisks (attributes : ValueDict) : Except String (List ClauseFinding) :=
  .ok (found (!(Value.get attributes "governing_law").truthy &&
      !(Value.get attributes "country").truthy)
    { riskType := .unfavourableGoverningLaw
      severity := .medium
      description := "A governing law clause is present but does not name a " ++
        "jurisdiction, leaving the applicable law unsettled."
      recommendation := some "Specify the governing law expressly."
      category := some "legal" })

def exclusivityRisks (c : ClauseRules) (attributes : ValueDict) :
    Except String (List ClauseFinding) :=
  (isOneOf (Value.get attributes "bound_side")
    [PartySide.ourOrganisation, PartySide.both]).map fun bound => found bound
      { riskType := .exclusivity
        severity := c.severity .exclusivity .high
        description := "We are bound by an exclusivity obligation, restricting who we " ++
          "may deal with for its scope and duration."
        recommendation := some
          "Confirm the scope and term are commercially justified and narrowly drawn."
        category := some "commercial" }

def assignmentRisks (c : ClauseRules) (attributes : ValueDict) :
    Except String (List ClauseFinding) :=
  .ok (found ((Value.get attributes "consent_required_on_change_of_control").truthy ||
      (Value.get attributes "change_of_control_permits_termination").truthy)
    { riskType := .changeOfControl
      severity := c.severity .changeOfControl .medium
      description := "A change of control affects this agreement, so a corporate " ++
        "transaction could require consent or trigger termination."
      recommendation := some "Flag to corporate development ahead of any transaction."
      category := some "legal" })

def auditRisks (c : ClauseRules) (attributes : ValueDict) : Except String (List ClauseFinding) :=
  .ok (found (Value.get attributes "has_audit_rights").isFalse
      { riskType := .noAuditRights
        severity := c.severity .noAuditRights .low
        description := "An audit rights clause is present but grants no right of audit, " ++
          "so compliance cannot be verified."
        recommendation := some "Negotiate a right to audit against the obligations owed."
        category := some "compliance" } ++
    found ((Value.get attributes "notice_days").num?.any (· ≤ 0))
      { riskType := .other
        severity := .medium
        description := "Audits may be conducted without advance notice, which is " ++
          "operationally disruptive."
        recommendation := some "Negotiate a reasonable notice period for audits."
        category := some "compliance" })

def forceMajeureRisks (attributes : ValueDict) : Except String (List ClauseFinding) :=
  .ok (found (Value.get attributes "excuses_payment").isTrue
      { riskType := .other
        severity := .high
        description := "Force majeure excuses payment obligations, so revenue can be " ++
          "suspended by an event outside either party's control."
        recommendation := some "Carve payment obligations out of force majeure."
        category := some "financial" } ++
    found (Value.get attributes "covers_pandemic").isFalse
      { riskType := .other
        severity := .low
        description := "The force majeure clause does not cover epidemic or pandemic events."
        recommendation := some "Consider adding express pandemic coverage."
        category := some "operational" })

def nonSolicitRisks (c : ClauseRules) (attributes : ValueDict) :
    Except String (List ClauseFinding) :=
  c.foundNumber (Value.get attributes "duration_months")
    (fun months => 24 < months &&
      !(Value.get attributes "bound_side").isStr PartySide.counterparty) fun text =>
    { riskType := .nonCompeteBreadth
      severity := c.severity .nonCompeteBreadth .medium
      description := "The non-solicitation obligation runs for " ++ text ++ " months, " ++
        "which is long and may be unenforceable in some jurisdictions."
      recommendation := some "Consider shortening the restricted period."
      category := some "commercial" }

/-! ## Dispatch -/

def handlers (c : ClauseRules) :
    List (String × (ValueDict → Except String (List ClauseFinding))) :=
  [(ClauseType.limitationOfLiability.value, c.liabilityRisks),
    (ClauseType.indemnification.value, c.indemnityRisks),
    (ClauseType.autoRenewal.value, c.renewalRisks),
    (ClauseType.paymentTerms.value, c.paymentRisks),
    (ClauseType.terminationForConvenience.value, c.terminationRisks),
    (ClauseType.terminationForCause.value, c.terminationCauseRisks),
    (ClauseType.intellectualProperty.value, c.ipRisks),
    (ClauseType.governingLaw.value, governingLawRisks),
    (ClauseType.exclusivity.value, c.exclusivityRisks),
    (ClauseType.assignment.value, c.assignmentRisks),
    (ClauseType.auditRights.value, c.auditRisks),
    (ClauseType.forceMajeure.value, forceMajeureRisks),
    (ClauseType.nonSolicitation.value, c.nonSolicitRisks)]

def findings (c : ClauseRules) (clause : ExtractedClause) : List ClauseFinding :=
  match c.handlers.lookup clause.clauseType with
  | none => []
  | some handler =>
    match handler clause.attributes with
    | .ok findings => findings
    | .error _ => []

end ClauseRules

def RiskAssessor.build (std : Stdlib) (general : Rat → String) (mandatory : List String)
    (weights : ValueDict) (lowMax mediumMax : Int) : RiskAssessor where
  mandatory := mandatory
  weights := weights
  lowMax := lowMax
  mediumMax := mediumMax
  rules :=
    { handler := ({ std, general, weights } : ClauseRules).findings
      score := RiskAssessor.score lowMax mediumMax }

end Clear
