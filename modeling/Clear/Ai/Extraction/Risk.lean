import Clear.Ai.Extraction.Engine

/-!
# Risk assessment

`RiskAssessor.assess` (`app/ai/extraction/risk.py`): the omissions among the mandatory clauses, the
findings of the clause rules, the risks that the model named, the score and its band. The rules of
one clause and the score, which is computed in floating point, are parameters.
-/

namespace Clear

structure RiskFinding where
  riskType : String
  severity : RiskSeverity
  description : String
  recommendation : Option String := none
  clauseType : Option String := none
  category : Option String := none
  isOmission : Bool := false

structure ClauseFinding where
  riskType : RiskType
  severity : RiskSeverity
  description : String
  recommendation : Option String := none
  category : Option String := none

structure RiskRules where
  /-- The handler of the clause's type, `[]` when it raises. -/
  handler : ExtractedClause → List ClauseFinding
  /-- `_score`: the score and its breakdown. -/
  score : List ExtractedRisk → Int × List ValueDict

/-- Derives risks and the 0-100 score from extracted clauses. -/
structure RiskAssessor where
  mandatory : List String
  weights : ValueDict
  lowMax : Int
  mediumMax : Int
  rules : RiskRules

/-- Carve-outs that convert a capped contract into unlimited exposure for the matters they name. -/
def materialCarveOuts : List String :=
  [LiabilityCarveOut.ipInfringement, .confidentialityBreach, .grossNegligence, .wilfulMisconduct,
    .dataProtectionBreach, .indemnificationObligations, .breachOfLaw].map (·.value)

def severityOr (value : Value) (default : RiskSeverity) : RiskSeverity :=
  match value with
  | .str s => (RiskSeverity.ofValue? s).getD default
  | _ => default

def spaced (key : String) : String :=
  String.ofList (key.toList.map fun c => if c = '_' then ' ' else c)

namespace RiskAssessor

def severityForMissing (a : RiskAssessor) (clauseKey : String) : RiskSeverity :=
  if clauseKey = ClauseType.limitationOfLiability.value then
    severityOr (Value.get a.weights RiskType.missingLiabilityCap.value) .high
  else severityOr (Value.get a.weights RiskType.missingMandatoryClause.value) .high

def omission (a : RiskAssessor) (key : String) : RiskFinding where
  riskType :=
    if key = ClauseType.limitationOfLiability.value then RiskType.missingLiabilityCap.value
    else RiskType.missingMandatoryClause.value
  severity := a.severityForMissing key
  description := "The agreement contains no " ++ spaced key ++
    " clause, which this document type requires."
  recommendation := some ("Confirm the omission is deliberate; otherwise negotiate a " ++ spaced key ++
    " clause before signature.")
  clauseType := some key
  category := some "omission"
  isOmission := true

def missingMandatory (a : RiskAssessor) (found : List String) : List RiskFinding :=
  (a.mandatory.filter (!found.contains ·)).map a.omission

def fromClause (a : RiskAssessor) (clause : ExtractedClause) : List RiskFinding :=
  (a.rules.handler clause).map fun finding =>
    { riskType := finding.riskType.value
      severity := finding.severity
      description := finding.description
      recommendation := finding.recommendation
      clauseType := some clause.clauseType
      category := finding.category }

def maxSingleContribution : Nat := 40

def contribution (severity : RiskSeverity) : Nat := min severity.weight maxSingleContribution

def toRisk (finding : RiskFinding) : ExtractedRisk where
  riskType := finding.riskType
  severity := finding.severity
  description := finding.description
  recommendation := finding.recommendation
  category := finding.category
  isOmission := finding.isOmission
  clauseType := finding.clauseType
  scoreContribution := contribution finding.severity
  confidence := if finding.isOmission then 1 else 95 / 100

def mergeRisk (risks : List ExtractedRisk) (risk : ExtractedRisk) : List ExtractedRisk :=
  if risks.any fun r => r.riskType = risk.riskType && r.clauseType = risk.clauseType then risks
  else risks ++ [{ risk with scoreContribution := contribution risk.severity }]

def band (a : RiskAssessor) (score : Int) : RiskBand :=
  if a.mediumMax < score then .high else if a.lowMax < score then .medium else .low

/-- `_has_unlimited_liability`; carve-outs that cannot be iterated raise a `TypeError`. -/
def hasUnlimitedLiability (std : Stdlib) : List ExtractedClause → Except String Bool
  | [] => .ok false
  | clause :: rest =>
    if clause.clauseType ≠ ClauseType.limitationOfLiability.value then
      hasUnlimitedLiability std rest
    else if (Value.get clause.attributes "cap_basis").isStr LiabilityCapBasis.uncapped.value then
      .ok true
    else
      match ((Value.get clause.attributes "carve_outs").or (.list [])).iter with
      | none => .error "TypeError"
      | some items =>
        if items.any fun item => materialCarveOuts.contains (item.text std) then .ok true
        else hasUnlimitedLiability std rest

def assess (a : RiskAssessor) (std : Stdlib) (clauses : List ExtractedClause)
    (modelRisks : List ExtractedRisk) : Except String RiskAssessment :=
  let found := clauses.map (·.clauseType)
  let findings := a.missingMandatory found ++ clauses.flatMap a.fromClause
  let risks := modelRisks.foldl mergeRisk (findings.map toRisk)
  let (score, breakdown) := a.rules.score risks
  (hasUnlimitedLiability std clauses).map fun unlimited =>
    { score
      band := a.band score
      risks
      missingMandatory := a.mandatory.filter (!found.contains ·)
      breakdown
      hasUnlimitedLiability := unlimited }

end RiskAssessor

end Clear
