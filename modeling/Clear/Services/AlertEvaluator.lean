import Clear.Core.Stdlib
import Clear.Lib.Except
import Clear.Models.Identity
import Clear.Repositories.Contract
import Clear.Repositories.ContractMetadata
import Clear.Repositories.Knowledge
import Mathlib.Data.String.Basic

/-!
# Alert evaluator

`app/services/alert_evaluator.py`: the evaluators answer whether a contract or an obligation is worth
an alert, `AlertEvaluator.run` collects what they answer over the estate and reconciles it with the
stored alerts: raise, refresh, retire, escalate.

An exception is an `Except` error: dates that leave the calendar, and a `clause_types` that cannot be
iterated.
-/

namespace Clear

namespace AlertSeverity

/-- `_LADDER`, weakest first. -/
def ladder : List AlertSeverity := [info, low, medium, high, critical]

/-- The more severe of the two. -/
def atLeast (current floor : AlertSeverity) : AlertSeverity :=
  if ladder.idxOf floor ≤ ladder.idxOf current then current else floor

def promote (current : AlertSeverity) : AlertSeverity :=
  (ladder[min (ladder.idxOf current + 1) (ladder.length - 1)]?).getD current

end AlertSeverity

namespace Alerts

/-! ## Value objects -/

structure ResolvedRule where
  alertType : AlertType
  severity : AlertSeverity
  config : ValueDict
  escalateAfterDays : Option Nat := none
  ruleId : Option Uuid := none

def int (value : Value) (default : Int) : Int := value.toInt?.getD default

/-- A threshold from `config`, tolerant of what an administrator typed. -/
def ResolvedRule.days (rule : ResolvedRule) (key : String) (default : Int) : Int :=
  int (Value.get rule.config key) default

/-- A condition that holds, before it is reconciled against what is stored. -/
structure AlertDraft where
  alertType : AlertType
  severity : AlertSeverity
  projectId : Uuid
  title : String
  message : String
  dedupeKey : String
  contractId : Option Uuid := none
  dueDate : Option Date := none
  details : ValueDict := []

/-- What one sweep did. -/
structure EvaluationOutcome where
  raised : Nat := 0
  refreshed : Nat := 0
  retired : Nat := 0
  escalated : Nat := 0
  contractsExamined : Nat := 0
  obligationsExamined : Nat := 0
  rulesApplied : Nat := 0
  deriving DecidableEq

/-- Best available human label for a document. -/
def contractLabel (contract : ContractRow) : String :=
  match [contract.title, contract.contractNumber, some contract.originalFileName].find?
      fun label => label.any (· ≠ "") with
  | some (some label) => label
  | _ => "Contract " ++ contract.id.str

/-! ## Evaluators -/

section

variable (std : Stdlib)

/-- A contract term ending inside the warning window. -/
def evaluateExpiring (contract : ContractRow) (metadata : ContractMetadata) (rule : ResolvedRule)
    (today : Date) : Option AlertDraft :=
  match metadata.date? .expirationDate with
  | none => none
  | some expiry =>
    let window := rule.days "window_days" 90
    let remaining := (expiry : Int) - today
    if remaining < 0 ∨ window < remaining then none
    else
      let severity :=
        if remaining ≤ rule.days "critical_days" 7 then rule.severity.atLeast .critical
        else if remaining ≤ rule.days "escalate_days" 30 then rule.severity.atLeast .high
        else rule.severity
      let label := contractLabel contract
      some
        { alertType := .contractExpiring
          severity
          projectId := contract.projectId
          contractId := some contract.id
          title :=
            if remaining ≠ 0 then label ++ " expires in " ++ toString remaining ++ " days"
            else label ++ " expires today"
          message := "The term ends on " ++ std.isoformat expiry ++
            ". Decide whether to renew, renegotiate or let it lapse before then."
          dedupeKey := "expiring:" ++ contract.id.str ++ ":" ++ std.isoformat expiry
          dueDate := some expiry
          details :=
            [("days_remaining", .int remaining),
              ("expiration_date", .str (std.isoformat expiry)),
              ("window_days", .int window),
              ("contract_value",
                if (metadata.value .contractValue).isNull then .null
                else .str ((metadata.value .contractValue).text std)),
              ("currency", metadata.value .currency)] }

/-- The notice deadline, and whether it is derived by counting back from the expiry; absent where the
contract has neither date. The subtraction may leave the calendar. -/
def noticeDeadline (metadata : ContractMetadata) (lead : Int) :
    Except Raised (Option (Date × Bool)) :=
  match metadata.date? .noticeDeadline, metadata.date? .expirationDate with
  | some deadline, _ => .ok (some (deadline, false))
  | none, none => .ok none
  | none, some expiry =>
    let noticeDays := int (metadata.value .autoRenewalNoticeDays) lead
    match expiry.addDays? (-noticeDays) with
    | some deadline => .ok (some (deadline, true))
    | none => .error (.other "OverflowError")

def evaluateAutoRenewal (contract : ContractRow) (metadata : ContractMetadata)
    (rule : ResolvedRule) (today : Date) : Except Raised (Option AlertDraft) :=
  if !(metadata.value .autoRenewal).truthy then .ok none
  else
    let lead := rule.days "lead_days" 45
    (noticeDeadline metadata lead).map fun found =>
      found.bind fun (deadline, derived) =>
        let remaining := (deadline : Int) - today
        if remaining < 0 ∨ lead < remaining then none
        else
          let severity :=
            if remaining ≤ rule.days "critical_days" 14 then rule.severity.atLeast .critical
            else rule.severity
          some
            { alertType := .autoRenewalNotice
              severity
              projectId := contract.projectId
              contractId := some contract.id
              title := contractLabel contract ++ " auto-renews unless notice is given by " ++
                std.isoformat deadline
              message :=
                "This contract renews automatically. Notice must be served within " ++
                  toString remaining ++ " days (" ++ std.isoformat deadline ++ ") to stop it." ++
                  if derived then
                    " That date is calculated from the expiry date and the notice period," ++
                      " because no explicit notice deadline was extracted."
                  else ""
              dedupeKey := "renewal:" ++ contract.id.str ++ ":" ++ std.isoformat deadline
              dueDate := some deadline
              details :=
                [("days_remaining", .int remaining),
                  ("notice_deadline", .str (std.isoformat deadline)),
                  ("derived_deadline", .bool derived),
                  ("renewal_term_months", metadata.value .renewalTermMonths)] }

def factorNames (factors : List Value) : List Value :=
  (factors.filterMap fun entry =>
    entry.asDict?.map fun d =>
      .str (((Value.get d "name").or ((Value.get d "type").or entry)).text std)).take 10

def evaluateHighRisk (contract : ContractRow) (metadata : ContractMetadata) (rule : ResolvedRule)
    (_today : Date) : Option AlertDraft :=
  if (metadata.value .riskScore).isNull then none
  else
    let score := int (metadata.value .riskScore) 0
    let cutoff := rule.days "risk_score_cutoff" 67
    if score < cutoff then none
    else
      let severity :=
        if rule.days "critical_score" 85 ≤ score then rule.severity.atLeast .critical
        else rule.severity
      let factors := metadata.list .riskFactors
      some
        { alertType := .highRisk
          severity
          projectId := contract.projectId
          contractId := some contract.id
          title := contractLabel contract ++ " scored " ++ toString score ++ " for risk"
          message := "The overall risk score is " ++ toString score ++ ", at or above the " ++
            toString cutoff ++ " threshold for this project. " ++ toString factors.length ++
            " risk factors were identified."
          dedupeKey := "high_risk:" ++ contract.id.str
          details :=
            [("risk_score", .int score), ("cutoff", .int cutoff),
              ("risk_band", metadata.value .riskBand),
              ("has_unlimited_liability", metadata.value .hasUnlimitedLiability),
              ("risk_factors", .list (factorNames std factors))] }

def texts (value : Value) : Except Raised (List String) :=
  if !value.truthy then .ok []
  else
    match value.iter with
    | some entries => .ok (entries.map (·.text std))
    | none => .error (.other "TypeError")

def missingClauses (metadata : ContractMetadata) (watched : List String) : List String :=
  let missing := (metadata.list .missingMandatoryClauses).map (·.text std)
  if watched.isEmpty then missing
  else missing.filter fun entry => std.lower entry ∈ watched.map std.lower

def evaluateMissingClause (contract : ContractRow) (metadata : ContractMetadata)
    (rule : ResolvedRule) (_today : Date) : Except Raised (Option AlertDraft) :=
  (texts std (Value.get rule.config "clause_types")).map fun watched =>
    let missing := missingClauses std metadata watched
    if (missing.length : Int) < max 1 (rule.days "min_missing" 1) then none
    else
      let sorted := missing.insertionSort (· ≤ ·)
      some
        { alertType := .missingMandatoryClause
          severity := rule.severity
          projectId := contract.projectId
          contractId := some contract.id
          title := contractLabel contract ++ " is missing " ++ toString missing.length ++
            " mandatory clauses"
          message :=
            "These clause types are required by the document profile but were not found: " ++
              ", ".intercalate (sorted.map fun entry =>
                String.ofList (entry.toList.map fun c => if c = '_' then ' ' else c)) ++ "."
          dedupeKey := "missing_clause:" ++ contract.id.str
          details := [("missing_clauses", .ofStrs sorted), ("missing_count", .int missing.length)] }

def evaluateReviewRequired (contract : ContractRow) (rule : ResolvedRule) (_today : Date)
    (pendingClauses : Nat) : Option AlertDraft :=
  let flagged := contract.needsReview || contract.status = .needsReview
  let minimum := max 1 (rule.days "min_items" 1)
  if !flagged ∧ (pendingClauses : Int) < minimum then none
  else
    let reason :=
      if pendingClauses ≠ 0 then toString pendingClauses ++ " clauses are waiting on a reviewer"
      else "extraction confidence fell below the profile's threshold"
    some
      { alertType := .reviewRequired
        severity := rule.severity
        projectId := contract.projectId
        contractId := some contract.id
        title := contractLabel contract ++ " needs review"
        message := "This contract was flagged for human review: " ++ reason ++ "."
        dedupeKey := "review_required:" ++ contract.id.str
        details := [("pending_clauses", .int pendingClauses), ("contract_flagged", .bool flagged)] }

/-- `ObligationStatus.value` of the statuses that are still to be fulfilled. -/
def openStatus? : ObligationStatus → Option String
  | .open => some "open"
  | .inProgress => some "in_progress"
  | _ => none

def evaluateObligation (obligation : Obligation) (contract : ContractRow) (rule : ResolvedRule)
    (today : Date) : Option AlertDraft :=
  match openStatus? obligation.status, obligation.dueDate with
  | some status, some due =>
    let window := rule.days "window_days" 14
    let overdueWindow := rule.days "overdue_days" 30
    let remaining := (due : Int) - today
    if window < remaining ∨ remaining < -overdueWindow then none
    else
      let severity := if remaining < 0 then rule.severity.atLeast .high else rule.severity
      let action := if obligation.action = "" then "An obligation" else obligation.action
      let short := if action.length ≤ 90 then action else Text.take 87 action ++ "..."
      some
        { alertType := .obligationDue
          severity
          projectId := obligation.projectId
          contractId := some obligation.contractId
          title :=
            if remaining < 0 then
              "Obligation " ++ toString remaining.natAbs ++ " days overdue: " ++ short
            else "Obligation due in " ++ toString remaining ++ " days: " ++ short
          message := action ++ "\n\nDue " ++ std.isoformat due ++
            (match obligation.responsibleParty with
              | none | some "" => ""
              | some party => ", owed by " ++ party) ++
            ". Contract: " ++ contractLabel contract ++ "."
          dedupeKey := "obligation:" ++ obligation.id.str ++ ":" ++ std.isoformat due
          dueDate := some due
          details :=
            [("days_remaining", .int remaining), ("overdue", .bool (remaining < 0)),
              ("responsible_party", Value.ofStr? obligation.responsibleParty),
              ("obligation_id", .str obligation.id.str), ("obligation_status", .str status)] }
  | _, _ => none

end

/-! ## The sweep -/

def evaluatedTypes : List AlertType :=
  [.contractExpiring, .autoRenewalNotice, .highRisk, .missingMandatoryClause, .reviewRequired,
    .obligationDue]

/-- The tables that the sweep reads and writes. -/
structure Database where
  rules : AlertRules
  contracts : List ContractRow
  metadata : MetadataTable
  clauses : List ClauseRow
  obligations : List Obligation
  alerts : List Alert

/-- The clock of one sweep: the day it evaluates, the time it writes, and the text of a time. -/
structure Clock where
  today : Date
  now : Timestamp
  isoformat : Timestamp → String
  isoformat_ne : ∀ t, isoformat t ≠ ""

abbrev Rules := List ((Option Uuid × AlertType) × ResolvedRule)

def ResolvedRule.ofRow (row : AlertRule) : ResolvedRule where
  alertType := row.alertType
  severity := row.severity
  config := row.config
  escalateAfterDays := row.escalateAfterDays
  ruleId := some row.id

def loadRules (rules : AlertRules) : Rules :=
  Dict.ofItems <| (rules.rows.filter fun row =>
    row.isEnabled && row.alertType ∈ evaluatedTypes).map fun row => (row.key, .ofRow row)

def ruleFor (rules : Rules) (projectId : Uuid) (alertType : AlertType) : Option ResolvedRule :=
  (rules.lookup (some projectId, alertType)).or (rules.lookup (none, alertType))

/-! ### Collection -/

def pendingClauses (db : Database) (only : Option Uuid) (contractId : Uuid) : Nat :=
  (db.clauses.filter fun clause =>
    clause.reviewStatus = .pending && (only = none || only = some clause.projectId) &&
      clause.contractId = contractId).length

def examined (db : Database) (only : Option Uuid) : List ContractRow :=
  db.contracts.filter fun contract =>
    contract.deletedAt.isNone && contract.status ∉ [.archived, .failed] &&
      (only = none || only = some contract.projectId)

abbrev Evaluator :=
  ContractRow → ContractMetadata → ResolvedRule → Date → Except Raised (Option AlertDraft)

def evaluators (std : Stdlib) : List (AlertType × Evaluator) :=
  [(.contractExpiring, fun c m r today => .ok (evaluateExpiring std c m r today)),
    (.autoRenewalNotice, evaluateAutoRenewal std),
    (.highRisk, fun c m r today => .ok (evaluateHighRisk std c m r today)),
    (.missingMandatoryClause, evaluateMissingClause std)]

def evaluate (rules : Rules) (today : Date) (contract : ContractRow)
    (metadata : Option ContractMetadata) (entry : AlertType × Evaluator) :
    Except Raised (Option AlertDraft) :=
  match ruleFor rules contract.projectId entry.1, metadata with
  | some rule, some metadata => entry.2 contract metadata rule today
  | _, _ => .ok none

def contractDrafts (std : Stdlib) (db : Database) (rules : Rules) (today : Date)
    (only : Option Uuid) (contract : ContractRow) : Except Raised (List AlertDraft) :=
  ((evaluators std).mapM
      (evaluate rules today contract (db.metadata.getForContract contract.id))).map fun found =>
    (found ++ [(ruleFor rules contract.projectId .reviewRequired).bind fun rule =>
      evaluateReviewRequired contract rule today (pendingClauses db only contract.id)]).reduceOption

def thresholds (rules : Rules) (key : String) (default : Int) : List Int :=
  (rules.filter fun e => e.1.2 = .obligationDue).map fun e => e.2.days key default

/-- The obligations that may fall due within the widest window of all rules, with their contracts.
The window may leave the calendar. -/
def dueObligations (db : Database) (rules : Rules) (today : Date) (only : Option Uuid) :
    Except Raised (List (Obligation × ContractRow)) :=
  match (thresholds rules "window_days" 14).max?, (thresholds rules "overdue_days" 30).max? with
  | some window, some overdue =>
    match today.addDays? window, today.addDays? (-overdue) with
    | some last, some first =>
      .ok <| db.obligations.flatMap fun obligation =>
        (db.contracts.filter fun contract =>
          contract.id = obligation.contractId && contract.deletedAt.isNone &&
            (obligation.dueDate.any fun due => first ≤ due && due ≤ last) &&
            obligation.status ∈ [.open, .inProgress] &&
            (only = none || only = some obligation.projectId)).map (obligation, ·)
    | _, _ => .error (.other "OverflowError")
  | _, _ => .ok []

def obligationDraft (std : Stdlib) (rules : Rules) (today : Date) (row : Obligation × ContractRow) :
    Option AlertDraft :=
  (ruleFor rules row.1.projectId .obligationDue).bind fun rule =>
    evaluateObligation std row.1 row.2 rule today

def collect (std : Stdlib) (db : Database) (rules : Rules) (today : Date) (only : Option Uuid) :
    Except Raised (List AlertDraft) := do
  let drafts ← (examined db only).mapM (contractDrafts std db rules today only)
  let due ← dueObligations db rules today only
  return drafts.flatten ++ due.filterMap (obligationDraft std rules today)

/-! ### Reconciliation -/

def merge (details updates : ValueDict) : ValueDict :=
  updates.foldl (fun d e => Dict.assign d e.1 e.2) details

def inSweep (only : Option Uuid) (a : Alert) : Bool :=
  a.isLive && a.alertType ∈ evaluatedTypes && (only = none || only = some a.projectId)

def escalatedBefore (a : Alert) : Bool := (Value.get a.details "escalated_at").truthy

/-- The severity of a condition that still holds: the rule's, with the ageing bump on top. -/
def refreshedSeverity (a : Alert) (draft : AlertDraft) : AlertSeverity :=
  if escalatedBefore a then draft.severity.promote else draft.severity

def refresh (clock : Clock) (draft : AlertDraft) (a : Alert) : Alert :=
  { a with
    severity := refreshedSeverity a draft
    title := Text.take 255 draft.title
    message := draft.message
    dueDate := draft.dueDate
    details := merge (merge a.details draft.details)
      [("last_evaluated_at", .str (clock.isoformat clock.now))] }

def changedBy (draft : AlertDraft) (a : Alert) : Bool :=
  a.severity ≠ refreshedSeverity a draft || a.title ≠ Text.take 255 draft.title ||
    a.message ≠ draft.message || a.dueDate ≠ draft.dueDate

def toRow (clock : Clock) (rules : Rules) (id : Uuid) (draft : AlertDraft) : Alert where
  id
  projectId := draft.projectId
  contractId := draft.contractId
  alertType := draft.alertType
  severity := draft.severity
  status := .open
  title := Text.take 255 draft.title
  message := draft.message
  details := merge draft.details
    [("source", .str "evaluator"), ("first_seen_at", .str (clock.isoformat clock.now))]
  dueDate := draft.dueDate
  dedupeKey := Text.take 255 draft.dedupeKey
  ruleId := (ruleFor rules draft.projectId draft.alertType).bind (·.ruleId)
  createdAt := clock.now

/-- The rows a sweep works on, those it adds and what it counts. -/
structure Progress where
  existing : List Alert
  added : List Alert := []
  refreshed : Nat := 0

/-- Raise or refresh the alert of one draft. `ids` are the ids of the new rows; `byKey` is the last
row of a key among those that were loaded. -/
def reconcileDraft (clock : Clock) (rules : Rules) (ids : Nat → Uuid)
    (byKey : String → Option Uuid) (p : Progress) (draft : AlertDraft) : Progress :=
  match byKey draft.dedupeKey with
  | none => { p with added := p.added ++ [toRow clock rules (ids p.added.length) draft] }
  | some id =>
    { p with
      existing := p.existing.map fun a => if a.id = id then refresh clock draft a else a
      refreshed := p.refreshed +
        (p.existing.filter fun a => a.id = id && changedBy draft a).length }

def retires (rules : Rules) (seen : List String) (a : Alert) : Bool :=
  a.dedupeKey ∉ seen && (ruleFor rules a.projectId a.alertType).isSome

def retire (clock : Clock) (a : Alert) : Alert :=
  { a with
    status := .resolved
    resolvedAt := some clock.now
    details := merge a.details
      [("resolved_by", .str "evaluator"),
        ("resolved_reason", .str "The condition that raised this alert no longer holds.")] }

def ageDays (clock : Clock) (a : Alert) : Int :=
  ((clock.now : Int) - a.createdAt) / 86400000000

def escalates (clock : Clock) (rules : Rules) (seen : List String) (a : Alert) : Bool :=
  a.dedupeKey ∈ seen && a.status = .open && !escalatedBefore a &&
    ((ruleFor rules a.projectId a.alertType).bind (·.escalateAfterDays)).any fun days =>
      days ≠ 0 && (days : Int) ≤ ageDays clock a

def escalate (clock : Clock) (a : Alert) : Alert :=
  { a with
    severity := a.severity.promote
    details := merge a.details [("escalated_at", .str (clock.isoformat clock.now))] }

def UniqueKeys (alerts : List Alert) : Prop :=
  (alerts.map (·.id)).Nodup ∧ ((alerts.filter (·.status = .open)).map (·.dedupeKey)).Nodup

instance (alerts : List Alert) : Decidable (UniqueKeys alerts) :=
  inferInstanceAs (Decidable (_ ∧ _))

/-- The rows after the sweep, and what it counts. -/
structure Reconciled where
  alerts : List Alert
  outcome : EvaluationOutcome

/-- Raise, refresh, retire, escalate - against what is already stored. -/
def reconcile (clock : Clock) (rules : Rules) (ids : Nat → Uuid) (only : Option Uuid)
    (alerts : List Alert) (drafts : List AlertDraft) : Reconciled :=
  let existing := alerts.filter (inSweep only)
  let byKey key := (existing.reverse.find? (·.dedupeKey = key)).map (·.id)
  let seen := drafts.map (·.dedupeKey)
  let p := drafts.foldl (reconcileDraft clock rules ids byKey) { existing }
  let retired := p.existing.filter (retires rules seen)
  let kept := p.existing.map fun a => if retires rules seen a then retire clock a else a
  let escalated := kept.filter (escalates clock rules seen)
  let settled := kept.map fun a => if escalates clock rules seen a then escalate clock a else a
  { alerts := (alerts.map fun a => (settled.find? (·.id = a.id)).getD a) ++ p.added
    outcome :=
      { raised := p.added.length
        refreshed := p.refreshed
        retired := retired.length
        escalated := escalated.length } }

/-- One pass over the estate, or over one project. The flush checks the unique indexes. -/
def run (std : Stdlib) (clock : Clock) (ids : Nat → Uuid) (only : Option Uuid) (db : Database) :
    Except Raised (Database × EvaluationOutcome) :=
  let rules := loadRules db.rules
  if rules.isEmpty then .ok (db, {})
  else do
    let drafts ← collect std db rules clock.today only
    let due ← dueObligations db rules clock.today only
    let reconciled := reconcile clock rules ids only db.alerts drafts
    if UniqueKeys reconciled.alerts then
      return ({ db with alerts := reconciled.alerts },
        { reconciled.outcome with
          rulesApplied := rules.length
          contractsExamined := (examined db only).length
          obligationsExamined := due.length })
    else throw (.other "IntegrityError")

end Alerts

end Clear
