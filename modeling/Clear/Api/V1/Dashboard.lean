import Clear.Repositories.Knowledge
import Clear.Repositories.Listing

/-!
# The dashboard and the list it opens

The tiles of `get_dashboard` (`app/api/v1/admin.py`) and `list_all_contracts` with its query
parameters (`app/api/v1/contracts.py`), over a scope that is already resolved to project ids.
`date.fromisoformat` is a parameter; a date in a query stands for the text `isoformat` gives it.
-/

namespace Clear

namespace Dashboard

/-! ## Query parameters -/

inductive QueryValue where
  | text (s : String)
  | date (d : Date)
  deriving DecidableEq, Repr

abbrev Query := List (String × QueryValue)

inductive RequestError where
  /-- A parameter that FastAPI does not accept. -/
  | unprocessable
  /-- `ValidationError`: no ISO date, or no member of an enumeration. -/
  | invalid
  /-- A model that refuses the values together. -/
  | model
  /-- An `OverflowError` of the date arithmetic. -/
  | overflow
  deriving DecidableEq, Repr

/-- What Python and the database know about texts. -/
structure Texts where
  std : Stdlib
  sql : SqlTexts
  fromisoformat : String → Option Date

namespace Query

variable (texts : Texts) (q : Query) (key : String)

def raw : QueryValue → String
  | .text s => s
  | .date d => texts.std.isoformat d

def values : List QueryValue := (q.filter (·.1 = key)).map (·.2)

def text : Option String := (values q key).getLast?.map (raw texts)

def list : Option (List String) :=
  match values q key with
  | [] => none
  | found => some (found.map (raw texts))

def read {α : Type} (parse : String → Option α) : Except RequestError (Option α) :=
  match text texts q key with
  | none => .ok none
  | some s =>
    match parse s with
    | some v => .ok (some v)
    | none => .error .unprocessable

def parseBool (s : String) : Option Bool :=
  if Text.lower s ∈ ["1", "true", "t", "yes", "y", "on"] then some true
  else if Text.lower s ∈ ["0", "false", "f", "no", "n", "off"] then some false
  else none

def flag : Except RequestError (Option Bool) := read texts q key parseBool

def number (low : Rat) (high : Option Rat) : Except RequestError (Option Rat) :=
  read texts q key fun s => (texts.std.parseFloat s).filter fun x => low ≤ x && high.all (x ≤ ·)

def short (n : Nat) : Except RequestError (Option String) :=
  read texts q key fun s => (some s).filter (·.length ≤ n)

def date : Except RequestError (Option Date) :=
  match (values q key).getLast? with
  | none => .ok none
  | some (.date d) => .ok (some d)
  | some (.text s) =>
    if s = "" then .ok none
    else
      match texts.fromisoformat s with
      | some d => .ok (some d)
      | none => .error .invalid

def enums {α : Type} (parse : String → Option α) : Except RequestError (Option (List α)) :=
  match items? (list texts q key) with
  | none => .ok none
  | some found =>
    match found.mapM parse with
    | some members => .ok (some members)
    | none => .error .invalid
where
  items? (value : Option (List String)) : Option (List String) := value.filter (!·.isEmpty)

end Query

def dateRange (fromDate toDate : Option Date) : Except RequestError DateRange :=
  if ordered : (fromDate.all fun a => toDate.all (a ≤ ·)) = true then
    .ok { fromDate, toDate, ordered }
  else .error .model

def numberRange (min max : Option Rat) : Except RequestError (Option NumberRange) :=
  if min.isSome || max.isSome then
    if ordered : (min.all fun a => max.all (a ≤ ·)) = true then .ok (some { min, max, ordered })
    else .error .model
  else .ok none

def contractStatuses : List (String × ContractStatus) :=
  [("uploaded", .uploaded), ("processing", .processing), ("ready", .ready), ("failed", .failed),
    ("needs_review", .needsReview), ("archived", .archived),
    ("conversion_failed", .conversionFailed)]

def riskBands : List RiskBand := [.low, .medium, .high]

/-- `_filters_from_query`. Parameters that it does not name are dropped. -/
def filtersFromQuery (texts : Texts) (q : Query) : Except RequestError ContractFilterParams := do
  let text := q.text texts
  let search ← q.short texts "search" 300
  let fileType ← q.read texts "file_type" fun s =>
    if s = "pdf" ∨ s = "docx" then FileType.ofValue? s else none
  let expiringWithinDays ← q.read texts "expiring_within_days" fun s =>
    ((Text.toInt? s).filter fun n => 0 ≤ n && n ≤ 3650).map Int.toNat
  let scoreMin ← q.number texts "risk_score_min" 0 (some 100)
  let scoreMax ← q.number texts "risk_score_max" 0 (some 100)
  let valueMin ← q.number texts "value_min" 0 none
  let valueMax ← q.number texts "value_max" 0 none
  let currency ← q.short texts "currency" 8
  let autoRenewal ← q.flag texts "auto_renewal"
  let hasUnlimitedLiability ← q.flag texts "has_unlimited_liability"
  let missingMandatory ← q.flag texts "missing_mandatory"
  let needsReview ← q.flag texts "needs_review"
  let uploadedBy ← q.read texts "uploaded_by" Uuid.parse?
  let effective ← dateRange (← q.date texts "effective_from") (← q.date texts "effective_to")
  let expiry ← dateRange (← q.date texts "expiry_from") (← q.date texts "expiry_to")
  let status ← q.enums texts "status" fun s => contractStatuses.lookup s
  let riskBand ← q.enums texts "risk_band" fun s => riskBands.find? (·.value = s)
  let riskScore ← numberRange scoreMin scoreMax
  let contractValue ← numberRange valueMin valueMax
  let effectiveDate := (some effective).filter (·.isSet)
  let expirationDate := (some expiry).filter (·.isSet)
  if exclusive : (expiringWithinDays.isNone || expirationDate.isNone) = true then
    return {
      search, status, fileType, effectiveDate, expirationDate, expiringWithinDays, riskBand,
      riskScore, contractValue, currency, autoRenewal, hasUnlimitedLiability, missingMandatory,
      needsReview, uploadedBy, exclusive
      agreementType := q.list texts "agreement_type"
      party := text "party"
      vendor := text "vendor"
      customer := text "customer"
      contractNumber := text "contract_number"
      governingLaw := text "governing_law"
      country := text "country"
      category := text "category"
      department := text "department"
      owner := text "owner"
      language := text "language"
      missingClauseTypes := q.list texts "missing_clause_types"
      tags := q.list texts "tags" }
  else .error .model

/-! ## The list -/

structure Paging where
  page : Nat := 1
  size : Nat := 25
  sortBy : Option String := none
  sortDir : String := "desc"

def listAllContracts (sql : Sql.Engine ListedContract)
    (collation : ContractRepository.Collation) (texts : Texts) (db : ContractTables)
    (projectIds : List Uuid) (today : Date) (q : Query) (paging : Paging) :
    Except RequestError (List ListedContract × Nat) := do
  let filters ← filtersFromQuery texts q
  if projectIds = [] then return ([], 0)
  match ContractRepository.conditions texts.std texts.sql today filters with
  | none => .error .overflow
  | some conditions =>
    return ContractRepository.paginateFiltered sql collation db projectIds
      (fun r => conditions.all (· r)) paging.page paging.size paging.sortBy paging.sortDir

/-! ## The tiles -/

/-- One headline number, with the filter it links to. -/
structure KpiTile where
  key : String
  label : String
  value : Nat
  drilldown : Option Query := none
  deriving DecidableEq, Repr

def expiringWindowDays : Nat := 90

def expiringSoon (today horizon : Date) (m : ContractMetadata) : Bool :=
  (m.date? .expirationDate).any fun d => today ≤ d && d ≤ horizon

def highRisk (m : ContractMetadata) : Bool := m.str? .riskBand = some RiskBand.high.value

def unlimitedLiability (m : ContractMetadata) : Bool := m.bool? .hasUnlimitedLiability = some true

/-- `select(func.count()).select_from(ContractMetadata)` within the scope. -/
def countMetadata (db : ContractTables) (projectIds : List Uuid) (p : ContractMetadata → Bool) :
    Nat :=
  (db.metadata.filter fun m => m.projectId ∈ projectIds && p m).length

/-- `select(func.count()).select_from(Contract)` within the scope, of live contracts. -/
def countContracts (db : ContractTables) (projectIds : List Uuid) (p : ContractRecord → Bool) :
    Nat :=
  (db.contracts.filter fun c => c.projectId ∈ projectIds && p c && c.deletedAt.isNone).length

/-- The tiles of `get_dashboard`, absent where the horizon raises an `OverflowError`. -/
def getDashboard (db : ContractTables) (clauses : List ClauseRow) (projectIds : List Uuid)
    (today : Date) : Option (List KpiTile) :=
  if projectIds = [] then some []
  else do
    let horizon ← today.addDays? expiringWindowDays
    return [
      { key := "total_contracts", label := "Contracts"
        value := countContracts db projectIds fun _ => true },
      { key := "expiring_soon", label := s!"Expiring in {expiringWindowDays} days"
        value := countMetadata db projectIds (expiringSoon today horizon)
        drilldown := some [("expiry_from", .date today), ("expiry_to", .date horizon)] },
      { key := "high_risk", label := "High risk"
        value := countMetadata db projectIds highRisk
        drilldown := some [("risk_band", .text "high")] },
      { key := "unlimited_liability", label := "Unlimited liability"
        value := countMetadata db projectIds unlimitedLiability
        drilldown := some [("has_unlimited_liability", .text "true")] },
      { key := "missing_clauses", label := "Missing mandatory clauses"
        value := countMetadata db projectIds ContractRepository.incomplete
        drilldown := some [("missing_mandatory", .text "true")] },
      { key := "needs_review", label := "Needs review"
        value := countContracts db projectIds (·.needsReview)
        drilldown := some [("needs_review", .text "true")] },
      { key := "clauses_extracted", label := "Clauses extracted"
        value := (clauses.filter (·.projectId ∈ projectIds)).length }]

end Dashboard

end Clear
