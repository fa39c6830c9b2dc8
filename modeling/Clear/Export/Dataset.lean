import Clear.Api.V1.Portfolio

/-!
# The dataset of an export

`ExportDatasetBuilder` (`app/export/dataset.py`): the contracts of a request and the rows derived
from them, one sheet for each entity. The wording of some clause categories is withheld. The filters
of the request are a predicate on a contract and its metadata, `str` is the text of an attribute.
-/

namespace Clear

inductive ExportEntity where
  | contracts | clauses | obligations | risks | keyDates | entities
  deriving DecidableEq, Repr

namespace ExportEntity

def value : ExportEntity → String
  | contracts => "contracts"
  | clauses => "clauses"
  | obligations => "obligations"
  | risks => "risks"
  | keyDates => "key_dates"
  | entities => "entities"

def all : List ExportEntity := [contracts, clauses, obligations, risks, keyDates, entities]

def ofValue? (name : String) : Option ExportEntity := all.find? (·.value = name)

def default : List ExportEntity := [contracts, clauses, obligations, risks, keyDates]

def resolve (names : List String) : List ExportEntity :=
  let resolved := (names.filterMap ofValue?).reverse.dedup.reverse
  if names.isEmpty || resolved.isEmpty then default else resolved

end ExportEntity

namespace Export

/-! ## Cells -/

def maskedClauseTypes : List String := ["confidentiality", "non_solicit", "exclusivity"]

def maskPlaceholder : String := "[Withheld - requires clause review permission]"

def maxCellChars : Nat := 32000

def truncate (text : String) : String :=
  if text.length ≤ maxCellChars then text
  else Text.take maxCellChars text ++ "\n[truncated - see the contract for the full text]"

def renderAttribute (str : Value → String) : Value → String
  | .null => "not specified"
  | .bool b => if b then "yes" else "no"
  | .list l => if l.isEmpty then "none" else ", ".intercalate (l.map str)
  | .dict d => "; ".intercalate (d.map fun e => e.1 ++ "=" ++ str e.2)
  | v => str v

def spaced (key : String) : String :=
  String.ofList (key.toList.map fun c => if c = '_' then ' ' else c)

def flattenAttributes (str : Value → String) (attributes : ValueDict) : String :=
  truncate ("\n".intercalate
    (attributes.map fun e => spaced e.1 ++ ": " ++ renderAttribute str e.2))

/-! ## Rows -/

structure ClauseCells where
  contractTitle : String
  clauseType : String
  clauseNumber : Option String
  title : Option String
  pageStart : Option Nat
  isMandatory : Bool
  isRiskFlagged : Bool
  confidence : Option Rat
  reviewStatus : ReviewStatus
  attributes : String
  summary : Option String
  text : String
  deriving DecidableEq

inductive SheetRows where
  | contracts (rows : List (ContractRow × Option ContractMetadata × String))
  | clauses (rows : List ClauseCells)
  | obligations (rows : List (String × Obligation))
  | risks (rows : List (String × RiskRow))
  | keyDates (rows : List (String × KeyDateRow))
  | entities (rows : List (String × EntityRow))

structure Sheet where
  entity : ExportEntity
  rows : SheetRows
  notes : List String := []

structure Dataset where
  projectNames : List String
  sheets : List Sheet
  maskedNote : Option String

structure Request where
  projectIds : List Uuid
  permissions : List String
  isSystemAdmin : Bool := false
  entities : List String := []
  /-- The conditions that the filters add. -/
  filters : ContractRow → Option ContractMetadata → Bool := fun _ _ => true
  contractIds : List Uuid := []

/-- The database as the builder reads it. -/
structure Reader where
  sql : Sql.Session
  collation : Sql.OrderBy String
  /-- The declaration order of `risk_severity`. -/
  severityRank : RiskSeverity → Nat
  str : Value → String

def Request.maySeeMasked (request : Request) : Bool :=
  request.isSystemAdmin || "knowledge:review" ∈ request.permissions

def orElse (a b : Option String) : Option String := (a.filter (· ≠ "")).or b

def contractTitle (c : ContractRow) : String :=
  (c.title.filter (· ≠ "")).getD c.originalFileName

variable (reader : Reader) (db : Portfolio) (request : Request)

def loadContracts : List ContractRow :=
  (reader.sql ContractRow).select (.desc (·.createdAt)) <|
    (db.contracts.filter fun c => c.deletedAt.isNone && c.projectId ∈ request.projectIds).filter
      fun c => request.filters c (Registers.metadataOf db c.id) &&
        (request.contractIds.isEmpty || c.id ∈ request.contractIds)

def loadProjects : List Project :=
  (reader.sql Project).select .unordered (db.projects.filter (·.id ∈ request.projectIds))

def projectName (projects : List Project) (projectId : Uuid) : String :=
  ((projects.find? (·.id = projectId)).map (·.name)).getD ""

def titleOf (contracts : List ContractRow) (contractId : Uuid) : String :=
  ((contracts.find? (·.id = contractId)).map contractTitle).getD ""

def selected {α : Type} (contractId projectId : α → Uuid) (order : Sql.OrderBy α) (table : List α)
    (contracts : List ContractRow) : List α :=
  (reader.sql α).select
    ((Sql.OrderBy.asc fun a => (contractId a).toNat).thenBy order)
    (table.filter fun a => contractId a ∈ contracts.map (·.id) && projectId a ∈ request.projectIds)

def hide (clause : ClauseRow) : Bool :=
  !request.maySeeMasked && clause.clauseType ∈ maskedClauseTypes

def clauseCells (contracts : List ContractRow) (clause : ClauseRow) : ClauseCells where
  contractTitle := titleOf contracts clause.contractId
  clauseType := clause.clauseType
  clauseNumber := clause.clauseNumber
  title := orElse clause.title clause.sectionTitle
  pageStart := clause.pageStart
  isMandatory := clause.isMandatory
  isRiskFlagged := clause.isRiskFlagged
  confidence := clause.confidence
  reviewStatus := clause.reviewStatus
  attributes := flattenAttributes reader.str clause.attributes
  summary := if hide request clause then some maskPlaceholder else clause.summary
  text := if hide request clause then maskPlaceholder else truncate clause.textContent

def selectedClauses (contracts : List ContractRow) : List ClauseRow :=
  selected reader request (·.contractId) (·.projectId)
    ((Sql.OrderBy.comap (·.clauseType) reader.collation).thenBy
      (.comap (·.clauseNumber) reader.collation.nullsLast))
    db.clauses contracts

def maskedNote (masked : Nat) : List String :=
  if masked = 0 then [] else [s!"{masked} clause body/bodies withheld by clause masking."]

def sheet (contracts : List ContractRow) (projects : List Project) (entity : ExportEntity) :
    Sheet :=
  let titled {α : Type} (contractId : α → Uuid) (rows : List α) : List (String × α) :=
    rows.map fun a => (titleOf contracts (contractId a), a)
  match entity with
  | .contracts =>
    { entity
      rows := .contracts (contracts.map fun c =>
        (c, Registers.metadataOf db c.id, projectName projects c.projectId)) }
  | .clauses =>
    let clauses := selectedClauses reader db request contracts
    { entity
      rows := .clauses (clauses.map (clauseCells reader request contracts))
      notes := maskedNote (clauses.filter (hide request)).length }
  | .obligations =>
    { entity
      rows := .obligations (titled (·.contractId) (selected reader request (·.contractId)
        (·.projectId) (.ascNullsLast (·.dueDate)) db.obligations contracts)) }
  | .risks =>
    { entity
      rows := .risks (titled (·.contractId) (selected reader request (·.contractId) (·.projectId)
        (.asc (reader.severityRank ·.severity)) db.risks contracts)) }
  | .keyDates =>
    { entity
      rows := .keyDates (titled (·.contractId) (selected reader request (·.contractId)
        (·.projectId) (.ascNullsLast (·.dateValue)) db.keyDates contracts)) }
  | .entities =>
    { entity
      rows := .entities (titled (·.contractId) (selected reader request (·.contractId)
        (·.projectId) ((Sql.OrderBy.desc fun r => r.isPrimary.toNat).thenBy
          (.comap (·.name) reader.collation)) db.entities contracts)) }

/-- The clauses whose wording is withheld in the whole file. -/
def maskedTotal (contracts : List ContractRow) : Nat :=
  ((ExportEntity.resolve request.entities).filter (· = .clauses)).length *
    ((selectedClauses reader db request contracts).filter (hide request)).length

/-- `build`. Without a project in scope nothing is selected. -/
def build : Dataset :=
  let contracts := loadContracts reader db request
  let projects := loadProjects reader db request
  let masked := maskedTotal reader db request contracts
  { projectNames := projects.map (·.name)
    sheets := (ExportEntity.resolve request.entities).map
      (sheet reader db request contracts projects)
    maskedNote :=
      if masked = 0 then none
      else some (s!"{masked} clause body/bodies were withheld because this account " ++
        "does not hold clause review permission.") }

end Export

end Clear
