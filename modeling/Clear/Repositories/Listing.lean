import Clear.Core.Stdlib
import Clear.Lib.Paging
import Clear.Repositories.Contract
import Clear.Repositories.ContractMetadata
import Mathlib.Algebra.Order.Field.Rat

/-!
# The list of contracts

`filtered_query`, `apply_sort` and `paginate_filtered` of `app/repositories/contract.py`. The query
takes the conditions that the filters add as one predicate on the joined row. The collation, `ilike`,
`lower` and the order of the status type are parameters of the database.
-/

namespace Clear

structure ContractRecord extends ContractRow where
  updatedAt : Timestamp := 0
  language : Option String := none

abbrev ListedContract := ContractRecord × Option ContractMetadata

structure ContractTables where
  contracts : List ContractRecord
  metadata : List ContractMetadata
  contractIds : (contracts.map (·.id)).Nodup
  metadataIds : (metadata.map (·.contractId)).Nodup

namespace ContractRepository

inductive ContractColumn where
  | createdAt | updatedAt | title | originalFileName | contractNumber | agreementType | status
  | fileSize | pageCount | processedAt
  deriving DecidableEq, Repr

def sortableFields : List (String × ContractColumn) :=
  [("created_at", .createdAt), ("updated_at", .updatedAt), ("title", .title),
    ("original_file_name", .originalFileName), ("contract_number", .contractNumber),
    ("agreement_type", .agreementType), ("status", .status), ("file_size", .fileSize),
    ("page_count", .pageCount), ("processed_at", .processedAt)]

def metadataSortFields : List (String × MetadataColumn) :=
  [("effective_date", .effectiveDate), ("expiration_date", .expirationDate),
    ("contract_value", .contractValue), ("risk_score", .riskScore), ("vendor", .vendor),
    ("customer", .customer), ("party_a", .partyA)]

structure Collation where
  text : Sql.OrderBy String
  statusRank : ContractStatus → Nat

def ContractColumn.asc (collation : Collation) : ContractColumn → Sql.OrderBy ListedContract
  | createdAt => .asc (·.1.createdAt)
  | updatedAt => .asc (·.1.updatedAt)
  | title => .comap (·.1.title) collation.text.nullsLast
  | originalFileName => .comap (·.1.originalFileName) collation.text
  | contractNumber => .comap (·.1.contractNumber) collation.text.nullsLast
  | agreementType => .comap (·.1.agreementType) collation.text.nullsLast
  | status => .asc (collation.statusRank ·.1.status)
  | fileSize => .asc (·.1.fileSize)
  | pageCount => .ascNullsLast (·.1.pageCount)
  | processedAt => .ascNullsLast (·.1.processedAt)

def directed {α : Type} (sortDir : String) (o : Sql.OrderBy α) : Sql.OrderBy α :=
  if sortDir = "desc" then o.reverse else o

def number? (row : ContractMetadata) (c : MetadataColumn) : Option Rat :=
  match row.value c with
  | .int n => some n
  | .float x => some x
  | _ => none

def metadataOrder (collation : Collation) (sortDir : String) (c : MetadataColumn) :
    Sql.OrderBy ListedContract :=
  match c with
  | .effectiveDate | .expirationDate =>
    .comap (fun r => r.2.bind (·.date? c)) (directed sortDir (.asc fun d : Date => d)).nullsLast
  | .contractValue | .riskScore =>
    .comap (fun r => r.2.bind (number? · c)) (directed sortDir (.asc fun x : Rat => x)).nullsLast
  | _ => .comap (fun r => r.2.bind (·.str? c)) (directed sortDir collation.text).nullsLast

def applyOrder (collation : Collation) (sortBy : Option String) (sortDir : String) :
    Sql.OrderBy ListedContract :=
  let column := (sortBy.bind fun field => sortableFields.lookup field).getD .createdAt
  directed sortDir (column.asc collation)

def applySort (collation : Collation) (sortBy : Option String) (sortDir : String) :
    Sql.OrderBy ListedContract :=
  match sortBy.bind fun field => metadataSortFields.lookup field with
  | some column => metadataOrder collation sortDir column
  | none => applyOrder collation sortBy sortDir

def withMetadata (metadata : List ContractMetadata) (c : ContractRecord) : List ListedContract :=
  match metadata.filter (·.contractId = c.id) with
  | [] => [(c, none)]
  | found => found.map fun m => (c, some m)

def filteredQuery (db : ContractTables) (projectIds : List Uuid)
    (conditions : ListedContract → Bool) : List ListedContract :=
  ((db.contracts.filter fun c => c.deletedAt.isNone && c.projectId ∈ projectIds).flatMap
    (withMetadata db.metadata)).filter conditions

def unique (rows : List ListedContract) : List ListedContract := Sql.distinctOn (·.1.id) rows

def paginateFiltered (sql : Sql.Engine ListedContract) (collation : Collation)
    (db : ContractTables) (projectIds : List Uuid) (conditions : ListedContract → Bool)
    (page size : Nat) (sortBy : Option String) (sortDir : String) : List ListedContract × Nat :=
  let stmt := filteredQuery db projectIds conditions
  let total := stmt.length
  let ordered := sql.select (applySort collation sortBy sortDir) stmt
  (unique ((ordered.drop ((page - 1) * size)).take size), total)

end ContractRepository

/-! ## Filters -/

structure DateRange where
  fromDate : Option Date
  toDate : Option Date
  ordered : (fromDate.all fun a => toDate.all (a ≤ ·)) = true

def DateRange.isSet (r : DateRange) : Bool := r.fromDate.isSome || r.toDate.isSome

structure NumberRange where
  min : Option Rat
  max : Option Rat
  ordered : (min.all fun a => max.all (a ≤ ·)) = true

structure ContractFilterParams where
  search : Option String := none
  status : Option (List ContractStatus) := none
  agreementType : Option (List String) := none
  fileType : Option FileType := none
  party : Option String := none
  vendor : Option String := none
  customer : Option String := none
  contractNumber : Option String := none
  effectiveDate : Option DateRange := none
  expirationDate : Option DateRange := none
  expiringWithinDays : Option Nat := none
  riskBand : Option (List RiskBand) := none
  riskScore : Option NumberRange := none
  contractValue : Option NumberRange := none
  currency : Option String := none
  governingLaw : Option String := none
  country : Option String := none
  category : Option String := none
  department : Option String := none
  owner : Option String := none
  language : Option String := none
  autoRenewal : Option Bool := none
  hasUnlimitedLiability : Option Bool := none
  missingClauseTypes : Option (List String) := none
  missingMandatory : Option Bool := none
  needsReview : Option Bool := none
  tags : Option (List String) := none
  uploadedBy : Option Uuid := none
  uploadedAfter : Option Timestamp := none
  /-- Either a number of days or a range, not both. -/
  exclusive : (expiringWithinDays.isNone || expirationDate.isNone) = true

structure SqlTexts where
  ilike : String → String → Bool
  lower : String → String

namespace ContractRepository

/-- A condition of `WHERE`. A comparison with NULL does not hold. -/
abbrev Condition := ListedContract → Bool

def given {α : Type} (value : Option α) (condition : α → Condition) : List Condition :=
  (value.map condition).toList

def text? (value : Option String) : Option String := value.filter (· ≠ "")

def items? {α : Type} (value : Option (List α)) : Option (List α) := value.filter (!·.isEmpty)

def onMetadata (p : ContractMetadata → Bool) : Condition := fun r => r.2.any p

def textOf (c : MetadataColumn) (r : ListedContract) : String := (r.2.bind (·.str? c)).getD ""

def incomplete (m : ContractMetadata) : Bool := 0 < (m.list .missingMandatoryClauses).length

def withinDates (c : MetadataColumn) (range : Option DateRange) : List Condition :=
  match range.filter (·.isSet) with
  | none => []
  | some range =>
    given range.fromDate (fun a => onMetadata fun m => (m.date? c).any (a ≤ ·)) ++
      given range.toDate (fun b => onMetadata fun m => (m.date? c).any (· ≤ b))

def withinNumbers (c : MetadataColumn) (bound : Rat → Rat) (range : Option NumberRange) :
    List Condition :=
  given (range.bind (·.min)) (fun a => onMetadata fun m => (number? m c).any (bound a ≤ ·)) ++
    given (range.bind (·.max)) (fun b => onMetadata fun m => (number? m c).any (· ≤ bound b))

def truncated (x : Rat) : Rat := (x.num.tdiv x.den : Int)

def equals (c : MetadataColumn) (value : Option String) : List Condition :=
  given (text? value) fun v => onMetadata fun m => m.str? c = some v

def flag (c : MetadataColumn) (value : Option Bool) : List Condition :=
  given value fun v => onMetadata fun m => m.bool? c = some v

/-! What is not given adds no condition. -/

@[simp] theorem given_none {α : Type} (condition : α → Condition) : given none condition = [] := rfl

@[simp] theorem given_some {α : Type} (v : α) (condition : α → Condition) :
    given (some v) condition = [condition v] := rfl

@[simp] theorem text?_none : text? none = none := rfl

@[simp] theorem items?_none {α : Type} : items? (none : Option (List α)) = none := rfl

@[simp] theorem withinDates_none (c : MetadataColumn) : withinDates c none = [] := rfl

@[simp] theorem withinNumbers_none (c : MetadataColumn) (bound : Rat → Rat) :
    withinNumbers c bound none = [] := rfl

@[simp] theorem equals_none (c : MetadataColumn) : equals c none = [] := rfl

@[simp] theorem flag_none (c : MetadataColumn) : flag c none = [] := rfl

@[simp] theorem flag_some (c : MetadataColumn) (v : Bool) :
    flag c (some v) = [onMetadata fun m => m.bool? c = some v] := rfl

/-- The conditions of `filtered_query`, absent where the horizon raises an `OverflowError`. -/
def conditions (std : Stdlib) (texts : SqlTexts) (today : Date) (filters : ContractFilterParams) :
    Option (List Condition) := do
  let horizon ← filters.expiringWithinDays.mapM fun (n : Nat) => today.addDays? n
  return given (text? filters.search) (fun search =>
      let like := texts.ilike ("%" ++ Text.strip search ++ "%")
      fun r => r.1.title.any like || like r.1.originalFileName || like (r.1.contractNumber.getD "") ||
        ([.vendor, .customer, .partyA, .partyB, .summary] : List MetadataColumn).any
          fun c => like (textOf c r)) ++
    given (items? filters.status) (fun values r => r.1.status ∈ values) ++
    given (items? filters.agreementType) (fun values r => r.1.agreementType.any (· ∈ values)) ++
    given filters.fileType (fun t r => r.1.fileType = t) ++
    given (text? filters.contractNumber) (fun number r =>
      texts.lower (r.1.contractNumber.getD "") = std.lower (Text.strip number)) ++
    given filters.needsReview (fun v r => r.1.needsReview = v) ++
    given filters.uploadedBy (fun user r => r.1.uploadedBy = some user) ++
    given filters.uploadedAfter (fun t r => t ≤ r.1.createdAt) ++
    given (text? filters.language) (fun v r =>
      r.1.language = some v || onMetadata (fun m => m.str? .language = some v) r) ++
    given (items? filters.tags) (fun values r => values.all (· ∈ r.1.tags)) ++
    given (text? filters.party) (fun party =>
      let like := texts.ilike ("%" ++ Text.strip party ++ "%")
      fun r => ([.partyA, .partyB, .vendor, .customer] : List MetadataColumn).any
        fun c => like (textOf c r)) ++
    given (text? filters.vendor) (fun v => onMetadata fun m =>
      (m.str? .vendor).any (texts.ilike ("%" ++ Text.strip v ++ "%"))) ++
    given (text? filters.customer) (fun v => onMetadata fun m =>
      (m.str? .customer).any (texts.ilike ("%" ++ Text.strip v ++ "%"))) ++
    withinDates .effectiveDate filters.effectiveDate ++
    withinDates .expirationDate filters.expirationDate ++
    given horizon (fun last => onMetadata fun m =>
      (m.date? .expirationDate).any fun d => today ≤ d && d ≤ last) ++
    given (items? filters.riskBand) (fun bands => onMetadata fun m =>
      (m.str? .riskBand).any (· ∈ bands.map (·.value))) ++
    withinNumbers .riskScore truncated filters.riskScore ++
    withinNumbers .contractValue id filters.contractValue ++
    given (text? filters.currency) (fun v => onMetadata fun m =>
      m.str? .currency = some (std.upper v)) ++
    equals .governingLaw filters.governingLaw ++ equals .country filters.country ++
    equals .category filters.category ++ equals .department filters.department ++
    equals .owner filters.owner ++ flag .autoRenewal filters.autoRenewal ++
    flag .hasUnlimitedLiability filters.hasUnlimitedLiability ++
    given (items? filters.missingClauseTypes) (fun types => onMetadata fun m =>
      types.any fun t => (m.list .missingMandatoryClauses).any (·.asStr? = some t)) ++
    given filters.missingMandatory (fun v => onMetadata fun m => incomplete m = v)

end ContractRepository

end Clear
