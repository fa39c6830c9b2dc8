import Clear.Repositories.Portfolio

/-!
# Registers across contracts

`app/api/v1/portfolio.py`: obligations, key dates, risks and counterparties over the contracts that
are live. The scope is already resolved to project ids. `ilike`, the collation, `lower` and the text
of an identifier are parameters of the database.
-/

namespace Clear

namespace Registers

structure Texts where
  ilike : String → String → Bool
  collation : Sql.OrderBy String
  lower : String → String

structure Pagination where
  page : Nat := 1
  size : Nat := 25

def hiddenContractStates : List ContractStatus := [.archived, .failed]

/-- The join predicate every register shares. -/
def liveContracts (projectIds : List Uuid) (c : ContractRow) : Bool :=
  c.deletedAt.isNone && (c.projectId ∈ projectIds && c.status ∉ hiddenContractStates)

def rows {α : Type} (contractId : α → Uuid) (table : List α) (db : Portfolio)
    (projectIds : List Uuid) (conditions : α → Bool) : List (α × ContractRow) :=
  (Removal.join contractId (·.id) (liveContracts projectIds) table db.contracts).filter
    (conditions ·.1)

def page {α : Type} (sql : Sql.Session) (order : Sql.OrderBy α) (rows : List α) (p : Pagination) :
    List α × Nat :=
  if rows.length = 0 then ([], 0)
  else ((((sql α).select order rows).drop ((p.page - 1) * p.size)).take p.size, rows.length)

/-- A partial match; a NULL does not match. -/
def like (texts : Texts) (pattern : String) (text : Option String) : Bool :=
  text.any (texts.ilike ("%" ++ pattern ++ "%"))

def whenGiven {α : Type} (value : Option α) (condition : α → Bool) : Bool := value.all condition

def whenFlag (flag : Option Bool) (holds : Bool) : Bool := flag.all (· = holds)

/-! ## Obligations -/

structure ObligationParams where
  statuses : List ObligationStatus := []
  /-- Not empty. -/
  responsibleParty : Option String := none
  dueFrom : Option Date := none
  dueTo : Option Date := none
  undated : Option Bool := none
  /-- Not empty. -/
  q : Option String := none

def obligationConditions (texts : Texts) (params : ObligationParams) (row : Obligation) : Bool :=
  (params.statuses.isEmpty || row.status ∈ params.statuses) &&
    whenGiven params.responsibleParty (like texts · row.responsibleParty) &&
    whenGiven params.dueFrom (fun d => row.dueDate.any (d ≤ ·)) &&
    whenGiven params.dueTo (fun d => row.dueDate.any (· ≤ d)) &&
    whenFlag params.undated row.dueDate.isNone &&
    whenGiven params.q fun q => like texts q (some row.action) ||
      like texts q row.dueDescription || like texts q row.triggerEvent

def listObligations (sql : Sql.Session) (texts : Texts) (db : Portfolio) (projectIds : List Uuid)
    (params : ObligationParams) (p : Pagination) :
    List (Obligation × Option String × Option String) × Nat :=
  let found := page sql
    ((Sql.OrderBy.ascNullsLast (·.1.dueDate)).thenBy (.desc (·.1.createdAt)))
    (rows (·.contractId) db.obligations db projectIds (obligationConditions texts params)) p
  (found.1.map fun r => (r.1, r.2.title, r.2.contractNumber), found.2)

/-! ## Key dates -/

structure KeyDateParams where
  dateTypes : List DateType := []
  dateFrom : Option Date := none
  dateTo : Option Date := none
  unresolved : Option Bool := none

def keyDateConditions (params : KeyDateParams) (row : KeyDateRow) : Bool :=
  (params.dateTypes.isEmpty || row.dateType ∈ params.dateTypes) &&
    whenGiven params.dateFrom (fun d => row.dateValue.any (d ≤ ·)) &&
    whenGiven params.dateTo (fun d => row.dateValue.any (· ≤ d)) &&
    whenFlag params.unresolved row.dateValue.isNone

def listKeyDates (sql : Sql.Session) (rank : DateType → Nat) (db : Portfolio)
    (projectIds : List Uuid) (params : KeyDateParams) (p : Pagination) :
    List (KeyDateRow × Option String × Option String) × Nat :=
  let found := page sql
    ((Sql.OrderBy.ascNullsLast (·.1.dateValue)).thenBy (.asc (rank ·.1.dateType)))
    (rows (·.contractId) db.keyDates db projectIds (keyDateConditions params)) p
  (found.1.map fun r => (r.1, r.2.title, r.2.contractNumber), found.2)

/-! ## Risks -/

structure RiskParams where
  severities : List RiskSeverity := []
  /-- Not empty. -/
  riskType : Option String := none
  /-- Not empty. -/
  category : Option String := none
  omissions : Option Bool := none
  /-- Not empty. -/
  q : Option String := none

def riskConditions (texts : Texts) (params : RiskParams) (row : RiskRow) : Bool :=
  (params.severities.isEmpty || row.severity ∈ params.severities) &&
    whenGiven params.riskType (row.riskType = ·) &&
    whenGiven params.category (row.category = some ·) &&
    whenFlag params.omissions row.isOmission &&
    whenGiven params.q fun q => like texts q (some row.description) ||
      like texts q row.recommendation

/-- Most severe first. -/
def severityRank : RiskSeverity → Nat
  | .critical => 0
  | .high => 1
  | .medium => 2
  | .low => 3

def metadataOf (db : Portfolio) (contractId : Uuid) : Option ContractMetadata :=
  db.metadata.find? (·.contractId = contractId)

def listRisks (sql : Sql.Session) (texts : Texts) (db : Portfolio) (projectIds : List Uuid)
    (params : RiskParams) (p : Pagination) :
    List (RiskRow × Option String × Option String × Option Int) × Nat :=
  let found := page sql
    ((Sql.OrderBy.asc (severityRank ·.1.severity)).thenBy
      ((Sql.OrderBy.descNullsLast (·.1.scoreContribution)).thenBy (.desc (·.1.createdAt))))
    (rows (·.contractId) db.risks db projectIds (riskConditions texts params)) p
  (found.1.map fun r => (r.1, r.2.title, r.2.contractNumber,
    (metadataOf db r.1.contractId).bind (·.int? .riskScore)), found.2)

/-! ## Parties -/

structure PartyParams where
  /-- Not empty. -/
  q : Option String := none
  primaryOnly : Bool := false

def trimmed (row : EntityRow) : String := Text.trim (· = ' ') row.name

def partyKey (texts : Texts) (row : EntityRow) : String := texts.lower (trimmed row)

def partyConditions (texts : Texts) (params : PartyParams) (row : EntityRow) : Bool :=
  0 < (trimmed row).length && whenGiven params.q (like texts · (some row.name)) &&
    (!params.primaryOnly || row.isPrimary)

structure PartyEntry where
  key : String
  name : String
  entityTypes : List EntityType
  roles : List String
  jurisdictions : List String
  contractCount : Nat
  isPrimaryAnywhere : Bool
  totalValue : List (String × Rat)
  nextExpiry : Option Date
  sampleContractId : Option Uuid

def maxText (texts : Texts) (l : List String) : Option String :=
  (texts.collation.sort l).getLast?

def distinctTexts (texts : Texts) (l : List (Option String)) : List String :=
  texts.collation.sort ((l.map (·.getD "")).dedup.filter (· ≠ ""))

def valueByParty (texts : Texts) (db : Portfolio) (projectIds : List Uuid) (key : String) :
    List (String × Rat) :=
  let valued := (rows (·.contractId) db.entities db projectIds (partyKey texts · = key)).filterMap
    fun r => (metadataOf db r.1.contractId).bind fun m =>
      match m.value .contractValue with
      | .float x => some (m.str? .currency, r.1.contractId, x)
      | .int n => some (m.str? .currency, r.1.contractId, (n : Rat))
      | _ => none
  let byContract := valued.dedup
  (byContract.map (·.1)).dedup.map fun currency =>
    ((currency.filter (· ≠ "")).getD "unknown",
      ((byContract.filter (·.1 = currency)).map (·.2.2)).foldl (· + ·) 0)

def partyEntry (texts : Texts) (db : Portfolio) (projectIds : List Uuid)
    (found : List (EntityRow × ContractRow)) (key : String) : PartyEntry :=
  let group := (found.map (·.1)).filter (partyKey texts · = key)
  { key
    name := ((maxText texts (group.map fun r => r.legalName.getD r.name)).filter (· ≠ "")).getD key
    entityTypes := (group.map (·.entityType)).dedup
    roles := distinctTexts texts (group.map (·.role))
    jurisdictions := distinctTexts texts (group.map (·.jurisdiction))
    contractCount := (group.map (·.contractId)).dedup.length
    isPrimaryAnywhere := group.any (·.isPrimary)
    totalValue := valueByParty texts db projectIds key
    nextExpiry := (group.filterMap fun r =>
      (metadataOf db r.contractId).bind (·.date? .expirationDate)).max?
    sampleContractId := ((Sql.OrderBy.comap (fun id : Uuid => id.str) texts.collation).sort
      (group.map (·.contractId))).head? }

def listParties (sql : Sql.Session) (texts : Texts) (db : Portfolio) (projectIds : List Uuid)
    (params : PartyParams) (p : Pagination) : List PartyEntry × Nat :=
  let found := rows (·.contractId) db.entities db projectIds (partyConditions texts params)
  let keys := (found.map fun r => partyKey texts r.1).dedup
  let grouped := keys.map (partyEntry texts db projectIds found)
  page sql ((Sql.OrderBy.desc (·.contractCount)).thenBy (.comap (·.key) texts.collation)) grouped p

end Registers

end Clear
