import Clear.Lib.Removal
import Clear.Models.Identity
import Clear.Repositories.Contract
import Clear.Repositories.ContractMetadata
import Clear.Repositories.Knowledge

/-!
# The portfolio

The tables that the reads across contracts work on, the aggregate queries of the repositories
(`app/repositories/contract.py`, `app/repositories/knowledge.py`), and the deletion of a contract,
which marks its row and keeps the rows derived from it. `live` looks only at a row's own
`deleted_at`, which derived tables do not have.
-/

namespace Clear

structure Portfolio where
  projects : List Project := []
  members : List ProjectMember := []
  contracts : List ContractRow := []
  metadata : List ContractMetadata := []
  jobs : List ProcessingJob := []
  alerts : List Alert := []
  clauses : List ClauseRow := []
  entities : List EntityRow := []
  obligations : List Obligation := []
  risks : List RiskRow := []
  keyDates : List KeyDateRow := []

/-- A database session: one admissible answer for every query. -/
abbrev Sql.Session := (α : Type) → Sql.Engine α

def counts {α κ : Type} [DecidableEq κ] (key : α → κ) (rows : List α) (k : κ) : Option Nat :=
  some ((rows.filter (key · = k)).length) |>.filter (0 < ·)

namespace ContractRepository

def statusCounts (db : Portfolio) (projectIds : List Uuid) : ContractStatus → Option Nat :=
  counts (·.status) (db.contracts.filter fun c => c.deletedAt.isNone && c.projectId ∈ projectIds)

end ContractRepository

namespace ClauseRepository

def findByAttribute (sql : Sql.Session) (contains : ValueDict → ValueDict → Bool) (db : Portfolio)
    (projectIds : List Uuid) (clauseType : String) (attributeFilter : ValueDict) (limit : Nat) :
    List ClauseRow :=
  ((sql ClauseRow).select .unordered <| db.clauses.filter fun r => r.projectId ∈ projectIds &&
    (r.clauseType = clauseType && contains r.attributes attributeFilter)).take limit

def typeCounts (db : Portfolio) (projectIds : List Uuid) : String → Option Nat :=
  counts (·.clauseType) (db.clauses.filter (·.projectId ∈ projectIds))

end ClauseRepository

namespace EntityRepository

/-- The names of primary parties, each with the number of its contracts. -/
def contractCounts (rows : List EntityRow) : List (String × Nat) :=
  (rows.map (·.name)).dedup.map fun name =>
    (name, ((rows.filter (·.name = name)).map (·.contractId)).dedup.length)

def counterparties (sql : Sql.Session) (db : Portfolio) (projectIds : List Uuid) (limit : Nat) :
    List (String × Nat) :=
  ((sql (String × Nat)).select (.desc (·.2)) <| contractCounts <|
    db.entities.filter fun r => r.projectId ∈ projectIds && r.isPrimary).take limit

end EntityRepository

namespace ObligationRepository

def upcoming (sql : Sql.Session) (db : Portfolio) (projectIds : List Uuid) (before : Date)
    (limit : Nat) : List Obligation :=
  ((sql Obligation).select (.ascNullsLast (·.dueDate)) <| db.obligations.filter fun r =>
    r.projectId ∈ projectIds && r.dueDate.any (· ≤ before)).take limit

end ObligationRepository

namespace RiskRepository

def severityCounts (db : Portfolio) (projectIds : List Uuid) : RiskSeverity → Option Nat :=
  counts (·.severity) (db.risks.filter (·.projectId ∈ projectIds))

end RiskRepository

namespace Portfolio

variable (db : Portfolio)

def mark (now : Timestamp) (row : ContractRow) : ContractRow :=
  { row with deletedAt := some now, status := .archived }

/-- `active_for_contract`: the latest job of a contract that is not terminal. The table is in the
order of creation. -/
def activeForContract (contractId : Uuid) : Option ProcessingJob :=
  (db.jobs.filter fun j => j.contractId = contractId && !j.state.isTerminal).getLast?

def deleteContract (contractId projectId : Uuid) (now : Timestamp) : Except Raised Portfolio :=
  if !db.contracts.any fun c => c.deletedAt.isNone && c.projectId = projectId && c.id = contractId
  then .error (.app (.notFound "Contract" contractId))
  else
    match db.activeForContract contractId with
    | some job =>
      .error (.app { AppError.conflict
        "This contract is still being processed. Cancel the job before deleting."
        [("job_id", .str job.id.str), ("state", .str job.state.value)] with
          code := "invalid_state_transition" })
    | none =>
      .ok { db with
        contracts := db.contracts.map fun c => if c.id = contractId then mark now c else c }

/-- The database without a contract and everything derived from it. -/
def remove (contractId : Uuid) : Portfolio :=
  { db with
    contracts := Removal.removal (·.id) contractId db.contracts
    metadata := Removal.removal (·.contractId) contractId db.metadata
    jobs := Removal.removal (·.contractId) contractId db.jobs
    alerts := Removal.removal (·.contractId) (some contractId) db.alerts
    clauses := Removal.removal (·.contractId) contractId db.clauses
    entities := Removal.removal (·.contractId) contractId db.entities
    obligations := Removal.removal (·.contractId) contractId db.obligations
    risks := Removal.removal (·.contractId) contractId db.risks
    keyDates := Removal.removal (·.contractId) contractId db.keyDates }

theorem deleteContract_ok {contractId projectId : Uuid} {now : Timestamp} {after : Portfolio}
    (h : db.deleteContract contractId projectId now = .ok after) :
    (∀ j ∈ db.jobs, j.contractId = contractId → j.state.isTerminal = true) ∧
      after = { db with
        contracts := db.contracts.map fun c => if c.id = contractId then mark now c else c } := by
  unfold deleteContract at h
  split at h
  · cases h
  · split at h
    · cases h
    next hactive =>
      refine ⟨fun j hj hid => ?_, (Except.ok.inj h).symm⟩
      unfold activeForContract at hactive
      rw [List.getLast?_eq_none_iff, List.filter_eq_nil_iff] at hactive
      simpa [hid] using hactive j hj

end Portfolio

end Clear
