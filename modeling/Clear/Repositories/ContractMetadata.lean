import Clear.Core.Value
import Clear.Models.Processing

/-!
# The metadata projection table

`contract_metadata` (`app/models/contract.py`): one row for each contract, read by the repository
list, the dashboards and the filters. `ContractMetadataRepository.upsert` creates the row or writes
the given columns of the existing one.
-/

namespace Clear

inductive MetadataColumn where
  | effectiveDate | executionDate | expirationDate | renewalDate | noticeDeadline | termMonths
  | governingLaw | jurisdiction | country | language
  | currency | contractValue | paymentTermsDays | paymentTerms
  | partyA | partyB | vendor | customer
  | category | department | businessUnit | owner | status
  | riskScore | riskBand | riskLevel | riskFactors
  | autoRenewal | autoRenewalNoticeDays | renewalTermMonths
  | missingMandatoryClauses | hasUnlimitedLiability | hasLiabilityCap | liabilityCapAmount
  | hasTerminationForConvenience | hasDataProtectionClause | terminationNoticeDays
  | clauseCount | obligationCount | riskCount | highRiskCount
  | summary | keyTopics | extra
  deriving DecidableEq, Repr

/-- What a column holds when it is not NULL. -/
inductive Cell where
  | date (d : Date)
  | value (v : Value)

def Cell.ofValue? : Value → Option Cell
  | .null => none
  | v => some (.value v)

def MetadataColumn.default : MetadataColumn → Option Cell
  | .riskFactors | .missingMandatoryClauses | .keyTopics => some (.value (.list []))
  | .clauseCount | .obligationCount | .riskCount | .highRiskCount => some (.value (.int 0))
  | .extra => some (.value (.dict []))
  | _ => none

structure ContractMetadata where
  contractId : Uuid
  projectId : Uuid
  columns : MetadataColumn → Option Cell

namespace ContractMetadata

/-! ## Columns by type -/

def date? (row : ContractMetadata) (c : MetadataColumn) : Option Date :=
  match row.columns c with
  | some (.date d) => some d
  | _ => none

def value (row : ContractMetadata) (c : MetadataColumn) : Value :=
  match row.columns c with
  | some (.value v) => v
  | _ => .null

def str? (row : ContractMetadata) (c : MetadataColumn) : Option String :=
  match row.value c with
  | .str s => some s
  | _ => none

def int? (row : ContractMetadata) (c : MetadataColumn) : Option Int :=
  match row.value c with
  | .int n => some n
  | _ => none

def bool? (row : ContractMetadata) (c : MetadataColumn) : Option Bool :=
  match row.value c with
  | .bool b => some b
  | _ => none

def list (row : ContractMetadata) (c : MetadataColumn) : List Value :=
  match row.value c with
  | .list l => l
  | _ => []

/-! ## Writes -/

def setattr (row : ContractMetadata) (e : MetadataColumn × Cell) : ContractMetadata :=
  { row with columns := fun c => if c = e.1 then some e.2 else row.columns c }

def new (contractId projectId : Uuid) (values : List (MetadataColumn × Cell)) : ContractMetadata :=
  values.foldl setattr { contractId, projectId, columns := MetadataColumn.default }

@[simp] theorem setattr_contractId (row : ContractMetadata) (e : MetadataColumn × Cell) :
    (row.setattr e).contractId = row.contractId := rfl

theorem foldl_setattr_contractId (values : List (MetadataColumn × Cell)) (row : ContractMetadata) :
    (values.foldl setattr row).contractId = row.contractId := by
  induction values generalizing row with
  | nil => rfl
  | cons e values ih => simpa using ih (row.setattr e)

/-- A column that is written holds the value written, the others are untouched. -/
theorem foldl_setattr_columns {values : List (MetadataColumn × Cell)} {row : ContractMetadata}
    (h : (values.map Prod.fst).Nodup) (c : MetadataColumn) :
    (values.foldl setattr row).columns c = (values.lookup c).or (row.columns c) := by
  induction values generalizing row with
  | nil => rfl
  | cons e values ih =>
    obtain ⟨k, v⟩ := e
    rw [List.map_cons, List.nodup_cons] at h
    rw [List.foldl_cons, ih h.2]
    by_cases hc : c = k
    · subst hc
      have hnone : values.lookup c = none := by
        rw [List.lookup_eq_none_iff]
        intro p hp
        have hne : p.1 ≠ c := fun he => h.1 (List.mem_map.2 ⟨p, hp, he⟩)
        simpa using Ne.symm hne
      simp [setattr, hnone]
    · have hne : (c == k) = false := by simpa using hc
      simp [setattr, List.lookup_cons, hne, hc]

end ContractMetadata

structure MetadataTable where
  rows : List ContractMetadata
  keys : (rows.map (·.contractId)).Nodup

namespace MetadataTable

def empty : MetadataTable := ⟨[], List.nodup_nil⟩

def getForContract (t : MetadataTable) (contractId : Uuid) : Option ContractMetadata :=
  t.rows.find? (·.contractId = contractId)

def column (t : MetadataTable) (contractId : Uuid) (c : MetadataColumn) : Option Cell :=
  match t.getForContract contractId with
  | none => c.default
  | some row => row.columns c

def setattrs (t : MetadataTable) (contractId : Uuid) (values : List (MetadataColumn × Cell)) :
    MetadataTable where
  rows := t.rows.map fun row =>
    if row.contractId = contractId then values.foldl ContractMetadata.setattr row else row
  keys := Keyed.update t.keys fun row => by
    split
    · exact ContractMetadata.foldl_setattr_contractId values row
    · rfl

def insert (t : MetadataTable) (row : ContractMetadata)
    (h : t.getForContract row.contractId = none) : MetadataTable where
  rows := t.rows ++ [row]
  keys := Keyed.concat t.keys <| by
    rw [getForContract, List.find?_eq_none] at h
    intro hmem
    obtain ⟨r, hr, hid⟩ := List.mem_map.1 hmem
    exact h r hr (by simpa using hid)

/-- Create or update the metadata row: the columns that are not given keep their value. `bind` is
what the database makes of a value under the column's type; it may refuse it. -/
def upsert (bind : MetadataColumn → Cell → Except Raised Cell) (contractId projectId : Uuid)
    (values : List (MetadataColumn × Cell)) (t : MetadataTable) : Except Raised MetadataTable := do
  let bound ← values.mapM fun e => (bind e.1 e.2).map (e.1, ·)
  if h : t.getForContract contractId = none then
    return t.insert (.new contractId projectId bound) (by
      rw [show (ContractMetadata.new contractId projectId bound).contractId = contractId from
        ContractMetadata.foldl_setattr_contractId bound _]
      exact h)
  else return t.setattrs contractId bound

end MetadataTable

end Clear
