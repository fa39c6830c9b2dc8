import Mathlib.Data.String.Basic
import Clear.Ai.Embedding.Validation
import Clear.Lib.OrderBy
import Mathlib.Algebra.Order.Ring.Rat

/-!
# Vector store access

`EmbeddingRepository`: the table `embeddings` with its two unique keys as fields of
`EmbeddingTable`, the validated insert that is the only way into it, the deletes, and the lookup of
vectors that can be reused.
-/

namespace Clear

/-- A single vector at one of the three levels. -/
structure EmbeddingRow (ν : Type) where
  id : Uuid
  projectId : Uuid
  contractId : Uuid
  level : EmbeddingLevel
  refId : Uuid
  embedding : List ν
  sourceText : String
  contentHash : String
  tokenCount : Nat
  provider : String
  model : String
  dim : Int
  embeddingVersion : String
  strategyVersion : String
  profileVersion : Option String := none
  filterMetadata : JsonDict := []
  createdAt : Timestamp := 0
  deriving DecidableEq

namespace EmbeddingRow

variable {ν : Type}

def space (r : EmbeddingRow ν) : EmbeddingSpace where
  provider := r.provider
  model := r.model
  dim := r.dim
  embeddingVersion := r.embeddingVersion
  strategyVersion := r.strategyVersion

def dict (r : EmbeddingRow ν) : RowDict ν where
  provider := r.provider
  model := r.model
  dim := r.dim
  embeddingVersion := r.embeddingVersion
  strategyVersion := r.strategyVersion
  embedding := r.embedding
  refId := r.refId

@[simp] theorem fromRow_dict (r : EmbeddingRow ν) : EmbeddingSpace.fromRow r.dict = r.space := rfl

def versionKey (r : EmbeddingRow ν) : EmbeddingLevel × Uuid × String × String :=
  (r.level, r.refId, r.model, r.embeddingVersion)

end EmbeddingRow

structure EmbeddingTable (ν : Type) where
  rows : List (EmbeddingRow ν)
  idUnique : (rows.map (·.id)).Nodup
  versionUnique : (rows.map EmbeddingRow.versionKey).Nodup

namespace EmbeddingTable

variable {ν : Type}

def empty : EmbeddingTable ν := ⟨[], by simp, by simp⟩

/-! ## Writes -/

def insert (t : EmbeddingTable ν) (r : EmbeddingRow ν) : Except Raised (EmbeddingTable ν) :=
  if h : Keyed.Fresh (·.id) t.rows r ∧ Keyed.Fresh EmbeddingRow.versionKey t.rows r then
    .ok
      { rows := t.rows ++ [r]
        idUnique := Keyed.concat t.idUnique h.1
        versionUnique := Keyed.concat t.versionUnique h.2 }
  else .error (.other "IntegrityError")

def insertAll (t : EmbeddingTable ν) : List (EmbeddingRow ν) → Except Raised (EmbeddingTable ν)
  | [] => .ok t
  | r :: rows => do
    let t ← t.insert r
    insertAll t rows

/-- Insert vectors, refusing any that are not comparable with the rest. -/
def insertMany (active : EmbeddingSpace) (t : EmbeddingTable ν) (rows : List (EmbeddingRow ν)) :
    Except Raised (EmbeddingTable ν) :=
  if rows.isEmpty then .ok t
  else do
    let _ ← EmbeddingValidator.validateBatch active (rows.map EmbeddingRow.dict)
    t.insertAll rows

def delete (t : EmbeddingTable ν) (p : EmbeddingRow ν → Bool) : EmbeddingTable ν where
  rows := t.rows.filter fun r => !p r
  idUnique := t.idUnique.sublist (List.filter_sublist.map _)
  versionUnique := t.versionUnique.sublist (List.filter_sublist.map _)

def deleteForContractLevel (t : EmbeddingTable ν) (contractId projectId : Uuid)
    (level : EmbeddingLevel) : EmbeddingTable ν :=
  t.delete fun r => r.contractId = contractId ∧ r.projectId = projectId ∧ r.level = level

/-! ## Reuse -/

/-- The rows that `existing_hashes` selects for the active space. Provider and dimension are not
among the conditions. -/
def reusable (t : EmbeddingTable ν) (active : EmbeddingSpace) (projectId : Uuid)
    (level : EmbeddingLevel) : List (EmbeddingRow ν) :=
  t.rows.filter fun r =>
    r.projectId = projectId ∧ r.level = level ∧ r.model = active.model ∧
      r.embeddingVersion = active.embeddingVersion ∧ r.strategyVersion = active.strategyVersion

def oldestFirst : Sql.OrderBy (EmbeddingRow ν) :=
  ((Sql.OrderBy.asc (·.contentHash)).thenBy (.asc (·.createdAt))).thenBy (.asc (·.id.toNat))

def existingHashes (db : Sql.Engine (EmbeddingRow ν)) (t : EmbeddingTable ν)
    (active : EmbeddingSpace) (projectId : Uuid) (level : EmbeddingLevel) :
    List (String × Uuid) :=
  (Sql.distinctOn (·.contentHash) (db.select oldestFirst (t.reusable active projectId level))).map
    fun r => (r.contentHash, r.id)

def getVector (t : EmbeddingTable ν) (id projectId : Uuid) : Option (List ν) :=
  (t.rows.find? fun r => r.id = id ∧ r.projectId = projectId).map (·.embedding)

/-! ## Similarity search -/

def containsAll (filterMetadata filters : JsonDict) : Bool :=
  filters.all fun e => filterMetadata.lookup e.1 = some e.2

/-- Nearest neighbours within an explicit set of projects, given the distance of each vector to the
query vector. An empty list of projects selects nothing, an empty list of contracts every one. -/
def search (db : Sql.Engine (EmbeddingRow ν)) (t : EmbeddingTable ν) (distance : List ν → Rat)
    (projectIds : List Uuid) (level : EmbeddingLevel) (limit : Nat) (contractIds : List Uuid)
    (metadataFilters : JsonDict) (maxDistance : Rat) (model : String) : List (EmbeddingRow ν) :=
  let rows := t.rows.filter fun r =>
    r.projectId ∈ projectIds && r.level = level &&
      (contractIds.isEmpty || r.contractId ∈ contractIds) && r.model = model &&
      containsAll r.filterMetadata metadataFilters && distance r.embedding ≤ maxDistance
  (db.select (.asc fun r => distance r.embedding) rows).take limit

/-! ## Reporting -/

def countAt (t : EmbeddingTable ν) (contractId projectId : Uuid) (level : EmbeddingLevel) : Nat :=
  (t.rows.filter fun r =>
    r.contractId = contractId ∧ r.projectId = projectId ∧ r.level = level).length

end EmbeddingTable

end Clear
