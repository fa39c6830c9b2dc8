import Clear.Models.Processing
import Clear.Storage.Base

/-!
# Contracts and their versions

The rows of `contracts` and `contract_versions` with the columns that uploads write, and the queries
over them. `Contracts` is the state an upload works on: both tables, the jobs it creates and the
objects in storage. The unique constraints are checked by the inserts.
-/

namespace Clear

/-- A row of `contracts`. `sha256Hash` is the hash of the file the user uploaded; the columns from
`storagePath` on describe the file to be processed. -/
structure ContractRow where
  id : Uuid
  projectId : Uuid
  uploadedBy : Option Uuid
  originalFileName : String
  originalFilePath : Option String
  convertedFilePath : Option String
  originalFileType : Option FileType
  sha256Hash : String
  storagePath : String
  processingFilePath : Option String
  processingSha256 : Option String
  fileType : FileType
  fileSize : Nat
  mimeType : Option String
  sourceArchiveId : Option Uuid := none
  sourceArchiveName : Option String := none
  title : Option String := none
  contractNumber : Option String := none
  agreementType : Option String := none
  status : ContractStatus := .uploaded
  currentVersion : Nat := 1
  pageCount : Option Nat := none
  needsReview : Bool := false
  processedAt : Option Timestamp := none
  tags : List String := []
  notes : Option String := none
  deletedAt : Option Timestamp := none
  createdAt : Timestamp := 0
  deriving DecidableEq

/-- A row of `contract_versions`: an immutable snapshot of a contract's source file. -/
structure ContractVersion where
  contractId : Uuid
  projectId : Uuid
  version : Nat
  storagePath : String
  sha256Hash : String
  fileSize : Nat
  originalFileName : String
  uploadedBy : Option Uuid
  changeNote : Option String
  deriving DecidableEq

def ContractRow.digest (r : ContractRow) : Uuid × String := (r.projectId, r.sha256Hash)

def ContractVersion.key (v : ContractVersion) : Uuid × Nat := (v.contractId, v.version)

structure Contracts where
  contracts : List ContractRow := []
  versions : List ContractVersion := []
  jobs : List ProcessingJob := []
  objects : Objects := fun _ => none

namespace Contracts

/-- The constraint that an `INSERT` or `UPDATE` violates. -/
abbrev IntegrityError := String

/-! ## Queries -/

def getByHash (s : Contracts) (projectId : Uuid) (sha256 : String) : Option ContractRow :=
  s.contracts.find? fun r =>
    r.deletedAt.isNone && r.projectId == projectId && r.sha256Hash == sha256

def nextVersion (s : Contracts) (contractId : Uuid) : Nat :=
  (s.versions.filter (·.contractId == contractId)).foldl (fun n v => max n v.version) 0 + 1

/-! ## Writes -/

def insertContract (s : Contracts) (row : ContractRow) : Except IntegrityError Contracts :=
  if s.contracts.any (·.id == row.id) then .error "pk_contracts"
  else if s.contracts.any (·.digest == row.digest) then
    .error "uq_contracts_project_id_sha256_hash"
  else .ok { s with contracts := s.contracts ++ [row] }

def insertVersion (s : Contracts) (v : ContractVersion) : Except IntegrityError Contracts :=
  if s.versions.any (·.key == v.key) then .error "uq_contract_versions_contract_id_version"
  else .ok { s with versions := s.versions ++ [v] }

def updateContract (s : Contracts) (id : Uuid) (f : ContractRow → ContractRow) : Contracts :=
  { s with contracts := s.contracts.map fun r => if r.id = id then f r else r }

def softDelete (s : Contracts) (id : Uuid) (now : Timestamp) : Contracts :=
  s.updateContract id fun r => { r with deletedAt := some now, status := .archived }

/-! ## Spec lemmas -/

variable {s t : Contracts} {row : ContractRow} {v : ContractVersion}

theorem getByHash_some {projectId : Uuid} {sha256 : String}
    (h : s.getByHash projectId sha256 = some row) :
    row ∈ s.contracts ∧ row.deletedAt = none ∧ row.digest = (projectId, sha256) := by
  unfold getByHash at h
  have hp := List.find?_some h
  simp only [Bool.and_eq_true, Option.isNone_iff_eq_none, beq_iff_eq] at hp
  exact ⟨List.mem_of_find?_eq_some h, hp.1.1, by rw [ContractRow.digest, hp.1.2, hp.2]⟩

theorem getByHash_none {projectId : Uuid} {sha256 : String}
    (h : s.getByHash projectId sha256 = none) (hr : row ∈ s.contracts)
    (hd : row.digest = (projectId, sha256)) : row.deletedAt ≠ none := by
  intro hlive
  have hp := List.find?_eq_none.1 h row hr
  obtain ⟨h1, h2⟩ := Prod.mk.inj hd
  simp [hlive, h1, h2] at hp

theorem insertContract_eq (hid : ∀ r ∈ s.contracts, r.id ≠ row.id) :
    s.insertContract row =
      if s.contracts.any (·.digest == row.digest) then
        .error "uq_contracts_project_id_sha256_hash"
      else .ok { s with contracts := s.contracts ++ [row] } := by
  unfold insertContract
  rw [if_neg]
  simpa using hid

theorem le_foldl_max (l : List ContractVersion) (n : Nat) :
    n ≤ l.foldl (fun n v => max n v.version) n ∧
      ∀ v ∈ l, v.version ≤ l.foldl (fun n v => max n v.version) n := by
  induction l generalizing n with
  | nil => simp
  | cons v l ih =>
    obtain ⟨hn, hl⟩ := ih (max n v.version)
    rw [List.foldl_cons]
    refine ⟨by omega, fun w hw => ?_⟩
    rcases List.mem_cons.1 hw with rfl | hw
    · omega
    · exact hl w hw

theorem lt_nextVersion {contractId : Uuid} (hv : v ∈ s.versions) (hc : v.contractId = contractId) :
    v.version < s.nextVersion contractId := by
  unfold nextVersion
  have := (le_foldl_max (s.versions.filter (·.contractId == contractId)) 0).2 v
    (List.mem_filter.2 ⟨hv, by simpa using hc⟩)
  omega

theorem insertVersion_next (h : v.version = s.nextVersion v.contractId) :
    s.insertVersion v = .ok { s with versions := s.versions ++ [v] } := by
  unfold insertVersion
  rw [if_neg]
  simp only [List.any_eq_true, beq_iff_eq, not_exists, not_and]
  intro w hw hkey
  obtain ⟨hid, hver⟩ := Prod.mk.inj hkey
  have := lt_nextVersion hw hid
  omega

end Contracts

end Clear
