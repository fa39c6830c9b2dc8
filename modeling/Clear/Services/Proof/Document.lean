import Clear.Services.Upload

/-!
# One document of a batch

What `processOne` does to the rows, for a database that satisfies its constraints
(`Contracts.Valid`) and newly drawn identifiers:

* `validate_ok`, `convertToPdf_ok`: what a document that passes the checks is described by,
* `createContract_eq`, `addVersion_eq`: the two writes,
* `processOne_cases`: a document is refused and changes nothing, or it is `Ready` and persisted,
* `persist_cases`: what persisting it does,
* `created_valid`, `versioned_valid`: both writes keep the constraints.
-/

namespace Clear

/-- The constraints of the tables: unique ids, digests and version numbers, and the foreign key of the
versions. -/
structure Contracts.Valid (s : Contracts) : Prop where
  ids : (s.contracts.map (·.id)).Nodup
  digests : (s.contracts.map (·.digest)).Nodup
  keys : (s.versions.map (·.key)).Nodup
  owned : ∀ v ∈ s.versions, ∃ r ∈ s.contracts, r.id = v.contractId

namespace Upload

variable {env : UploadEnv} {request : UploadRequest} {s : Contracts} {c c' : Carried}
  {drawn : Drawn} {item : PendingUpload} {validated : ValidatedFile}
  {converted : Option (Bytes × ValidatedFile)}

/-! ## Validation and conversion -/

theorem validateContent_ok {fileName : String} {fileType : FileType} {content : Bytes}
    (h : validateContent env fileName fileType content = .ok validated) :
    (signatures fileType).any (·.isPrefixOf (content.take 8)) = true ∧
      validated =
        { fileName, fileType, size := content.length, sha256 := env.sha256 content
          contentType := contentTypes fileType } := by
  unfold validateContent at h
  simp only at h
  split at h
  · cases h
  split at h
  · cases h
  split at h
  · cases h
  next hsig =>
    split at h
    · cases h
    · exact ⟨by simpa using hsig, (Except.ok.inj h).symm⟩

theorem validate_ok {fileName : String} {content : Bytes}
    (h : validate env fileName content = .ok validated) :
    (signatures validated.fileType).any (·.isPrefixOf (content.take 8)) = true ∧
      validated.size = content.length ∧ validated.sha256 = env.sha256 content ∧
      validated.fileName = fileName := by
  unfold validate at h
  simp only at h
  split at h
  · cases h
  split at h
  · cases h
  · obtain ⟨hsig, rfl⟩ := validateContent_ok h
    exact ⟨hsig, rfl, rfl, rfl⟩

theorem convertToPdf_none {content : Bytes}
    (h : convertToPdf env content validated = .ok none) : validated.fileType = .pdf := by
  unfold convertToPdf at h
  split at h
  · obtain ⟨_, _, h⟩ := Except.map_eq_ok.1 h
    cases h
  next hw =>
    cases hft : validated.fileType with
    | pdf => rfl
    | doc => simp [hft, FileType.needsPdfConversion] at hw
    | docx => simp [hft, FileType.needsPdfConversion] at hw

theorem convertToPdf_some {content pdf : Bytes} {processed : ValidatedFile}
    (h : convertToPdf env content validated = .ok (some (pdf, processed))) :
    pdfSignature.isPrefixOf pdf = true ∧ processed.fileType = .pdf ∧
      processed.size = pdf.length ∧ processed.sha256 = env.sha256 pdf := by
  unfold convertToPdf at h
  split at h
  · obtain ⟨result, hresult, h⟩ := Except.map_eq_ok.1 h
    cases h
    exact ⟨(toPdf_ok hresult).1, rfl, rfl, rfl⟩
  · cases h

/-- The document passes the checks and, if it is a Word document, its conversion. -/
def Ready (env : UploadEnv) (item : PendingUpload) (validated : ValidatedFile)
    (converted : Option (Bytes × ValidatedFile)) : Prop :=
  validate env item.fileName item.content = .ok validated ∧
    convertToPdf env item.content validated = .ok converted

theorem Ready.sha256 (h : Ready env item validated converted) :
    validated.sha256 = env.sha256 item.content := (validate_ok h.1).2.2.1

/-! ## The two writes -/

/-- A file whose bytes are those of pass one is stored. -/
theorem store_eq {objects : Objects} {key : String} {content : Bytes}
    (h : validated.sha256 = env.sha256 content) :
    store env objects key content validated = .ok (Function.update objects key (some content)) := by
  simp [store, Objects.putStream, h]

def originalKey (request : UploadRequest) (contractId : Uuid) (validated : ValidatedFile) : String :=
  StorageKey.contractFile request.projectId contractId 1 validated.fileName

def convertedKey (request : UploadRequest) (contractId : Uuid) (validated : ValidatedFile)
    (converted : Option (Bytes × ValidatedFile)) : Option String :=
  converted.map fun _ =>
    StorageKey.contractFile request.projectId contractId 1 (pdfNameFor validated.fileName)

def convertedObjects (request : UploadRequest) (objects : Objects) (contractId : Uuid)
    (validated : ValidatedFile) : Option (Bytes × ValidatedFile) → Objects
  | none => objects
  | some (pdf, _) =>
    Function.update objects
      (StorageKey.contractFile request.projectId contractId 1 (pdfNameFor validated.fileName))
      (some pdf)

def storedObjects (request : UploadRequest) (objects : Objects) (contractId : Uuid)
    (item : PendingUpload) (validated : ValidatedFile)
    (converted : Option (Bytes × ValidatedFile)) : Objects :=
  convertedObjects request
    (Function.update objects (originalKey request contractId validated) (some item.content))
    contractId validated converted

theorem storeConverted_eq {objects : Objects} {contractId : Uuid} {content : Bytes}
    (h : convertToPdf env content validated = .ok converted) :
    storeConverted env objects request.projectId contractId validated converted =
      .ok (convertedObjects request objects contractId validated converted,
        convertedKey request contractId validated converted) := by
  cases converted with
  | none => rfl
  | some e =>
    obtain ⟨pdf, processed⟩ := e
    simp only [storeConverted, store_eq (convertToPdf_some h).2.2.2]
    rfl

def createdRow (request : UploadRequest) (contractId : Uuid) (item : PendingUpload)
    (validated : ValidatedFile) (converted : Option (Bytes × ValidatedFile)) : ContractRow :=
  contractRow request contractId validated (converted.map (·.2)) item.archive
    (originalKey request contractId validated) (convertedKey request contractId validated converted)

def firstVersion (request : UploadRequest) (row : ContractRow) : ContractVersion :=
  { contractId := row.id
    projectId := row.projectId
    version := 1
    storagePath := row.storagePath
    sha256Hash := row.sha256Hash
    fileSize := row.fileSize
    originalFileName := row.originalFileName
    uploadedBy := request.actorId
    changeNote := "Initial upload." }

def created (request : UploadRequest) (s : Contracts) (contractId : Uuid) (item : PendingUpload)
    (validated : ValidatedFile) (converted : Option (Bytes × ValidatedFile)) : Contracts :=
  let row := createdRow request contractId item validated converted
  { s with
    objects := storedObjects request s.objects contractId item validated converted
    contracts := s.contracts ++ [row]
    versions := s.versions ++ [firstVersion request row] }

theorem nextVersion_new {contractId : Uuid} (h : ∀ v ∈ s.versions, v.contractId ≠ contractId) :
    s.nextVersion contractId = 1 := by
  unfold Contracts.nextVersion
  rw [List.filter_eq_nil_iff.2]
  · rfl
  · simpa using h

theorem createContract_eq (hs : s.Valid) (hid : ∀ r ∈ s.contracts, r.id ≠ drawn.contractId)
    (h : Ready env item validated converted) :
    createContract env request s drawn.contractId item validated converted =
      if s.contracts.any (·.digest == (request.projectId, validated.sha256)) then
        .error
          { objects := storedObjects request s.objects drawn.contractId item validated converted
            error := .integrity "uq_contracts_project_id_sha256_hash" }
      else
        .ok (created request s drawn.contractId item validated converted,
          createdRow request drawn.contractId item validated converted, 1) := by
  have hnew : ∀ v ∈ s.versions, v.contractId ≠ drawn.contractId := by
    intro v hv he
    obtain ⟨r, hr, hrid⟩ := hs.owned v hv
    exact hid r hr (hrid.trans he)
  have hdigest : (createdRow request drawn.contractId item validated converted).digest =
      (request.projectId, validated.sha256) := rfl
  unfold createContract
  simp only [store_eq h.sha256, bind, Except.bind, storeConverted_eq h.2]
  rw [Contracts.insertContract_eq hid]
  by_cases hclash : s.contracts.any (·.digest == (request.projectId, validated.sha256)) = true
  · rw [if_pos hclash]
    simp only [← hdigest] at hclash
    erw [if_pos hclash]
    rfl
  · rw [if_neg hclash]
    simp only [← hdigest] at hclash
    erw [if_neg hclash]
    simp only [orAbort, Except.mapError]
    rw [Contracts.insertVersion_next]
    · rfl
    · exact (nextVersion_new hnew).symm

def versionKey (s : Contracts) (contract : ContractRow) (validated : ValidatedFile) : String :=
  StorageKey.contractFile contract.projectId contract.id (s.nextVersion contract.id)
    validated.fileName

def versionedRow (s : Contracts) (contract : ContractRow) (validated : ValidatedFile) :
    ContractRow :=
  pointAt (versionKey s contract validated) validated (s.nextVersion contract.id) contract

def replacementVersion (request : UploadRequest) (row : ContractRow) : ContractVersion :=
  { contractId := row.id
    projectId := row.projectId
    version := row.currentVersion
    storagePath := row.storagePath
    sha256Hash := row.sha256Hash
    fileSize := row.fileSize
    originalFileName := row.originalFileName
    uploadedBy := request.actorId
    changeNote := "Replacement upload." }

def versioned (request : UploadRequest) (s : Contracts) (contract : ContractRow)
    (item : PendingUpload) (validated : ValidatedFile) : Contracts :=
  let row := versionedRow s contract validated
  { s with
    objects := Function.update s.objects row.storagePath (some item.content)
    contracts := s.contracts.map fun r =>
      if r.id = contract.id then
        pointAt row.storagePath validated row.currentVersion r
      else r
    versions := s.versions ++ [replacementVersion request row] }

theorem addVersion_eq (contract : ContractRow) (h : Ready env item validated converted) :
    addVersion env request s contract item validated =
      .ok (versioned request s contract item validated, versionedRow s contract validated,
        s.nextVersion contract.id) := by
  unfold addVersion
  simp only [store_eq h.sha256, bind, Except.bind]
  rw [Contracts.insertVersion_next]
  · rfl
  · rfl

/-! ## What one document does -/

/-- The document is not stored. -/
def Processed.Refused (p : Processed) : Prop :=
  (p.result.status = .rejected ∨ p.result.status = .duplicate) ∧ p.message = none

def replaces (request : UploadRequest) (s : Contracts) (validated : ValidatedFile) :
    Option ContractRow :=
  if request.options.replaceExisting then s.getByHash request.projectId validated.sha256 else none

def duplicateOf (env : UploadEnv) (request : UploadRequest) (s : Contracts)
    (validated : ValidatedFile) : Option ContractRow :=
  if env.settings.duplicateCheck && !request.options.replaceExisting then
    s.getByHash request.projectId validated.sha256
  else none

/-- A document that the batch already holds is a duplicate. -/
theorem processOne_seen {contractId : Uuid}
    (hv : validate env item.fileName item.content = .ok validated)
    (hseen : c.seen.lookup validated.sha256 = some contractId) :
    ∃ message, processOne env request c drawn item =
      .ok (c, duplicateFile item.fileName validated contractId message) := by
  simp only [processOne, hv, hseen]
  exact ⟨_, rfl⟩

/-- So is one that the project holds, while duplicates are checked. -/
theorem processOne_duplicate {contract : ContractRow}
    (hv : validate env item.fileName item.content = .ok validated)
    (hseen : c.seen.lookup validated.sha256 = none)
    (hdup : duplicateOf env request c.state validated = some contract) :
    ∃ message, processOne env request c drawn item =
      .ok (c, duplicateFile item.fileName validated contract.id message) := by
  unfold duplicateOf at hdup
  simp only [processOne, hv, hseen, hdup]
  exact ⟨_, rfl⟩

theorem processOne_persist (h : Ready env item validated converted)
    (hseen : c.seen.lookup validated.sha256 = none)
    (hdup : duplicateOf env request c.state validated = none) :
    processOne env request c drawn item =
      persist env request c drawn item validated
        (c.state.getByHash request.projectId validated.sha256) converted := by
  unfold duplicateOf at hdup
  simp only [processOne, h.1, h.2, hseen, hdup]

/-- A document is refused, which changes nothing, or it is ready, new to the batch and no
duplicate, and is persisted. -/
theorem processOne_cases (env : UploadEnv) (request : UploadRequest) (c : Carried) (drawn : Drawn)
    (item : PendingUpload) :
    (∃ p, Processed.Refused p ∧ processOne env request c drawn item = .ok (c, p)) ∨
      ∃ validated converted, Ready env item validated converted ∧
        c.seen.lookup validated.sha256 = none ∧ duplicateOf env request c.state validated = none ∧
        processOne env request c drawn item =
          persist env request c drawn item validated
            (c.state.getByHash request.projectId validated.sha256) converted := by
  cases hv : validate env item.fileName item.content with
  | error e =>
    refine .inl ⟨rejectedFile item.fileName none e, ⟨.inl rfl, rfl⟩, ?_⟩
    simp only [processOne, hv]
  | ok validated =>
    cases hseen : c.seen.lookup validated.sha256 with
    | some contractId =>
      obtain ⟨message, h⟩ := processOne_seen hv hseen
      exact .inl ⟨_, ⟨.inr rfl, rfl⟩, h⟩
    | none =>
      cases hdup : duplicateOf env request c.state validated with
      | some contract =>
        obtain ⟨message, h⟩ := processOne_duplicate hv hseen hdup
        exact .inl ⟨_, ⟨.inr rfl, rfl⟩, h⟩
      | none =>
        cases hconv : convertToPdf env item.content validated with
        | error e =>
          refine .inl ⟨rejectedFile item.fileName (some validated) e, ⟨.inl rfl, rfl⟩, ?_⟩
          unfold duplicateOf at hdup
          simp only [processOne, hv, hseen, hdup, hconv]
        | ok converted =>
          exact .inr ⟨validated, converted, ⟨hv, hconv⟩, hseen, hdup,
            processOne_persist ⟨hv, hconv⟩ hseen hdup⟩

structure Accepted (request : UploadRequest) (c : Carried) (drawn : Drawn) (item : PendingUpload)
    (validated : ValidatedFile) (contractId : Uuid) (s : Contracts) (c' : Carried)
    (p : Processed) : Prop where
  contracts : c'.state.contracts = s.contracts
  versions : c'.state.versions = s.versions
  objects : c'.state.objects = s.objects
  seen : c'.seen = (validated.sha256, contractId) :: c.seen
  status : p.result.status = .accepted
  contractId : p.result.contractId = some contractId
  sha256 : p.result.sha256 = some validated.sha256

/-- A ready document adds a version to the contract it replaces; otherwise it becomes a contract,
unless its digest is taken. -/
theorem persist_cases (hs : c.state.Valid)
    (hid : ∀ r ∈ c.state.contracts, r.id ≠ drawn.contractId)
    (h : Ready env item validated converted) :
    (∃ contract c' p, replaces request c.state validated = some contract ∧
      Accepted request c drawn item validated contract.id
        (versioned request c.state contract item validated) c' p ∧
      persist env request c drawn item validated
        (c.state.getByHash request.projectId validated.sha256) converted = .ok (c', p)) ∨
    (replaces request c.state validated = none ∧
      (∀ r ∈ c.state.contracts, r.digest ≠ (request.projectId, validated.sha256)) ∧
      ∃ c' p,
        Accepted request c drawn item validated drawn.contractId
          (created request c.state drawn.contractId item validated converted) c' p ∧
        persist env request c drawn item validated
          (c.state.getByHash request.projectId validated.sha256) converted = .ok (c', p)) ∨
    (replaces request c.state validated = none ∧
      (∃ r ∈ c.state.contracts, r.digest = (request.projectId, validated.sha256)) ∧
      persist env request c drawn item validated
        (c.state.getByHash request.projectId validated.sha256) converted =
          .error
            { error := .integrity "uq_contracts_project_id_sha256_hash"
              objects := storedObjects request c.state.objects drawn.contractId item validated
                converted }) := by
  cases hrep : replaces request c.state validated with
  | some contract =>
    left
    unfold replaces at hrep
    unfold persist
    simp only [hrep, addVersion_eq contract h, bind, Except.bind]
    exact ⟨contract, _, _, rfl, ⟨rfl, rfl, rfl, rfl, rfl, rfl, rfl⟩, rfl⟩
  | none =>
    right
    unfold replaces at hrep
    unfold persist
    simp only [hrep, createContract_eq hs hid h, bind, Except.bind]
    by_cases hclash :
        c.state.contracts.any (·.digest == (request.projectId, validated.sha256)) = true
    · right
      rw [if_pos hclash]
      refine ⟨trivial, ?_, rfl⟩
      obtain ⟨r, hr, hd⟩ := List.any_eq_true.1 hclash
      exact ⟨r, hr, by simpa using hd⟩
    · left
      rw [if_neg hclash]
      refine ⟨trivial, ?_, _, _, ⟨rfl, rfl, rfl, rfl, rfl, rfl, rfl⟩, rfl⟩
      simpa using hclash

/-- What a document that does not abort the request does. -/
inductive Done (env : UploadEnv) (request : UploadRequest) (c : Carried) (drawn : Drawn)
    (item : PendingUpload) : Carried → Processed → Prop
  | refused (p : Processed) (hp : p.Refused) : Done env request c drawn item c p
  | created (validated : ValidatedFile) (converted : Option (Bytes × ValidatedFile)) (c' : Carried)
      (p : Processed) (hready : Ready env item validated converted)
      (hseen : c.seen.lookup validated.sha256 = none)
      (hfree : ∀ r ∈ c.state.contracts, r.digest ≠ (request.projectId, validated.sha256))
      (ha : Accepted request c drawn item validated drawn.contractId
        (created request c.state drawn.contractId item validated converted) c' p) :
      Done env request c drawn item c' p
  | versioned (validated : ValidatedFile) (converted : Option (Bytes × ValidatedFile))
      (contract : ContractRow) (c' : Carried) (p : Processed)
      (hready : Ready env item validated converted)
      (hseen : c.seen.lookup validated.sha256 = none)
      (hrep : replaces request c.state validated = some contract)
      (ha : Accepted request c drawn item validated contract.id
        (versioned request c.state contract item validated) c' p) :
      Done env request c drawn item c' p

theorem done_of_ok {p : Processed} (hs : c.state.Valid)
    (hid : ∀ r ∈ c.state.contracts, r.id ≠ drawn.contractId)
    (hok : processOne env request c drawn item = .ok (c', p)) :
    Done env request c drawn item c' p := by
  rcases processOne_cases env request c drawn item with ⟨p', hp', hrefused⟩ |
    ⟨validated, converted, hready, hseen, -, hpersist⟩
  · cases hrefused.symm.trans hok
    exact .refused p hp'
  · rw [hpersist] at hok
    rcases persist_cases hs hid hready with ⟨contract, c'', p', hrep, ha, hok'⟩ |
      ⟨-, hfree, c'', p', ha, hok'⟩ | ⟨-, -, herr⟩
    · cases hok'.symm.trans hok
      exact .versioned validated converted contract c' p hready hseen hrep ha
    · cases hok'.symm.trans hok
      exact .created validated converted c' p hready hseen hfree ha
    · cases herr.symm.trans hok

theorem aborted_of_error {a : Aborted} (hs : c.state.Valid)
    (hid : ∀ r ∈ c.state.contracts, r.id ≠ drawn.contractId)
    (herr : processOne env request c drawn item = .error a) :
    ∃ validated converted,
      a.objects = storedObjects request c.state.objects drawn.contractId item validated converted := by
  rcases processOne_cases env request c drawn item with ⟨p', hp', hrefused⟩ |
    ⟨validated, converted, hready, hseen, -, hpersist⟩
  · cases hrefused.symm.trans herr
  · rw [hpersist] at herr
    rcases persist_cases hs hid hready with ⟨contract, c'', p', hrep, ha, hok⟩ |
      ⟨-, hfree, c'', p', ha, hok⟩ | ⟨-, -, herr'⟩
    · cases hok.symm.trans herr
    · cases hok.symm.trans herr
    · cases herr'.symm.trans herr
      exact ⟨validated, converted, rfl⟩

/-! ## The constraints -/

theorem created_valid (hs : s.Valid) (hid : ∀ r ∈ s.contracts, r.id ≠ drawn.contractId)
    (hfree : ∀ r ∈ s.contracts, r.digest ≠ (request.projectId, validated.sha256)) :
    (created request s drawn.contractId item validated converted).Valid where
  ids := by
    refine Keyed.concat hs.ids fun h => ?_
    obtain ⟨r, hr, he⟩ := List.mem_map.1 h
    exact hid r hr he
  digests := by
    refine Keyed.concat hs.digests fun h => ?_
    obtain ⟨r, hr, he⟩ := List.mem_map.1 h
    exact hfree r hr he
  keys := by
    refine Keyed.concat hs.keys ?_
    simp only [Keyed.Fresh, List.mem_map, not_exists, not_and]
    intro v hv hkey
    obtain ⟨r, hr, hrid⟩ := hs.owned v hv
    exact hid r hr (hrid.trans (Prod.mk.inj hkey).1)
  owned := by
    intro v hv
    rcases List.mem_append.1 hv with hv | hv
    · obtain ⟨r, hr, hrid⟩ := hs.owned v hv
      exact ⟨r, List.mem_append_left _ hr, hrid⟩
    · rw [List.mem_singleton.1 hv]
      exact ⟨_, List.mem_append_right _ (List.mem_singleton_self _), rfl⟩

theorem mem_versioned {contract r : ContractRow} (hs : s.Valid) (hc : contract ∈ s.contracts) :
    r ∈ (versioned request s contract item validated).contracts ↔
      ∃ r₀ ∈ s.contracts, r =
        (if r₀.id = contract.id then versionedRow s contract validated else r₀) := by
  show r ∈ s.contracts.map _ ↔ _
  rw [List.mem_map]
  refine exists_congr fun r₀ => and_congr_right fun hr₀ => ?_
  by_cases he : r₀.id = contract.id
  · obtain rfl := Keyed.inj hs.ids hr₀ hc he
    simp only [if_true]
    exact eq_comm
  · rw [if_neg he, if_neg he]
    exact eq_comm

theorem versioned_map {contract : ContractRow} {α : Type} (f : ContractRow → α) (hs : s.Valid)
    (hc : contract ∈ s.contracts) (hf : f (versionedRow s contract validated) = f contract) :
    (versioned request s contract item validated).contracts.map f = s.contracts.map f := by
  show (s.contracts.map _).map f = _
  rw [List.map_map]
  refine List.map_congr_left fun r hr => ?_
  by_cases he : r.id = contract.id
  · obtain rfl := Keyed.inj hs.ids hr hc he
    simp only [Function.comp, if_true]
    exact hf
  · simp [he]

theorem versionedRow_digest {contract : ContractRow}
    (hd : contract.digest = (request.projectId, validated.sha256)) :
    (versionedRow s contract validated).digest = contract.digest := by
  rw [hd, ← (Prod.mk.inj hd).1]
  rfl

theorem versioned_same {contract r₀ : ContractRow} (hs : s.Valid) (hc : contract ∈ s.contracts)
    (hd : contract.digest = (request.projectId, validated.sha256)) (hr₀ : r₀ ∈ s.contracts) :
    (if r₀.id = contract.id then versionedRow s contract validated else r₀).digest = r₀.digest ∧
      (if r₀.id = contract.id then versionedRow s contract validated else r₀).deletedAt =
        r₀.deletedAt := by
  split
  next he =>
    obtain rfl := Keyed.inj hs.ids hr₀ hc he
    exact ⟨versionedRow_digest hd, rfl⟩
  next => exact ⟨rfl, rfl⟩

theorem versioned_valid {contract : ContractRow} (hs : s.Valid) (hc : contract ∈ s.contracts)
    (hd : contract.digest = (request.projectId, validated.sha256)) :
    (versioned request s contract item validated).Valid where
  ids := by
    rw [versioned_map (·.id) hs hc rfl]
    exact hs.ids
  digests := by
    rw [versioned_map (·.digest) hs hc (versionedRow_digest hd)]
    exact hs.digests
  keys := by
    refine Keyed.concat hs.keys ?_
    simp only [Keyed.Fresh, List.mem_map, not_exists, not_and]
    intro v hv hkey
    obtain ⟨hvid, hver⟩ := Prod.mk.inj hkey
    have hlt := Contracts.lt_nextVersion hv hvid
    exact absurd hver (Nat.ne_of_lt hlt)
  owned := by
    have hmem : ∀ {id : Uuid}, id ∈ (versioned request s contract item validated).contracts.map
        (·.id) ↔ id ∈ s.contracts.map (·.id) := by
      intro id
      rw [versioned_map (·.id) hs hc rfl]
    intro v hv
    refine List.mem_map.1 (hmem.2 (List.mem_map.2 ?_))
    rcases List.mem_append.1 hv with hv | hv
    · exact hs.owned v hv
    · rw [List.mem_singleton.1 hv]
      exact ⟨contract, hc, rfl⟩

theorem Done.ids {p : Processed} (hs : c.state.Valid) (h : Done env request c drawn item c' p) :
    ∀ r ∈ c'.state.contracts, r.id = drawn.contractId ∨ ∃ r₀ ∈ c.state.contracts, r.id = r₀.id := by
  intro r hr
  cases h with
  | refused => exact .inr ⟨r, hr, rfl⟩
  | created _ _ _ _ _ _ _ ha =>
    rw [ha.contracts] at hr
    rcases List.mem_append.1 hr with hr | hr
    · exact .inr ⟨r, hr, rfl⟩
    · rw [List.mem_singleton.1 hr]
      exact .inl rfl
  | versioned _ _ contract _ _ _ _ hrep ha =>
    obtain ⟨-, hget⟩ := Option.ite_none_right_eq_some.1 hrep
    have hc := (Contracts.getByHash_some hget).1
    have hmem : r.id ∈ c'.state.contracts.map (·.id) := List.mem_map_of_mem hr
    rw [ha.contracts, versioned_map (·.id) hs hc rfl] at hmem
    obtain ⟨r₀, hr₀, he⟩ := List.mem_map.1 hmem
    exact .inr ⟨r₀, hr₀, he.symm⟩

theorem Accepted.valid {contractId : Uuid} {p : Processed}
    (h : Accepted request c drawn item validated contractId s c' p) (hs : s.Valid) :
    c'.state.Valid where
  ids := by
    rw [h.contracts]
    exact hs.ids
  digests := by
    rw [h.contracts]
    exact hs.digests
  keys := by
    rw [h.versions]
    exact hs.keys
  owned := by
    rw [h.versions, h.contracts]
    exact hs.owned

end Upload

end Clear
