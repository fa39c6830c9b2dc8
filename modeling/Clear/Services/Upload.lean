import Clear.Lib.Except
import Clear.Repositories.Contract
import Clear.Repositories.Jobs
import Clear.Services.Archive
import Mathlib.Data.String.Basic

/-!
# Uploads

`UploadService.upload`: a batch of files becomes contracts, or versions of contracts, each with a
queued job. An archive is replaced by the documents inside it; each document is validated, hashed,
compared with what the project and the batch already hold, converted if it is a Word document, and
stored (`processOne`). The batch is one transaction: an exception that reaches `upload` leaves the
rows as they were (`Aborted`), while objects already written stay.

The reader of ZIP directories, LibreOffice, the digest and the queue are fields of `UploadEnv`.
-/

/-!
## Word documents to PDF

`DocumentConverter.to_pdf`. What the LibreOffice process did is its input (`Soffice`): the
conversion yields bytes that start as a PDF does, or fails with an error that says why.
-/

namespace Clear

def pdfSignature : Bytes := [0x25, 0x50, 0x44, 0x46, 0x2D]

/-- What became of one headless run of LibreOffice. -/
inductive Soffice where
  /-- The binary was not found. -/
  | missing
  | timedOut
  | notRun (binary error : String)
  /-- The process ended; `output` is what it printed, `produced` the PDFs in its output directory. -/
  | exited (returncode : Int) (output : String) (produced : List Bytes)

structure ConversionResult where
  content : Bytes
  fileName : String

/-- `Agreement.docx` is stored as `Agreement.pdf`. -/
def pdfNameFor (fileName : String) : String :=
  ((Text.rsplit1 '.' fileName).map (·.1)).getD fileName ++ ".pdf"

def conversionError (message : String) (details : JsonDict) (retryable : Bool) : AppError :=
  { exception := "ConversionError", code := "conversion_failed", message, details, retryable }

def toPdf (soffice : Bytes → FileType → Soffice) (libreofficePath : String)
    (timeoutSeconds : Nat) (content : Bytes) (fileName : String) (fileType : FileType) :
    Except AppError ConversionResult :=
  let named : String × Json := ("file_name", .str fileName)
  if fileType.needsPdfConversion = false then
    .error (conversionError (fileType.value ++ " does not need conversion.") [named] false)
  else
    match soffice content fileType with
    | .missing =>
      .error (conversionError
        ("Word documents cannot be converted because LibreOffice is not installed or " ++
          "LIBREOFFICE_PATH does not point at it. PDF uploads are unaffected.")
        [named, ("configured_path", .str libreofficePath)] false)
    | .timedOut =>
      .error (conversionError
        ("Converting '" ++ fileName ++ "' timed out after " ++ timeoutSeconds.repr ++ "s.")
        [named] true)
    | .notRun binary error =>
      .error (conversionError ("Could not run LibreOffice: " ++ error)
        [named, ("binary", .str binary)] false)
    | .exited 0 _ (pdf :: _) =>
      if pdfSignature.isPrefixOf pdf then .ok { content := pdf, fileName := pdfNameFor fileName }
      else
        .error (conversionError
          ("The file produced from '" ++ fileName ++ "' is not a valid PDF.") [named] false)
    | .exited returncode output produced =>
      let detail := Text.strip output
      .error (conversionError
        ("'" ++ fileName ++ "' could not be converted to PDF." ++
          if detail = "" then "" else " LibreOffice said: " ++ Text.take 300 detail)
        [named, ("exit_code", .int returncode), ("produced", .int produced.length)] false)

theorem toPdf_ok {soffice : Bytes → FileType → Soffice} {libreofficePath : String}
    {timeoutSeconds : Nat} {content : Bytes} {fileName : String} {fileType : FileType}
    {result : ConversionResult}
    (h : toPdf soffice libreofficePath timeoutSeconds content fileName fileType = .ok result) :
    pdfSignature.isPrefixOf result.content = true ∧ result.fileName = pdfNameFor fileName := by
  unfold toPdf at h
  simp only at h
  split at h
  · cases h
  · split at h
    any_goals cases h
    split at h
    next hsig =>
      cases h
      exact ⟨hsig, rfl⟩
    next => cases h

end Clear

namespace Clear

/-! ## Settings and requests -/

structure UploadSettings where
  maxUploadSizeMb : Nat := 200
  maxFilesPerUpload : Nat := 100
  allowedFileTypes : List String := ["pdf", "doc", "docx", "zip"]
  libreofficePath : String := ""
  conversionTimeoutSeconds : Nat := 180
  duplicateCheck : Bool := true

def UploadSettings.maxUploadSizeBytes (s : UploadSettings) : Nat := s.maxUploadSizeMb * 1024 * 1024

structure UploadEnv where
  settings : UploadSettings := {}
  sha256 : Bytes → String
  /-- The names in the central directory of a ZIP file; `none` if it is not one. -/
  namelist : Bytes → Option (List String)
  soffice : Bytes → FileType → Soffice
  /-- `archive.extract`. -/
  extract : Bytes → String → Except AppError ArchiveContents
  /-- The queue takes the messages. -/
  accepts : List StageMessage → Bool

structure UploadFile where
  filename : Option String
  content : Bytes

structure ArchiveRef where
  id : Uuid
  name : String

/-- One document to process, whether uploaded directly or unpacked. -/
structure PendingUpload where
  fileName : String
  content : Bytes
  archive : Option ArchiveRef := none

structure UploadOptions where
  priority : JobPriority := .normal
  agreementType : Option String := none
  tags : List String := []
  replaceExisting : Bool := false
  notes : Option String := none

/-- The identifiers drawn while one document is processed. -/
structure Drawn where
  contractId : Uuid
  jobId : Uuid
  dispatchId : String

structure UploadRequest where
  projectId : Uuid
  /-- The project's setting `processing_priority`. -/
  processingPriority : Option String := none
  files : List UploadFile
  options : UploadOptions := {}
  actorId : Uuid
  trace : List (String × String) := []
  archiveIds : Nat → Uuid := fun _ => 0
  draws : Nat → Drawn
  now : Timestamp := 0

/-! ## Results -/

inductive UploadStatus where
  | accepted | duplicate | rejected | expanded
  deriving DecidableEq, Repr

structure UploadedFileResult where
  fileName : String
  contractId : Option Uuid := none
  jobId : Option Uuid := none
  status : UploadStatus
  size : Option Nat := none
  sha256 : Option String := none
  existingContractId : Option Uuid := none
  errorCode : Option String := none
  message : Option String := none
  deriving DecidableEq

structure UploadResponse where
  projectId : Uuid
  total : Nat
  accepted : Nat
  duplicates : Nat
  rejected : Nat
  files : List UploadedFileResult
  jobIds : List Uuid
  message : String

inductive UploadError where
  | app (e : AppError)
  | integrity (constraint : String)
  deriving DecidableEq

structure Aborted where
  error : UploadError
  objects : Objects

namespace Upload

/-! ## Validation -/

/-- The result of pass one over an uploaded stream. -/
structure ValidatedFile where
  fileName : String
  fileType : FileType
  size : Nat
  sha256 : String
  contentType : String

def signatures : FileType → List Bytes
  | .pdf => [pdfSignature]
  | .docx => [[0x50, 0x4B, 0x03, 0x04], [0x50, 0x4B, 0x05, 0x06], [0x50, 0x4B, 0x07, 0x08]]
  | .doc => [[0xD0, 0xCF, 0x11, 0xE0, 0xA1, 0xB1, 0x1A, 0xE1]]

def contentTypes : FileType → String
  | .pdf => "application/pdf"
  | .doc => "application/msword"
  | .docx => "application/vnd.openxmlformats-officedocument.wordprocessingml.document"

def extension (fileName : String) : String :=
  match Text.rsplit1 '.' fileName with
  | none => ""
  | some (_, ext) => Text.lower ext

def isArchive (fileName : String) : Bool := extension fileName = ArchiveType.zip.value

def unsupported (message : String) (details : JsonDict) : AppError :=
  { exception := "UnsupportedFileTypeError", code := "unsupported_file_type", message, details }

def validationError (message : String) (details : JsonDict) : AppError :=
  { exception := "ValidationError", code := "validation_error", message, details }

/-- Does this ZIP contain the part every Word document has? -/
def looksLikeDocx (env : UploadEnv) (content : Bytes) : Bool :=
  ((env.namelist content).getD []).any (Text.startsWith "word/")

def validateContent (env : UploadEnv) (fileName : String) (fileType : FileType)
    (content : Bytes) : Except AppError ValidatedFile :=
  let limit := env.settings.maxUploadSizeBytes
  if limit < content.length then
    .error
      { exception := "FileTooLargeError", code := "file_too_large"
        message := "'" ++ fileName ++ "' exceeds the " ++ env.settings.maxUploadSizeMb.repr ++
          " MB limit."
        details := [("file_name", .str fileName), ("limit_bytes", .int limit)] }
  else if content.length = 0 then
    .error (validationError ("'" ++ fileName ++ "' is empty.") [("file_name", .str fileName)])
  else if (signatures fileType).any (·.isPrefixOf (content.take 8)) = false then
    .error (unsupported
      ("'" ++ fileName ++ "' is not a valid " ++ fileType.value.toUpper ++
        " file - its contents do not match its extension.")
      [("file_name", .str fileName), ("declared_type", .str fileType.value)])
  else if fileType = .docx ∧ looksLikeDocx env content = false then
    .error (unsupported
      ("'" ++ fileName ++ "' is a ZIP archive but not a Word document. " ++
        "Rename it to .zip to upload it as an archive.")
      [("file_name", .str fileName), ("declared_type", .str fileType.value)])
  else
    .ok
      { fileName, fileType
        size := content.length
        sha256 := env.sha256 content
        contentType := contentTypes fileType }

/-- Pass one: type, size, signature and content hash. -/
def validate (env : UploadEnv) (fileName : String) (content : Bytes) :
    Except AppError ValidatedFile :=
  let ext := extension fileName
  let allowed := env.settings.allowedFileTypes.eraseDups
  if ext ∉ allowed then
    .error (unsupported
      ("'" ++ (if ext = "" then "unknown" else ext) ++ "' files are not supported. Allowed: " ++
        ", ".intercalate (allowed.mergeSort fun a b => decide (a ≤ b)) ++ ".")
      [("file_name", .str fileName), ("extension", .str ext)])
  else
    match FileType.ofValue? ext with
    | none =>
      .error (unsupported ("'" ++ ext ++ "' cannot be stored as a document.")
        [("extension", .str ext), ("file_name", .str fileName)])
    | some fileType => validateContent env fileName fileType content

def convertToPdf (env : UploadEnv) (content : Bytes) (validated : ValidatedFile) :
    Except AppError (Option (Bytes × ValidatedFile)) :=
  if validated.fileType.needsPdfConversion then
    (toPdf env.soffice env.settings.libreofficePath env.settings.conversionTimeoutSeconds content
      validated.fileName validated.fileType).map fun result =>
        some (result.content,
          { fileName := result.fileName
            fileType := .pdf
            size := result.content.length
            sha256 := env.sha256 result.content
            contentType := contentTypes .pdf })
  else .ok none

/-! ## Persistence -/

/-- Pass two: stream the file into storage and compare the hash with that of pass one. -/
def store (env : UploadEnv) (objects : Objects) (key : String) (content : Bytes)
    (validated : ValidatedFile) : Except Aborted Objects :=
  let (objects, result) := objects.putStream env.sha256 key content
  if result.checksum.isSome ∧ result.checksum ≠ some validated.sha256 then
    .error
      { objects
        error := .app (validationError
          ("'" ++ validated.fileName ++ "' changed while uploading. Please try again.")
          [("expected", .str validated.sha256), ("stored", .str (result.checksum.getD ""))]) }
  else .ok objects

def storeConverted (env : UploadEnv) (objects : Objects) (projectId contractId : Uuid)
    (validated : ValidatedFile) :
    Option (Bytes × ValidatedFile) → Except Aborted (Objects × Option String)
  | none => .ok (objects, none)
  | some (pdf, converted) =>
    let key := StorageKey.contractFile projectId contractId 1 (pdfNameFor validated.fileName)
    (store env objects key pdf converted).map (·, some key)

/-- What a failed write of a row does to the request. -/
def orAbort {α : Type} (objects : Objects) (written : Except Contracts.IntegrityError α) :
    Except Aborted α :=
  written.mapError fun constraint => { error := .integrity constraint, objects }

/-- The row of a new contract. The columns of the processed file describe the converted PDF if there
is one, and the original otherwise. -/
def contractRow (request : UploadRequest) (contractId : Uuid) (validated : ValidatedFile)
    (converted : Option ValidatedFile) (archive : Option ArchiveRef) (originalKey : String)
    (convertedKey : Option String) : ContractRow :=
  let key := convertedKey.getD originalKey
  let processed := converted.getD validated
  { id := contractId
    projectId := request.projectId
    uploadedBy := request.actorId
    originalFileName := validated.fileName
    storagePath := key
    originalFilePath := originalKey
    convertedFilePath := convertedKey
    processingFilePath := key
    originalFileType := validated.fileType
    sourceArchiveId := archive.map (·.id)
    sourceArchiveName := archive.map (·.name)
    fileType := processed.fileType
    fileSize := processed.size
    -- The original's hash: it is what duplicate detection compares.
    sha256Hash := validated.sha256
    processingSha256 := processed.sha256
    mimeType := processed.contentType
    title := none
    agreementType := request.options.agreementType
    status := .uploaded
    currentVersion := 1
    tags := request.options.tags
    notes := request.options.notes }

def createContract (env : UploadEnv) (request : UploadRequest) (s : Contracts)
    (contractId : Uuid) (item : PendingUpload) (validated : ValidatedFile)
    (converted : Option (Bytes × ValidatedFile)) : Except Aborted (Contracts × ContractRow × Nat) := do
  let originalKey := StorageKey.contractFile request.projectId contractId 1 validated.fileName
  let objects ← store env s.objects originalKey item.content validated
  let stored ← storeConverted env objects request.projectId contractId validated converted
  let row := contractRow request contractId validated (converted.map (·.2)) item.archive originalKey
    stored.2
  let s ← orAbort stored.1 ({ s with objects := stored.1 }.insertContract row)
  let s ← orAbort stored.1 (s.insertVersion
    { contractId
      projectId := request.projectId
      version := 1
      storagePath := row.storagePath
      sha256Hash := validated.sha256
      fileSize := row.fileSize
      originalFileName := validated.fileName
      uploadedBy := request.actorId
      changeNote := "Initial upload." })
  return (s, row, 1)

def pointAt (key : String) (validated : ValidatedFile) (version : Nat) (r : ContractRow) :
    ContractRow :=
  { r with
    storagePath := key
    sha256Hash := validated.sha256
    fileSize := validated.size
    originalFileName := validated.fileName
    currentVersion := version
    status := .uploaded
    pageCount := none
    needsReview := false
    processedAt := none }

def addVersion (env : UploadEnv) (request : UploadRequest) (s : Contracts) (contract : ContractRow)
    (item : PendingUpload) (validated : ValidatedFile) :
    Except Aborted (Contracts × ContractRow × Nat) := do
  let version := s.nextVersion contract.id
  let key := StorageKey.contractFile contract.projectId contract.id version validated.fileName
  let objects ← store env s.objects key item.content validated
  let s ← orAbort objects ({ s with objects }.insertVersion
    { contractId := contract.id
      projectId := contract.projectId
      version
      storagePath := key
      sha256Hash := validated.sha256
      fileSize := validated.size
      originalFileName := validated.fileName
      uploadedBy := request.actorId
      changeNote := "Replacement upload." })
  return (s.updateContract contract.id (pointAt key validated version),
    pointAt key validated version contract, version)

/-! ## One document -/

def resolvePriority (request : UploadRequest) : JobPriority :=
  if request.options.priority ≠ .normal then request.options.priority
  else (request.processingPriority.bind JobPriority.ofValue?).getD .normal

/-- What the loop over the documents carries: the rows and objects, and the hashes accepted so far in
this batch with the contracts they became. -/
structure Carried where
  state : Contracts
  seen : List (String × Uuid) := []

/-- What one document yields. -/
structure Processed where
  result : UploadedFileResult
  message : Option StageMessage := none

def rejectedFile (fileName : String) (validated : Option ValidatedFile) (e : AppError) :
    Processed :=
  { result :=
      { fileName
        status := .rejected
        size := validated.map (·.size)
        sha256 := validated.map (·.sha256)
        errorCode := e.code
        message := e.message } }

def duplicateFile (fileName : String) (validated : ValidatedFile) (existing : Uuid)
    (message : String) : Processed :=
  { result :=
      { fileName
        status := .duplicate
        size := validated.size
        sha256 := validated.sha256
        existingContractId := existing
        errorCode := "duplicate_document"
        message } }

/-- Persist an accepted document and create its job. -/
def persist (env : UploadEnv) (request : UploadRequest) (carried : Carried) (drawn : Drawn)
    (item : PendingUpload) (validated : ValidatedFile) (existing : Option ContractRow)
    (converted : Option (Bytes × ValidatedFile)) : Except Aborted (Carried × Processed) := do
  let written ←
    match (if request.options.replaceExisting then existing else none) with
    | some contract => addVersion env request carried.state contract item validated
    | none => createContract env request carried.state drawn.contractId item validated converted
  let contract := written.2.1
  let priority := resolvePriority request
  let job := ProcessingJob.createJob drawn.jobId contract.id request.projectId priority
    existing.isSome none request.now
  let message : StageMessage :=
    { jobId := job.id
      contractId := contract.id
      projectId := request.projectId
      stage := .validation
      priority
      trace := request.trace
      dispatchId := drawn.dispatchId }
  return (
    { state := { written.1 with jobs := written.1.jobs ++ [job] }
      seen := (validated.sha256, contract.id) :: carried.seen },
    { result :=
        { fileName := item.fileName
          contractId := contract.id
          jobId := job.id
          status := .accepted
          size := validated.size
          sha256 := validated.sha256 }
      message })

def processOne (env : UploadEnv) (request : UploadRequest) (carried : Carried) (drawn : Drawn)
    (item : PendingUpload) : Except Aborted (Carried × Processed) :=
  match validate env item.fileName item.content with
  | .error e => .ok (carried, rejectedFile item.fileName none e)
  | .ok validated =>
    let existing := carried.state.getByHash request.projectId validated.sha256
    -- Refused even when `duplicateCheck` is off: the row of the earlier file is not committed yet,
    -- so the query above may miss it.
    match carried.seen.lookup validated.sha256 with
    | some contractId =>
      .ok (carried, duplicateFile item.fileName validated contractId
        "An identical document was already included in this upload. It was stored once.")
    | none =>
      match (if env.settings.duplicateCheck && !request.options.replaceExisting then existing
        else none) with
      | some contract =>
        .ok (carried, duplicateFile item.fileName validated contract.id
          "This document is already in the project.")
      | none =>
        match convertToPdf env item.content validated with
        | .error e => .ok (carried, rejectedFile item.fileName (some validated) e)
        | .ok converted => persist env request carried drawn item validated existing converted

def processAll (env : UploadEnv) (request : UploadRequest) :
    Carried → List (PendingUpload × Drawn) → Except Aborted (Carried × List Processed)
  | carried, [] => .ok (carried, [])
  | carried, (item, drawn) :: items => do
    let first ← processOne env request carried drawn item
    let rest ← processAll env request first.1 items
    return (rest.1, first.2 :: rest.2)

/-! ## The batch -/

def skippedNote (ignored : List (String × String)) : String :=
  ", ".intercalate ((ignored.take 5).map fun e => e.1 ++ " (" ++ e.2 ++ ")") ++
    if ignored.length ≤ 5 then "" else " and " ++ (ignored.length - 5).repr ++ " more"

def archiveResult (name : String) (contents : ArchiveContents) : UploadedFileResult :=
  let ignored := contents.ignored
  if contents.members.isEmpty then
    { fileName := name
      status := .rejected
      errorCode := "unsupported_file_type"
      message :=
        if ignored.isEmpty then "This archive is empty."
        else "No supported documents in this archive. Skipped: " ++ skippedNote ignored ++ "." }
  else
    { fileName := name
      status := .expanded
      message := contents.members.length.repr ++ " document(s) extracted and queued." ++
        if ignored.isEmpty then ""
        else " " ++ ignored.length.repr ++ " ignored: " ++ skippedNote ignored ++ "."
      errorCode := if ignored.isEmpty then none else some "unsupported_file_type" }

def nameOf (filename : Option String) : String :=
  match filename with
  | none | some "" => "unnamed"
  | some name => name

/-- Replace an archive by the documents inside it; the second part are the rows reported for it. -/
def expandArchive (env : UploadEnv) (archiveId : Uuid) (file : UploadFile) :
    List PendingUpload × List UploadedFileResult :=
  let name := nameOf file.filename
  if isArchive name then
    match env.extract file.content name with
    | .error e =>
      ([], [{ fileName := name, status := .rejected, errorCode := e.code, message := e.message }])
    | .ok contents =>
      (contents.members.map fun member =>
          { fileName := nameOf member.fileName
            content := member.content
            archive := some { id := archiveId, name } },
        [archiveResult name contents])
  else ([{ fileName := name, content := file.content }], [])

def expandArchives (env : UploadEnv) (request : UploadRequest) :
    List PendingUpload × List UploadedFileResult :=
  let parts := request.files.zipIdx.map fun e => expandArchive env (request.archiveIds e.2) e.1
  (parts.flatMap (·.1), parts.flatMap (·.2))

def documents (env : UploadEnv) (request : UploadRequest) : List (PendingUpload × Drawn) :=
  (expandArchives env request).1.zipIdx.map fun e => (e.1, request.draws e.2)

def summaryMessage (accepted duplicates rejected : Nat) : String :=
  let parts :=
    (if accepted = 0 then [] else [accepted.repr ++ " queued for processing"]) ++
    (if duplicates = 0 then [] else [duplicates.repr ++ " already uploaded"]) ++
    (if rejected = 0 then [] else [rejected.repr ++ " rejected"])
  if parts.isEmpty then "Nothing to do." else "; ".intercalate parts

def queueError : ErrorRecord :=
  { code := "queue_error"
    message := "Could not queue the document for processing."
    retryable := true }

/-- The row of an accepted document whose job could not be queued. -/
def unqueued (r : UploadedFileResult) : UploadedFileResult :=
  if r.status = .accepted then
    { r with
      status := .rejected
      errorCode := "queue_error"
      message := "Stored, but could not be queued for processing. Retry from the job list." }
  else r

def respond (request : UploadRequest) (files : List UploadedFileResult) (jobIds : List Uuid) :
    UploadResponse :=
  let count (status : UploadStatus) : Nat := (files.filter (·.status = status)).length
  { projectId := request.projectId
    total := request.files.length
    accepted := count .accepted
    duplicates := count .duplicate
    rejected := count .rejected
    files
    jobIds
    message := summaryMessage (count .accepted) (count .duplicate) (count .rejected) }

/-- Queue the jobs of the batch, or mark them failed. -/
def enqueue (env : UploadEnv) (request : UploadRequest) (s : Contracts)
    (files : List UploadedFileResult) (queued : List StageMessage) : Contracts × UploadResponse :=
  if queued.isEmpty then (s, respond request files [])
  else if env.accepts queued then (s, respond request files (queued.map (·.jobId)))
  else
    ({ s with jobs := s.jobs.map fun job =>
        if queued.any (·.jobId == job.id) then
          job.markFailed (some .validation) queueError request.now
        else job },
      respond request (files.map unqueued) [])

def upload (env : UploadEnv) (request : UploadRequest) (s : Contracts) :
    Except Aborted (Contracts × UploadResponse) :=
  if request.files.isEmpty then
    .error
      { objects := s.objects
        error := .app (validationError "No files were supplied." []) }
  else if env.settings.maxFilesPerUpload < request.files.length then
    .error
      { objects := s.objects
        error := .app (validationError
          ("At most " ++ env.settings.maxFilesPerUpload.repr ++ " files may be uploaded at once.")
          [("received", .int request.files.length)]) }
  else do
    let out ← processAll env request { state := s } (documents env request)
    return enqueue env request out.1.state
      ((expandArchives env request).2 ++ out.2.map (·.result)) (out.2.filterMap (·.message))

/-! ## The contract store -/

/-- Soft-delete a contract, with `purge` also its stored bytes; refused while a job is active. -/
def deleteContract (s : Contracts) (contractId projectId : Uuid) (purge : Bool) (now : Timestamp) :
    Option Contracts :=
  if (s.contracts.any fun r =>
      r.id == contractId && r.projectId == projectId && r.deletedAt.isNone) = false then none
  else if s.jobs.any fun j => j.contractId == contractId && !j.state.isTerminal then none
  else
    let deleted := s.softDelete contractId now
    some (if purge then
      { deleted with
        objects := s.objects.deletePrefix (StorageKey.contractPrefix projectId contractId) }
    else deleted)

inductive Action where
  | upload (env : UploadEnv) (request : UploadRequest)
  | deleteContract (contractId projectId : Uuid) (purge : Bool) (now : Timestamp)
  /-- The pipeline moves a job to another state. -/
  | progress (jobId : Uuid) (state : JobState)

def Fresh (s : Contracts) (items : List (PendingUpload × Drawn)) : Prop :=
  (items.map (·.2.contractId)).Nodup ∧
    ∀ item ∈ items, ∀ r ∈ s.contracts, r.id ≠ item.2.contractId

instance (s : Contracts) (items : List (PendingUpload × Drawn)) : Decidable (Fresh s items) :=
  inferInstanceAs (Decidable (_ ∧ _))

/-- The rows after a request: a request that raised leaves them as they were. -/
def committed (s : Contracts) : Except Aborted (Contracts × UploadResponse) → Contracts
  | .ok (s', _) => s'
  | .error aborted => { s with objects := aborted.objects }

def step (sha256 : Bytes → String) (s : Contracts) : Action → Option Contracts
  | .upload env request =>
    let env := { env with sha256 }
    if Fresh s (documents env request) then some (committed s (upload env request s)) else none
  | .deleteContract contractId projectId purge now =>
    deleteContract s contractId projectId purge now
  | .progress jobId state =>
    some { s with jobs := s.jobs.map fun j => if j.id = jobId then { j with state } else j }

/-- Uploads and deletions, in any order, from the empty store. -/
def machine (sha256 : Bytes → String) : Machine Contracts Action where
  init s := s = {}
  step := step sha256

end Upload

end Clear
