import Clear.Services.Upload

/-!
# Stage 1: validation

The checks of `ValidationStage.run` on the stored file of a contract. A rejection is a halt with a
reason, not a failure; only a file that cannot be read raises. The structural check (PyMuPDF, the ZIP
reader) and the malware scanner are fields of `ValidationEnv`.
-/

namespace Clear

structure DocumentStructure where
  encrypted : Bool := false
  unreadable : Bool := false
  pageCount : Option Nat := none

structure ValidationEnv where
  settings : UploadSettings := {}
  sha256 : Bytes → String
  checkStructure : FileType → Bytes → DocumentStructure
  /-- The malware scanner, if scanning is enabled: is the content infected? -/
  scan : Option (Bytes → Bool) := none

namespace ValidationStage

def signatures : FileType → List Bytes
  | .pdf => Upload.signatures .pdf
  | .docx => Upload.signatures .docx
  | .doc => []

/-- What the checks concluded about the content. -/
inductive Verdict where
  | halt (reason : String)
  | passed (pageCount : Option Nat)
  deriving DecidableEq

def checkDocument (env : ValidationEnv) (contract : ContractRow) (content : Bytes) : Verdict :=
  let found := env.checkStructure contract.fileType content
  if found.encrypted then .halt "The document is password protected and cannot be processed."
  else if found.unreadable then
    .halt "The document could not be opened - it appears to be corrupted."
  else if found.pageCount = some 0 then .halt "The document contains no pages."
  else if (env.scan.map (· content)).getD false then
    .halt "The document was rejected by the malware scanner."
  else .passed found.pageCount

def tooLarge (env : ValidationEnv) : Verdict :=
  .halt ("The document exceeds the " ++ env.settings.maxUploadSizeMb.repr ++ " MB limit.")

def checkContent (env : ValidationEnv) (contract : ContractRow) (content : Bytes) : Verdict :=
  if content.length = 0 then .halt "The document is empty."
  else if env.settings.maxUploadSizeBytes < content.length then tooLarge env
  else if (signatures contract.fileType).any (·.isPrefixOf (content.take 8)) = false then
    .halt ("The file is not a valid " ++ contract.fileType.value.toUpper ++
      " document - its contents do not match its type.")
  else checkDocument env contract content

/-- The hash that the stored file must have; rows older than conversion have only the upload's. -/
def expectedHash (contract : ContractRow) : String :=
  match contract.processingSha256 with
  | none | some "" => contract.sha256Hash
  | some hash => hash

def run (env : ValidationEnv) (objects : Objects) (contract : ContractRow) :
    Except AppError Verdict :=
  match objects contract.storagePath with
  | none =>
    .error
      { exception := "StorageError", code := "storage_error"
        message := "The stored document could not be read: Object not found."
        details := [("storage_path", .str contract.storagePath)]
        retryable := true }
  | some content =>
    if env.sha256 content ≠ expectedHash contract then
      .ok (.halt ("The stored file does not match the hash recorded at upload. It may have been " ++
        "corrupted or replaced in storage."))
    else .ok (checkContent env contract content)

end ValidationStage

end Clear
