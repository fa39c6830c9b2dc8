import Clear.Core.Uuid
import Clear.Core.Versions

/-!
# Rows and messages

The records of the orchestrator's durable state (`app/models/processing.py` and the columns of
`contracts` and `document_profiles` that the pipeline reads), the payload of a queue message, and
the values exchanged between the Workflow Engine and the Execution Engine.
-/

namespace Clear

/-! ## Errors -/

/-- The JSON values held by stats, options and error details. -/
inductive Json where
  | null
  | bool (b : Bool)
  | int (n : Int)
  | str (s : String)
  | strs (l : List String)
  deriving DecidableEq

abbrev JsonDict := List (String × Json)

/-- An `AppError`: a deliberate application failure. `stage` is set by a `PipelineError` only. -/
structure AppError where
  exception : String
  code : String
  message : String
  details : JsonDict := []
  retryable : Bool := false
  stage : Option String := none
  deriving DecidableEq

/-- What a coroutine can raise: a deliberate failure, or any other exception by its class name. -/
inductive Raised where
  | app (e : AppError)
  | other (exception : String)
  deriving DecidableEq

structure ErrorRecord where
  stage : Option String := none
  attempt : Option Nat := none
  retryable : Bool := false
  exception : Option String := none
  code : String
  message : String
  details : JsonDict := []
  deriving DecidableEq

/-! ## Execution plans -/

/-- `run` executes the handler; `skip` reuses an existing checkpoint. -/
inductive StageAction where
  | run | skip
  deriving DecidableEq, Repr

structure PlannedStage where
  stage : PipelineStage
  action : StageAction := .run
  reason : Option String := none
  checkpointId : Option Uuid := none
  versions : VersionDict := []

def PlannedStage.shouldRun (p : PlannedStage) : Bool := p.action = .run

/-- Values a stage hands forward to later stages. The profile keys are promoted onto the job and
the contract; the other keys only onto contract columns that the pipeline does not read. -/
structure ContextUpdates where
  profileId : Option Uuid := none
  profileVersion : Option String := none
  other : JsonDict := []

/-- Python's truth value of the dict. -/
def ContextUpdates.nonempty (c : ContextUpdates) : Bool :=
  c.profileId.isSome || c.profileVersion.isSome || !c.other.isEmpty

/-- `processing_jobs.execution_plan`; the empty dict of a new job is the default. -/
structure StoredPlan where
  stages : List PlannedStage := []
  branches : List String := []
  extensions : List String := []
  profileKey : Option String := none
  profileVersion : Option String := none
  notes : List String := []
  context : ContextUpdates := {}

/-! ## Rows -/

structure ProcessingJob where
  id : Uuid
  contractId : Uuid
  projectId : Uuid
  state : JobState := .queued
  priority : JobPriority := .normal
  currentStage : Option PipelineStage := none
  progress : Int := 0
  retryCount : Nat := 0
  error : Option ErrorRecord := none
  resumeFromStage : Option PipelineStage := none
  profileId : Option Uuid := none
  profileVersion : Option String := none
  executionPlan : StoredPlan := {}
  queuedAt : Option Timestamp := none
  startedAt : Option Timestamp := none
  finishedAt : Option Timestamp := none
  heartbeatAt : Option Timestamp := none
  updatedAt : Timestamp := 0
  workerId : Option String := none
  isReprocess : Bool := false

structure JobStageRun where
  id : Uuid
  jobId : Uuid
  contractId : Uuid
  projectId : Uuid
  stage : PipelineStage
  status : StageStatus := .pending
  attempt : Nat := 1
  artifactRef : Option String := none
  versions : VersionDict := []
  stats : JsonDict := []
  error : Option ErrorRecord := none
  workerId : Option String := none
  startedAt : Option Timestamp := none
  finishedAt : Option Timestamp := none
  durationMs : Option Nat := none
  deriving DecidableEq

/-- Pointer to a stage output held in object storage. -/
structure DocumentArtifact where
  id : Uuid
  contractId : Uuid
  projectId : Uuid
  jobId : Option Uuid
  kind : ArtifactKind
  storagePath : String
  checksum : String
  sizeBytes : Option Nat := none
  versions : VersionDict := []
  summary : JsonDict := []
  generation : Nat := 1
  isCurrent : Bool := true
  deriving DecidableEq

/-- The columns of `contracts` that the pipeline reads or writes. -/
structure Contract where
  id : Uuid
  projectId : Uuid
  fileType : FileType := .pdf
  status : ContractStatus := .uploaded
  needsReview : Bool := false
  profileId : Option Uuid := none
  profileVersion : Option String := none
  processedAt : Option Timestamp := none

/-- The columns of `document_profiles` that profile resolution, planning and the embedding stage
read; of `embedding_config` that is the key `levels`. -/
structure DocumentProfile where
  id : Uuid
  key : String
  version : String
  workflowExtensions : List String := []
  embeddingLevels : Option (List String) := none
  agreementType : String := ""
  isActive : Bool := true
  /-- Fallback profile used when classification is inconclusive. -/
  isDefault : Bool := false
  /-- Higher priority wins when several profiles match a classification. -/
  priority : Int := 0
  /-- Optional narrowing to one project; `none` means available platform-wide. -/
  projectId : Option Uuid := none
  deletedAt : Option Timestamp := none

/-! ## Messages -/

/-- The queue payload: identifiers and options only. `dispatchId` names one dispatch decision. -/
structure StageMessage where
  jobId : Uuid
  contractId : Uuid
  projectId : Uuid
  stage : PipelineStage
  attempt : Nat := 1
  priority : JobPriority := .normal
  trace : List (String × String) := []
  continuePipeline : Bool := true
  options : JsonDict := []
  dispatchId : String := ""
  deriving DecidableEq

def StageMessage.force (m : StageMessage) : Bool := m.options.lookup "force" = some (.bool true)

end Clear
