import Clear.Orchestrator.Persist
import Clear.Orchestrator.Workflow

/-!
# Execution Engine

`runStage` executes one stage of one job: `execute` runs the handler and persists its checkpoint in
one transaction, and after the commit the next stage or the retry is queued. An exception that
leaves `execute` (`Except.error`) rolls the whole transaction back and leaves `run_stage`.

What the code takes from outside the database is a `StageCall`: the deployment, the clock, new
primary keys, the query engine, what the handler returned or raised, and whether the queue accepts
a message.
-/

namespace Clear

/-! ## Settings and results -/

structure QueueSettings where
  maxAttempts : Nat := 3
  backoffMs : Nat := 5000
  one_le_maxAttempts : 1 ≤ maxAttempts := by decide
  maxAttempts_le : maxAttempts ≤ 20 := by decide

structure StageResult (Payload : Type) where
  artifacts : List (StageArtifact Payload) := []
  stats : JsonDict := []
  contextUpdates : ContextUpdates := {}
  halt : Bool := false
  haltReason : Option String := none
  warnings : List String := []

/-- What the runner reports back to the caller (and thus to the queue). -/
structure StageOutcome where
  jobId : Uuid
  stage : PipelineStage
  status : StageStatus
  attempt : Nat
  nextStage : Option PipelineStage := none
  artifactRef : Option String := none
  stats : JsonDict := []
  warnings : List String := []
  error : Option ErrorRecord := none
  shouldRetry : Bool := false
  retryDelayMs : Nat := 0

/-- How the failure of a run was recorded: on the run itself; by a fresh row after a rollback,
because the first write raised; or not at all, because the fresh row was not written either. -/
inductive FailureRecord where
  | finished
  | rewritten (recordError : String)
  | lost (recordError : String)

/-- What one call of `run_stage` takes from outside the database. -/
structure StageCall (Payload : Type) where
  env : Env := {}
  loadErrors : LoadErrors := []
  settings : QueueSettings := {}
  engine : Sql.Engine JobStageRun
  codec : Codec Payload
  workerId : String
  /-- The adapter that `ParserStage` resolves for the document, if that succeeds. -/
  resolvedParser : Option String := none
  runId : Uuid
  artifactId : Nat → Uuid
  startedAt : Timestamp
  finishedAt : Timestamp
  /-- What `cleanup` and `run` returned or raised. -/
  outcome : Except Raised (StageResult Payload)
  /-- Whether the handler set `contract.needs_review`. -/
  flagged : Bool := false
  failureRecord : FailureRecord := .finished
  /-- Whether the queue accepts the message that follows. -/
  accepted : Bool := true
  dispatchId : String

/-! ## Database -/

/-- The tables of the pipeline. -/
structure Db where
  jobs : Uuid → Option ProcessingJob := fun _ => none
  contracts : Uuid → Option Contract := fun _ => none
  profiles : Uuid → Option DocumentProfile := fun _ => none
  runs : RunTable := .empty
  archive : Archive := ⟨.empty, fun _ => none⟩

namespace Db

def updateJob (db : Db) (id : Uuid) (f : ProcessingJob → ProcessingJob) : Db :=
  { db with jobs := Function.update db.jobs id ((db.jobs id).map f) }

def updateContract (db : Db) (id : Uuid) (f : Contract → Contract) : Db :=
  { db with contracts := Function.update db.contracts id ((db.contracts id).map f) }

section
variable {db : Db} {id other : Uuid} {f : ProcessingJob → ProcessingJob} {g : Contract → Contract}

@[simp] theorem updateJob_self : (db.updateJob id f).jobs id = (db.jobs id).map f := by
  simp [updateJob]

@[simp] theorem updateJob_of_ne (h : other ≠ id) :
    (db.updateJob id f).jobs other = db.jobs other := by
  simp [updateJob, h]

@[simp] theorem updateJob_contracts : (db.updateJob id f).contracts = db.contracts := rfl

@[simp] theorem updateJob_runs : (db.updateJob id f).runs = db.runs := rfl

@[simp] theorem updateContract_jobs : (db.updateContract id g).jobs = db.jobs := rfl

@[simp] theorem updateContract_runs : (db.updateContract id g).runs = db.runs := rfl

end

end Db

def Contract.markProcessed (status : ContractStatus) (now : Timestamp) (c : Contract) :
    Contract :=
  { c with
    status
    processedAt := if status = .ready then some now else c.processedAt }

/-- `dict.update`. -/
def ContextUpdates.merge (old new : ContextUpdates) : ContextUpdates where
  profileId := new.profileId.or old.profileId
  profileVersion := new.profileVersion.or old.profileVersion
  other := new.other ++ old.other

def ProcessingJob.applyContextUpdates (updates : ContextUpdates) (j : ProcessingJob) :
    ProcessingJob :=
  { j with
    profileId := updates.profileId.or j.profileId
    profileVersion := (updates.profileVersion.filter (· ≠ "")).or j.profileVersion }

def Contract.applyContextUpdates (updates : ContextUpdates) (c : Contract) : Contract :=
  { c with
    profileId := updates.profileId.or c.profileId
    profileVersion := (updates.profileVersion.filter (· ≠ "")).or c.profileVersion }

/-! ## Plans -/

def ExecutionPlan.toStored (p : ExecutionPlan) (old : StoredPlan) : StoredPlan :=
  { old with
    stages := p.stages
    branches := p.branches
    extensions := p.extensions
    profileKey := p.profileKey
    profileVersion := p.profileVersion
    notes := p.notes }

def StoredPlan.toPlan (stored : StoredPlan) (jobId contractId projectId : Uuid) : ExecutionPlan :=
  { jobId, contractId, projectId
    stages := stored.stages
    branches := stored.branches
    extensions := stored.extensions
    profileKey := stored.profileKey
    profileVersion := stored.profileVersion }

namespace Runner

variable {Payload : Type} (call : StageCall Payload)

def loadProfile (db : Db) (job : ProcessingJob) : Option DocumentProfile :=
  job.profileId.bind db.profiles

/-- `WorkflowPlanner.plan`, with the contract's checkpoints as its first query. -/
def planFor (db : Db) (job : ProcessingJob) (contract : Contract)
    (profile : Option DocumentProfile) (fromStage : Option PipelineStage) :
    Except Raised ExecutionPlan :=
  Workflow.plan call.env call.loadErrors job contract profile
    (db.runs.checkpoints call.engine contract.id) fromStage false

def resolvePlan (db : Db) (job : ProcessingJob) (contract : Contract)
    (profile : Option DocumentProfile) : Except Raised (Db × ExecutionPlan) :=
  if job.executionPlan.stages.isEmpty then do
    let plan ← planFor call db job contract profile job.resumeFromStage
    return (db.updateJob job.id fun j => { j with executionPlan := plan.toStored j.executionPlan },
      plan)
  else .ok (db, job.executionPlan.toPlan job.id contract.id contract.projectId)

def reusedCheckpoint (db : Db) (plan : ExecutionPlan) (contract : Contract)
    (stage : PipelineStage) : Option JobStageRun :=
  match plan.forStage stage with
  | none => none
  | some planned =>
    if planned.shouldRun then none else db.runs.checkpoint call.engine contract.id stage

def finaliseIfLast (db : Db) (job : ProcessingJob) (contract : Contract)
    (nextStage : Option PipelineStage) : Db :=
  match nextStage with
  | some _ => db
  | none =>
    (db.updateJob job.id (.markReady call.finishedAt)).updateContract contract.id fun c =>
      c.markProcessed (if c.needsReview then .needsReview else .ready) call.finishedAt

def skipStage (db : Db) (message : StageMessage) (job : ProcessingJob) (contract : Contract)
    (plan : ExecutionPlan) (checkpoint : JobStageRun) : Except Raised (Db × StageOutcome) := do
  let runs ← db.runs.recordSkipped call.runId job.id contract.id contract.projectId message.stage
    checkpoint call.finishedAt
  let nextStage := Workflow.nextAfter plan message.stage
  return (finaliseIfLast call { db with runs } job contract nextStage,
    { jobId := job.id
      stage := message.stage
      status := .skipped
      attempt := message.attempt
      nextStage
      artifactRef := checkpoint.artifactRef
      stats := [("reused", .bool true)] })

/-- The versions a handler stamps. `ParserStage` uses the adapter it resolved, `DocPipelineStage`
no profile, every other handler the profile of the job. -/
def handlerVersions (stage : PipelineStage) (profile : Option DocumentProfile) :
    ComponentVersions :=
  match stage with
  | .parser =>
    let parserName := call.resolvedParser.getD call.env.settings.activeParser
    { parserName := parserName
      parserVersion := call.env.registry.parserFrameworkVersion
      parserAdapterVersion := call.env.parserAdapterVersion parserName }
  | .docpipeline => currentVersionsForStage call.env .docpipeline none none
  | stage => Workflow.versionsFor call.env stage profile

def startStage (db : Db) (message : StageMessage) (job : ProcessingJob) (contract : Contract)
    (profile : Option DocumentProfile) : Except Raised (Db × JobStageRun) := do
  let db := db.updateJob job.id fun j =>
    (j.markStageStarted message.stage call.workerId call.startedAt).updateProgress
      (Workflow.progressFor message.stage false) call.startedAt
  let (runs, run) ← db.runs.startRun call.runId job.id contract.id contract.projectId message.stage
    none call.workerId (handlerVersions call message.stage profile) call.startedAt
  return ({ db with runs }, run)

/-! ## Failure -/

def failureRecord (message : StageMessage) (retryable : Bool) : Raised → ErrorRecord
  | .app e =>
    { stage := (e.stage.filter (· ≠ "")).getD message.stage.value
      attempt := message.attempt
      retryable
      exception := e.exception
      code := e.code
      message := e.message
      details := e.details }
  | .other exception =>
    { stage := message.stage.value
      attempt := message.attempt
      retryable
      exception
      code := "internal_error"
      message := "An unexpected error occurred." }

def ErrorRecord.noteRecordError (text : String) (e : ErrorRecord) : ErrorRecord :=
  { e with details := ("record_error", .str (String.ofList (text.toList.take 300))) :: e.details }

/-- Whether a failure is retried. -/
def canRetry (settings : QueueSettings) (message : StageMessage) (retryable : Bool) : Bool :=
  retryable && message.attempt < settings.maxAttempts

def retryDelay (settings : QueueSettings) (message : StageMessage) : Nat :=
  settings.backoffMs * 2 ^ (message.attempt - 1)

def failureOutcome (settings : QueueSettings) (message : StageMessage) (jobId : Uuid)
    (retryable : Bool) (error : ErrorRecord) : StageOutcome :=
  { jobId
    stage := message.stage
    status := .failed
    attempt := message.attempt
    error := some error
    shouldRetry := canRetry settings message retryable
    retryDelayMs := if canRetry settings message retryable then retryDelay settings message else 0 }

/-- Write the failure to the run. `before` is the database before the transaction: a rollback
returns to it, and an exception of the fresh row is only logged. -/
def recordFailure (before db : Db) (message : StageMessage) (job : ProcessingJob)
    (run : JobStageRun) (error : ErrorRecord) : Db × ErrorRecord :=
  match call.failureRecord with
  | .finished =>
    ({ db with runs := db.runs.finishRun run.id .failed none [] (some error) call.finishedAt },
      error)
  | .rewritten text =>
    let error := ErrorRecord.noteRecordError text error
    match before.runs.create
      { id := run.id
        jobId := job.id
        contractId := message.contractId
        projectId := message.projectId
        stage := message.stage
        status := .failed
        attempt := message.attempt
        workerId := some call.workerId
        error := some error
        startedAt := run.startedAt
        finishedAt := some call.finishedAt } with
    | .ok runs => ({ before with runs }, error)
    | .error _ => (before, error)
  | .lost text => (before, ErrorRecord.noteRecordError text error)

def handleFailure (before db : Db) (message : StageMessage) (job : ProcessingJob)
    (contract : Contract) (run : JobStageRun) (raised : Raised) (retryable : Bool) :
    Db × StageOutcome :=
  let (db, error) := recordFailure call before db message job run
    (failureRecord message retryable raised)
  let db :=
    if canRetry call.settings message retryable then
      db.updateJob job.id (.markRetrying message.stage message.attempt call.finishedAt)
    else
      (db.updateJob job.id (.markFailed message.stage error call.finishedAt)).updateContract
        contract.id (.markProcessed .failed call.finishedAt)
  (db, failureOutcome call.settings message job.id retryable error)

def isRetryable (handler : StageHandler) : Raised → Bool
  | .app e => e.retryable && handler.retryable
  | .other _ => handler.retryable

/-! ## Success -/

def applyContext (db : Db) (job : ProcessingJob) (contract : Contract)
    (updates : ContextUpdates) : Db :=
  if updates.nonempty then
    (db.updateJob job.id fun j =>
      { j.applyContextUpdates updates with
        executionPlan :=
          { j.executionPlan with context := j.executionPlan.context.merge updates } }).updateContract
      contract.id (.applyContextUpdates updates)
  else db

def haltRecord (message : StageMessage) (reason : Option String) : ErrorRecord :=
  { code := "halted"
    message := (reason.filter (· ≠ "")).getD "Processing stopped."
    retryable := false
    stage := some message.stage.value }

def persistResult (db : Db) (message : StageMessage) (job : ProcessingJob) (contract : Contract)
    (run : JobStageRun) (result : StageResult Payload) : Except Raised (Db × Option String) := do
  let (archive, primaryRef) ← db.archive.persistArtifacts call.codec contract job.id run.versions
    (result.artifacts.mapIdx fun i artifact => (call.artifactId i, artifact))
  let runs := db.runs.finishRun run.id .succeeded primaryRef result.stats none call.finishedAt
  let db := applyContext { db with archive, runs } job contract result.contextUpdates
  return (db.updateJob job.id
    (.updateProgress (Workflow.progressFor message.stage true) call.finishedAt), primaryRef)

def replan (db : Db) (message : StageMessage) (job : ProcessingJob) (contract : Contract)
    (plan : ExecutionPlan) (result : StageResult Payload) : Except Raised (Db × ExecutionPlan) :=
  if message.stage = .docpipeline ∧ result.contextUpdates.nonempty then do
    let current := (db.jobs job.id).getD job
    let plan ← planFor call db current contract (loadProfile db current) none
    return (db.updateJob job.id fun j => { j with executionPlan := plan.toStored j.executionPlan },
      plan)
  else .ok (db, plan)

/-- The handler returned: persist, then halt or advance. -/
def succeed (db : Db) (message : StageMessage) (job : ProcessingJob) (contract : Contract)
    (plan : ExecutionPlan) (run : JobStageRun) (result : StageResult Payload) :
    Except Raised (Db × StageOutcome) := do
  let (db, primaryRef) ← persistResult call db message job contract run result
  let outcome : StageOutcome :=
    { jobId := job.id
      stage := message.stage
      status := .succeeded
      attempt := message.attempt
      artifactRef := primaryRef
      stats := result.stats
      warnings := result.warnings }
  if result.halt then
    return ((db.updateJob job.id (.markFailed message.stage (haltRecord message result.haltReason)
      call.finishedAt)).updateContract contract.id (.markProcessed .failed call.finishedAt), outcome)
  else
    let (db, plan) ← replan call db message job contract plan result
    let nextStage := Workflow.nextAfter plan message.stage
    return (finaliseIfLast call db job contract nextStage, { outcome with nextStage })

/-! ## Running a stage -/

def runHandler (before db : Db) (message : StageMessage) (job : ProcessingJob)
    (contract : Contract) (profile : Option DocumentProfile) (plan : ExecutionPlan) :
    Except Raised (Db × StageOutcome) := do
  let handler ← getStageHandler call.loadErrors message.stage
  let (db, run) ← startStage call db message job contract profile
  match call.outcome with
  | .error raised =>
    return handleFailure call before db message job contract run raised
      (isRetryable handler raised)
  | .ok result =>
    let db := db.updateContract contract.id fun c =>
      { c with needsReview := c.needsReview || call.flagged }
    succeed call db message job contract plan run result

def jobMissing (message : StageMessage) : StageOutcome :=
  { jobId := message.jobId
    stage := message.stage
    status := .failed
    attempt := message.attempt
    error := some { code := "job_not_found", message := "Job no longer exists." } }

def contractMissing (message : StageMessage) (job : ProcessingJob) : StageOutcome :=
  { jobId := job.id
    stage := message.stage
    status := .failed
    attempt := message.attempt
    error := some { code := "contract_not_found", message := "Contract no longer exists." } }

def notActive (message : StageMessage) (job : ProcessingJob) : StageOutcome :=
  { jobId := job.id
    stage := message.stage
    status := .cancelled
    attempt := message.attempt }

def isActive (job : ProcessingJob) : Bool := !(job.state ∈ [.cancelled, .paused])

/-- Run the handler and persist its checkpoint in one transaction. -/
def execute (db : Db) (message : StageMessage) : Except Raised (Db × StageOutcome) :=
  match db.jobs message.jobId with
  | none => .ok (db, jobMissing message)
  | some job =>
    if !isActive job then .ok (db, notActive message job)
    else
      match db.contracts message.contractId with
      | none => .ok (db, contractMissing message job)
      | some contract => do
        let profile := loadProfile db job
        let (planned, plan) ← resolvePlan call db job contract profile
        match reusedCheckpoint call planned plan contract message.stage with
        | some checkpoint => skipStage call planned message job contract plan checkpoint
        | none => runHandler call db planned message job contract profile plan

def nextMessage (message : StageMessage) (dispatchId : String) (nextStage : PipelineStage) :
    StageMessage :=
  { message with
    stage := nextStage
    attempt := 1
    continuePipeline := true
    dispatchId }

def retryMessage (message : StageMessage) (dispatchId : String) : StageMessage :=
  { message with attempt := message.attempt + 1, dispatchId }

/-- What is queued after the commit, with its delay. -/
def dispatches (message : StageMessage) (outcome : StageOutcome) (dispatchId : String) :
    Option (StageMessage × Nat) :=
  match outcome.nextStage with
  | some nextStage =>
    if message.continuePipeline then some (nextMessage message dispatchId nextStage, 0) else none
  | none =>
    if outcome.shouldRetry then some (retryMessage message dispatchId, outcome.retryDelayMs)
    else none

def queueErrorRecord (next : StageMessage) (isRetry : Bool) : ErrorRecord :=
  { code := "queue_error"
    message :=
      if isRetry then "Could not re-queue the stage for retry."
      else "Could not queue the next processing stage. Retry the job."
    retryable := true
    stage := some next.stage.value }

def runStage (db : Db) (message : StageMessage) :
    Except Raised (Db × StageOutcome × Option (StageMessage × Nat)) := do
  let (db, outcome) ← execute call db message
  match dispatches message outcome call.dispatchId with
  | none => return (db, outcome, none)
  | some (next, delayMs) =>
    if call.accepted then return (db, outcome, some (next, delayMs))
    else
      return (db.updateJob message.jobId
        (.markFailed next.stage (queueErrorRecord next outcome.shouldRetry) call.finishedAt),
        outcome, none)

end Runner

end Clear
