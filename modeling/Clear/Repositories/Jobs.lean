import Clear.Lib.Machine
import Clear.Lib.OrderBy
import Clear.Models.Processing

/-!
# Processing jobs

`ProcessingJobRepository`: the row a new job starts as, the transitions of its state, each the
`UPDATE` of one row, and the selection of jobs whose worker stopped reporting.
-/

namespace Clear

namespace ProcessingJob

def createJob (id contractId projectId : Uuid) (priority : JobPriority) (isReprocess : Bool)
    (resumeFromStage : Option PipelineStage) (now : Timestamp) : ProcessingJob :=
  { id, contractId, projectId, priority, isReprocess, resumeFromStage
    state := .queued
    progress := 0
    queuedAt := now
    updatedAt := now }

/-! ## Transitions -/

def markStageStarted (stage : PipelineStage) (workerId : Option String) (now : Timestamp)
    (j : ProcessingJob) : ProcessingJob :=
  { j with
    state := stageToState stage
    currentStage := stage
    heartbeatAt := now
    workerId
    startedAt := j.startedAt.or (some now)
    updatedAt := now }

/-- The value of a column after a flush: the new one if the session changed it since the row was
loaded, and otherwise what the row holds by now. -/
def flushed {α : Type} [DecidableEq α] (loaded new current : α) : α :=
  if new = loaded then current else new

def flushStageStarted (stage : PipelineStage) (workerId : Option String) (now : Timestamp)
    (snapshot j : ProcessingJob) : ProcessingJob :=
  let started := snapshot.markStageStarted stage workerId now
  { j with
    state := flushed snapshot.state started.state j.state
    currentStage := flushed snapshot.currentStage started.currentStage j.currentStage
    heartbeatAt := flushed snapshot.heartbeatAt started.heartbeatAt j.heartbeatAt
    workerId := flushed snapshot.workerId started.workerId j.workerId
    startedAt := flushed snapshot.startedAt started.startedAt j.startedAt
    updatedAt := now }

def updateProgress (progress : Int) (now : Timestamp) (j : ProcessingJob) : ProcessingJob :=
  { j with
    progress := max 0 (min 100 progress)
    heartbeatAt := now
    updatedAt := now }

def markReady (now : Timestamp) (j : ProcessingJob) : ProcessingJob :=
  { j with
    state := .ready
    currentStage := none
    progress := 100
    error := none
    finishedAt := now
    updatedAt := now }

/-- Terminal failure. `resumeFromStage` records where a retry should start. -/
def markFailed (stage : Option PipelineStage) (error : ErrorRecord) (now : Timestamp)
    (j : ProcessingJob) : ProcessingJob :=
  { j with
    state := .failed
    currentStage := stage
    resumeFromStage := stage
    error := some error
    finishedAt := now
    updatedAt := now }

def markRetrying (stage : PipelineStage) (attempt : Nat) (now : Timestamp) (j : ProcessingJob) :
    ProcessingJob :=
  { j with
    state := .retrying
    currentStage := stage
    retryCount := attempt
    heartbeatAt := now
    updatedAt := now }

def markCancelled (now : Timestamp) (j : ProcessingJob) : ProcessingJob :=
  { j with state := .cancelled, finishedAt := now, updatedAt := now }

/-! ## Sweep -/

def reclaimStalled (now : Timestamp) (j : ProcessingJob) : ProcessingJob :=
  { j with state := .failed, updatedAt := now }

/-- `find_stalled` selects the job: its worker stopped reporting. -/
def isStalled (timeoutMinutes : Nat) (now : Timestamp) (j : ProcessingJob) : Bool :=
  j.state.isRunning &&
    match j.heartbeatAt with
    | some heartbeat => heartbeat + timeoutMinutes * 60000000 < now
    | none => j.updatedAt + timeoutMinutes * 60000000 < now

theorem exists_isStalled (timeoutMinutes : Nat) {j : ProcessingJob} (h : j.state.isRunning = true) :
    ∃ now, ∀ later, now ≤ later → j.isStalled timeoutMinutes later = true := by
  refine ⟨(j.heartbeatAt.getD j.updatedAt) + timeoutMinutes * 60000000 + 1, fun later hlater => ?_⟩
  unfold isStalled
  rw [h, Bool.true_and]
  cases hb : j.heartbeatAt with
  | none =>
    rw [hb, Option.getD_none] at hlater
    exact decide_eq_true (Nat.lt_of_succ_le hlater)
  | some heartbeat =>
    rw [hb, Option.getD_some] at hlater
    exact decide_eq_true (Nat.lt_of_succ_le hlater)

end ProcessingJob

end Clear

/-!
## Stage runs

`JobStageRunRepository`: the append-only table of stage attempts, with its two unique keys as
fields of `RunTable`, and the two checkpoint lookups.

* `checkpoint`: the latest successful run of a stage, by finish time and then attempt,
* `checkpoints`: every stage's checkpoint in one query, by attempt alone,
* `history`: the machine whose runs are the histories of the table.

An insert that would break a unique key raises `IntegrityError` and leaves the table as it was.
-/

namespace Clear

def JobStageRun.attemptKey (r : JobStageRun) : Uuid × PipelineStage × Nat :=
  (r.jobId, r.stage, r.attempt)

def JobStageRun.isCheckpoint (r : JobStageRun) (contractId : Uuid) (stage : PipelineStage) :
    Bool :=
  r.contractId = contractId ∧ r.stage = stage ∧ r.status = .succeeded

structure RunTable where
  rows : List JobStageRun
  idUnique : (rows.map (·.id)).Nodup
  attemptUnique : (rows.map JobStageRun.attemptKey).Nodup

namespace RunTable

def empty : RunTable := ⟨[], by simp, by simp⟩

/-- A unique constraint is violated. -/
def integrityError : Raised := .other "IntegrityError"

def create (t : RunTable) (r : JobStageRun) : Except Raised RunTable :=
  if h : Keyed.Fresh (·.id) t.rows r ∧ Keyed.Fresh JobStageRun.attemptKey t.rows r then
    .ok
      { rows := t.rows ++ [r]
        idUnique := Keyed.concat t.idUnique h.1
        attemptUnique := Keyed.concat t.attemptUnique h.2 }
  else .error integrityError

def modify (t : RunTable) (id : Uuid) (f : JobStageRun → JobStageRun)
    (hid : ∀ r, (f r).id = r.id) (hkey : ∀ r, (f r).attemptKey = r.attemptKey) : RunTable where
  rows := t.rows.map fun r => if r.id = id then f r else r
  idUnique := Keyed.update t.idUnique fun r => by split <;> simp [hid]
  attemptUnique := Keyed.update t.attemptUnique fun r => by split <;> simp [hkey]

/-! ## Writes -/

def nextAttempt (t : RunTable) (jobId : Uuid) (stage : PipelineStage) : Nat :=
  ((t.rows.filter fun r => r.jobId = jobId ∧ r.stage = stage).map (·.attempt)).foldl max 0 + 1

def startRun (t : RunTable) (id jobId contractId projectId : Uuid) (stage : PipelineStage)
    (attempt : Option Nat) (workerId : Option String) (versions : ComponentVersions)
    (now : Timestamp) : Except Raised (RunTable × JobStageRun) :=
  let resolvedAttempt :=
    match attempt with
    | none | some 0 => t.nextAttempt jobId stage
    | some n => n
  let run : JobStageRun :=
    { id, jobId, contractId, projectId, stage
      status := .running
      attempt := resolvedAttempt
      workerId
      versions := versions.modelDump
      startedAt := now }
  (t.create run).map (·, run)

def JobStageRun.finish (status : StageStatus) (artifactRef : Option String) (stats : JsonDict)
    (error : Option ErrorRecord) (now : Timestamp) (r : JobStageRun) : JobStageRun :=
  { r with
    status
    artifactRef := artifactRef.or r.artifactRef
    stats := if stats.isEmpty then r.stats else stats
    error
    finishedAt := now
    durationMs :=
      match r.startedAt with
      | none => r.durationMs
      | some s => some ((now - s) / 1000) }

def finishRun (t : RunTable) (id : Uuid) (status : StageStatus) (artifactRef : Option String)
    (stats : JsonDict) (error : Option ErrorRecord) (now : Timestamp) : RunTable :=
  t.modify id (JobStageRun.finish status artifactRef stats error now) (fun _ => rfl) fun _ => rfl

def recordSkipped (t : RunTable) (id jobId contractId projectId : Uuid) (stage : PipelineStage)
    (checkpoint : JobStageRun) (now : Timestamp) : Except Raised RunTable :=
  t.create
    { id, jobId, contractId, projectId, stage
      status := .skipped
      attempt := t.nextAttempt jobId stage
      artifactRef := checkpoint.artifactRef
      versions := checkpoint.versions
      stats := [("reused_run_id", .str checkpoint.id.str)]
      startedAt := now
      finishedAt := now
      durationMs := some 0 }

/-! ## Checkpoints -/

def successes (t : RunTable) (contractId : Uuid) (stage : PipelineStage) : List JobStageRun :=
  t.rows.filter (·.isCheckpoint contractId stage)

def byFinish : Sql.OrderBy JobStageRun :=
  (Sql.OrderBy.descNullsLast (·.finishedAt)).thenBy (.desc (·.attempt))

def byAttempt : Sql.OrderBy JobStageRun := .asc (·.attempt)

def checkpoint (db : Sql.Engine JobStageRun) (t : RunTable) (contractId : Uuid)
    (stage : PipelineStage) : Option JobStageRun :=
  (db.select byFinish (t.successes contractId stage)).head?

/-- Every stage's checkpoint for a contract, in one query: later attempts overwrite earlier
ones. -/
def checkpoints (db : Sql.Engine JobStageRun) (t : RunTable) (contractId : Uuid) :
    PipelineStage → Option JobStageRun :=
  (db.select byAttempt
      (t.rows.filter fun r => r.contractId = contractId ∧ r.status = .succeeded)).foldl
    (fun result run => Function.update result run.stage (some run)) fun _ => none

/-! ## Histories -/

/-- One write to the table. `record` is the row `_handle_failure` inserts after a rollback. -/
inductive Write where
  | start (id jobId contractId projectId : Uuid) (stage : PipelineStage) (attempt : Option Nat)
      (workerId : Option String) (versions : ComponentVersions) (now : Timestamp)
  | finish (id : Uuid) (status : StageStatus) (artifactRef : Option String) (stats : JsonDict)
      (error : Option ErrorRecord) (now : Timestamp)
  | skip (id jobId contractId projectId : Uuid) (stage : PipelineStage)
      (checkpoint : JobStageRun) (now : Timestamp)
  | record (id jobId contractId projectId : Uuid) (stage : PipelineStage) (attempt : Nat)
      (workerId : String) (error : ErrorRecord) (startedAt : Option Timestamp) (now : Timestamp)

def apply (t : RunTable) : Write → Except Raised RunTable
  | .start id jobId contractId projectId stage attempt workerId versions now =>
    (t.startRun id jobId contractId projectId stage attempt workerId versions now).map (·.1)
  | .finish id status artifactRef stats error now =>
    .ok (t.finishRun id status artifactRef stats error now)
  | .skip id jobId contractId projectId stage checkpoint now =>
    t.recordSkipped id jobId contractId projectId stage checkpoint now
  | .record id jobId contractId projectId stage attempt workerId error startedAt now =>
    t.create
      { id, jobId, contractId, projectId, stage, attempt, startedAt
        status := .failed
        workerId := some workerId
        error := some error
        finishedAt := some now }

/-- Histories of stage runs, over any number of contracts, jobs and attempts. -/
def history : Machine RunTable Write where
  init t := t = empty
  step t w := (t.apply w).toOption

end RunTable

end Clear
