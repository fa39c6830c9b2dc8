import Clear.Lib.Machine
import Clear.Storage.Base

/-!
# The runs of one export

Background runs (`_run_export`, each in its own `session_scope`), the two sweeps and process
restarts, as a state machine over the committed row of one export.

Under READ COMMITTED a statement reads the committed row; the first flush of a transaction locks the
row until it commits or rolls back, and the flush of another one waits for that. A run that raises
leaves `session_scope` by its rollback, so that nothing it has flushed is committed. The store is no
part of the transaction.
-/

/-!
## What the export service writes

`ExportService.run`, `recover_stalled` and `purge_expired` (`app/export/service.py`), as far as the
row of a job goes. A transaction changes a row from what it has read, `snapshot`: a column is
written only if its value differs from the one that was read.
-/

/-!
## Export jobs

The rows of `export_jobs` (`app/models/export.py`) with the columns that a run and the sweeps read
and write.
-/

namespace Clear

structure ExportError where
  type : String
  message : String
  deriving DecidableEq, Repr

structure ExportJob where
  id : Uuid
  projectId : Option Uuid := none
  status : ExportStatus := .queued
  storagePath : Option String := none
  fileName : Option String := none
  fileSize : Option Nat := none
  rowCount : Option Nat := none
  checksum : Option String := none
  progress : Nat := 0
  error : Option ExportError := none
  startedAt : Option Timestamp := none
  finishedAt : Option Timestamp := none
  expiresAt : Option Timestamp := none
  deriving DecidableEq, Repr

/-- Rendered bytes plus what the storage layer needs. -/
structure ExportArtifact where
  content : List UInt8
  fileName : String
  rowCount : Nat
  deriving DecidableEq, Repr

end Clear

namespace Clear

namespace ExportJob

/-- How long a finished export stays downloadable, in microseconds. -/
def ttl : Nat := 48 * 3600 * 1000000

def flushed {α : Type} [DecidableEq α] (snapshot new row : α) : α :=
  if new = snapshot then row else new

/-- `run`: the first flush. -/
def claim (snapshot : ExportJob) (now : Timestamp) (row : ExportJob) : ExportJob :=
  { row with
    status := flushed snapshot.status .running row.status
    startedAt := flushed snapshot.startedAt (some now) row.startedAt
    progress := flushed snapshot.progress 5 row.progress
    error := flushed snapshot.error none row.error }

/-- The dataset is built, or rendered. -/
def advance (progress : Nat) (job : ExportJob) : ExportJob := { job with progress }

/-- `_store`: what is assigned once the file is stored. -/
def keep (snapshot : ExportJob) (sha256 : Bytes → String) (artifact : ExportArtifact)
    (job : ExportJob) : ExportJob :=
  { job with
    storagePath := flushed snapshot.storagePath
      (some (StorageKey.exportFile snapshot.projectId snapshot.id artifact.fileName))
      job.storagePath
    fileName := flushed snapshot.fileName (some artifact.fileName) job.fileName
    fileSize := flushed snapshot.fileSize (some artifact.content.length) job.fileSize
    rowCount := flushed snapshot.rowCount (some artifact.rowCount) job.rowCount
    checksum := flushed snapshot.checksum (some (sha256 artifact.content)) job.checksum }

/-- The end of the `try` block. -/
def complete (now : Timestamp) (job : ExportJob) : ExportJob :=
  { job with
    status := .completed
    progress := 100
    finishedAt := some now
    expiresAt := some (now + ttl) }

/-- The `except` block. -/
def markFailed (error : ExportError) (now : Timestamp) (job : ExportJob) : ExportJob :=
  { job with status := .failed, finishedAt := some now, error := some error }

def isStalled (olderThanMinutes : Nat) (now : Timestamp) (job : ExportJob) : Bool :=
  job.status = .running && job.startedAt.any (· + olderThanMinutes * 60000000 ≤ now)

def requeue (olderThanMinutes : Nat) (snapshot row : ExportJob) : ExportJob :=
  { row with
    status := flushed snapshot.status .queued row.status
    progress := flushed snapshot.progress 0 row.progress
    startedAt := flushed snapshot.startedAt none row.startedAt
    error := flushed snapshot.error
      (some { type := "Stalled",
              message := s!"No progress for {olderThanMinutes} minutes; the worker was presumed " ++
                "lost and the export was requeued." })
      row.error }

def isExpired (now : Timestamp) (job : ExportJob) : Bool :=
  job.status = .completed && job.expiresAt.any (· ≤ now)

def expire (snapshot row : ExportJob) : ExportJob :=
  { row with
    status := flushed snapshot.status .expired row.status
    storagePath := flushed snapshot.storagePath none row.storagePath }

end ExportJob

end Clear

namespace Clear

namespace Exports

/-- Where a run is. `snapshot` is the row that it has read, `job` its uncommitted version. -/
inductive Phase where
  | scheduled
  | loaded (snapshot : ExportJob)
  | claimed (snapshot job : ExportJob)
  | built (snapshot job : ExportJob)
  | rendered (snapshot job : ExportJob) (artifact : ExportArtifact)
  | stored (snapshot job : ExportJob)
  | finished (job : ExportJob)
  /-- The export was complete: there is nothing to commit. -/
  | returned
  /-- About to be rolled back, with what the `except` block has flushed. -/
  | raised (flushed : Option ExportJob) (error : ExportError)
  deriving DecidableEq

structure Stored where
  run : Nat
  key : String
  status : ExportStatus
  deriving DecidableEq

/-- A run that has failed, and the row that is committed when it is over. -/
structure Failure where
  error : ExportError
  row : ExportJob
  deriving DecidableEq

/-- What `purge_expired` has selected, and whether its file is deleted. -/
structure Purge where
  snapshot : ExportJob
  deleted : Bool := false

structure State where
  /-- The committed row. -/
  row : ExportJob
  runs : Nat → Option Phase
  next : Nat
  /-- The run whose transaction has locked the row. -/
  lock : Option Nat := none
  objects : Objects
  recovering : Option ExportJob := none
  purging : Option Purge := none
  stores : List Stored := []
  failures : List Failure := []

namespace State

variable (s : State)

def enter (run : Nat) (phase : Phase) : State :=
  { s with runs := Function.update s.runs run (some phase) }

def leave (run : Nat) : State :=
  { s with
    runs := Function.update s.runs run none
    lock := if s.lock = some run then none else s.lock }

end State

inductive Action where
  /-- A background run of the export is asked for. -/
  | deliver
  | load (run : Nat)
  | claim (run : Nat) (now : Timestamp)
  | build (run : Nat)
  | render (run : Nat) (artifact : ExportArtifact)
  | store (run : Nat)
  | finish (run : Nat) (now : Timestamp)
  /-- An exception inside the `try` block of `run`. -/
  | raise (run : Nat) (error : ExportError) (now : Timestamp)
  /-- An exception outside of it: the first flush or the commit is refused. -/
  | refuse (run : Nat) (error : ExportError)
  /-- `session_scope` ends. -/
  | exit (run : Nat)
  /-- The process of the run is gone. -/
  | die (run : Nat)
  | selectStalled (olderThanMinutes : Nat) (now : Timestamp)
  | requeue (olderThanMinutes : Nat)
  | selectExpired (now : Timestamp)
  | deleteFile
  | expire
  /-- The sweep fails, or cannot delete the file. -/
  | dropSweep

def load (row : ExportJob) : Phase :=
  match row.status with
  | .completed => .returned
  | .running =>
    .raised none { type := "ConflictError", message := "This export is already running." }
  | _ => .loaded row

variable (sha256 : Bytes → String)

def stepRun (s : State) : Action → Option State
  | .deliver => some { s.enter s.next .scheduled with next := s.next + 1 }
  | .load run =>
    match s.runs run with
    | some .scheduled => some (s.enter run (load s.row))
    | _ => none
  | .claim run now =>
    match s.runs run with
    | some (.loaded snapshot) =>
      if s.lock = none then
        some { s.enter run (.claimed snapshot (ExportJob.claim snapshot now s.row)) with
          lock := some run }
      else none
    | _ => none
  | .build run =>
    match s.runs run with
    | some (.claimed snapshot job) =>
      some (s.enter run (.built snapshot (ExportJob.advance 60 job)))
    | _ => none
  | .render run artifact =>
    match s.runs run with
    | some (.built snapshot job) =>
      some (s.enter run (.rendered snapshot (ExportJob.advance 85 job) artifact))
    | _ => none
  | .store run =>
    match s.runs run with
    | some (.rendered snapshot job artifact) =>
      let key := StorageKey.exportFile snapshot.projectId snapshot.id artifact.fileName
      some { s.enter run (.stored snapshot (ExportJob.keep snapshot sha256 artifact job)) with
        objects := Function.update s.objects key (some artifact.content)
        stores := s.stores ++ [{ run, key, status := s.row.status }] }
    | _ => none
  | .finish run now =>
    match s.runs run with
    | some (.stored _ job) => some (s.enter run (.finished (ExportJob.complete now job)))
    | _ => none
  | .raise run error now =>
    match s.runs run with
    | some (.claimed _ job) | some (.built _ job) | some (.rendered _ job _)
    | some (.stored _ job) =>
      some (s.enter run (.raised (some (ExportJob.markFailed error now job)) error))
    | _ => none
  | .refuse run error =>
    match s.runs run with
    | some (.loaded _) | some (.finished _) => some (s.enter run (.raised none error))
    | _ => none
  | .exit run =>
    match s.runs run with
    | some (.finished job) => some (State.leave { s with row := job } run)
    | some .returned => some (s.leave run)
    | some (.raised _ error) =>
      some (State.leave { s with failures := s.failures ++ [{ error, row := s.row }] } run)
    | _ => none
  | .die run => (s.runs run).map fun _ => s.leave run
  | _ => none

def stepSweep (s : State) : Action → Option State
  | .selectStalled olderThanMinutes now =>
    if s.row.isStalled olderThanMinutes now then some { s with recovering := some s.row } else none
  | .requeue olderThanMinutes =>
    match s.recovering with
    | some snapshot =>
      if s.lock = none then
        some { s with row := ExportJob.requeue olderThanMinutes snapshot s.row, recovering := none }
      else none
    | none => none
  | .selectExpired now =>
    if s.row.isExpired now then some { s with purging := some { snapshot := s.row } } else none
  | .deleteFile =>
    match s.purging with
    | some { snapshot, .. } =>
      snapshot.storagePath.map fun path =>
        { s with
          objects := Function.update s.objects path none
          purging := some { snapshot, deleted := true } }
    | none => none
  | .expire =>
    match s.purging with
    | some { snapshot, deleted } =>
      if s.lock = none ∧ (deleted ∨ snapshot.storagePath = none) then
        some { s with row := ExportJob.expire snapshot s.row, purging := none }
      else none
    | none => none
  | .dropSweep => some { s with recovering := none, purging := none }
  | _ => none

def step (s : State) (a : Action) : Option State := (stepRun sha256 s a).or (stepSweep s a)

def machine : Machine State Action where
  init s := ∃ (id : Uuid) (projectId : Option Uuid) (objects : Objects),
    s = { row := { id, projectId }
          runs := fun run => if run = 0 then some .scheduled else none
          next := 1
          objects }
  step := step sha256

end Exports

end Clear
