import Clear.Lib.Machine
import Clear.Lib.OrderBy
import Clear.Models.Processing

/-!
# Postgres queue driver

`PostgresQueueDriver` keeps stage messages in the table `stage_queue`. A claim is a lease: it
commits before the stage runs, and the row is settled later by `complete` or `fail`, or returned by
`reclaimStale` when its lease has aged. A settle operation names the row, not the claim.

* the driver's operations on the table, each one transaction (`fail` reads and then writes),
* `Leases.machine`: any number of workers claiming, settling, dying and having leases reclaimed in
  any order. Its state records beside the table which task a row's current claim belongs to, which
  tasks lost their lease and which rows had a completion recorded; no operation of the driver reads
  these three.
-/

namespace Clear

structure StageQueueEntry where
  id : Uuid
  dispatchId : String
  jobId : Uuid
  contractId : Uuid
  projectId : Uuid
  stage : PipelineStage
  priority : JobPriority := .normal
  payload : StageMessage
  attempt : Nat := 1
  maxAttempts : Nat := 3
  state : StageQueueState := .pending
  availableAt : Timestamp := 0
  claimedAt : Option Timestamp := none
  claimedBy : Option String := none
  lastError : Option JsonDict := none
  deriving DecidableEq

/-- One leased row, as the worker loop sees it. -/
structure ClaimedStage where
  rowId : Uuid
  message : StageMessage
  attempt : Nat
  maxAttempts : Nat
  deriving DecidableEq

structure QueueTable where
  rows : List StageQueueEntry
  idUnique : (rows.map (·.id)).Nodup
  dispatchUnique : (rows.map (·.dispatchId)).Nodup

namespace QueueTable

def empty : QueueTable := ⟨[], by simp, by simp⟩

def update (t : QueueTable) (p : StageQueueEntry → Bool) (f : StageQueueEntry → StageQueueEntry)
    (hid : ∀ r, (f r).id = r.id) (hdispatch : ∀ r, (f r).dispatchId = r.dispatchId) :
    QueueTable where
  rows := t.rows.map fun r => if p r then f r else r
  idUnique := Keyed.update t.idUnique fun r => by split <;> simp [hid]
  dispatchUnique := Keyed.update t.dispatchUnique fun r => by split <;> simp [hdispatch]

def insert (t : QueueTable) (r : StageQueueEntry) : Option QueueTable :=
  if h : Keyed.Fresh (·.id) t.rows r then
    if hd : Keyed.Fresh (·.dispatchId) t.rows r then
      some ⟨t.rows ++ [r], Keyed.concat t.idUnique h, Keyed.concat t.dispatchUnique hd⟩
    else some t
  else none

/-! ## Operations -/

/-- The row `_insert` builds for a message. -/
def entryOf (id : Uuid) (message : StageMessage) (delayMs maxAttempts : Nat) (now : Timestamp) :
    StageQueueEntry :=
  { id
    dispatchId := message.dispatchId
    jobId := message.jobId
    contractId := message.contractId
    projectId := message.projectId
    stage := message.stage
    priority := message.priority
    payload := message
    attempt := message.attempt
    maxAttempts
    state := .pending
    availableAt := now + delayMs * 1000 }

def enqueue (t : QueueTable) (id : Uuid) (message : StageMessage) (delayMs maxAttempts : Nat)
    (now : Timestamp) : Option QueueTable :=
  t.insert (entryOf id message delayMs maxAttempts now)

/-- The rows a claim may take: pending, due, of a wanted stage, and not locked by another
transaction (`SKIP LOCKED`). -/
def claimable (t : QueueTable) (locked : List Uuid) (stages : List PipelineStage)
    (now : Timestamp) : List StageQueueEntry :=
  t.rows.filter fun r =>
    r.state = .pending ∧ r.availableAt ≤ now ∧ (stages = [] ∨ r.stage ∈ stages) ∧ r.id ∉ locked

def byPriority : Sql.OrderBy StageQueueEntry :=
  (Sql.OrderBy.asc (·.priority.rank)).thenBy (.asc (·.availableAt))

def claimSet (db : Sql.Engine StageQueueEntry) (t : QueueTable) (locked : List Uuid) (limit : Nat)
    (stages : List PipelineStage) (now : Timestamp) : List StageQueueEntry :=
  (db.select byPriority (t.claimable locked stages now)).take limit

def lease (workerId : String) (now : Timestamp) (r : StageQueueEntry) : StageQueueEntry :=
  { r with
    state := .claimed
    claimedAt := some now
    claimedBy := some (String.ofList (workerId.toList.take 128)) }

def claimedStage (r : StageQueueEntry) : ClaimedStage :=
  { rowId := r.id
    message := { r.payload with attempt := r.attempt }
    attempt := r.attempt
    maxAttempts := r.maxAttempts }

/-- Take up to `limit` rows, marking them claimed. -/
def claim (db : Sql.Engine StageQueueEntry) (t : QueueTable) (workerId : String)
    (locked : List Uuid) (limit : Nat) (stages : List PipelineStage) (now : Timestamp) :
    QueueTable × List ClaimedStage :=
  let chosen := t.claimSet db locked limit stages now
  (t.update (fun r => r.id ∈ chosen.map (·.id)) (lease workerId now) (fun _ => rfl) fun _ => rfl,
    chosen.map claimedStage)

def complete (t : QueueTable) (rowId : Uuid) : QueueTable :=
  t.update (·.id = rowId)
    (fun r => { r with state := .done, claimedAt := none, claimedBy := none }) (fun _ => rfl)
    fun _ => rfl

def failRead (t : QueueTable) (rowId : Uuid) : Option (Nat × Nat) :=
  (t.rows.find? (·.id = rowId)).map fun r => (r.attempt, r.maxAttempts)

/-- What `fail` writes, from the attempt and budget it read. -/
def reschedule (backoffMs attempt maxAttempts : Nat) (error : JsonDict) (now : Timestamp)
    (r : StageQueueEntry) : StageQueueEntry :=
  if attempt < maxAttempts then
    { r with
      state := .pending
      attempt := attempt + 1
      availableAt := now + backoffMs * 2 ^ (attempt - 1) * 1000
      claimedAt := none
      claimedBy := none
      lastError := some error }
  else
    { r with state := .dead, claimedAt := none, claimedBy := none, lastError := some error }

def failWrite (t : QueueTable) (rowId : Uuid) (backoffMs attempt maxAttempts : Nat)
    (error : JsonDict) (now : Timestamp) : QueueTable :=
  t.update (·.id = rowId) (reschedule backoffMs attempt maxAttempts error now)
    (fun r => by unfold reschedule; split <;> rfl) fun r => by unfold reschedule; split <;> rfl

def stale (leaseSeconds : Nat) (now : Timestamp) (r : StageQueueEntry) : Bool :=
  r.state = .claimed ∧ ∃ at_ ∈ r.claimedAt, at_ + leaseSeconds * 1000000 < now

def aged (t : QueueTable) (leaseSeconds : Nat) (now : Timestamp) : List Uuid :=
  (t.rows.filter (stale leaseSeconds now)).map (·.id)

/-- Return leases whose worker stopped reporting. -/
def reclaimStale (t : QueueTable) (leaseSeconds : Nat) (now : Timestamp) : QueueTable :=
  t.update (stale leaseSeconds now)
    (fun r =>
      { r with
        state := if r.attempt < r.maxAttempts then .pending else .dead
        attempt := r.attempt + 1
        availableAt := now
        claimedAt := none
        claimedBy := none })
    (fun _ => rfl) fun _ => rfl

end QueueTable

/-! ## Workers -/

namespace Leases

/-- Where a task is between its claim and its settle. -/
inductive Phase where
  /-- `run_stage` has not returned. -/
  | running
  /-- `run_stage` raised and `fail` has read the row. -/
  | failing (attempt maxAttempts : Nat)
  deriving DecidableEq

structure Task where
  id : Nat
  workerId : String
  item : ClaimedStage
  phase : Phase := .running
  deriving DecidableEq

/-- The queue and the tasks working on it. `holder` is the task of a row's current claim,
`reclaimed` the tasks whose lease was taken back and `completed` the rows with a recorded
completion; the three only record what happened. -/
structure State where
  table : QueueTable
  tasks : List Task
  nextTask : Nat
  holder : Uuid → Option Nat
  reclaimed : List Nat
  completed : Uuid → Bool

inductive Action where
  | enqueue (id : Uuid) (message : StageMessage) (delayMs maxAttempts : Nat) (now : Timestamp)
  | claim (db : Sql.Engine StageQueueEntry) (workerId : String) (locked : List Uuid) (limit : Nat)
      (stages : List PipelineStage) (now : Timestamp)
  /-- `run_stage` returned: the task completes its row and ends. -/
  | complete (task : Task)
  /-- `run_stage` raised: `fail` reads the row. -/
  | failRead (task : Task)
  /-- `fail` writes the row and the task ends. -/
  | failWrite (task : Task) (backoffMs : Nat) (error : JsonDict) (now : Timestamp)
  /-- The worker dies with the task unsettled. -/
  | die (task : Task)
  | reclaim (leaseSeconds : Nat) (now : Timestamp)

def spawn (workerId : String) (next : Nat) (items : List ClaimedStage) : List Task :=
  items.mapIdx fun i item => { id := next + i, workerId, item }

def step (s : State) : Action → Option State
  | .enqueue id message delayMs maxAttempts now =>
    (s.table.enqueue id message delayMs maxAttempts now).map fun t => { s with table := t }
  | .claim db workerId locked limit stages now =>
    let (table, items) := s.table.claim db workerId locked limit stages now
    let started := spawn workerId s.nextTask items
    some
      { s with
        table
        tasks := s.tasks ++ started
        nextTask := s.nextTask + items.length
        holder := fun row =>
          ((started.find? (·.item.rowId = row)).map (·.id)).or (s.holder row) }
  | .complete task =>
    if task ∈ s.tasks ∧ task.phase = .running then
      some
        { s with
          table := s.table.complete task.item.rowId
          tasks := s.tasks.erase task
          holder := Function.update s.holder task.item.rowId none
          completed := Function.update s.completed task.item.rowId true }
    else none
  | .failRead task =>
    if task ∈ s.tasks ∧ task.phase = .running then
      match s.table.failRead task.item.rowId with
      | some (attempt, maxAttempts) =>
        some
          { s with
            tasks := s.tasks.erase task ++ [{ task with phase := .failing attempt maxAttempts }] }
      | none => some { s with tasks := s.tasks.erase task }
    else none
  | .failWrite task backoffMs error now =>
    match task.phase with
    | .failing attempt maxAttempts =>
      if task ∈ s.tasks then
        some
          { s with
            table := s.table.failWrite task.item.rowId backoffMs attempt maxAttempts error now
            tasks := s.tasks.erase task
            holder := Function.update s.holder task.item.rowId none }
      else none
    | .running => none
  | .die task =>
    if task ∈ s.tasks then some { s with tasks := s.tasks.erase task } else none
  | .reclaim leaseSeconds now =>
    some
      { s with
        table := s.table.reclaimStale leaseSeconds now
        holder := fun row =>
          if row ∈ s.table.aged leaseSeconds now then none else s.holder row
        reclaimed := s.reclaimed ++ (s.table.aged leaseSeconds now).filterMap s.holder }

/-- The queue under any number of workers. -/
def machine : Machine State Action where
  init s := s = ⟨.empty, [], 0, fun _ => none, [], fun _ => false⟩
  step := step

end Leases

end Clear
