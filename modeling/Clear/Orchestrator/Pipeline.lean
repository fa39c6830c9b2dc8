import Clear.Orchestrator.Runner

/-!
# The pipeline

The system the Execution Engine is part of: the entry points that create jobs (upload, reprocess,
retry, reindex) or send a message to an existing one (the CLI's `reprocess`), the queue of stage
messages, `run_stage` for each message delivered, cancellation, the stalled-job sweep, and changes
of contracts and profiles. `machine` takes these steps in any order, for any number of contracts
and jobs; a step is one committed transaction, and the deployment may differ from call to call.

`process` follows one message to the end of its job, stage by stage.
-/

namespace Clear

namespace Pipeline

/-! ## Requests -/

inductive Request where
  | upload (contractId projectId : Uuid) (priority : JobPriority) (isReprocess : Bool)
  | reprocess (contractId projectId : Uuid) (fromStage : PipelineStage) (force : Bool)
      (priority : JobPriority) (options : JsonDict)
  | retry (jobId : Uuid)
  | reindex (contractId projectId : Uuid) (targetModel : String)

def enqueueReprocess (jobId : Uuid) (dispatchId : String) (now : Timestamp)
    (contractId projectId : Uuid) (fromStage : PipelineStage) (priority : JobPriority)
    (options : JsonDict) : ProcessingJob × StageMessage :=
  (.createJob jobId contractId projectId priority true fromStage now,
    { jobId, contractId, projectId, priority, options, dispatchId
      stage := fromStage })

def submission (db : Db) (jobId : Uuid) (dispatchId : String) (now : Timestamp) :
    Request → Option (ProcessingJob × StageMessage)
  | .upload contractId projectId priority isReprocess =>
    some (.createJob jobId contractId projectId priority isReprocess none now,
      { jobId, contractId, projectId, priority, dispatchId
        stage := .validation })
  | .reprocess contractId projectId fromStage force priority options =>
    some (enqueueReprocess jobId dispatchId now contractId projectId fromStage priority
      (("force", .bool force) :: options))
  | .retry failedId =>
    match db.jobs failedId with
    | none => none
    | some job =>
      if job.state ∈ [.failed, .cancelled] then
        some (enqueueReprocess jobId dispatchId now job.contractId job.projectId
          (job.currentStage.getD .validation) job.priority [("force", .bool true)])
      else none
  | .reindex contractId projectId targetModel =>
    some (enqueueReprocess jobId dispatchId now contractId projectId .embedding .low
      [("reason", .str "embedding_model_change"), ("target_model", .str targetModel)])

/-- The CLI's `reprocess`: a message for an existing job. -/
def replay (db : Db) (jobId : Uuid) (stage : PipelineStage) (dispatchId : String) :
    Option StageMessage :=
  match db.jobs jobId, stagesFrom stage with
  | some job, some _ =>
    some
      { jobId, stage, dispatchId
        contractId := job.contractId
        projectId := job.projectId
        options := [("force", .bool true)] }
  | _, _ => none

/-! ## Steps -/

variable {Payload : Type}

structure State where
  db : Db := {}
  inflight : List StageMessage := []
  clock : Timestamp := 0

inductive Action (Payload : Type) where
  | register (contract : Contract)
  | saveProfile (profile : DocumentProfile)
  | submit (jobId : Uuid) (dispatchId : String) (request : Request)
  | replay (jobId : Uuid) (stage : PipelineStage) (dispatchId : String)
  /-- A worker runs a message. -/
  | deliver (message : StageMessage) (call : StageCall Payload)
  /-- A message is given up by the queue. -/
  | drop (message : StageMessage)
  | cancel (jobId : Uuid)
  | sweep (timeoutMinutes : Nat) (now : Timestamp)

def step (s : State) : Action Payload → Option State
  | .register contract =>
    match s.db.contracts contract.id with
    | some _ => none
    | none =>
      some { s with db :=
        { s.db with contracts := Function.update s.db.contracts contract.id (some contract) } }
  | .saveProfile profile =>
    some { s with db :=
      { s.db with profiles := Function.update s.db.profiles profile.id (some profile) } }
  | .submit jobId dispatchId request =>
    match submission s.db jobId dispatchId s.clock request with
    | none => none
    | some (job, message) =>
      if (s.db.jobs jobId).isNone ∧ (s.db.contracts job.contractId).isSome then
        some { s with
          db := { s.db with jobs := Function.update s.db.jobs jobId (some job) }
          inflight := s.inflight ++ [message] }
      else none
  | .replay jobId stage dispatchId =>
    (replay s.db jobId stage dispatchId).map fun message =>
      { s with inflight := s.inflight ++ [message] }
  | .deliver message call =>
    if message ∈ s.inflight ∧ s.clock ≤ call.startedAt ∧ call.startedAt < call.finishedAt then
      match Runner.runStage call s.db message with
      | .error _ => some { s with clock := call.finishedAt }
      | .ok (db, _, next) =>
        some
          { db
            inflight := s.inflight.erase message ++ (next.map (·.1)).toList
            clock := call.finishedAt }
    else none
  | .drop message =>
    if message ∈ s.inflight then some { s with inflight := s.inflight.erase message } else none
  | .cancel jobId =>
    match s.db.jobs jobId with
    | none => none
    | some job =>
      if job.state.isTerminal then none
      else some { s with db := s.db.updateJob jobId (.markCancelled s.clock) }
  | .sweep timeoutMinutes now =>
    some { s with db :=
      { s.db with jobs := fun id => (s.db.jobs id).map fun job =>
          if job.isStalled timeoutMinutes now then { job with state := .failed } else job } }

/-- The pipeline over any number of contracts and jobs. -/
def machine (Payload : Type) : Machine State (Action Payload) where
  init s := s = {}
  step := step

/-! ## One job -/

/-- Deliver a message and the messages that follow from it, one call each; the trace lists the
stages with what became of them. -/
def process (db : Db) (message : StageMessage) :
    List (StageCall Payload) → Except Raised (Db × List (PipelineStage × StageStatus))
  | [] => .ok (db, [])
  | call :: calls => do
    let (db, outcome, next) ← Runner.runStage call db message
    match next with
    | none => return (db, [(message.stage, outcome.status)])
    | some (next, _) =>
      let (db, trace) ← process db next calls
      return (db, (message.stage, outcome.status) :: trace)

end Pipeline

end Clear
