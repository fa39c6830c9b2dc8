import Clear.Orchestrator.Runner

/-!
# The life of one job

`Runner.runStage` is one step there; here it is taken apart into its reads and writes of the job
row, which interleave with one another, with the API transaction that creates the job, with
cancellation, deletion of the contract and the stalled-job sweep.

The database runs at `READ COMMITTED`: a statement reads the committed row, the first `UPDATE` of a
transaction locks the row until it commits or rolls back, and a later `UPDATE` waits for that. A
worker therefore reads the row (`load`), and locks it with its first write (`start`), so that what
follows up to its commit (`finish`) cannot be interleaved with another write.

A broker hands a message over at once; the Postgres driver enqueues within the transaction of the
caller. `run_stage` raising has the message delivered again while deliveries are left.
-/

namespace Clear

namespace Lifecycle

/-! ## Messages and outcomes -/

/-- What carries the messages. -/
inductive Driver where
  | broker | postgres
  deriving DecidableEq

def Driver.atOnce : Driver → Bool
  | broker => true
  | postgres => false

structure Envelope where
  message : StageMessage
  deliveries : Nat
  deriving DecidableEq

inductive Verdict where
  | skipped (nextStage : Option PipelineStage)
  | succeeded (nextStage : Option PipelineStage)
  | halted (reason : Option String)
  | failed (retryable : Bool) (error : ErrorRecord)

namespace Verdict

def finalise (nextStage : Option PipelineStage) (now : Timestamp) (j : ProcessingJob) :
    ProcessingJob :=
  match nextStage with
  | some _ => j
  | none => j.markReady now

/-- What the end of the transaction writes to the job row. -/
def write (settings : QueueSettings) (message : StageMessage) (now : Timestamp)
    (j : ProcessingJob) : Verdict → ProcessingJob
  | skipped nextStage => finalise nextStage now j
  | succeeded nextStage =>
    finalise nextStage now (j.updateProgress (Workflow.progressFor message.stage true) now)
  | halted reason =>
    (j.updateProgress (Workflow.progressFor message.stage true) now).markFailed message.stage
      (Runner.haltRecord message reason) now
  | failed retryable error =>
    if Runner.canRetry settings message retryable then
      j.markRetrying message.stage message.attempt now
    else j.markFailed message.stage error now

/-- What `run_stage` reports. -/
def outcome (settings : QueueSettings) (message : StageMessage) : Verdict → StageOutcome
  | skipped nextStage =>
    { jobId := message.jobId
      stage := message.stage
      status := .skipped
      attempt := message.attempt
      nextStage }
  | succeeded nextStage =>
    { jobId := message.jobId
      stage := message.stage
      status := .succeeded
      attempt := message.attempt
      nextStage }
  | halted _ =>
    { jobId := message.jobId
      stage := message.stage
      status := .succeeded
      attempt := message.attempt }
  | failed retryable error =>
    Runner.failureOutcome settings message message.jobId retryable error

end Verdict

/-! ## States -/

/-- Where a worker is in `run_stage`. -/
inductive Phase where
  | received
  /-- The job row was read; nothing is written yet. -/
  | loaded (snapshot : ProcessingJob)
  /-- The handler runs; the row is locked and `job` is its uncommitted version. -/
  | running (job : ProcessingJob)
  /-- The failure could not be recorded and was rolled back; the state of the job is still to be
  written. -/
  | failing (retryable : Bool) (error : ErrorRecord)
  /-- The transaction is over; what follows is still to be queued. -/
  | settled (outcome : StageOutcome)

def Phase.holdsLock : Phase → Bool
  | running _ => true
  | _ => false

structure Activation where
  envelope : Envelope
  phase : Phase

/-- The API transaction that creates the job, and whether its first message was handed over. -/
structure Draft where
  job : ProcessingJob
  message : StageMessage
  sent : Bool := false

/-- The committed row of the job, whether its contract is live, the open transactions and the
messages. `cancelling` counts the requests that passed the check of `cancel_job`; `sweeping` and
`deleting` say that the sweep has selected the job and that `delete_contract` has passed its
check. -/
structure State where
  row : Option ProcessingJob := none
  contract : Bool := true
  draft : Option Draft := none
  inflight : List Envelope := []
  workers : List Activation := []
  cancelling : Nat := 0
  sweeping : Bool := false
  deleting : Bool := false

namespace State

variable (s : State)

def unlocked : Bool := s.workers.all fun a => !a.phase.holdsLock

def update (f : ProcessingJob → ProcessingJob) : State := { s with row := s.row.map f }

def send (envelope : Envelope) : State := { s with inflight := s.inflight ++ [envelope] }

def sendIf (visible : Bool) (envelope : Envelope) : State :=
  if visible then s.send envelope else s

def advance (w : Nat) (envelope : Envelope) (phase : Phase) : State :=
  { s with workers := s.workers.set w { envelope, phase } }

def retire (w : Nat) : State := { s with workers := s.workers.eraseIdx w }

section
variable {s : State} {e : Envelope} {visible : Bool}

@[simp] theorem sendIf_row : (s.sendIf visible e).row = s.row := by
  unfold sendIf
  split <;> rfl

@[simp] theorem sendIf_draft : (s.sendIf visible e).draft = s.draft := by
  unfold sendIf
  split <;> rfl

@[simp] theorem sendIf_workers : (s.sendIf visible e).workers = s.workers := by
  unfold sendIf
  split <;> rfl

@[simp] theorem sendIf_cancelling : (s.sendIf visible e).cancelling = s.cancelling := by
  unfold sendIf
  split <;> rfl

theorem mem_sendIf {e' : Envelope} (h : e' ∈ (s.sendIf visible e).inflight) :
    e' ∈ s.inflight ∨ e' = e := by
  unfold sendIf at h
  split at h
  · exact (List.mem_append.1 h).imp_right List.mem_singleton.1
  · exact .inl h

end

end State

/-! ## Steps -/

inductive Action where
  /-- The API: create the job, hand over its message or fail to, commit or roll back. -/
  | create (job : ProcessingJob) (message : StageMessage)
  | enqueue
  | refuseFirst (error : ErrorRecord) (now : Timestamp)
  | commit
  | rollback
  /-- The CLI sends a message for the job. -/
  | replay (message : StageMessage)
  /-- `cancel_job` loads the job and passes its check; then it writes. -/
  | checkCancel
  | cancel (now : Timestamp)
  /-- `delete_contract` finds no active job; then it deletes. -/
  | checkDelete
  | delete
  /-- The sweep selects the job; then it writes. -/
  | selectStalled (timeoutMinutes : Nat) (now : Timestamp)
  | failStalled (now : Timestamp)
  /-- A worker receives a message and runs it. -/
  | deliver (envelope : Envelope)
  | load (w : Nat)
  | skip (w : Nat) (nextStage : Option PipelineStage) (now : Timestamp)
  | start (w : Nat) (workerId : String) (now : Timestamp)
  | finish (w : Nat) (verdict : Verdict) (now : Timestamp)
  | rollBack (w : Nat) (retryable : Bool) (error : ErrorRecord)
  | recordFailure (w : Nat) (now : Timestamp)
  | raise (w : Nat)
  | dispatch (w : Nat) (dispatchId : String)
  | refuse (w : Nat) (now : Timestamp)

variable (driver : Driver) (settings : QueueSettings)

def envelope (message : StageMessage) : Envelope := { message, deliveries := settings.maxAttempts }

def load (s : State) (message : StageMessage) : Phase :=
  match s.row with
  | none => .settled (Runner.jobMissing message)
  | some job =>
    if !Runner.isActive job then .settled (Runner.notActive message job)
    else if s.contract then .loaded job
    else .settled (Runner.contractMissing message job)

def stepOther (s : State) : Action → Option State
  | .create job message =>
    if s.row.isNone ∧ s.draft.isNone ∧ s.contract ∧ job.state = .queued ∧
        message.continuePipeline then
      some { s with draft := some { job, message } }
    else none
  | .enqueue =>
    match s.draft with
    | some { job, message, sent := false } =>
      some ({ s with draft := some { job, message, sent := true } }.sendIf driver.atOnce
        (envelope settings message))
    | _ => none
  | .refuseFirst error now =>
    match s.draft with
    | some { job, sent := false, .. } =>
      some { s with
        row := some (job.markFailed (some .validation) error now)
        draft := none }
    | _ => none
  | .commit =>
    match s.draft with
    | some { job, message, sent := true } =>
      some ({ s with row := some job, draft := none }.sendIf (!driver.atOnce)
        (envelope settings message))
    | _ => none
  | .rollback => if s.draft.isSome then some { s with draft := none } else none
  | .replay message =>
    if s.row.isSome ∧ message.continuePipeline then some (s.send (envelope settings message))
    else none
  | .checkCancel =>
    match s.row with
    | some job =>
      if job.state.isTerminal then none else some { s with cancelling := s.cancelling + 1 }
    | none => none
  | .cancel now =>
    if s.unlocked ∧ 0 < s.cancelling then
      some { s.update (.markCancelled now) with cancelling := s.cancelling - 1 }
    else none
  | .checkDelete =>
    if s.row.all (·.state.isTerminal) then some { s with deleting := true } else none
  | .delete => if s.deleting then some { s with contract := false, deleting := false } else none
  | .selectStalled timeoutMinutes now =>
    if s.row.any (·.isStalled timeoutMinutes now) then some { s with sweeping := true } else none
  | .failStalled now =>
    if s.unlocked ∧ s.sweeping then
      some { s.update (.reclaimStalled now) with sweeping := false }
    else none
  | _ => none

def stepWorker (s : State) : Action → Option State
  | .deliver envelope =>
    if envelope ∈ s.inflight then
      some { s with
        inflight := s.inflight.erase envelope
        workers := s.workers ++ [{ envelope, phase := .received }] }
    else none
  | .load w =>
    match s.workers[w]? with
    | some ⟨envelope, .received⟩ => some (s.advance w envelope (load s envelope.message))
    | _ => none
  | .skip w nextStage now =>
    match s.workers[w]? with
    | some ⟨envelope, .loaded _⟩ =>
      if s.unlocked then
        some ((s.update (Verdict.write settings envelope.message now · (.skipped nextStage))).advance
          w envelope (.settled (Verdict.outcome settings envelope.message (.skipped nextStage))))
      else none
    | _ => none
  | .start w workerId now =>
    match s.workers[w]?, s.row with
    | some ⟨envelope, .loaded snapshot⟩, some job =>
      if s.unlocked then
        some (s.advance w envelope (.running
          ((ProcessingJob.flushStageStarted envelope.message.stage workerId now snapshot
            job).updateProgress (Workflow.progressFor envelope.message.stage false) now)))
      else none
    | _, _ => none
  | .finish w verdict now =>
    match s.workers[w]? with
    | some ⟨envelope, .running job⟩ =>
      some ((s.update fun _ => verdict.write settings envelope.message now job).advance w envelope
        (.settled (verdict.outcome settings envelope.message)))
    | _ => none
  | .rollBack w retryable error =>
    match s.workers[w]? with
    | some ⟨envelope, .running _⟩ => some (s.advance w envelope (.failing retryable error))
    | _ => none
  | .recordFailure w now =>
    match s.workers[w]? with
    | some ⟨envelope, .failing retryable error⟩ =>
      if s.unlocked then
        some ((s.update (Verdict.write settings envelope.message now ·
          (.failed retryable error))).advance w envelope
            (.settled (Verdict.outcome settings envelope.message (.failed retryable error))))
      else none
    | _ => none
  | .raise w =>
    match s.workers[w]? with
    | some ⟨⟨message, deliveries⟩, _⟩ =>
      if 1 < deliveries then some ((s.retire w).send ⟨message, deliveries - 1⟩)
      else some (s.retire w)
    | none => none
  | .dispatch w dispatchId =>
    match s.workers[w]? with
    | some ⟨⟨message, _⟩, .settled outcome⟩ =>
      match Runner.dispatches message outcome dispatchId with
      | none => some (s.retire w)
      | some (next, _) => some ((s.retire w).send (envelope settings next))
    | _ => none
  | .refuse w now =>
    match s.workers[w]? with
    | some ⟨⟨message, _⟩, .settled outcome⟩ =>
      match Runner.dispatches message outcome "" with
      | none => none
      | some (next, _) =>
        if s.unlocked then
          some ((s.update (.markFailed next.stage
            (Runner.queueErrorRecord next outcome.shouldRetry) now)).retire w)
        else none
    | _ => none
  | _ => none

def step (s : State) (a : Action) : Option State :=
  (stepOther driver settings s a).or (stepWorker settings s a)

/-- One job, from its creation on. -/
def machine : Machine State Action where
  init s := s = {}
  step := step driver settings

end Lifecycle

end Clear
