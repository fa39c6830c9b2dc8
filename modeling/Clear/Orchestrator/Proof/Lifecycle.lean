import Clear.Orchestrator.Lifecycle

/-!
# What a step in the life of a job does

`Served` and `Worked` list what each action finds and what it leaves behind (`step_cases`); every
invariant of `Lifecycle.machine` is proved by cases on the two lists.
-/

namespace Clear

namespace Lifecycle

/-- The steps of the API, the CLI and the scheduler. -/
inductive Served (driver : Driver) (settings : QueueSettings) (s : State) : Action → State → Prop
  | create {job message} (row : s.row = none) (draft : s.draft = none)
      (queued : job.state = .queued) (continues : message.continuePipeline = true) :
      Served driver settings s (.create job message) { s with draft := some { job, message } }
  | enqueue {job message} (draft : s.draft = some { job, message, sent := false }) :
      Served driver settings s .enqueue
        ({ s with draft := some { job, message, sent := true } }.sendIf driver.atOnce
          (envelope settings message))
  | refuseFirst {job message error now} (draft : s.draft = some { job, message, sent := false }) :
      Served driver settings s (.refuseFirst error now)
        { s with row := some (job.markFailed (some .validation) error now), draft := none }
  | commit {job message} (draft : s.draft = some { job, message, sent := true }) :
      Served driver settings s .commit
        ({ s with row := some job, draft := none }.sendIf (!driver.atOnce)
          (envelope settings message))
  | rollback : Served driver settings s .rollback { s with draft := none }
  | replay {message} (row : s.row.isSome = true) (continues : message.continuePipeline = true) :
      Served driver settings s (.replay message) (s.send (envelope settings message))
  | checkCancel (row : s.row.isSome = true) :
      Served driver settings s .checkCancel { s with cancelling := s.cancelling + 1 }
  | cancel {now} (unlocked : s.unlocked = true) :
      Served driver settings s (.cancel now)
        { s.update (.markCancelled now) with cancelling := s.cancelling - 1 }
  | checkDelete : Served driver settings s .checkDelete { s with deleting := true }
  | delete : Served driver settings s .delete { s with contract := false, deleting := false }
  | selectStalled {job timeoutMinutes now} (row : s.row = some job)
      (stalled : job.isStalled timeoutMinutes now = true) :
      Served driver settings s (.selectStalled timeoutMinutes now) { s with sweeping := true }
  | failStalled {now} (selected : s.sweeping = true) :
      Served driver settings s (.failStalled now)
        { s.update (.reclaimStalled now) with sweeping := false }

/-- The steps of the workers. -/
inductive Worked (settings : QueueSettings) (s : State) : Action → State → Prop
  | deliver {e} (mem : e ∈ s.inflight) :
      Worked settings s (.deliver e)
        { s with
          inflight := s.inflight.erase e
          workers := s.workers ++ [{ envelope := e, phase := .received }] }
  | load {w e} (worker : s.workers[w]? = some ⟨e, .received⟩) :
      Worked settings s (.load w) (s.advance w e (Lifecycle.load s e.message))
  | skip {w e snapshot next now} (worker : s.workers[w]? = some ⟨e, .loaded snapshot⟩) :
      Worked settings s (.skip w next now)
        ((s.update (Verdict.write settings e.message now · (.skipped next))).advance w e
          (.settled (Verdict.outcome settings e.message (.skipped next))))
  | start {w e snapshot job workerId now} (worker : s.workers[w]? = some ⟨e, .loaded snapshot⟩)
      (row : s.row = some job) (unlocked : s.unlocked = true) :
      Worked settings s (.start w workerId now)
        (s.advance w e (.running
          ((ProcessingJob.flushStageStarted e.message.stage workerId now snapshot
            job).updateProgress (Workflow.progressFor e.message.stage false) now)))
  | finish {w e job verdict now} (worker : s.workers[w]? = some ⟨e, .running job⟩) :
      Worked settings s (.finish w verdict now)
        ((s.update fun _ => verdict.write settings e.message now job).advance w e
          (.settled (verdict.outcome settings e.message)))
  | rollBack {w e job retryable error} (worker : s.workers[w]? = some ⟨e, .running job⟩) :
      Worked settings s (.rollBack w retryable error) (s.advance w e (.failing retryable error))
  | recordFailure {w e retryable error now}
      (worker : s.workers[w]? = some ⟨e, .failing retryable error⟩) :
      Worked settings s (.recordFailure w now)
        ((s.update (Verdict.write settings e.message now · (.failed retryable error))).advance w e
          (.settled (Verdict.outcome settings e.message (.failed retryable error))))
  | redelivered {w a} (worker : s.workers[w]? = some a) (more : 1 < a.envelope.deliveries) :
      Worked settings s (.raise w)
        ((s.retire w).send ⟨a.envelope.message, a.envelope.deliveries - 1⟩)
  | exhausted {w a} (worker : s.workers[w]? = some a) (last : ¬ 1 < a.envelope.deliveries) :
      Worked settings s (.raise w) (s.retire w)
  | dispatch {w e outcome dispatchId next delayMs}
      (worker : s.workers[w]? = some ⟨e, .settled outcome⟩)
      (sent : Runner.dispatches e.message outcome dispatchId = some (next, delayMs)) :
      Worked settings s (.dispatch w dispatchId) ((s.retire w).send (envelope settings next))
  | returned {w e outcome dispatchId} (worker : s.workers[w]? = some ⟨e, .settled outcome⟩)
      (sent : Runner.dispatches e.message outcome dispatchId = none) :
      Worked settings s (.dispatch w dispatchId) (s.retire w)
  | refuse {w e outcome next delayMs now} (worker : s.workers[w]? = some ⟨e, .settled outcome⟩)
      (sent : Runner.dispatches e.message outcome "" = some (next, delayMs)) :
      Worked settings s (.refuse w now)
        ((s.update (.markFailed next.stage
          (Runner.queueErrorRecord next outcome.shouldRetry) now)).retire w)

/-- A worker goes on with a job that it found active; else its call is over, and nothing is
queued. -/
theorem load_cases (s : State) (message : StageMessage) :
    (∃ outcome, load s message = .settled outcome ∧
      (∀ dispatchId, Runner.dispatches message outcome dispatchId = none) ∧
      (s.contract = true → ∀ job ∈ s.row, Runner.isActive job = false)) ∨
    ∃ snapshot, s.row = some snapshot ∧ s.contract = true ∧ Runner.isActive snapshot = true ∧
      load s message = .loaded snapshot := by
  unfold load
  split
  next hrow => exact .inl ⟨_, rfl, fun _ => rfl, fun _ job hjob => by cases hrow.symm.trans hjob⟩
  next snapshot hrow =>
    split
    next hactive =>
      refine .inl ⟨_, rfl, fun _ => rfl, fun _ job hjob => ?_⟩
      cases hrow.symm.trans hjob
      simpa using hactive
    next hactive =>
      split
      next hcontract => exact .inr ⟨snapshot, hrow, hcontract, by simpa using hactive, rfl⟩
      next hcontract => exact .inl ⟨_, rfl, fun _ => rfl, fun hlive => absurd hlive hcontract⟩

variable {driver : Driver} {settings : QueueSettings} {s s' : State} {a : Action}

theorem stepOther_cases (h : stepOther driver settings s a = some s') :
    Served driver settings s a s' := by
  cases a with
  | create job message =>
    obtain ⟨⟨hrow, hdraft, -, hqueued, hcontinues⟩, h⟩ := Option.ite_none_right_eq_some.1 h
    cases h
    exact .create (Option.isNone_iff_eq_none.1 hrow) (Option.isNone_iff_eq_none.1 hdraft) hqueued
      hcontinues
  | enqueue =>
    simp only [stepOther] at h
    split at h
    next hdraft =>
      cases h
      exact .enqueue hdraft
    next => cases h
  | refuseFirst error now =>
    simp only [stepOther] at h
    split at h
    next hdraft =>
      cases h
      exact .refuseFirst hdraft
    next => cases h
  | commit =>
    simp only [stepOther] at h
    split at h
    next hdraft =>
      cases h
      exact .commit hdraft
    next => cases h
  | rollback =>
    obtain ⟨-, h⟩ := Option.ite_none_right_eq_some.1 h
    cases h
    exact .rollback
  | replay message =>
    obtain ⟨⟨hrow, hcontinues⟩, h⟩ := Option.ite_none_right_eq_some.1 h
    cases h
    exact .replay hrow hcontinues
  | checkCancel =>
    simp only [stepOther] at h
    split at h
    next hrow =>
      obtain ⟨-, h⟩ := Option.ite_none_left_eq_some.1 h
      cases h
      exact .checkCancel (Option.isSome_of_eq_some hrow)
    next => cases h
  | cancel now =>
    obtain ⟨⟨hunlocked, -⟩, h⟩ := Option.ite_none_right_eq_some.1 h
    cases h
    exact .cancel hunlocked
  | checkDelete =>
    obtain ⟨-, h⟩ := Option.ite_none_right_eq_some.1 h
    cases h
    exact .checkDelete
  | delete =>
    obtain ⟨-, h⟩ := Option.ite_none_right_eq_some.1 h
    cases h
    exact .delete
  | selectStalled timeoutMinutes now =>
    obtain ⟨hstalled, h⟩ := Option.ite_none_right_eq_some.1 h
    obtain ⟨job, hrow, hstalled⟩ := (Option.any_eq_true _ _).1 hstalled
    cases h
    exact .selectStalled hrow hstalled
  | failStalled now =>
    obtain ⟨⟨-, hselected⟩, h⟩ := Option.ite_none_right_eq_some.1 h
    cases h
    exact .failStalled hselected
  | _ => cases h

theorem stepWorker_cases (h : stepWorker settings s a = some s') : Worked settings s a s' := by
  cases a with
  | deliver e =>
    obtain ⟨hmem, h⟩ := Option.ite_none_right_eq_some.1 h
    cases h
    exact .deliver hmem
  | load w =>
    simp only [stepWorker] at h
    split at h
    next hworker =>
      cases h
      exact .load hworker
    next => cases h
  | skip w nextStage now =>
    simp only [stepWorker] at h
    split at h
    next hworker =>
      obtain ⟨-, h⟩ := Option.ite_none_right_eq_some.1 h
      cases h
      exact .skip hworker
    next => cases h
  | start w workerId now =>
    simp only [stepWorker] at h
    split at h
    next hworker hrow =>
      obtain ⟨hunlocked, h⟩ := Option.ite_none_right_eq_some.1 h
      cases h
      exact .start hworker hrow hunlocked
    next => cases h
  | finish w verdict now =>
    simp only [stepWorker] at h
    split at h
    next hworker =>
      cases h
      exact .finish hworker
    next => cases h
  | rollBack w retryable error =>
    simp only [stepWorker] at h
    split at h
    next hworker =>
      cases h
      exact .rollBack hworker
    next => cases h
  | recordFailure w now =>
    simp only [stepWorker] at h
    split at h
    next hworker =>
      obtain ⟨-, h⟩ := Option.ite_none_right_eq_some.1 h
      cases h
      exact .recordFailure hworker
    next => cases h
  | raise w =>
    simp only [stepWorker] at h
    split at h
    next hworker =>
      split at h
      next hmore =>
        cases h
        exact .redelivered hworker hmore
      next hlast =>
        cases h
        exact .exhausted hworker hlast
    next => cases h
  | dispatch w dispatchId =>
    simp only [stepWorker] at h
    split at h
    next hworker =>
      split at h
      next hnone =>
        cases h
        exact .returned hworker hnone
      next hsent =>
        cases h
        exact .dispatch hworker hsent
    next => cases h
  | refuse w now =>
    simp only [stepWorker] at h
    split at h
    next hworker =>
      split at h
      next => cases h
      next hsent =>
        obtain ⟨-, h⟩ := Option.ite_none_right_eq_some.1 h
        cases h
        exact .refuse hworker hsent
    next => cases h
  | _ => cases h

theorem step_cases (h : step driver settings s a = some s') :
    Served driver settings s a s' ∨ Worked settings s a s' := by
  rcases Option.or_eq_some_iff.1 h with h | ⟨-, h⟩
  · exact .inl (stepOther_cases h)
  · exact .inr (stepWorker_cases h)

/-! ## The runs of the examples -/

namespace Sample

def job : ProcessingJob := { id := 10, contractId := 1, projectId := 2 }

def message (stage : PipelineStage) : StageMessage :=
  { jobId := 10
    contractId := 1
    projectId := 2
    stage }

def deployment : QueueSettings := { maxAttempts := 5 }

def received : List Action :=
  [.create job (message .validation), .enqueue, .commit,
    .deliver (envelope deployment (message .validation))]

end Sample

end Lifecycle

end Clear
