import Mathlib.Data.List.Range
import Clear.Orchestrator.Proof.Pipeline

/-!
# The failure record

`_handle_failure` closes the run that failed. When that write raises, it rolls back and inserts a
fresh row, whose number is the retry counter of the message; `start_run` and `record_skipped` number
theirs from the history of the stage.

* `create_isOk_iff`: the table takes the fresh row exactly when no run of the stage has its number,
* `fallback_fits_iff`: as long as the fresh rows were in step with the history, that is when the
  counter is past the number of recorded runs,
* `refused_iff`: the runs in which every failure is recorded.
-/

namespace Clear

/-! ## Numbers of runs -/

namespace RunTable

variable {t t' : RunTable} {run : JobStageRun} {jobId : Uuid} {stage : PipelineStage}

def attempts (t : RunTable) (jobId : Uuid) (stage : PipelineStage) : List Nat :=
  (t.rows.filter fun r => r.jobId = jobId ∧ r.stage = stage).map (·.attempt)

def Numbered (t : RunTable) : Prop :=
  ∀ jobId stage, t.attempts jobId stage = List.range' 1 (t.attempts jobId stage).length

theorem mem_attempts {n : Nat} :
    n ∈ t.attempts jobId stage ↔ (jobId, stage, n) ∈ t.rows.map JobStageRun.attemptKey := by
  simp only [attempts, List.mem_map, List.mem_filter, decide_eq_true_eq, JobStageRun.attemptKey,
    Prod.mk.injEq]
  constructor
  · intro ⟨r, ⟨hr, hjob, hstage⟩, hn⟩
    exact ⟨r, hr, hjob, hstage, hn⟩
  · intro ⟨r, hr, hjob, hstage, hn⟩
    exact ⟨r, ⟨hr, hjob, hstage⟩, hn⟩

theorem create_isOk_iff (hid : run.id ∉ t.rows.map (·.id)) :
    (t.create run).isOk = true ↔ run.attempt ∉ t.attempts run.jobId run.stage := by
  rw [mem_attempts]
  unfold create
  split
  next hfresh => exact iff_of_true rfl hfresh.2
  next htaken => exact iff_of_false (by simp [Except.isOk, Except.toBool]) fun h => htaken ⟨hid, h⟩

theorem attempts_keys : t.attempts jobId stage =
    ((t.rows.map JobStageRun.attemptKey).filter fun k => k.1 = jobId ∧ k.2.1 = stage).map
      (·.2.2) := by
  rw [List.filter_map, List.map_map]
  rfl

theorem attempts_append (hrows : t'.rows.map JobStageRun.attemptKey =
    t.rows.map JobStageRun.attemptKey ++ [run.attemptKey]) :
    t'.attempts jobId stage = t.attempts jobId stage ++
      if run.jobId = jobId ∧ run.stage = stage then [run.attempt] else [] := by
  rw [attempts_keys, attempts_keys, hrows, List.filter_append, List.map_append]
  refine congrArg (_ ++ ·) ?_
  by_cases hrun : run.jobId = jobId ∧ run.stage = stage <;>
    simp [JobStageRun.attemptKey, hrun]

theorem foldl_max_range' (n : Nat) : (List.range' 1 n).foldl max 0 = n := by
  induction n with
  | zero => rfl
  | succ n ih =>
    rw [List.range'_concat, List.foldl_append, ih]
    simp only [List.foldl_cons, List.foldl_nil]
    omega

theorem Numbered.nextAttempt (h : t.Numbered) (jobId : Uuid) (stage : PipelineStage) :
    t.nextAttempt jobId stage = (t.attempts jobId stage).length + 1 := by
  unfold RunTable.nextAttempt
  show (t.attempts jobId stage).foldl max 0 + 1 = _
  rw [h jobId stage, foldl_max_range', List.length_range']

theorem Numbered.append (h : t.Numbered)
    (hrows : t'.rows.map JobStageRun.attemptKey =
      t.rows.map JobStageRun.attemptKey ++ [run.attemptKey])
    (hrun : run.attempt = t.nextAttempt run.jobId run.stage) : t'.Numbered := by
  intro jobId stage
  rw [attempts_append hrows]
  by_cases hof : run.jobId = jobId ∧ run.stage = stage
  · obtain ⟨rfl, rfl⟩ := hof
    rw [if_pos ⟨rfl, rfl⟩, hrun, h.nextAttempt, List.length_append, List.length_singleton,
      List.range'_concat, ← h]
    simp [Nat.add_comm]
  · rw [if_neg hof, List.append_nil]
    exact h jobId stage

theorem Numbered.congr (h : t.Numbered)
    (hrows : t'.rows.map JobStageRun.attemptKey = t.rows.map JobStageRun.attemptKey) :
    t'.Numbered := by
  intro jobId stage
  have heq : t'.attempts jobId stage = t.attempts jobId stage := by
    rw [attempts_keys, attempts_keys, hrows]
  rw [heq]
  exact h jobId stage

theorem Numbered.mem_attempts (h : t.Numbered) {n : Nat} :
    n ∈ t.attempts jobId stage ↔ 0 < n ∧ n ≤ (t.attempts jobId stage).length := by
  rw [h jobId stage, List.mem_range'_1, List.length_range']
  omega

end RunTable

/-! ## The fresh row -/

namespace Runner

variable {Payload : Type} {call : StageCall Payload} {db db' before started : Db}
  {message : StageMessage} {outcome : StageOutcome} {job : ProcessingJob} {contract : Contract}
  {run row : JobStageRun} {raised : Raised} {retryable : Bool}

def failureRow (call : StageCall Payload) (message : StageMessage) (job : ProcessingJob)
    (run : JobStageRun) (error : ErrorRecord) : JobStageRun where
  id := run.id
  jobId := job.id
  contractId := message.contractId
  projectId := message.projectId
  stage := message.stage
  status := .failed
  attempt := message.attempt
  workerId := some call.workerId
  error := some error
  startedAt := run.startedAt
  finishedAt := some call.finishedAt

/-- The fresh row that a delivery inserts, if it comes to that. -/
def fallbackRow (call : StageCall Payload) (db : Db) (message : StageMessage) :
    Option JobStageRun := do
  let job ← db.jobs message.jobId
  let contract ← db.contracts message.contractId
  let (planned, plan) ← (resolvePlan call db job contract (loadProfile db job)).toOption
  let handler ← (getStageHandler call.loadErrors message.stage).toOption
  let (_, run) ←
    (startStage call planned message job contract (loadProfile db job)).toOption
  match isActive job, reusedCheckpoint call planned plan contract message.stage, call.outcome,
    call.failureRecord with
  | true, none, .error raised, .rewritten text =>
    some (failureRow call message job run (ErrorRecord.noteRecordError text
      (failureRecord message (isRetryable handler raised) raised)))
  | _, _, _, _ => none

structure FallsBack (call : StageCall Payload) (db : Db) (message : StageMessage)
    (row : JobStageRun) (job : ProcessingJob) (contract : Contract) (planned : Db)
    (plan : ExecutionPlan) (handler : StageHandler) (started : Db) (run : JobStageRun)
    (raised : Raised) (text : String) : Prop where
  loaded : Loaded call db message job contract planned plan
  reused : reusedCheckpoint call planned plan contract message.stage = none
  handled : getStageHandler call.loadErrors message.stage = .ok handler
  opened : startStage call planned message job contract (loadProfile db job) = .ok (started, run)
  outcome : call.outcome = .error raised
  rewritten : call.failureRecord = .rewritten text
  row_eq : row = failureRow call message job run (ErrorRecord.noteRecordError text
    (failureRecord message (isRetryable handler raised) raised))

theorem fallbackRow_eq_some : fallbackRow call db message = some row ↔
    ∃ job contract planned plan handler started run raised text,
      FallsBack call db message row job contract planned plan handler started run raised text := by
  constructor
  · intro h
    unfold fallbackRow at h
    obtain ⟨job, hjob, h⟩ := Option.bind_eq_some_iff.1 h
    obtain ⟨contract, hcontract, h⟩ := Option.bind_eq_some_iff.1 h
    obtain ⟨⟨planned, plan⟩, hplan, h⟩ := Option.bind_eq_some_iff.1 h
    obtain ⟨handler, hhandler, h⟩ := Option.bind_eq_some_iff.1 h
    obtain ⟨⟨started, run⟩, hstart, h⟩ := Option.bind_eq_some_iff.1 h
    dsimp only at h
    split at h
    next raised text hactive hreused hout hrec =>
      cases h
      exact ⟨job, contract, planned, plan, handler, started, run, raised, text,
        ⟨hjob, hactive, hcontract, Except.toOption_eq_some.1 hplan⟩, hreused,
        Except.toOption_eq_some.1 hhandler, Except.toOption_eq_some.1 hstart, hout, hrec, rfl⟩
    next => cases h
  · intro ⟨job, contract, planned, plan, handler, started, run, raised, text, h⟩
    unfold fallbackRow
    simp only [h.loaded.jobRow, h.loaded.contractRow, h.loaded.resolved, h.handled, h.opened,
      Except.toOption, Option.bind_eq_bind, Option.bind_some, h.loaded.active, h.reused, h.outcome,
      h.rewritten, h.row_eq]

theorem Loaded.execute_eq {planned : Db} {plan : ExecutionPlan}
    (h : Loaded call db message job contract planned plan)
    (hreused : reusedCheckpoint call planned plan contract message.stage = none) :
    execute call db message =
      runHandler call db planned message job contract (loadProfile db job) plan := by
  unfold execute
  simp only [h.jobRow, h.active, h.contractRow, h.resolved, Bool.not_true, Bool.false_eq_true,
    if_false, bind, Except.bind, hreused]

theorem handleFailure_rewritten {text : String} (h : call.failureRecord = .rewritten text) :
    (handleFailure call before db message job contract run raised retryable).1.runs =
      ((before.runs.create (failureRow call message job run (ErrorRecord.noteRecordError text
        (failureRecord message retryable raised)))).toOption).getD before.runs := by
  have hrecorded : (recordFailure call before db message job run
      (failureRecord message retryable raised)).1.runs =
        ((before.runs.create (failureRow call message job run (ErrorRecord.noteRecordError text
          (failureRecord message retryable raised)))).toOption).getD before.runs := by
    unfold recordFailure
    rw [h]
    dsimp only
    split
    next runs hcreate =>
      rw [show before.runs.create (failureRow call message job run _) = .ok runs from hcreate]
      rfl
    next e hcreate =>
      rw [show before.runs.create (failureRow call message job run _) = .error e from hcreate]
      rfl
  unfold handleFailure
  dsimp only
  split <;> exact hrecorded

theorem execute_fallback (h : fallbackRow call db message = some row) :
    ∃ db' outcome, execute call db message = .ok (db', outcome) ∧
      row.id ∉ db.runs.rows.map (·.id) ∧ row.stage = message.stage ∧
      row.attempt = message.attempt ∧
      db'.runs = ((db.runs.create row).toOption).getD db.runs := by
  obtain ⟨job, contract, planned, plan, handler, started, run, raised, text, h⟩ :=
    fallbackRow_eq_some.1 h
  have hexec : execute call db message = .ok (handleFailure call db started message job contract
      run raised (isRetryable handler raised)) := by
    rw [h.loaded.execute_eq h.reused]
    unfold runHandler
    simp only [h.handled, h.opened, h.outcome, bind, Except.bind, pure, Except.pure]
  have hcreated := (startStage_runs h.opened).1
  rw [resolvePlan_runs h.loaded.resolved] at hcreated
  refine ⟨_, _, hexec, ?_, ?_, ?_, ?_⟩
  · rw [h.row_eq]
    exact (RunTable.create_ok hcreated).2
  · rw [h.row_eq]
    rfl
  · rw [h.row_eq]
    rfl
  · rw [h.row_eq]
    exact handleFailure_rewritten h.rewritten

theorem startStage_attempt {planned : Db} {profile : Option DocumentProfile}
    (h : startStage call planned message job contract profile = .ok (started, run)) :
    run.attempt = planned.runs.nextAttempt run.jobId run.stage := by
  unfold startStage at h
  obtain ⟨⟨runs, opened⟩, hstart, h⟩ := Except.bind_eq_ok.1 h
  cases h
  unfold RunTable.startRun at hstart
  obtain ⟨t, -, heq⟩ := Except.map_eq_ok.1 hstart
  cases heq
  rfl

theorem create_keys {t t' : RunTable} (h : t.create run = .ok t') :
    t'.rows.map JobStageRun.attemptKey =
      t.rows.map JobStageRun.attemptKey ++ [run.attemptKey] := by
  rw [(RunTable.create_ok h).1, List.map_append, List.map_singleton]

theorem finishRun_keys {t t' : RunTable} {status : StageStatus} {ref : Option String}
    {stats : JsonDict} {error : Option ErrorRecord} {now : Timestamp} (h : t.create run = .ok t') :
    (t'.finishRun run.id status ref stats error now).rows.map JobStageRun.attemptKey =
      t.rows.map JobStageRun.attemptKey ++ [run.attemptKey] := by
  rw [RunTable.finishRun_rows h, List.map_append]
  rfl

def NextOnly (t t' : RunTable) : Prop :=
  t'.rows.map JobStageRun.attemptKey = t.rows.map JobStageRun.attemptKey ∨
    ∃ run : JobStageRun, run.attempt = t.nextAttempt run.jobId run.stage ∧
      t'.rows.map JobStageRun.attemptKey = t.rows.map JobStageRun.attemptKey ++ [run.attemptKey]

theorem NextOnly.numbered {t t' : RunTable} (h : NextOnly t t') (ht : t.Numbered) :
    t'.Numbered := by
  rcases h with hsame | ⟨run, hrun, hrows⟩
  · exact ht.congr hsame
  · exact ht.append hrows hrun

theorem Returned.nextOnly {planned persisted : Db} {profile : Option DocumentProfile}
    {result : StageResult Payload}
    (h : Returned call message job contract profile planned result started run persisted) :
    NextOnly planned.runs persisted.runs := by
  obtain ⟨ref, hstored⟩ := h.stored
  refine .inr ⟨run, startStage_attempt h.opened, ?_⟩
  rw [persistResult_runs hstored, Db.updateContract_runs]
  exact finishRun_keys (startStage_runs h.opened).1

theorem handleFailure_nextOnly (hcreated : before.runs.create run = .ok db.runs)
    (hnumber : run.attempt = before.runs.nextAttempt run.jobId run.stage)
    (hrecord : ∀ text, call.failureRecord ≠ .rewritten text) :
    NextOnly before.runs
      (handleFailure call before db message job contract run raised retryable).1.runs := by
  have hrecorded : NextOnly before.runs (recordFailure call before db message job run
      (failureRecord message retryable raised)).1.runs := by
    unfold recordFailure
    cases hr : call.failureRecord with
    | finished => exact .inr ⟨run, hnumber, finishRun_keys hcreated⟩
    | rewritten text => exact absurd hr (hrecord text)
    | lost text => exact .inl rfl
  unfold handleFailure
  dsimp only
  split <;> exact hrecorded

theorem execute_nextOnly (hnone : fallbackRow call db message = none)
    (h : execute call db message = .ok (db', outcome)) : NextOnly db.runs db'.runs := by
  cases execute_cases h with
  | idle => exact .inl rfl
  | skipped loaded _ recorded =>
    rw [finaliseIfLast_runs, ← resolvePlan_runs loaded.resolved]
    exact .inr ⟨_, rfl, create_keys recorded⟩
  | @failed job contract planned plan _ _ _ _ _ _ loaded reused start raised_eq _ =>
    rw [loaded.execute_eq reused] at h
    unfold runHandler at h
    obtain ⟨handler, hhandler, h⟩ := Except.bind_eq_ok.1 h
    rw [start] at h
    simp only [bind, Except.bind, raised_eq, pure, Except.pure] at h
    have hruns := resolvePlan_runs loaded.resolved
    have hcreated := (startStage_runs start).1
    have hnumber := startStage_attempt start
    rw [hruns] at hcreated hnumber
    rw [← congrArg (fun o => o.1.runs) (Except.ok.inj h)]
    refine handleFailure_nextOnly hcreated hnumber fun text hrewritten => ?_
    have hrow := fallbackRow_eq_some.2 ⟨job, contract, planned, plan, handler, _, _, _, text,
      loaded, reused, hhandler, start, raised_eq, hrewritten, rfl⟩
    rw [hnone] at hrow
    cases hrow
  | halted loaded _ returned =>
    have hnext := returned.nextOnly
    rw [resolvePlan_runs loaded.resolved] at hnext
    exact hnext
  | advanced loaded _ returned _ replan =>
    rw [finaliseIfLast_runs, replan_runs replan, ← resolvePlan_runs loaded.resolved]
    exact returned.nextOnly

end Runner

/-! ## Histories of failures -/

/-- The database, and the fresh rows that the table refused. -/
structure FailureLog where
  db : Db := {}
  refused : List JobStageRun := []

namespace FailureLog

open Runner

variable {Payload : Type}

/-- A stage message is delivered, or another session writes to the other tables: it submits, retries
or cancels jobs, edits contracts and profiles, stores artifacts. -/
inductive Action (Payload : Type) where
  | deliver (call : StageCall Payload) (message : StageMessage)
  | write (f : Db → Db)

def refusal (call : StageCall Payload) (db : Db) (message : StageMessage) : List JobStageRun :=
  ((fallbackRow call db message).filter fun row => !(db.runs.create row).isOk).toList

/-- A delivery whose exception leaves `run_stage` is rolled back. -/
def step (s : FailureLog) : Action Payload → Option FailureLog
  | .deliver call message =>
    match execute call s.db message with
    | .error _ => some s
    | .ok (db, _) => some { db, refused := s.refused ++ refusal call s.db message }
  | .write f => some { s with db := { f s.db with runs := s.db.runs } }

def machine (Payload : Type) : Machine FailureLog (Action Payload) where
  init s := s.db.runs = .empty ∧ s.refused = []
  step := step

def Fits (s : FailureLog) : Action Payload → Prop
  | .deliver call message => ∀ row, fallbackRow call s.db message = some row →
    message.attempt ∉ s.db.runs.attempts row.jobId message.stage
  | .write _ => True

def InStep (s : FailureLog) : Action Payload → Prop
  | .deliver call message => ∀ row, fallbackRow call s.db message = some row →
    message.attempt = s.db.runs.nextAttempt row.jobId message.stage
  | .write _ => True

variable {call : StageCall Payload} {message : StageMessage} {s s' : FailureLog}

theorem refusal_eq_nil_iff :
    refusal call s.db message = [] ↔ Fits s (.deliver call message) := by
  unfold refusal Fits
  cases hrow : fallbackRow call s.db message with
  | none =>
    refine iff_of_true rfl fun row h => ?_
    rw [hrow] at h
    cases h
  | some row =>
    obtain ⟨db', outcome, -, hid, hstage, hattempt, -⟩ := execute_fallback hrow
    have hok := RunTable.create_isOk_iff hid
    rw [hstage, hattempt] at hok
    simp only [hrow, Option.some.injEq, forall_eq', ← hok]
    cases hcase : (s.db.runs.create row).isOk <;> simp [hcase]

theorem step_refused {a : Action Payload} (h : (machine Payload).step s a = some s')
    (hs : s.refused = []) : s'.refused = [] ↔ Fits s a := by
  cases a with
  | deliver call message =>
    simp only [machine, step] at h
    cases hexec : execute call s.db message with
    | error e =>
      rw [hexec] at h
      cases h
      refine iff_of_true hs fun row hrow => ?_
      obtain ⟨db', outcome, hok, -⟩ := execute_fallback hrow
      rw [hexec] at hok
      cases hok
    | ok executed =>
      rw [hexec] at h
      cases h
      rw [hs, List.nil_append, refusal_eq_nil_iff]
  | write f =>
    cases h
    exact iff_of_true hs trivial

/-- A stage fails and the failure is recorded on its run; the message is delivered again, the stage
fails again and the session is lost. -/
def Sample.redelivered : List (Action Unit) :=
  let message := Pipeline.Sample.message 10 [] .validation
  [.write fun db =>
      { db with
        jobs := Function.update db.jobs 10 (some { id := 10, contractId := 1, projectId := 2 })
        contracts := Function.update db.contracts 1 (some { id := 1, projectId := 2 }) },
    .deliver (Pipeline.Sample.call 100 10 (.error (.other "TimeoutError"))) message,
    .deliver
      { Pipeline.Sample.call 101 20 (.error (.other "OperationalError")) with
        failureRecord := .rewritten "PendingRollbackError" } message]

theorem numbered_step {a : Action Payload} (hs : s.db.runs.Numbered) (hstep : InStep s a)
    (h : (machine Payload).step s a = some s') : s'.db.runs.Numbered := by
  cases a with
  | write f =>
    cases h
    exact hs
  | deliver call message =>
    simp only [machine, step] at h
    cases hexec : execute call s.db message with
    | error e =>
      rw [hexec] at h
      cases h
      exact hs
    | ok executed =>
      rw [hexec] at h
      cases h
      cases hrow : fallbackRow call s.db message with
      | none => exact (execute_nextOnly hrow hexec).numbered hs
      | some row =>
        obtain ⟨db', outcome, hok, -, hstage, hattempt, hruns⟩ := execute_fallback hrow
        rw [hexec] at hok
        cases hok
        rw [hruns]
        cases hcreate : s.db.runs.create row with
        | error e => exact hs
        | ok runs =>
          refine hs.append (create_keys hcreate) ?_
          rw [hattempt, hstage]
          exact hstep row hrow

/-- As long as every fresh row was in step with the history, the next one is taken exactly when its
number is past the recorded runs of the stage. -/
theorem fallback_fits_iff (hs : (machine Payload).ReachIf InStep s) {row : JobStageRun}
    (hrow : fallbackRow call s.db message = some row) :
    (s.db.runs.create row).isOk = true ↔ message.attempt = 0 ∨
      (s.db.runs.attempts row.jobId message.stage).length < message.attempt := by
  have hnumbered : s.db.runs.Numbered := by
    have hinv : (machine Payload).Invariant InStep fun s => s.db.runs.Numbered :=
      ⟨fun s hs _ _ => by rw [hs.1]; rfl, fun _ _ _ hs hG h => numbered_step hs hG h⟩
    exact hinv.reach hs
  obtain ⟨db', outcome, -, hid, hstage, hattempt, -⟩ := execute_fallback hrow
  rw [RunTable.create_isOk_iff hid, hstage, hattempt, hnumbered.mem_attempts]
  omega

def Sample.first : StageMessage := Pipeline.Sample.message 10 [] .validation

def Sample.lost : StageCall Unit :=
  { Pipeline.Sample.call 101 20 (.error (.other "OperationalError")) with
    failureRecord := .rewritten "PendingRollbackError" }

/-- The first run of a job fails, and the session is lost. -/
theorem first_fallback_fits : ∃ s row, (machine Unit).ReachIf InStep s ∧
    fallbackRow Sample.lost s.db Sample.first = some row ∧
    ((s.db.runs.create row).isOk = true ↔ Sample.first.attempt = 0 ∨
      (s.db.runs.attempts row.jobId Sample.first.stage).length < Sample.first.attempt) := by
  let db : Db :=
    { jobs := fun _ => some { id := 10, contractId := 1, projectId := 2 }
      contracts := fun _ => some { id := 1, projectId := 2 } }
  have hs : (machine Unit).ReachIf InStep { db } :=
    ⟨{}, ⟨rfl, rfl⟩, .single (a := .write fun _ => db) trivial rfl⟩
  obtain ⟨row, hrow⟩ : ∃ row, fallbackRow Sample.lost db Sample.first = some row := ⟨_, rfl⟩
  exact ⟨_, row, hs, hrow, fallback_fits_iff hs hrow⟩

end FailureLog

end Clear
