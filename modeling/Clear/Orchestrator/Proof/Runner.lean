import Clear.Lib.Except
import Clear.Orchestrator.Runner

/-!
# What one run of a stage does

`execute_cases` lists the ways a call of `run_stage` can commit (`Executed`): nothing to do, a
checkpoint reused, a failure recorded, a deliberate stop, or a stage that succeeded and advances.
Every later fact about the runner is read off these cases:

* `Executed.frame`: which rows are left alone,
* `Executed.successes`: which successful runs are added.
-/

namespace Clear

/-! ## Runs -/

namespace RunTable

variable {t t' : RunTable} {run : JobStageRun} {contractId : Uuid} {stage : PipelineStage}

theorem create_ok (h : t.create run = .ok t') :
    t'.rows = t.rows ++ [run] ∧ run.id ∉ t.rows.map (·.id) := by
  unfold create at h
  split at h
  next hfresh =>
    cases h
    exact ⟨rfl, hfresh.1⟩
  next => cases h

theorem successes_append_ne (hrows : t'.rows = t.rows ++ [run]) (h : run.status ≠ .succeeded) :
    t'.successes contractId stage = t.successes contractId stage := by
  simp [successes, hrows, JobStageRun.isCheckpoint, h]

theorem successes_create (h : t.create run = .ok t') (hrun : run.status ≠ .succeeded) :
    t'.successes contractId stage = t.successes contractId stage :=
  successes_append_ne (create_ok h).1 hrun

theorem startRun_ok {id jobId projectId : Uuid} {attempt : Option Nat} {workerId : Option String}
    {versions : ComponentVersions} {now : Timestamp}
    (h : t.startRun id jobId contractId projectId stage attempt workerId versions now =
      .ok (t', run)) :
    t.create run = .ok t' ∧ run.contractId = contractId ∧ run.stage = stage := by
  unfold startRun at h
  obtain ⟨t₁, hcreate, heq⟩ := Except.map_eq_ok.1 h
  cases heq
  exact ⟨hcreate, rfl, rfl⟩

theorem finishRun_rows {status : StageStatus} {artifactRef : Option String} {stats : JsonDict}
    {error : Option ErrorRecord} {now : Timestamp} (h : t.create run = .ok t') :
    (t'.finishRun run.id status artifactRef stats error now).rows =
      t.rows ++ [JobStageRun.finish status artifactRef stats error now run] := by
  obtain ⟨hrows, hfresh⟩ := create_ok h
  have hold : t.rows.map (fun r => if r.id = run.id then
      JobStageRun.finish status artifactRef stats error now r else r) = t.rows.map id := by
    refine List.map_congr_left fun r hr => if_neg fun hid => hfresh ?_
    rw [← hid]
    exact List.mem_map_of_mem hr
  show t'.rows.map _ = _
  rw [hrows, List.map_append, hold, List.map_id]
  simp

theorem successes_finishRun {artifactRef : Option String} {stats : JsonDict}
    {error : Option ErrorRecord} {now : Timestamp} (h : t.create run = .ok t') :
    (t'.finishRun run.id .succeeded artifactRef stats error now).successes contractId stage =
      t.successes contractId stage ++
        if run.contractId = contractId ∧ run.stage = stage then
          [JobStageRun.finish .succeeded artifactRef stats error now run] else [] := by
  rw [successes, finishRun_rows h, List.filter_append]
  refine congrArg (t.successes contractId stage ++ ·) ?_
  by_cases hrun : run.contractId = contractId ∧ run.stage = stage <;>
    simp [JobStageRun.isCheckpoint, JobStageRun.finish, hrun]

end RunTable

/-! ## Cases -/

namespace Runner

variable {Payload : Type}

structure Loaded (call : StageCall Payload) (db : Db) (message : StageMessage)
    (job : ProcessingJob) (contract : Contract) (planned : Db) (plan : ExecutionPlan) : Prop where
  jobRow : db.jobs message.jobId = some job
  active : isActive job = true
  contractRow : db.contracts message.contractId = some contract
  resolved : resolvePlan call db job contract (loadProfile db job) = .ok (planned, plan)

structure Returned (call : StageCall Payload) (message : StageMessage) (job : ProcessingJob)
    (contract : Contract) (profile : Option DocumentProfile) (planned : Db)
    (result : StageResult Payload) (started : Db) (run : JobStageRun) (persisted : Db) :
    Prop where
  handler : ∃ handler, getStageHandler call.loadErrors message.stage = .ok handler
  opened : startStage call planned message job contract profile = .ok (started, run)
  outcome : call.outcome = .ok result
  stored : ∃ ref, persistResult call
    (started.updateContract contract.id fun c =>
      { c with needsReview := c.needsReview || call.flagged })
    message job contract run result = .ok (persisted, ref)

inductive Executed (call : StageCall Payload) (db : Db) (message : StageMessage) :
    Db → StageOutcome → Prop
  | idle {outcome : StageOutcome}
      (stopped : ∀ job contract, db.jobs message.jobId = some job → isActive job = true →
        db.contracts message.contractId ≠ some contract)
      (status : outcome.status ≠ .succeeded ∧ outcome.status ≠ .skipped)
      (next : outcome.nextStage = none) (retry : outcome.shouldRetry = false) :
      Executed call db message db outcome
  | skipped {job contract planned plan checkpoint runs outcome}
      (loaded : Loaded call db message job contract planned plan)
      (reused : reusedCheckpoint call planned plan contract message.stage = some checkpoint)
      (recorded : planned.runs.recordSkipped call.runId job.id contract.id contract.projectId
        message.stage checkpoint call.finishedAt = .ok runs)
      (status : outcome.status = .skipped)
      (next : outcome.nextStage = Workflow.nextAfter plan message.stage)
      (retry : outcome.shouldRetry = false) :
      Executed call db message
        (finaliseIfLast call { planned with runs } job contract
          (Workflow.nextAfter plan message.stage)) outcome
  | failed {job contract planned plan started run raised retryable db' outcome}
      (loaded : Loaded call db message job contract planned plan)
      (reused : reusedCheckpoint call planned plan contract message.stage = none)
      (start : startStage call planned message job contract (loadProfile db job) =
        .ok (started, run))
      (raised_eq : call.outcome = .error raised)
      (handled : handleFailure call db started message job contract run raised retryable =
        (db', outcome)) :
      Executed call db message db' outcome
  | halted {job contract planned plan result started run persisted outcome}
      (loaded : Loaded call db message job contract planned plan)
      (reused : reusedCheckpoint call planned plan contract message.stage = none)
      (returned : Returned call message job contract (loadProfile db job) planned result started run
        persisted)
      (halt : result.halt = true)
      (status : outcome.status = .succeeded) (next : outcome.nextStage = none)
      (retry : outcome.shouldRetry = false) :
      Executed call db message
        ((persisted.updateJob job.id (.markFailed message.stage
          (haltRecord message result.haltReason) call.finishedAt)).updateContract contract.id
            (.markProcessed .failed call.finishedAt)) outcome
  | advanced {job contract planned plan result started run persisted replanned plan' outcome}
      (loaded : Loaded call db message job contract planned plan)
      (reused : reusedCheckpoint call planned plan contract message.stage = none)
      (returned : Returned call message job contract (loadProfile db job) planned result started run
        persisted)
      (halt : result.halt = false)
      (replan : replan call persisted message job contract plan result = .ok (replanned, plan'))
      (status : outcome.status = .succeeded)
      (next : outcome.nextStage = Workflow.nextAfter plan' message.stage)
      (retry : outcome.shouldRetry = false) :
      Executed call db message
        (finaliseIfLast call replanned job contract (Workflow.nextAfter plan' message.stage)) outcome

variable {call : StageCall Payload} {db db' : Db} {message : StageMessage}
  {outcome : StageOutcome}

theorem runHandler_cases {job : ProcessingJob} {contract : Contract} {planned : Db}
    {plan : ExecutionPlan} (loaded : Loaded call db message job contract planned plan)
    (reused : reusedCheckpoint call planned plan contract message.stage = none)
    (h : runHandler call db planned message job contract (loadProfile db job) plan =
      .ok (db', outcome)) : Executed call db message db' outcome := by
  unfold runHandler at h
  obtain ⟨handler, hhandler, h⟩ := Except.bind_eq_ok.1 h
  obtain ⟨⟨started, run⟩, hstart, h⟩ := Except.bind_eq_ok.1 h
  dsimp only at h
  cases hout : call.outcome with
  | error raised =>
    rw [hout] at h
    exact .failed loaded reused hstart hout (Except.pure_eq_ok.1 h)
  | ok result =>
    rw [hout] at h
    unfold succeed at h
    obtain ⟨⟨persisted, ref⟩, hpersist, h⟩ := Except.bind_eq_ok.1 h
    have returned : Returned call message job contract (loadProfile db job) planned result started
        run persisted := ⟨⟨handler, hhandler⟩, hstart, hout, ref, hpersist⟩
    dsimp only at h
    split at h
    next halt =>
      cases h
      exact .halted loaded reused returned halt rfl rfl rfl
    next halt =>
      obtain ⟨⟨replanned, plan'⟩, hreplan, h⟩ := Except.bind_eq_ok.1 h
      cases h
      exact .advanced loaded reused returned (by simpa using halt) hreplan rfl rfl rfl

theorem execute_cases (h : execute call db message = .ok (db', outcome)) :
    Executed call db message db' outcome := by
  unfold execute at h
  split at h
  next hmissing =>
    cases h
    refine .idle (fun job _ hjob => ?_) (by simp [jobMissing]) rfl rfl
    rw [hmissing] at hjob
    cases hjob
  next job hjob =>
    split at h
    next hstopped =>
      cases h
      refine .idle (fun j _ hj hactive => ?_) (by simp [notActive]) rfl rfl
      rw [hjob] at hj
      cases hj
      simp [hactive] at hstopped
    next hactive =>
      split at h
      next hmissing =>
        cases h
        refine .idle (fun _ _ _ _ hcontract => ?_) (by simp [contractMissing]) rfl rfl
        rw [hmissing] at hcontract
        cases hcontract
      next contract hcontract =>
        obtain ⟨⟨planned, plan⟩, hplan, h⟩ := Except.bind_eq_ok.1 h
        have loaded : Loaded call db message job contract planned plan :=
          ⟨hjob, by simpa using hactive, hcontract, hplan⟩
        dsimp only at h
        split at h
        next checkpoint hreuse =>
          unfold skipStage at h
          obtain ⟨runs, hruns, h⟩ := Except.bind_eq_ok.1 h
          cases h
          exact .skipped loaded hreuse hruns rfl rfl rfl
        next hreuse => exact runHandler_cases loaded hreuse h

theorem handleFailure_outcome {before : Db} {job : ProcessingJob} {contract : Contract}
    {run : JobStageRun} {raised : Raised} {retryable : Bool}
    (h : handleFailure call before db message job contract run raised retryable =
      (db', outcome)) :
    ∃ error, outcome = failureOutcome call.settings message job.id retryable error :=
  ⟨_, (congrArg Prod.snd h).symm⟩

/-! ## Rows left alone -/

structure Frame (db db' : Db) (jobId : Uuid) : Prop where
  jobs : ∀ id, id ≠ jobId → db'.jobs id = db.jobs id
  job : (db'.jobs jobId).map (fun j => (j.id, j.contractId)) =
    (db.jobs jobId).map fun j => (j.id, j.contractId)
  contracts : ∀ id, (db'.contracts id).map (·.id) = (db.contracts id).map (·.id)
  profiles : db'.profiles = db.profiles

namespace Frame

variable {db₁ db₂ db₃ : Db} {jobId : Uuid}

theorem refl (db : Db) (jobId : Uuid) : Frame db db jobId :=
  ⟨fun _ _ => rfl, rfl, fun _ => rfl, rfl⟩

theorem updateJob {f : ProcessingJob → ProcessingJob}
    (hf : ∀ j, (f j).id = j.id ∧ (f j).contractId = j.contractId) (h : Frame db₁ db₂ jobId) :
    Frame db₁ (db₂.updateJob jobId f) jobId where
  jobs id hid := (Db.updateJob_of_ne hid).trans (h.jobs id hid)
  job := by
    rw [Db.updateJob_self, Option.map_map, ← h.job]
    exact congrArg (Option.map · _) (funext fun j => Prod.ext (hf j).1 (hf j).2)
  contracts := h.contracts
  profiles := h.profiles

theorem updateContract {contractId : Uuid} {g : Contract → Contract} (hg : ∀ c, (g c).id = c.id)
    (h : Frame db₁ db₂ jobId) : Frame db₁ (db₂.updateContract contractId g) jobId where
  jobs := h.jobs
  job := h.job
  contracts id := by
    rw [← h.contracts id]
    by_cases hid : id = contractId
    · subst hid
      simp [Db.updateContract, Function.comp_def, hg]
    · simp [Db.updateContract, hid]
  profiles := h.profiles

theorem tables {runs : RunTable} {archive : Archive} (h : Frame db₁ db₂ jobId) :
    Frame db₁ { db₂ with runs, archive } jobId :=
  ⟨h.jobs, h.job, h.contracts, h.profiles⟩

theorem job_of (h : Frame db₁ db₂ jobId) {id : Uuid} {j : ProcessingJob}
    (hj : db₂.jobs id = some j) :
    ∃ j', db₁.jobs id = some j' ∧ j.id = j'.id ∧ j.contractId = j'.contractId := by
  by_cases hid : id = jobId
  · subst hid
    have hjob := h.job
    rw [hj, Option.map_some] at hjob
    obtain ⟨j', hj', heq⟩ := Option.map_eq_some_iff.1 hjob.symm
    exact ⟨j', hj', (Prod.mk.inj heq).1.symm, (Prod.mk.inj heq).2.symm⟩
  · exact ⟨j, (h.jobs id hid).symm.trans hj, rfl, rfl⟩

theorem symm (h : Frame db₁ db₂ jobId) : Frame db₂ db₁ jobId where
  jobs id hid := (h.jobs id hid).symm
  job := h.job.symm
  contracts id := (h.contracts id).symm
  profiles := h.profiles.symm

theorem contract_of (h : Frame db₁ db₂ jobId) {id : Uuid} {c : Contract}
    (hc : db₂.contracts id = some c) : ∃ c', db₁.contracts id = some c' ∧ c.id = c'.id := by
  have hcontract := h.contracts id
  rw [hc, Option.map_some] at hcontract
  obtain ⟨c', hc', heq⟩ := Option.map_eq_some_iff.1 hcontract.symm
  exact ⟨c', hc', heq.symm⟩

end Frame

section
variable {job : ProcessingJob} {contract : Contract} {plan plan' : ExecutionPlan}
  {before planned : Db} {profile : Option DocumentProfile} {run : JobStageRun}
  {result : StageResult Payload} {jobId : Uuid}

theorem resolvePlan_frame (h : resolvePlan call db job contract profile = .ok (planned, plan)) :
    Frame db planned job.id := by
  unfold resolvePlan at h
  split at h
  · obtain ⟨p, -, h⟩ := Except.bind_eq_ok.1 h
    cases h
    exact .updateJob (fun _ => ⟨rfl, rfl⟩) (.refl _ _)
  · cases h
    exact .refl _ _

theorem finaliseIfLast_frame {next : Option PipelineStage} (hbefore : Frame before db job.id) :
    Frame before (finaliseIfLast call db job contract next) job.id := by
  cases next with
  | some stage => exact hbefore
  | none => exact .updateContract (fun _ => rfl) (.updateJob (fun _ => ⟨rfl, rfl⟩) hbefore)

theorem startStage_frame (hbefore : Frame before db job.id)
    (h : startStage call db message job contract profile = .ok (db', run)) :
    Frame before db' job.id := by
  unfold startStage at h
  obtain ⟨⟨runs, run⟩, -, h⟩ := Except.bind_eq_ok.1 h
  cases h
  exact .tables (.updateJob (fun _ => ⟨rfl, rfl⟩) hbefore)

theorem applyContext_frame {updates : ContextUpdates} (hbefore : Frame before db job.id) :
    Frame before (applyContext db job contract updates) job.id := by
  unfold applyContext
  split
  · exact .updateContract (fun _ => rfl) (.updateJob (fun _ => ⟨rfl, rfl⟩) hbefore)
  · exact hbefore

theorem persistResult_frame {ref : Option String} (hbefore : Frame before db job.id)
    (h : persistResult call db message job contract run result = .ok (db', ref)) :
    Frame before db' job.id := by
  unfold persistResult at h
  obtain ⟨⟨archive, ref'⟩, -, h⟩ := Except.bind_eq_ok.1 h
  cases h
  exact .updateJob (fun _ => ⟨rfl, rfl⟩) (applyContext_frame (.tables hbefore))

theorem replan_frame (hbefore : Frame before db job.id)
    (h : replan call db message job contract plan result = .ok (db', plan')) :
    Frame before db' job.id := by
  unfold replan at h
  split at h
  · obtain ⟨p, -, h⟩ := Except.bind_eq_ok.1 h
    cases h
    exact .updateJob (fun _ => ⟨rfl, rfl⟩) hbefore
  · cases h
    exact hbefore

theorem recordFailure_frame {error error' : ErrorRecord} (hbefore : Frame before db job.id)
    (h : recordFailure call before db message job run error = (db', error')) :
    Frame before db' job.id := by
  unfold recordFailure at h
  cases hr : call.failureRecord with
  | finished =>
    rw [hr] at h
    cases h
    exact .tables hbefore
  | rewritten text =>
    rw [hr] at h
    dsimp only at h
    split at h <;> cases h
    · exact .tables (.refl _ _)
    · exact .refl _ _
  | lost text =>
    rw [hr] at h
    cases h
    exact .refl _ _

theorem handleFailure_frame {raised : Raised} {retryable : Bool}
    (hbefore : Frame before db job.id)
    (h : handleFailure call before db message job contract run raised retryable =
      (db', outcome)) : Frame before db' job.id := by
  unfold handleFailure at h
  cases hr : recordFailure call before db message job run
      (failureRecord message retryable raised) with
  | mk recorded error =>
    have hrecorded := recordFailure_frame hbefore hr
    rw [hr] at h
    cases h
    split
    · exact .updateJob (fun _ => ⟨rfl, rfl⟩) hrecorded
    · exact .updateContract (fun _ => rfl) (.updateJob (fun _ => ⟨rfl, rfl⟩) hrecorded)

theorem Loaded.frame (h : Loaded call db message job contract planned plan) :
    Frame db planned job.id := resolvePlan_frame h.resolved

theorem Returned.frame {started persisted : Db} (hbefore : Frame before planned job.id)
    (h : Returned call message job contract profile planned result started run persisted) :
    Frame before persisted job.id := by
  obtain ⟨ref, hstored⟩ := h.stored
  have hstarted := startStage_frame hbefore h.opened
  refine persistResult_frame ?_ hstored
  exact .updateContract (fun _ => rfl) hstarted

end

theorem Executed.frame (h : Executed call db message db' outcome)
    (hid : ∀ job, db.jobs message.jobId = some job → job.id = message.jobId) :
    Frame db db' message.jobId := by
  cases h with
  | idle => exact .refl _ _
  | skipped loaded =>
    rw [← hid _ loaded.jobRow]
    exact finaliseIfLast_frame (.tables loaded.frame)
  | failed loaded _ start _ handled =>
    rw [← hid _ loaded.jobRow]
    exact handleFailure_frame (startStage_frame loaded.frame start) handled
  | halted loaded _ returned =>
    rw [← hid _ loaded.jobRow]
    exact .updateContract (fun _ => rfl)
      (.updateJob (fun _ => ⟨rfl, rfl⟩) (returned.frame loaded.frame))
  | advanced loaded _ returned _ replan =>
    rw [← hid _ loaded.jobRow]
    exact finaliseIfLast_frame (replan_frame (returned.frame loaded.frame) replan)

/-! ## Checkpoints added -/

section
variable {job : ProcessingJob} {contract : Contract} {plan plan' : ExecutionPlan}
  {before planned : Db} {profile : Option DocumentProfile} {run : JobStageRun}
  {result : StageResult Payload} {contractId : Uuid} {stage : PipelineStage}

theorem resolvePlan_runs (h : resolvePlan call db job contract profile = .ok (planned, plan)) :
    planned.runs = db.runs := by
  unfold resolvePlan at h
  split at h
  · obtain ⟨p, -, h⟩ := Except.bind_eq_ok.1 h
    cases h
    rfl
  · cases h
    rfl

theorem startStage_runs (h : startStage call db message job contract profile = .ok (db', run)) :
    db.runs.create run = .ok db'.runs ∧ run.contractId = contract.id ∧
      run.stage = message.stage := by
  unfold startStage at h
  obtain ⟨⟨runs, run⟩, hstart, h⟩ := Except.bind_eq_ok.1 h
  cases h
  exact RunTable.startRun_ok hstart

theorem persistResult_runs {ref : Option String}
    (h : persistResult call db message job contract run result = .ok (db', ref)) :
    db'.runs = db.runs.finishRun run.id .succeeded ref result.stats none call.finishedAt := by
  unfold persistResult at h
  obtain ⟨⟨archive, ref'⟩, -, h⟩ := Except.bind_eq_ok.1 h
  cases h
  simp only [Db.updateJob_runs]
  unfold applyContext
  split <;> rfl

theorem replan_runs (h : replan call db message job contract plan result = .ok (db', plan')) :
    db'.runs = db.runs := by
  unfold replan at h
  split at h
  · obtain ⟨p, -, h⟩ := Except.bind_eq_ok.1 h
    cases h
    rfl
  · cases h
    rfl

theorem finaliseIfLast_runs {next : Option PipelineStage} :
    (finaliseIfLast call db job contract next).runs = db.runs := by
  cases next <;> rfl

theorem recordFailure_successes {error error' : ErrorRecord}
    (hrun : before.runs.create run = .ok db.runs)
    (h : recordFailure call before db message job run error = (db', error')) :
    db'.runs.successes contractId stage = before.runs.successes contractId stage := by
  unfold recordFailure at h
  cases hr : call.failureRecord with
  | finished =>
    rw [hr] at h
    cases h
    exact RunTable.successes_append_ne (RunTable.finishRun_rows hrun) (by
      simp [RunTable.JobStageRun.finish])
  | rewritten text =>
    rw [hr] at h
    dsimp only at h
    split at h <;> cases h
    next hcreate => exact RunTable.successes_create hcreate (by simp)
    next => rfl
  | lost text =>
    rw [hr] at h
    cases h
    rfl

theorem handleFailure_successes {raised : Raised} {retryable : Bool}
    (hrun : before.runs.create run = .ok db.runs)
    (h : handleFailure call before db message job contract run raised retryable =
      (db', outcome)) :
    db'.runs.successes contractId stage = before.runs.successes contractId stage := by
  unfold handleFailure at h
  cases hr : recordFailure call before db message job run
      (failureRecord message retryable raised) with
  | mk recorded error =>
    rw [hr] at h
    cases h
    have hrecorded : recorded.runs.successes contractId stage =
        before.runs.successes contractId stage := recordFailure_successes hrun hr
    split <;> exact hrecorded

theorem Returned.successes {started persisted : Db}
    (h : Returned call message job contract profile planned result started run persisted) :
    ∃ new : JobStageRun, new.finishedAt = some call.finishedAt ∧
      ∀ contractId stage, persisted.runs.successes contractId stage =
        planned.runs.successes contractId stage ++
          if contract.id = contractId ∧ message.stage = stage then [new] else [] := by
  obtain ⟨hcreate, hcontract, hstage⟩ := startStage_runs h.opened
  obtain ⟨ref, hstored⟩ := h.stored
  refine ⟨RunTable.JobStageRun.finish .succeeded ref result.stats none call.finishedAt run, rfl,
    fun contractId stage => ?_⟩
  rw [persistResult_runs hstored, Db.updateContract_runs, RunTable.successes_finishRun hcreate,
    hcontract, hstage]

end

/-- A call that does not succeed adds no checkpoint. -/
theorem Executed.successes_eq (h : Executed call db message db' outcome)
    (hstatus : outcome.status ≠ .succeeded) (contractId : Uuid) (stage : PipelineStage) :
    db'.runs.successes contractId stage = db.runs.successes contractId stage := by
  cases h with
  | idle => rfl
  | skipped loaded _ recorded =>
    rw [finaliseIfLast_runs, ← resolvePlan_runs loaded.resolved]
    exact RunTable.successes_create recorded (by simp)
  | failed loaded _ start _ handled =>
    have hruns := resolvePlan_runs loaded.resolved
    have hcreate := (startStage_runs start).1
    rw [hruns] at hcreate
    exact handleFailure_successes hcreate handled
  | halted _ _ _ _ status => exact absurd status hstatus
  | advanced _ _ _ _ _ status => exact absurd status hstatus

theorem Executed.successes (h : Executed call db message db' outcome)
    (hstatus : outcome.status = .succeeded) :
    ∃ contract new, db.contracts message.contractId = some contract ∧
      JobStageRun.finishedAt new = some call.finishedAt ∧
      ∀ contractId stage, db'.runs.successes contractId stage =
        db.runs.successes contractId stage ++
          if contract.id = contractId ∧ message.stage = stage then [new] else [] := by
  cases h with
  | idle _ status => exact absurd hstatus status.1
  | skipped _ _ _ status => cases hstatus.symm.trans status
  | failed _ _ _ _ handled =>
    obtain ⟨error, rfl⟩ := handleFailure_outcome handled
    cases hstatus
  | halted loaded _ returned =>
    obtain ⟨new, hnew, hsucc⟩ := returned.successes
    rw [resolvePlan_runs loaded.resolved] at hsucc
    exact ⟨_, new, loaded.contractRow, hnew, hsucc⟩
  | advanced loaded _ returned _ replan =>
    obtain ⟨new, hnew, hsucc⟩ := returned.successes
    rw [resolvePlan_runs loaded.resolved] at hsucc
    refine ⟨_, new, loaded.contractRow, hnew, fun contractId stage => ?_⟩
    rw [finaliseIfLast_runs, replan_runs replan]
    exact hsucc contractId stage

/-! ## The row of the job -/

def HasRow (db : Db) (jobId : Uuid) (stages : List PlannedStage) (state : JobState) : Prop :=
  ∃ j, db.jobs jobId = some j ∧ j.executionPlan.stages = stages ∧ j.state = state

namespace HasRow

variable {jobId : Uuid} {stages stages' : List PlannedStage} {state state' : JobState}

theorem updateJob {f : ProcessingJob → ProcessingJob}
    (hf : ∀ j : ProcessingJob, j.executionPlan.stages = stages → j.state = state →
      (f j).executionPlan.stages = stages' ∧ (f j).state = state')
    (h : HasRow db jobId stages state) : HasRow (db.updateJob jobId f) jobId stages' state' := by
  obtain ⟨j, hj, hstages, hstate⟩ := h
  exact ⟨f j, by rw [Db.updateJob_self, hj]; rfl, hf j hstages hstate⟩

theorem keep {f : ProcessingJob → ProcessingJob}
    (hf : ∀ j, (f j).executionPlan.stages = j.executionPlan.stages ∧ (f j).state = j.state)
    (h : HasRow db jobId stages state) : HasRow (db.updateJob jobId f) jobId stages state :=
  h.updateJob fun j hstages hstate => ⟨(hf j).1.trans hstages, (hf j).2.trans hstate⟩

end HasRow

section
variable {job : ProcessingJob} {contract : Contract} {plan plan' : ExecutionPlan}
  {before planned : Db} {profile : Option DocumentProfile} {run : JobStageRun}
  {result : StageResult Payload} {stages : List PlannedStage} {state : JobState}

theorem resolvePlan_row (hjob : db.jobs job.id = some job)
    (h : resolvePlan call db job contract profile = .ok (planned, plan)) :
    HasRow planned job.id plan.stages job.state := by
  have hrow : HasRow db job.id job.executionPlan.stages job.state := ⟨job, hjob, rfl, rfl⟩
  unfold resolvePlan at h
  split at h
  · obtain ⟨p, -, h⟩ := Except.bind_eq_ok.1 h
    cases h
    exact hrow.updateJob fun _ _ hstate => ⟨rfl, hstate⟩
  · cases h
    exact hrow

theorem startStage_row (h : startStage call db message job contract profile = .ok (db', run))
    (hrow : HasRow db job.id stages state) :
    HasRow db' job.id stages (stageToState message.stage) := by
  unfold startStage at h
  obtain ⟨⟨runs, run⟩, -, h⟩ := Except.bind_eq_ok.1 h
  cases h
  exact hrow.updateJob fun _ hstages _ => ⟨hstages, rfl⟩

theorem persistResult_row {ref : Option String}
    (h : persistResult call db message job contract run result = .ok (db', ref))
    (hrow : HasRow db job.id stages state) : HasRow db' job.id stages state := by
  unfold persistResult at h
  obtain ⟨⟨archive, ref'⟩, -, h⟩ := Except.bind_eq_ok.1 h
  cases h
  refine HasRow.keep (fun _ => ⟨rfl, rfl⟩) ?_
  unfold applyContext
  split
  · exact HasRow.keep (fun _ => ⟨rfl, rfl⟩) hrow
  · exact hrow

theorem replan_row (h : replan call db message job contract plan result = .ok (db', plan'))
    (hrow : HasRow db job.id plan.stages state) : HasRow db' job.id plan'.stages state := by
  unfold replan at h
  split at h
  · obtain ⟨p, -, h⟩ := Except.bind_eq_ok.1 h
    cases h
    exact hrow.updateJob fun _ _ hstate => ⟨rfl, hstate⟩
  · cases h
    exact hrow

theorem finaliseIfLast_row {next : Option PipelineStage} (hrow : HasRow db job.id stages state) :
    HasRow (finaliseIfLast call db job contract next) job.id stages
      (if next.isNone then .ready else state) := by
  cases next with
  | some stage => exact hrow
  | none => exact hrow.updateJob fun _ hstages _ => ⟨hstages, rfl⟩

theorem handleFailure_row {raised : Raised} {retryable : Bool} {stages' : List PlannedStage}
    {state' : JobState}
    (h : handleFailure call before db message job contract run raised retryable = (db', outcome))
    (hrow : HasRow db job.id stages state) (hbefore : HasRow before job.id stages' state') :
    (HasRow db' job.id stages (if outcome.shouldRetry then .retrying else .failed)) ∨
      HasRow db' job.id stages' (if outcome.shouldRetry then .retrying else .failed) := by
  have hrecorded : ∀ recorded error,
      recordFailure call before db message job run (failureRecord message retryable raised) =
        (recorded, error) → HasRow recorded job.id stages state ∨
          HasRow recorded job.id stages' state' := by
    intro recorded error hr
    unfold recordFailure at hr
    split at hr
    · cases hr
      exact .inl hrow
    · dsimp only at hr
      split at hr <;> cases hr <;> exact .inr hbefore
    · cases hr
      exact .inr hbefore
  have hset : ∀ {recorded : Db} {stages : List PlannedStage} {state : JobState} {error : ErrorRecord},
      HasRow recorded job.id stages state →
      HasRow (if canRetry call.settings message retryable then
        recorded.updateJob job.id (.markRetrying message.stage message.attempt call.finishedAt)
      else
        (recorded.updateJob job.id (.markFailed message.stage error call.finishedAt)).updateContract
          contract.id (.markProcessed .failed call.finishedAt)) job.id stages
        (if canRetry call.settings message retryable then .retrying else .failed) := by
    intro recorded stages state error hrow
    split
    · exact hrow.updateJob fun _ hstages _ => ⟨hstages, rfl⟩
    · exact hrow.updateJob fun _ hstages _ => ⟨hstages, rfl⟩
  unfold handleFailure at h
  cases hr : recordFailure call before db message job run
      (failureRecord message retryable raised) with
  | mk recorded error =>
    rw [hr] at h
    cases h
    exact (hrecorded _ _ hr).imp hset hset

theorem Returned.row {started persisted : Db}
    (h : Returned call message job contract profile planned result started run persisted)
    (hrow : HasRow planned job.id stages state) :
    HasRow persisted job.id stages (stageToState message.stage) := by
  obtain ⟨ref, hstored⟩ := h.stored
  have hstarted := startStage_row h.opened hrow
  exact persistResult_row hstored hstarted

theorem Loaded.row (h : Loaded call db message job contract planned plan)
    (hid : job.id = message.jobId) : HasRow planned job.id plan.stages job.state :=
  resolvePlan_row (hid ▸ h.jobRow) h.resolved

theorem skipped_row {runs : RunTable} {next : Option PipelineStage}
    (loaded : Loaded call db message job contract planned plan) (hid : job.id = message.jobId) :
    HasRow (finaliseIfLast call { planned with runs } job contract next) message.jobId plan.stages
      (if next.isNone then .ready else job.state) := by
  rw [← hid]
  exact finaliseIfLast_row (loaded.row hid)

theorem failed_row {started : Db} {raised : Raised} {retryable : Bool}
    (loaded : Loaded call db message job contract planned plan) (hid : job.id = message.jobId)
    (start : startStage call planned message job contract profile = .ok (started, run))
    (handled : handleFailure call db started message job contract run raised retryable =
      (db', outcome)) :
    HasRow db' message.jobId plan.stages (if outcome.shouldRetry then .retrying else .failed) ∨
      HasRow db' message.jobId job.executionPlan.stages
        (if outcome.shouldRetry then .retrying else .failed) := by
  have hbefore : HasRow db job.id job.executionPlan.stages job.state :=
    ⟨job, hid ▸ loaded.jobRow, rfl, rfl⟩
  rw [← hid]
  exact handleFailure_row handled (startStage_row start (loaded.row hid)) hbefore

theorem halted_row {started persisted : Db} {error : ErrorRecord}
    (loaded : Loaded call db message job contract planned plan) (hid : job.id = message.jobId)
    (returned : Returned call message job contract profile planned result started run persisted) :
    HasRow ((persisted.updateJob job.id (.markFailed message.stage error
      call.finishedAt)).updateContract contract.id (.markProcessed .failed call.finishedAt))
      message.jobId plan.stages .failed := by
  rw [← hid]
  exact (returned.row (loaded.row hid)).updateJob fun _ hstages _ => ⟨hstages, rfl⟩

theorem advanced_row {started persisted replanned : Db} {next : Option PipelineStage}
    (loaded : Loaded call db message job contract planned plan) (hid : job.id = message.jobId)
    (returned : Returned call message job contract profile planned result started run persisted)
    (hreplan : replan call persisted message job contract plan result = .ok (replanned, plan')) :
    HasRow (finaliseIfLast call replanned job contract next) message.jobId plan'.stages
      (if next.isNone then .ready else stageToState message.stage) := by
  rw [← hid]
  exact finaliseIfLast_row (replan_row hreplan (returned.row (loaded.row hid)))

end

end Runner

end Clear
