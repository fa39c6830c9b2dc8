import Clear.Orchestrator.Pipeline
import Clear.Orchestrator.Proof.Plans
import Clear.Orchestrator.Proof.Runner
import Clear.Repositories.Proof.Checkpoints

/-!
# Invariants of the pipeline

`Inv` holds in every reachable state of `Pipeline.machine`: rows sit under their own keys, stored
plans are well-formed, a message in flight belongs to a job of its contract and lets the pipeline
continue, and no checkpoint is newer than the clock.
-/

namespace Clear

namespace Runner

variable {Payload : Type} {call : StageCall Payload} {db db' : Db} {message next : StageMessage}
  {outcome : StageOutcome} {delayMs : Nat}

/-! ## Dispatch -/

theorem runStage_cases {queued : Option (StageMessage × Nat)}
    (h : runStage call db message = .ok (db', outcome, queued)) :
    ∃ executed, execute call db message = .ok (executed, outcome) ∧
      ((db' = executed ∧ queued = dispatches message outcome call.dispatchId) ∨
        ∃ next error, call.accepted = false ∧ queued = none ∧
          dispatches message outcome call.dispatchId = some next ∧
          db' = executed.updateJob message.jobId
            (.markFailed next.1.stage error call.finishedAt)) := by
  unfold runStage at h
  obtain ⟨⟨executed, o⟩, hexec, h⟩ := Except.bind_eq_ok.1 h
  dsimp only at h
  split at h
  next hnone =>
    cases h
    exact ⟨_, hexec, .inl ⟨rfl, hnone.symm⟩⟩
  next next delayMs hsome =>
    split at h
    next =>
      cases h
      exact ⟨_, hexec, .inl ⟨rfl, hsome.symm⟩⟩
    next hrefused =>
      cases h
      exact ⟨_, hexec, .inr ⟨(next, delayMs), _, by simpa using hrefused, rfl, hsome, rfl⟩⟩

theorem dispatches_some {dispatchId : String}
    (h : dispatches message outcome dispatchId = some (next, delayMs)) :
    next.jobId = message.jobId ∧ next.contractId = message.contractId ∧
      (message.continuePipeline = true → next.continuePipeline = true) ∧
      next.stage = outcome.nextStage.getD message.stage := by
  unfold dispatches at h
  split at h
  next stage hnext =>
    split at h
    · cases h
      rw [hnext]
      exact ⟨rfl, rfl, fun _ => rfl, rfl⟩
    · cases h
  next hnext =>
    split at h
    · cases h
      rw [hnext]
      exact ⟨rfl, rfl, id, rfl⟩
    · cases h

theorem Executed.active (h : Executed call db message db' outcome) :
    (db' = db ∧ dispatches message outcome call.dispatchId = none) ∨
      ∃ job, db.jobs message.jobId = some job ∧ isActive job = true := by
  cases h with
  | idle _ _ next retry => exact .inl ⟨rfl, by rw [dispatches, next, retry]; rfl⟩
  | skipped loaded => exact .inr ⟨_, loaded.jobRow, loaded.active⟩
  | failed loaded => exact .inr ⟨_, loaded.jobRow, loaded.active⟩
  | halted loaded => exact .inr ⟨_, loaded.jobRow, loaded.active⟩
  | advanced loaded => exact .inr ⟨_, loaded.jobRow, loaded.active⟩

theorem Executed.retried (h : Executed call db message db' outcome)
    (hretry : outcome.shouldRetry = true) : outcome.status = .failed := by
  cases h with
  | idle _ _ _ retry => cases retry.symm.trans hretry
  | skipped _ _ _ _ _ retry => cases retry.symm.trans hretry
  | failed _ _ _ _ handled =>
    obtain ⟨error, rfl⟩ := handleFailure_outcome handled
    rfl
  | halted _ _ _ _ _ _ retry => cases retry.symm.trans hretry
  | advanced _ _ _ _ _ _ _ retry => cases retry.symm.trans hretry

theorem runStage_frame {queued : Option (StageMessage × Nat)}
    (h : runStage call db message = .ok (db', outcome, queued))
    (hid : ∀ job, db.jobs message.jobId = some job → job.id = message.jobId) :
    Frame db db' message.jobId := by
  obtain ⟨executed, hexec, ⟨rfl, -⟩ | ⟨next, error, -, -, -, rfl⟩⟩ := runStage_cases h
  · exact (execute_cases hexec).frame hid
  · exact .updateJob (fun _ => ⟨rfl, rfl⟩) ((execute_cases hexec).frame hid)

/-! ## Stored plans -/

section
variable {job : ProcessingJob} {contract : Contract} {plan plan' : ExecutionPlan} {planned : Db}
  {profile : Option DocumentProfile} {result : StageResult Payload}

theorem resolvePlan_wellFormed (hjob : WellFormed job.executionPlan.stages)
    (h : resolvePlan call db job contract profile = .ok (planned, plan)) :
    WellFormed plan.stages := by
  unfold resolvePlan at h
  split at h
  · obtain ⟨p, hp, h⟩ := Except.bind_eq_ok.1 h
    cases h
    exact plan_wellFormed hp
  · cases h
    exact hjob

theorem replan_wellFormed (hplan : WellFormed plan.stages)
    (h : replan call db message job contract plan result = .ok (db', plan')) :
    WellFormed plan'.stages := by
  unfold replan at h
  split at h
  · obtain ⟨p, hp, h⟩ := Except.bind_eq_ok.1 h
    cases h
    exact plan_wellFormed hp
  · cases h
    exact hplan

end

theorem HasRow.wellFormed {jobId : Uuid} {stages : List PlannedStage} {state : JobState}
    {job : ProcessingJob} (h : HasRow db jobId stages state) (hstages : WellFormed stages)
    (hjob : db.jobs jobId = some job) : WellFormed job.executionPlan.stages := by
  obtain ⟨j, hj, rfl, -⟩ := h
  rwa [hj.symm.trans hjob |> Option.some.inj] at hstages

theorem Executed.wellFormed (h : Executed call db message db' outcome)
    (hid : ∀ job, db.jobs message.jobId = some job → job.id = message.jobId)
    (hplans : ∀ job, db.jobs message.jobId = some job → WellFormed job.executionPlan.stages)
    {job : ProcessingJob} (hjob : db'.jobs message.jobId = some job) :
    WellFormed job.executionPlan.stages := by
  cases h with
  | idle => exact hplans job hjob
  | skipped loaded =>
    have hplan := resolvePlan_wellFormed (hplans _ loaded.jobRow) loaded.resolved
    exact (skipped_row loaded (hid _ loaded.jobRow)).wellFormed hplan hjob
  | failed loaded _ start _ handled =>
    have hplan := resolvePlan_wellFormed (hplans _ loaded.jobRow) loaded.resolved
    rcases failed_row loaded (hid _ loaded.jobRow) start handled with hrow | hrow
    · exact hrow.wellFormed hplan hjob
    · exact hrow.wellFormed (hplans _ loaded.jobRow) hjob
  | halted loaded _ returned =>
    have hplan := resolvePlan_wellFormed (hplans _ loaded.jobRow) loaded.resolved
    exact (halted_row loaded (hid _ loaded.jobRow) returned).wellFormed hplan hjob
  | advanced loaded _ returned _ replan =>
    have hplan := resolvePlan_wellFormed (hplans _ loaded.jobRow) loaded.resolved
    exact (advanced_row loaded (hid _ loaded.jobRow) returned replan).wellFormed
      (replan_wellFormed hplan replan) hjob

/-! ## The plan of a call -/

section
variable {job : ProcessingJob} {contract : Contract} {planned : Db} {plan plan' : ExecutionPlan}
  {result : StageResult Payload} {stage next : PipelineStage}


/-- What the plan of a call does with a stage. The plan is the stored one; on first use it covers the
scope of the job and skips a stage when it and every stage of the scope before it are reusable. -/
def plannedAction (call : StageCall Payload) (db : Db) (job : ProcessingJob) (contract : Contract)
    (stage : PipelineStage) : Option StageAction :=
  if job.executionPlan.stages.isEmpty then
    let stages := (Workflow.scope job.resumeFromStage).getD []
    if stage ∈ stages then
      some (if (stages.takeWhile (· ≠ stage) ++ [stage]).all
          (Workflow.reusable call.env call.loadErrors (loadProfile db job)
            (db.runs.checkpoints call.engine contract.id) ·) then .skip else .run)
    else none
  else (job.executionPlan.stages.find? (·.stage = stage)).map (·.action)

theorem resolvePlan_action
    (h : resolvePlan call db job contract (loadProfile db job) = .ok (planned, plan)) :
    (plan.forStage stage).map (·.action) = plannedAction call db job contract stage := by
  unfold resolvePlan at h
  unfold plannedAction
  split at h
  next hempty =>
    obtain ⟨p, hp, hstored⟩ := Except.bind_eq_ok.1 h
    cases hstored
    obtain ⟨stages, hscope, -⟩ := Workflow.plan_ok hp
    rw [if_pos hempty, hscope, Option.getD_some]
    dsimp only
    split
    next hmem => exact Workflow.forStage_plan_mem hp hscope hmem
    next hmem => rw [Workflow.forStage_none hp hscope hmem, Option.map_none]
  next hempty =>
    cases h
    rw [if_neg hempty]
    rfl

theorem plannedAction_stored {action : StageAction}
    (h : (job.executionPlan.stages.find? (·.stage = stage)).map (·.action) = some action) :
    plannedAction call db job contract stage = some action := by
  unfold plannedAction
  cases hstages : job.executionPlan.stages with
  | nil =>
    rw [hstages] at h
    cases h
  | cons p rest => rw [if_neg (by simp), ← hstages, h]

def Reuses (call : StageCall Payload) (db : Db) (job : ProcessingJob) (contract : Contract)
    (stage : PipelineStage) : Prop :=
  plannedAction call db job contract stage = some .skip ∧
    db.runs.successes contract.id stage ≠ []

instance : Decidable (Reuses call db job contract stage) :=
  inferInstanceAs (Decidable (_ ∧ _))

theorem Loaded.reusedCheckpoint_none (h : Loaded call db message job contract planned plan) :
    reusedCheckpoint call planned plan contract message.stage = none ↔
      ¬ Reuses call db job contract message.stage := by
  rw [Reuses, ← resolvePlan_action h.resolved]
  unfold reusedCheckpoint
  cases plan.forStage message.stage with
  | none => simp
  | some p =>
    rw [resolvePlan_runs h.resolved]
    cases haction : p.action with
    | run => simp [PlannedStage.shouldRun, haction]
    | skip => simp [PlannedStage.shouldRun, haction, RunTable.checkpoint_none]

theorem Loaded.reuses {checkpoint : JobStageRun}
    (h : Loaded call db message job contract planned plan)
    (hreused : reusedCheckpoint call planned plan contract message.stage = some checkpoint) :
    Reuses call db job contract message.stage := by
  by_contra hnone
  cases hreused.symm.trans (h.reusedCheckpoint_none.2 hnone)

/-- A new plan after `DOCPIPELINE` runs everything; otherwise the plan stays. -/
theorem replan_action {i : Nat} (hi : stageIndex next = some i)
    (h : replan call db message job contract plan result = .ok (db', plan')) :
    (plan'.forStage next).map (·.action) = some .run ↔
      (plan.forStage next).map (·.action) = some .run ∨
        message.stage = .docpipeline ∧ result.contextUpdates.nonempty = true := by
  unfold replan at h
  split at h
  next hcontext =>
    obtain ⟨p, hp, hstored⟩ := Except.bind_eq_ok.1 h
    cases hstored
    exact iff_of_true (full_plan_runs hp hi) (.inr hcontext)
  next hcontext =>
    cases h
    exact (or_iff_left hcontext).symm

theorem stageIndex_of_handler {loadErrors : LoadErrors} {handler : StageHandler}
    (h : getStageHandler loadErrors stage = .ok handler) : ∃ i, stageIndex stage = some i := by
  unfold getStageHandler at h
  cases stage <;> first | exact ⟨_, rfl⟩ | cases h

/-- The handler hands values forward to later stages. -/
def updatesContext (call : StageCall Payload) : Bool :=
  match call.outcome with
  | .ok result => result.contextUpdates.nonempty
  | .error _ => false

end

/-! ## Checkpoints -/

theorem runStage_successes_eq {queued : Option (StageMessage × Nat)}
    (h : runStage call db message = .ok (db', outcome, queued))
    (hstatus : outcome.status ≠ .succeeded) (contractId : Uuid) (stage : PipelineStage) :
    db'.runs.successes contractId stage = db.runs.successes contractId stage := by
  obtain ⟨executed, hexec, ⟨rfl, -⟩ | ⟨next, error, -, -, -, rfl⟩⟩ := runStage_cases h <;>
    exact (execute_cases hexec).successes_eq hstatus contractId stage

theorem runStage_successes {queued : Option (StageMessage × Nat)}
    (h : runStage call db message = .ok (db', outcome, queued))
    (hstatus : outcome.status = .succeeded) :
    ∃ contract new, db.contracts message.contractId = some contract ∧
      JobStageRun.finishedAt new = some call.finishedAt ∧
      ∀ contractId stage, db'.runs.successes contractId stage =
        db.runs.successes contractId stage ++
          if contract.id = contractId ∧ message.stage = stage then [new] else [] := by
  obtain ⟨executed, hexec, ⟨rfl, -⟩ | ⟨next, error, -, -, -, rfl⟩⟩ := runStage_cases h <;>
    exact (execute_cases hexec).successes hstatus

theorem runStage_mem_successes {queued : Option (StageMessage × Nat)}
    (h : runStage call db message = .ok (db', outcome, queued)) {contractId : Uuid}
    {stage : PipelineStage} {run : JobStageRun} (hrun : run ∈ db'.runs.successes contractId stage) :
    run ∈ db.runs.successes contractId stage ∨ run.finishedAt = some call.finishedAt := by
  by_cases hstatus : outcome.status = .succeeded
  · obtain ⟨contract, new, -, hnew, hsucc⟩ := runStage_successes h hstatus
    rw [hsucc, List.mem_append] at hrun
    refine hrun.imp_right fun hadded => ?_
    split at hadded
    · rw [List.mem_singleton.1 hadded, hnew]
    · cases hadded
  · rw [runStage_successes_eq h hstatus] at hrun
    exact .inl hrun

end Runner

namespace Pipeline

open Runner

variable {Payload : Type} {s s' : State}

/-! ## The invariant -/

/-- Rows, messages and checkpoints fit together (module doc). -/
structure Inv (s : State) : Prop where
  jobIds : ∀ id job, s.db.jobs id = some job → job.id = id
  contractIds : ∀ id contract, s.db.contracts id = some contract → contract.id = id
  plans : ∀ id job, s.db.jobs id = some job → WellFormed job.executionPlan.stages
  continues : ∀ message ∈ s.inflight, message.continuePipeline = true
  owned : ∀ message ∈ s.inflight, ∃ job, s.db.jobs message.jobId = some job ∧
    job.contractId = message.contractId
  clock : ∀ contractId stage, ∀ run ∈ s.db.runs.successes contractId stage,
    ∃ finished, run.finishedAt = some finished ∧ finished ≤ s.clock

theorem inv_init : Inv {} := by
  constructor <;> simp [RunTable.successes, RunTable.empty]

theorem submission_ok {db : Db} {jobId : Uuid} {dispatchId : String} {now : Timestamp}
    {request : Request} {job : ProcessingJob} {message : StageMessage}
    (h : submission db jobId dispatchId now request = some (job, message)) :
    job.id = jobId ∧ job.executionPlan.stages = [] ∧ message.jobId = jobId ∧
      message.contractId = job.contractId ∧ message.continuePipeline = true := by
  unfold submission at h
  split at h
  · cases h
    exact ⟨rfl, rfl, rfl, rfl, rfl⟩
  · cases h
    exact ⟨rfl, rfl, rfl, rfl, rfl⟩
  · split at h
    · cases h
    · split at h
      · cases h
        exact ⟨rfl, rfl, rfl, rfl, rfl⟩
      · cases h
  · cases h
    exact ⟨rfl, rfl, rfl, rfl, rfl⟩

theorem replay_ok {db : Db} {jobId : Uuid} {stage : PipelineStage} {dispatchId : String}
    {message : StageMessage} (h : replay db jobId stage dispatchId = some message) :
    ∃ job, db.jobs jobId = some job ∧ message.jobId = jobId ∧
      message.contractId = job.contractId ∧ message.stage = stage ∧
      message.continuePipeline = true := by
  unfold replay at h
  split at h
  next job _ hjob _ =>
    cases h
    exact ⟨job, hjob, rfl, rfl, rfl, rfl⟩
  next => cases h

theorem Inv.mapJobs (h : Inv s) {f : Uuid → ProcessingJob → ProcessingJob}
    (hf : ∀ id j, (f id j).id = j.id ∧ (f id j).contractId = j.contractId ∧
      (f id j).executionPlan = j.executionPlan) :
    Inv { s with db := { s.db with jobs := fun id => (s.db.jobs id).map (f id) } } where
  jobIds id job hjob := by
    obtain ⟨j, hj, rfl⟩ := Option.map_eq_some_iff.1 hjob
    rw [(hf id j).1]
    exact h.jobIds id j hj
  contractIds := h.contractIds
  plans id job hjob := by
    obtain ⟨j, hj, rfl⟩ := Option.map_eq_some_iff.1 hjob
    rw [(hf id j).2.2]
    exact h.plans id j hj
  continues := h.continues
  owned message hmem := by
    obtain ⟨j, hj, hcontract⟩ := h.owned message hmem
    refine ⟨f message.jobId j, by simp [hj], ?_⟩
    rw [(hf _ j).2.1, hcontract]
  clock := h.clock

theorem Inv.send (h : Inv s) {message : StageMessage} {job : ProcessingJob}
    (hjob : s.db.jobs message.jobId = some job) (hcontract : message.contractId = job.contractId)
    (hcontinue : message.continuePipeline = true) :
    Inv { s with inflight := s.inflight ++ [message] } where
  jobIds := h.jobIds
  contractIds := h.contractIds
  plans := h.plans
  continues m hm := by
    rcases List.mem_append.1 hm with hold | hnew
    · exact h.continues m hold
    · rw [List.mem_singleton.1 hnew, hcontinue]
  owned m hm := by
    rcases List.mem_append.1 hm with hold | hnew
    · exact h.owned m hold
    · rw [List.mem_singleton.1 hnew]
      exact ⟨job, hjob, hcontract.symm⟩
  clock := h.clock

theorem Inv.erase (h : Inv s) (message : StageMessage) :
    Inv { s with inflight := s.inflight.erase message } where
  jobIds := h.jobIds
  contractIds := h.contractIds
  plans := h.plans
  continues m hm := h.continues m (List.mem_of_mem_erase hm)
  owned m hm := h.owned m (List.mem_of_mem_erase hm)
  clock := h.clock

theorem Inv.create (h : Inv s) {job : ProcessingJob} (hfresh : s.db.jobs job.id = none)
    (hplan : job.executionPlan.stages = []) :
    Inv { s with db := { s.db with jobs := Function.update s.db.jobs job.id (some job) } } where
  jobIds id j hj := by
    dsimp only at hj
    by_cases hid : id = job.id
    · rw [hid, Function.update_self] at hj
      rw [hid, ← Option.some.inj hj]
    · rw [Function.update_of_ne hid] at hj
      exact h.jobIds id j hj
  contractIds := h.contractIds
  plans id j hj := by
    dsimp only at hj
    by_cases hid : id = job.id
    · rw [hid, Function.update_self] at hj
      rw [← Option.some.inj hj, hplan]
      exact .nil
    · rw [Function.update_of_ne hid] at hj
      exact h.plans id j hj
  continues := h.continues
  owned m hm := by
    obtain ⟨j, hj, hcontract⟩ := h.owned m hm
    refine ⟨j, ?_, hcontract⟩
    dsimp only
    rw [Function.update_of_ne, hj]
    intro hid
    rw [hid, hfresh] at hj
    cases hj
  clock := h.clock

theorem Inv.deliver (h : Inv s) {message : StageMessage} {call : StageCall Payload} {db : Db}
    {outcome : StageOutcome} {queued : Option (StageMessage × Nat)} (hm : message ∈ s.inflight)
    (hclock : s.clock ≤ call.startedAt) (hlater : call.startedAt < call.finishedAt)
    (hrun : runStage call s.db message = .ok (db, outcome, queued)) :
    Inv { db, inflight := s.inflight.erase message ++ (queued.map (·.1)).toList,
          clock := call.finishedAt } := by
  have hid : ∀ job, s.db.jobs message.jobId = some job → job.id = message.jobId :=
    fun job hjob => h.jobIds _ job hjob
  have hframe := runStage_frame hrun hid
  have hnext : ∀ next ∈ (queued.map (·.1)).toList, next.jobId = message.jobId ∧
      next.contractId = message.contractId ∧ next.continuePipeline = true := by
    intro next hnext
    obtain ⟨executed, -, ⟨-, hq⟩ | ⟨_, _, -, hq, -⟩⟩ := runStage_cases hrun
    · cases hd : dispatches message outcome call.dispatchId with
      | none => simp [hq, hd] at hnext
      | some d =>
        obtain ⟨next', delay⟩ := d
        obtain rfl : next = next' := by simpa [hq, hd] using hnext
        obtain ⟨hjob, hcontract, hcontinue, -⟩ := dispatches_some hd
        exact ⟨hjob, hcontract, hcontinue (h.continues _ hm)⟩
    · simp [hq] at hnext
  constructor
  case jobIds =>
    intro id job hjob
    obtain ⟨j, hj, hsame, -⟩ := hframe.job_of hjob
    exact hsame.trans (h.jobIds id j hj)
  case contractIds =>
    intro id contract hcontract
    obtain ⟨c, hc, hsame⟩ := hframe.contract_of hcontract
    exact hsame.trans (h.contractIds id c hc)
  case plans =>
    intro id job hjob
    by_cases hother : id = message.jobId
    · subst hother
      obtain ⟨executed, hexec, ⟨rfl, -⟩ | ⟨next, error, -, -, -, rfl⟩⟩ := runStage_cases hrun
      · exact (execute_cases hexec).wellFormed hid (fun _ => h.plans _ _) hjob
      · rw [Db.updateJob_self] at hjob
        obtain ⟨j, hj, rfl⟩ := Option.map_eq_some_iff.1 hjob
        show WellFormed j.executionPlan.stages
        exact (execute_cases hexec).wellFormed hid (fun _ => h.plans _ _) hj
    · exact h.plans id job ((hframe.jobs id hother).symm.trans hjob)
  case continues =>
    intro m hmem
    rcases List.mem_append.1 hmem with hold | hnew
    · exact h.continues m (List.mem_of_mem_erase hold)
    · exact (hnext m hnew).2.2
  case owned =>
    have howned : ∀ m ∈ s.inflight, ∃ job, db.jobs m.jobId = some job ∧
        job.contractId = m.contractId := by
      intro m hmem
      obtain ⟨j, hj, hcontract⟩ := h.owned m hmem
      obtain ⟨j', hj', -, hsame⟩ := hframe.symm.job_of hj
      exact ⟨j', hj', hsame.symm.trans hcontract⟩
    intro m hmem
    rcases List.mem_append.1 hmem with hold | hnew
    · exact howned m (List.mem_of_mem_erase hold)
    · obtain ⟨hjob, hcontract, -⟩ := hnext m hnew
      rw [hjob, hcontract]
      exact howned message hm
  case clock =>
    intro contractId stage run hsucc
    rcases runStage_mem_successes hrun hsucc with hold | hnew
    · obtain ⟨finished, hfinished, hle⟩ := h.clock _ _ run hold
      exact ⟨finished, hfinished, hle.trans (hclock.trans hlater.le)⟩
    · exact ⟨_, hnew, le_rfl⟩

theorem Inv.cancel (h : Inv s) (jobId : Uuid) (now : Timestamp) :
    Inv { s with db := s.db.updateJob jobId (.markCancelled now) } := by
  have hmap : s.db.updateJob jobId (.markCancelled now) =
      { s.db with jobs := fun id => (s.db.jobs id).map fun job =>
          if id = jobId then job.markCancelled now else job } := by
    unfold Db.updateJob
    congr 1
    funext id
    by_cases hid : id = jobId
    · subst hid
      simp
    · simp [hid]
  rw [hmap]
  refine h.mapJobs (f := fun id job => if id = jobId then job.markCancelled now else job) ?_
  intro id job
  split
  · exact ⟨rfl, rfl, rfl⟩
  · exact ⟨rfl, rfl, rfl⟩

theorem Inv.step {a : Action Payload} (h : Inv s) (hs : Pipeline.step s a = some s') : Inv s' := by
  cases a with
  | register contract =>
    simp only [Pipeline.step] at hs
    split at hs
    next => cases hs
    next hfresh =>
      cases hs
      refine { h with contractIds := fun id c hc => ?_ }
      dsimp only at hc
      by_cases hid : id = contract.id
      · rw [hid, Function.update_self] at hc
        rw [hid, ← Option.some.inj hc]
      · rw [Function.update_of_ne hid] at hc
        exact h.contractIds id c hc
  | saveProfile profile =>
    cases hs
    exact { h with }
  | submit jobId dispatchId request =>
    simp only [Pipeline.step] at hs
    split at hs
    next => cases hs
    next job message hsub =>
      obtain ⟨hrow, hs⟩ := Option.ite_none_right_eq_some.1 hs
      obtain ⟨rfl, hplan, hjob, hcontract, hcontinue⟩ := submission_ok hsub
      cases hs
      have hnew : Function.update s.db.jobs job.id (some job) message.jobId = some job := by
        rw [hjob, Function.update_self]
      exact (h.create (Option.isNone_iff_eq_none.1 hrow.1) hplan).send hnew hcontract hcontinue
  | replay jobId stage dispatchId =>
    obtain ⟨message, hreplay, rfl⟩ := Option.map_eq_some_iff.1 hs
    obtain ⟨job, hjob, rfl, hcontract, -, hcontinue⟩ := replay_ok hreplay
    exact h.send hjob hcontract hcontinue
  | deliver message call =>
    obtain ⟨⟨hm, hclock, hlater⟩, hs⟩ := Option.ite_none_right_eq_some.1 hs
    split at hs
    next error hraised =>
      cases hs
      refine { h with clock := fun contractId stage run hrun => ?_ }
      obtain ⟨finished, hfinished, hle⟩ := h.clock _ _ run hrun
      exact ⟨finished, hfinished, hle.trans (hclock.trans hlater.le)⟩
    next db outcome queued hrun =>
      cases hs
      exact h.deliver hm hclock hlater hrun
  | drop message =>
    obtain ⟨-, hs⟩ := Option.ite_none_right_eq_some.1 hs
    cases hs
    exact h.erase message
  | cancel jobId =>
    simp only [Pipeline.step] at hs
    split at hs
    next => cases hs
    next job hjob =>
      obtain ⟨-, hs⟩ := Option.ite_none_left_eq_some.1 hs
      cases hs
      exact h.cancel jobId _
  | sweep timeoutMinutes now =>
    cases hs
    refine h.mapJobs (f := fun _ job =>
      if job.isStalled timeoutMinutes now then { job with state := .failed } else job) ?_
    intro id job
    split
    · exact ⟨rfl, rfl, rfl⟩
    · exact ⟨rfl, rfl, rfl⟩

theorem invariant : (machine Payload).Invariant Machine.anyStep Inv where
  init s hs := by
    rw [show s = {} from hs]
    exact inv_init
  step _ _ _ h _ hs := h.step hs

/-! ## Sample runs -/

namespace Sample

/-- A call at time `now` under the default deployment, by a handler that emits no artifacts. -/
def call (runId : Uuid) (now : Timestamp) (outcome : Except Raised (StageResult Unit)) :
    StageCall Unit where
  engine := .stable
  codec := { dumps := fun _ => [], sha256 := fun _ => "" }
  workerId := "worker"
  runId
  artifactId i := BitVec.ofNat 128 (1000 + i)
  startedAt := now
  finishedAt := now + 1
  outcome
  dispatchId := ""

def message (jobId : Uuid) (options : JsonDict) (stage : PipelineStage) : StageMessage :=
  { jobId, stage, options
    contractId := 1
    projectId := 2 }

def deliveries (jobId : Uuid) (options : JsonDict) (start : Nat) (stages : List PipelineStage) :
    List (Action Unit) :=
  stages.zipIdx start |>.map fun (stage, i) =>
    .deliver (message jobId options stage) (call (BitVec.ofNat 128 (100 + i)) (10 * i) (.ok {}))

def uploaded : List (Action Unit) :=
  [.register { id := 1, projectId := 2 }, .submit 10 "" (.upload 1 2 .normal false)] ++
    deliveries 10 [] 1 stageOrder

end Sample

end Pipeline

end Clear
