import Clear.Orchestrator.Proof.Pipeline

/-!
# Forced reprocessing

`options.force` reaches the runner with every message of the job, and the runner does not read it:
the plan is resolved without it. A forced job therefore executes its start stage and every later
one exactly when the plan of its first call does not reuse the start stage and runs the stage
behind it (`force_honoured_iff`).
-/

namespace Clear

namespace Runner

variable {Payload : Type} {call : StageCall Payload} {db db' : Db} {message : StageMessage}
  {outcome : StageOutcome} {job : ProcessingJob} {contract : Contract} {planned : Db}
  {plan plan' : ExecutionPlan} {result : StageResult Payload} {stage next : PipelineStage}

/-! ## Calls that nothing stops -/

/-- The handler returns and lets the pipeline go on, and the queue accepts the next message. -/
def Smooth (call : StageCall Payload) : Prop :=
  call.accepted = true ∧ ∃ result, call.outcome = .ok result ∧ result.halt = false

theorem queued_behind {i : Nat} {message' : StageMessage} {delayMs : Nat}
    (h : runStage call db message = .ok (db', outcome, some (message', delayMs)))
    (hi : stageIndex message.stage = some i) :
    ∃ j, stageIndex message'.stage = some j ∧ i ≤ j := by
  obtain ⟨executed, hexec, ⟨-, hqueued⟩ | ⟨_, _, -, hqueued, -⟩⟩ := runStage_cases h
  case inr => cases hqueued
  obtain ⟨-, -, -, hstage⟩ := dispatches_some hqueued.symm
  have hbehind : ∀ next, outcome.nextStage = some next → ∃ j, stageIndex next = some j ∧ i ≤ j := by
    intro next hnext
    have hplan : ∃ plan, Workflow.nextAfter plan message.stage = some next := by
      cases execute_cases hexec with
      | idle _ _ next => cases next.symm.trans hnext
      | skipped _ _ _ _ next => exact ⟨_, next.symm.trans hnext⟩
      | failed _ _ _ _ handled =>
        obtain ⟨error, rfl⟩ := handleFailure_outcome handled
        cases hnext
      | halted _ _ _ _ _ next => cases next.symm.trans hnext
      | advanced _ _ _ _ _ _ next => exact ⟨_, next.symm.trans hnext⟩
    obtain ⟨plan, hplan⟩ := hplan
    obtain ⟨i', j, hi', hj, hlt⟩ := nextAfter_some hplan
    rw [hi, Option.some.injEq] at hi'
    exact ⟨j, hj, by omega⟩
  cases hnext : outcome.nextStage with
  | none =>
    rw [hnext, Option.getD_none] at hstage
    exact ⟨i, hstage ▸ hi, le_rfl⟩
  | some next =>
    rw [hnext, Option.getD_some] at hstage
    exact hstage ▸ hbehind next hnext

/-- A smooth call for an active job reuses the checkpoint, or it executes the handler and dispatches
what the plan, possibly made anew, runs next. -/
theorem smooth_cases {queued : Option (StageMessage × Nat)} (hsmooth : Smooth call)
    (hjob : db.jobs message.jobId = some job) (hid : job.id = message.jobId)
    (hactive : isActive job = true) (hcontract : db.contracts message.contractId = some contract)
    (hplan : WellFormed job.executionPlan.stages) (hcontinue : message.continuePipeline = true)
    (h : runStage call db message = .ok (db', outcome, queued)) :
    (Reuses call db job contract message.stage ∧ outcome.status = .skipped) ∨
      (¬ Reuses call db job contract message.stage ∧ outcome.status = .succeeded ∧
        (∃ i, stageIndex message.stage = some i) ∧ ∃ plan' : ExecutionPlan,
          WellFormed plan'.stages ∧
          (∀ next i, stageIndex next = some i →
            ((plan'.forStage next).map (·.action) = some .run ↔
              plannedAction call db job contract next = some .run ∨
                message.stage = .docpipeline ∧ updatesContext call = true)) ∧
          queued.map (·.1) = (Workflow.nextAfter plan' message.stage).map
            (nextMessage message call.dispatchId) ∧
          HasRow db' message.jobId plan'.stages
            (if (Workflow.nextAfter plan' message.stage).isNone then .ready
              else stageToState message.stage)) := by
  obtain ⟨haccepted, result, hresult, hhalt⟩ := hsmooth
  obtain ⟨executed, hexec, ⟨rfl, hqueued⟩ | ⟨_, _, hrefused, -⟩⟩ := runStage_cases h
  case inr => rw [haccepted] at hrefused; cases hrefused
  have hnext : outcome.shouldRetry = false → queued.map (·.1) =
      outcome.nextStage.map (nextMessage message call.dispatchId) := by
    intro hretry
    rw [hqueued, dispatches, hcontinue, hretry]
    cases outcome.nextStage <;> rfl
  have hloaded : ∀ {j c planned plan}, Loaded call db message j c planned plan →
      j = job ∧ c = contract := fun loaded =>
    ⟨Option.some.inj (loaded.jobRow.symm.trans hjob),
      Option.some.inj (loaded.contractRow.symm.trans hcontract)⟩
  cases execute_cases hexec with
  | idle stopped => exact absurd hcontract (stopped _ _ hjob hactive)
  | skipped loaded reused _ status =>
    obtain ⟨rfl, rfl⟩ := hloaded loaded
    exact .inl ⟨loaded.reuses reused, status⟩
  | failed _ _ _ raised => rw [hresult] at raised; cases raised
  | halted _ _ returned halt =>
    cases hresult.symm.trans returned.outcome
    rw [hhalt] at halt
    cases halt
  | advanced loaded reused returned _ hreplan status next retry =>
    obtain ⟨rfl, rfl⟩ := hloaded loaded
    cases hresult.symm.trans returned.outcome
    obtain ⟨handler, hhandler⟩ := returned.handler
    refine .inr ⟨loaded.reusedCheckpoint_none.1 reused, status, stageIndex_of_handler hhandler, _,
      replan_wellFormed (resolvePlan_wellFormed hplan loaded.resolved) hreplan, fun next i hi => ?_,
      ?_, advanced_row loaded hid returned hreplan⟩
    · rw [replan_action hi hreplan, resolvePlan_action loaded.resolved, updatesContext, hresult]
    · rw [hnext retry, next]

end Runner

namespace Pipeline

open Runner

variable {Payload : Type} {db db' : Db} {message : StageMessage} {call : StageCall Payload}
  {calls : List (StageCall Payload)} {trace : List (PipelineStage × StageStatus)}
  {stage : PipelineStage} {i : Nat}

/-! ## Whole jobs -/

theorem process_cons (h : process db message (call :: calls) = .ok (db', trace)) :
    ∃ db₁ outcome queued, runStage call db message = .ok (db₁, outcome, queued) ∧
      ((queued = none ∧ trace = [(message.stage, outcome.status)]) ∨
        ∃ next delayMs rest, queued = some (next, delayMs) ∧
          process db₁ next calls = .ok (db', rest) ∧
          trace = (message.stage, outcome.status) :: rest) := by
  unfold process at h
  obtain ⟨⟨db₁, outcome, queued⟩, hrun, h⟩ := Except.bind_eq_ok.1 h
  refine ⟨db₁, outcome, queued, hrun, ?_⟩
  dsimp only at h
  split at h
  next =>
    cases h
    exact .inl ⟨rfl, rfl⟩
  next next delayMs =>
    obtain ⟨⟨db₂, rest⟩, hrest, h⟩ := Except.bind_eq_ok.1 h
    cases h
    exact .inr ⟨next, delayMs, rest, rfl, hrest, rfl⟩

/-- A job never returns to a stage in front of the one it was started at. -/
theorem process_behind (h : process db message calls = .ok (db', trace))
    (hi : stageIndex message.stage = some i) {p : PipelineStage × StageStatus} (hp : p ∈ trace) :
    ∃ j, stageIndex p.1 = some j ∧ i ≤ j := by
  induction calls generalizing db message trace i with
  | nil =>
    cases h
    cases hp
  | cons call calls ih =>
    obtain ⟨db₁, outcome, queued, hrun, ⟨-, rfl⟩ | ⟨next, delayMs, rest, rfl, hrest, rfl⟩⟩ :=
      process_cons h
    · obtain rfl := List.mem_singleton.1 hp
      exact ⟨i, hi, le_rfl⟩
    · rcases List.mem_cons.1 hp with rfl | hp
      · exact ⟨i, hi, le_rfl⟩
      · obtain ⟨j, hj, hij⟩ := queued_behind hrun hi
        obtain ⟨k, hk, hjk⟩ := ih hrest hj hp
        exact ⟨k, hk, hij.trans hjk⟩

structure Underway (db : Db) (message : StageMessage) : Prop where
  continues : message.continuePipeline = true
  contract : ∃ contract, db.contracts message.contractId = some contract
  job : ∃ job, db.jobs message.jobId = some job ∧ job.id = message.jobId ∧ isActive job = true ∧
    WellFormed job.executionPlan.stages ∧
    (job.executionPlan.stages.find? (·.stage = message.stage)).map (·.action) = some .run

theorem Underway.advance {outcome : StageOutcome} {queued : Option (StageMessage × Nat)}
    {plan : ExecutionPlan} {dispatchId : String}
    (hrun : runStage call db message = .ok (db', outcome, queued))
    (hid : ∀ job, db.jobs message.jobId = some job → job.id = message.jobId)
    (hcontract : ∃ contract, db.contracts message.contractId = some contract)
    (hplan : WellFormed plan.stages)
    (hrow : HasRow db' message.jobId plan.stages (stageToState message.stage))
    (hnext : (plan.forStage stage).map (·.action) = some .run) :
    Underway db' (nextMessage message dispatchId stage) where
  continues := rfl
  contract := by
    obtain ⟨contract, hcontract⟩ := hcontract
    obtain ⟨contract', hcontract', -⟩ := (runStage_frame hrun hid).symm.contract_of hcontract
    exact ⟨contract', hcontract'⟩
  job := by
    obtain ⟨job, hjob, hstages, hstate⟩ := hrow
    obtain ⟨old, hold, hsame, -⟩ := (runStage_frame hrun hid).job_of hjob
    refine ⟨job, hjob, hsame.trans (hid old hold), ?_, hstages ▸ hplan, hstages ▸ hnext⟩
    rw [isActive, hstate]
    cases message.stage <;> rfl

/-- A smooth call whose plan runs the following stage leaves the job under way to it; behind the last
stage nothing is queued. -/
theorem step_following {outcome : StageOutcome} {queued : Option (StageMessage × Nat)}
    {plan : ExecutionPlan}
    (hrun : runStage call db message = .ok (db', outcome, queued))
    (hid : ∀ job, db.jobs message.jobId = some job → job.id = message.jobId)
    (hcontract : ∃ contract, db.contracts message.contractId = some contract)
    (hplan : WellFormed plan.stages) (hi : stageIndex message.stage = some i)
    (hqueued : queued.map (·.1) = (Workflow.nextAfter plan message.stage).map
      (nextMessage message call.dispatchId))
    (hrow : HasRow db' message.jobId plan.stages
      (if (Workflow.nextAfter plan message.stage).isNone then .ready
        else stageToState message.stage))
    (hnext : ∀ next, following message.stage = some next →
      (plan.forStage next).map (·.action) = some .run) :
    (following message.stage = none ∧ queued = none) ∨
      ∃ next delayMs, following message.stage = some next ∧
        queued = some (nextMessage message call.dispatchId next, delayMs) ∧
        Underway db' (nextMessage message call.dispatchId next) := by
  cases hfollowing : following message.stage with
  | none =>
    rw [nextAfter_last hi hfollowing] at hqueued
    exact .inl ⟨rfl, Option.map_eq_none_iff.1 hqueued⟩
  | some next =>
    have hruns := hnext next hfollowing
    have hafter := (hplan.nextAfter_following hi hfollowing).2 hruns
    rw [hafter] at hqueued hrow
    obtain ⟨⟨message', delayMs⟩, hq, hmessage⟩ := Option.map_eq_some_iff.1 hqueued
    obtain rfl : message' = nextMessage message call.dispatchId next := hmessage
    exact .inr ⟨next, delayMs, rfl, hq, .advance hrun hid hcontract hplan hrow hruns⟩

theorem executed_cons {db₁ : Db} {outcome : StageOutcome} {queued : Option (StageMessage × Nat)}
    {stages : List PipelineStage} (hi : stageIndex message.stage = some i)
    (hstages : stagesFrom message.stage = some stages) (hlength : stages.length ≤ calls.length + 1)
    (hstatus : outcome.status = .succeeded)
    (hrest : (queued = none ∧ trace = [(message.stage, outcome.status)]) ∨
      ∃ next delayMs rest, queued = some (next, delayMs) ∧
        process db₁ next calls = .ok (db', rest) ∧
        trace = (message.stage, outcome.status) :: rest)
    (hnext : (following message.stage = none ∧ queued = none) ∨
      ∃ next delayMs, following message.stage = some next ∧
        queued = some (nextMessage message call.dispatchId next, delayMs) ∧
        Underway db₁ (nextMessage message call.dispatchId next))
    (htail : ∀ {message' : StageMessage} {stages' : List PipelineStage}
      {rest : List (PipelineStage × StageStatus)}, Underway db₁ message' →
      stagesFrom message'.stage = some stages' → stages'.length ≤ calls.length →
      process db₁ message' calls = .ok (db', rest) →
      rest = stages'.map (·, StageStatus.succeeded)) :
    trace = stages.map (·, StageStatus.succeeded) := by
  rcases hnext with ⟨hlast, rfl⟩ | ⟨next, delayMs, hfollowing, rfl, hunder⟩
  · rw [stagesFrom_following hi, hlast] at hstages
    cases hstages
    rcases hrest with ⟨-, rfl⟩ | ⟨_, _, _, hqueued, -⟩
    · rw [hstatus]
      rfl
    · cases hqueued
  · have hindex := stageIndex_iff.2 (following_eq hi ▸ hfollowing)
    rw [stagesFrom_following hi, hfollowing, Option.bind_some, stagesFrom_eq hindex] at hstages
    cases hstages
    rcases hrest with ⟨hqueued, -⟩ | ⟨_, _, rest, hqueued, hrest, rfl⟩
    · cases hqueued
    · cases hqueued
      rw [htail hunder (stagesFrom_eq hindex) (Nat.le_of_succ_le_succ hlength) hrest, hstatus]
      rfl

theorem process_executed {stages : List PipelineStage} (hdb : Underway db message)
    (hstages : stagesFrom message.stage = some stages) (hlength : stages.length ≤ calls.length)
    (hsmooth : ∀ call ∈ calls, Smooth call) (h : process db message calls = .ok (db', trace)) :
    trace = stages.map (·, StageStatus.succeeded) := by
  induction calls generalizing db message trace stages with
  | nil =>
    obtain ⟨i, hi, -⟩ := Option.map_eq_some_iff.1 hstages
    rw [stagesFrom_eq hi] at hstages
    cases hstages
    cases hlength
  | cons call calls ih =>
    obtain ⟨i, hi, -⟩ := Option.map_eq_some_iff.1 hstages
    obtain ⟨job, hjob, hid, hactive, hplan, hrun⟩ := hdb.job
    obtain ⟨contract, hcontract⟩ := hdb.contract
    have hids : ∀ j, db.jobs message.jobId = some j → j.id = message.jobId := by
      intro j hj
      rwa [← Option.some.inj (hjob.symm.trans hj)]
    obtain ⟨db₁, outcome, queued, hcall, hrest⟩ := process_cons h
    have haction : plannedAction call db job contract message.stage = some .run :=
      plannedAction_stored hrun
    rcases smooth_cases (hsmooth call List.mem_cons_self) hjob hid hactive hcontract hplan
      hdb.continues hcall with ⟨⟨hskip, -⟩, -⟩ | ⟨-, hstatus, -, plan', hplan', hruns, hqueued, hrow⟩
    · rw [haction] at hskip
      cases hskip
    have hnext : ∀ next, following message.stage = some next →
        (plan'.forStage next).map (·.action) = some .run := by
      intro next hfollowing
      have hindex := stageIndex_iff.2 (following_eq hi ▸ hfollowing)
      rw [hruns next _ hindex]
      exact .inl (plannedAction_stored (WellFormed.runs_following
        (P := job.executionPlan.toPlan job.id contract.id contract.projectId) hplan hi hfollowing
        hrun))
    refine executed_cons hi hstages hlength hstatus hrest
      (step_following hcall hids hdb.contract hplan' hi hqueued hrow hnext)
      fun hunder htail hle hproc => ?_
    exact ih hunder htail hle (fun c hc => hsmooth c (List.mem_cons_of_mem _ hc)) hproc

/-! ## Force -/

def Honoured (stage : PipelineStage) (trace : List (PipelineStage × StageStatus)) : Prop :=
  ∃ stages, stagesFrom stage = some stages ∧
    ∀ q ∈ stages, (q, .succeeded) ∈ trace ∧ (q, .skipped) ∉ trace

/-- The plan of the first call does not replace its stage by a checkpoint, and it runs the stage
behind it, unless `DOCPIPELINE` has the job planned anew. -/
structure NothingReused (call : StageCall Payload) (db : Db) (job : ProcessingJob)
    (contract : Contract) (stage : PipelineStage) : Prop where
  start : ¬ Reuses call db job contract stage
  next : ∀ next, following stage = some next →
    plannedAction call db job contract next = some .run ∨
      stage = .docpipeline ∧ updatesContext call = true

theorem honoured_executed {stages : List PipelineStage} (hstages : stagesFrom stage = some stages)
    (htrace : trace = stages.map (·, StageStatus.succeeded)) : Honoured stage trace := by
  refine ⟨stages, hstages, fun q hq => ?_⟩
  rw [htrace]
  exact ⟨List.mem_map_of_mem hq, by simp⟩

/-- A forced message is honoured exactly when the plan happens to reuse nothing from its stage on. -/
theorem force_honoured_iff {s : State} (hs : (machine Payload).Reach s)
    {message : StageMessage} (hmessage : message ∈ s.inflight) (_hforce : message.force = true)
    {job : ProcessingJob} (hjob : s.db.jobs message.jobId = some job)
    (hactive : isActive job = true)
    {contract : Contract} (hcontract : s.db.contracts message.contractId = some contract)
    {call : StageCall Payload} {calls : List (StageCall Payload)}
    (hsmooth : ∀ c ∈ call :: calls, Smooth c)
    (hlength : stageOrder.length ≤ (call :: calls).length)
    {db' : Db} {trace : List (PipelineStage × StageStatus)}
    (h : process s.db message (call :: calls) = .ok (db', trace)) :
    Honoured message.stage trace ↔ NothingReused call s.db job contract message.stage := by
  have hinv := invariant.reach hs
  have hid : job.id = message.jobId := hinv.jobIds _ _ hjob
  have hids : ∀ j, s.db.jobs message.jobId = some j → j.id = message.jobId :=
    fun j hj => hinv.jobIds _ _ hj
  obtain ⟨db₁, outcome, queued, hcall, hrest⟩ := process_cons h
  have hhead : (message.stage, outcome.status) ∈ trace := by
    rcases hrest with ⟨-, rfl⟩ | ⟨_, _, _, -, -, rfl⟩
    · exact List.mem_singleton_self _
    · exact List.mem_cons_self
  rcases smooth_cases (hsmooth call List.mem_cons_self) hjob hid hactive hcontract
    (hinv.plans _ _ hjob) (hinv.continues _ hmessage) hcall with
    ⟨hreuses, hstatus⟩ | ⟨hstart, hstatus, ⟨i, hi⟩, plan', hplan', hruns, hqueued, hrow⟩
  · refine iff_of_false ?_ fun hnothing => hnothing.start hreuses
    rintro ⟨stages, hstages, hall⟩
    obtain ⟨i, hi, -⟩ := Option.map_eq_some_iff.1 hstages
    rw [stagesFrom_eq hi] at hstages
    cases hstages
    rw [hstatus] at hhead
    exact (hall _ List.mem_cons_self).2 hhead
  have hindex : ∀ next, following message.stage = some next → stageIndex next = some (i + 1) :=
    fun next hnext => stageIndex_iff.2 (following_eq hi ▸ hnext)
  constructor
  · rintro ⟨stages, hstages, hall⟩
    refine ⟨hstart, fun next hnext => ?_⟩
    rw [← hruns next _ (hindex next hnext), ← hplan'.nextAfter_following hi hnext]
    by_contra hafter
    have hmem : (next, StageStatus.succeeded) ∈ trace := by
      refine (hall next ?_).1
      rw [stagesFrom_following hi, hnext, Option.bind_some,
        stagesFrom_eq (hindex next hnext)] at hstages
      cases hstages
      simp
    have hne : (next, StageStatus.succeeded) ≠ (message.stage, outcome.status) := by
      intro heq
      have hsame := hindex next hnext
      rw [(Prod.mk.inj heq).1, hi] at hsame
      simp at hsame
    -- What is dispatched instead lies behind the following stage, and so does all that comes after.
    rcases hrest with ⟨-, rfl⟩ | ⟨message', delayMs, rest, rfl, hproc, rfl⟩
    · exact hne (List.mem_singleton.1 hmem)
    · obtain ⟨t, ht, hmessage'⟩ := Option.map_eq_some_iff.1 hqueued.symm
      obtain ⟨i', j, hi', hj, hlt⟩ := nextAfter_some ht
      rw [hi, Option.some.injEq] at hi'
      have hstage : message'.stage = t := congrArg StageMessage.stage hmessage'.symm
      obtain ⟨k, hk, hjk⟩ := process_behind hproc (hstage ▸ hj)
        ((List.mem_cons.1 hmem).resolve_left hne)
      rw [hindex next hnext, Option.some.injEq] at hk
      have hjt : stageIndex next = some j := by
        rw [hindex next hnext, Option.some.injEq]
        omega
      rw [stageIndex_iff] at hj hjt
      rw [hj, Option.some.injEq] at hjt
      exact hafter (hjt ▸ ht)
  · intro hnothing
    have hnext : ∀ next, following message.stage = some next →
        (plan'.forStage next).map (·.action) = some .run :=
      fun next hnext => (hruns next _ (hindex next hnext)).2 (hnothing.next next hnext)
    refine honoured_executed (stagesFrom_eq hi) ?_
    refine executed_cons hi (stagesFrom_eq hi) ?_ hstatus hrest
      (step_following hcall hids ⟨_, hcontract⟩ hplan' hi hqueued hrow hnext)
      fun hunder htail hle hproc => ?_
    · refine le_trans ?_ hlength
      obtain ⟨hlt, -⟩ := List.getElem?_eq_some_iff.1 (stageIndex_iff.1 hi)
      rw [List.length_cons, List.length_drop]
      omega
    · exact process_executed hunder htail hle
        (fun c hc => hsmooth c (List.mem_cons_of_mem _ hc)) hproc


def reprocessed (stage : PipelineStage) : List (Action Unit) :=
  Sample.uploaded ++ [.submit 11 "" (.reprocess 1 2 stage true .normal [])]

def forced (stage : PipelineStage) : StageMessage := Sample.message 11 [("force", .bool true)] stage

def returning : List (StageCall Unit) :=
  [7, 8, 9, 10, 11, 12].map fun i =>
    Sample.call (BitVec.ofNat 128 (100 + i)) (10 * i) (.ok {})

theorem returning_smooth : ∀ c ∈ returning, Smooth c := by
  intro c hc
  obtain ⟨i, -, rfl⟩ := List.mem_map.1 hc
  exact ⟨rfl, _, rfl, rfl⟩

def forcedTrace (stage : PipelineStage) (s : State) :
    List StageMessage × Bool × Option (List (PipelineStage × StageStatus)) :=
  (s.inflight, (s.db.jobs 11).any isActive && (s.db.contracts 1).isSome,
    (process s.db (forced stage) returning).toOption.map (·.2))

theorem process_ok (h : (process db message calls).toOption.map (·.2) = some trace) :
    ∃ db', process db message calls = .ok (db', trace) := by
  cases hprocess : process db message calls with
  | error raised =>
    rw [hprocess] at h
    cases h
  | ok result =>
    rw [hprocess] at h
    cases h
    exact ⟨result.1, rfl⟩

/-- A forced reprocess from `VALIDATION` is honoured because nothing is reused. -/
theorem force_honoured_from_validation : ∃ s job contract,
    (machine Unit).Reach s ∧ ∃ db' trace,
      process s.db (forced .validation) returning = .ok (db', trace) ∧
      (Honoured .validation trace ↔
        NothingReused (Sample.call 107 70 (.ok {})) s.db job contract .validation) := by
  have hrun : ((machine Unit).exec {} (reprocessed .validation)).map (forcedTrace .validation) =
      some ([forced .validation], true, some (stageOrder.map (·, .succeeded))) := by decide
  obtain ⟨s, hs, hsum⟩ := Option.map_eq_some_iff.1 hrun
  simp only [forcedTrace, Prod.mk.injEq] at hsum
  obtain ⟨hinflight, hrows, htrace⟩ := hsum
  obtain ⟨hjob, hcontract⟩ := Bool.and_eq_true_iff.1 hrows
  obtain ⟨job, hjob, hactive⟩ := (Option.any_eq_true _ _).1 hjob
  obtain ⟨contract, hcontract⟩ := Option.isSome_iff_exists.1 hcontract
  obtain ⟨db', hprocess⟩ := process_ok htrace
  have hreach := Machine.reach_of_exec rfl hs
  refine ⟨s, job, contract, hreach, db', _, hprocess, ?_⟩
  exact force_honoured_iff hreach (by rw [hinflight]; exact List.mem_singleton_self _) (by decide)
    hjob hactive hcontract returning_smooth (by decide) hprocess

/-- A forced reprocess from `EXTRACTION` over current checkpoints executes nothing. -/
theorem force_ignored : ∃ s : State, (machine Unit).Reach s ∧
    ∃ message ∈ s.inflight, message.force = true ∧ message.stage = .extraction ∧
      (∀ c ∈ returning, Smooth c) ∧ ∃ db' trace,
        process s.db message returning = .ok (db', trace) ∧ trace = [(.extraction, .skipped)] ∧
        ¬ Honoured message.stage trace := by
  have hrun : ((machine Unit).exec {} (reprocessed .extraction)).map (forcedTrace .extraction) =
      some ([forced .extraction], true, some [(.extraction, .skipped)]) := by
    decide
  obtain ⟨s, hs, hsum⟩ := Option.map_eq_some_iff.1 hrun
  simp only [forcedTrace, Prod.mk.injEq] at hsum
  obtain ⟨hinflight, -, htrace⟩ := hsum
  obtain ⟨db', hprocess⟩ := process_ok htrace
  refine ⟨s, Machine.reach_of_exec rfl hs, forced .extraction,
    by rw [hinflight]; exact List.mem_singleton_self _, by decide, rfl, returning_smooth, db', _,
    hprocess, rfl, ?_⟩
  rintro ⟨stages, hstages, hall⟩
  cases hstages
  exact (hall .extraction (by decide)).2 (by decide)

end Pipeline

end Clear
