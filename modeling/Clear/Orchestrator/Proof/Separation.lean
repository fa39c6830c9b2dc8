import Clear.Orchestrator.Proof.Pipeline

/-!
# Calls for different contracts

A call of `run_stage` leaves the contracts other than its own alone: their rows are unchanged
(`runStage_contract`) and so are their stage runs (`runStage_contractRuns`), hence the checkpoints
that planning reads.
-/

namespace Clear

structure Db.Keyed (db : Db) : Prop where
  jobs : ∀ id job, db.jobs id = some job → job.id = id
  contracts : ∀ id contract, db.contracts id = some contract → contract.id = id

namespace RunTable

variable {t t' : RunTable} {contractId : Uuid}

def ofContract (t : RunTable) (contractId : Uuid) : List JobStageRun :=
  t.rows.filter (·.contractId = contractId)

theorem checkpoints_congr (db : Sql.Engine JobStageRun)
    (h : t'.ofContract contractId = t.ofContract contractId) :
    t'.checkpoints db contractId = t.checkpoints db contractId := by
  have hsucceeded : ∀ t : RunTable,
      (t.rows.filter fun r => r.contractId = contractId ∧ r.status = .succeeded) =
        (t.ofContract contractId).filter fun r => r.status = .succeeded := by
    intro t
    rw [ofContract, List.filter_filter]
    refine List.filter_congr fun r _ => ?_
    by_cases hcontract : r.contractId = contractId <;> simp [hcontract]
  unfold checkpoints
  rw [hsucceeded, hsucceeded, h]

theorem ofContract_append {run : JobStageRun} (hrows : t'.rows = t.rows ++ [run])
    (hne : run.contractId ≠ contractId) : t'.ofContract contractId = t.ofContract contractId := by
  simp [ofContract, hrows, hne]

end RunTable

namespace Runner

variable {Payload : Type} {call : StageCall Payload} {before db db' planned : Db}
  {message : StageMessage} {outcome : StageOutcome} {job : ProcessingJob} {contract : Contract}
  {plan plan' : ExecutionPlan} {profile : Option DocumentProfile} {run : JobStageRun}
  {result : StageResult Payload} {other : Uuid}

/-! ## Contracts -/

theorem updateContract_of_ne {id : Uuid} {f : Contract → Contract} (hne : other ≠ id) :
    (db.updateContract id f).contracts other = db.contracts other := by
  simp [Db.updateContract, hne]

theorem resolvePlan_contracts (h : resolvePlan call db job contract profile = .ok (planned, plan)) :
    planned.contracts = db.contracts := by
  unfold resolvePlan at h
  split at h
  · obtain ⟨p, -, h⟩ := Except.bind_eq_ok.1 h
    cases h
    rfl
  · cases h
    rfl

theorem startStage_contracts
    (h : startStage call db message job contract profile = .ok (db', run)) :
    db'.contracts = db.contracts := by
  unfold startStage at h
  obtain ⟨⟨runs, run⟩, -, h⟩ := Except.bind_eq_ok.1 h
  cases h
  rfl

theorem finaliseIfLast_contract {next : Option PipelineStage} (hne : other ≠ contract.id) :
    (finaliseIfLast call db job contract next).contracts other = db.contracts other := by
  cases next with
  | some stage => rfl
  | none => exact updateContract_of_ne hne

theorem persistResult_contract {ref : Option String} (hne : other ≠ contract.id)
    (h : persistResult call db message job contract run result = .ok (db', ref)) :
    db'.contracts other = db.contracts other := by
  unfold persistResult at h
  obtain ⟨⟨archive, ref'⟩, -, h⟩ := Except.bind_eq_ok.1 h
  cases h
  rw [Db.updateJob_contracts]
  unfold applyContext
  split
  · exact updateContract_of_ne hne
  · rfl

theorem replan_contracts
    (h : replan call db message job contract plan result = .ok (db', plan')) :
    db'.contracts = db.contracts := by
  unfold replan at h
  split at h
  · obtain ⟨p, -, h⟩ := Except.bind_eq_ok.1 h
    cases h
    rfl
  · cases h
    rfl

theorem handleFailure_contract {raised : Raised} {retryable : Bool} (hne : other ≠ contract.id)
    (hbefore : db.contracts = before.contracts)
    (h : handleFailure call before db message job contract run raised retryable =
      (db', outcome)) : db'.contracts other = before.contracts other := by
  have hrecorded : ∀ error, (recordFailure call before db message job run error).1.contracts =
      before.contracts := by
    intro error
    unfold recordFailure
    split
    · exact hbefore
    · dsimp only
      split <;> rfl
    · rfl
  unfold handleFailure at h
  cases h
  split
  · exact congrFun (hrecorded _) other
  · rw [updateContract_of_ne hne]
    exact congrFun (hrecorded _) other

theorem Returned.contractRow {started persisted : Db} (hne : other ≠ contract.id)
    (h : Returned call message job contract profile planned result started run persisted) :
    persisted.contracts other = planned.contracts other := by
  obtain ⟨ref, hstored⟩ := h.stored
  rw [persistResult_contract hne hstored, updateContract_of_ne hne, startStage_contracts h.opened]

theorem Executed.contractRow (h : Executed call db message db' outcome) (hkeys : db.Keyed)
    (hne : other ≠ message.contractId) : db'.contracts other = db.contracts other := by
  have hid : ∀ contract, db.contracts message.contractId = some contract → other ≠ contract.id :=
    fun contract hrow => by rwa [hkeys.contracts _ _ hrow]
  cases h with
  | idle => rfl
  | skipped loaded =>
    rw [finaliseIfLast_contract (hid _ loaded.contractRow), ← resolvePlan_contracts loaded.resolved]
  | failed loaded _ start _ handled =>
    refine handleFailure_contract (hid _ loaded.contractRow) ?_ handled
    rw [startStage_contracts start, resolvePlan_contracts loaded.resolved]
  | halted loaded _ returned =>
    have hrow := hid _ loaded.contractRow
    rw [updateContract_of_ne hrow, Db.updateJob_contracts, returned.contractRow hrow,
      resolvePlan_contracts loaded.resolved]
  | advanced loaded _ returned _ replan =>
    have hrow := hid _ loaded.contractRow
    rw [finaliseIfLast_contract hrow, replan_contracts replan, returned.contractRow hrow,
      resolvePlan_contracts loaded.resolved]

/-! ## Stage runs -/

theorem handleFailure_contractRuns {raised : Raised} {retryable : Bool}
    (hcreate : before.runs.create run = .ok db.runs) (hrun : run.contractId ≠ other)
    (hmessage : message.contractId ≠ other)
    (h : handleFailure call before db message job contract run raised retryable =
      (db', outcome)) : db'.runs.ofContract other = before.runs.ofContract other := by
  have hrecorded : ∀ error,
      (recordFailure call before db message job run error).1.runs.ofContract other =
        before.runs.ofContract other := by
    intro error
    unfold recordFailure
    split
    · exact RunTable.ofContract_append (RunTable.finishRun_rows hcreate) hrun
    · dsimp only
      split
      next hfresh => exact RunTable.ofContract_append (RunTable.create_ok hfresh).1 hmessage
      next => rfl
    · rfl
  unfold handleFailure at h
  cases h
  split <;> exact hrecorded _

theorem Returned.contractRuns {started persisted : Db} (hne : contract.id ≠ other)
    (h : Returned call message job contract profile planned result started run persisted) :
    persisted.runs.ofContract other = planned.runs.ofContract other := by
  obtain ⟨hcreate, hcontract, -⟩ := startStage_runs h.opened
  obtain ⟨ref, hstored⟩ := h.stored
  rw [persistResult_runs hstored, Db.updateContract_runs]
  refine RunTable.ofContract_append (RunTable.finishRun_rows hcreate) ?_
  show run.contractId ≠ other
  rwa [hcontract]

theorem Executed.contractRuns (h : Executed call db message db' outcome) (hkeys : db.Keyed)
    (hne : other ≠ message.contractId) : db'.runs.ofContract other = db.runs.ofContract other := by
  have hid : ∀ contract, db.contracts message.contractId = some contract → contract.id ≠ other :=
    fun contract hrow => by
      rw [hkeys.contracts _ _ hrow]
      exact hne.symm
  cases h with
  | idle => rfl
  | skipped loaded _ recorded =>
    rw [finaliseIfLast_runs, ← resolvePlan_runs loaded.resolved]
    exact RunTable.ofContract_append (RunTable.create_ok recorded).1 (hid _ loaded.contractRow)
  | failed loaded _ start _ handled =>
    obtain ⟨hcreate, hcontract, -⟩ := startStage_runs start
    rw [resolvePlan_runs loaded.resolved] at hcreate
    refine handleFailure_contractRuns hcreate ?_ hne.symm handled
    rw [hcontract]
    exact hid _ loaded.contractRow
  | halted loaded _ returned =>
    rw [Db.updateContract_runs, Db.updateJob_runs, returned.contractRuns (hid _ loaded.contractRow),
      resolvePlan_runs loaded.resolved]
  | advanced loaded _ returned _ replan =>
    rw [finaliseIfLast_runs, replan_runs replan, returned.contractRuns (hid _ loaded.contractRow),
      resolvePlan_runs loaded.resolved]

/-! ## A whole call -/

section
variable {queued : Option (StageMessage × Nat)}

theorem runStage_keyed (hkeys : db.Keyed)
    (h : runStage call db message = .ok (db', outcome, queued)) : db'.Keyed := by
  have hframe := runStage_frame h fun job => hkeys.jobs _ job
  constructor
  · intro id job hjob
    obtain ⟨j, hj, hsame, -⟩ := hframe.job_of hjob
    exact hsame.trans (hkeys.jobs id j hj)
  · intro id contract hcontract
    obtain ⟨c, hc, hsame⟩ := hframe.contract_of hcontract
    exact hsame.trans (hkeys.contracts id c hc)

theorem runStage_contract (hkeys : db.Keyed) (hne : other ≠ message.contractId)
    (h : runStage call db message = .ok (db', outcome, queued)) :
    db'.contracts other = db.contracts other := by
  obtain ⟨executed, hexec, ⟨rfl, -⟩ | ⟨next, error, -, -, -, rfl⟩⟩ := runStage_cases h <;>
    exact (execute_cases hexec).contractRow hkeys hne

theorem runStage_contractRuns (hkeys : db.Keyed) (hne : other ≠ message.contractId)
    (h : runStage call db message = .ok (db', outcome, queued)) :
    db'.runs.ofContract other = db.runs.ofContract other := by
  obtain ⟨executed, hexec, ⟨rfl, -⟩ | ⟨next, error, -, -, -, rfl⟩⟩ := runStage_cases h <;>
    exact (execute_cases hexec).contractRuns hkeys hne

end

end Runner

end Clear
