import Clear.Orchestrator.Proof.Pipeline

/-!
# Contracts agree with their jobs

A contract that is shown as queued has a latest job that is live (`Inv`), and a failed job has its
error and its finish time. Both are kept by a stage that ends its job (`Executed.effect`: it writes
the contract, too). The other places that end a job leave the contract as it is: a cancellation, the
sweep, and a queue that refuses a message; the sweep also leaves the error and the finish time. So
the two hold as long as none of them ends the latest job of a contract that is queued (`Settling`),
and else they fail (`swept_uploaded`).
-/

/-!
## Contracts and the jobs on them

The writes of `contracts.status` beside those of `processing_jobs.state`: a document is uploaded, or
a new version of it (`_add_version`), another job is asked for, workers run messages (`run_stage`),
a job is cancelled, and the sweep fails the jobs whose worker stopped reporting. A step is one
committed transaction.

A batch is taken as one step for each of its documents, all with the same answer of the queue.
-/

namespace Clear

namespace Standing

variable {Payload : Type}

/-- The database, the ids of the jobs with the latest first, and the messages in flight. -/
structure State where
  db : Db := {}
  created : List Uuid := []
  inflight : List StageMessage := []

inductive Action (Payload : Type) where
  | upload (contract : Contract) (jobId : Uuid) (dispatchId : String) (priority : JobPriority)
      (accepted : Bool) (now : Timestamp)
  | addVersion (contractId jobId : Uuid) (dispatchId : String) (priority : JobPriority)
      (accepted : Bool) (now : Timestamp)
  /-- A reprocess, a retry or a reindexing; if the queue refuses it, it is rolled back. -/
  | submit (jobId : Uuid) (dispatchId : String) (request : Pipeline.Request) (now : Timestamp)
  /-- A worker runs a message. -/
  | deliver (message : StageMessage) (call : StageCall Payload)
  | cancel (jobId : Uuid) (now : Timestamp)
  | sweep (timeoutMinutes : Nat) (now : Timestamp)

def addVersion (c : Contract) : Contract :=
  { c with
    status := .uploaded
    needsReview := false
    processedAt := none }

def queueError : ErrorRecord :=
  { code := "queue_error"
    message := "Could not queue the document for processing."
    retryable := true }

def enqueue (s : State) (job : ProcessingJob) (message : StageMessage) (accepted : Bool)
    (now : Timestamp) : State :=
  let job := if accepted then job else job.markFailed (some .validation) queueError now
  { db := { s.db with jobs := Function.update s.db.jobs message.jobId (some job) }
    created := message.jobId :: s.created
    inflight := if accepted then s.inflight ++ [message] else s.inflight }

def submit (s : State) (jobId : Uuid) (dispatchId : String) (request : Pipeline.Request)
    (accepted : Bool) (now : Timestamp) : Option State :=
  (Pipeline.submission s.db jobId dispatchId now request).bind fun (job, message) =>
    if (s.db.jobs jobId).isNone ∧ (s.db.contracts job.contractId).isSome then
      some (enqueue s job message accepted now)
    else none

def isUpload : Pipeline.Request → Bool
  | .upload .. => true
  | _ => false

def step (s : State) : Action Payload → Option State
  | .upload contract jobId dispatchId priority accepted now =>
    if (s.db.contracts contract.id).isNone then
      submit
        { s with db :=
          { s.db with
            contracts := Function.update s.db.contracts contract.id
              (some { contract with status := .uploaded }) } }
        jobId dispatchId (.upload contract.id contract.projectId priority false) accepted now
    else none
  | .addVersion contractId jobId dispatchId priority accepted now =>
    (s.db.contracts contractId).bind fun contract =>
      submit { s with db := s.db.updateContract contractId addVersion } jobId dispatchId
        (.upload contractId contract.projectId priority true) accepted now
  | .submit jobId dispatchId request now =>
    if isUpload request then none else submit s jobId dispatchId request true now
  | .deliver message call =>
    if message ∈ s.inflight then
      match Runner.runStage call s.db message with
      | .error _ => some s
      | .ok (db, _, next) =>
        some { s with
          db
          inflight := s.inflight.erase message ++ (next.map (·.1)).toList }
    else none
  | .cancel jobId now =>
    match s.db.jobs jobId with
    | none => none
    | some job =>
      if job.state.isTerminal then none
      else some { s with db := s.db.updateJob jobId (.markCancelled now) }
  | .sweep timeoutMinutes now =>
    some { s with db :=
      { s.db with jobs := fun id => (s.db.jobs id).map fun job =>
          if job.isStalled timeoutMinutes now then job.reclaimStalled now else job } }

/-- Any number of contracts, from the first upload on. -/
def machine (Payload : Type) : Machine State (Action Payload) where
  init s := s = {}
  step := step

def latestId (s : State) (contractId : Uuid) : Option Uuid :=
  s.created.find? fun id => (s.db.jobs id).any (·.contractId = contractId)

def pending (status : ContractStatus) : Bool := status ∈ [.uploaded, .processing]

end Standing

end Clear

namespace Clear

def ProcessingJob.recorded (j : ProcessingJob) : Prop :=
  j.state = .failed → j.error.isSome = true ∧ j.finishedAt.isSome = true

theorem ProcessingJob.recorded_markFailed (stage : Option PipelineStage) (error : ErrorRecord)
    (now : Timestamp) (j : ProcessingJob) : (j.markFailed stage error now).recorded :=
  fun _ => ⟨rfl, rfl⟩

namespace Runner

variable {Payload : Type} {call : StageCall Payload} {db db' before planned : Db}
  {message : StageMessage} {outcome : StageOutcome} {job : ProcessingJob} {contract : Contract}
  {plan plan' : ExecutionPlan} {profile : Option DocumentProfile} {run : JobStageRun}
  {result : StageResult Payload}

/-! ## The status of a contract -/

def contractStatus (db : Db) (id : Uuid) : Option ContractStatus := (db.contracts id).map (·.status)

theorem status_updateContract {cid : Uuid} {g : Contract → Contract}
    (hg : ∀ c, (g c).status = c.status) (id : Uuid) :
    contractStatus (db.updateContract cid g) id = contractStatus db id := by
  unfold contractStatus Db.updateContract
  by_cases hid : id = cid
  · subst hid
    simp [Function.comp_def, hg]
  · simp [hid]

theorem status_of_ne {cid id : Uuid} {g : Contract → Contract} (hid : id ≠ cid) :
    contractStatus (db.updateContract cid g) id = contractStatus db id := by
  simp [contractStatus, Db.updateContract, hid]

theorem resolvePlan_status (h : resolvePlan call db job contract profile = .ok (planned, plan))
    (id : Uuid) : contractStatus planned id = contractStatus db id := by
  unfold resolvePlan at h
  split at h
  · obtain ⟨p, -, h⟩ := Except.bind_eq_ok.1 h
    cases h
    rfl
  · cases h
    rfl

theorem startStage_status (h : startStage call db message job contract profile = .ok (db', run))
    (id : Uuid) : contractStatus db' id = contractStatus db id := by
  unfold startStage at h
  obtain ⟨⟨runs, run⟩, -, h⟩ := Except.bind_eq_ok.1 h
  cases h
  rfl

theorem persistResult_status {ref : Option String}
    (h : persistResult call db message job contract run result = .ok (db', ref)) (id : Uuid) :
    contractStatus db' id = contractStatus db id := by
  unfold persistResult at h
  obtain ⟨⟨archive, ref'⟩, -, h⟩ := Except.bind_eq_ok.1 h
  cases h
  unfold applyContext
  split
  · exact status_updateContract (g := .applyContextUpdates result.contextUpdates) (fun _ => rfl) id
  · rfl

theorem replan_status (h : replan call db message job contract plan result = .ok (db', plan'))
    (id : Uuid) : contractStatus db' id = contractStatus db id := by
  unfold replan at h
  split at h
  · obtain ⟨p, -, h⟩ := Except.bind_eq_ok.1 h
    cases h
    rfl
  · cases h
    rfl

theorem recordFailure_status {error error' : ErrorRecord}
    (hbefore : ∀ id, contractStatus db id = contractStatus before id)
    (h : recordFailure call before db message job run error = (db', error')) (id : Uuid) :
    contractStatus db' id = contractStatus before id := by
  unfold recordFailure at h
  cases hr : call.failureRecord with
  | finished =>
    rw [hr] at h
    cases h
    exact hbefore id
  | rewritten text =>
    rw [hr] at h
    dsimp only at h
    split at h <;> cases h <;> rfl
  | lost text =>
    rw [hr] at h
    cases h
    rfl

theorem Returned.status {started persisted : Db}
    (h : Returned call message job contract profile planned result started run persisted)
    (id : Uuid) : contractStatus persisted id = contractStatus planned id := by
  obtain ⟨ref, hstored⟩ := h.stored
  rw [persistResult_status hstored, ← startStage_status h.opened id]
  exact status_updateContract
    (g := fun c => { c with needsReview := c.needsReview || call.flagged }) (fun _ => rfl) id

/-! ## What a call does to its job and its contract -/

structure Going (db db' : Db) (jobId : Uuid) : Prop where
  status : ∀ id, contractStatus db' id = contractStatus db id
  job : ∀ j ∈ db'.jobs jobId, j.state.isTerminal = false ∨
    ∃ j₀ ∈ db.jobs jobId, j.state = j₀.state ∧ j.error = j₀.error ∧ j.finishedAt = j₀.finishedAt

structure Ended (db db' : Db) (jobId contractId : Uuid) : Prop where
  status : ∀ id, id ≠ contractId → contractStatus db' id = contractStatus db id
  settled : ∀ st ∈ contractStatus db' contractId, Standing.pending st = false
  recorded : ∀ j ∈ db'.jobs jobId, j.recorded

theorem stageToState_live (stage : PipelineStage) : (stageToState stage).isTerminal = false := by
  cases stage <;> rfl

theorem Ended.mark {middle : Db} {f : ProcessingJob → ProcessingJob} {g : Contract → Contract}
    {jobId contractId : Uuid} (hmiddle : ∀ id, contractStatus middle id = contractStatus db id)
    (hf : ∀ j, (f j).recorded) (hg : ∀ c, Standing.pending (g c).status = false) :
    Ended db ((middle.updateJob jobId f).updateContract contractId g) jobId contractId where
  status id hid := (status_of_ne hid).trans (hmiddle id)
  settled st hst := by
    simp only [contractStatus, Db.updateContract, Function.update_self, Option.map_map] at hst
    obtain ⟨c, -, rfl⟩ := Option.map_eq_some_iff.1 hst
    exact hg c
  recorded j hj := by
    rw [Db.updateContract_jobs, Db.updateJob_self] at hj
    obtain ⟨j₀, -, rfl⟩ := Option.map_eq_some_iff.1 hj
    exact hf j₀

theorem finaliseIfLast_effect {middle : Db} {next : Option PipelineStage}
    (hmiddle : ∀ id, contractStatus middle id = contractStatus db id)
    (hjob : ∀ j ∈ middle.jobs job.id, j.state.isTerminal = false ∨
      ∃ j₀ ∈ db.jobs job.id, j.state = j₀.state ∧ j.error = j₀.error ∧
        j.finishedAt = j₀.finishedAt) :
    Going db (finaliseIfLast call middle job contract next) job.id ∨
      (next = none ∧
        Ended db (finaliseIfLast call middle job contract next) job.id contract.id) := by
  cases next with
  | some stage => exact .inl ⟨hmiddle, hjob⟩
  | none =>
    refine .inr ⟨rfl, .mark hmiddle (fun _ h => by cases h) fun c => ?_⟩
    show Standing.pending (if c.needsReview then .needsReview else .ready) = false
    cases c.needsReview <;> rfl

theorem resolvePlan_job (hjob : db.jobs job.id = some job)
    (h : resolvePlan call db job contract profile = .ok (planned, plan)) :
    ∀ j ∈ planned.jobs job.id, j.state = job.state ∧ j.error = job.error ∧
      j.finishedAt = job.finishedAt := by
  unfold resolvePlan at h
  split at h
  · obtain ⟨p, -, h⟩ := Except.bind_eq_ok.1 h
    cases h
    intro j hj
    rw [Db.updateJob_self, hjob] at hj
    cases hj
    exact ⟨rfl, rfl, rfl⟩
  · cases h
    intro j hj
    rw [hjob] at hj
    cases hj
    exact ⟨rfl, rfl, rfl⟩

theorem HasRow.live {jobId : Uuid} {stages : List PlannedStage} {state : JobState}
    (h : HasRow db jobId stages state) (hlive : state.isTerminal = false) :
    ∀ j ∈ db.jobs jobId, j.state.isTerminal = false := by
  obtain ⟨j₀, hj₀, -, rfl⟩ := h
  intro j hj
  cases hj₀.symm.trans hj
  exact hlive

theorem handleFailure_effect {raised : Raised} {retryable : Bool}
    (hstarted : ∀ id, contractStatus planned id = contractStatus db id)
    (h : handleFailure call db planned message job contract run raised retryable =
      (db', outcome)) :
    (outcome.shouldRetry = true ∧ ∀ id, contractStatus db' id = contractStatus db id) ∨
      (outcome.nextStage = none ∧ outcome.shouldRetry = false ∧
        Ended db db' job.id contract.id) := by
  unfold handleFailure at h
  cases hr : recordFailure call db planned message job run
      (failureRecord message retryable raised) with
  | mk recorded error =>
    have hrecorded := recordFailure_status hstarted hr
    rw [hr] at h
    cases h
    cases hretry : canRetry call.settings message retryable with
    | true =>
      refine .inl ⟨hretry, fun id => ?_⟩
      rw [if_pos rfl]
      exact hrecorded id
    | false =>
      refine .inr ⟨rfl, hretry, ?_⟩
      rw [if_neg Bool.false_ne_true]
      exact .mark hrecorded (fun j => ProcessingJob.recorded_markFailed _ _ _ j) fun _ => rfl

/-- A call changes nothing, leaves its job going, or ends it together with its contract; then
nothing is dispatched. -/
theorem Executed.effect (h : Executed call db message db' outcome)
    (hid : ∀ j, db.jobs message.jobId = some j → j.id = message.jobId)
    (hcid : ∀ c, db.contracts message.contractId = some c → c.id = message.contractId) :
    Going db db' message.jobId ∨
      (outcome.nextStage = none ∧ outcome.shouldRetry = false ∧
        Ended db db' message.jobId message.contractId) := by
  cases h with
  | idle =>
    exact .inl ⟨fun _ => rfl, fun j hj => .inr ⟨j, hj, rfl, rfl, rfl⟩⟩
  | @skipped job contract planned plan checkpoint runs outcome loaded reused recorded status next
      retry =>
    have hjob : job.id = message.jobId := hid _ loaded.jobRow
    have hcontract : contract.id = message.contractId := hcid _ loaded.contractRow
    have hrow : db.jobs job.id = some job := hjob ▸ loaded.jobRow
    rw [← hjob, ← hcontract, next]
    have hmiddle : ∀ id, contractStatus { planned with runs } id = contractStatus db id :=
      by
        have hplanned := resolvePlan_status loaded.resolved
        exact hplanned
    exact (finaliseIfLast_effect hmiddle
      fun j hj => .inr ⟨job, hrow, resolvePlan_job hrow loaded.resolved j hj⟩).imp_right
        fun hended => ⟨hended.1, retry, hended.2⟩
  | @failed job contract planned plan started run raised retryable db' outcome loaded reused start
      raised_eq handled =>
    have hjob : job.id = message.jobId := hid _ loaded.jobRow
    have hcontract : contract.id = message.contractId := hcid _ loaded.contractRow
    have hstarted : ∀ id, contractStatus started id = contractStatus db id := fun id =>
      (startStage_status start id).trans (resolvePlan_status loaded.resolved id)
    rcases handleFailure_effect hstarted handled with ⟨hretry, hstatus⟩ | ⟨hnext, hretry, hended⟩
    · refine .inl ⟨hstatus, fun j hj => .inl ?_⟩
      rcases failed_row loaded hjob start handled with hrow | hrow
      · rw [if_pos hretry] at hrow
        exact hrow.live rfl j hj
      · rw [if_pos hretry] at hrow
        exact hrow.live rfl j hj
    · exact .inr ⟨hnext, hretry, hjob ▸ hcontract ▸ hended⟩
  | @halted job contract planned plan result started run persisted outcome loaded reused returned
      halt status next retry =>
    have hjob : job.id = message.jobId := hid _ loaded.jobRow
    have hcontract : contract.id = message.contractId := hcid _ loaded.contractRow
    rw [← hjob, ← hcontract]
    refine .inr ⟨next, retry, .mark (fun id => ?_)
      (fun j => ProcessingJob.recorded_markFailed _ _ _ j) fun _ => rfl⟩
    exact (returned.status id).trans (resolvePlan_status loaded.resolved id)
  | @advanced job contract planned plan result started run persisted replanned plan' outcome loaded
      reused returned halt hreplan status next retry =>
    have hjob : job.id = message.jobId := hid _ loaded.jobRow
    have hcontract : contract.id = message.contractId := hcid _ loaded.contractRow
    have hrow := replan_row hreplan (returned.row (loaded.row hjob))
    rw [← hjob, ← hcontract, next]
    have hmiddle : ∀ id, contractStatus replanned id = contractStatus db id := fun id =>
      (replan_status hreplan id).trans
        ((returned.status id).trans (resolvePlan_status loaded.resolved id))
    exact (finaliseIfLast_effect hmiddle
      fun j hj => .inl (hrow.live (stageToState_live _) j hj)).imp_right
        fun hended => ⟨hended.1, retry, hended.2⟩

end Runner

namespace Standing

variable {Payload : Type} {s t : State}

/-! ## The latest job -/

def Waiting (s : State) (jobId : Uuid) : Prop :=
  ∃ job ∈ s.db.jobs jobId, ∃ contract ∈ s.db.contracts job.contractId,
    pending contract.status = true ∧ latestId s job.contractId = some jobId

instance (s : State) (jobId : Uuid) : Decidable (Waiting s jobId) :=
  inferInstanceAs (Decidable (∃ _ ∈ _, ∃ _ ∈ _, _ ∧ _))

theorem latestId_some {contractId jobId : Uuid} (h : latestId s contractId = some jobId) :
    ∃ job, s.db.jobs jobId = some job ∧ job.contractId = contractId := by
  unfold latestId at h
  have hany := List.find?_some h
  obtain ⟨job, hjob, hcontract⟩ := (Option.any_eq_true _ _).1 hany
  exact ⟨job, hjob, of_decide_eq_true hcontract⟩

theorem latestId_congr (hcreated : t.created = s.created)
    (hjobs : ∀ id, (t.db.jobs id).map (·.contractId) = (s.db.jobs id).map (·.contractId))
    (contractId : Uuid) : latestId t contractId = latestId s contractId := by
  unfold latestId
  rw [hcreated]
  congr 1
  funext id
  have hany : ∀ o : Option ProcessingJob, o.any (·.contractId = contractId) =
      (o.map (·.contractId)).any (· = contractId) := by
    intro o
    cases o <;> rfl
  rw [hany, hany, hjobs]

def Current (s : State) (contractId : Uuid) : Prop :=
  ∀ contract ∈ s.db.contracts contractId, pending contract.status = true →
    ∃ jobId job, latestId s contractId = some jobId ∧ s.db.jobs jobId = some job ∧
      job.state.isTerminal = false

/-- Rows are under their keys, messages belong to the contract of their job, a contract that is
queued has a live latest job, and failed jobs have their record. -/
structure Inv (s : State) : Prop where
  jobIds : ∀ id job, s.db.jobs id = some job → job.id = id
  contractIds : ∀ id contract, s.db.contracts id = some contract → contract.id = id
  owned : ∀ message ∈ s.inflight, ∀ job, s.db.jobs message.jobId = some job →
    job.contractId = message.contractId
  known : ∀ message ∈ s.inflight, (s.db.jobs message.jobId).isSome = true
  current : ∀ contractId, Current s contractId
  recorded : ∀ id job, s.db.jobs id = some job → job.recorded

theorem inv_init : Inv {} := by
  constructor <;> simp [Current]

theorem Inv.mapJobs (h : Inv s) {f : Uuid → ProcessingJob → ProcessingJob}
    (hf : ∀ id j, (f id j).id = j.id ∧ (f id j).contractId = j.contractId)
    (hrecorded : ∀ id j, s.db.jobs id = some j → (f id j).recorded)
    (hwaiting : ∀ id j, s.db.jobs id = some j → Waiting s id → j.state.isTerminal = false →
      (f id j).state.isTerminal = false) :
    Inv { s with db := { s.db with jobs := fun id => (s.db.jobs id).map (f id) } } where
  jobIds id job hjob := by
    obtain ⟨j, hj, rfl⟩ := Option.map_eq_some_iff.1 hjob
    exact (hf id j).1.trans (h.jobIds id j hj)
  contractIds := h.contractIds
  owned message hmessage job hjob := by
    obtain ⟨j, hj, rfl⟩ := Option.map_eq_some_iff.1 hjob
    exact (hf _ j).2.trans (h.owned message hmessage j hj)
  known message hmessage := by
    rw [Option.isSome_map]
    exact h.known message hmessage
  current contractId contract hcontract hpending := by
    obtain ⟨jobId, job, hlatest, hjob, hlive⟩ := h.current contractId contract hcontract hpending
    refine ⟨jobId, f jobId job, ?_, by simp [hjob], hwaiting jobId job hjob ?_ hlive⟩
    · rw [← hlatest]
      refine latestId_congr (s := s) (by rfl) (fun id => ?_) contractId
      simp [Option.map_map, Function.comp_def, (hf id _).2]
    · obtain ⟨job', hjob', hof⟩ := latestId_some hlatest
      cases hjob.symm.trans hjob'
      exact ⟨job, hjob, contract, hof ▸ hcontract, hpending, hof ▸ hlatest⟩
  recorded id job hjob := by
    obtain ⟨j, hj, rfl⟩ := Option.map_eq_some_iff.1 hjob
    exact hrecorded id j hj

theorem updateJob_eq_map (db : Db) (jobId : Uuid) (f : ProcessingJob → ProcessingJob) :
    db.updateJob jobId f = { db with
      jobs := fun id => (db.jobs id).map fun j => if id = jobId then f j else j } := by
  unfold Db.updateJob
  congr 1
  funext id
  by_cases hid : id = jobId
  · subst hid
    simp
  · simp [hid]

theorem Inv.updateJob (h : Inv s) {jobId : Uuid} {f : ProcessingJob → ProcessingJob}
    (hf : ∀ j, (f j).id = j.id ∧ (f j).contractId = j.contractId)
    (hrecorded : ∀ j, (f j).recorded) (hwaiting : ¬ Waiting s jobId) :
    Inv { s with db := s.db.updateJob jobId f } := by
  rw [updateJob_eq_map]
  refine h.mapJobs (fun id j => ?_) (fun id j hj => ?_) fun id j hj hwaits hlive => ?_
  · split
    · exact hf j
    · exact ⟨rfl, rfl⟩
  · split
    · exact hrecorded j
    · exact h.recorded id j hj
  · split
    next hid =>
      subst hid
      exact absurd hwaits hwaiting
    next => exact hlive

/-! ## New jobs -/

theorem Inv.enqueue {job : ProcessingJob} {message : StageMessage} {now : Timestamp}
    (hjobIds : ∀ id job, s.db.jobs id = some job → job.id = id)
    (hcontractIds : ∀ id contract, s.db.contracts id = some contract → contract.id = id)
    (howned : ∀ message ∈ s.inflight, ∀ job, s.db.jobs message.jobId = some job →
      job.contractId = message.contractId)
    (hknown : ∀ message ∈ s.inflight, (s.db.jobs message.jobId).isSome = true)
    (hcurrent : ∀ id, id ≠ job.contractId → Current s id)
    (hrecorded : ∀ id job, s.db.jobs id = some job → job.recorded)
    (hid : job.id = message.jobId) (hof : message.contractId = job.contractId)
    (hqueued : job.state = .queued) (hfresh : s.db.jobs message.jobId = none) :
    Inv (Standing.enqueue s job message true now) := by
  have hself : (Standing.enqueue s job message true now).db.jobs message.jobId = some job :=
    Function.update_self ..
  have hother : ∀ id, id ≠ message.jobId →
      (Standing.enqueue s job message true now).db.jobs id = s.db.jobs id := fun id hne =>
    Function.update_of_ne hne ..
  have hmem : ∀ m ∈ s.inflight, m.jobId ≠ message.jobId := by
    intro m hm heq
    have := hknown m hm
    rw [heq, hfresh] at this
    cases this
  refine ⟨fun id j hj => ?_, hcontractIds, fun m hm j hj => ?_, fun m hm => ?_, fun cid => ?_,
    fun id j hj => ?_⟩
  · by_cases hne : id = message.jobId
    · subst hne
      cases hself.symm.trans hj
      exact hid
    · exact hjobIds id j ((hother id hne).symm.trans hj)
  · rcases List.mem_append.1 hm with hm | hm
    · exact howned m hm j ((hother _ (hmem m hm)).symm.trans hj)
    · cases List.mem_singleton.1 hm
      cases hself.symm.trans hj
      exact hof.symm
  · rcases List.mem_append.1 hm with hm | hm
    · rw [hother _ (hmem m hm)]
      exact hknown m hm
    · cases List.mem_singleton.1 hm
      rw [hself]
      rfl
  · intro contract hcontract hpending
    by_cases hcid : cid = job.contractId
    · subst hcid
      refine ⟨message.jobId, job, ?_, hself, by rw [hqueued]; rfl⟩
      refine List.find?_cons_of_pos ?_
      rw [hself]
      simp
    · obtain ⟨jobId, job', hlatest, hjob', hlive⟩ := hcurrent cid hcid contract hcontract hpending
      have hne : jobId ≠ message.jobId := by
        rintro rfl
        cases hfresh.symm.trans hjob'
      refine ⟨jobId, job', ?_, (hother jobId hne).trans hjob', hlive⟩
      rw [← hlatest]
      refine (List.find?_cons_of_neg ?_).trans ?_
      · rw [hself]
        simpa using Ne.symm hcid
      · unfold latestId
        congr 1
        funext id
        by_cases hne' : id = message.jobId
        · subst hne'
          rw [hself, hfresh]
          simpa using Ne.symm hcid
        · rw [hother id hne']
  · by_cases hne : id = message.jobId
    · subst hne
      cases hself.symm.trans hj
      intro hfailed
      rw [hqueued] at hfailed
      cases hfailed
    · exact hrecorded id j ((hother id hne).symm.trans hj)

theorem submit_some {jobId : Uuid} {dispatchId : String} {request : Pipeline.Request}
    {accepted : Bool} {now : Timestamp} (h : submit s jobId dispatchId request accepted now = some t) :
    ∃ job message, Pipeline.submission s.db jobId dispatchId now request = some (job, message) ∧
      job.id = message.jobId ∧ message.contractId = job.contractId ∧ job.state = .queued ∧
      s.db.jobs message.jobId = none ∧ t = enqueue s job message accepted now := by
  obtain ⟨⟨job, message⟩, hsubmission, h⟩ := Option.bind_eq_some_iff.1 h
  obtain ⟨⟨hfree, -⟩, h⟩ := Option.ite_none_right_eq_some.1 h
  obtain ⟨hjob, -, hmessage, hof, -⟩ := Pipeline.submission_ok hsubmission
  refine ⟨job, message, hsubmission, hjob.trans hmessage.symm, hof, ?_, ?_,
    (Option.some.inj h).symm⟩
  · unfold Pipeline.submission at hsubmission
    cases request with
    | retry failedId =>
      dsimp only at hsubmission
      split at hsubmission
      · cases hsubmission
      · obtain ⟨-, hsubmission⟩ := Option.ite_none_right_eq_some.1 hsubmission
        cases hsubmission
        rfl
    | _ =>
      cases hsubmission
      rfl
  · rw [hmessage]
    exact Option.isNone_iff_eq_none.1 hfree

/-! ## Steps -/

/-- No latest job of a contract that is queued is ended but by its own stage, and the sweep ends
only jobs that have a record from an earlier failure. -/
def Settling (s : State) : Action Payload → Prop
  | .upload _ _ _ _ accepted _ => accepted = true
  | .addVersion _ _ _ _ accepted _ => accepted = true
  | .submit .. => True
  | .deliver message call => call.accepted = true ∨ ¬ Waiting s message.jobId
  | .cancel jobId _ => ¬ Waiting s jobId
  | .sweep timeoutMinutes now => ∀ id job, s.db.jobs id = some job →
      job.isStalled timeoutMinutes now = true →
        ¬ Waiting s id ∧ job.error.isSome = true ∧ job.finishedAt.isSome = true

theorem Inv.submit {jobId : Uuid} {dispatchId : String} {request : Pipeline.Request}
    {now : Timestamp} (hs : Inv s)
    (h : Standing.submit s jobId dispatchId request true now = some t) : Inv t := by
  obtain ⟨job, message, -, hid, hof, hqueued, hfresh, rfl⟩ := submit_some h
  exact .enqueue hs.jobIds hs.contractIds hs.owned hs.known (fun cid _ => hs.current cid)
    hs.recorded hid hof hqueued hfresh

theorem Inv.upload {jobId : Uuid} {dispatchId : String} {priority : JobPriority} {now : Timestamp}
    {isReprocess : Bool} {contractId projectId : Uuid} {db : Db} (hs : Inv s)
    (h : Standing.submit { s with db } jobId dispatchId
      (.upload contractId projectId priority isReprocess) true now = some t)
    (hjobs : db.jobs = s.db.jobs)
    (hcontractIds : ∀ id contract, db.contracts id = some contract → contract.id = id)
    (hother : ∀ id, id ≠ contractId → db.contracts id = s.db.contracts id) : Inv t := by
  obtain ⟨job, message, hsubmission, hid, hof, hqueued, hfresh, rfl⟩ := submit_some h
  obtain rfl : contractId = job.contractId := by
    cases hsubmission
    rfl
  refine .enqueue (fun id j hj => hs.jobIds id j (hjobs ▸ hj)) hcontractIds
    (fun m hm j hj => hs.owned m hm j (hjobs ▸ hj)) (fun m hm => hjobs ▸ hs.known m hm) ?_
    (fun id j hj => hs.recorded id j (hjobs ▸ hj)) hid hof hqueued hfresh
  intro cid hcid contract hcontract hpending
  obtain ⟨latest, j, hlatest, hj, hlive⟩ :=
    hs.current cid contract ((hother cid hcid).symm.trans hcontract) hpending
  refine ⟨latest, j, ?_, hjobs ▸ hj, hlive⟩
  rw [← hlatest]
  exact latestId_congr (s := s) (by rfl) (fun id => by rw [hjobs]) cid

theorem Inv.executed {call : StageCall Payload} {message : StageMessage} {db : Db}
    {outcome : StageOutcome} (hs : Inv s) (hmem : message ∈ s.inflight)
    (h : Runner.execute call s.db message = .ok (db, outcome)) : Inv { s with db } := by
  have hexec := Runner.execute_cases h
  have hframe := hexec.frame fun job hjob => hs.jobIds _ job hjob
  have hcontracts : ∀ id, (db.jobs id).map (·.contractId) =
      (s.db.jobs id).map (·.contractId) := by
    intro id
    by_cases hid : id = message.jobId
    · subst hid
      have := congrArg (Option.map (·.2)) hframe.job
      simpa [Option.map_map, Function.comp_def] using this
    · rw [hframe.jobs id hid]
  have hlatest : ∀ cid, latestId { s with db } cid = latestId s cid :=
    fun cid => latestId_congr (s := s) (by rfl) hcontracts cid
  have heffect := hexec.effect (fun job hjob => hs.jobIds _ job hjob)
    fun c hc => hs.contractIds _ c hc
  -- A contract that is queued after the call was queued before it, and its job is not ended.
  have hcurrent : ∀ cid, Current { s with db } cid := by
    intro cid contract hcontract hpending
    have hstatus : Runner.contractStatus db cid = some contract.status := by
      unfold Runner.contractStatus
      rw [show db.contracts cid = some contract from hcontract]
      rfl
    have hbefore : Runner.contractStatus s.db cid = some contract.status ∧
        (Runner.Going s.db db message.jobId ∨ cid ≠ message.contractId) := by
      rcases heffect with hgoing | ⟨-, -, hended⟩
      · exact ⟨(hgoing.status cid).symm.trans hstatus, .inl hgoing⟩
      · have hcid : cid ≠ message.contractId := by
          rintro rfl
          rw [hended.settled _ hstatus] at hpending
          cases hpending
        exact ⟨(hended.status cid hcid).symm.trans hstatus, .inr hcid⟩
    obtain ⟨before, hbeforeRow, heq⟩ := Option.map_eq_some_iff.1 hbefore.1
    obtain ⟨jobId, job, hjobLatest, hjob, hlive⟩ :=
      hs.current cid before hbeforeRow (heq ▸ hpending)
    obtain ⟨job', hjob', hof⟩ := latestId_some hjobLatest
    cases hjob.symm.trans hjob'
    by_cases hid : jobId = message.jobId
    · subst hid
      rcases hbefore.2 with hgoing | hcid
      · have hsome : (db.jobs message.jobId).isSome = true := by
          have := congrArg Option.isSome (hcontracts message.jobId)
          simpa [hjob] using this
        obtain ⟨after, hafter⟩ := Option.isSome_iff_exists.1 hsome
        refine ⟨message.jobId, after, (hlatest cid).trans hjobLatest, hafter, ?_⟩
        rcases hgoing.job after hafter with hlive' | ⟨j₀, hj₀, hstate, -, -⟩
        · exact hlive'
        · cases hjob.symm.trans hj₀
          rw [hstate]
          exact hlive
      · exact absurd (hof.symm.trans (hs.owned message hmem job hjob)) hcid
    · exact ⟨jobId, job, (hlatest cid).trans hjobLatest, (hframe.jobs jobId hid).trans hjob, hlive⟩
  refine ⟨fun id j hj => ?_, fun id c hc => ?_, fun m hm j hj => ?_, fun m hm => ?_, hcurrent,
    fun id j hj => ?_⟩
  · obtain ⟨j', hj', hid, -⟩ := hframe.job_of hj
    exact hid.trans (hs.jobIds id j' hj')
  · obtain ⟨c', hc', hid⟩ := hframe.contract_of hc
    exact hid.trans (hs.contractIds id c' hc')
  · obtain ⟨j', hj', -, hof⟩ := hframe.job_of hj
    exact hof.trans (hs.owned m hm j' hj')
  · have := congrArg Option.isSome (hcontracts m.jobId)
    rw [Option.isSome_map, Option.isSome_map] at this
    exact this.trans (hs.known m hm)
  · by_cases hid : id = message.jobId
    · subst hid
      rcases heffect with hgoing | ⟨-, -, hended⟩
      · rcases hgoing.job j hj with hlive | ⟨j₀, hj₀, hstate, herror, hfinished⟩
        · intro hfailed
          rw [hfailed] at hlive
          cases hlive
        · intro hfailed
          rw [herror, hfinished]
          exact hs.recorded _ j₀ hj₀ (hstate ▸ hfailed)
      · exact hended.recorded j hj
    · exact hs.recorded id j ((hframe.jobs id hid).symm.trans hj)

/-- Messages that follow others leave the invariant. -/
theorem Inv.requeue (h : Inv s) {l : List StageMessage}
    (hl : ∀ m ∈ l, ∃ m₀ ∈ s.inflight, m.jobId = m₀.jobId ∧ m.contractId = m₀.contractId) :
    Inv { s with inflight := l } where
  jobIds := h.jobIds
  contractIds := h.contractIds
  owned m hm job hjob := by
    obtain ⟨m₀, hm₀, hid, hof⟩ := hl m hm
    rw [hof]
    exact h.owned m₀ hm₀ job (hid ▸ hjob)
  known m hm := by
    obtain ⟨m₀, hm₀, hid, -⟩ := hl m hm
    rw [hid]
    exact h.known m₀ hm₀
  current := h.current
  recorded := h.recorded

theorem not_waiting_executed {call : StageCall Payload} {message : StageMessage} {db : Db}
    {outcome : StageOutcome} {dispatchId : String} (hs : Inv s)
    (h : Runner.execute call s.db message = .ok (db, outcome))
    (hnext : Runner.dispatches message outcome dispatchId ≠ none)
    (hwaiting : ¬ Waiting s message.jobId) : ¬ Waiting { s with db } message.jobId := by
  have hexec := Runner.execute_cases h
  have hframe := hexec.frame fun job hjob => hs.jobIds _ job hjob
  have hgoing : Runner.Going s.db db message.jobId := by
    rcases hexec.effect (fun job hjob => hs.jobIds _ job hjob)
      fun c hc => hs.contractIds _ c hc with hgoing | ⟨hnone, hretry, -⟩
    · exact hgoing
    · refine absurd ?_ hnext
      simp [Runner.dispatches, hnone, hretry]
  rintro ⟨job, hjob, contract, hcontract, hpending, hlatest⟩
  obtain ⟨job₀, hjob₀, -, hof⟩ := hframe.job_of hjob
  have hstatus := (hgoing.status job.contractId).symm
  unfold Runner.contractStatus at hstatus
  rw [show db.contracts job.contractId = some contract from hcontract] at hstatus
  rw [Option.map_some] at hstatus
  obtain ⟨contract₀, hcontract₀, heq⟩ := Option.map_eq_some_iff.1 hstatus
  refine hwaiting ⟨job₀, hjob₀, contract₀, hof ▸ hcontract₀, heq ▸ hpending, ?_⟩
  rw [← hof, ← hlatest]
  refine (latestId_congr (s := s) (by rfl) (fun id => ?_) _).symm
  by_cases hid : id = message.jobId
  · subst hid
    have := congrArg (Option.map (·.2)) hframe.job
    simpa [Option.map_map, Function.comp_def] using this
  · exact congrArg _ (hframe.jobs id hid)

theorem Inv.deliver {call : StageCall Payload} {message : StageMessage} (hs : Inv s)
    (hG : call.accepted = true ∨ ¬ Waiting s message.jobId)
    (h : step s (.deliver message call) = some t) : Inv t := by
  obtain ⟨hmem, h⟩ := Option.ite_none_right_eq_some.1 h
  split at h
  · cases h
    exact hs
  next db outcome queued hrun =>
    cases h
    obtain ⟨executed, hexec, hcases⟩ := Runner.runStage_cases hrun
    have hexecuted : Inv { s with db := executed } := hs.executed hmem hexec
    have hkeep : ∀ m ∈ s.inflight.erase message, ∃ m₀ ∈ s.inflight, m.jobId = m₀.jobId ∧
        m.contractId = m₀.contractId := fun m hm => ⟨m, List.mem_of_mem_erase hm, rfl, rfl⟩
    rcases hcases with ⟨rfl, rfl⟩ | ⟨next, error, hrefused, rfl, hsent, rfl⟩
    · refine hexecuted.requeue fun m hm => ?_
      rcases List.mem_append.1 hm with hm | hm
      · exact hkeep m hm
      · obtain ⟨⟨sent, delayMs⟩, hsent, rfl⟩ := Option.map_eq_some_iff.1 (Option.mem_toList.1 hm)
        obtain ⟨hid, hof, -⟩ := Runner.dispatches_some hsent
        exact ⟨message, hmem, hid, hof⟩
    · have hfree : ¬ Waiting s message.jobId := hG.resolve_left (by simp [hrefused])
      have hnot := not_waiting_executed hs hexec (by rw [hsent]; exact Option.some_ne_none _) hfree
      have hfailed := hexecuted.updateJob
        (f := .markFailed next.1.stage error call.finishedAt) (fun _ => ⟨rfl, rfl⟩)
        (fun j => ProcessingJob.recorded_markFailed _ _ _ j) hnot
      refine hfailed.requeue fun m hm => ?_
      rcases List.mem_append.1 hm with hm | hm
      · exact hkeep m hm
      · cases hm

theorem Inv.step {a : Action Payload} (hs : Inv s) (hG : Settling s a)
    (h : Standing.step s a = some t) : Inv t := by
  cases a with
  | upload contract jobId dispatchId priority accepted now =>
    cases (show accepted = true from hG)
    obtain ⟨hfresh, h⟩ := Option.ite_none_right_eq_some.1 h
    refine hs.upload h rfl (fun id c hc => ?_) (fun id hid => ?_)
    · by_cases hid : id = contract.id
      · subst hid
        cases (Function.update_self contract.id _ s.db.contracts).symm.trans hc
        rfl
      · exact hs.contractIds id c ((Function.update_of_ne hid ..).symm.trans hc)
    · exact Function.update_of_ne hid ..
  | addVersion contractId jobId dispatchId priority accepted now =>
    cases (show accepted = true from hG)
    obtain ⟨contract, hcontract, h⟩ := Option.bind_eq_some_iff.1 h
    refine hs.upload h rfl (fun id c hc => ?_) (fun id hid => ?_)
    · by_cases hid : id = contractId
      · subst hid
        simp only [Db.updateContract, Function.update_self] at hc
        obtain ⟨c₀, hc₀, rfl⟩ := Option.map_eq_some_iff.1 hc
        exact hs.contractIds _ c₀ hc₀
      · exact hs.contractIds id c ((Function.update_of_ne hid ..).symm.trans hc)
    · exact Function.update_of_ne hid ..
  | submit jobId dispatchId request now =>
    obtain ⟨-, h⟩ := Option.ite_none_left_eq_some.1 h
    exact hs.submit h
  | deliver message call => exact hs.deliver hG h
  | cancel jobId now =>
    simp only [Standing.step] at h
    split at h
    · cases h
    · obtain ⟨-, h⟩ := Option.ite_none_left_eq_some.1 h
      cases h
      exact hs.updateJob (fun _ => ⟨rfl, rfl⟩) (fun _ hfailed => by cases hfailed) hG
  | sweep timeoutMinutes now =>
    cases h
    refine hs.mapJobs (fun id j => ?_) (fun id j hj => ?_) fun id j hj hwaits hlive => ?_
    · split <;> exact ⟨rfl, rfl⟩
    · split
      next hstalled => exact fun _ => (hG id j hj hstalled).2
      next => exact hs.recorded id j hj
    · split
      next hstalled => exact absurd hwaits (hG id j hj hstalled).1
      next => exact hlive

/-! ## Agreement -/

structure Agrees (s : State) : Prop where
  ended : ∀ contractId contract jobId job, s.db.contracts contractId = some contract →
    latestId s contractId = some jobId → s.db.jobs jobId = some job →
      job.state = .failed ∨ job.state = .cancelled → pending contract.status = false
  recorded : ∀ jobId job, s.db.jobs jobId = some job → job.recorded
  moving : ∀ contractId contract, s.db.contracts contractId = some contract →
    pending contract.status = true → ∃ jobId job, s.db.jobs jobId = some job ∧
      job.contractId = contractId ∧ job.state.isTerminal = false

theorem Inv.agrees (h : Inv s) : Agrees s where
  ended contractId contract jobId job hcontract hlatest hjob hstate := by
    by_contra hpending
    obtain ⟨jobId', job', hlatest', hjob', hlive⟩ :=
      h.current contractId contract hcontract (Bool.not_eq_false _ ▸ hpending)
    cases hlatest.symm.trans hlatest'
    cases hjob.symm.trans hjob'
    rcases hstate with hstate | hstate <;> rw [hstate] at hlive <;> cases hlive
  recorded := h.recorded
  moving contractId contract hcontract hpending := by
    obtain ⟨jobId, job, hlatest, hjob, hlive⟩ := h.current contractId contract hcontract hpending
    obtain ⟨job', hjob', hof⟩ := latestId_some hlatest
    cases hjob.symm.trans hjob'
    exact ⟨jobId, job, hjob, hof, hlive⟩

/-- **Contracts agree with their jobs** in every run in which a job that a queued contract waits for
is ended by its own stage only. -/
theorem agrees_of_settling (hs : (machine Payload).ReachIf Settling s) : Agrees s := by
  have hinv : (machine Payload).Invariant Settling Inv :=
    { init := fun s h => by
        cases h
        exact inv_init
      step := fun s a t hs hG h => hs.step hG h }
  exact (hinv.reach hs).agrees

namespace Sample

/-- Contract 1 is uploaded with job 10, whose first stage has succeeded. -/
def validated : List (Action Unit) :=
  [.upload { id := 1, projectId := 2 } 10 "" .normal true 0,
    .deliver (Pipeline.Sample.message 10 [] .validation) (Pipeline.Sample.call 100 10 (.ok {}))]

def failing : StageCall Unit := Pipeline.Sample.call 101 20 (.error (.other "ValueError"))

end Sample

/-- A retry of the failed job can be cancelled: its contract is shown as failed. -/
theorem cancelled_retry : ∃ s, (machine Unit).ReachIf Settling s ∧ latestId s 1 = some 11 ∧
    Agrees s := by
  have hrun : ((machine Unit).exec {} Sample.validated).any (fun s =>
      ((machine Unit).exec s
        [.deliver (Pipeline.Sample.message 10 [] .parser) { Sample.failing with
            settings := { maxAttempts := 1 } },
          .submit 11 "" (.retry 10) 30]).any fun t =>
        ¬ Waiting t 11 ∧ ((machine Unit).step t (.cancel 11 40)).any fun u =>
          latestId u 1 = some 11) = true := by decide +kernel
  obtain ⟨s, hs, hrun⟩ := (Option.any_eq_true _ _).1 hrun
  obtain ⟨t, ht, hrun⟩ := (Option.any_eq_true _ _).1 hrun
  obtain ⟨hwaiting, hrun⟩ := of_decide_eq_true hrun
  obtain ⟨u, hu, hlatest⟩ := (Option.any_eq_true _ _).1 hrun
  obtain ⟨s₁, hs₁, hs⟩ := Option.bind_eq_some_iff.1 hs
  obtain ⟨s₂, hs₂, hs⟩ := Option.bind_eq_some_iff.1 hs
  cases hs
  obtain ⟨s₃, hs₃, ht⟩ := Option.bind_eq_some_iff.1 ht
  obtain ⟨s₄, hs₄, ht⟩ := Option.bind_eq_some_iff.1 ht
  cases ht
  have huploaded : (machine Unit).ReachIf Settling s := by
    refine ⟨{}, rfl, Machine.Run.tail (.single ?_ hs₁) ?_ hs₂⟩
    · exact rfl
    · exact .inl rfl
  have hfailed : (machine Unit).ReachIf Settling t := by
    refine huploaded.run (.tail (.single ?_ hs₃) ?_ hs₄)
    · exact .inl rfl
    · trivial
  have hreach : (machine Unit).ReachIf Settling u := by
    refine hfailed.run (.single ?_ hu)
    exact hwaiting
  exact ⟨u, hreach, of_decide_eq_true hlatest, agrees_of_settling hreach⟩

/-- The sweep fails the job without its record, and the contract stays queued. -/
theorem swept_uploaded : ∃ s job contract, (machine Unit).Reach s ∧ latestId s 1 = some 10 ∧
    s.db.jobs 10 = some job ∧ job.state = .failed ∧ job.error = none ∧ job.finishedAt = none ∧
    s.db.contracts 1 = some contract ∧ contract.status = .uploaded ∧ ¬ Agrees s := by
  have hrun : ((machine Unit).exec {} (Sample.validated ++ [.sweep 45 3000000000])).any (fun s =>
      latestId s 1 = some 10 ∧ (s.db.contracts 1).any (·.status = .uploaded) ∧
        (s.db.jobs 10).any fun job =>
          job.state = .failed ∧ job.error = none ∧ job.finishedAt = none) = true := by
    decide +kernel
  obtain ⟨s, hs, hrun⟩ := (Option.any_eq_true _ _).1 hrun
  obtain ⟨hlatest, hcontract, hjob⟩ := of_decide_eq_true hrun
  obtain ⟨contract, hcontract, hstatus⟩ := (Option.any_eq_true _ _).1 hcontract
  obtain ⟨job, hjob, hended⟩ := (Option.any_eq_true _ _).1 hjob
  obtain ⟨hstate, herror, hfinished⟩ := of_decide_eq_true hended
  refine ⟨s, job, contract, Machine.reach_of_exec rfl hs, hlatest, hjob, hstate, herror, hfinished,
    hcontract, of_decide_eq_true hstatus, fun hagrees => ?_⟩
  have := (hagrees.recorded 10 job hjob hstate).1
  rw [herror] at this
  cases this

end Standing

end Clear
