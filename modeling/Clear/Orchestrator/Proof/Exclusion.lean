import Clear.Lib.Pool
import Clear.Orchestrator.Proof.Stranded

/-!
# One pipeline per contract

The lock on the job row keeps the handlers of one job apart (`Held`). Nothing keeps two jobs of a
contract apart: no request looks for a job that is active. A job is `Finished` when it is terminal
and nothing is left that could take it up again. As long as requests that start or resume a job come
while the other jobs of its contract are finished (`Serial`), a contract has at most one live job
and at most one handler that runs (`exclusive_of_serial`); else it can have two of each
(`retried_twice`).
-/

/-!
## The pipelines of a deployment

Every job has the life of `Lifecycle.machine`, and the jobs take their steps in any order. A request
creates a job with its message, or sends a message for a job that exists: the upload of a document
(of a new contract, or as a new version of one that exists), `reprocess_contract`, `retry_job`, the
reindexing of a contract, and the `reprocess` command of the CLI.

`contractOf` is the contract that the id of a job is drawn for. Each job has its own view of the
deletion of its contract.
-/

namespace Clear

namespace Pipelines

abbrev State := Uuid → Lifecycle.State

inductive Request where
  | upload (newId contractId projectId : Uuid) (priority : JobPriority) (existing : Bool)
      (now : Timestamp)
  | reprocess (newId contractId projectId : Uuid) (fromStage : PipelineStage)
      (priority : JobPriority) (options : JsonDict) (force : Bool) (now : Timestamp)
  | retry (jobId newId : Uuid) (now : Timestamp)
  | reindex (newId contractId projectId : Uuid) (targetModel : String) (now : Timestamp)
  | cli (jobId : Uuid) (stage : PipelineStage)

def upload (newId contractId projectId : Uuid) (priority : JobPriority) (existing : Bool)
    (now : Timestamp) : Lifecycle.Action :=
  .create (ProcessingJob.createJob newId contractId projectId priority existing none now)
    { jobId := newId
      contractId
      projectId
      stage := .validation
      priority }

def enqueueReprocess (newId contractId projectId : Uuid) (fromStage : PipelineStage)
    (priority : JobPriority) (options : JsonDict) (now : Timestamp) : Lifecycle.Action :=
  .create (ProcessingJob.createJob newId contractId projectId priority true (some fromStage) now)
    { jobId := newId
      contractId
      projectId
      stage := fromStage
      priority
      options }

def reprocess (newId contractId projectId : Uuid) (fromStage : PipelineStage)
    (priority : JobPriority) (options : JsonDict) (force : Bool) (now : Timestamp) :
    Lifecycle.Action :=
  enqueueReprocess newId contractId projectId fromStage priority
    (("force", .bool force) :: options.filter (·.1 ≠ "force")) now

def retryable (state : JobState) : Bool := state ∈ [.failed, .cancelled]

def retry (job : ProcessingJob) (newId : Uuid) (now : Timestamp) : Option Lifecycle.Action :=
  if retryable job.state then
    some (enqueueReprocess newId job.contractId job.projectId
      (job.currentStage.getD .validation) job.priority [("force", .bool true)] now)
  else none

def reindex (newId contractId projectId : Uuid) (targetModel : String) (now : Timestamp) :
    Lifecycle.Action :=
  .create (ProcessingJob.createJob newId contractId projectId .low true (some .embedding) now)
    { jobId := newId
      contractId
      projectId
      stage := .embedding
      priority := .low
      options := [("reason", .str "embedding_model_change"), ("target_model", .str targetModel)] }

/-- The `reprocess` command. -/
def cli (job : ProcessingJob) (stage : PipelineStage) : Lifecycle.Action :=
  .replay
    { jobId := job.id
      contractId := job.contractId
      projectId := job.projectId
      stage
      options := [("force", .bool true)] }

def entry (s : State) : Request → Option (Uuid × Lifecycle.Action)
  | .upload newId contractId projectId priority existing now =>
    some (newId, upload newId contractId projectId priority existing now)
  | .reprocess newId contractId projectId fromStage priority options force now =>
    some (newId, reprocess newId contractId projectId fromStage priority options force now)
  | .retry jobId newId now => do
    let job ← (s jobId).row
    let action ← retry job newId now
    return (newId, action)
  | .reindex newId contractId projectId targetModel now =>
    some (newId, reindex newId contractId projectId targetModel now)
  | .cli jobId stage => do
    let job ← (s jobId).row
    return (jobId, cli job stage)

inductive Action where
  | request (request : Request)
  /-- Any other step of a job. -/
  | job (jobId : Uuid) (action : Lifecycle.Action)

/-- The step starts or resumes a pipeline. -/
def isEntry : Lifecycle.Action → Bool
  | .create .. => true
  | .replay _ => true
  | _ => false

def drawnFor (contractOf : Uuid → Uuid) (jobId : Uuid) : Lifecycle.Action → Bool
  | .create job _ => job.contractId = contractOf jobId
  | _ => true

def step (driver : Lifecycle.Driver) (settings : QueueSettings) (contractOf : Uuid → Uuid)
    (s : State) : Action → Option State
  | .request request =>
    (entry s request).bind fun e =>
      if drawnFor contractOf e.1 e.2 then Pool.step (Lifecycle.machine driver settings) s e
      else none
  | .job jobId action =>
    if isEntry action then none
    else Pool.step (Lifecycle.machine driver settings) s (jobId, action)

def machine (driver : Lifecycle.Driver) (settings : QueueSettings) (contractOf : Uuid → Uuid) :
    Machine State Action where
  init s := ∀ jobId, s jobId = {}
  step := step driver settings contractOf

end Pipelines

end Clear

namespace Clear

namespace Lifecycle

variable {driver : Driver} {settings : QueueSettings} {s s' : State} {a : Action}

/-! ## The lock and the contract of a job -/

/-- The uncommitted version of the job that a handler runs on. -/
def Phase.handled : Phase → Option ProcessingJob
  | .running job => some job
  | _ => none

theorem Phase.holdsLock_of_handled {phase : Phase} {job : ProcessingJob}
    (h : job ∈ phase.handled) : phase.holdsLock = true := by
  cases phase with
  | running _ => rfl
  | _ => cases h

structure Held (contractId : Uuid) (s : State) : Prop where
  draft : ∀ d ∈ s.draft, d.job.contractId = contractId
  row : ∀ job ∈ s.row, job.contractId = contractId
  running : ∀ a ∈ s.workers, ∀ job ∈ a.phase.handled, job.contractId = contractId
  once : ∀ (w w' : Nat) (a b : Activation), s.workers[w]? = some a → s.workers[w']? = some b →
    a.phase.holdsLock = true → b.phase.holdsLock = true → w = w'

def Created (contractId : Uuid) (_ : State) : Action → Prop
  | .create job _ => job.contractId = contractId
  | _ => True

section
variable {contractId : Uuid} {w : Nat} {e : Envelope} {phase : Phase}

theorem held_init : Held contractId {} := by
  constructor <;> simp

theorem Held.of_workers {t : State} (h : Held contractId s)
    (hdraft : ∀ d ∈ t.draft, d.job.contractId = contractId)
    (hrow : ∀ job ∈ t.row, job.contractId = contractId) (hworkers : t.workers = s.workers) :
    Held contractId t where
  draft := hdraft
  row := hrow
  running := hworkers ▸ h.running
  once := hworkers ▸ h.once

theorem Held.update {f : ProcessingJob → ProcessingJob} (h : Held contractId s)
    (hf : ∀ job, job.contractId = contractId → (f job).contractId = contractId) :
    Held contractId (s.update f) :=
  h.of_workers h.draft
    (fun job hjob => by
      obtain ⟨before, hbefore, rfl⟩ := Option.map_eq_some_iff.1 hjob
      exact hf before (h.row before hbefore)) rfl

theorem Held.sendIf {visible : Bool} (h : Held contractId s) :
    Held contractId (s.sendIf visible e) :=
  h.of_workers (by simpa using h.draft) (by simpa using h.row) (by simp)

theorem Held.advance (h : Held contractId s)
    (hphase : phase.holdsLock = false ∨
      s.unlocked = true ∧ ∀ job ∈ phase.handled, job.contractId = contractId) :
    Held contractId (s.advance w e phase) where
  draft := h.draft
  row := h.row
  running a ha job hjob := by
    rcases List.mem_or_eq_of_mem_set ha with ha | rfl
    · exact h.running a ha job hjob
    · rcases hphase with hfree | ⟨-, hcontract⟩
      · cases hfree.symm.trans (Phase.holdsLock_of_handled hjob)
      · exact hcontract job hjob
  once i j a b hi hj ha hb := by
    have hother : ∀ k c, k ≠ w → (s.workers.set w ⟨e, phase⟩)[k]? = some c →
        s.workers[k]? = some c := by
      intro k c hk hc
      rwa [List.getElem?_set_ne (Ne.symm hk)] at hc
    have hself : ∀ c, (s.workers.set w ⟨e, phase⟩)[w]? = some c → c.phase = phase := by
      intro c hc
      rw [List.getElem?_set_self'] at hc
      obtain ⟨-, -, rfl⟩ := Option.map_eq_some_iff.1 hc
      rfl
    -- Another worker holds the lock only if the phase does not, and then nobody but that worker.
    have hfree : ∀ k c, k ≠ w → (s.workers.set w ⟨e, phase⟩)[k]? = some c →
        c.phase.holdsLock = true → phase.holdsLock = false := by
      intro k c hk hc hheld
      rcases hphase with hfree | ⟨hlock, -⟩
      · exact hfree
      · have := List.all_eq_true.1 hlock c (List.mem_of_getElem? (hother k c hk hc))
        simp [hheld] at this
    by_cases hiw : i = w
    · subst hiw
      by_cases hjw : j = i
      · exact hjw.symm
      · rw [hself a hi, hfree j b hjw hj hb] at ha
        cases ha
    · by_cases hjw : j = w
      · subst hjw
        rw [hself b hj, hfree i a hiw hi ha] at hb
        cases hb
      · exact h.once i j a b (hother i a hiw hi) (hother j b hjw hj) ha hb

theorem Held.retire (h : Held contractId s) : Held contractId (s.retire w) where
  draft := h.draft
  row := h.row
  running a ha := h.running a (List.mem_of_mem_eraseIdx ha)
  once i j a b hi hj ha hb := by
    rw [show (s.retire w).workers = s.workers.eraseIdx w from rfl, List.getElem?_eraseIdx] at hi hj
    split at hi <;> split at hj
    · exact h.once _ _ a b hi hj ha hb
    all_goals
      have := h.once _ _ a b hi hj ha hb
      omega

theorem Held.deliver {l : List Envelope} (h : Held contractId s) :
    Held contractId
      { s with
        inflight := l
        workers := s.workers ++ [{ envelope := e, phase := .received }] } where
  draft := h.draft
  row := h.row
  running a ha job hphase := by
    rcases List.mem_append.1 ha with ha | ha
    · exact h.running a ha job hphase
    · rw [List.mem_singleton.1 ha] at hphase
      cases hphase
  once i j a b hi hj ha hb := by
    have hold : ∀ (k : Nat) (c : Activation),
        (s.workers ++ [{ envelope := e, phase := .received }])[k]? = some c →
        c.phase.holdsLock = true → s.workers[k]? = some c := by
      intro k c hc hheld
      rw [List.getElem?_append] at hc
      split at hc
      · exact hc
      · rw [List.mem_singleton.1 (List.mem_of_getElem? hc)] at hheld
        cases hheld
    exact h.once i j a b (hold i a hi ha) (hold j b hj hb) ha hb

theorem Held.served (h : Held contractId s) (hG : Created contractId s a)
    (hs : Served driver settings s a s') : Held contractId s' := by
  cases hs with
  | create row draft queued continues =>
    exact h.of_workers (fun d hd => by cases hd; exact hG) h.row rfl
  | @enqueue job message draft =>
    refine Held.sendIf (h.of_workers (fun d hd => ?_) h.row rfl)
    cases hd
    exact h.draft { job, message, sent := false } draft
  | @refuseFirst job message error now draft =>
    refine h.of_workers (fun d hd => absurd hd (Option.not_mem_none d)) (fun j hj => ?_) rfl
    cases hj
    exact h.draft { job, message, sent := false } draft
  | @commit job message draft =>
    refine Held.sendIf
      (h.of_workers (fun d hd => absurd hd (Option.not_mem_none d)) (fun j hj => ?_) rfl)
    cases hj
    exact h.draft { job, message, sent := true } draft
  | rollback => exact h.of_workers (fun d hd => absurd hd (Option.not_mem_none d)) h.row rfl
  | replay row continues => exact h.of_workers h.draft h.row rfl
  | checkCancel row => exact h.of_workers h.draft h.row rfl
  | @cancel now unlocked =>
    have hupdate := h.update (f := .markCancelled now) fun _ hjob => hjob
    exact hupdate.of_workers hupdate.draft hupdate.row rfl
  | checkDelete => exact h.of_workers h.draft h.row rfl
  | delete => exact h.of_workers h.draft h.row rfl
  | selectStalled row stalled => exact h.of_workers h.draft h.row rfl
  | @failStalled now selected =>
    have hupdate := h.update (f := .reclaimStalled now) fun _ hjob => hjob
    exact hupdate.of_workers hupdate.draft hupdate.row rfl

theorem write_contractId (message : StageMessage) (now : Timestamp) (job : ProcessingJob)
    (verdict : Verdict) :
    (verdict.write settings message now job).contractId = job.contractId := by
  cases verdict with
  | skipped next => cases next <;> rfl
  | succeeded next => cases next <;> rfl
  | halted reason => rfl
  | failed retryable error =>
    simp only [Verdict.write]
    split <;> rfl

theorem Held.worked (h : Held contractId s) (hs : Worked settings s a s') :
    Held contractId s' := by
  cases hs with
  | deliver mem => exact h.deliver
  | @load w e worker =>
    refine h.advance (.inl ?_)
    rcases load_cases s e.message with ⟨_, hload, -, -⟩ | ⟨_, -, -, -, hload⟩ <;> rw [hload] <;> rfl
  | skip worker =>
    exact (h.update fun job hjob => (write_contractId ..).trans hjob).advance (.inl rfl)
  | @start w e snapshot before workerId now worker row unlocked =>
    refine h.advance (.inr ⟨unlocked, fun job hjob => ?_⟩)
    rw [← Option.some.inj hjob]
    exact h.row before row
  | finish worker =>
    refine (h.update fun _ _ => (write_contractId ..).trans ?_).advance (.inl rfl)
    exact h.running _ (List.mem_of_getElem? worker) _ rfl
  | rollBack worker => exact h.advance (.inl rfl)
  | recordFailure worker =>
    exact (h.update fun job hjob => (write_contractId ..).trans hjob).advance (.inl rfl)
  | redelivered worker more => exact h.retire.of_workers h.draft h.row rfl
  | exhausted worker last => exact h.retire
  | dispatch worker sent => exact h.retire.of_workers h.draft h.row rfl
  | returned worker sent => exact h.retire
  | @refuse w e outcome next delayMs now worker sent =>
    have hupdate := h.update
      (f := .markFailed next.stage (Runner.queueErrorRecord next outcome.shouldRetry) now)
      fun _ hjob => hjob
    exact hupdate.retire

theorem held_invariant (driver : Driver) (settings : QueueSettings) (contractId : Uuid) :
    (machine driver settings).Invariant (Created contractId) (Held contractId) where
  init s h := by
    cases h
    exact held_init
  step s a t hs hG h := by
    rcases step_cases h with hserved | hworked
    · exact hs.served hG hserved
    · exact hs.worked hworked

end

/-! ## Finished jobs -/

def Phase.isReceived : Phase → Bool
  | .received => true
  | _ => false

/-- No message is left, and no worker has anything to queue or to raise. -/
def Still (s : State) : Prop :=
  s.inflight = [] ∧ ∀ a ∈ s.workers, a.carries = false ∧ a.envelope.deliveries ≤ 1

def Dropped (s : State) : Prop :=
  (∀ job ∈ s.row, job.state = .cancelled) ∧ s.sweeping = false ∧
    ∀ a ∈ s.workers, a.phase.isReceived = true ∨ a.carries = false

def Finished (s : State) : Prop :=
  s.draft = none ∧ (∀ job ∈ s.row, job.state.isTerminal = true) ∧ (Still s ∨ Dropped s)

instance (s : State) : Decidable (Still s) := inferInstanceAs (Decidable (_ ∧ _))
instance (s : State) : Decidable (Dropped s) := inferInstanceAs (Decidable (_ ∧ _))
instance (s : State) : Decidable (Finished s) := inferInstanceAs (Decidable (_ ∧ _))

/-- The step creates the job, or sends a message for it that a worker will act on. -/
def Wakes (s : State) : Action → Prop
  | .create .. => True
  | .replay _ => ¬ Dropped s
  | _ => False

section
variable {w : Nat} {e : Envelope}

theorem finished_init : Finished {} := by
  refine ⟨rfl, ?_, .inl ⟨rfl, ?_⟩⟩ <;> simp

theorem Finished.worker (h : Finished s) {a : Activation} (ha : a ∈ s.workers) :
    a.phase.isReceived = true ∨ a.carries = false := by
  rcases h.2.2 with ⟨-, hstill⟩ | ⟨-, -, hdropped⟩
  · exact .inr (hstill a ha).1
  · exact hdropped a ha

theorem Finished.not_handled (h : Finished s) {a : Activation} (ha : a ∈ s.workers)
    {job : ProcessingJob} (hjob : job ∈ a.phase.handled) : False := by
  have hphase := h.worker ha
  unfold Activation.carries at hphase
  cases hp : a.phase with
  | running _ => simp [hp, Phase.isReceived] at hphase
  | _ => simp [hp, Phase.handled] at hjob

theorem Still.retire (h : Still s) : Still (s.retire w) :=
  ⟨h.1, fun a ha => h.2 a (List.mem_of_mem_eraseIdx ha)⟩

theorem Dropped.retire (h : Dropped s) : Dropped (s.retire w) :=
  ⟨h.1, h.2.1, fun a ha => h.2.2 a (List.mem_of_mem_eraseIdx ha)⟩

theorem Finished.retire (h : Finished s) : Finished (s.retire w) :=
  ⟨h.1, h.2.1, h.2.2.imp Still.retire Dropped.retire⟩

theorem Finished.served (h : Finished s) (hasleep : ¬ Wakes s a)
    (hs : Served driver settings s a s') : Finished s' := by
  obtain ⟨hdraft, hterminal, hrest⟩ := h
  cases hs with
  | create row draft queued continues => exact absurd trivial hasleep
  | enqueue draft => exact (Option.some_ne_none _ (draft.symm.trans hdraft)).elim
  | refuseFirst draft => exact (Option.some_ne_none _ (draft.symm.trans hdraft)).elim
  | commit draft => exact (Option.some_ne_none _ (draft.symm.trans hdraft)).elim
  | rollback => exact ⟨rfl, hterminal, hrest⟩
  | replay row continues =>
    exact ⟨hdraft, hterminal, .inr (Decidable.not_not.1 hasleep)⟩
  | checkCancel row => exact ⟨hdraft, hterminal, hrest⟩
  | cancel unlocked =>
    refine ⟨hdraft, fun job hjob => ?_, hrest.imp_right fun hdropped => ⟨?_, hdropped.2⟩⟩
    · obtain ⟨before, -, rfl⟩ := Option.map_eq_some_iff.1 hjob
      rfl
    · intro job hjob
      obtain ⟨before, -, rfl⟩ := Option.map_eq_some_iff.1 hjob
      rfl
  | checkDelete => exact ⟨hdraft, hterminal, hrest⟩
  | delete => exact ⟨hdraft, hterminal, hrest⟩
  | @selectStalled job timeoutMinutes now row stalled =>
    -- The sweep selects running jobs only.
    have hrunning : job.state.isRunning = true := (Bool.and_eq_true_iff.1 stalled).1
    have := hterminal job row
    cases hstate : job.state <;> simp_all [JobState.isTerminal, JobState.isRunning]
  | failStalled selected =>
    refine ⟨hdraft, fun job hjob => ?_, .inl ?_⟩
    · obtain ⟨before, -, rfl⟩ := Option.map_eq_some_iff.1 hjob
      rfl
    · rcases hrest with hstill | ⟨-, hunswept, -⟩
      · exact hstill
      · rw [hunswept] at selected
        cases selected

theorem Finished.worked (h : Finished s) (hs : Worked settings s a s') : Finished s' := by
  -- A worker whose phase is none of the two kinds of a finished job.
  have habsurd : ∀ {w : Nat} {b : Activation}, s.workers[w]? = some b →
      b.phase.isReceived = false → b.carries = true → False := by
    intro w b hw hreceived hcarries
    rcases h.worker (List.mem_of_getElem? hw) with hb | hb
    · rw [hreceived] at hb
      cases hb
    · rw [hcarries] at hb
      cases hb
  cases hs with
  | @deliver e mem =>
    refine ⟨h.1, h.2.1, .inr ?_⟩
    rcases h.2.2 with ⟨hnone, -⟩ | ⟨hcancelled, hunswept, hworkers⟩
    · rw [hnone] at mem
      cases mem
    · refine ⟨hcancelled, hunswept, fun b hb => ?_⟩
      rcases List.mem_append.1 hb with hb | hb
      · exact hworkers b hb
      · rw [List.mem_singleton.1 hb]
        exact .inl rfl
  | @load w e worker =>
    refine ⟨h.1, h.2.1, .inr ?_⟩
    rcases h.2.2 with ⟨-, hstill⟩ | ⟨hcancelled, hunswept, hworkers⟩
    · cases (hstill _ (List.mem_of_getElem? worker)).1
    · refine ⟨hcancelled, hunswept, fun b hb => ?_⟩
      rcases List.mem_or_eq_of_mem_set hb with hb | rfl
      · exact hworkers b hb
      · rcases load_cases s e.message with ⟨outcome, hload, hnone, -⟩ | ⟨job, hrow, -, hactive, -⟩
        · right
          simp [Activation.carries, hload, hnone]
        · simp [Runner.isActive, hcancelled job hrow] at hactive
  | skip worker => exact (habsurd worker rfl rfl).elim
  | start worker row unlocked => exact (habsurd worker rfl rfl).elim
  | finish worker => exact (habsurd worker rfl rfl).elim
  | rollBack worker => exact (habsurd worker rfl rfl).elim
  | recordFailure worker => exact (habsurd worker rfl rfl).elim
  | @redelivered w b worker more =>
    refine ⟨h.1, h.2.1, .inr ?_⟩
    rcases h.2.2 with ⟨-, hstill⟩ | hdropped
    · have := (hstill b (List.mem_of_getElem? worker)).2
      omega
    · have hretired := hdropped.retire (w := w)
      exact ⟨hretired.1, hretired.2.1, hretired.2.2⟩
  | exhausted worker last => exact h.retire
  | @dispatch w e outcome dispatchId next delayMs worker sent =>
    refine (habsurd worker rfl ?_).elim
    have hsome : (Runner.dispatches e.message outcome "").isSome = true := by
      cases hnone : Runner.dispatches e.message outcome "" with
      | none => rw [dispatches_none hnone dispatchId] at sent; cases sent
      | some _ => rfl
    exact hsome
  | returned worker sent => exact h.retire
  | @refuse w e outcome next delayMs now worker sent =>
    refine (habsurd worker rfl ?_).elim
    show (Runner.dispatches e.message outcome "").isSome = true
    rw [sent]
    rfl

theorem finished_resting (driver : Driver) (settings : QueueSettings) :
    Pool.Resting (machine driver settings) Finished Wakes where
  init s h := by
    cases h
    exact finished_init
  step s a t hs hasleep h := by
    rcases step_cases h with hserved | hworked
    · exact hs.served hasleep hserved
    · exact hs.worked hworked

end

end Lifecycle

namespace Pipelines

variable {driver : Lifecycle.Driver} {settings : QueueSettings} {contractOf : Uuid → Uuid}
  {s : State}

/-- A request that creates a job, or sends a message that a worker will act on, comes while the
other jobs of the contract are finished. -/
def Serial (contractOf : Uuid → Uuid) (s : State) : Action → Prop
  | .request request => ∀ jobId action, entry s request = some (jobId, action) →
      Lifecycle.Wakes (s jobId) action →
        ∀ other, other ≠ jobId → contractOf other = contractOf jobId →
          Lifecycle.Finished (s other)
  | .job .. => True

def Live (s : State) (contractId jobId : Uuid) : Prop :=
  ∃ job ∈ (s jobId).row, job.contractId = contractId ∧ job.state.isTerminal = false

def Handles (s : State) (contractId jobId : Uuid) (w : Nat) : Prop :=
  ∃ a ∈ (s jobId).workers[w]?, ∃ job ∈ a.phase.handled, job.contractId = contractId

instance (s : State) (contractId jobId : Uuid) : Decidable (Live s contractId jobId) :=
  inferInstanceAs (Decidable (∃ _ ∈ _, _ ∧ _))

instance (s : State) (contractId jobId : Uuid) (w : Nat) :
    Decidable (Handles s contractId jobId w) :=
  inferInstanceAs (Decidable (∃ _ ∈ _, ∃ _ ∈ _, _))

structure Exclusive (s : State) : Prop where
  live : ∀ contractId i j, Live s contractId i → Live s contractId j → i = j
  handler : ∀ contractId i w j w', Handles s contractId i w → Handles s contractId j w' →
    i = j ∧ w = w'

theorem reach_pool (hs : (machine driver settings contractOf).ReachIf (Serial contractOf) s) :
    (Pool.machine Uuid (Lifecycle.machine driver settings)).ReachIf
      (fun s a => Pool.Alone contractOf Lifecycle.Finished Lifecycle.Wakes s a ∧
        Lifecycle.Created (contractOf a.1) (s a.1) a.2) s := by
  refine hs.map (I := fun _ => True) (f := id) ⟨fun _ _ => trivial, fun _ _ _ _ _ _ => trivial⟩
    (fun _ h => h) fun s a t _ hG h => .inr ?_
  cases a with
  | request request =>
    obtain ⟨⟨jobId, action⟩, hentry, h⟩ := Option.bind_eq_some_iff.1 h
    obtain ⟨hdrawn, h⟩ := Option.ite_none_right_eq_some.1 h
    refine ⟨(jobId, action), ⟨hG jobId action hentry, ?_⟩, h⟩
    cases action with
    | create job message =>
      show job.contractId = contractOf jobId
      exact of_decide_eq_true hdrawn
    | _ => trivial
  | job jobId action =>
    obtain ⟨hother, h⟩ := Option.ite_none_left_eq_some.1 h
    refine ⟨(jobId, action), ⟨fun hwakes => ?_, ?_⟩, h⟩
    · cases action with
      | create job message => exact absurd rfl hother
      | replay message => exact absurd rfl hother
      | _ => exact hwakes.elim
    · cases action with
      | create job message => exact absurd rfl hother
      | _ => trivial

theorem held (hs : (machine driver settings contractOf).ReachIf (Serial contractOf) s)
    (jobId : Uuid) : Lifecycle.Held (contractOf jobId) (s jobId) := by
  refine (Lifecycle.held_invariant driver settings (contractOf jobId)).reach ?_
  exact Pool.member (G := fun i => Lifecycle.Created (contractOf i))
    ((reach_pool hs).mono fun _ _ hG => hG.2) jobId

theorem finished_or_finished
    (hs : (machine driver settings contractOf).ReachIf (Serial contractOf) s) {i j : Uuid}
    (hij : i ≠ j) (hcontract : contractOf i = contractOf j) :
    Lifecycle.Finished (s i) ∨ Lifecycle.Finished (s j) :=
  Pool.idle_or_idle (Lifecycle.finished_resting driver settings)
    ((reach_pool hs).mono fun _ _ hG => hG.1) hij hcontract

theorem Live.not_finished {contractId jobId : Uuid} (h : Live s contractId jobId) :
    ¬ Lifecycle.Finished (s jobId) := by
  obtain ⟨job, hjob, -, hlive⟩ := h
  intro hfinished
  rw [hfinished.2.1 job hjob] at hlive
  cases hlive

theorem Handles.not_finished {contractId jobId : Uuid} {w : Nat}
    (h : Handles s contractId jobId w) : ¬ Lifecycle.Finished (s jobId) := by
  obtain ⟨a, hw, job, hjob, -⟩ := h
  exact fun hfinished => hfinished.not_handled (List.mem_of_getElem? hw) hjob

/-- **One pipeline per contract**: in every run in which requests for a contract come while its
other jobs are finished, the contract never has two live jobs or two running handlers. -/
theorem exclusive_of_serial
    (hs : (machine driver settings contractOf).ReachIf (Serial contractOf) s) : Exclusive s where
  live contractId i j hi hj := by
    by_contra hij
    have hcontract : contractOf i = contractOf j := by
      obtain ⟨job, hjob, hc, -⟩ := hi
      obtain ⟨job', hjob', hc', -⟩ := hj
      rw [← (held hs i).row job hjob, ← (held hs j).row job' hjob', hc, hc']
    rcases finished_or_finished hs hij hcontract with hfinished | hfinished
    · exact hi.not_finished hfinished
    · exact hj.not_finished hfinished
  handler contractId i w j w' hi hj := by
    have hcontract : contractOf i = contractOf j := by
      obtain ⟨a, hw, job, hjob, hc⟩ := hi
      obtain ⟨b, hw', job', hjob', hc'⟩ := hj
      rw [← (held hs i).running a (List.mem_of_getElem? hw) job hjob,
        ← (held hs j).running b (List.mem_of_getElem? hw') job' hjob', hc, hc']
    have hij : i = j := by
      by_contra hij
      rcases finished_or_finished hs hij hcontract with hfinished | hfinished
      · exact hi.not_finished hfinished
      · exact hj.not_finished hfinished
    subst hij
    obtain ⟨a, hw, job, hjob, -⟩ := hi
    obtain ⟨b, hw', job', hjob', -⟩ := hj
    exact ⟨rfl, (held hs i).once w w' a b hw hw' (Lifecycle.Phase.holdsLock_of_handled hjob)
      (Lifecycle.Phase.holdsLock_of_handled hjob')⟩

/-! ## A job that is retried -/

/-- Steps that are not requests need no condition. -/
theorem run_of_jobs {t : State} {l : List (Uuid × Lifecycle.Action)}
    (h : (machine driver settings contractOf).exec s (l.map fun a => .job a.1 a.2) = some t) :
    (machine driver settings contractOf).Run (Serial contractOf) s t := by
  induction l generalizing s with
  | nil =>
    obtain rfl : s = t := by simpa [Machine.exec] using h
    exact .refl _
  | cons a l ih =>
    obtain ⟨u, hu, h⟩ := Option.bind_eq_some_iff.1 h
    exact (Machine.Run.single (a := .job a.1 a.2) trivial hu).trans (ih h)

namespace Sample

def deployment : QueueSettings := Lifecycle.Sample.deployment

def owner (jobId : Uuid) : Uuid := if jobId = 1 ∨ jobId = 2 ∨ jobId = 3 then 7 else 0

abbrev jobs : Machine State Action := machine .broker deployment owner

def started (jobId : Uuid) (options : JsonDict) : List (Uuid × Lifecycle.Action) :=
  [.enqueue, .commit,
    .deliver (Lifecycle.envelope deployment
      { jobId, contractId := 7, projectId := 5, stage := .validation, options }),
    .load 0, .start 0 "worker" 1].map (jobId, ·)

def failed (jobId : Uuid) : List (Uuid × Lifecycle.Action) :=
  [.finish 0 (.failed false { code := "corrupt", message := "" }) 2, .dispatch 0 ""].map (jobId, ·)

def uploaded : List Action :=
  .request (.upload 1 7 5 .normal false 0) ::
    (started 1 [] ++ failed 1).map fun a => .job a.1 a.2

def retried (newId : Uuid) : List Action :=
  .request (.retry 1 newId 3) ::
    (started newId [("force", .bool true)]).map fun a => .job a.1 a.2

theorem uploaded_serial {s : State} (h : jobs.exec (fun _ => {}) uploaded = some s) :
    jobs.ReachIf (Serial owner) s := by
  obtain ⟨t, ht, h⟩ := Option.bind_eq_some_iff.1 h
  refine ⟨fun _ => {}, fun _ => rfl, (Machine.Run.single ?_ ht).trans (run_of_jobs h)⟩
  exact fun _ _ _ _ _ _ _ => Lifecycle.finished_init

end Sample

/-- One retry finds the contract's other jobs finished. -/
theorem retried_once : ∃ s, Sample.jobs.ReachIf (Serial Sample.owner) s ∧ Handles s 7 2 0 ∧
    Exclusive s := by
  have hrun : (Sample.jobs.exec (fun _ => {}) Sample.uploaded).any (fun s =>
      (Lifecycle.Finished (s 1) ∧ Lifecycle.Finished (s 3)) ∧
        (Sample.jobs.exec s (Sample.retried 2)).any fun t => Handles t 7 2 0) = true := by
    decide +kernel
  obtain ⟨s, hs, hboth⟩ := (Option.any_eq_true _ _).1 hrun
  obtain ⟨⟨hfirst, hthird⟩, hthen⟩ := of_decide_eq_true hboth
  obtain ⟨t, ht, hhandles⟩ := (Option.any_eq_true _ _).1 hthen
  obtain ⟨u, hu, ht⟩ := Option.bind_eq_some_iff.1 ht
  have hserial : Serial Sample.owner s (.request (.retry 1 2 3)) := by
    intro jobId action hentry _ other hother howner
    obtain rfl : 2 = jobId := by
      obtain ⟨job, -, hentry⟩ := Option.bind_eq_some_iff.1 hentry
      obtain ⟨_, -, hentry⟩ := Option.bind_eq_some_iff.1 hentry
      exact (Prod.mk.inj (Option.some.inj hentry)).1
    have hown : other = 1 ∨ other = 2 ∨ other = 3 := by
      by_contra hnone
      rw [show Sample.owner other = 0 from if_neg hnone] at howner
      exact absurd howner (by decide)
    rcases hown with rfl | rfl | rfl
    · exact hfirst
    · exact absurd rfl hother
    · exact hthird
  have hreach := ((Sample.uploaded_serial hs).run (.single hserial hu)).run (run_of_jobs ht)
  exact ⟨t, hreach, of_decide_eq_true hhandles, exclusive_of_serial hreach⟩

/-- The second retry finds the failed job and does not look for the first one. -/
theorem retried_twice : ∃ s, Sample.jobs.Reach s ∧ Live s 7 2 ∧ Live s 7 3 ∧
    Handles s 7 2 0 ∧ Handles s 7 3 0 ∧ ¬ Exclusive s := by
  have hrun : (Sample.jobs.exec (fun _ => {})
      (Sample.uploaded ++ Sample.retried 2 ++ Sample.retried 3)).any
        (fun s => Live s 7 2 ∧ Live s 7 3 ∧ Handles s 7 2 0 ∧ Handles s 7 3 0) = true := by
    decide +kernel
  obtain ⟨s, hs, hboth⟩ := (Option.any_eq_true _ _).1 hrun
  obtain ⟨hlive, hlive', hhandles, hhandles'⟩ := of_decide_eq_true hboth
  refine ⟨s, Machine.reach_of_exec (fun _ => rfl) hs, hlive, hlive', hhandles, hhandles',
    fun hexclusive => ?_⟩
  exact absurd (hexclusive.live 7 2 3 hlive hlive') (by decide)

end Pipelines

end Clear
