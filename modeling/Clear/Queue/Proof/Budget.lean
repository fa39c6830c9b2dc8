import Clear.Orchestrator.Runner
import Mathlib.Data.Finset.Card
import Mathlib.Data.Finset.Range
import Mathlib.Data.Nat.Count
import Mathlib.Tactic.Ring

/-!
# The retry budget of one message

Both sides retry a failure: BullMQ runs the job again because the processor throws, and Python
queues a message of its own, which becomes a new job with a budget of its own. A failure below the
last attempt therefore adds a job where a success removes one, so the executions stay within
`max_attempts` exactly when `max_attempts` is 1 or the successes outnumber the failures at some point
before the budget is spent (`executions_le_iff`).
-/

/-!
## Node dispatcher

The BullMQ queue of one stage and its worker shim: the worker takes a job, posts its message to the
stage endpoint with the attempt count of BullMQ, and translates the reply (`process`). A processor
that throws makes BullMQ run the job again while `attemptsMade` is below the job's `attempts`, and
the `failed` handler moves an exhausted job to the dead-letter queue.

`machine` runs the worker against the Python side for one message that was queued: the stage
handler fails with a retryable error exactly in the executions that `fails` names, and
`_schedule_retry` queues its own message for each failure it may retry.
-/

namespace Clear

namespace Worker

/-! ## Jobs -/

structure Job where
  id : String
  data : StageMessage
  attemptsMade : Nat := 0

def jobId (message : StageMessage) : String :=
  message.jobId.str ++ "~" ++ message.stage.value ++ "~" ++ message.attempt.repr ++ "~" ++
    message.dispatchId

def dispatchId (d : BitVec 48) : String := String.ofList (Uuid.hex 12 d.toNat)

structure DeadLetter where
  jobId : String
  stage : PipelineStage
  message : StageMessage
  reason : String
  attemptsMade : Nat
  originalJobId : String

/-! ## Dispatch -/

/-- What came back from the stage endpoint. -/
inductive Reply where
  | unreachable (error : String)
  | status (code : Nat) (body : String)
  /-- A 2xx or 3xx reply; `none` is a body that is not JSON. -/
  | ok (body : String) (result : Option StageOutcome)

inductive WorkerError where
  /-- `TransportError`: the stage endpoint could not be reached or did not answer usefully. -/
  | transport (message : String) (statusCode : Option Nat)
  /-- `RetryableStageError`. -/
  | retryableStage (message : String) (delayMs : Nat)
  | rejected (message : String)

def WorkerError.message : WorkerError → String
  | .transport message _ => message
  | .retryableStage message _ => message
  | .rejected message => message

def slice (text : String) (n : Nat) : String := String.ofList (text.toList.take n)

def dispatch : Reply → Except WorkerError StageOutcome
  | .unreachable error => .error (.transport ("Could not reach the stage endpoint: " ++ error) none)
  | .status code body =>
    if 500 ≤ code then
      .error (.transport
        ("The stage endpoint returned " ++ code.repr ++ ": " ++ slice body 300) (some code))
    else
      .error (.rejected
        ("The stage endpoint rejected the message (" ++ code.repr ++ "): " ++ slice body 300))
  | .ok body none =>
    .error (.transport ("The stage endpoint returned an unparseable body: " ++ slice body 200) none)
  | .ok _ (some result) => .ok result

def Job.message (job : Job) : StageMessage := { job.data with attempt := job.attemptsMade + 1 }

def process (reply : Reply) : Except WorkerError StageOutcome := do
  let result ← dispatch reply
  if result.shouldRetry then
    throw (.retryableStage
      ((result.error.map (·.message)).getD "The stage asked to be retried.") result.retryDelayMs)
  else return result

/-! ## The queue -/

/-- The queue of a stage: the jobs waiting (queued or delayed), the job ids BullMQ retains, the
dead letters, and how often the stage's handler has been executed. -/
structure State where
  waiting : List Job
  known : List String
  deadLetters : List DeadLetter := []
  executions : Nat := 0

def State.add (s : State) (message : StageMessage) : State :=
  if jobId message ∈ s.known then s
  else
    { s with
      waiting := s.waiting ++ [{ id := jobId message, data := message }]
      known := s.known ++ [jobId message] }

def State.execute (s : State) (index : Nat) : State :=
  { s with waiting := s.waiting.eraseIdx index, executions := s.executions + 1 }

def State.requeue (s : State) (job : Job) : State := { s with waiting := s.waiting ++ [job] }

def deadLetter (job : Job) (reason : String) : DeadLetter where
  jobId := "dlq-" ++ job.data.stage.value ++ "-" ++ job.data.jobId.str ++ "-" ++
    job.attemptsMade.repr
  stage := job.data.stage
  message := job.data
  reason := reason
  attemptsMade := job.attemptsMade
  originalJobId := job.id

/-- BullMQ's side of a processed job: one that threw waits again until its attempts are spent. -/
def settle (settings : QueueSettings) (s : State) (job : Job) :
    Except WorkerError StageOutcome → State
  | .ok _ => s
  | .error e =>
    let job := { job with attemptsMade := job.attemptsMade + 1 }
    if job.attemptsMade < settings.maxAttempts then s.requeue job
    else { s with deadLetters := s.deadLetters ++ [deadLetter job e.message] }

/-! ## One message -/

/-- What Python answers after it executed the handler. The message of the next stage goes to that
stage's queue and is not followed here. -/
def respond (settings : QueueSettings) (message : StageMessage) (failed : Bool) : StageOutcome :=
  if failed then
    Runner.failureOutcome settings message message.jobId true
      (Runner.failureRecord message true (.other "Exception"))
  else
    { jobId := message.jobId
      stage := message.stage
      status := .succeeded
      attempt := message.attempt }

inductive Action where
  /-- A worker takes a waiting job and the call gets through; `dispatch` is the identifier of the
  message Python may queue. -/
  | run (index : Nat) (dispatch : BitVec 48)
  /-- A worker takes a waiting job and nothing reaches Python. -/
  | lose (index : Nat) (error : String)

def step (settings : QueueSettings) (fails : Nat → Bool) (s : State) : Action → Option State
  | .run index dispatch =>
    s.waiting[index]?.map fun job =>
      let outcome := respond settings job.message (fails s.executions)
      let queued :=
        match Runner.dispatches job.message outcome (dispatchId dispatch) with
        | none => s.execute index
        | some (next, _) => (s.execute index).add next
      settle settings queued job (process (.ok "" (some outcome)))
  | .lose index error =>
    s.waiting[index]?.map fun job =>
      settle settings { s with waiting := s.waiting.eraseIdx index } job
        (process (.unreachable error))

def initial (message : StageMessage) : State :=
  { waiting := [{ id := jobId message, data := message }], known := [jobId message] }

def machine (settings : QueueSettings) (fails : Nat → Bool) (message : StageMessage) :
    Machine State Action where
  init s := s = initial message
  step := step settings fails

end Worker

end Clear

namespace Clear

namespace Worker

variable {settings : QueueSettings} {fails : Nat → Bool} {message : StageMessage} {s s' : State}

/-- How many of the first `n` executions fail. -/
def failures (fails : Nat → Bool) (n : Nat) : Nat := Nat.count (fun k => fails k = true) n

theorem failures_le (n : Nat) : failures fails n ≤ n := Nat.count_le _

/-! ## What a step does -/

@[simp] theorem State.requeue_executions (job : Job) :
    (s.requeue job).executions = s.executions := rfl

@[simp] theorem State.requeue_length (job : Job) :
    (s.requeue job).waiting.length = s.waiting.length + 1 := List.length_append

@[simp] theorem State.execute_executions (index : Nat) :
    (s.execute index).executions = s.executions + 1 := rfl

theorem State.execute_length {index : Nat} {job : Job} (h : s.waiting[index]? = some job) :
    (s.execute index).waiting.length + 1 = s.waiting.length := by
  obtain ⟨hlt, -⟩ := List.getElem?_eq_some_iff.1 h
  have := List.length_eraseIdx_of_lt hlt
  simp only [State.execute]
  omega

@[simp] theorem State.add_executions (m : StageMessage) : (s.add m).executions = s.executions := by
  unfold State.add
  split <;> rfl

theorem State.add_length (m : StageMessage) :
    (s.add m).waiting.length ≤ s.waiting.length + 1 := by
  unfold State.add
  split <;> simp

theorem step_run {index : Nat} {dispatch : BitVec 48}
    (hs : step settings fails s (.run index dispatch) = some s') :
    ∃ job, s.waiting[index]? = some job ∧
      s' = if fails s.executions = true ∧ job.attemptsMade + 1 < settings.maxAttempts then
          ((s.execute index).add
            (Runner.retryMessage job.message (dispatchId dispatch))).requeue
            { job with attemptsMade := job.attemptsMade + 1 }
        else s.execute index := by
  obtain ⟨job, hjob, rfl⟩ := Option.map_eq_some_iff.1 hs
  refine ⟨job, hjob, ?_⟩
  by_cases hf : fails s.executions = true
  · by_cases hlt : job.attemptsMade + 1 < settings.maxAttempts
    · simp [respond, hf, hlt, Runner.failureOutcome, Runner.canRetry, Runner.dispatches,
        Job.message, process, Worker.dispatch, settle]
      rfl
    · simp [respond, hf, hlt, Runner.failureOutcome, Runner.canRetry, Runner.dispatches,
        Job.message, process, Worker.dispatch, settle]
      rfl
  · simp [respond, hf, Runner.dispatches, process, Worker.dispatch, settle]
    rfl

theorem step_lose {index : Nat} {error : String}
    (hs : step settings fails s (.lose index error) = some s') :
    s'.waiting.length ≤ s.waiting.length ∧ s'.executions = s.executions := by
  obtain ⟨job, hjob, rfl⟩ := Option.map_eq_some_iff.1 hs
  obtain ⟨hlt, -⟩ := List.getElem?_eq_some_iff.1 hjob
  have herase := List.length_eraseIdx_of_lt hlt
  unfold settle process
  dsimp only [Worker.dispatch, bind, Except.bind]
  split
  · simp only [State.requeue_length, State.requeue_executions, and_true]
    omega
  · dsimp only
    omega

/-! ## At most -/

def Paid (fails : Nat → Bool) (s : State) : Prop :=
  s.waiting.length + s.executions ≤ 1 + 2 * failures fails s.executions

theorem paid_step {a : Action} (h : Paid fails s) (hs : step settings fails s a = some s') :
    Paid fails s' := by
  unfold Paid at h ⊢
  cases a with
  | lose =>
    obtain ⟨hlength, hexec⟩ := step_lose hs
    rw [hexec]
    omega
  | run index dispatch =>
    obtain ⟨job, hjob, rfl⟩ := step_run hs
    have hlength := State.execute_length hjob
    split
    next hretry =>
      have hadd := (s.execute index).add_length
        (Runner.retryMessage job.message (dispatchId dispatch))
      have hcount : failures fails (s.executions + 1) = failures fails s.executions + 1 := by
        rw [failures, Nat.count_succ, if_pos hretry.1]
        rfl
      simp only [State.requeue_length, State.requeue_executions, State.add_executions,
        State.execute_executions, hcount]
      omega
    next =>
      have hcount : failures fails s.executions ≤ failures fails (s.executions + 1) :=
        Nat.count_monotone _ (Nat.le_succ _)
      simp only [State.execute_executions]
      omega

theorem step_executions {a : Action} (hs : step settings fails s a = some s') :
    s'.executions = s.executions ∨ s'.executions = s.executions + 1 ∧ s.waiting ≠ [] := by
  cases a with
  | lose => exact .inl (step_lose hs).2
  | run index dispatch =>
    obtain ⟨job, hjob, rfl⟩ := step_run hs
    refine .inr ⟨?_, ?_⟩
    · split <;> simp
    · rintro hnil
      simp [hnil] at hjob

theorem executions_le_of_drained {n : Nat} (hn : 2 * failures fails n < n)
    (hs : (machine settings fails message).Reach s) : s.executions ≤ n := by
  have hinv : (machine settings fails message).Invariant Machine.anyStep
      fun s => Paid fails s ∧ s.executions ≤ n := by
    constructor
    · rintro s rfl
      exact ⟨by simp [Paid, initial], Nat.zero_le _⟩
    · rintro s a s' ⟨hpaid, hle⟩ - hstep
      refine ⟨paid_step hpaid hstep, ?_⟩
      rcases step_executions hstep with hsame | ⟨hsucc, hwaiting⟩
      · omega
      · have hpos := List.length_pos_iff.2 hwaiting
        have hne : s.executions ≠ n := by
          rintro rfl
          unfold Paid at hpaid
          omega
        omega
  exact (hinv.reach hs).2

theorem executions_le_one (h1 : settings.maxAttempts = 1)
    (hs : (machine settings fails message).Reach s) : s.executions ≤ 1 := by
  have hinv : (machine settings fails message).Invariant Machine.anyStep
      fun s => s.waiting.length + s.executions ≤ 1 := by
    constructor
    · rintro s rfl
      simp [initial]
    · intro s a s' hle _ (hstep : step settings fails s a = some s')
      cases a with
      | lose =>
        obtain ⟨hlength, hexec⟩ := step_lose hstep
        omega
      | run index dispatch =>
        obtain ⟨job, hjob, rfl⟩ := step_run hstep
        have hlength := State.execute_length hjob
        rw [if_neg (by omega), State.execute_executions]
        omega
  have hle := hinv.reach hs
  omega

/-! ## At least -/

theorem jobId_inj {m : StageMessage} {d d' : BitVec 48}
    (h : jobId (Runner.retryMessage m (dispatchId d)) =
      jobId (Runner.retryMessage m (dispatchId d'))) : d = d' := by
  simp only [jobId, Runner.retryMessage, dispatchId, String.append_right_inj,
    String.ofList_inj] at h
  have hlt : ∀ d : BitVec 48, d.toNat < 16 ^ 12 := by
    intro d
    have := d.isLt
    omega
  exact BitVec.eq_of_toNat_eq (Uuid.hex_inj (hlt d) (hlt d') h)

theorem exists_fresh (m : StageMessage) {known : List String} (hlen : known.length < 2 ^ 48) :
    ∃ d, jobId (Runner.retryMessage m (dispatchId d)) ∉ known := by
  by_contra hall
  simp only [not_exists, not_not] at hall
  obtain ⟨x, hx, y, hy, hne, heq⟩ := Finset.exists_ne_map_eq_of_card_lt_of_maps_to
    (s := Finset.range (known.length + 1)) (t := known.toFinset)
    (f := fun n => jobId (Runner.retryMessage m (dispatchId (BitVec.ofNat 48 n))))
    (by
      have := known.toFinset_card_le
      rw [Finset.card_range]
      omega)
    (fun n _ => List.mem_toFinset.2 (hall _))
  have hd := congrArg BitVec.toNat (jobId_inj heq)
  simp only [Finset.mem_range] at hx hy
  rw [BitVec.toNat_ofNat, BitVec.toNat_ofNat, Nat.mod_eq_of_lt (by omega),
    Nat.mod_eq_of_lt (by omega)] at hd
  exact hne hd

structure Running (settings : QueueSettings) (fails : Nat → Bool) (k : Nat) (s : State) : Prop where
  executions : s.executions = k
  waiting : 1 ≤ s.waiting.length
  paid : k < settings.maxAttempts → s.waiting.length + k = 1 + 2 * failures fails k
  attempts : ∀ job ∈ s.waiting, job.attemptsMade ≤ failures fails k
  known : s.known.length ≤ k + 1

/-- What a further execution leaves. -/
theorem running_succ {k : Nat} (h : Running settings fails k s)
    (hbudget : settings.maxAttempts ≠ 1) (hk : k < settings.maxAttempts)
    (hmore : k + 1 ≤ 2 * failures fails (k + 1)) {job : Job} {d : BitVec 48}
    (hjob : s.waiting[0]? = some job)
    (hfresh : jobId (Runner.retryMessage job.message (dispatchId d)) ∉ s.known)
    (hs : step settings fails s (.run 0 d) = some s') : Running settings fails (k + 1) s' := by
  have hpaid := h.paid hk
  have hlength := State.execute_length hjob
  have hle : failures fails k ≤ k := failures_le k
  have hattempts := h.attempts job (List.mem_of_getElem? hjob)
  have hkept : ∀ other ∈ (s.execute 0).waiting, other.attemptsMade ≤ failures fails k :=
    fun other hother => h.attempts other (List.mem_of_mem_eraseIdx hother)
  obtain ⟨job', hjob', rfl⟩ := step_run hs
  obtain rfl : job' = job := Option.some.inj (hjob'.symm.trans hjob)
  rw [h.executions]
  by_cases hf : fails k = true
  · have hcount : failures fails (k + 1) = failures fails k + 1 := by
      rw [failures, Nat.count_succ, if_pos hf]
      rfl
    by_cases hlast : job'.attemptsMade + 1 < settings.maxAttempts
    · rw [if_pos ⟨hf, hlast⟩]
      have hadd : (s.execute 0).add (Runner.retryMessage job'.message (dispatchId d)) =
          { s.execute 0 with
            waiting := (s.execute 0).waiting ++
              [{ id := jobId (Runner.retryMessage job'.message (dispatchId d))
                 data := Runner.retryMessage job'.message (dispatchId d) }]
            known := s.known ++ [jobId (Runner.retryMessage job'.message (dispatchId d))] } :=
        if_neg hfresh
      rw [hadd]
      constructor
      case executions => simp [State.requeue, State.execute, h.executions]
      case waiting => simp
      case paid =>
        intro _
        simp only [State.requeue_length, List.length_append, List.length_singleton, hcount]
        omega
      case attempts =>
        intro other hother
        simp only [State.requeue, List.mem_append, List.mem_singleton] at hother
        rcases hother with (hold | rfl) | rfl
        · exact (hkept other hold).trans (by omega)
        · exact Nat.zero_le _
        · dsimp only
          omega
      case known =>
        have := h.known
        simp only [State.requeue, List.length_append, List.length_singleton]
        omega
    · -- The last attempt fails: every execution before it was a failure of this job.
      rw [if_neg (fun hretry => hlast hretry.2)]
      refine ⟨congrArg (· + 1) h.executions, by omega, fun hlt => by omega, ?_, ?_⟩
      · exact fun other hother => (hkept other hother).trans (by omega)
      · exact h.known.trans (by omega)
  · have hcount : failures fails (k + 1) = failures fails k := by
      rw [failures, Nat.count_succ, if_neg hf]
      rfl
    rw [if_neg (fun hretry => hf hretry.1)]
    rw [hcount] at hmore
    refine ⟨congrArg (· + 1) h.executions, by omega, fun _ => ?_, ?_, ?_⟩
    · rw [hcount]
      omega
    · rwa [hcount]
    · exact h.known.trans (by omega)

theorem exists_step (settings : QueueSettings) (fails : Nat → Bool) {s : State}
    (hwaiting : 1 ≤ s.waiting.length) (hknown : s.known.length < 2 ^ 48) :
    ∃ job d s', s.waiting[0]? = some job ∧
      jobId (Runner.retryMessage job.message (dispatchId d)) ∉ s.known ∧
      step settings fails s (.run 0 d) = some s' ∧ s'.executions = s.executions + 1 := by
  obtain ⟨job, rest, hcons⟩ := List.exists_cons_of_length_pos (l := s.waiting) hwaiting
  have hjob : s.waiting[0]? = some job := by simp [hcons]
  obtain ⟨d, hfresh⟩ := exists_fresh job.message hknown
  obtain ⟨s', hs⟩ : ∃ s', step settings fails s (.run 0 d) = some s' := by
    simp [step, hjob]
  refine ⟨job, d, s', hjob, hfresh, hs, ?_⟩
  obtain ⟨-, -, rfl⟩ := step_run hs
  split <;> simp

/-- As long as the failures keep up with the successes, a job is left for a further execution. -/
theorem exists_running (message : StageMessage) (hbudget : settings.maxAttempts ≠ 1)
    (hmore : ∀ n ≤ settings.maxAttempts, n ≤ 2 * failures fails n) {k : Nat}
    (hk : k ≤ settings.maxAttempts) :
    ∃ s, (machine settings fails message).Reach s ∧ Running settings fails k s := by
  induction k with
  | zero =>
    refine ⟨initial message, ⟨_, rfl, .refl _⟩, rfl, le_rfl, fun _ => ?_, ?_, le_rfl⟩
    · simp [initial, failures]
    · intro job hjob
      rw [List.mem_singleton.1 hjob]
      exact Nat.zero_le _
  | succ k ih =>
    obtain ⟨s, hreach, hrun⟩ := ih (by omega)
    have hknown : s.known.length < 2 ^ 48 := by
      have := hrun.known
      have := settings.maxAttempts_le
      omega
    obtain ⟨job, d, s', hjob, hfresh, hs, -⟩ := exists_step settings fails hrun.waiting hknown
    exact ⟨s', hreach.run (Machine.Run.single (a := .run 0 d) trivial hs),
      running_succ hrun hbudget (by omega) (hmore _ hk) hjob hfresh hs⟩

/-! ## The budget -/

/-- The executions caused by one message stay within `max_attempts` exactly when `max_attempts` is 1
or, among the first `n` executions for some `n` up to `max_attempts`, fewer than half fail. -/
theorem executions_le_iff (settings : QueueSettings) (fails : Nat → Bool)
    (message : StageMessage) :
    (∀ s, (machine settings fails message).Reach s → s.executions ≤ settings.maxAttempts) ↔
      settings.maxAttempts = 1 ∨
        ∃ n ≤ settings.maxAttempts, 2 * Nat.count (fun k => fails k = true) n < n := by
  constructor
  · intro hle
    by_contra hnot
    simp only [not_or, not_exists, not_and, not_lt] at hnot
    obtain ⟨s, hreach, hrun⟩ := exists_running message hnot.1 hnot.2 le_rfl
    have hknown : s.known.length < 2 ^ 48 := by
      have := hrun.known
      have := settings.maxAttempts_le
      omega
    obtain ⟨job, d, s', -, -, hs, hexec⟩ := exists_step settings fails hrun.waiting hknown
    have hover := hle s' (hreach.run (Machine.Run.single (a := .run 0 d) trivial hs))
    rw [hexec, hrun.executions] at hover
    omega
  · rintro (h1 | ⟨n, hn, hdrained⟩) s hs
    · rw [h1]
      exact executions_le_one h1 hs
    · exact (executions_le_of_drained hdrained hs).trans hn

def parserMessage : StageMessage :=
  { jobId := 10, contractId := 1, projectId := 2, stage := .parser, dispatchId := "5f3a9c1be07d" }

/-- A parser that fails every time, under the default budget of 3: its job runs twice, then the two
jobs that Python queued run, each as a first attempt. -/
theorem budget_exceeded :
    ¬ ∀ settings fails message s, (machine settings fails message).Reach s →
      s.executions ≤ settings.maxAttempts := by
  have hrun : ((machine {} (fun _ => true) parserMessage).exec (initial parserMessage)
      [.run 0 1, .run 1 2, .run 0 3, .run 0 4]).map State.executions = some 4 := by decide
  obtain ⟨s, hs, hexec⟩ := Option.map_eq_some_iff.1 hrun
  intro hle
  have hover := hle _ _ _ s (Machine.reach_of_exec rfl hs)
  rw [hexec] at hover
  exact absurd hover (by decide)

end Worker

end Clear
