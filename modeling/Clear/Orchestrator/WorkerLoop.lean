import Clear.Orchestrator.PostgresQueue
import Clear.Orchestrator.Runner

/-!
# Worker loop

`_run_claimed` (`app/cli.py`) runs one claimed row and settles its lease: a `run_stage` that
returned marks the row done, one that raised fails it. So a stage is retried in two places: the
runner queues a fresh message for a retryable failure, and `fail` reschedules the row of a crash.

`machine` runs any number of workers on one queue. It records which rows descend from one dispatched
message and how often that message's stage was executed on them; no operation reads the two.
-/

namespace Clear

namespace WorkerLoop

/-- How `run_stage` ended for a task. -/
inductive Result where
  | returned | raised
  deriving DecidableEq

/-- The queue with its tasks, how `run_stage` ended for each task, the rows that descend from the
dispatched message, and the executions of its stage on them. -/
structure State where
  queue : Leases.State := ⟨.empty, [], 0, fun _ => none, [], fun _ => false⟩
  results : Nat → Option Result := fun _ => none
  family : List Uuid := []
  executions : Nat := 0

def State.Descends (s : State) (row : Uuid) : Prop := row ∈ s.family

instance (s : State) (row : Uuid) : Decidable (s.Descends row) :=
  decidable_of_iff (s.family.contains row = true) List.contains_iff_mem

inductive Action (Payload : Type) where
  /-- The message is dispatched. -/
  | dispatch (id : Uuid) (delayMs : Nat) (now : Timestamp)
  /-- `run_stage` runs on the row of a task and returns or raises. -/
  | run (task : Leases.Task) (db : Db) (call : StageCall Payload) (id : Uuid) (now : Timestamp)
  /-- `run_stage` raises something that the stage had no part in. -/
  | crash (task : Leases.Task)
  /-- Any other message is queued, or a worker claims, settles or dies. -/
  | queue (a : Leases.Action)

/-- `_run_claimed` completes a row after `run_stage` returned and fails it after it raised. -/
def settles (results : Nat → Option Result) : Leases.Action → Bool
  | .complete task => results task.id = some .returned
  | .failRead task => results task.id = some .raised
  | _ => true

section
variable {Payload : Type} (settings : QueueSettings) (message : StageMessage)

/-- Queue a message that descends from the dispatched one. A message whose dispatch id is taken
inserts no row. -/
def descend (s : State) (id : Uuid) (m : StageMessage) (delayMs : Nat) (now : Timestamp) :
    Option State :=
  (Leases.step s.queue (.enqueue id m delayMs settings.maxAttempts now)).map fun queue =>
    { s with
      queue
      family := if m.dispatchId ∈ s.queue.table.rows.map (·.dispatchId) then s.family
        else s.family ++ [id] }

def send (s : State) (task : Leases.Task) (id : Uuid) (m : StageMessage) (delayMs : Nat)
    (now : Timestamp) : Option State :=
  if s.Descends task.item.rowId then descend settings s id m delayMs now
  else
    (Leases.step s.queue (.enqueue id m delayMs settings.maxAttempts now)).map fun queue =>
      { s with queue }

def State.execute (s : State) (task : Leases.Task) (result : Result) : State :=
  { s with
    results := Function.update s.results task.id (some result)
    executions :=
      if s.Descends task.item.rowId ∧ task.item.message.stage = message.stage then s.executions + 1
      else s.executions }

def Waiting (s : State) (task : Leases.Task) : Prop :=
  task ∈ s.queue.tasks ∧ task.phase = .running ∧ s.results task.id = none

instance (s : State) (task : Leases.Task) : Decidable (Waiting s task) :=
  inferInstanceAs (Decidable (_ ∧ _ ∧ _))

def step (s : State) : Action Payload → Option State
  | .dispatch id delayMs now =>
    if s.family = [] then descend settings s id message delayMs now else none
  | .run task db call id now =>
    if Waiting s task then
      match Runner.runStage { call with settings } db task.item.message with
      | .error _ => some (s.execute message task .raised)
      | .ok (_, _, none) => some (s.execute message task .returned)
      | .ok (_, _, some (next, delayMs)) =>
        send settings (s.execute message task .returned) task id next delayMs now
    else none
  | .crash task =>
    if Waiting s task then some (s.execute message task .raised) else none
  | .queue a =>
    if settles s.results a then (Leases.step s.queue a).map fun queue => { s with queue } else none

/-- Any number of workers on one queue, with one message dispatched among any others. -/
def machine : Machine State (Action Payload) where
  init s := s = {}
  step := step settings message

end

end WorkerLoop

end Clear
