import Mathlib.Algebra.GroupWithZero.Nat
import Clear.Orchestrator.Proof.Leases
import Clear.Orchestrator.Proof.Pipeline
import Clear.Orchestrator.WorkerLoop

/-!
# The retry budget of the Postgres queue

A retry message carries the next attempt, and so does a rescheduled row: every way of running the
stage once more uses up an attempt. What a row can still lead to is its `weight`; the executions so
far and the weights of all rows together never exceed `max_attempts` (`Inv.budget`), so neither do
the executions (`executions_le`).
-/

namespace Clear

/-! ## Sums over rows -/

section
variable {α : Type} {l : List α} {f g : α → Nat}

theorem sum_map_le (h : ∀ x ∈ l, g x ≤ f x) : (l.map g).sum ≤ (l.map f).sum := by
  induction l with
  | nil => simp
  | cons y l ih =>
    have hy := h y List.mem_cons_self
    have hl := ih fun x hx => h x (List.mem_cons_of_mem y hx)
    simp only [List.map_cons, List.sum_cons]
    omega

theorem sum_map_add_le {x : α} {k : Nat} (h : ∀ x ∈ l, g x ≤ f x) (hx : x ∈ l)
    (hk : g x + k ≤ f x) : (l.map g).sum + k ≤ (l.map f).sum := by
  obtain ⟨l₁, l₂, rfl⟩ := List.append_of_mem hx
  have h₁ : (l₁.map g).sum ≤ (l₁.map f).sum := sum_map_le fun y hy => h y (by simp [hy])
  have h₂ : (l₂.map g).sum ≤ (l₂.map f).sum := sum_map_le fun y hy => h y (by simp [hy])
  simp only [List.map_append, List.map_cons, List.sum_append, List.sum_cons]
  omega

end

/-! ## What a stage sends -/

namespace Runner

variable {Payload : Type} {call : StageCall Payload} {db db' : Db} {message sent : StageMessage}
  {outcome : StageOutcome} {delayMs : Nat}

def Behind (stage next : PipelineStage) : Prop :=
  ∃ i j, stageIndex stage = some i ∧ stageIndex next = some j ∧ i < j

theorem Behind.ne {stage next : PipelineStage} (h : Behind stage next) : next ≠ stage := by
  rintro rfl
  obtain ⟨i, j, hi, hj, hlt⟩ := h
  rw [hi, Option.some.injEq] at hj
  omega

theorem Behind.trans {a b c : PipelineStage} (h : Behind a b) (h' : Behind b c) : Behind a c := by
  obtain ⟨i, j, hi, hj, hlt⟩ := h
  obtain ⟨j', k, hj', hk, hlt'⟩ := h'
  rw [hj, Option.some.injEq] at hj'
  exact ⟨i, k, hi, hk, by omega⟩

theorem sent_cases (h : runStage call db message = .ok (db', outcome, some (sent, delayMs))) :
    (sent.stage = message.stage ∧ sent.attempt = message.attempt + 1 ∧
        message.attempt < call.settings.maxAttempts) ∨
      Behind message.stage sent.stage := by
  obtain ⟨executed, hexec, ⟨-, hsent⟩ | ⟨_, _, -, hnone, -⟩⟩ := runStage_cases h
  case inr => cases hnone
  have hnext : ∀ next, outcome.nextStage = some next → Behind message.stage next := by
    intro next hnext
    cases execute_cases hexec with
    | idle _ _ none => cases none.symm.trans hnext
    | skipped _ _ _ _ after => exact nextAfter_some (after.symm.trans hnext)
    | failed _ _ _ _ handled =>
      obtain ⟨error, rfl⟩ := handleFailure_outcome handled
      cases hnext
    | halted _ _ _ _ _ none => cases none.symm.trans hnext
    | advanced _ _ _ _ _ _ after => exact nextAfter_some (after.symm.trans hnext)
  unfold dispatches at hsent
  split at hsent
  next next hsome =>
    split at hsent <;> cases hsent
    exact .inr (hnext next hsome)
  next =>
    split at hsent <;> cases hsent
    next hretry =>
      refine .inl ⟨rfl, rfl, ?_⟩
      cases execute_cases hexec with
      | idle _ _ _ retry => simp [retry] at hretry
      | skipped _ _ _ _ _ retry => simp [retry] at hretry
      | failed _ _ _ _ handled =>
        obtain ⟨error, rfl⟩ := handleFailure_outcome handled
        simp only [failureOutcome, canRetry, Bool.and_eq_true, decide_eq_true_eq] at hretry
        exact hretry.2
      | halted _ _ _ _ _ _ retry => simp [retry] at hretry
      | advanced _ _ _ _ _ _ _ retry => simp [retry] at hretry

end Runner

namespace WorkerLoop

open QueueTable

variable {Payload : Type} {settings : QueueSettings} {message : StageMessage} {s s' : State}

/-! ## Weights -/

def due (settings : QueueSettings) (attempt : Nat) : Nat := max 1 (settings.maxAttempts + 1 - attempt)

/-- The executions a claimed row can still lead to, by how its task ended so far. -/
def owed (settings : QueueSettings) (attempt : Nat) : Option Result → Nat
  | none => due settings attempt
  | some .raised => settings.maxAttempts - attempt
  | some .returned => 0

/-- The executions a row can still lead to; `claim` is how the task of its claim ended so far. -/
def rowWeight (settings : QueueSettings) (r : StageQueueEntry) (claim : Option (Option Result)) :
    Nat :=
  match r.state, claim with
  | .pending, _ => due settings r.attempt
  | .claimed, some result => owed settings r.attempt result
  | _, _ => 0

def weight (settings : QueueSettings) (message : StageMessage) (s : State) (r : StageQueueEntry) :
    Nat :=
  if s.Descends r.id ∧ r.payload.stage = message.stage then
    rowWeight settings r ((s.queue.holder r.id).map s.results)
  else 0

def Counts (message : StageMessage) (s : State) (r : StageQueueEntry) : Prop :=
  s.Descends r.id ∧ r.payload.stage = message.stage

theorem weight_counts {r : StageQueueEntry} (h : Counts message s r) :
    weight settings message s r = rowWeight settings r ((s.queue.holder r.id).map s.results) :=
  if_pos h

theorem weight_not_counts {r : StageQueueEntry} (h : ¬ Counts message s r) :
    weight settings message s r = 0 := if_neg h

def potential (settings : QueueSettings) (message : StageMessage) (s : State) : Nat :=
  (s.queue.table.rows.map (weight settings message s)).sum

/-- The invariant (module doc). -/
structure Inv (settings : QueueSettings) (message : StageMessage) (s : State) : Prop where
  leases : Leases.Inv s.queue
  unreclaimed : s.queue.reclaimed = []
  known : ∀ id ∈ s.family, id ∈ s.queue.table.rows.map (·.id)
  rows : ∀ r ∈ s.queue.table.rows, s.Descends r.id →
    r.maxAttempts = settings.maxAttempts ∧
      (r.payload.stage = message.stage ∨ Runner.Behind message.stage r.payload.stage)
  items : ∀ task ∈ s.queue.tasks, ∀ r ∈ s.queue.table.rows, r.id = task.item.rowId →
    task.item.message = { r.payload with attempt := r.attempt }
  failing : ∀ task ∈ s.queue.tasks, ∀ attempt maxAttempts,
    task.phase = .failing attempt maxAttempts → s.results task.id = some .raised ∧
      ∀ r ∈ s.queue.table.rows, r.id = task.item.rowId →
        r.attempt = attempt ∧ r.maxAttempts = maxAttempts
  unstarted : ∀ id, s.queue.nextTask ≤ id → s.results id = none
  undispatched : s.family = [] → s.executions = 0
  budget : s.executions + potential settings message s ≤ settings.maxAttempts

def NoReclaim (s : State) (a : Action Payload) : Prop :=
  ∀ leaseSeconds now, a = .queue (.reclaim leaseSeconds now) →
    s.queue.table.aged leaseSeconds now = []

/-! ## Tasks and their rows -/

theorem Inv.unleased (h : Inv settings message s) (task : Leases.Task) :
    task.id ∉ s.queue.reclaimed := by simp [h.unreclaimed]

theorem Inv.holds (h : Inv settings message s) {task : Leases.Task}
    (htask : task ∈ s.queue.tasks) : s.queue.holder task.item.rowId = some task.id :=
  h.leases.holds htask (h.unleased task)

theorem Inv.row (h : Inv settings message s) {task : Leases.Task} (htask : task ∈ s.queue.tasks) :
    ∃ r ∈ s.queue.table.rows, r.id = task.item.rowId ∧ r.state = .claimed :=
  h.leases.settled_claimed htask (h.unleased task)

theorem Inv.task_eq (h : Inv settings message s) {task other : Leases.Task}
    (htask : task ∈ s.queue.tasks) (hother : other ∈ s.queue.tasks)
    (hrow : other.item.rowId = task.item.rowId) : other = task := by
  have hholder := h.holds hother
  rw [hrow, h.holds htask] at hholder
  exact Keyed.inj h.leases.distinct hother htask (Option.some.inj hholder).symm

/-! ## Queueing a message -/

theorem enqueue_cases {t t' : QueueTable} {id : Uuid} {m : StageMessage}
    {delayMs maxAttempts : Nat} {now : Timestamp}
    (h : t.enqueue id m delayMs maxAttempts now = some t') :
    id ∉ t.rows.map (·.id) ∧
      ((m.dispatchId ∈ t.rows.map (·.dispatchId) ∧ t' = t) ∨
        (m.dispatchId ∉ t.rows.map (·.dispatchId) ∧
          t'.rows = t.rows ++ [entryOf id m delayMs maxAttempts now])) := by
  unfold QueueTable.enqueue QueueTable.insert at h
  split at h
  next hid =>
    refine ⟨hid, ?_⟩
    split at h
    next hdispatch =>
      cases h
      exact .inr ⟨hdispatch, rfl⟩
    next hdispatch =>
      cases h
      exact .inl ⟨by simpa [Keyed.Fresh, entryOf] using hdispatch, rfl⟩
  next => cases h

theorem Inv.not_task_row (h : Inv settings message s) {task : Leases.Task}
    (htask : task ∈ s.queue.tasks) {id : Uuid} (hid : id ∉ s.queue.table.rows.map (·.id)) :
    id ≠ task.item.rowId := by
  obtain ⟨r, hr, hrow, -⟩ := h.row htask
  rintro rfl
  exact hid (hrow ▸ List.mem_map_of_mem hr)

section
variable {id : Uuid} {m : StageMessage} {delayMs : Nat} {now : Timestamp}

theorem Inv.enqueue (h : Inv settings message s) {maxAttempts : Nat} {queue : Leases.State}
    (hq : Leases.step s.queue (.enqueue id m delayMs maxAttempts now) = some queue) :
    Inv settings message { s with queue } := by
  obtain ⟨table, htable, rfl⟩ := Option.map_eq_some_iff.1 hq
  obtain ⟨hid, ⟨-, rfl⟩ | ⟨-, hrows⟩⟩ := enqueue_cases htable
  · exact h
  have hnew : id ∉ s.family := fun hmem => hid (h.known id hmem)
  refine ⟨h.leases.enqueue hq, h.unreclaimed, ?_, ?_, ?_, ?_, h.unstarted, h.undispatched, ?_⟩
  · intro i hi
    rw [hrows, List.map_append]
    exact List.mem_append_left _ (h.known i hi)
  · intro r hr hfamily
    rw [hrows, List.mem_append, List.mem_singleton] at hr
    rcases hr with hr | rfl
    · exact h.rows r hr hfamily
    · exact absurd hfamily hnew
  · intro task htask r hr hrow
    rw [hrows, List.mem_append, List.mem_singleton] at hr
    rcases hr with hr | rfl
    · exact h.items task htask r hr hrow
    · exact absurd hrow (h.not_task_row htask hid)
  · intro task htask attempt maxAttempts hphase
    obtain ⟨hraised, hread⟩ := h.failing task htask attempt maxAttempts hphase
    refine ⟨hraised, fun r hr hrow => ?_⟩
    rw [hrows, List.mem_append, List.mem_singleton] at hr
    rcases hr with hr | rfl
    · exact hread r hr hrow
    · exact absurd hrow (h.not_task_row htask hid)
  · have hweight : weight settings message { s with queue := { s.queue with table } }
        (entryOf id m delayMs maxAttempts now) = 0 := if_neg fun hmem => hnew hmem.1
    have hsum : potential settings message { s with queue := { s.queue with table } } =
        potential settings message s := by
      unfold potential
      rw [hrows, List.map_append, List.sum_append, List.map_singleton, hweight]
      rfl
    rw [hsum]
    exact h.budget

theorem Inv.descend (h : Inv settings message s)
    (hstage : m.stage = message.stage ∨ Runner.Behind message.stage m.stage)
    (hbudget : m.stage = message.stage →
      s.executions + potential settings message s + due settings m.attempt ≤ settings.maxAttempts)
    (hs : descend settings s id m delayMs now = some s') : Inv settings message s' := by
  obtain ⟨queue, hq, rfl⟩ := Option.map_eq_some_iff.1 hs
  have hother := h.enqueue hq
  obtain ⟨table, htable, rfl⟩ := Option.map_eq_some_iff.1 hq
  obtain ⟨hid, ⟨hdispatch, rfl⟩ | ⟨hdispatch, hrows⟩⟩ := enqueue_cases htable
  · rw [if_pos hdispatch]
    exact h
  rw [if_neg hdispatch]
  refine ⟨hother.leases, hother.unreclaimed, ?_, ?_, hother.items, hother.failing,
    hother.unstarted, by simp, ?_⟩
  · intro i hi
    rcases List.mem_append.1 hi with hi | hi
    · exact hother.known i hi
    · simp [hrows, List.mem_singleton.1 hi, entryOf]
  · intro r hr hfamily
    rw [hrows, List.mem_append, List.mem_singleton] at hr
    rcases hr with hr | rfl
    · refine h.rows r hr ?_
      rcases List.mem_append.1 hfamily with hold | hnew
      · exact hold
      · exact absurd (List.mem_map_of_mem hr) (List.mem_singleton.1 hnew ▸ hid)
    · exact ⟨rfl, hstage⟩
  · set after : State :=
      { s with queue := { s.queue with table }, family := s.family ++ [id] } with hafter
    have hold : ∀ r ∈ s.queue.table.rows,
        weight settings message after r = weight settings message s r := by
      intro r hr
      have hne : r.id ≠ id := fun heq => hid (heq ▸ List.mem_map_of_mem hr)
      have hsame : Counts message after r ↔ Counts message s r := by
        simp [Counts, State.Descends, hafter, hne]
      by_cases hcount : Counts message s r
      · rw [weight_counts hcount, weight_counts (hsame.2 hcount)]
      · rw [weight_not_counts hcount, weight_not_counts (mt hsame.1 hcount)]
    have hnew : weight settings message after (entryOf id m delayMs settings.maxAttempts now) =
        if m.stage = message.stage then due settings m.attempt else 0 := by
      simp [weight, rowWeight, State.Descends, hafter, entryOf]
    have hsum : potential settings message after = potential settings message s +
        if m.stage = message.stage then due settings m.attempt else 0 := by
      unfold potential
      rw [show after.queue.table.rows = _ from hrows, List.map_append, List.sum_append,
        List.map_congr_left hold, List.map_singleton, hnew]
      simp
    show s.executions + potential settings message after ≤ _
    rw [hsum]
    have := h.budget
    split
    next heq =>
      have := hbudget heq
      omega
    next => omega

end

/-! ## Running a stage -/

section
variable {task : Leases.Task} {result : Result}

@[simp] theorem execute_queue : (s.execute message task result).queue = s.queue := rfl

@[simp] theorem execute_family : (s.execute message task result).family = s.family := rfl

@[simp] theorem execute_results : (s.execute message task result).results =
    Function.update s.results task.id (some result) := rfl

theorem execute_executions : (s.execute message task result).executions = s.executions +
    if s.Descends task.item.rowId ∧ task.item.message.stage = message.stage then 1 else 0 := by
  unfold State.execute
  split <;> rfl

theorem owed_le (attempt : Nat) (result : Option Result) :
    owed settings attempt result ≤ due settings attempt := by
  unfold owed due
  split <;> omega

theorem weight_execute_le (hnone : s.results task.id = none) (r : StageQueueEntry) :
    weight settings message (s.execute message task result) r ≤ weight settings message s r := by
  have hsame : Counts message (s.execute message task result) r ↔ Counts message s r := Iff.rfl
  by_cases hcount : Counts message s r
  · rw [weight_counts hcount, weight_counts (hsame.2 hcount), execute_queue, execute_results]
    cases s.queue.holder r.id with
    | none => exact Nat.le_refl _
    | some t =>
      by_cases ht : t = task.id
      · subst ht
        simp only [Option.map_some, Function.update_self, hnone]
        unfold rowWeight
        cases r.state <;> simp only [le_refl]
        exact owed_le r.attempt (some result)
      · simp only [Option.map_some, Function.update_of_ne ht, le_refl]
  · rw [weight_not_counts (mt hsame.1 hcount)]
    exact Nat.zero_le _

/-- What an execution leaves over: the row's weight, less the execution and what the row can still
lead to. -/
def spare (settings : QueueSettings) (attempt : Nat) (result : Result) : Nat :=
  due settings attempt - 1 - owed settings attempt (some result)

theorem spare_eq (attempt : Nat) (result : Result) :
    owed settings attempt (some result) + (1 + spare settings attempt result) =
      due settings attempt := by
  unfold spare due owed
  cases result <;> dsimp only <;> omega

theorem Inv.execute_pays (h : Inv settings message s) (hwait : Waiting s task) (result : Result) :
    (s.execute message task result).executions +
        potential settings message (s.execute message task result) +
        (if s.Descends task.item.rowId ∧ task.item.message.stage = message.stage then
          spare settings task.item.message.attempt result else 0) ≤ settings.maxAttempts := by
  obtain ⟨htask, -, hnone⟩ := hwait
  have hbudget := h.budget
  have hle : ∀ r ∈ s.queue.table.rows,
      weight settings message (s.execute message task result) r ≤ weight settings message s r :=
    fun r _ => weight_execute_le hnone r
  rw [execute_executions]
  unfold potential at hbudget ⊢
  rw [execute_queue]
  split
  next hcount =>
    obtain ⟨r, hr, hrow, hclaimed⟩ := h.row htask
    have hitem := h.items task htask r hr hrow
    have hmember : Counts message s r := ⟨hrow ▸ hcount.1, by rw [← hcount.2, hitem]⟩
    have hholder : s.queue.holder r.id = some task.id := by rw [hrow, h.holds htask]
    have hpays : weight settings message (s.execute message task result) r +
        (1 + spare settings r.attempt result) ≤ weight settings message s r := by
      rw [weight_counts hmember, weight_counts (s := s.execute message task result) hmember]
      simp only [execute_queue, execute_results, hholder, Option.map_some, Function.update_self,
        hnone, rowWeight, hclaimed]
      exact (spare_eq r.attempt result).le
    have hsum := sum_map_add_le hle hr hpays
    rw [hitem]
    dsimp only
    omega
  next =>
    have hsum := sum_map_le hle
    omega

theorem Inv.execute (h : Inv settings message s) (hwait : Waiting s task) (result : Result) :
    Inv settings message (s.execute message task result) where
  leases := h.leases
  unreclaimed := h.unreclaimed
  known := h.known
  rows := h.rows
  items := h.items
  failing other hother attempt maxAttempts hphase := by
    obtain ⟨hraised, hread⟩ := h.failing other hother attempt maxAttempts hphase
    refine ⟨?_, hread⟩
    have hne : other.id ≠ task.id := by
      intro heq
      obtain rfl := Keyed.inj h.leases.distinct hother hwait.1 heq
      rw [hwait.2.2] at hraised
      cases hraised
    exact (Function.update_of_ne hne _ _).trans hraised
  unstarted id hid := by
    have hlt := h.leases.ids task hwait.1
    rw [execute_queue] at hid
    exact (Function.update_of_ne (by omega) _ _).trans (h.unstarted id hid)
  undispatched hfamily := by
    rw [execute_family] at hfamily
    rw [execute_executions, h.undispatched hfamily, if_neg (by simp [State.Descends, hfamily])]
  budget := by
    have := h.execute_pays hwait result
    omega

theorem Inv.run (h : Inv settings message s) {db : Db} {call : StageCall Payload} {id : Uuid}
    {now : Timestamp}
    (hs : step settings message s (.run task db call id now) = some s') :
    Inv settings message s' := by
  simp only [step, Option.ite_none_right_eq_some] at hs
  obtain ⟨hwait, hs⟩ := hs
  split at hs
  next => cases hs; exact h.execute hwait .raised
  next => cases hs; exact h.execute hwait .returned
  next sent delayMs hrun =>
    have hdone := h.execute hwait .returned
    unfold send at hs
    split at hs
    next hfamily =>
      obtain ⟨r, hr, hrow, -⟩ := h.row hwait.1
      have hstage : task.item.message.stage = r.payload.stage := by
        rw [h.items task hwait.1 r hr hrow]
      have hplace := (h.rows r hr (hrow ▸ hfamily)).2
      rw [← hstage] at hplace
      refine hdone.descend ?_ (fun heq => ?_) hs
      · rcases Runner.sent_cases hrun with ⟨hsame, -⟩ | hbehind
        · rw [hsame]
          exact hplace
        · rcases hplace with heq | hplace
          · exact .inr (heq ▸ hbehind)
          · exact .inr (hplace.trans hbehind)
      · have hpays := h.execute_pays hwait .returned
        rcases Runner.sent_cases hrun with ⟨hsame, hattempt, hlt⟩ | hbehind
        · rw [if_pos ⟨hfamily, hsame.symm.trans heq⟩] at hpays
          have hlt : task.item.message.attempt < settings.maxAttempts := hlt
          have hdue : due settings sent.attempt =
              spare settings task.item.message.attempt .returned := by
            rw [hattempt]
            unfold spare due owed
            dsimp only
            omega
          rw [hdue]
          exact hpays
        · rcases hplace with hsame | hplace
          · exact absurd (heq.trans hsame.symm) hbehind.ne
          · exact absurd heq (hplace.trans hbehind).ne
    next =>
      obtain ⟨queue, hq, rfl⟩ := Option.map_eq_some_iff.1 hs
      exact hdone.enqueue hq

end

/-! ## Claiming and settling -/

/-- A step that writes rows without their identity, message and budget keeps the invariant when no row
can lead to more than before. -/
theorem Inv.rewrite (h : Inv settings message s) {queue : Leases.State}
    {f : StageQueueEntry → StageQueueEntry} (leases : Leases.Inv queue)
    (unreclaimed : queue.reclaimed = []) (hnext : s.queue.nextTask ≤ queue.nextTask)
    (hrows : queue.table.rows = s.queue.table.rows.map f) (hid : ∀ r, (f r).id = r.id)
    (hpayload : ∀ r, (f r).payload = r.payload) (hmax : ∀ r, (f r).maxAttempts = r.maxAttempts)
    (hread : ∀ task ∈ queue.tasks, ∀ r ∈ s.queue.table.rows, r.id = task.item.rowId →
      task.item.message = { r.payload with attempt := (f r).attempt } ∧
        ∀ attempt maxAttempts, task.phase = .failing attempt maxAttempts →
          (f r).attempt = attempt ∧ r.maxAttempts = maxAttempts)
    (hraised : ∀ task ∈ queue.tasks, ∀ attempt maxAttempts,
      task.phase = .failing attempt maxAttempts → s.results task.id = some .raised)
    (hweight : ∀ r ∈ s.queue.table.rows, Counts message s r →
      rowWeight settings (f r) ((queue.holder r.id).map s.results) ≤
        rowWeight settings r ((s.queue.holder r.id).map s.results)) :
    Inv settings message { s with queue } := by
  refine ⟨leases, unreclaimed, ?_, ?_, ?_, ?_, fun id hi => h.unstarted id (hnext.trans hi),
    h.undispatched, ?_⟩
  · intro id hmem
    have hsame : (fun r : StageQueueEntry => r.id) ∘ f = fun r => r.id := funext hid
    rw [hrows, List.map_map, hsame]
    exact h.known id hmem
  · intro r' hr' hfamily
    obtain ⟨r, hr, rfl⟩ := List.mem_map.1 (hrows ▸ hr')
    rw [hmax, hpayload]
    exact h.rows r hr (hid r ▸ hfamily)
  · intro task htask r' hr' hrow
    obtain ⟨r, hr, rfl⟩ := List.mem_map.1 (hrows ▸ hr')
    rw [hpayload]
    exact (hread task htask r hr (hid r ▸ hrow)).1
  · intro task htask attempt maxAttempts hphase
    refine ⟨hraised task htask attempt maxAttempts hphase, fun r' hr' hrow => ?_⟩
    obtain ⟨r, hr, rfl⟩ := List.mem_map.1 (hrows ▸ hr')
    rw [hmax]
    exact (hread task htask r hr (hid r ▸ hrow)).2 attempt maxAttempts hphase
  · have hle : ∀ r ∈ s.queue.table.rows, (weight settings message { s with queue } ∘ f) r ≤
        weight settings message s r := by
      intro r hr
      show weight settings message { s with queue } (f r) ≤ _
      have hsame : Counts message { s with queue } (f r) ↔ Counts message s r := by
        unfold Counts
        rw [hid, hpayload]
        exact Iff.rfl
      by_cases hcount : Counts message s r
      · rw [weight_counts hcount, weight_counts (hsame.2 hcount), hid]
        exact hweight r hr hcount
      · rw [weight_not_counts (mt hsame.1 hcount)]
        exact Nat.zero_le _
    have hsum := sum_map_le hle
    have hbudget := h.budget
    unfold potential at hbudget ⊢
    rw [hrows, List.map_map]
    show s.executions + _ ≤ _
    omega

theorem Inv.reads (h : Inv settings message s) {task : Leases.Task} (htask : task ∈ s.queue.tasks)
    {r : StageQueueEntry} (hr : r ∈ s.queue.table.rows) (hrow : r.id = task.item.rowId) :
    task.item.message = { r.payload with attempt := r.attempt } ∧
      ∀ attempt maxAttempts, task.phase = .failing attempt maxAttempts →
        r.attempt = attempt ∧ r.maxAttempts = maxAttempts :=
  ⟨h.items task htask r hr hrow,
    fun attempt maxAttempts hphase => (h.failing task htask attempt maxAttempts hphase).2 r hr hrow⟩

theorem Inv.raised (h : Inv settings message s) {task : Leases.Task}
    (htask : task ∈ s.queue.tasks) (attempt maxAttempts : Nat)
    (hphase : task.phase = .failing attempt maxAttempts) : s.results task.id = some .raised :=
  (h.failing task htask attempt maxAttempts hphase).1

theorem Inv.settle (h : Inv settings message s) {task : Leases.Task}
    (htask : task ∈ s.queue.tasks) {table : QueueTable} {completed : Uuid → Bool}
    {g : StageQueueEntry → StageQueueEntry}
    (leases : Leases.Inv
      { s.queue with
        table
        tasks := s.queue.tasks.erase task
        holder := Function.update s.queue.holder task.item.rowId none
        completed })
    (hrows : table.rows = s.queue.table.rows.map fun r =>
      if decide (r.id = task.item.rowId) then g r else r)
    (hid : ∀ r, (g r).id = r.id) (hpayload : ∀ r, (g r).payload = r.payload)
    (hmax : ∀ r, (g r).maxAttempts = r.maxAttempts)
    (hweight : ∀ r ∈ s.queue.table.rows, r.id = task.item.rowId → r.state = .claimed →
      s.Descends r.id →
        rowWeight settings (g r) none ≤ owed settings r.attempt (s.results task.id)) :
    Inv settings message
      { s with
        queue :=
          { s.queue with
            table
            tasks := s.queue.tasks.erase task
            holder := Function.update s.queue.holder task.item.rowId none
            completed } } := by
  have hothers : ∀ other ∈ s.queue.tasks.erase task, other ∈ s.queue.tasks ∧
      other.item.rowId ≠ task.item.rowId := by
    intro other hother
    have hin := List.mem_of_mem_erase hother
    refine ⟨hin, fun heq => ?_⟩
    rw [h.task_eq htask hin heq] at hother
    exact (h.leases.distinct.of_map _).not_mem_erase hother
  refine h.rewrite leases h.unreclaimed (Nat.le_refl _) hrows ?_ ?_ ?_ ?_ ?_ ?_
  · intro r
    split <;> simp [hid]
  · intro r
    split <;> simp [hpayload]
  · intro r
    split <;> simp [hmax]
  · intro other hother r hr hrow
    obtain ⟨hin, hne⟩ := hothers other hother
    rw [if_neg (by simp [hrow, hne])]
    exact h.reads hin hr hrow
  · exact fun other hother => h.raised (hothers other hother).1
  · intro r hr hcount
    dsimp only
    by_cases hrow : r.id = task.item.rowId
    · obtain ⟨claimed, hclaimed, hsame, hstate⟩ := h.row htask
      obtain rfl := QueueTable.inj hr hclaimed (hrow.trans hsame.symm)
      rw [if_pos (by simpa using hrow), hrow, Function.update_self, h.holds htask]
      have hle := hweight r hr hrow hstate hcount.1
      simpa [rowWeight, hstate] using hle
    · rw [if_neg (by simpa using hrow), Function.update_of_ne hrow]

theorem Inv.complete (h : Inv settings message s) {task : Leases.Task} {queue : Leases.State}
    (hs : Leases.step s.queue (.complete task) = some queue) :
    Inv settings message { s with queue } := by
  obtain ⟨htask, rfl⟩ := Leases.step_complete hs
  refine h.settle htask (h.leases.complete htask (h.unleased task))
    (g := fun r => { r with state := .done, claimedAt := none, claimedBy := none }) rfl
    (fun _ => rfl) (fun _ => rfl) (fun _ => rfl) fun r _ _ _ _ => ?_
  exact Nat.zero_le _

theorem Inv.failWrite (h : Inv settings message s) {task : Leases.Task} {backoffMs : Nat}
    {error : JsonDict} {now : Timestamp} {queue : Leases.State}
    (hs : Leases.step s.queue (.failWrite task backoffMs error now) = some queue) :
    Inv settings message { s with queue } := by
  simp only [Leases.step] at hs
  split at hs
  next attempt maxAttempts hphase =>
    obtain ⟨htask, hs⟩ := Option.ite_none_right_eq_some.1 hs
    cases hs
    have hkeeps : ∀ r, (reschedule backoffMs attempt maxAttempts error now r).id = r.id ∧
        (reschedule backoffMs attempt maxAttempts error now r).payload = r.payload ∧
        (reschedule backoffMs attempt maxAttempts error now r).maxAttempts = r.maxAttempts := by
      intro r
      unfold reschedule
      split <;> exact ⟨rfl, rfl, rfl⟩
    refine h.settle htask (h.leases.failWrite htask (h.unleased task)) rfl
      (fun r => (hkeeps r).1) (fun r => (hkeeps r).2.1) (fun r => (hkeeps r).2.2)
      fun r hr hrow _ hfamily => ?_
    -- The row is rescheduled with what the crash left it, or it is dead.
    obtain ⟨hattempt, hmax⟩ := (h.failing task htask attempt maxAttempts hphase).2 r hr hrow
    rw [h.raised htask attempt maxAttempts hphase]
    have hsame := (h.rows r hr hfamily).1
    unfold reschedule
    split
    next hlt =>
      show due settings (attempt + 1) ≤ settings.maxAttempts - r.attempt
      unfold due
      omega
    next => exact Nat.zero_le _
  next => cases hs

theorem Inv.failRead (h : Inv settings message s) {task : Leases.Task} {queue : Leases.State}
    (hraised : s.results task.id = some .raised)
    (hs : Leases.step s.queue (.failRead task) = some queue) :
    Inv settings message { s with queue } := by
  simp only [Leases.step] at hs
  obtain ⟨⟨htask, -⟩, hs⟩ := Option.ite_none_right_eq_some.1 hs
  have hrows : s.queue.table.rows = s.queue.table.rows.map id := (List.map_id _).symm
  split at hs
  next attempt maxAttempts hread =>
    cases hs
    have hfound : ∀ r ∈ s.queue.table.rows, r.id = task.item.rowId →
        r.attempt = attempt ∧ r.maxAttempts = maxAttempts := by
      intro r hr hrow
      have hfind := Keyed.find_of_mem s.queue.table.idUnique hr
      unfold QueueTable.failRead at hread
      rw [← hrow, hfind, Option.map_some, Option.some.injEq, Prod.mk.injEq] at hread
      exact hread
    refine h.rewrite (h.leases.failRead htask _) h.unreclaimed (Nat.le_refl _) hrows (fun _ => rfl)
      (fun _ => rfl) (fun _ => rfl) ?_ ?_ fun _ _ _ => Nat.le_refl _
    · intro other hother r hr hrow
      rcases List.mem_append.1 hother with hold | hnew
      · exact h.reads (List.mem_of_mem_erase hold) hr hrow
      · obtain rfl := List.mem_singleton.1 hnew
        refine ⟨h.items task htask r hr hrow, fun attempt' maxAttempts' hphase => ?_⟩
        cases hphase
        exact hfound r hr hrow
    · intro other hother
      rcases List.mem_append.1 hother with hold | hnew
      · exact h.raised (List.mem_of_mem_erase hold)
      · obtain rfl := List.mem_singleton.1 hnew
        exact fun _ _ _ => hraised
  next =>
    cases hs
    exact h.rewrite (h.leases.erase task) h.unreclaimed (Nat.le_refl _) hrows (fun _ => rfl)
      (fun _ => rfl) (fun _ => rfl)
      (fun other hother r hr => h.reads (List.mem_of_mem_erase hother) hr)
      (fun other hother => h.raised (List.mem_of_mem_erase hother)) fun _ _ _ => Nat.le_refl _

theorem Inv.die (h : Inv settings message s) {task : Leases.Task} {queue : Leases.State}
    (hs : Leases.step s.queue (.die task) = some queue) :
    Inv settings message { s with queue } := by
  obtain rfl := Leases.step_die hs
  exact h.rewrite (h.leases.erase task) h.unreclaimed (Nat.le_refl _) (List.map_id _).symm
    (fun _ => rfl) (fun _ => rfl) (fun _ => rfl)
    (fun other hother r hr => h.reads (List.mem_of_mem_erase hother) hr)
    (fun other hother => h.raised (List.mem_of_mem_erase hother)) fun _ _ _ => Nat.le_refl _

/-- A claimed row can lead to what it could lead to while it was pending. -/
theorem Inv.claim (h : Inv settings message s) {db : Sql.Engine StageQueueEntry}
    {workerId : String} {locked : List Uuid} {limit : Nat} {stages : List PipelineStage}
    {now : Timestamp} {queue : Leases.State}
    (hs : Leases.step s.queue (.claim db workerId locked limit stages now) = some queue) :
    Inv settings message { s with queue } := by
  have leases := h.leases.claim hs
  cases hs
  let chosen := s.queue.table.claimSet db locked limit stages now
  let started := Leases.spawn workerId s.queue.nextTask (chosen.map claimedStage)
  have hchosen : ∀ r ∈ s.queue.table.rows, r.id ∈ chosen.map (·.id) → r ∈ chosen := by
    intro r hr hmem
    obtain ⟨r', hr', hid⟩ := List.mem_map.1 hmem
    rw [QueueTable.inj hr (claimSet_pending hr').1 hid.symm]
    exact hr'
  have hstarted : ∀ task ∈ started, ∃ r ∈ chosen, task.item = claimedStage r ∧
      s.queue.nextTask ≤ task.id ∧ task.phase = .running := by
    intro task htask
    obtain ⟨hitem, hge, -⟩ := Leases.mem_spawn htask
    obtain ⟨r, hr, heq⟩ := List.mem_map.1 hitem
    obtain ⟨i, hi, rfl⟩ := List.mem_mapIdx.1 htask
    exact ⟨r, hr, heq.symm, hge, rfl⟩
  refine h.rewrite leases h.unreclaimed (Nat.le_add_right _ _)
    (f := fun r => if decide (r.id ∈ chosen.map (·.id)) then lease workerId now r else r) rfl
    (fun r => ?_) (fun r => ?_) (fun r => ?_) ?_ ?_ ?_
  · split <;> rfl
  · split <;> rfl
  · split <;> rfl
  · intro task htask r hr hrow
    have hattempt : (if decide (r.id ∈ chosen.map (·.id)) then lease workerId now r else r).attempt =
        r.attempt := by split <;> rfl
    rw [hattempt]
    rcases List.mem_append.1 htask with hold | hnew
    · exact h.reads hold hr hrow
    · obtain ⟨r', hr', hitem, -, hphase⟩ := hstarted task hnew
      obtain rfl := QueueTable.inj hr (claimSet_pending hr').1 (by rw [hrow, hitem]; rfl)
      rw [hitem, hphase]
      exact ⟨rfl, fun _ _ h => by cases h⟩
  · intro task htask
    rcases List.mem_append.1 htask with hold | hnew
    · exact h.raised hold
    · obtain ⟨-, -, -, -, hphase⟩ := hstarted task hnew
      rw [hphase]
      exact fun _ _ h => by cases h
  · intro r hr _
    dsimp only
    by_cases hmem : r.id ∈ chosen.map (·.id)
    · rw [if_pos (by simpa using hmem)]
      have hpending := (claimSet_pending (hchosen r hr hmem)).2
      have hbefore : rowWeight settings r ((s.queue.holder r.id).map s.results) =
          due settings r.attempt := by simp [rowWeight, hpending]
      rw [hbefore]
      unfold rowWeight
      split
      next heq => cases heq
      next => exact owed_le _ _
      next => exact Nat.zero_le _
    · rw [if_neg (by simpa using hmem)]
      have hnone : started.find? (·.item.rowId = r.id) = none := by
        refine List.find?_eq_none.2 fun task htask hrow => hmem ?_
        obtain ⟨r', hr', hitem, -⟩ := hstarted task htask
        rw [decide_eq_true_eq, hitem] at hrow
        exact hrow ▸ List.mem_map_of_mem hr'
      have hholder : ((started.find? (·.item.rowId = r.id)).map (·.id)).or
          (s.queue.holder r.id) = s.queue.holder r.id := by simp [hnone]
      exact Nat.le_of_eq (congrArg (fun o => rowWeight settings r (o.map s.results)) hholder)

theorem Inv.reclaim (h : Inv settings message s) {leaseSeconds : Nat} {now : Timestamp}
    {queue : Leases.State} (haged : s.queue.table.aged leaseSeconds now = [])
    (hs : Leases.step s.queue (.reclaim leaseSeconds now) = some queue) :
    Inv settings message { s with queue } := by
  have hkeep := h.leases.reclaim hs
  cases hs
  have hstale : ∀ r ∈ s.queue.table.rows, stale leaseSeconds now r = false := by
    intro r hr
    by_contra hstale
    have hmem : r.id ∈ s.queue.table.aged leaseSeconds now :=
      List.mem_map_of_mem (List.mem_filter.2 ⟨hr, by simpa using hstale⟩)
    simp [haged] at hmem
  have hrows : (s.queue.table.reclaimStale leaseSeconds now).rows =
      s.queue.table.rows.map id := by
    refine List.map_congr_left fun r hr => ?_
    rw [if_neg (by simp [hstale r hr])]
    rfl
  refine h.rewrite hkeep (by simp [haged, h.unreclaimed]) (Nat.le_refl _) hrows (fun _ => rfl)
    (fun _ => rfl) (fun _ => rfl) (fun task htask r hr => h.reads htask hr)
    (fun task htask => h.raised htask) fun r _ _ => ?_
  simp [haged]

/-! ## Runs -/

theorem inv_init : Inv settings message {} where
  leases := Leases.inv_init
  unreclaimed := rfl
  known := by simp
  rows := by simp [State.Descends]
  items := by simp
  failing := by simp
  unstarted := by simp
  undispatched := by simp
  budget := by simp [potential, QueueTable.empty]

theorem Inv.dispatch (h : Inv settings message s) (hattempt : 1 ≤ message.attempt) {id : Uuid} {delayMs : Nat} {now : Timestamp}
    (hs : @step Payload settings message s (.dispatch id delayMs now) = some s') :
    Inv settings message s' := by
  obtain ⟨hfamily, hs⟩ := Option.ite_none_right_eq_some.1 hs
  refine h.descend (.inl rfl) (fun _ => ?_) hs
  have hzero : potential settings message s = 0 := by
    unfold potential
    refine Nat.le_zero.1 ((sum_map_le (f := fun _ => 0) fun r _ => ?_).trans (by simp))
    rw [weight_not_counts (by simp [Counts, State.Descends, hfamily])]
  have := settings.one_le_maxAttempts
  rw [h.undispatched hfamily, hzero]
  unfold due
  omega

theorem Inv.preserved (h : Inv settings message s) (hattempt : 1 ≤ message.attempt)
    {a : Action Payload} (hG : NoReclaim s a) (hs : step settings message s a = some s') :
    Inv settings message s' := by
  cases a with
  | dispatch => exact h.dispatch hattempt hs
  | run => exact h.run hs
  | crash task =>
    obtain ⟨hwait, hs⟩ := Option.ite_none_right_eq_some.1 hs
    cases hs
    exact h.execute hwait .raised
  | queue a =>
    obtain ⟨hsettles, hs⟩ := Option.ite_none_right_eq_some.1 hs
    obtain ⟨queue, hq, rfl⟩ := Option.map_eq_some_iff.1 hs
    cases a with
    | enqueue => exact h.enqueue hq
    | claim => exact h.claim hq
    | complete => exact h.complete hq
    | failRead => exact h.failRead (of_decide_eq_true hsettles) hq
    | failWrite => exact h.failWrite hq
    | die => exact h.die hq
    | reclaim leaseSeconds now => exact h.reclaim (hG leaseSeconds now rfl) hq

theorem invariant (Payload : Type) (hattempt : 1 ≤ message.attempt) :
    (@machine Payload settings message).Invariant NoReclaim
      (Inv settings message) where
  init s hs := by
    obtain rfl := hs
    exact inv_init
  step _ _ _ h hG hs := h.preserved hattempt hG hs

/-- With no lease taken back, the executions of a stage that descend from one dispatched message
stay within `max_attempts`, whichever of them fail, crash or succeed. -/
theorem executions_le_budget (hattempt : 1 ≤ message.attempt)
    (h : (@machine Payload settings message).ReachIf NoReclaim s) :
    s.executions ≤ settings.maxAttempts := by
  have hbudget := ((invariant Payload hattempt).reach h).budget
  omega

/-! ## A run through both ways of retrying -/

def fourAttempts : QueueSettings := { maxAttempts := 4 }

def parserMessage : StageMessage :=
  { jobId := 10, contractId := 1, projectId := 2, stage := .parser, dispatchId := "a" }

def jobTen : Db where
  jobs id := if id = 10 then some { id := 10, contractId := 1, projectId := 2 } else none
  contracts id := if id = 1 then some { id := 1, projectId := 2 } else none

def failing : StageCall Unit :=
  { Pipeline.Sample.call 50 0 (.error (.other "ConnectionError")) with dispatchId := "b" }

def firstTask : Leases.Task := { id := 0, workerId := "w", item := ⟨7, parserMessage, 1, 4⟩ }

def secondTask : Leases.Task where
  id := 1
  workerId := "w"
  item := ⟨8, { parserMessage with attempt := 2, dispatchId := "b" }, 2, 4⟩

def twoRetries : List (Action Unit) :=
  [.dispatch 7 0 0, .queue (.claim .stable "w" [] 1 [] 0), .run firstTask jobTen failing 8 0,
    .queue (.complete firstTask), .queue (.claim .stable "w" [] 1 [] 9000000), .crash secondTask,
    .queue (.failRead secondTask),
    .queue (.failWrite { secondTask with phase := .failing 2 4 } 5000 [] 9000000),
    .queue (.claim .stable "w" [] 1 [] 30000000)]

instance (s : State) (a : Action Payload) : Decidable (NoReclaim s a) :=
  match a with
  | .queue (.reclaim leaseSeconds now) =>
    decidable_of_iff (s.queue.table.aged leaseSeconds now = [])
      ⟨fun h _ _ heq => by cases heq; exact h, fun h => h _ _ rfl⟩
  | .dispatch .. | .run .. | .crash _ | .queue (.enqueue ..) | .queue (.claim ..)
  | .queue (.complete _) | .queue (.failRead _) | .queue (.failWrite ..) | .queue (.die _) =>
    isTrue fun _ _ heq => by cases heq

/-- The stage was executed twice, of four times at most. -/
theorem two_retries_within_budget :
    ∃ s, (@machine Unit fourAttempts parserMessage).ReachIf NoReclaim s ∧
      s.executions = 2 ∧ s.executions ≤ fourAttempts.maxAttempts := by
  have hrun : ((machine fourAttempts parserMessage).execIf NoReclaim {} twoRetries).map
      (·.executions) = some 2 := by decide
  obtain ⟨s, hs, hexec⟩ := Option.map_eq_some_iff.1 hrun
  have hreach : (machine fourAttempts parserMessage).ReachIf NoReclaim s :=
    ⟨{}, rfl, Machine.run_of_execIf hs⟩
  exact ⟨s, hreach, hexec, executions_le_budget (by decide) hreach⟩

end WorkerLoop

end Clear
