import Clear.Orchestrator.PostgresQueue

/-!
# Lease safety of the Postgres queue

A settle names the row only, so a worker that outlived its lease settles whatever the row has become
since. As long as no worker settles a row after its lease was taken back (`Unreclaimed`), the
queue is safe: `DONE` and `DEAD` are absorbing, only the holder of a row's claim settles it and a
completed row is never claimed again (`lease_safe`).

`Inv` carries the proof: the holder's row is claimed, a live task holds its row unless its lease
was reclaimed, and a completed row is `DONE`.
-/

namespace Clear

namespace QueueTable

variable {t : QueueTable}

theorem inj {a b : StageQueueEntry} (ha : a ∈ t.rows) (hb : b ∈ t.rows) (h : a.id = b.id) :
    a = b := Keyed.inj t.idUnique ha hb h

def At (t : QueueTable) (row : Uuid) (state : StageQueueState) : Prop :=
  ∃ r ∈ t.rows, r.id = row ∧ r.state = state

theorem At.unique {row : Uuid} {a b : StageQueueState} (ha : t.At row a) (hb : t.At row b) :
    a = b := by
  obtain ⟨r, hr, hid, rfl⟩ := ha
  obtain ⟨r', hr', hid', rfl⟩ := hb
  rw [inj hr hr' (hid.trans hid'.symm)]

section
variable {p : StageQueueEntry → Bool} {f : StageQueueEntry → StageQueueEntry}
  {hid : ∀ r, (f r).id = r.id} {hdispatch : ∀ r, (f r).dispatchId = r.dispatchId}
  {row : Uuid} {state : StageQueueState}

theorem At.update (h : t.At row state) (hp : ∀ r ∈ t.rows, r.id = row → p r = false) :
    (t.update p f hid hdispatch).At row state := by
  obtain ⟨r, hr, hrow, hs⟩ := h
  refine ⟨r, List.mem_map.2 ⟨r, hr, ?_⟩, hrow, hs⟩
  rw [if_neg (by simp [hp r hr hrow])]

theorem at_update {r : StageQueueEntry} (hr : r ∈ t.rows) (hp : p r = true) :
    (t.update p f hid hdispatch).At r.id (f r).state :=
  ⟨f r, List.mem_map.2 ⟨r, hr, by rw [if_pos hp]⟩, hid r, rfl⟩

end

theorem At.enqueue {t' : QueueTable} {id row : Uuid} {message : StageMessage}
    {delayMs maxAttempts : Nat} {now : Timestamp} {state : StageQueueState} (h : t.At row state)
    (he : t.enqueue id message delayMs maxAttempts now = some t') : t'.At row state := by
  obtain ⟨r, hr, hrow, hs⟩ := h
  unfold QueueTable.enqueue insert at he
  split at he
  · split at he
    · cases he
      exact ⟨r, List.mem_append_left _ hr, hrow, hs⟩
    · cases he
      exact ⟨r, hr, hrow, hs⟩
  · cases he

theorem claimSet_pending {db : Sql.Engine StageQueueEntry} {locked : List Uuid} {limit : Nat}
    {stages : List PipelineStage} {now : Timestamp} {r : StageQueueEntry}
    (h : r ∈ t.claimSet db locked limit stages now) : r ∈ t.rows ∧ r.state = .pending := by
  have hmem := (Sql.Engine.mem_select db).1 (List.mem_of_mem_take h)
  obtain ⟨hr, hp⟩ := List.mem_filter.1 hmem
  exact ⟨hr, (of_decide_eq_true hp).1⟩

theorem claimSet_nodup {db : Sql.Engine StageQueueEntry} {locked : List Uuid} {limit : Nat}
    {stages : List PipelineStage} {now : Timestamp} :
    ((t.claimSet db locked limit stages now).map (·.id)).Nodup := by
  have hsub : ((t.claimable locked stages now).map (·.id)).Nodup :=
    t.idUnique.sublist (List.filter_sublist.map _)
  have hperm := ((db.answers byPriority (t.claimable locked stages now)).perm.map (·.id))
  exact (hperm.nodup_iff.2 hsub).sublist ((List.take_sublist _ _).map _)

section
variable {row rowId : Uuid} {state : StageQueueState}

theorem At.claim {db : Sql.Engine StageQueueEntry} {workerId : String} {locked : List Uuid}
    {limit : Nat} {stages : List PipelineStage} {now : Timestamp} (h : t.At row state)
    (hstate : state ≠ .pending) : (t.claim db workerId locked limit stages now).1.At row state := by
  show (t.update _ (lease workerId now) (fun _ => rfl) fun _ => rfl).At row state
  refine h.update fun r hr hrow => decide_eq_false fun hmem => ?_
  obtain ⟨r', hr', hid⟩ := List.mem_map.1 hmem
  obtain ⟨hrows, hpending⟩ := claimSet_pending hr'
  exact hstate (h.unique ⟨r', hrows, hid.trans hrow, hpending⟩)

theorem claim_at {db : Sql.Engine StageQueueEntry} {workerId : String} {locked : List Uuid}
    {limit : Nat} {stages : List PipelineStage} {now : Timestamp} {r : StageQueueEntry}
    (h : r ∈ t.claimSet db locked limit stages now) :
    (t.claim db workerId locked limit stages now).1.At r.id .claimed := by
  show (t.update _ (lease workerId now) (fun _ => rfl) fun _ => rfl).At r.id .claimed
  exact at_update (claimSet_pending h).1 (decide_eq_true (List.mem_map_of_mem h))

theorem At.complete (h : t.At row state) (hne : row ≠ rowId) :
    (t.complete rowId).At row state :=
  h.update fun _ _ hrow => decide_eq_false fun hid => hne (hrow.symm.trans hid)

theorem complete_at (h : t.At rowId state) : (t.complete rowId).At rowId .done := by
  obtain ⟨r, hr, rfl, -⟩ := h
  exact at_update hr (decide_eq_true rfl)

theorem At.failWrite {backoffMs attempt maxAttempts : Nat} {error : JsonDict} {now : Timestamp}
    (h : t.At row state) (hne : row ≠ rowId) :
    (t.failWrite rowId backoffMs attempt maxAttempts error now).At row state :=
  h.update fun _ _ hrow => decide_eq_false fun hid => hne (hrow.symm.trans hid)

theorem At.reclaimStale {leaseSeconds : Nat} {now : Timestamp} (h : t.At row state)
    (hrow : row ∉ t.aged leaseSeconds now) : (t.reclaimStale leaseSeconds now).At row state := by
  refine h.update fun r hr hid => Bool.eq_false_iff.2 fun hstale => hrow ?_
  exact List.mem_map.2 ⟨r, List.mem_filter.2 ⟨hr, hstale⟩, hid⟩

theorem aged_claimed {leaseSeconds : Nat} {now : Timestamp} (h : row ∈ t.aged leaseSeconds now) :
    t.At row .claimed := by
  obtain ⟨r, hr, hid⟩ := List.mem_map.1 h
  obtain ⟨hrows, hstale⟩ := List.mem_filter.1 hr
  exact ⟨r, hrows, hid, (of_decide_eq_true hstale).1⟩

end

end QueueTable

namespace Leases

open QueueTable

/-! ## Statements -/

def claims (s : State) : Action → List StageQueueEntry
  | .claim db _ locked limit stages now => s.table.claimSet db locked limit stages now
  | _ => []

def settles : Action → Option Task
  | .complete task => some task
  | .failWrite task _ _ _ => some task
  | _ => none

structure StepSafe (s : State) (a : Action) (s' : State) : Prop where
  absorbing : ∀ row state, state = .done ∨ state = .dead → s.table.At row state →
    s'.table.At row state
  holder : ∀ task, settles a = some task →
    s.holder task.item.rowId = some task.id ∨ s'.table.rows = s.table.rows
  completed : ∀ r ∈ claims s a, s.completed r.id = false

def Unreclaimed (s : State) (a : Action) : Prop :=
  ∀ task, settles a = some task → task.id ∉ s.reclaimed

/-- The invariant (module doc). -/
structure Inv (s : State) : Prop where
  ids : ∀ task ∈ s.tasks, task.id < s.nextTask
  distinct : (s.tasks.map (·.id)).Nodup
  claimed : ∀ row task, s.holder row = some task → s.table.At row .claimed
  held : ∀ task ∈ s.tasks, task.id ∈ s.reclaimed ∨ s.holder task.item.rowId = some task.id
  done : ∀ row, s.completed row = true → s.table.At row .done

variable {s s' : State}

/-! ## Tasks a claim starts -/

theorem mem_spawn {workerId : String} {next : Nat} {items : List ClaimedStage} {task : Task}
    (h : task ∈ spawn workerId next items) :
    task.item ∈ items ∧ next ≤ task.id ∧ task.id < next + items.length := by
  obtain ⟨i, hi, rfl⟩ := List.mem_mapIdx.1 h
  exact ⟨List.getElem_mem hi, Nat.le_add_right _ _, Nat.add_lt_add_left hi _⟩

theorem spawn_ids (workerId : String) (next : Nat) (items : List ClaimedStage) :
    (spawn workerId next items).map (·.id) = List.range' next items.length := by
  apply List.ext_getElem <;> simp [spawn]

theorem spawn_items (workerId : String) (next : Nat) (items : List ClaimedStage) :
    (spawn workerId next items).map (·.item) = items := by
  apply List.ext_getElem <;> simp [spawn]

theorem find_spawn {workerId : String} {next : Nat} {items : List ClaimedStage} {task : Task}
    (hitems : (items.map (·.rowId)).Nodup) (h : task ∈ spawn workerId next items) :
    (spawn workerId next items).find? (·.item.rowId = task.item.rowId) = some task := by
  have hrows : ((spawn workerId next items).map (·.item.rowId)).Nodup := by
    rw [← spawn_items workerId next items, List.map_map] at hitems
    exact hitems
  exact Keyed.find_of_mem hrows h

/-! ## The invariant -/

theorem inv_init : Inv ⟨.empty, [], 0, fun _ => none, [], fun _ => false⟩ := by
  constructor <;> simp

theorem Inv.holds (h : Inv s) {task : Task} (hmem : task ∈ s.tasks)
    (hlease : task.id ∉ s.reclaimed) : s.holder task.item.rowId = some task.id :=
  (h.held task hmem).resolve_left hlease

theorem Inv.erase (h : Inv s) (task : Task) : Inv { s with tasks := s.tasks.erase task } where
  ids other hother := h.ids other (List.mem_of_mem_erase hother)
  distinct := h.distinct.sublist (List.erase_sublist.map _)
  claimed := h.claimed
  held other hother := h.held other (List.mem_of_mem_erase hother)
  done := h.done

theorem Inv.other (h : Inv s) {task other : Task} (hmem : task ∈ s.tasks)
    (hlease : task.id ∉ s.reclaimed) (hother : other ∈ s.tasks.erase task) :
    other.id ∈ s.reclaimed ∨
      Function.update s.holder task.item.rowId none other.item.rowId = some other.id := by
  have hne : other ≠ task := by
    rintro rfl
    exact (h.distinct.of_map _).not_mem_erase hother
  have hin := List.mem_of_mem_erase hother
  rcases h.held other hin with hre | hold
  · exact .inl hre
  · refine .inr ?_
    rw [Function.update_of_ne, hold]
    intro hrow
    rw [hrow, h.holds hmem hlease] at hold
    exact hne (Keyed.inj h.distinct hin hmem (Option.some.inj hold).symm)

theorem Inv.settled_claimed (h : Inv s) {task : Task} (hmem : task ∈ s.tasks)
    (hlease : task.id ∉ s.reclaimed) : s.table.At task.item.rowId .claimed :=
  h.claimed _ _ (h.holds hmem hlease)

theorem Inv.settle (h : Inv s) {task : Task} (hmem : task ∈ s.tasks)
    (hlease : task.id ∉ s.reclaimed) {table : QueueTable} {completed : Uuid → Bool}
    (hframe : ∀ row state, row ≠ task.item.rowId → s.table.At row state → table.At row state)
    (hdone : ∀ row, completed row = true → table.At row .done) :
    Inv
      { s with
        table
        tasks := s.tasks.erase task
        holder := Function.update s.holder task.item.rowId none
        completed } where
  ids := (h.erase task).ids
  distinct := (h.erase task).distinct
  claimed row other hholder := by
    dsimp only at hholder
    by_cases hrow : row = task.item.rowId
    · subst hrow
      simp at hholder
    · rw [Function.update_of_ne hrow] at hholder
      exact hframe row .claimed hrow (h.claimed row other hholder)
  held other hother := h.other hmem hlease hother
  done := hdone

theorem Inv.not_completed (h : Inv s) {row : Uuid} (hrow : s.table.At row .claimed) :
    s.completed row = false := by
  refine Bool.eq_false_iff.2 fun hdone => ?_
  cases hrow.unique (h.done row hdone)

theorem Inv.complete (h : Inv s) {task : Task} (hmem : task ∈ s.tasks)
    (hlease : task.id ∉ s.reclaimed) :
    Inv
      { s with
        table := s.table.complete task.item.rowId
        tasks := s.tasks.erase task
        holder := Function.update s.holder task.item.rowId none
        completed := Function.update s.completed task.item.rowId true } := by
  refine h.settle hmem hlease (fun row state hrow hat => hat.complete hrow) fun row hdone => ?_
  by_cases hrow : row = task.item.rowId
  · subst hrow
    exact complete_at (h.settled_claimed hmem hlease)
  · rw [Function.update_of_ne hrow] at hdone
    exact (h.done row hdone).complete hrow

theorem Inv.failWrite (h : Inv s) {task : Task} (hmem : task ∈ s.tasks)
    (hlease : task.id ∉ s.reclaimed) {backoffMs attempt maxAttempts : Nat} {error : JsonDict}
    {now : Timestamp} :
    Inv
      { s with
        table := s.table.failWrite task.item.rowId backoffMs attempt maxAttempts error now
        tasks := s.tasks.erase task
        holder := Function.update s.holder task.item.rowId none } := by
  refine h.settle hmem hlease (fun row state hrow hat => hat.failWrite hrow) fun row hdone => ?_
  refine (h.done row hdone).failWrite ?_
  rintro rfl
  rw [h.not_completed (h.settled_claimed hmem hlease)] at hdone
  cases hdone

theorem Inv.claim (h : Inv s) {db : Sql.Engine StageQueueEntry} {workerId : String}
    {locked : List Uuid} {limit : Nat} {stages : List PipelineStage} {now : Timestamp}
    (hs : step s (.claim db workerId locked limit stages now) = some s') : Inv s' := by
  cases hs
  have hrows : ((s.table.claim db workerId locked limit stages now).2.map (·.rowId)).Nodup := by
    simpa [QueueTable.claim, claimedStage, Function.comp_def] using claimSet_nodup
  constructor
  case ids =>
    intro task htask
    rcases List.mem_append.1 htask with hold | hnew
    · exact Nat.lt_add_right _ (h.ids task hold)
    · exact (mem_spawn hnew).2.2
  case distinct =>
    rw [List.map_append, spawn_ids]
    refine h.distinct.append List.nodup_range' fun id hold hnew => ?_
    obtain ⟨task, htask, rfl⟩ := List.mem_map.1 hold
    have hlt := h.ids task htask
    have hge := (List.mem_range'_1.1 hnew).1
    omega
  case claimed =>
    intro row task hholder
    rcases Option.or_eq_some_iff.1 hholder with hnew | ⟨-, hold⟩
    · obtain ⟨started, hfind, -⟩ := Option.map_eq_some_iff.1 hnew
      have hrow : started.item.rowId = row := by simpa using List.find?_some hfind
      have hitem := (mem_spawn (List.mem_of_find?_eq_some hfind)).1
      obtain ⟨r, hr, hrid⟩ := List.mem_map.1 hitem
      rw [← hrow, ← hrid]
      exact claim_at hr
    · exact (h.claimed row task hold).claim (by simp)
  case held =>
    intro task htask
    rcases List.mem_append.1 htask with hold | hnew
    · refine (h.held task hold).imp_right fun hholder => ?_
      have hclaimed := h.claimed _ _ hholder
      refine Option.or_eq_some_iff.2 (.inr ⟨?_, hholder⟩)
      refine Option.map_eq_none_iff.2 (List.find?_eq_none.2 fun started hstarted => ?_)
      obtain ⟨r, hr, hrid⟩ := List.mem_map.1 (mem_spawn hstarted).1
      have hpending := claimSet_pending hr
      simp only [decide_eq_true_eq]
      intro hrow
      cases hclaimed.unique ⟨r, hpending.1, by rw [← hrow, ← hrid]; rfl, hpending.2⟩
    · refine .inr (Option.or_eq_some_iff.2 (.inl ?_))
      exact Option.map_eq_some_iff.2 ⟨task, find_spawn hrows hnew, rfl⟩
  case done => exact fun row hdone => (h.done row hdone).claim (by simp)

theorem Inv.reclaim (h : Inv s) {leaseSeconds : Nat} {now : Timestamp}
    (hs : step s (.reclaim leaseSeconds now) = some s') : Inv s' := by
  cases hs
  constructor
  case ids => exact h.ids
  case distinct => exact h.distinct
  case claimed =>
    intro row task hholder
    dsimp only at hholder
    by_cases hrow : row ∈ s.table.aged leaseSeconds now
    · rw [if_pos hrow] at hholder
      cases hholder
    · rw [if_neg hrow] at hholder
      exact (h.claimed row task hholder).reclaimStale hrow
  case held =>
    intro task htask
    rcases h.held task htask with hre | hholder
    · exact .inl (List.mem_append_left _ hre)
    · by_cases hrow : task.item.rowId ∈ s.table.aged leaseSeconds now
      · exact .inl (List.mem_append_right _ (List.mem_filterMap.2 ⟨_, hrow, hholder⟩))
      · exact .inr ((if_neg hrow).trans hholder)
  case done =>
    intro row hdone
    refine (h.done row hdone).reclaimStale fun hrow => ?_
    cases (aged_claimed hrow).unique (h.done row hdone)

theorem Inv.enqueue (h : Inv s) {id : Uuid} {message : StageMessage} {delayMs maxAttempts : Nat}
    {now : Timestamp} (hs : step s (.enqueue id message delayMs maxAttempts now) = some s') :
    Inv s' := by
  obtain ⟨table, htable, rfl⟩ := Option.map_eq_some_iff.1 hs
  exact ⟨h.ids, h.distinct, fun row task hold => (h.claimed row task hold).enqueue htable, h.held,
    fun row hdone => (h.done row hdone).enqueue htable⟩

theorem Inv.failRead (h : Inv s) {task : Task} (hmem : task ∈ s.tasks) (phase : Phase) :
    Inv { s with tasks := s.tasks.erase task ++ [{ task with phase }] } := by
  have hperm : ((s.tasks.erase task ++ [({ task with phase } : Task)]).map (·.id)).Perm
      (s.tasks.map (·.id)) := by
    rw [List.map_append]
    have hcons := ((List.perm_cons_erase hmem).map (Task.id ·)).symm
    exact List.perm_append_comm.trans hcons
  constructor
  case ids =>
    intro other hother
    rcases List.mem_append.1 hother with hold | hnew
    · exact h.ids other (List.mem_of_mem_erase hold)
    · rw [List.mem_singleton.1 hnew]
      exact h.ids task hmem
  case distinct => exact hperm.nodup_iff.2 h.distinct
  case claimed => exact h.claimed
  case held =>
    intro other hother
    rcases List.mem_append.1 hother with hold | hnew
    · exact h.held other (List.mem_of_mem_erase hold)
    · rw [List.mem_singleton.1 hnew]
      exact h.held task hmem
  case done => exact h.done

/-! ## What each step does -/

theorem step_complete {task : Task} (hs : step s (.complete task) = some s') :
    task ∈ s.tasks ∧
      s' = { s with
        table := s.table.complete task.item.rowId
        tasks := s.tasks.erase task
        holder := Function.update s.holder task.item.rowId none
        completed := Function.update s.completed task.item.rowId true } := by
  simp only [step, Option.ite_none_right_eq_some, Option.some.injEq] at hs
  exact ⟨hs.1.1, hs.2.symm⟩

theorem step_failRead {task : Task} (hs : step s (.failRead task) = some s') :
    task ∈ s.tasks ∧
      ((∃ phase, s' = { s with tasks := s.tasks.erase task ++ [{ task with phase }] }) ∨
        s' = { s with tasks := s.tasks.erase task }) := by
  simp only [step, Option.ite_none_right_eq_some] at hs
  obtain ⟨⟨hmem, -⟩, hs⟩ := hs
  refine ⟨hmem, ?_⟩
  split at hs <;> cases hs
  · exact .inl ⟨_, rfl⟩
  · exact .inr rfl

theorem step_failWrite {task : Task} {backoffMs : Nat} {error : JsonDict} {now : Timestamp}
    (hs : step s (.failWrite task backoffMs error now) = some s') :
    task ∈ s.tasks ∧ ∃ attempt maxAttempts,
      s' = { s with
        table := s.table.failWrite task.item.rowId backoffMs attempt maxAttempts error now
        tasks := s.tasks.erase task
        holder := Function.update s.holder task.item.rowId none } := by
  simp only [step] at hs
  split at hs
  · simp only [Option.ite_none_right_eq_some, Option.some.injEq] at hs
    exact ⟨hs.1, _, _, hs.2.symm⟩
  · cases hs

theorem step_die {task : Task} (hs : step s (.die task) = some s') :
    s' = { s with tasks := s.tasks.erase task } := by
  simp only [step, Option.ite_none_right_eq_some, Option.some.injEq] at hs
  exact hs.2.symm

theorem settles_mem {a : Action} {task : Task} (hs : step s a = some s')
    (ha : settles a = some task) : task ∈ s.tasks := by
  cases a with
  | complete =>
    cases ha
    exact (step_complete hs).1
  | failWrite =>
    cases ha
    exact (step_failWrite hs).1
  | _ => cases ha

theorem Inv.preserved {a : Action} (h : Inv s) (hG : Unreclaimed s a)
    (hs : step s a = some s') : Inv s' := by
  cases a with
  | enqueue => exact h.enqueue hs
  | claim => exact h.claim hs
  | complete task =>
    obtain ⟨hmem, rfl⟩ := step_complete hs
    exact h.complete hmem (hG task rfl)
  | failRead task =>
    obtain ⟨hmem, ⟨phase, rfl⟩ | rfl⟩ := step_failRead hs
    · exact h.failRead hmem phase
    · exact h.erase task
  | failWrite task =>
    obtain ⟨hmem, _, _, rfl⟩ := step_failWrite hs
    exact h.failWrite hmem (hG task rfl)
  | die task =>
    obtain rfl := step_die hs
    exact h.erase task
  | reclaim => exact h.reclaim hs

theorem invariant : machine.Invariant Unreclaimed Inv where
  init s hs := by
    obtain rfl := hs
    exact inv_init
  step _ _ _ h hG hs := h.preserved hG hs

/-! ## Safety -/

theorem Inv.absorbing {a : Action} (h : Inv s) (hG : Unreclaimed s a) (hs : step s a = some s')
    {row : Uuid} {state : StageQueueState} (hfinal : state = .done ∨ state = .dead)
    (hat : s.table.At row state) : s'.table.At row state := by
  have hnotclaimed : ¬ s.table.At row .claimed := by
    intro hclaimed
    rcases hfinal with rfl | rfl <;> cases hat.unique hclaimed
  -- a settling task holds its row, which is therefore claimed
  have hsettled : ∀ task, settles a = some task → row ≠ task.item.rowId := by
    rintro task htask rfl
    exact hnotclaimed (h.settled_claimed (settles_mem hs htask) (hG task htask))
  cases a with
  | enqueue =>
    obtain ⟨table, htable, rfl⟩ := Option.map_eq_some_iff.1 hs
    exact hat.enqueue htable
  | claim =>
    cases hs
    exact hat.claim (by rcases hfinal with rfl | rfl <;> simp)
  | complete task =>
    obtain ⟨-, rfl⟩ := step_complete hs
    exact hat.complete (hsettled task rfl)
  | failRead task =>
    obtain ⟨-, ⟨_, rfl⟩ | rfl⟩ := step_failRead hs
    · exact hat
    · exact hat
  | failWrite task =>
    obtain ⟨-, _, _, rfl⟩ := step_failWrite hs
    exact hat.failWrite (hsettled task rfl)
  | die task =>
    obtain rfl := step_die hs
    exact hat
  | reclaim =>
    cases hs
    exact hat.reclaimStale fun hrow => hnotclaimed (aged_claimed hrow)

theorem Inv.safe {a : Action} (h : Inv s) (hG : Unreclaimed s a) (hs : step s a = some s') :
    StepSafe s a s' where
  absorbing _ _ := h.absorbing hG hs
  holder task htask := .inl (h.holds (settles_mem hs htask) (hG task htask))
  completed r hr := by
    cases a with
    | claim =>
      obtain ⟨hrows, hpending⟩ := claimSet_pending hr
      refine Bool.eq_false_iff.2 fun hdone => ?_
      cases (h.done r.id hdone).unique ⟨r, hrows, rfl, hpending⟩
    | _ => cases hr

/-- As long as no worker settles a row after its lease was taken back, every step of every run is
safe, and finished rows stay as they are to the end of the run. -/
theorem lease_safe (h : machine.ReachIf Unreclaimed s) :
    (∀ a s', Unreclaimed s a → machine.step s a = some s' → StepSafe s a s') ∧
      ∀ t, machine.Run Unreclaimed s t → ∀ row state, state = .done ∨ state = .dead →
        s.table.At row state → t.table.At row state := by
  have hinv := invariant.reach h
  refine ⟨fun a s' hG hs => hinv.safe hG hs, fun t hrun row state hfinal hat => ?_⟩
  exact hrun.stable (fun _ _ _ h hG hs => h.preserved hG hs)
    (fun _ _ _ h hat hG hs => h.absorbing hG hs hfinal hat) hinv hat

/-! ## Two runs -/

def queued : StageMessage :=
  { jobId := 10, contractId := 1, projectId := 2, stage := .parser, dispatchId := "d" }

def slow : Task := { id := 0, workerId := "w1", item := ⟨7, queued, 1, 3⟩ }

def current : Task := { id := 1, workerId := "w2", item := ⟨7, { queued with attempt := 2 }, 2, 3⟩ }

def settledInTime : List Action :=
  [.enqueue 7 queued 0 3 0, .claim .stable "w1" [] 1 [] 1000000, .complete slow]

/-- The lease of the first worker is taken back after 15 minutes and the row claimed by a second
one; then the first one completes the row. -/
def settledLate : List Action :=
  [.enqueue 7 queued 0 3 0, .claim .stable "w1" [] 1 [] 1000000, .reclaim 900 902000000,
    .claim .stable "w2" [] 1 [] 903000000, .complete slow]

def reopened : List Action :=
  [.failRead current, .failWrite { current with phase := .failing 2 3 } 5000 [] 904000000,
    .claim .stable "w3" [] 1 [] 915000000]

instance (s : State) (a : Action) : Decidable (Unreclaimed s a) :=
  decidable_of_iff (∀ task ∈ settles a, task.id ∉ s.reclaimed) Iff.rfl

def summary (s : State) : List (Uuid × StageQueueState) :=
  s.table.rows.map fun r => (r.id, r.state)

theorem at_of_summary {row : Uuid} {state : StageQueueState} (h : summary s = [(row, state)]) :
    s.table.At row state := by
  have hmem : (row, state) ∈ summary s := by simp [h]
  obtain ⟨r, hr, heq⟩ := List.mem_map.1 hmem
  exact ⟨r, hr, (Prod.mk.inj heq).1, (Prod.mk.inj heq).2⟩

/-- Row 7 stays `DONE` once it was settled in time. -/
theorem settled_in_time_safe : ∃ s, summary s = [(7, .done)] ∧
    ∀ t, machine.Run Unreclaimed s t → t.table.At 7 .done := by
  have hrun : (machine.execIf Unreclaimed ⟨.empty, [], 0, fun _ => none, [], fun _ => false⟩
      settledInTime).map summary = some [(7, .done)] := by decide
  obtain ⟨s, hs, hsum⟩ := Option.map_eq_some_iff.1 hrun
  refine ⟨s, hsum, fun t ht => ?_⟩
  exact (lease_safe ⟨_, rfl, Machine.run_of_execIf hs⟩).2 t ht 7 .done (.inl rfl)
    (at_of_summary hsum)

/-- After a late completion row 7 is reopened and claimed again: not every step is safe. -/
theorem late_settle_unsafe :
    ¬ ∀ s a s', machine.Reach s → machine.step s a = some s' → StepSafe s a s' := by
  have hlate : (machine.exec ⟨.empty, [], 0, fun _ => none, [], fun _ => false⟩
      settledLate).map (fun s => (summary s, (machine.exec s reopened).map summary)) =
        some ([(7, .done)], some [(7, .claimed)]) := by decide
  obtain ⟨s, hs, hsum⟩ := Option.map_eq_some_iff.1 hlate
  obtain ⟨hdone, hagain⟩ := Prod.mk.inj hsum
  obtain ⟨t, ht, hclaimed⟩ := Option.map_eq_some_iff.1 hagain
  intro hsafe
  have hkeep := (Machine.run_of_exec ht).preserves
    (I := fun u => machine.Reach u ∧ u.table.At 7 .done)
    (fun u a v h _ hstep => ⟨h.1.run (.single trivial hstep),
      (hsafe u a v h.1 hstep).absorbing 7 .done (.inl rfl) h.2⟩)
    ⟨Machine.reach_of_exec rfl hs, at_of_summary hdone⟩
  cases hkeep.2.unique (at_of_summary hclaimed)

end Leases

end Clear
