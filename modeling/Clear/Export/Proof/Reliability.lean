import Clear.Export.Runs

/-!
# The record of an export

The status of a run is flushed in the transaction that is rolled back when the run raises: no row is
ever committed as `RUNNING` or `FAILED` (`Sound`), `recover_stalled` has nothing to select
(`never_stalled`), and every failure is lost (`failure_lost`). The record is reliable in the runs
where nobody fails, a run dies only if it has stored nothing and another one is left, and a run
claims a row that is still `QUEUED` (`reliable_of_smooth`).
-/

namespace Clear

namespace Exports

/-! ## What a step does -/

inductive Ran (sha256 : Bytes → String) (s : State) : Action → State → Prop
  | deliver : Ran sha256 s .deliver { s.enter s.next .scheduled with next := s.next + 1 }
  | load {run} (phase : s.runs run = some .scheduled) :
      Ran sha256 s (.load run) (s.enter run (Exports.load s.row))
  | claim {run now snapshot} (phase : s.runs run = some (.loaded snapshot)) (free : s.lock = none) :
      Ran sha256 s (.claim run now)
        { s.enter run (.claimed snapshot (ExportJob.claim snapshot now s.row)) with
          lock := some run }
  | build {run snapshot job} (phase : s.runs run = some (.claimed snapshot job)) :
      Ran sha256 s (.build run) (s.enter run (.built snapshot (ExportJob.advance 60 job)))
  | render {run artifact snapshot job} (phase : s.runs run = some (.built snapshot job)) :
      Ran sha256 s (.render run artifact)
        (s.enter run (.rendered snapshot (ExportJob.advance 85 job) artifact))
  | store {run snapshot job artifact key}
      (phase : s.runs run = some (.rendered snapshot job artifact)) :
      Ran sha256 s (.store run)
        { s.enter run (.stored snapshot (ExportJob.keep snapshot sha256 artifact job)) with
          objects := Function.update s.objects key (some artifact.content)
          stores := s.stores ++ [{ run, key, status := s.row.status }] }
  | finish {run now snapshot job} (phase : s.runs run = some (.stored snapshot job)) :
      Ran sha256 s (.finish run now) (s.enter run (.finished (ExportJob.complete now job)))
  | raise {run error now job} :
      Ran sha256 s (.raise run error now)
        (s.enter run (.raised (some (ExportJob.markFailed error now job)) error))
  | refuse {run error} : Ran sha256 s (.refuse run error) (s.enter run (.raised none error))
  | commit {run job} (phase : s.runs run = some (.finished job)) :
      Ran sha256 s (.exit run) (State.leave { s with row := job } run)
  | returned {run} (phase : s.runs run = some .returned) : Ran sha256 s (.exit run) (s.leave run)
  | rollback {run flushed error} (phase : s.runs run = some (.raised flushed error)) :
      Ran sha256 s (.exit run)
        (State.leave { s with failures := s.failures ++ [{ error, row := s.row }] } run)
  | die {run phase} (phase : s.runs run = some phase) : Ran sha256 s (.die run) (s.leave run)

/-- The steps of the sweeps. -/
inductive Swept (s : State) : Action → State → Prop
  | selectStalled {olderThanMinutes now}
      (stalled : s.row.isStalled olderThanMinutes now = true) :
      Swept s (.selectStalled olderThanMinutes now) { s with recovering := some s.row }
  | requeue {olderThanMinutes snapshot} (selected : s.recovering = some snapshot) :
      Swept s (.requeue olderThanMinutes)
        { s with
          row := ExportJob.requeue olderThanMinutes snapshot s.row
          recovering := none }
  | selectExpired {now} (expired : s.row.isExpired now = true) :
      Swept s (.selectExpired now) { s with purging := some { snapshot := s.row } }
  | deleteFile {purge path} (selected : s.purging = some purge) :
      Swept s .deleteFile
        { s with
          objects := Function.update s.objects path none
          purging := some { snapshot := purge.snapshot, deleted := true } }
  | expire {purge} (selected : s.purging = some purge) (free : s.lock = none) :
      Swept s .expire { s with row := ExportJob.expire purge.snapshot s.row, purging := none }
  | dropSweep : Swept s .dropSweep { s with recovering := none, purging := none }

variable {sha256 : Bytes → String} {s s' : State} {a : Action}

theorem stepRun_cases (h : stepRun sha256 s a = some s') : Ran sha256 s a s' := by
  cases a with
  | deliver =>
    cases h
    exact .deliver
  | load run =>
    simp only [stepRun] at h
    split at h
    next hphase =>
      cases h
      exact .load hphase
    next => cases h
  | claim run now =>
    simp only [stepRun] at h
    split at h
    next hphase =>
      obtain ⟨hfree, h⟩ := Option.ite_none_right_eq_some.1 h
      cases h
      exact .claim hphase hfree
    next => cases h
  | build run =>
    simp only [stepRun] at h
    split at h
    next hphase =>
      cases h
      exact .build hphase
    next => cases h
  | render run artifact =>
    simp only [stepRun] at h
    split at h
    next hphase =>
      cases h
      exact .render hphase
    next => cases h
  | store run =>
    simp only [stepRun] at h
    split at h
    next hphase =>
      cases h
      exact .store hphase
    next => cases h
  | finish run now =>
    simp only [stepRun] at h
    split at h
    next hphase =>
      cases h
      exact .finish hphase
    next => cases h
  | raise run error now =>
    simp only [stepRun] at h
    split at h
    all_goals
      cases h
      try exact .raise
  | refuse run error =>
    simp only [stepRun] at h
    split at h
    all_goals
      cases h
      try exact .refuse
  | exit run =>
    simp only [stepRun] at h
    split at h
    next hphase =>
      cases h
      exact .commit hphase
    next hphase =>
      cases h
      exact .returned hphase
    next hphase =>
      cases h
      exact .rollback hphase
    next => cases h
  | die run =>
    obtain ⟨phase, hphase, h⟩ := Option.map_eq_some_iff.1 h
    cases h
    exact .die hphase
  | _ => cases h

theorem stepSweep_cases (h : stepSweep s a = some s') : Swept s a s' := by
  cases a with
  | selectStalled olderThanMinutes now =>
    obtain ⟨hstalled, h⟩ := Option.ite_none_right_eq_some.1 h
    cases h
    exact .selectStalled hstalled
  | requeue olderThanMinutes =>
    simp only [stepSweep] at h
    split at h
    next hselected =>
      obtain ⟨-, h⟩ := Option.ite_none_right_eq_some.1 h
      cases h
      exact .requeue hselected
    next => cases h
  | selectExpired now =>
    obtain ⟨hexpired, h⟩ := Option.ite_none_right_eq_some.1 h
    cases h
    exact .selectExpired hexpired
  | deleteFile =>
    simp only [stepSweep] at h
    split at h
    next hselected =>
      obtain ⟨path, -, h⟩ := Option.map_eq_some_iff.1 h
      cases h
      exact .deleteFile hselected
    next => cases h
  | expire =>
    simp only [stepSweep] at h
    split at h
    next hselected =>
      obtain ⟨⟨hfree, -⟩, h⟩ := Option.ite_none_right_eq_some.1 h
      cases h
      exact .expire hselected hfree
    next => cases h
  | dropSweep =>
    cases h
    exact .dropSweep
  | _ => cases h

theorem step_cases (h : (machine sha256).step s a = some s') :
    Ran sha256 s a s' ∨ Swept s a s' := by
  rcases Option.or_eq_some_iff.1 h with h | ⟨-, h⟩
  · exact .inl (stepRun_cases h)
  · exact .inr (stepSweep_cases h)

/-! ## What is never committed -/

/-- Whatever happens, the committed row is neither `RUNNING` nor `FAILED`. -/
structure Sound (s : State) : Prop where
  status : s.row.status ≠ .running ∧ s.row.status ≠ .failed
  finished : ∀ run job, s.runs run = some (.finished job) → job.status = .completed
  recovering : s.recovering = none
  purging : ∀ purge, s.purging = some purge → purge.snapshot.status = .completed

theorem enter_runs (run : Nat) (phase : Phase) (other : Nat) :
    (s.enter run phase).runs other = if other = run then some phase else s.runs other := by
  unfold State.enter
  simp only [Function.update_apply]

theorem leave_runs (run other : Nat) :
    (s.leave run).runs other = if other = run then none else s.runs other := by
  unfold State.leave
  simp only [Function.update_apply]

theorem load_ne_finished (row job : ExportJob) : load row ≠ .finished job := by
  unfold load
  cases row.status <;> simp

theorem Sound.enter {run : Nat} {phase : Phase} (h : Sound s)
    (hphase : ∀ job, phase = .finished job → job.status = .completed) :
    Sound (s.enter run phase) where
  status := h.status
  finished := by
    intro other job hother
    rw [enter_runs] at hother
    split at hother
    · exact hphase job (Option.some.inj hother)
    · exact h.finished other job hother
  recovering := h.recovering
  purging := h.purging

theorem Sound.leave {run : Nat} (h : Sound s) : Sound (s.leave run) where
  status := h.status
  finished := by
    intro other job hother
    rw [leave_runs] at hother
    split at hother
    · cases hother
    · exact h.finished other job hother
  recovering := h.recovering
  purging := h.purging

theorem Sound.ran (h : Sound s) (hran : Ran sha256 s a s') : Sound s' := by
  cases hran with
  | deliver =>
    have henter : Sound (s.enter s.next .scheduled) := h.enter (fun _ => nofun)
    exact ⟨henter.status, henter.finished, henter.recovering, henter.purging⟩
  | load => exact h.enter fun job hjob => absurd hjob (load_ne_finished s.row job)
  | @claim run now snapshot =>
    have henter : Sound (s.enter run (.claimed snapshot (ExportJob.claim snapshot now s.row))) :=
      h.enter (fun _ => nofun)
    exact ⟨henter.status, henter.finished, henter.recovering, henter.purging⟩
  | build => exact h.enter (fun _ => nofun)
  | render => exact h.enter (fun _ => nofun)
  | @store run snapshot job artifact =>
    have henter : Sound (s.enter run
        (.stored snapshot (ExportJob.keep snapshot sha256 artifact job))) :=
      h.enter (fun _ => nofun)
    exact ⟨henter.status, henter.finished, henter.recovering, henter.purging⟩
  | finish =>
    refine h.enter fun job hjob => ?_
    cases hjob
    rfl
  | raise => exact h.enter (fun _ => nofun)
  | refuse => exact h.enter (fun _ => nofun)
  | @commit run job hphase =>
    have hstatus := h.finished run job hphase
    refine Sound.leave (s := { s with row := job }) ⟨?_, h.finished, h.recovering, h.purging⟩
    rw [hstatus]
    exact ⟨nofun, nofun⟩
  | returned => exact h.leave
  | rollback =>
    exact Sound.leave (s := { s with failures := _ })
      ⟨h.status, h.finished, h.recovering, h.purging⟩
  | die => exact h.leave

theorem Sound.swept (h : Sound s) (hswept : Swept s a s') : Sound s' := by
  cases hswept with
  | selectStalled hstalled =>
    unfold ExportJob.isStalled at hstalled
    simp only [Bool.and_eq_true, decide_eq_true_eq] at hstalled
    exact absurd hstalled.1 h.status.1
  | requeue hselected => cases h.recovering.symm.trans hselected
  | selectExpired hexpired =>
    unfold ExportJob.isExpired at hexpired
    simp only [Bool.and_eq_true, decide_eq_true_eq] at hexpired
    refine ⟨h.status, h.finished, h.recovering, fun purge hpurge => ?_⟩
    cases hpurge
    exact hexpired.1
  | @deleteFile purge path hselected =>
    refine ⟨h.status, h.finished, h.recovering, fun purge' hpurge => ?_⟩
    cases hpurge
    exact h.purging purge hselected
  | @expire purge hselected hfree =>
    refine ⟨?_, h.finished, h.recovering,
      fun _ hpurge => (Option.some_ne_none _ hpurge.symm).elim⟩
    show (ExportJob.flushed purge.snapshot.status .expired s.row.status) ≠ _ ∧
      (ExportJob.flushed purge.snapshot.status .expired s.row.status) ≠ _
    rw [h.purging purge hselected]
    exact ⟨nofun, nofun⟩
  | dropSweep =>
    exact ⟨h.status, h.finished, rfl, fun _ hpurge => (Option.some_ne_none _ hpurge.symm).elim⟩

theorem sound_init (h : (machine sha256).init s) : Sound s := by
  obtain ⟨id, projectId, objects, rfl⟩ := h
  refine ⟨⟨nofun, nofun⟩, fun run job hrun => ?_, rfl,
    fun _ hpurge => (Option.some_ne_none _ hpurge.symm).elim⟩
  dsimp only at hrun
  split at hrun
  · cases hrun
  · cases hrun

theorem sound_invariant : (machine sha256).Invariant Machine.anyStep Sound where
  init _ h := sound_init h
  step _ _ _ h _ hstep := by
    rcases step_cases hstep with hran | hswept
    · exact h.ran hran
    · exact h.swept hswept

theorem never_stalled (h : (machine sha256).Reach s) (olderThanMinutes : Nat) (now : Timestamp) :
    s.row.isStalled olderThanMinutes now = false := by
  unfold ExportJob.isStalled
  rw [decide_eq_false (sound_invariant.reach h).status.1, Bool.false_and]

/-! ## A reliable record -/

/-- What a client may rely on. A row left in `QUEUED` or `RUNNING` without a run must be one that
`recover_stalled` selects at some time. -/
structure Reliable (s : State) : Prop where
  storesOnce : ∀ first ∈ s.stores, ∀ second ∈ s.stores, first.run = second.run
  keepsCompleted : ∀ stored ∈ s.stores, stored.status ≠ .completed
  recordsFailure : ∀ failure ∈ s.failures,
    failure.row.status = .failed ∧ failure.row.error = some failure.error
  notStuck : s.row.status = .queued ∨ s.row.status = .running → (∀ run, s.runs run = none) →
    ∃ olderThanMinutes now, s.row.isStalled olderThanMinutes now = true

theorem failure_lost {run : Nat} {flushed : Option ExportJob} {error : ExportError}
    (h : (machine sha256).Reach s) (hphase : s.runs run = some (.raised flushed error))
    (hstep : (machine sha256).step s (.exit run) = some s') : ¬ Reliable s' := by
  intro hreliable
  have hstatus := (sound_invariant.reach h).status.2
  have hs' : s' =
      State.leave { s with failures := s.failures ++ [{ error, row := s.row }] } run := by
    rcases step_cases hstep with hran | hswept
    · cases hran with
      | commit hphase' => cases hphase.symm.trans hphase'
      | returned hphase' => cases hphase.symm.trans hphase'
      | rollback hphase' =>
        cases hphase.symm.trans hphase'
        rfl
    · cases hswept
  subst hs'
  have hlast : ({ error, row := s.row } : Failure) ∈ s.failures ++ [{ error, row := s.row }] := by
    simp
  exact hstatus (hreliable.recordsFailure _ hlast).1

namespace Phase

def locked : Phase → Bool
  | claimed .. | built .. | rendered .. | stored .. | finished .. => true
  | _ => false

def hasStored : Phase → Bool
  | stored .. | finished .. => true
  | _ => false

end Phase

/-- A run claims a row that is still `QUEUED`; nothing raises; a run dies only if it has stored
nothing, and another one is left unless the export is over. -/
def smooth (s : State) : Action → Bool
  | .claim _ _ => s.row.status = .queued
  | .raise .. | .refuse .. => false
  | .die run =>
    !(s.runs run).any Phase.hasStored && (s.row.status ≠ .queued ||
      (List.range s.next).any fun other => other ≠ run && (s.runs other).isSome)
  | _ => true

structure RunOk (status : ExportStatus) (lock : Option Nat) (run : Nat) (phase : Phase) : Prop where
  locked : phase.locked = true → lock = some run ∧ status = .queued
  returned : phase = .returned → status ≠ .queued
  unraised : ∀ flushed error, phase ≠ .raised flushed error

structure Safe (s : State) : Prop where
  sound : Sound s
  runs : ∀ run phase, s.runs run = some phase → RunOk s.row.status s.lock run phase
  fresh : ∀ run, s.next ≤ run → s.runs run = none
  stores : s.stores = [] ∨ ∃ stored, s.stores = [stored] ∧ stored.status = .queued ∧
    (s.row.status ≠ .queued ∨ ∃ phase, s.runs stored.run = some phase ∧ phase.hasStored = true)
  failures : s.failures = []
  alive : s.row.status = .queued → ∃ run, s.runs run ≠ none

theorem Safe.reliable (h : Safe s) : Reliable s where
  storesOnce := by
    intro first hfirst second hsecond
    rcases h.stores with hnil | ⟨stored, hstores, -⟩
    · simp [hnil] at hfirst
    · rw [hstores, List.mem_singleton] at hfirst hsecond
      rw [hfirst, hsecond]
  keepsCompleted := by
    intro stored hstored
    rcases h.stores with hnil | ⟨only, hstores, hqueued, -⟩
    · simp [hnil] at hstored
    · rw [hstores, List.mem_singleton] at hstored
      rw [hstored, hqueued]
      exact nofun
  recordsFailure := by simp [h.failures]
  notStuck := by
    intro hstatus hnone
    rcases hstatus with hqueued | hrunning
    · obtain ⟨run, hrun⟩ := h.alive hqueued
      exact absurd (hnone run) hrun
    · exact absurd hrunning h.sound.status.1

theorem Safe.lt_next {run : Nat} {phase : Phase} (h : Safe s) (hrun : s.runs run = some phase) :
    run < s.next := by
  by_contra hle
  cases (h.fresh run (by omega)).symm.trans hrun

/-- A run goes on. Nobody else is affected. -/
theorem Safe.enter {run : Nat} {phase : Phase} (h : Safe s) (hrun : run < s.next)
    (hphase : RunOk s.row.status s.lock run phase)
    (hfinished : ∀ job, phase = .finished job → job.status = .completed)
    (hstored : ∀ old, s.runs run = some old → old.hasStored = true → phase.hasStored = true) :
    Safe (s.enter run phase) where
  sound := h.sound.enter hfinished
  runs := by
    intro other phase' hother
    rw [enter_runs] at hother
    split at hother
    next heq =>
      cases hother
      rw [heq]
      exact hphase
    next => exact h.runs other phase' hother
  fresh := by
    intro other hother
    rw [enter_runs, if_neg (Nat.ne_of_gt (Nat.lt_of_lt_of_le hrun hother))]
    exact h.fresh other hother
  stores := by
    rcases h.stores with hnil | ⟨stored, hstores, hqueued, hrow⟩
    · exact .inl hnil
    · refine .inr ⟨stored, hstores, hqueued, hrow.imp_right fun hphase' => ?_⟩
      obtain ⟨phase', hrun', hhas⟩ := hphase'
      rw [enter_runs]
      by_cases heq : stored.run = run
      · rw [heq] at hrun'
        exact ⟨phase, if_pos heq, hstored phase' hrun' hhas⟩
      · exact ⟨phase', (if_neg heq).trans hrun', hhas⟩
  failures := h.failures
  alive := by
    intro hrow
    refine ⟨run, ?_⟩
    rw [enter_runs, if_pos rfl]
    exact nofun

theorem Safe.leave {run : Nat} (h : Safe s)
    (hstored : s.row.status = .queued → ∀ phase, s.runs run = some phase → phase.hasStored = false)
    (halive : s.row.status = .queued → ∃ other, other ≠ run ∧ s.runs other ≠ none) :
    Safe (s.leave run) where
  sound := h.sound.leave
  runs := by
    intro other phase hother
    rw [leave_runs] at hother
    split at hother
    next => cases hother
    next hne =>
      have hok := h.runs other phase hother
      refine ⟨fun hlocked => ⟨?_, (hok.locked hlocked).2⟩, hok.returned, hok.unraised⟩
      show (if s.lock = some run then none else s.lock) = some other
      have hlock := (hok.locked hlocked).1
      rw [hlock, if_neg (by simpa using hne)]
  fresh := by
    intro other hother
    rw [leave_runs]
    split
    next => rfl
    next => exact h.fresh other hother
  stores := by
    rcases h.stores with hnil | ⟨stored, hstores, hqueued, hrow⟩
    · exact .inl hnil
    · refine .inr ⟨stored, hstores, hqueued, ?_⟩
      by_cases hrowq : s.row.status = .queued
      · obtain ⟨phase, hrun, hhas⟩ := hrow.resolve_left (fun hne => hne hrowq)
        refine .inr ⟨phase, ?_, hhas⟩
        rw [leave_runs, if_neg]
        · exact hrun
        · intro heq
          rw [heq] at hrun
          rw [hstored hrowq phase hrun] at hhas
          cases hhas
      · exact .inl hrowq
  failures := h.failures
  alive := by
    intro hrow
    obtain ⟨other, hne, hother⟩ := halive hrow
    refine ⟨other, ?_⟩
    rw [leave_runs, if_neg hne]
    exact hother

theorem RunOk.of_idle {status : ExportStatus} {lock : Option Nat} {run : Nat} {phase : Phase}
    (hlocked : phase.locked = false) (hreturned : phase = .returned → status ≠ .queued)
    (hraised : ∀ flushed error, phase ≠ .raised flushed error) : RunOk status lock run phase :=
  ⟨fun h => absurd (hlocked.symm.trans h) nofun, hreturned, hraised⟩

theorem RunOk.keep {status : ExportStatus} {lock : Option Nat} {run : Nat} {old phase : Phase}
    (h : RunOk status lock run old) (hold : old.locked = true) (hphase : phase.locked = true) :
    RunOk status lock run phase where
  locked _ := h.locked hold
  returned := by
    rintro rfl
    cases hphase
  unraised := by
    rintro flushed error rfl
    cases hphase

theorem RunOk.load {run : Nat} (h : Sound s) :
    RunOk s.row.status s.lock run (Exports.load s.row) := by
  unfold Exports.load
  cases hstatus : s.row.status with
  | running => exact absurd hstatus h.status.1
  | completed => exact .of_idle rfl (fun _ => nofun) (fun _ _ => nofun)
  | _ => exact .of_idle rfl nofun (fun _ _ => nofun)

theorem Safe.claim {run : Nat} {snapshot job : ExportJob} (h : Safe s)
    (hphase : s.runs run = some (.loaded snapshot)) (hfree : s.lock = none)
    (hqueued : s.row.status = .queued) :
    Safe { s.enter run (.claimed snapshot job) with lock := some run } := by
  -- Nobody else is locked.
  have hlocked : Safe { s with lock := some run } := by
    refine ⟨⟨h.sound.status, h.sound.finished, h.sound.recovering, h.sound.purging⟩, ?_, h.fresh,
      h.stores, h.failures, h.alive⟩
    intro other phase hother
    have hok := h.runs other phase hother
    refine ⟨fun hl => ?_, hok.returned, hok.unraised⟩
    cases hfree.symm.trans (hok.locked hl).1
  refine hlocked.enter (h.lt_next hphase) ⟨fun _ => ⟨rfl, hqueued⟩, nofun, fun _ _ => nofun⟩
    (fun _ => nofun) fun old hold hhas => ?_
  cases hphase.symm.trans hold
  cases hhas

theorem Safe.store {run : Nat} {snapshot job job' : ExportJob} {artifact : ExportArtifact}
    {key : String} {objects : Objects} (h : Safe s)
    (hphase : s.runs run = some (.rendered snapshot job artifact)) :
    Safe { s.enter run (.stored snapshot job') with
      objects := objects
      stores := s.stores ++ [{ run, key, status := s.row.status }] } := by
  have hok := h.runs run _ hphase
  have hqueued := (hok.locked rfl).2
  have henter : Safe (s.enter run (.stored snapshot job')) := by
    refine h.enter (h.lt_next hphase) (hok.keep rfl rfl) (fun _ => nofun) fun _ _ _ => rfl
  have hnil : s.stores = [] := by
    rcases h.stores with hnil | ⟨stored, -, -, hrow⟩
    · exact hnil
    · obtain ⟨phase, hrun, hhas⟩ := hrow.resolve_left fun hne => hne hqueued
      have hlocked : phase.locked = true := by
        cases phase with
        | stored | finished => rfl
        | _ => cases hhas
      have hother := ((h.runs _ _ hrun).locked hlocked).1
      rw [(hok.locked rfl).1] at hother
      cases hother
      cases hphase.symm.trans hrun
      cases hhas
  refine ⟨⟨henter.sound.status, henter.sound.finished, henter.sound.recovering,
    henter.sound.purging⟩, henter.runs, henter.fresh, .inr ?_, henter.failures, henter.alive⟩
  refine ⟨{ run, key, status := s.row.status }, ?_, hqueued, .inr ⟨.stored snapshot job', ?_, rfl⟩⟩
  · show s.stores ++ _ = _
    rw [hnil]
    rfl
  · show (s.enter run (.stored snapshot job')).runs run = _
    rw [enter_runs, if_pos rfl]

theorem Safe.commit {run : Nat} {job : ExportJob} (h : Safe s)
    (hphase : s.runs run = some (.finished job)) :
    Safe (State.leave { s with row := job } run) := by
  have hstatus := h.sound.finished run job hphase
  have hlock := ((h.runs run _ hphase).locked rfl).1
  have hne : job.status ≠ .queued := by
    rw [hstatus]
    exact nofun
  -- The row is committed before the run is over.
  have hran : Ran (fun _ => "") s (.exit run) (State.leave { s with row := job } run) :=
    .commit hphase
  refine ⟨h.sound.ran hran, ?_, ?_, ?_, h.failures,
    fun hqueued => absurd hqueued hne⟩
  · intro other phase hother
    rw [leave_runs] at hother
    split at hother
    next => cases hother
    next hother' =>
      have hok := h.runs other phase hother
      refine ⟨fun hl => ?_, fun _ => hne, hok.unraised⟩
      have := (hok.locked hl).1
      rw [hlock] at this
      cases this
      exact absurd rfl hother'
  · intro other hother
    rw [leave_runs]
    split
    next => rfl
    next => exact h.fresh other hother
  · exact h.stores.imp_right fun ⟨stored, hstores, hqueued, _⟩ =>
      ⟨stored, hstores, hqueued, .inl hne⟩

theorem Safe.ran (h : Safe s) (hsmooth : smooth s a = true) (hran : Ran sha256 s a s') :
    Safe s' := by
  cases hran with
  | deliver =>
    have hnext : Safe { s with next := s.next + 1 } :=
      ⟨⟨h.sound.status, h.sound.finished, h.sound.recovering, h.sound.purging⟩, h.runs,
        fun run hrun => h.fresh run (Nat.le_of_succ_le hrun), h.stores, h.failures, h.alive⟩
    refine hnext.enter (Nat.lt_succ_self s.next) (.of_idle rfl nofun (fun _ _ => nofun))
      (fun _ => nofun) fun old hold => ?_
    cases (h.fresh s.next (Nat.le_refl _)).symm.trans hold
  | @load run hphase =>
    refine h.enter (h.lt_next hphase) (.load h.sound)
      (fun job hjob => absurd hjob (load_ne_finished s.row job)) fun old hold hhas => ?_
    cases hphase.symm.trans hold
    cases hhas
  | claim hphase hfree => exact h.claim hphase hfree (by simpa [smooth] using hsmooth)
  | @build run snapshot job hphase =>
    refine h.enter (h.lt_next hphase) ((h.runs run _ hphase).keep rfl rfl) (fun _ => nofun)
      fun old hold hhas => ?_
    cases hphase.symm.trans hold
    cases hhas
  | @render run artifact snapshot job hphase =>
    refine h.enter (h.lt_next hphase) ((h.runs run _ hphase).keep rfl rfl) (fun _ => nofun)
      fun old hold hhas => ?_
    cases hphase.symm.trans hold
    cases hhas
  | store hphase => exact h.store hphase
  | @finish run now snapshot job hphase =>
    refine h.enter (h.lt_next hphase) ((h.runs run _ hphase).keep rfl rfl) ?_ fun _ _ _ => rfl
    intro job' hjob
    cases hjob
    rfl
  | raise => cases hsmooth
  | refuse => cases hsmooth
  | commit hphase => exact h.commit hphase
  | @returned run hphase =>
    have hne := (h.runs run _ hphase).returned rfl
    exact h.leave (fun hqueued => absurd hqueued hne) (fun hqueued => absurd hqueued hne)
  | @rollback run flushed error hphase =>
    exact absurd rfl ((h.runs run _ hphase).unraised flushed error)
  | @die run phase hphase =>
    simp only [smooth, hphase, Option.any_some, Bool.and_eq_true, Bool.not_eq_true',
      Bool.or_eq_true, decide_eq_true_eq, List.any_eq_true, Option.isSome_iff_ne_none] at hsmooth
    refine h.leave (fun _ phase' hphase' => ?_) fun hqueued => ?_
    · cases hphase.symm.trans hphase'
      exact hsmooth.1
    · obtain ⟨other, -, hne, hother⟩ := hsmooth.2.resolve_left fun hne => hne hqueued
      exact ⟨other, hne, hother⟩

theorem Safe.swept (h : Safe s) (hswept : Swept s a s') : Safe s' := by
  have hsound := h.sound.swept hswept
  cases hswept with
  | selectStalled => exact ⟨hsound, h.runs, h.fresh, h.stores, h.failures, h.alive⟩
  | requeue hselected => cases h.sound.recovering.symm.trans hselected
  | selectExpired => exact ⟨hsound, h.runs, h.fresh, h.stores, h.failures, h.alive⟩
  | deleteFile => exact ⟨hsound, h.runs, h.fresh, h.stores, h.failures, h.alive⟩
  | @expire purge hselected hfree =>
    have hne : (ExportJob.expire purge.snapshot s.row).status ≠ .queued := by
      show ExportJob.flushed purge.snapshot.status .expired s.row.status ≠ .queued
      rw [h.sound.purging purge hselected]
      exact nofun
    refine ⟨hsound, fun run phase hrun => ?_, h.fresh, ?_, h.failures,
      fun hqueued => absurd hqueued hne⟩
    · have hok := h.runs run phase hrun
      refine ⟨fun hl => ?_, fun _ => hne, hok.unraised⟩
      cases hfree.symm.trans (hok.locked hl).1
    · exact h.stores.imp_right fun ⟨stored, hstores, hqueued, _⟩ =>
        ⟨stored, hstores, hqueued, .inl hne⟩
  | dropSweep => exact ⟨hsound, h.runs, h.fresh, h.stores, h.failures, h.alive⟩

theorem safe_init (h : (machine sha256).init s) : Safe s := by
  have hsound := sound_init h
  obtain ⟨id, projectId, objects, rfl⟩ := h
  refine ⟨hsound, fun run phase hrun => ?_, fun run hrun => ?_, .inl rfl, rfl, fun _ => ⟨0, nofun⟩⟩
  · dsimp only at hrun
    split at hrun
    · cases hrun
      exact .of_idle rfl nofun (fun _ _ => nofun)
    · cases hrun
  · exact if_neg (Nat.ne_of_gt hrun)

/-- In the runs of the machine whose steps are all smooth the record is reliable. -/
theorem reliable_of_smooth
    (h : (machine sha256).ReachIf (fun s a => smooth s a = true) s) : Reliable s := by
  have hinv : (machine sha256).Invariant (fun s a => smooth s a = true) Safe := by
    refine ⟨fun _ h => safe_init h, fun s a t hsafe hsmooth hstep => ?_⟩
    rcases step_cases hstep with hran | hswept
    · exact hsafe.ran hsmooth hran
    · exact hsafe.swept hswept
  exact (hinv.reach h).reliable

/-! ## Two runs -/

namespace Sample

def start : State where
  row := { id := 1 }
  runs := fun run => if run = 0 then some .scheduled else none
  next := 1
  objects := fun _ => none

def artifact : ExportArtifact := { content := [], fileName := "export.xlsx", rowCount := 0 }

def succeeds : List Action :=
  [.deliver, .load 0, .claim 0 0, .die 1, .build 0, .render 0 artifact, .store 0, .finish 0 1,
    .exit 0]

/-- A run whose dataset cannot be built. -/
def fails : List Action :=
  [.load 0, .claim 0 0, .raise 0 { type := "ValueError", message := "" } 1, .exit 0]

theorem init : (machine fun _ => "").init start := ⟨1, none, fun _ => none, rfl⟩

end Sample

theorem reliable_of_smooth_run :
    ∃ s, (machine fun _ => "").execIf (fun s a => smooth s a = true) Sample.start
      Sample.succeeds = some s ∧ s.row.status = .completed ∧ Reliable s := by
  refine ⟨_, rfl, rfl, ?_⟩
  have hexec : (machine fun _ => "").execIf (fun s a => smooth s a = true) Sample.start
      Sample.succeeds = some _ := rfl
  exact reliable_of_smooth ⟨Sample.start, Sample.init, Machine.run_of_execIf hexec⟩

/-- A run that fails leaves its row `QUEUED` without an error, where nothing selects it. -/
theorem failed_run_unrecorded :
    ∃ s, (machine fun _ => "").Reach s ∧ s.row.status = .queued ∧ s.row.error = none ∧
      (∀ run, s.runs run = none) ∧ ¬ Reliable s := by
  have hexec : (machine fun _ => "").exec Sample.start Sample.fails = some _ := rfl
  refine ⟨_, Machine.reach_of_exec Sample.init hexec, rfl, rfl, ?_, ?_⟩
  · intro run
    by_cases h : run = 0
    · subst h
      rfl
    · simp [State.leave, State.enter, Sample.start, h]
  · intro h
    have := h.recordsFailure _ (List.mem_singleton.2 rfl)
    exact absurd this.1 (by decide)

/-- A run that has begun, long ago. -/
theorem begun_run_not_stalled : ∃ s, (machine fun _ => "").exec Sample.start
    [.load 0, .claim 0 0] = some s ∧ s.row.isStalled 0 60000000 = false := by
  have hexec : (machine fun _ => "").exec Sample.start [.load 0, .claim 0 0] = some _ := rfl
  exact ⟨_, hexec, never_stalled (Machine.reach_of_exec Sample.init hexec) 0 60000000⟩

theorem failed_run_lost : ∃ s, (machine fun _ => "").exec Sample.start Sample.fails = some s ∧
    ¬ Reliable s := by
  have hexec : (machine fun _ => "").exec Sample.start (Sample.fails.take 3) = some _ := rfl
  have hreach := Machine.reach_of_exec Sample.init hexec
  exact ⟨_, rfl, @failure_lost _ _ _ 0 _ _ hreach rfl rfl⟩

end Exports

end Clear
