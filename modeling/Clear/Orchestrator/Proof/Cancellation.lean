import Clear.Orchestrator.Proof.Lifecycle

/-!
# Cancellation

`run_stage` checks for a cancelled job when it loads the row, and every later write to the row sets
the state without looking at it. A cancellation that commits between the two is lost.

`InTime` excludes these windows. In a run of such steps a cancelled job has no worker that may still
write (`Quiet`), so it stays cancelled and no handler is started for it (`cancelled_final`).
-/

namespace Clear

namespace Lifecycle

/-- The worker has read the job, or its failure, and has yet to write the state; it holds no lock. -/
def Phase.isStale : Phase → Bool
  | loaded _ | failing _ _ => true
  | _ => false

def Cancelled (s : State) : Prop := ∃ job, s.row = some job ∧ job.state = .cancelled

/-- A cancellation is written while no worker and no sweep works with the state it read before, and
the queue accepts what a cancelled job sends. -/
def InTime (s : State) : Action → Prop
  | .cancel _ => (∀ a ∈ s.workers, a.phase.isStale = false) ∧ s.sweeping = false
  | .refuse _ _ => ∀ job ∈ s.row, job.state ≠ .cancelled
  | _ => True

instance (s : State) : (a : Action) → Decidable (InTime s a)
  | .cancel _ => inferInstanceAs (Decidable (_ ∧ _))
  | .refuse _ _ => inferInstanceAs (Decidable (∀ job ∈ s.row, job.state ≠ .cancelled))
  | .create .. | .enqueue | .refuseFirst .. | .commit | .rollback | .replay _ | .checkCancel
  | .checkDelete | .delete | .selectStalled .. | .failStalled _ | .deliver _ | .load _ | .skip ..
  | .start .. | .finish .. | .rollBack .. | .recordFailure .. | .raise _ | .dispatch .. =>
    isTrue trivial

structure Quiet (s : State) : Prop where
  pending : ∀ a ∈ s.workers, ∀ job, a.phase = .running job → job.state ≠ .cancelled
  draft : ∀ d ∈ s.draft, d.job.state = .queued ∧ s.row = none
  requested : 0 < s.cancelling → s.row.isSome = true
  quiet : Cancelled s → (∀ a ∈ s.workers, a.phase.isStale = false ∧ a.phase.holdsLock = false) ∧
    s.sweeping = false

variable {driver : Driver} {settings : QueueSettings} {s s' : State} {a : Action}

theorem quiet_init : Quiet {} := by
  constructor <;> simp [Cancelled]

section
variable {w : Nat} {e : Envelope} {phase : Phase}

theorem Quiet.not_cancelled {b : Activation} (h : Quiet s) (hb : b ∈ s.workers)
    (hphase : b.phase.isStale = true ∨ b.phase.holdsLock = true) : ¬ Cancelled s := by
  intro hc
  obtain ⟨hstale, hlock⟩ := (h.quiet hc).1 b hb
  simp [hstale, hlock] at hphase

/-- A worker goes on. -/
theorem Quiet.advance (h : Quiet s)
    (hpending : ∀ job, phase = .running job → job.state ≠ .cancelled)
    (hphase : Cancelled s → phase.isStale = false ∧ phase.holdsLock = false) :
    Quiet (s.advance w e phase) where
  pending b hb job hjob := by
    rcases List.mem_or_eq_of_mem_set hb with hold | rfl
    · exact h.pending b hold job hjob
    · exact hpending job hjob
  draft := h.draft
  requested := h.requested
  quiet hc := by
    refine ⟨fun b hb => ?_, (h.quiet hc).2⟩
    rcases List.mem_or_eq_of_mem_set hb with hold | rfl
    · exact (h.quiet hc).1 b hold
    · exact hphase hc

theorem Quiet.retire (h : Quiet s) : Quiet (s.retire w) where
  pending b hb := h.pending b (List.mem_of_mem_eraseIdx hb)
  draft := h.draft
  requested := h.requested
  quiet hc := ⟨fun b hb => (h.quiet hc).1 b (List.mem_of_mem_eraseIdx hb), (h.quiet hc).2⟩

theorem Quiet.update {f : ProcessingJob → ProcessingJob} (h : Quiet s)
    (hf : ∀ job ∈ s.row, (f job).state ≠ .cancelled) : Quiet (s.update f) where
  pending := h.pending
  draft d hd := by
    obtain ⟨hqueued, hrow⟩ := h.draft d hd
    refine ⟨hqueued, ?_⟩
    rw [State.update, hrow]
    rfl
  requested hreq := by simpa [State.update] using h.requested hreq
  quiet hc := by
    obtain ⟨job', hjob', hstate⟩ := hc
    obtain ⟨job, hjob, rfl⟩ := Option.map_eq_some_iff.1 hjob'
    exact absurd hstate (hf job hjob)

theorem write_state_ne {verdict : Verdict} {message : StageMessage} {now : Timestamp}
    {job : ProcessingJob} (h : job.state ≠ .cancelled) :
    (verdict.write settings message now job).state ≠ .cancelled := by
  cases verdict with
  | skipped next =>
    cases next with
    | none => exact fun hstate => by cases hstate
    | some next => exact h
  | succeeded next =>
    cases next with
    | none => exact fun hstate => by cases hstate
    | some next => exact h
  | halted reason => exact fun hstate => by cases hstate
  | failed retryable error =>
    unfold Verdict.write
    dsimp only
    split
    · exact fun hstate => by cases hstate
    · exact fun hstate => by cases hstate

theorem stageToState_ne (stage : PipelineStage) : stageToState stage ≠ .cancelled := by
  cases stage <;> decide

theorem flush_state_ne {stage : PipelineStage} {workerId : Option String} {now : Timestamp}
    {snapshot job : ProcessingJob} (h : job.state ≠ .cancelled) :
    (ProcessingJob.flushStageStarted stage workerId now snapshot job).state ≠ .cancelled := by
  show ProcessingJob.flushed snapshot.state (stageToState stage) job.state ≠ .cancelled
  unfold ProcessingJob.flushed
  split
  · exact h
  · exact stageToState_ne stage

end

theorem Quiet.cancel {now : Timestamp} (h : Quiet s) (hG : InTime s (.cancel now))
    (hunlocked : s.unlocked = true) :
    Quiet { s.update (.markCancelled now) with cancelling := s.cancelling - 1 } where
  pending := h.pending
  draft d hd := by
    obtain ⟨hqueued, hrow⟩ := h.draft d hd
    refine ⟨hqueued, ?_⟩
    show s.row.map _ = none
    rw [hrow]
    rfl
  requested hreq := by
    have := h.requested (Nat.lt_of_lt_of_le hreq (Nat.sub_le ..))
    simpa [State.update] using this
  quiet _ := by
    refine ⟨fun b hb => ⟨hG.1 b hb, ?_⟩, hG.2⟩
    simpa using List.all_eq_true.1 hunlocked b hb

theorem Quiet.served (h : Quiet s) (hG : InTime s a) (hs : Served driver settings s a s') :
    Quiet s' ∧ (Cancelled s → Cancelled s') := by
  cases hs with
  | create row draft queued =>
    refine ⟨{ h with draft := fun d hd => ?_ }, id⟩
    cases hd
    exact ⟨queued, row⟩
  | enqueue draft =>
    obtain ⟨hqueued, hrow⟩ := h.draft _ draft
    have hnot : ¬ Cancelled s := by simp [Cancelled, hrow]
    refine ⟨⟨?_, ?_, ?_, fun hc => ?_⟩, fun hc => absurd hc hnot⟩
    · simpa using h.pending
    · simpa using ⟨hqueued, hrow⟩
    · simpa using h.requested
    · simp [Cancelled, hrow] at hc
  | refuseFirst draft =>
    obtain ⟨-, hrow⟩ := h.draft _ draft
    have hnot : ¬ Cancelled s := by simp [Cancelled, hrow]
    refine ⟨⟨h.pending, by simp, fun _ => rfl, fun hc => ?_⟩, fun hc => absurd hc hnot⟩
    obtain ⟨job, hjob, hstate⟩ := hc
    cases hjob
    cases hstate
  | commit draft =>
    obtain ⟨hqueued, hrow⟩ := h.draft _ draft
    have hnot : ¬ Cancelled s := by simp [Cancelled, hrow]
    refine ⟨⟨?_, by simp, by simp, fun hc => ?_⟩, fun hc => absurd hc hnot⟩
    · simpa using h.pending
    · simp only [Cancelled, State.sendIf_row, Option.some.injEq, exists_eq_left'] at hc
      rw [hqueued] at hc
      cases hc
  | rollback => exact ⟨{ h with draft := by simp }, id⟩
  | replay => exact ⟨{ h with }, id⟩
  | checkCancel row => exact ⟨{ h with requested := fun _ => row }, id⟩
  | cancel unlocked =>
    refine ⟨h.cancel hG unlocked, ?_⟩
    rintro ⟨job, hjob, -⟩
    exact ⟨job.markCancelled _, by rw [State.update, hjob]; rfl, rfl⟩
  | checkDelete => exact ⟨{ h with }, id⟩
  | delete => exact ⟨{ h with }, id⟩
  | selectStalled row stalled =>
    have hnot : ¬ Cancelled s := by
      rintro ⟨job, hjob, hstate⟩
      cases row.symm.trans hjob
      simp [ProcessingJob.isStalled, hstate, JobState.isRunning] at stalled
    exact ⟨⟨h.pending, h.draft, h.requested, fun hc => absurd hc hnot⟩, fun hc => absurd hc hnot⟩
  | @failStalled now selected =>
    have hnot : ¬ Cancelled s := by
      intro hc
      rw [(h.quiet hc).2] at selected
      cases selected
    refine ⟨?_, fun hc => absurd hc hnot⟩
    have hupdate : Quiet (s.update (.reclaimStalled now)) :=
      h.update fun job _ hstate => by cases hstate
    exact ⟨hupdate.pending, hupdate.draft, hupdate.requested,
      fun hc => ⟨(hupdate.quiet hc).1, rfl⟩⟩

theorem Quiet.worked (h : Quiet s) (hG : InTime s a) (hw : Worked settings s a s') :
    Quiet s' ∧ (Cancelled s → Cancelled s') := by
  cases hw with
  | deliver mem =>
    refine ⟨⟨fun b hb => ?_, h.draft, h.requested, fun hc => ⟨fun b hb => ?_, (h.quiet hc).2⟩⟩, id⟩
    all_goals
      rcases List.mem_append.1 hb with hold | hnew
    · exact h.pending b hold
    · cases List.mem_singleton.1 hnew
      exact fun job hjob => by cases hjob
    · exact (h.quiet hc).1 b hold
    · cases List.mem_singleton.1 hnew
      exact ⟨rfl, rfl⟩
  | @load w e worker =>
    refine ⟨?_, id⟩
    rcases load_cases s e.message with ⟨outcome, hload, -⟩ | ⟨snapshot, hrow, -, hactive, hload⟩
    · rw [hload]
      exact h.advance (fun job hjob => by cases hjob) fun _ => ⟨rfl, rfl⟩
    · rw [hload]
      refine h.advance (fun job hjob => by cases hjob) ?_
      rintro ⟨job, hjob, hstate⟩
      cases hrow.symm.trans hjob
      simp [Runner.isActive, hstate] at hactive
  | skip worker =>
    have hnot := h.not_cancelled (List.mem_of_getElem? worker) (.inl rfl)
    refine ⟨(h.update fun job hjob => ?_).advance (fun job hjob => by cases hjob)
      fun _ => ⟨rfl, rfl⟩, fun hc => absurd hc hnot⟩
    exact write_state_ne fun hstate => hnot ⟨job, hjob, hstate⟩
  | start worker row unlocked =>
    have hnot := h.not_cancelled (List.mem_of_getElem? worker) (.inl rfl)
    refine ⟨h.advance (fun job hjob => ?_) fun hc => absurd hc hnot, fun hc => absurd hc hnot⟩
    cases hjob
    exact flush_state_ne fun hstate => hnot ⟨_, row, hstate⟩
  | @finish w e job verdict now worker =>
    have hmem := List.mem_of_getElem? worker
    have hnot := h.not_cancelled hmem (.inr rfl)
    refine ⟨(h.update fun _ _ => ?_).advance (fun job hjob => by cases hjob)
      fun _ => ⟨rfl, rfl⟩, fun hc => absurd hc hnot⟩
    exact write_state_ne (h.pending _ hmem job rfl)
  | rollBack worker =>
    have hnot := h.not_cancelled (List.mem_of_getElem? worker) (.inr rfl)
    exact ⟨h.advance (fun job hjob => by cases hjob) fun hc => absurd hc hnot, id⟩
  | recordFailure worker =>
    have hnot := h.not_cancelled (List.mem_of_getElem? worker) (.inl rfl)
    refine ⟨(h.update fun job hjob => ?_).advance (fun job hjob => by cases hjob)
      fun _ => ⟨rfl, rfl⟩, fun hc => absurd hc hnot⟩
    exact write_state_ne fun hstate => hnot ⟨job, hjob, hstate⟩
  | redelivered => exact ⟨{ h.retire with }, id⟩
  | exhausted => exact ⟨h.retire, id⟩
  | dispatch => exact ⟨{ h.retire with }, id⟩
  | returned => exact ⟨h.retire, id⟩
  | refuse =>
    have hnot : ¬ Cancelled s := fun ⟨job, hjob, hstate⟩ => hG job hjob hstate
    exact ⟨(h.update fun job _ hstate => by cases hstate).retire, fun hc => absurd hc hnot⟩

theorem Quiet.step (h : Quiet s) (hG : InTime s a) (hs : step driver settings s a = some s') :
    Quiet s' ∧ (Cancelled s → Cancelled s') := by
  rcases step_cases hs with hs | hw
  · exact h.served hG hs
  · exact h.worked hG hw

theorem quiet_invariant (driver : Driver) (settings : QueueSettings) :
    (machine driver settings).Invariant InTime Quiet where
  init s hs := by
    rw [hs]
    exact quiet_init
  step _ _ _ h hG hs := (h.step hG hs).1

theorem not_started (h : Quiet s) (hc : Cancelled s) (w : Nat) (workerId : String)
    (now : Timestamp) : step driver settings s (.start w workerId now) = none := by
  cases hs : step driver settings s (.start w workerId now) with
  | none => rfl
  | some t =>
    rcases step_cases hs with hs | hw
    · cases hs
    · cases hw with
      | start worker => exact absurd hc (h.not_cancelled (List.mem_of_getElem? worker) (.inl rfl))

/-! ## Cancellations that are overtaken -/

theorem not_cancelled_update {f : ProcessingJob → ProcessingJob} {t : State}
    (hrow : t.row = s.row.map f) (hf : ∀ job, (f job).state ≠ .cancelled) : ¬ Cancelled t := by
  rintro ⟨job, hjob, hstate⟩
  obtain ⟨job', -, rfl⟩ := Option.map_eq_some_iff.1 (hrow.symm.trans hjob)
  exact hf job' hstate

theorem stale_worker_writes {b : Activation} (hb : b ∈ s.workers)
    (hstale : b.phase.isStale = true) (hunlocked : s.unlocked = true) :
    ∃ a t, InTime s a ∧ step driver settings s a = some t ∧ ¬ Cancelled t := by
  obtain ⟨w, hw⟩ := List.getElem?_of_mem hb
  obtain ⟨e, phase⟩ := b
  cases phase with
  | loaded snapshot =>
    refine ⟨.skip w none 0, _, trivial, by simp [step, stepOther, stepWorker, hw, hunlocked]; rfl,
      not_cancelled_update rfl fun job hstate => ?_⟩
    cases hstate
  | failing retryable error =>
    refine ⟨.recordFailure w 0, _, trivial, by simp [step, stepOther, stepWorker, hw, hunlocked]; rfl,
      not_cancelled_update rfl fun job hstate => ?_⟩
    unfold Verdict.write at hstate
    dsimp only at hstate
    split at hstate <;> cases hstate
  | _ => cases hstale

theorem stale_sweep_writes (hsweep : s.sweeping = true) (hunlocked : s.unlocked = true) :
    ∃ a t, InTime s a ∧ step driver settings s a = some t ∧ ¬ Cancelled t := by
  refine ⟨.failStalled 0, { s.update (.reclaimStalled 0) with sweeping := false }, trivial,
    by simp [step, stepOther, hsweep, hunlocked], not_cancelled_update rfl ?_⟩
  exact fun job hstate => by cases hstate

/-- After a step that is not in time the job is not cancelled, or about to leave that state, even if
every further step is in time. -/
theorem overtaken (hs : step driver settings s a = some s') (hG : ¬ InTime s a) :
    ∃ t, (machine driver settings).Run InTime s' t ∧ ¬ Cancelled t := by
  rcases step_cases hs with hs | hw
  · cases hs with
    | @cancel now unlocked =>
      have hwrites : ∃ a t,
          InTime { s.update (.markCancelled now) with cancelling := s.cancelling - 1 } a ∧
          step driver settings
            { s.update (.markCancelled now) with cancelling := s.cancelling - 1 } a = some t ∧
          ¬ Cancelled t := by
        by_cases hstale : ∃ b ∈ s.workers, b.phase.isStale = true
        · obtain ⟨b, hb, hstale⟩ := hstale
          exact stale_worker_writes hb hstale unlocked
        · refine stale_sweep_writes ?_ unlocked
          by_contra hsweep
          refine hG ⟨fun b hb => ?_, Bool.eq_false_iff.2 hsweep⟩
          by_contra hb'
          exact hstale ⟨b, hb, by simpa using hb'⟩
      obtain ⟨b, t, hG, hb, ht⟩ := hwrites
      exact ⟨t, .single hG hb, ht⟩
    | _ => exact absurd trivial hG
  · cases hw with
    | refuse worker sent =>
      exact ⟨_, .refl _, not_cancelled_update rfl fun job hstate => by cases hstate⟩
    | _ => exact absurd trivial hG

theorem cancelled_of_not_inTime (h : Quiet s) (hs : step driver settings s a = some s')
    (hG : ¬ InTime s a) : Cancelled s ∨ Cancelled s' := by
  cases a with
  | cancel now =>
    obtain ⟨⟨-, hreq⟩, heq⟩ := Option.ite_none_right_eq_some.1
      ((Option.or_eq_some_iff.1 hs).resolve_right fun hw => by cases hw.2)
    cases heq
    obtain ⟨job, hjob⟩ := Option.isSome_iff_exists.1 (h.requested hreq)
    exact .inr ⟨job.markCancelled now, by rw [State.update, hjob]; rfl, rfl⟩
  | refuse w now =>
    obtain ⟨job, hjob, hstate⟩ : ∃ job ∈ s.row, job.state = .cancelled := by
      simpa [InTime] using hG
    exact .inl ⟨job, hjob, hstate⟩
  | _ => exact absurd trivial hG

/-- In a run of steps in time a cancelled job stays cancelled and no handler is started for it.
Every step that is not in time leads, from a cancelled job, to one in another state. -/
theorem cancelled_final (hs : (machine driver settings).ReachIf InTime s) :
    (Cancelled s → ∀ t, (machine driver settings).Run InTime s t →
      Cancelled t ∧ ∀ w workerId now, step driver settings t (.start w workerId now) = none) ∧
    ∀ a t, step driver settings s a = some t → ¬ InTime s a →
      (Cancelled s ∨ Cancelled t) ∧
        ∃ u, (machine driver settings).Run InTime t u ∧ ¬ Cancelled u := by
  have hquiet := (quiet_invariant driver settings).reach hs
  refine ⟨fun hc t ht => ?_, fun a t hstep hG =>
    ⟨cancelled_of_not_inTime hquiet hstep hG, overtaken hstep hG⟩⟩
  have hct : Cancelled t :=
    ht.stable (quiet_invariant driver settings).step
      (fun _ _ _ h hc hG hs => (h.step hG hs).2 hc) hquiet hc
  have hqt := ht.preserves (quiet_invariant driver settings).step hquiet
  exact ⟨hct, fun w workerId now => not_started hqt hct w workerId now⟩

/-- The committed row is cancelled, and so it stays whatever the workers go on with. -/
theorem cancelled_before_load : ∃ s, Cancelled s ∧
    ∀ t, (machine .broker Sample.deployment).Run InTime s t → Cancelled t := by
  have hrun : ((machine .broker Sample.deployment).execIf InTime {}
      (Sample.received ++ [.checkCancel, .cancel 5])).any
        (fun s => s.row.any (·.state = .cancelled)) = true := by decide
  obtain ⟨s, hs, hrow⟩ := (Option.any_eq_true _ _).1 hrun
  obtain ⟨job, hjob, hstate⟩ := (Option.any_eq_true _ _).1 hrow
  have hc : Cancelled s := ⟨job, hjob, of_decide_eq_true hstate⟩
  exact ⟨s, hc, fun t ht => ((cancelled_final ⟨_, rfl, Machine.run_of_execIf hs⟩).1 hc t ht).1⟩

/-- A cancellation that commits after a worker has read the job is overwritten, and `PARSER` is
started. -/
theorem cancellation_overwritten : ∃ s t,
    (machine .broker Sample.deployment).Reach s ∧ Cancelled s ∧
    (machine .broker Sample.deployment).Run Machine.anyStep s t ∧ ¬ Cancelled t ∧
    ∃ a ∈ t.workers, a.envelope.message.stage = .parser ∧ a.phase.holdsLock = true := by
  have hrun : ((machine .broker Sample.deployment).exec {}
      (Sample.received ++ [.load 0, .checkCancel, .cancel 5])).any
        (fun s => s.row.any (·.state = .cancelled) ∧
          ((machine .broker Sample.deployment).exec s
            [.start 0 "worker" 6, .finish 0 (.succeeded (some .parser)) 7, .dispatch 0 "",
              .deliver (envelope Sample.deployment (Sample.message .parser)), .load 0,
              .start 0 "worker" 8]).any
            fun t => t.row.all (·.state ≠ .cancelled) ∧
              t.workers.any fun a => a.envelope.message.stage = .parser ∧ a.phase.holdsLock) =
        true := by decide
  obtain ⟨s, hs, hboth⟩ := (Option.any_eq_true _ _).1 hrun
  obtain ⟨hrow, hthen⟩ := of_decide_eq_true hboth
  obtain ⟨t, ht, hboth⟩ := (Option.any_eq_true _ _).1 hthen
  obtain ⟨hrow', hworker⟩ := of_decide_eq_true hboth
  obtain ⟨job, hjob, hstate⟩ := (Option.any_eq_true _ _).1 hrow
  obtain ⟨a, ha, hstarted⟩ := List.any_eq_true.1 hworker
  refine ⟨s, t, Machine.reach_of_exec rfl hs, ⟨job, hjob, of_decide_eq_true hstate⟩,
    Machine.run_of_exec ht, ?_, a, ha, of_decide_eq_true hstarted⟩
  rintro ⟨job', hjob', hstate'⟩
  rw [hjob'] at hrow'
  simp [hstate'] at hrow'

end Lifecycle

end Clear
