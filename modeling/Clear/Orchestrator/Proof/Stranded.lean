import Clear.Orchestrator.Proof.Lifecycle

/-!
# No stranded job

The first message of a job can reach a worker before the job is committed, and a worker that raises
on the last delivery drops what it carried. Where neither happens to the last message of a job that
waits for it (`Spared`), a committed job that is neither terminal nor paused is carried by a message
or a worker or has its heartbeat watched by the sweep (`never_stranded`).

The sweep covers the running states only, so `Inv` says it for the others: a job that is `QUEUED`
or `RETRYING`, or about to be committed as such, is carried.
-/

namespace Clear

namespace Lifecycle

def waits (job : ProcessingJob) : Bool := job.state ∈ [.queued, .retrying]

/-- The worker will go on with the job, or has something to queue for it. -/
def Activation.carries (a : Activation) : Bool :=
  match a.phase with
  | .settled outcome => (Runner.dispatches a.envelope.message outcome "").isSome
  | _ => true

def Carried (s : State) : Prop := s.inflight ≠ [] ∨ ∃ a ∈ s.workers, a.carries = true

instance (s : State) : Decidable (Carried s) := inferInstanceAs (Decidable (_ ∨ _))

def Needed (driver : Driver) (s : State) : Prop :=
  (∃ job ∈ s.row, waits job = true) ∨ ∃ d ∈ s.draft, d.sent = true ∧ driver.atOnce = true

instance (driver : Driver) (s : State) : Decidable (Needed driver s) :=
  inferInstanceAs (Decidable (_ ∨ _))

/-- The worker is not the last to carry a job that needs it. -/
def Replaceable (driver : Driver) (s : State) (w : Nat) : Prop :=
  Carried (s.retire w) ∨ ¬ Needed driver s

instance (driver : Driver) (s : State) (w : Nat) : Decidable (Replaceable driver s w) :=
  inferInstanceAs (Decidable (_ ∨ _))

/-- A job is loaded once it is committed and while its contract is live, and a worker raises while
its message is delivered again, except for workers that nothing depends on. -/
def Spared (driver : Driver) (s : State) : Action → Prop
  | .load w => (s.row.isSome = true ∧ s.contract = true) ∨ Replaceable driver s w
  | .raise w => (∃ a ∈ s.workers[w]?, 1 < a.envelope.deliveries) ∨ Replaceable driver s w
  | _ => True

instance (driver : Driver) (s : State) : (a : Action) → Decidable (Spared driver s a)
  | .load _ => inferInstanceAs (Decidable (_ ∨ _))
  | .raise _ => inferInstanceAs (Decidable (_ ∨ _))
  | .create .. | .enqueue | .refuseFirst .. | .commit | .rollback | .replay _ | .checkCancel
  | .cancel _ | .checkDelete | .delete | .selectStalled .. | .failStalled _ | .deliver _ | .skip ..
  | .start .. | .finish .. | .rollBack .. | .recordFailure .. | .dispatch .. | .refuse .. =>
    isTrue trivial

def NotStranded (s : State) : Prop :=
  ∀ job ∈ s.row, job.state.isTerminal = false → job.state ≠ .paused →
    s.inflight ≠ [] ∨ s.workers ≠ [] ∨
      ∀ timeoutMinutes, ∃ now, ∀ later, now ≤ later → job.isStalled timeoutMinutes later = true

structure Inv (driver : Driver) (s : State) : Prop where
  inflight : ∀ e ∈ s.inflight, e.message.continuePipeline = true
  workers : ∀ a ∈ s.workers, a.envelope.message.continuePipeline = true
  draft : ∀ d ∈ s.draft, d.message.continuePipeline = true ∧ waits d.job = true ∧ s.row = none
  loaded : ∀ a ∈ s.workers, a.carries = true → a.phase = .received ∨ s.row.isSome = true
  carried : Needed driver s → Carried s

variable {driver : Driver} {settings : QueueSettings} {s s' : State} {a : Action}

theorem inv_init : Inv driver {} := by
  constructor <;> simp [Needed]

theorem Inv.notStranded (h : Inv driver s) : NotStranded s := by
  intro job hjob hterminal hpaused
  by_cases hwaits : waits job = true
  · rcases h.carried (.inl ⟨job, hjob, hwaits⟩) with hflight | ⟨b, hb, -⟩
    · exact .inl hflight
    · exact .inr (.inl (List.ne_nil_of_mem hb))
  · refine .inr (.inr fun timeoutMinutes => ProcessingJob.exists_isStalled timeoutMinutes ?_)
    unfold waits at hwaits
    cases hstate : job.state <;> simp_all [JobState.isTerminal, JobState.isRunning]

/-! ## Workers -/

section
variable {w : Nat} {e : Envelope} {phase : Phase} {b : Activation}

theorem mem_set_of_mem_eraseIdx {l : List Activation} {x : Activation} (h : b ∈ l.eraseIdx w) :
    b ∈ l.set w x := by
  obtain ⟨i, hi, hib⟩ := List.mem_eraseIdx_iff_getElem?.1 h
  refine List.mem_of_getElem? (i := i) ?_
  rw [List.getElem?_set_ne (Ne.symm hi), hib]

theorem Carried.advance (h : Carried (s.retire w)) : Carried (s.advance w e phase) := by
  rcases h with hflight | ⟨b, hb, hcarries⟩
  · exact .inl hflight
  · exact .inr ⟨b, mem_set_of_mem_eraseIdx hb, hcarries⟩

theorem Carried.retire (h : Carried s) (hw : s.workers[w]? = some b) (hb : b.carries = false) :
    Carried (s.retire w) := by
  rcases h with hflight | ⟨c, hc, hcarries⟩
  · exact .inl hflight
  · refine .inr ⟨c, ?_, hcarries⟩
    obtain ⟨i, hi⟩ := List.getElem?_of_mem hc
    refine List.mem_eraseIdx_iff_getElem?.2 ⟨i, ?_, hi⟩
    rintro rfl
    cases hw.symm.trans hi
    rw [hb] at hcarries
    cases hcarries

theorem carried_of_worker (hw : s.workers[w]? = some b) (hb : b.carries = true) : Carried s :=
  .inr ⟨b, List.mem_of_getElem? hw, hb⟩

end

/-! ## Steps -/

section
variable {w : Nat} {e : Envelope} {phase : Phase} {b : Activation}
  {f : ProcessingJob → ProcessingJob}

theorem Inv.update (h : Inv driver s)
    (hf : Carried s ∨ ∀ job ∈ s.row, waits (f job) = true → waits job = true) :
    Inv driver (s.update f) where
  inflight := h.inflight
  workers := h.workers
  draft d hd := by
    obtain ⟨hcontinues, hwaits, hrow⟩ := h.draft d hd
    refine ⟨hcontinues, hwaits, ?_⟩
    rw [State.update, hrow]
    rfl
  loaded c hc hcarries := by simpa [State.update] using h.loaded c hc hcarries
  carried hneeded := by
    rcases hf with hcarried | hf
    · exact hcarried
    · refine h.carried (hneeded.imp_left ?_)
      rintro ⟨job', hjob', hwaits⟩
      obtain ⟨job, hjob, rfl⟩ := Option.map_eq_some_iff.1 hjob'
      exact ⟨job, hjob, hf job hjob hwaits⟩

theorem Inv.not_needed (h : Inv driver s) (hrow : s.row.isSome = true)
    (hf : ∀ job, waits (f job) = false) : ¬ Needed driver (s.update f) := by
  rintro (⟨job', hjob', hwaits⟩ | ⟨d, hd, -⟩)
  · obtain ⟨job, -, rfl⟩ := Option.map_eq_some_iff.1 hjob'
    rw [hf job] at hwaits
    cases hwaits
  · have := (h.draft d hd).2.2
    rw [this] at hrow
    cases hrow

theorem Inv.advance (h : Inv driver s) (hw : s.workers[w]? = some b)
    (hrow : phase = .received ∨ s.row.isSome = true ∨
      Activation.carries ⟨b.envelope, phase⟩ = false)
    (hkeep : Activation.carries ⟨b.envelope, phase⟩ = true ∨ Replaceable driver s w) :
    Inv driver (s.advance w b.envelope phase) where
  inflight := h.inflight
  workers c hc := by
    rcases List.mem_or_eq_of_mem_set hc with hold | rfl
    · exact h.workers c hold
    · exact h.workers b (List.mem_of_getElem? hw)
  draft := h.draft
  loaded c hc hcarries := by
    rcases List.mem_or_eq_of_mem_set hc with hold | rfl
    · exact h.loaded c hold hcarries
    · rcases hrow with hrow | hrow | hrow
      · exact .inl hrow
      · exact .inr hrow
      · rw [hrow] at hcarries
        cases hcarries
  carried hneeded := by
    rcases hkeep with hcarries | hcarried | hnot
    · have hlt := (List.getElem?_eq_some_iff.1 hw).1
      exact .inr ⟨_, List.mem_set hlt _, hcarries⟩
    · exact hcarried.advance
    · exact absurd hneeded hnot

theorem Inv.retire (h : Inv driver s) (hkeep : Replaceable driver s w) :
    Inv driver (s.retire w) where
  inflight := h.inflight
  workers c hc := h.workers c (List.mem_of_mem_eraseIdx hc)
  draft := h.draft
  loaded c hc := h.loaded c (List.mem_of_mem_eraseIdx hc)
  carried hneeded := hkeep.resolve_right fun hnot => hnot hneeded

theorem Inv.handOn (h : Inv driver s) (he : e.message.continuePipeline = true) :
    Inv driver ((s.retire w).send e) where
  inflight c hc := by
    rcases List.mem_append.1 hc with hold | hnew
    · exact h.inflight c hold
    · cases List.mem_singleton.1 hnew
      exact he
  workers c hc := h.workers c (List.mem_of_mem_eraseIdx hc)
  draft := h.draft
  loaded c hc := h.loaded c (List.mem_of_mem_eraseIdx hc)
  carried _ := .inl (by simp [State.send])

theorem verdict_carries (verdict : Verdict) {message : StageMessage} {now : Timestamp}
    (hcontinues : message.continuePipeline = true) :
    (Runner.dispatches message (verdict.outcome settings message) "").isSome = true ∨
      ∀ job, waits (verdict.write settings message now job) = false := by
  cases verdict with
  | skipped next =>
    cases next with
    | none => exact .inr fun job => rfl
    | some next => exact .inl (by simp [Runner.dispatches, Verdict.outcome, hcontinues])
  | succeeded next =>
    cases next with
    | none => exact .inr fun job => rfl
    | some next => exact .inl (by simp [Runner.dispatches, Verdict.outcome, hcontinues])
  | halted reason => exact .inr fun job => rfl
  | failed retryable error =>
    by_cases hretry : Runner.canRetry settings message retryable = true
    · exact .inl (by simp [Runner.dispatches, Verdict.outcome, Runner.failureOutcome, hretry])
    · refine .inr fun job => ?_
      unfold Verdict.write
      dsimp only
      rw [if_neg hretry]
      rfl

/-- A worker writes how its stage ended. -/
theorem Inv.settle (h : Inv driver s) (hw : s.workers[w]? = some b) (verdict : Verdict)
    {now : Timestamp} (hcarries : b.carries = true) (hreceived : b.phase ≠ .received)
    (hf : (∀ job, f job = verdict.write settings b.envelope.message now job) ∨
      ∃ job₀, ∀ job, f job = verdict.write settings b.envelope.message now job₀) :
    Inv driver ((s.update f).advance w b.envelope
      (.settled (verdict.outcome settings b.envelope.message))) := by
  have hmem := List.mem_of_getElem? hw
  have hrow : s.row.isSome = true := (h.loaded b hmem hcarries).resolve_left hreceived
  have hupdate : Inv driver (s.update f) := h.update (.inl (carried_of_worker hw hcarries))
  refine hupdate.advance hw (.inr (.inl (by simpa [State.update] using hrow))) ?_
  rcases verdict_carries verdict (h.workers b hmem) with hnext | hend
  · exact .inl hnext
  · refine .inr (.inr (h.not_needed hrow fun job => ?_))
    rcases hf with hf | ⟨job₀, hf⟩
    · rw [hf]
      exact hend job
    · rw [hf]
      exact hend job₀

end

theorem dispatches_continues {message next : StageMessage} {outcome : StageOutcome}
    {dispatchId : String} {delayMs : Nat} (hcontinues : message.continuePipeline = true)
    (h : Runner.dispatches message outcome dispatchId = some (next, delayMs)) :
    next.continuePipeline = true ∧ (Runner.dispatches message outcome "").isSome = true := by
  unfold Runner.dispatches at h ⊢
  split at h
  · simp only [hcontinues, if_true] at h ⊢
    cases h
    exact ⟨rfl, rfl⟩
  · obtain ⟨hretry, h⟩ := Option.ite_none_right_eq_some.1 h
    cases h
    exact ⟨hcontinues, by simp [hretry]⟩

theorem dispatches_none {message : StageMessage} {outcome : StageOutcome} {dispatchId : String}
    (h : Runner.dispatches message outcome dispatchId = none) (dispatchId' : String) :
    Runner.dispatches message outcome dispatchId' = none := by
  unfold Runner.dispatches at h ⊢
  split at h
  · split at h
    next => cases h
    next hstop => rw [if_neg hstop]
  · split at h
    next => cases h
    next hstop => rw [if_neg hstop]

theorem not_waits {job : ProcessingJob} (h : Runner.isActive job = false) : ¬ waits job = true := by
  unfold Runner.isActive at h
  unfold waits
  cases hstate : job.state <;> simp_all

theorem Inv.served (h : Inv driver s) (hs : Served driver settings s a s') : Inv driver s' := by
  cases hs with
  | create row draft queued continues =>
    refine { h with draft := fun d hd => ?_, carried := fun hneeded => h.carried ?_ }
    · cases hd
      exact ⟨continues, by simp [waits, queued], row⟩
    · rcases hneeded with hrow | ⟨d, hd, hsent, -⟩
      · exact .inl hrow
      · cases hd
        cases hsent
  | enqueue draft =>
    obtain ⟨hcontinues, hwaits, hrow⟩ := h.draft _ draft
    refine ⟨fun e he => ?_, ?_, ?_, ?_, fun hneeded => ?_⟩
    · rcases State.mem_sendIf he with hold | rfl
      · exact h.inflight e hold
      · exact hcontinues
    · simpa using h.workers
    · simpa using ⟨hcontinues, hwaits, hrow⟩
    · simpa using h.loaded
    · rcases hneeded with ⟨job, hjob, -⟩ | ⟨d, -, -, honce⟩
      · simp [hrow] at hjob
      · exact .inl (by simp [State.sendIf, honce, State.send])
  | refuseFirst draft =>
    obtain ⟨-, -, hrow⟩ := h.draft _ draft
    refine { h with draft := by simp, loaded := fun _ _ _ => .inr rfl, carried := ?_ }
    rintro (⟨job, hjob, hwaits⟩ | ⟨d, hd, -⟩)
    · cases hjob
      cases hwaits
    · cases hd
  | commit draft =>
    obtain ⟨hcontinues, -, -⟩ := h.draft _ draft
    refine ⟨fun e he => ?_, ?_, by simp, by simp, fun _ => ?_⟩
    · rcases State.mem_sendIf he with hold | rfl
      · exact h.inflight e hold
      · exact hcontinues
    · simpa using h.workers
    · by_cases honce : driver.atOnce = true
      · have hcarried := h.carried (.inr ⟨_, draft, rfl, honce⟩)
        simpa [State.sendIf, honce, Carried] using hcarried
      · exact .inl (by simp [State.sendIf, honce, State.send])
  | rollback =>
    refine { h with draft := by simp, carried := fun hneeded => h.carried (.inl ?_) }
    exact hneeded.resolve_right fun ⟨d, hd, _⟩ => by cases hd
  | replay row continues =>
    refine { h with inflight := fun e he => ?_, carried := fun _ => .inl (by simp [State.send]) }
    rcases List.mem_append.1 he with hold | hnew
    · exact h.inflight e hold
    · cases List.mem_singleton.1 hnew
      exact continues
  | checkCancel => exact { h with }
  | @cancel now =>
    exact { h.update (f := .markCancelled now) (.inr fun job _ hwaits => by cases hwaits) with }
  | checkDelete => exact { h with }
  | delete => exact { h with }
  | selectStalled => exact { h with }
  | @failStalled now =>
    exact { h.update (f := .reclaimStalled now) (.inr fun job _ hwaits => by cases hwaits) with }

theorem Inv.worked (h : Inv driver s) (hG : Spared driver s a) (hw : Worked settings s a s') :
    Inv driver s' := by
  cases hw with
  | @deliver e mem =>
    refine ⟨fun c hc => h.inflight c (List.mem_of_mem_erase hc), fun c hc => ?_, h.draft,
      fun c hc hcarries => ?_, fun _ => .inr ⟨⟨e, .received⟩, by simp, rfl⟩⟩
    all_goals
      rcases List.mem_append.1 hc with hold | hnew
    · exact h.workers c hold
    · cases List.mem_singleton.1 hnew
      exact h.inflight e mem
    · exact h.loaded c hold hcarries
    · cases List.mem_singleton.1 hnew
      exact .inl rfl
  | @load w e worker =>
    rcases load_cases s e.message with ⟨outcome, hload, hnone, hidle⟩ | ⟨snapshot, hrow, -, -, hload⟩
    · rw [hload]
      refine h.advance worker (.inr (.inr (by simp [Activation.carries, hnone]))) (.inr ?_)
      rcases hG with ⟨hrow, hlive⟩ | hkeep
      · refine .inr ?_
        rintro (⟨job, hjob, hwaits⟩ | ⟨d, hd, -⟩)
        · exact not_waits (hidle hlive job hjob) hwaits
        · rw [(h.draft d hd).2.2] at hrow
          cases hrow
      · exact hkeep
    · rw [hload]
      exact h.advance worker (.inr (.inl (Option.isSome_of_eq_some hrow))) (.inl rfl)
  | skip worker => exact h.settle worker (.skipped _) rfl (by simp) (.inl fun job => rfl)
  | start worker row =>
    exact h.advance worker (.inr (.inl (Option.isSome_of_eq_some row))) (.inl rfl)
  | finish worker => exact h.settle worker _ rfl (by simp) (.inr ⟨_, fun job => rfl⟩)
  | rollBack worker =>
    refine h.advance worker (.inr (.inl ?_)) (.inl rfl)
    exact (h.loaded _ (List.mem_of_getElem? worker) rfl).resolve_left (by simp)
  | recordFailure worker =>
    exact h.settle worker (.failed _ _) rfl (by simp) (.inl fun job => rfl)
  | redelivered worker => exact h.handOn (h.workers _ (List.mem_of_getElem? worker))
  | exhausted worker last =>
    refine h.retire (hG.resolve_left ?_)
    rintro ⟨b, hb, hmore⟩
    cases worker.symm.trans hb
    exact last hmore
  | dispatch worker sent =>
    have hcontinues := h.workers _ (List.mem_of_getElem? worker)
    exact h.handOn (dispatches_continues hcontinues sent).1
  | returned worker sent =>
    refine h.retire (or_iff_not_imp_right.2 fun hneeded => ?_)
    refine (h.carried (not_not.1 hneeded)).retire worker ?_
    simpa [Activation.carries] using dispatches_none sent ""
  | refuse worker sent =>
    have hmem := List.mem_of_getElem? worker
    have hcarries := (dispatches_continues (h.workers _ hmem) sent).2
    have hrow := (h.loaded _ hmem hcarries).resolve_left (by simp)
    refine (h.update (.inr fun job _ hwaits => by cases hwaits)).retire (.inr ?_)
    exact h.not_needed hrow fun job => rfl

theorem inv_invariant (driver : Driver) (settings : QueueSettings) :
    (machine driver settings).Invariant (Spared driver) (Inv driver) where
  init s hs := by
    rw [hs]
    exact inv_init
  step s a t h hG hs := by
    rcases step_cases hs with hs | hw
    · exact h.served hs
    · exact h.worked hG hw

/-! ## Jobs that are dropped -/

theorem drain (hnone : ∀ b ∈ s.workers, b.carries = false) :
    (machine driver settings).Run (Spared driver) s { s with workers := [] } := by
  induction hworkers : s.workers generalizing s with
  | nil =>
    rw [← hworkers]
    exact .refl _
  | cons b rest ih =>
    obtain ⟨e, phase⟩ := b
    have hb := hnone ⟨e, phase⟩ (by rw [hworkers]; exact List.mem_cons_self)
    cases phase with
    | settled outcome =>
      have hsent : Runner.dispatches e.message outcome "" = none := by
        simpa [Activation.carries] using hb
      have hstep : step driver settings s (.dispatch 0 "") = some (s.retire 0) := by
        simp [step, stepOther, stepWorker, hworkers, hsent]
      have hrest : (s.retire 0).workers = rest := by simp [State.retire, hworkers]
      refine (Machine.Run.single (a := .dispatch 0 "") trivial hstep).trans
        (ih (s := s.retire 0) ?_ hrest)
      exact fun c hc => hnone c (List.mem_of_mem_eraseIdx hc)
    | _ => cases hb

theorem not_notStranded {job : ProcessingJob} (hrow : s.row = some job) (hwaits : waits job = true)
    (hflight : s.inflight = []) (hworkers : s.workers = []) : ¬ NotStranded s := by
  intro h
  have hstate : job.state = .queued ∨ job.state = .retrying := by simpa [waits] using hwaits
  have hmoved := h job hrow (by rcases hstate with hs | hs <;> rw [hs] <;> rfl)
    (by rcases hstate with hs | hs <;> simp [hs])
  rcases hmoved with hmoved | hmoved | hstalled
  · exact hmoved hflight
  · exact hmoved hworkers
  · obtain ⟨now, hnow⟩ := hstalled 0
    have := hnow now (Nat.le_refl _)
    rcases hstate with hs | hs <;> simp [ProcessingJob.isStalled, hs, JobState.isRunning] at this

theorem strand (hdraft : ∀ d ∈ s.draft, waits d.job = true) (hneeded : Needed driver s)
    (hnot : ¬ Carried s) :
    ∃ u, (machine driver settings).Run (Spared driver) s u ∧ ¬ NotStranded u := by
  have hflight : s.inflight = [] := by
    by_contra hflight
    exact hnot (.inl hflight)
  have hdrain : (machine driver settings).Run (Spared driver) s { s with workers := [] } :=
    drain fun b hb => by
      by_contra hcarries
      exact hnot (.inr ⟨b, hb, by simpa using hcarries⟩)
  rcases hneeded with ⟨job, hjob, hwaits⟩ | ⟨⟨job, message, sent⟩, hd, hsent, honce⟩
  · exact ⟨_, hdrain, not_notStranded hjob hwaits hflight rfl⟩
  · dsimp only at hsent
    subst hsent
    have hd : s.draft = some ⟨job, message, true⟩ := hd
    have hstep : step driver settings { s with workers := [] } .commit =
        some { s with workers := [], row := some job, draft := none } := by
      simp [step, stepOther, hd, State.sendIf, honce]
    exact ⟨_, hdrain.trans (.single (a := .commit) trivial hstep),
      not_notStranded rfl (hdraft _ hd) hflight rfl⟩

/-- What a worker drops that is not replaceable is carried by nothing else. -/
theorem not_carried_advance {w : Nat} {e : Envelope} {phase : Phase}
    (hnot : ¬ Carried (s.retire w)) (hphase : Activation.carries ⟨e, phase⟩ = false) :
    ¬ Carried (s.advance w e phase) := by
  rintro (hflight | ⟨c, hc, hcarries⟩)
  · exact hnot (.inl hflight)
  · obtain ⟨i, hi⟩ := List.getElem?_of_mem hc
    by_cases hiw : w = i
    · subst hiw
      obtain ⟨hlt, hnew⟩ := List.getElem?_eq_some_iff.1 hi
      simp only [State.advance, List.getElem_set_self] at hnew
      rw [← hnew, hphase] at hcarries
      cases hcarries
    · have hold : s.workers[i]? = some c := by
        simpa [State.advance, List.getElem?_set_ne hiw] using hi
      exact hnot (.inr ⟨c, List.mem_eraseIdx_iff_getElem?.2 ⟨i, Ne.symm hiw, hold⟩, hcarries⟩)

theorem dropped (h : Inv driver s) (hs : step driver settings s a = some s')
    (hG : ¬ Spared driver s a) :
    ∃ u, (machine driver settings).Run (Spared driver) s' u ∧ ¬ NotStranded u := by
  have hwaits : ∀ d ∈ s.draft, waits d.job = true := fun d hd => (h.draft d hd).2.1
  rcases step_cases hs with hs | hw
  · cases hs <;> exact absurd trivial hG
  · cases hw with
    | @load w e worker =>
      obtain ⟨hlive, hkeep⟩ := not_or.1 hG
      obtain ⟨hnot, hneeded⟩ := not_or.1 hkeep
      rcases load_cases s e.message with ⟨outcome, hload, hnone, -⟩ | ⟨snapshot, hrow, hcontract, -⟩
      · rw [hload]
        refine strand hwaits (not_not.1 hneeded) (not_carried_advance hnot ?_)
        simp [Activation.carries, hnone]
      · exact absurd ⟨Option.isSome_of_eq_some hrow, hcontract⟩ hlive
    | redelivered worker more => exact absurd (.inl ⟨_, worker, more⟩) hG
    | exhausted worker last =>
      obtain ⟨hnot, hneeded⟩ := not_or.1 (not_or.1 hG).2
      exact strand hwaits (not_not.1 hneeded) hnot
    | _ => exact absurd trivial hG

/-- In a run of steps that spare the job it is never stranded. Every step that does not leads to a
state in which it is. -/
theorem never_stranded (hs : (machine driver settings).ReachIf (Spared driver) s) :
    NotStranded s ∧ ∀ a t, step driver settings s a = some t → ¬ Spared driver s a →
      ∃ u, (machine driver settings).Run (Spared driver) t u ∧ ¬ NotStranded u := by
  have hinv := (inv_invariant driver settings).reach hs
  exact ⟨hinv.notStranded, fun a t hstep hG => dropped hinv hstep hG⟩

/-- A job whose first message is received after the commit is not stranded. -/
theorem never_stranded_received : ∃ s : State, s.row.isSome = true ∧ NotStranded s := by
  have hrun : ((machine .broker Sample.deployment).execIf (Spared .broker) {}
      (Sample.received ++ [.load 0, .start 0 "worker" 5])).any (·.row.isSome) = true := by decide
  obtain ⟨s, hs, hrow⟩ := (Option.any_eq_true _ _).1 hrun
  exact ⟨s, hrow, (never_stranded ⟨_, rfl, Machine.run_of_execIf hs⟩).1⟩

/-- A broker delivers the first message before the job is committed: the worker finds no job, and
nothing moves the job that is committed then. -/
theorem stranded_before_commit : ∃ s,
    (machine .broker Sample.deployment).Reach s ∧ ¬ NotStranded s := by
  have hrun : ((machine .broker Sample.deployment).exec {}
      [.create Sample.job (Sample.message .validation), .enqueue,
        .deliver (envelope Sample.deployment (Sample.message .validation)), .load 0,
        .dispatch 0 "", .commit]).any (fun s => s.row.any waits ∧ s.inflight = [] ∧ s.workers.isEmpty) =
      true := by decide
  obtain ⟨s, hs, hboth⟩ := (Option.any_eq_true _ _).1 hrun
  obtain ⟨hrow, hflight, hworkers⟩ := of_decide_eq_true hboth
  obtain ⟨job, hjob, hwaits⟩ := (Option.any_eq_true _ _).1 hrow
  exact ⟨s, Machine.reach_of_exec rfl hs,
    not_notStranded hjob hwaits hflight (List.isEmpty_iff.1 hworkers)⟩

end Lifecycle

end Clear
