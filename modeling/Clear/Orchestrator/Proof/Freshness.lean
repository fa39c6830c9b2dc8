import Clear.Orchestrator.Proof.Pipeline

/-!
# Freshness of a finished contract

A stage of the chain is in order when it has succeeded after every success of the stage before it.
The planner compares versions only, and a resume asks only whether the earlier stages ever
succeeded, so a job can reuse what was computed from an output that has been replaced since.

`Orderly` excludes these steps, and a handler that returns while a message of another job waits
further down the chain. In an orderly run every live message finds the stages in front of it
in order (`Ordered`), and a job that is marked READY leaves the whole chain in order
(`fresh_at_ready`).
-/

namespace Clear

namespace Pipeline

open Runner

/-! ## Order -/

/-- The stages that compute from one another's outputs. -/
def chain : List PipelineStage := [.parser, .docpipeline, .extraction, .embedding, .indexing]

def upstream : PipelineStage → Option PipelineStage
  | .docpipeline => some .parser
  | .extraction => some .docpipeline
  | .embedding => some .extraction
  | .indexing => some .embedding
  | _ => none

def Before (t stage : PipelineStage) : Prop :=
  ∃ j ∈ stageIndex stage, ∃ i ∈ stageIndex t, i < j

instance (t stage : PipelineStage) : Decidable (Before t stage) :=
  inferInstanceAs (Decidable (∃ j ∈ stageIndex stage, ∃ i ∈ stageIndex t, i < j))

theorem upstream_index {t u : PipelineStage} (h : upstream t = some u) :
    ∃ i, stageIndex u = some i ∧ stageIndex t = some (i + 1) := by
  cases t <;> cases h <;> exact ⟨_, rfl, rfl⟩

theorem before_or_eq {t stage : PipelineStage} {i j : Nat} (hi : stageIndex stage = some i)
    (hj : stageIndex t = some j) : Before t stage ∨ t = stage ∨ Before stage t := by
  rcases Nat.lt_trichotomy j i with hlt | rfl | hlt
  · exact .inl ⟨i, hi, j, hj, hlt⟩
  · rw [stageIndex_iff] at hi hj
    rw [hi, Option.some.injEq] at hj
    exact .inr (.inl hj.symm)
  · exact .inr (.inr ⟨j, hj, i, hi, hlt⟩)

theorem chain_index {t : PipelineStage} (h : t ∈ chain) : ∃ i, stageIndex t = some i := by
  revert h
  cases t <;> intro h <;> first | exact ⟨_, rfl⟩ | exact absurd h (by decide)

def FinishedBefore (run later : JobStageRun) : Prop :=
  ∃ a ∈ run.finishedAt, ∃ b ∈ later.finishedAt, a < b

instance (run later : JobStageRun) : Decidable (FinishedBefore run later) :=
  inferInstanceAs (Decidable (∃ a ∈ run.finishedAt, ∃ b ∈ later.finishedAt, a < b))

section
variable (runs : RunTable) (contractId : Uuid)

def upstreamSuccesses (stage : PipelineStage) : List JobStageRun :=
  match upstream stage with
  | none => []
  | some u => runs.successes contractId u

def InOrder (stage : PipelineStage) : Prop :=
  ∃ run ∈ runs.successes contractId stage, ∀ earlier ∈ upstreamSuccesses runs contractId stage,
    FinishedBefore earlier run

instance (stage : PipelineStage) : Decidable (InOrder runs contractId stage) :=
  inferInstanceAs (Decidable (∃ run ∈ runs.successes contractId stage,
    ∀ earlier ∈ upstreamSuccesses runs contractId stage, FinishedBefore earlier run))

def FreshUpTo (stage : PipelineStage) : Prop :=
  ∀ t ∈ chain, Before t stage → InOrder runs contractId t

instance (stage : PipelineStage) : Decidable (FreshUpTo runs contractId stage) :=
  inferInstanceAs (Decidable (∀ t ∈ chain, Before t stage → InOrder runs contractId t))

def Fresh : Prop := ∀ t ∈ chain, InOrder runs contractId t

instance : Decidable (Fresh runs contractId) :=
  inferInstanceAs (Decidable (∀ t ∈ chain, InOrder runs contractId t))

def Settled (P : ExecutionPlan) (stage : PipelineStage) : Prop :=
  ∀ t ∈ chain, (Before stage t → (P.forStage t).map (·.action) ≠ some .run) →
    InOrder runs contractId t

end

section
variable {runs runs' : RunTable} {contractId : Uuid} {stage t : PipelineStage}

theorem mem_upstreamSuccesses {run : JobStageRun} :
    run ∈ upstreamSuccesses runs contractId t ↔
      ∃ u, upstream t = some u ∧ run ∈ runs.successes contractId u := by
  unfold upstreamSuccesses
  cases upstream t <;> simp

theorem Settled.next {P : ExecutionPlan} {i : Nat} {next : PipelineStage}
    (h : Settled runs contractId P stage) (hplan : WellFormed P.stages)
    (hi : stageIndex stage = some i) (hnext : Workflow.nextAfter P stage = some next) :
    FreshUpTo runs contractId next := by
  rintro t ht ⟨k, hk, j, hj, hjk⟩
  refine h t ht ?_
  rintro ⟨j', hj', i', hi', hij⟩
  cases hi.symm.trans hi'
  cases hj.symm.trans hj'
  refine hplan.nextAfter_passed hi hj hij fun next' k' hnext' hk' => ?_
  cases hnext.symm.trans hnext'
  cases hk.symm.trans hk'
  exact hjk

theorem Settled.fresh {P : ExecutionPlan} {i : Nat} (h : Settled runs contractId P stage)
    (hplan : WellFormed P.stages) (hi : stageIndex stage = some i)
    (hnext : Workflow.nextAfter P stage = none) : Fresh runs contractId := by
  intro t ht
  refine h t ht ?_
  rintro ⟨j, hj, i', hi', hij⟩
  cases hi.symm.trans hi'
  refine hplan.nextAfter_passed hi hj hij fun next' k' hnext' => ?_
  cases hnext.symm.trans hnext'

/-! ## New successes -/

def Adds (runs runs' : RunTable) (contractId : Uuid) (stage : PipelineStage) (new : JobStageRun) :
    Prop :=
  ∀ contractId' t, runs'.successes contractId' t = runs.successes contractId' t ++
    if contractId = contractId' ∧ stage = t then [new] else []

variable {new : JobStageRun} {contractId' : Uuid}

theorem InOrder.adds (h : InOrder runs contractId' t) (hadds : Adds runs runs' contractId stage new)
    (hup : contractId = contractId' → upstream t ≠ some stage) : InOrder runs' contractId' t := by
  obtain ⟨run, hrun, hlater⟩ := h
  refine ⟨run, by rw [hadds]; exact List.mem_append_left _ hrun, fun earlier hearlier => ?_⟩
  obtain ⟨u, hu, hearlier⟩ := mem_upstreamSuccesses.1 hearlier
  refine hlater earlier (mem_upstreamSuccesses.2 ⟨u, hu, ?_⟩)
  rw [hadds, if_neg, List.append_nil] at hearlier
  · exact hearlier
  · rintro ⟨hc, rfl⟩
    exact hup hc hu

theorem inOrder_new (hadds : Adds runs runs' contractId stage new)
    (hlater : ∀ earlier ∈ upstreamSuccesses runs contractId stage,
      FinishedBefore earlier new) : InOrder runs' contractId stage := by
  refine ⟨new, by rw [hadds]; simp, fun earlier hearlier => hlater earlier ?_⟩
  obtain ⟨u, hu, hearlier⟩ := mem_upstreamSuccesses.1 hearlier
  refine mem_upstreamSuccesses.2 ⟨u, hu, ?_⟩
  rw [hadds, if_neg, List.append_nil] at hearlier
  · exact hearlier
  · rintro ⟨-, rfl⟩
    obtain ⟨i, hi, hi'⟩ := upstream_index hu
    rw [hi] at hi'
    simp at hi'

end

/-! ## Orderly steps -/

variable {Payload : Type}

def live (db : Db) (message : StageMessage) : Bool := (db.jobs message.jobId).any isActive

section
variable (call : StageCall Payload) (s : State) (message : StageMessage) (job : ProcessingJob)
  (contract : Contract)

def SkipsInOrder : Prop :=
  ∀ t ∈ chain, ¬ Before t message.stage → plannedAction call s.db job contract t ≠ some .run →
    InOrder s.db.runs contract.id t

/-- The stages of the chain that the plan passes over behind the stage are in order and do not
compute from its output. After `DOCPIPELINE` a new plan passes over nothing. -/
def PassesInOrder : Prop :=
  ¬ (message.stage = .docpipeline ∧ updatesContext call = true) →
    ∀ t ∈ chain, Before message.stage t → plannedAction call s.db job contract t ≠ some .run →
      InOrder s.db.runs contract.id t ∧ upstream t ≠ some message.stage

/-- No live message of the contract waits behind a stage that computes from the output of this
one. -/
def NotOvertaken : Prop :=
  ∀ other ∈ s.inflight.erase message, live s.db other = true → other.contractId = contract.id →
    ∀ t ∈ chain, Before t other.stage → upstream t ≠ some message.stage

instance : Decidable (SkipsInOrder call s message job contract) :=
  inferInstanceAs (Decidable (∀ t ∈ chain, _))

instance : Decidable (PassesInOrder call s message job contract) :=
  inferInstanceAs (Decidable (_ → _))

instance : Decidable (NotOvertaken s message contract) :=
  inferInstanceAs (Decidable (∀ other ∈ s.inflight.erase message, _))

end

/-- A message is sent only when the stages before its own are in order, a checkpoint is reused only
together with stages that are in order, and a handler returns only when the stages passed over are in
order and nothing waits behind it. -/
def Orderly (s : State) : Action Payload → Prop
  | .submit jobId dispatchId request =>
    ∀ sent ∈ submission s.db jobId dispatchId s.clock request,
      FreshUpTo s.db.runs sent.2.contractId sent.2.stage
  | .replay jobId stage dispatchId =>
    ∀ message ∈ replay s.db jobId stage dispatchId,
      FreshUpTo s.db.runs message.contractId message.stage
  | .deliver message call =>
    ∀ job ∈ s.db.jobs message.jobId, isActive job = true →
      ∀ contract ∈ s.db.contracts message.contractId,
        (Reuses call s.db job contract message.stage → SkipsInOrder call s message job contract) ∧
        (¬ Reuses call s.db job contract message.stage → call.outcome.toBool = true →
          PassesInOrder call s message job contract ∧ NotOvertaken s message contract)
  | _ => True

instance (s : State) : (a : Action Payload) → Decidable (Orderly s a)
  | .submit .. => inferInstanceAs (Decidable (∀ sent ∈ submission _ _ _ _ _, _))
  | .replay .. => inferInstanceAs (Decidable (∀ message ∈ Pipeline.replay _ _ _ _, _))
  | .deliver .. => inferInstanceAs (Decidable (∀ job ∈ s.db.jobs _, _))
  | .register _ | .saveProfile _ | .drop _ | .cancel _ | .sweep _ _ => isTrue trivial

/-! ## The invariant of orderly runs -/

structure Ordered (s : State) : Prop extends Inv s where
  fresh : ∀ message ∈ s.inflight, live s.db message = true →
    FreshUpTo s.db.runs message.contractId message.stage

def MarksReady (call : StageCall Payload) (db : Db) (message : StageMessage) : Prop :=
  ∃ db' outcome queued, runStage call db message = .ok (db', outcome, queued) ∧
    outcome.status ∈ [StageStatus.skipped, .succeeded] ∧ outcome.nextStage = none ∧
    ∃ job, db'.jobs message.jobId = some job ∧ job.state = .ready

section
variable {s : State} {call : StageCall Payload} {message other : StageMessage} {db' : Db}
  {outcome : StageOutcome} {queued : Option (StageMessage × Nat)}

theorem InOrder.congr {runs runs' : RunTable} {contractId : Uuid} {t : PipelineStage}
    (h : InOrder runs contractId t)
    (hsame : ∀ contractId t, runs'.successes contractId t = runs.successes contractId t) :
    InOrder runs' contractId t := by
  obtain ⟨run, hrun, hlater⟩ := h
  refine ⟨run, by rwa [hsame], fun earlier hearlier => hlater earlier ?_⟩
  obtain ⟨u, hu, hearlier⟩ := mem_upstreamSuccesses.1 hearlier
  rw [hsame] at hearlier
  exact mem_upstreamSuccesses.2 ⟨u, hu, hearlier⟩

theorem live_of_runStage (hrun : runStage call s.db message = .ok (db', outcome, queued))
    (hid : ∀ job, s.db.jobs message.jobId = some job → job.id = message.jobId)
    (hlive : live db' other = true) : live s.db other = true := by
  by_cases hjob : other.jobId = message.jobId
  · obtain ⟨executed, hexec, hdb⟩ := runStage_cases hrun
    rcases (execute_cases hexec).active with ⟨rfl, hnone⟩ | ⟨job, hrow, hactive⟩
    · rcases hdb with ⟨rfl, -⟩ | ⟨_, _, -, -, hsome, -⟩
      · exact hlive
      · cases hnone.symm.trans hsome
    · rw [live, hjob, hrow]
      exact hactive
  · rwa [live, (runStage_frame hrun hid).jobs _ hjob] at hlive

theorem runStage_adds (h : Inv s) (hrun : runStage call s.db message = .ok (db', outcome, queued))
    (hstatus : outcome.status = .succeeded) :
    ∃ new, JobStageRun.finishedAt new = some call.finishedAt ∧
      Adds s.db.runs db'.runs message.contractId message.stage new := by
  obtain ⟨contract, new, hcontract, hnew, hsucc⟩ := runStage_successes hrun hstatus
  refine ⟨new, hnew, fun contractId stage => ?_⟩
  rw [hsucc, h.contractIds _ _ hcontract]

theorem finishedBefore_new (h : Inv s) (hclock : s.clock < call.finishedAt) {new : JobStageRun}
    (hnew : new.finishedAt = some call.finishedAt) {contractId : Uuid} {stage : PipelineStage} :
    ∀ earlier ∈ upstreamSuccesses s.db.runs contractId stage, FinishedBefore earlier new := by
  intro earlier hearlier
  obtain ⟨u, -, hearlier⟩ := mem_upstreamSuccesses.1 hearlier
  obtain ⟨finished, hfinished, hle⟩ := h.clock _ _ earlier hearlier
  exact ⟨finished, hfinished, _, hnew, hle.trans_lt hclock⟩


/-- A message that stays in flight still finds the stages before its own in order. -/
theorem FreshUpTo.kept (h : Inv s) (hrun : runStage call s.db message = .ok (db', outcome, queued))
    (hovertaken : outcome.status = .succeeded → message.contractId = other.contractId →
      ∀ t ∈ chain, Before t other.stage → upstream t ≠ some message.stage)
    (hfresh : FreshUpTo s.db.runs other.contractId other.stage) :
    FreshUpTo db'.runs other.contractId other.stage := by
  by_cases hstatus : outcome.status = .succeeded
  · obtain ⟨new, -, hadds⟩ := runStage_adds h hrun hstatus
    intro t ht hbefore
    exact (hfresh t ht hbefore).adds hadds fun hc => hovertaken hstatus hc t ht hbefore
  · exact fun t ht hbefore => (hfresh t ht hbefore).congr (runStage_successes_eq hrun hstatus)

theorem settled_of_skip {job : ProcessingJob} {contract : Contract} {planned : Db}
    {plan : ExecutionPlan} {i : Nat} (h : Ordered s) (hm : message ∈ s.inflight)
    (hG : Orderly s (.deliver message call))
    (loaded : Loaded call s.db message job contract planned plan)
    (hreuses : Reuses call s.db job contract message.stage)
    (hi : stageIndex message.stage = some i)
    (hsame : ∀ contractId t, db'.runs.successes contractId t = s.db.runs.successes contractId t) :
    Settled db'.runs message.contractId plan message.stage := by
  intro t ht hruns
  obtain ⟨j, hj⟩ := chain_index ht
  have hskips := (hG _ loaded.jobRow loaded.active _ loaded.contractRow).1 hreuses
  rw [SkipsInOrder, h.contractIds _ _ loaded.contractRow] at hskips
  refine InOrder.congr ?_ hsame
  by_cases hbefore : Before t message.stage
  · refine h.fresh message hm ?_ t ht hbefore
    rw [live, loaded.jobRow]
    exact loaded.active
  · refine hskips t ht hbefore ?_
    rcases before_or_eq hi hj with hbefore' | rfl | hbehind
    · exact absurd hbefore' hbefore
    · rw [hreuses.1]
      simp
    · rw [← resolvePlan_action loaded.resolved]
      exact hruns hbehind

/-- After a handler returned in an orderly step the chain is settled for the plan that goes on. -/
theorem settled_of_success {job : ProcessingJob} {contract : Contract} {planned persisted : Db}
    {plan plan' : ExecutionPlan} {result : StageResult Payload} {i : Nat} (h : Ordered s)
    (hm : message ∈ s.inflight) (hclock : s.clock < call.finishedAt)
    (loaded : Loaded call s.db message job contract planned plan)
    (hresult : call.outcome = .ok result)
    (hpasses : PassesInOrder call s message job contract)
    (hreplan : replan call persisted message job contract plan result = .ok (db', plan'))
    (hi : stageIndex message.stage = some i) {runs : RunTable} {new : JobStageRun}
    (hnew : new.finishedAt = some call.finishedAt)
    (hadds : Adds s.db.runs runs message.contractId message.stage new) :
    Settled runs message.contractId plan' message.stage := by
  intro t ht hruns
  obtain ⟨j, hj⟩ := chain_index ht
  rcases before_or_eq hi hj with hbefore | rfl | hbehind
  · have hlive : live s.db message = true := by
      rw [live, loaded.jobRow]
      exact loaded.active
    refine (h.fresh message hm hlive t ht hbefore).adds hadds fun _ hup => ?_
    obtain ⟨k, hk, hk'⟩ := upstream_index hup
    obtain ⟨i', hi', j', hj', hlt⟩ := hbefore
    cases hi.symm.trans hi'
    cases hk.symm.trans hi
    cases hk'.symm.trans hj'
    omega
  · exact inOrder_new hadds (finishedBefore_new h.toInv hclock hnew)
  · have hnot := hruns hbehind
    rw [Ne, replan_action hj hreplan, not_or, resolvePlan_action loaded.resolved] at hnot
    have hcontext : ¬ (message.stage = .docpipeline ∧ updatesContext call = true) := by
      rw [updatesContext, hresult]
      exact hnot.2
    obtain ⟨horder, hup⟩ := hpasses hcontext t ht hbehind hnot.1
    rw [h.contractIds _ _ loaded.contractRow] at horder
    exact horder.adds hadds fun _ => hup

theorem orderly_settled (h : Ordered s) (hm : message ∈ s.inflight)
    (hG : Orderly s (.deliver message call)) (hclock : s.clock < call.finishedAt)
    (hrun : runStage call s.db message = .ok (db', outcome, queued)) :
    (outcome.nextStage = none ∧ ¬ MarksReady call s.db message) ∨
      ∃ P i, WellFormed P.stages ∧ stageIndex message.stage = some i ∧
        outcome.nextStage = Workflow.nextAfter P message.stage ∧
        Settled db'.runs message.contractId P message.stage := by
  have hready : MarksReady call s.db message → outcome.status ∈ [StageStatus.skipped, .succeeded] ∧
      ∃ job, db'.jobs message.jobId = some job ∧ job.state = .ready := by
    rintro ⟨_, _, _, hrun', hstatus, -, hrow⟩
    cases hrun.symm.trans hrun'
    exact ⟨hstatus, hrow⟩
  obtain ⟨executed, hexec, hdb⟩ := runStage_cases hrun
  cases execute_cases hexec with
  | idle _ status next =>
    refine .inl ⟨next, fun hmarks => ?_⟩
    have := (hready hmarks).1
    simp [status] at this
  | skipped loaded reused _ status next =>
    have hreuses := loaded.reuses reused
    have hplan := resolvePlan_wellFormed (h.plans _ _ loaded.jobRow) loaded.resolved
    obtain ⟨i, hi⟩ := hplan.index_of_entry
      ((resolvePlan_action loaded.resolved).trans hreuses.1)
    exact .inr ⟨_, i, hplan, hi, next, settled_of_skip h hm hG loaded hreuses hi
      (runStage_successes_eq hrun (by rw [status]; decide))⟩
  | failed _ _ _ _ handled =>
    obtain ⟨error, rfl⟩ := handleFailure_outcome handled
    refine .inl ⟨rfl, fun hmarks => ?_⟩
    have := (hready hmarks).1
    simp [failureOutcome] at this
  | halted loaded _ returned _ _ next retry =>
    refine .inl ⟨next, fun hmarks => ?_⟩
    obtain ⟨job, hjob, hstate⟩ := (hready hmarks).2
    rcases hdb with ⟨rfl, -⟩ | ⟨_, _, -, -, hsome, -⟩
    · obtain ⟨j, hj, -, hfailed⟩ := halted_row loaded (h.jobIds _ _ loaded.jobRow) returned
      cases hj.symm.trans hjob
      cases hstate.symm.trans hfailed
    · rw [dispatches, next, retry] at hsome
      cases hsome
  | advanced loaded reused returned _ hreplan status next =>
    obtain ⟨handler, hhandler⟩ := returned.handler
    obtain ⟨i, hi⟩ := stageIndex_of_handler hhandler
    obtain ⟨new, hnew, hadds⟩ := runStage_adds h.toInv hrun status
    have hplan := resolvePlan_wellFormed (h.plans _ _ loaded.jobRow) loaded.resolved
    have hturn := (hG _ loaded.jobRow loaded.active _ loaded.contractRow).2
      (loaded.reusedCheckpoint_none.1 reused) (by rw [returned.outcome]; rfl)
    exact .inr ⟨_, i, replan_wellFormed hplan hreplan, hi, next,
      settled_of_success h hm hclock loaded returned.outcome hturn.1 hreplan hi hnew hadds⟩

theorem not_overtaken (h : Inv s) (hG : Orderly s (.deliver message call))
    (hrun : runStage call s.db message = .ok (db', outcome, queued))
    (hstatus : outcome.status = .succeeded) (hother : other ∈ s.inflight.erase message)
    (hlive : live s.db other = true) (hcontract : message.contractId = other.contractId) :
    ∀ t ∈ chain, Before t other.stage → upstream t ≠ some message.stage := by
  have hturn : ∀ {job contract planned plan result started run persisted},
      Loaded call s.db message job contract planned plan →
      reusedCheckpoint call planned plan contract message.stage = none →
      Returned call message job contract (loadProfile s.db job) planned result started run
        persisted → NotOvertaken s message contract := by
    intro _ _ _ _ _ _ _ _ loaded reused returned
    have hturn := (hG _ loaded.jobRow loaded.active _ loaded.contractRow).2
      (loaded.reusedCheckpoint_none.1 reused) (by rw [returned.outcome]; rfl)
    exact hturn.2
  have hid : ∀ contract, s.db.contracts message.contractId = some contract →
      other.contractId = contract.id := fun contract hrow => by
    rw [h.contractIds _ _ hrow, hcontract]
  obtain ⟨executed, hexec, -⟩ := runStage_cases hrun
  cases execute_cases hexec with
  | idle _ status => exact absurd hstatus status.1
  | skipped _ _ _ status => cases hstatus.symm.trans status
  | failed _ _ _ _ handled =>
    obtain ⟨error, rfl⟩ := handleFailure_outcome handled
    cases hstatus
  | halted loaded reused returned =>
    exact hturn loaded reused returned other hother hlive (hid _ loaded.contractRow)
  | advanced loaded reused returned =>
    exact hturn loaded reused returned other hother hlive (hid _ loaded.contractRow)

theorem fresh_dispatched (h : Ordered s) (hm : message ∈ s.inflight)
    (hG : Orderly s (.deliver message call)) (hclock : s.clock < call.finishedAt)
    {delayMs : Nat}
    (hrun : runStage call s.db message = .ok (db', outcome, some (other, delayMs))) :
    FreshUpTo db'.runs other.contractId other.stage := by
  obtain ⟨executed, hexec, ⟨-, hdispatch⟩ | ⟨_, _, -, hqueued, -⟩⟩ := runStage_cases hrun
  case inr => cases hqueued
  obtain ⟨-, hcontract, -, hstage⟩ := dispatches_some hdispatch.symm
  rw [hcontract, hstage]
  cases hnext : outcome.nextStage with
  | some next =>
    rcases orderly_settled h hm hG hclock hrun with ⟨hnone, -⟩ | ⟨P, i, hplan, hi, hafter, hsettled⟩
    · cases hnone.symm.trans hnext
    · exact hsettled.next hplan hi (hafter.symm.trans hnext)
  | none =>
    -- The message is sent again after a failure.
    have hretry : outcome.shouldRetry = true := by
      by_contra hno
      rw [dispatches, hnext, Bool.eq_false_iff.2 hno] at hdispatch
      cases hdispatch
    have hfailed := (execute_cases hexec).retried hretry
    have hlive : live s.db message = true := by
      rcases (execute_cases hexec).active with ⟨-, hnone⟩ | ⟨job, hrow, hactive⟩
      · cases hdispatch.trans hnone
      · rw [live, hrow]
        exact hactive
    refine (h.fresh message hm hlive).kept h.toInv hrun fun hstatus => ?_
    cases hfailed.symm.trans hstatus

/-! ## Runs -/

theorem Ordered.deliver (h : Ordered s) (hm : message ∈ s.inflight)
    (hG : Orderly s (.deliver message call)) (hstart : s.clock ≤ call.startedAt)
    (hfinish : call.startedAt < call.finishedAt)
    (hrun : runStage call s.db message = .ok (db', outcome, queued)) :
    Ordered
      { db := db', inflight := s.inflight.erase message ++ (queued.map (·.1)).toList,
        clock := call.finishedAt } := by
  have hid : ∀ job, s.db.jobs message.jobId = some job → job.id = message.jobId :=
    fun job hjob => h.jobIds _ job hjob
  refine { h.toInv.deliver hm hstart hfinish hrun with fresh := fun other hother hlive => ?_ }
  have hlive' := live_of_runStage hrun hid hlive
  rcases List.mem_append.1 hother with hold | hnew
  · refine (h.fresh other (List.mem_of_mem_erase hold) hlive').kept h.toInv hrun ?_
    exact fun hstatus hcontract => not_overtaken h.toInv hG hrun hstatus hold hlive' hcontract
  · cases hq : queued with
    | none =>
      rw [hq] at hnew
      cases hnew
    | some sent =>
      obtain ⟨next, delayMs⟩ := sent
      rw [hq] at hnew hrun
      obtain rfl : other = next := List.mem_singleton.1 hnew
      exact fresh_dispatched h hm hG (hstart.trans_lt hfinish) hrun

end

theorem active_of_stalled {job : ProcessingJob} {timeoutMinutes : Nat} {now : Timestamp}
    (h : job.isStalled timeoutMinutes now = true) : isActive job = true := by
  have hrunning := (Bool.and_eq_true_iff.1 h).1
  unfold isActive
  cases hstate : job.state <;> rw [hstate] at hrunning <;> first | rfl | cases hrunning

theorem ordered : (machine Payload).Invariant Orderly Ordered where
  init s hs := by
    rw [show s = {} from hs]
    exact { inv_init with fresh := by simp }
  step s a s' h hG hs := by
    have hinv := h.toInv.step hs
    cases a with
    | register contract =>
      simp only [machine, step] at hs
      split at hs
      next => cases hs
      next =>
        cases hs
        exact { hinv with fresh := h.fresh }
    | saveProfile profile =>
      cases hs
      exact { hinv with fresh := h.fresh }
    | submit jobId dispatchId request =>
      simp only [machine, step] at hs
      split at hs
      next => cases hs
      next job message hsub =>
        obtain ⟨hrow, hs⟩ := Option.ite_none_right_eq_some.1 hs
        cases hs
        refine { hinv with fresh := fun other hother hlive => ?_ }
        rcases List.mem_append.1 hother with hold | hnew
        · obtain ⟨j, hj, -⟩ := h.owned other hold
          refine h.fresh other hold ?_
          rw [live] at hlive ⊢
          dsimp only at hlive
          rwa [Function.update_of_ne] at hlive
          intro hid
          rw [hid, Option.isNone_iff_eq_none.1 hrow.1] at hj
          cases hj
        · rw [List.mem_singleton.1 hnew]
          exact hG _ hsub
    | replay jobId stage dispatchId =>
      obtain ⟨message, hreplay, rfl⟩ := Option.map_eq_some_iff.1 hs
      refine { hinv with fresh := fun other hother hlive => ?_ }
      rcases List.mem_append.1 hother with hold | hnew
      · exact h.fresh other hold hlive
      · rw [List.mem_singleton.1 hnew]
        exact hG _ hreplay
    | deliver message call =>
      obtain ⟨⟨hm, hstart, hfinish⟩, hs⟩ := Option.ite_none_right_eq_some.1 hs
      split at hs
      next error hraised =>
        cases hs
        exact { hinv with fresh := h.fresh }
      next db' outcome queued hrun =>
        cases hs
        exact h.deliver hm hG hstart hfinish hrun
    | drop message =>
      obtain ⟨-, hs⟩ := Option.ite_none_right_eq_some.1 hs
      cases hs
      exact { hinv with fresh := fun other hother => h.fresh other (List.mem_of_mem_erase hother) }
    | cancel jobId =>
      simp only [machine, step] at hs
      split at hs
      next => cases hs
      next job hjob =>
        obtain ⟨-, hs⟩ := Option.ite_none_left_eq_some.1 hs
        cases hs
        refine { hinv with fresh := fun other hother hlive => h.fresh other hother ?_ }
        rw [live] at hlive ⊢
        by_cases hid : other.jobId = jobId
        · rw [hid, Db.updateJob_self, hjob] at hlive
          cases hlive
        · rwa [Db.updateJob_of_ne hid] at hlive
    | sweep timeoutMinutes now =>
      cases hs
      refine { hinv with fresh := fun other hother hlive => h.fresh other hother ?_ }
      rw [live] at hlive ⊢
      dsimp only at hlive
      cases hjob : s.db.jobs other.jobId with
      | none =>
        rw [hjob] at hlive
        cases hlive
      | some job =>
        rw [hjob, Option.map_some, Option.any_some] at hlive
        rw [Option.any_some]
        split at hlive
        next hstalled => exact active_of_stalled hstalled
        next => exact hlive

/-- In an orderly run a job that is marked READY leaves the chain of its contract in order. -/
theorem fresh_at_ready {s s' : State} (hs : (machine Payload).ReachIf Orderly s)
    {message : StageMessage} {call : StageCall Payload} (hG : Orderly s (.deliver message call))
    (hstep : (machine Payload).step s (.deliver message call) = some s')
    (hready : MarksReady call s.db message) : Fresh s'.db.runs message.contractId := by
  have h := ordered.reach hs
  obtain ⟨⟨hm, hstart, hfinish⟩, hstep⟩ := Option.ite_none_right_eq_some.1 hstep
  obtain ⟨db', outcome, queued, hrun, -, hnone, -⟩ := id hready
  rw [hrun] at hstep
  cases hstep
  rcases orderly_settled h hm hG (hstart.trans_lt hfinish) hrun with
    ⟨-, hnot⟩ | ⟨P, i, hplan, hi, hnext, hsettled⟩
  · exact absurd hready hnot
  · exact hsettled.fresh hplan hi (hnext.symm.trans hnone)

/-! ## A fresh and a stale contract -/

/-- What a delivery that commits leaves behind: the status, the next stage, the state of the job and
whether the chain is in order. -/
def delivered (message : StageMessage) (call : StageCall Unit) (s : State) :
    Option (StageStatus × Option PipelineStage × Option JobState × Bool) :=
  (runStage call s.db message).toOption.map fun (db, outcome, _) =>
    (outcome.status, outcome.nextStage, (db.jobs message.jobId).map (·.state),
      decide (Fresh db.runs message.contractId))

theorem marksReady_of_delivered {message : StageMessage} {call : StageCall Unit} {s : State}
    {status : StageStatus} {fresh : Bool} (hstatus : status ∈ [StageStatus.skipped, .succeeded])
    (h : delivered message call s = some (status, none, some .ready, fresh))
    (hm : message ∈ s.inflight)
    (htime : s.clock ≤ call.startedAt ∧ call.startedAt < call.finishedAt) :
    MarksReady call s.db message ∧ ∃ s', (machine Unit).step s (.deliver message call) = some s' ∧
      (Fresh s'.db.runs message.contractId ↔ fresh = true) := by
  unfold delivered at h
  cases hrun : runStage call s.db message with
  | error raised =>
    rw [hrun] at h
    cases h
  | ok result =>
    obtain ⟨db, outcome, queued⟩ := result
    rw [hrun] at h
    simp only [Except.toOption, Option.map_some, Option.some.injEq, Prod.mk.injEq] at h
    obtain ⟨rfl, hnext, hrow, rfl⟩ := h
    have hstep : (machine Unit).step s (.deliver message call) =
        some { db, inflight := s.inflight.erase message ++ (queued.map (·.1)).toList,
               clock := call.finishedAt } := by
      show step s (.deliver message call) = _
      rw [step, if_pos ⟨hm, htime⟩, hrun]
    obtain ⟨job, hjob, hstate⟩ := Option.map_eq_some_iff.1 hrow
    exact ⟨⟨db, outcome, queued, hrun, hstatus, hnext, job, hjob, hstate⟩, _, hstep,
      decide_eq_true_iff.symm⟩

def almostUploaded : List (Action Unit) := Sample.uploaded.take 7

/-- The last stage of the upload leaves the contract fresh. -/
theorem fresh_after_upload : ∃ s s' : State, (machine Unit).ReachIf Orderly s ∧
    (machine Unit).step s (.deliver (Sample.message 10 [] .indexing)
      (Sample.call 106 60 (.ok {}))) = some s' ∧ Fresh s'.db.runs 1 := by
  have hrun : ((machine Unit).execIf Orderly {} almostUploaded).any (fun s =>
      s.inflight = [Sample.message 10 [] .indexing] ∧ s.clock = 51 ∧
        Orderly s (.deliver (Sample.message 10 [] .indexing) (Sample.call 106 60 (.ok {}))) ∧
        delivered (Sample.message 10 [] .indexing) (Sample.call 106 60 (.ok {})) s =
          some (.succeeded, none, some .ready, true)) = true := by decide
  obtain ⟨s, hs, hsum⟩ := (Option.any_eq_true _ _).1 hrun
  obtain ⟨hinflight, hclock, horderly, hdelivered⟩ := of_decide_eq_true hsum
  obtain ⟨hready, s', hstep, -⟩ := marksReady_of_delivered (by decide) hdelivered
    (by rw [hinflight]; exact List.mem_singleton_self _) (by rw [hclock]; decide)
  have hreach : (machine Unit).ReachIf Orderly s := ⟨_, rfl, Machine.run_of_execIf hs⟩
  exact ⟨s, s', hreach, hstep,
    fresh_at_ready hreach horderly hstep hready⟩

/-- Job 11 reprocesses contract 1: `PARSER` succeeds, `DOCPIPELINE` fails for good. Job 12 retries
it from `DOCPIPELINE`. -/
def retried : List (Action Unit) :=
  Sample.uploaded ++ [.submit 11 "" (.reprocess 1 2 .validation true .normal [])] ++
    Sample.deliveries 11 [("force", .bool true)] 7 [.validation, .parser] ++
    [.deliver (Sample.message 11 [("force", .bool true)] .docpipeline)
        { Sample.call 109 90 (.error (.other "ValueError")) with
          settings := { maxAttempts := 1, one_le_maxAttempts := le_rfl, maxAttempts_le := by decide } },
      .submit 12 "" (.retry 11)]

/-- The retry reuses what was computed before `PARSER` ran again, and marks the job READY. -/
theorem stale_at_ready : ∃ (s s' : State) (message : StageMessage) (call : StageCall Unit),
    (machine Unit).Reach s ∧ (machine Unit).step s (.deliver message call) = some s' ∧
      MarksReady call s.db message ∧ ¬ Fresh s'.db.runs message.contractId := by
  have hrun : ((machine Unit).exec {} retried).any (fun s =>
      s.inflight = [Sample.message 12 [("force", .bool true)] .docpipeline] ∧ s.clock = 91 ∧
        delivered (Sample.message 12 [("force", .bool true)] .docpipeline)
            (Sample.call 110 100 (.ok {})) s =
          some (.skipped, none, some .ready, false)) = true := by decide
  obtain ⟨s, hs, hsum⟩ := (Option.any_eq_true _ _).1 hrun
  obtain ⟨hinflight, hclock, hdelivered⟩ := of_decide_eq_true hsum
  obtain ⟨hready, s', hstep, hfresh⟩ := marksReady_of_delivered (by decide) hdelivered
    (by rw [hinflight]; exact List.mem_singleton_self _) (by rw [hclock]; decide)
  exact ⟨s, s', _, _, Machine.reach_of_exec rfl hs, hstep, hready, fun h => by
    cases hfresh.1 h⟩

end Pipeline

end Clear
