import Clear.Ai.Embedding.Proof.Reuse
import Clear.Ai.Embedding.Proof.Sweep

/-!
# Convergence of a re-index

The message of a queued job waits unchanged until it is delivered, so what its stage replaces is
decided by the state before the sweep (`Pending.rewrites_iff`). A sweep whose jobs all complete
converges exactly when, for every contract it names, the job is queued, the checkpoint is not
reusable and the stale rows are in the contract's own project (`reindex_converges_iff`).
-/

/-!
## One run of the embedding stage

A run of the stage replaces the rows of its contract, its project and its levels by rows of the
active space, and leaves every other row alone (`mem_run_iff`). A delivery that completes does that,
unless the contract's checkpoint stands in for the stage and nothing is replaced
(`mem_completion`).
-/

namespace Clear

/-! ## One run of the stage -/

namespace EmbeddingStage

open EmbeddingTable

variable {ν Payload : Type} {e : Embedder ν} {payloads : Payloads ν Payload}
  {db : Sql.Engine (EmbeddingRow ν)} {t t' : EmbeddingTable ν} {ctx : Context}
  {plan : EmbeddingPlan} {now : Timestamp} {result : StageResult Payload} {r : EmbeddingRow ν}

def Covers (ctx : Context) (r : EmbeddingRow ν) : Prop :=
  r.contractId = ctx.contractId ∧ r.projectId = ctx.projectId ∧
    r.level ∈ levels ctx.configuredLevels

def Unmixed (space : EmbeddingSpace) (contractId : Uuid) (t : EmbeddingTable ν) : Prop :=
  ∀ r ∈ t.rows, r.contractId = contractId → r.space = space

theorem mem_run_iff (h : run e payloads db t ctx plan now = .ok (t', result))
    (hforeign : r.space ≠ e.active) : r ∈ t'.rows ↔ r ∈ t.rows ∧ ¬ Covers ctx r := by
  obtain ⟨hrows, hspace⟩ := run_rows h
  have hnew : r ∉ (engineRun e db t ctx plan).rows.map fun row => { row with createdAt := now } := by
    intro hr
    obtain ⟨row, hrow, rfl⟩ := List.mem_map.1 hr
    have hactive : row.space = e.active := space_of_mem hrow (hspace row hrow)
    exact hforeign hactive
  rw [hrows, List.mem_append, or_iff_left hnew, mem_clear]
  exact Iff.rfl

theorem unmixed_run_iff (h : run e payloads db t ctx plan now = .ok (t', result))
    {contractId : Uuid} :
    Unmixed e.active contractId t' ↔ ∀ r ∈ t.rows, r.contractId = contractId →
      r.space = e.active ∨ Covers ctx r := by
  constructor
  · intro hclean r hr hcontract
    by_contra hold
    obtain ⟨hforeign, hkept⟩ := not_or.1 hold
    exact hforeign (hclean r ((mem_run_iff h hforeign).2 ⟨hr, hkept⟩) hcontract)
  · intro hold r hr hcontract
    by_contra hforeign
    obtain ⟨hrow, hkept⟩ := (mem_run_iff h hforeign).1 hr
    exact (hold r hrow hcontract).elim hforeign hkept

end EmbeddingStage

namespace EmbeddingReindexer

open EmbeddingTable EmbeddingStage Runner

variable {ν Payload : Type} {s s' s₀ : Store ν} {d : Delivery ν Payload} {outcome : StageOutcome}
  {r : EmbeddingRow ν}

/-! ## One delivery -/

/-- A stage that runs hands its handler what `context` reads. -/
theorem context_eq {job : ProcessingJob} {contract : Contract} {message : StageMessage} {db : Db}
    (hjob : db.jobs message.jobId = some job)
    (hcontract : db.contracts message.contractId = some contract) :
    context db message = some
      { contractId := contract.id
        projectId := contract.projectId
        profileVersion := (loadProfile db job).map (·.version)
        configuredLevels := (loadProfile db job).bind (·.embeddingLevels) } := by
  unfold context
  rw [hjob, hcontract]

structure Opened (s : Store ν) (d : Delivery ν Payload) (job : ProcessingJob) (contract : Contract)
    (ctx : Context) : Prop where
  jobRow : s.db.jobs d.message.jobId = some job
  contractRow : s.db.contracts d.message.contractId = some contract
  context : context s.db d.message = some ctx

theorem deliver_ok (h : deliver s d = .ok (s', outcome)) :
    (∃ queued, runStage (answered s d) s.db d.message = .ok (s'.db, outcome, queued)) ∧
      s'.vectors = committed s d outcome.status := by
  unfold deliver at h
  split at h
  next => cases h
  next db o queued hrun =>
    cases h
    exact ⟨⟨queued, hrun⟩, rfl⟩

theorem handle_ok {ctx : Context} {out : EmbeddingTable ν × StageResult Payload}
    (hctx : context s.db d.message = some ctx) (h : handle s d = .ok out) :
    EmbeddingStage.run d.embedder d.payloads d.engine s.vectors ctx d.plan d.call.startedAt =
      .ok out := by
  unfold handle at h
  rw [hctx] at h
  exact h

theorem committed_succeeded {t : EmbeddingTable ν} {result : StageResult Payload}
    (h : handle s d = .ok (t, result)) : committed s d .succeeded = t := by
  unfold committed
  rw [h]

theorem committed_skipped : committed s d .skipped = s.vectors := by
  unfold committed
  cases handle s d <;> rfl

/-- What a delivery that completes does: the stage ran and its vectors are stored, or its checkpoint
was reused and the vectors are as before. -/
inductive Completed (s : Store ν) (d : Delivery ν Payload) (s' : Store ν) : StageStatus → Prop
  | ran {job contract ctx result} (opened : Opened s d job contract ctx)
      (fresh : ¬ Reuses d.call s.db job contract .embedding)
      (stored : EmbeddingStage.run d.embedder d.payloads d.engine s.vectors ctx d.plan
        d.call.startedAt = .ok (s'.vectors, result)) :
      Completed s d s' .succeeded
  | skipped {job contract ctx} (opened : Opened s d job contract ctx)
      (reused : Reuses d.call s.db job contract .embedding) (same : s'.vectors = s.vectors) :
      Completed s d s' .skipped

theorem completed_of_loaded {job : ProcessingJob} {contract : Contract} {planned started persisted : Db}
    {plan : ExecutionPlan} {result : StageResult Payload} {run : JobStageRun}
    (loaded : Loaded (answered s d) s.db d.message job contract planned plan)
    (reused : reusedCheckpoint (answered s d) planned plan contract d.message.stage = none)
    (returned : Returned (answered s d) d.message job contract (loadProfile s.db job) planned result
      started run persisted)
    (hvectors : s'.vectors = committed s d .succeeded) : Completed s d s' .succeeded := by
  have hctx := context_eq loaded.jobRow loaded.contractRow
  obtain ⟨⟨t, result'⟩, hhandle, -⟩ := Except.map_eq_ok.1 returned.outcome
  rw [committed_succeeded hhandle] at hvectors
  subst hvectors
  have hfresh := loaded.reusedCheckpoint_none.1 reused
  rw [d.atEmbedding] at hfresh
  exact .ran ⟨loaded.jobRow, loaded.contractRow, hctx⟩ hfresh (handle_ok hctx hhandle)

theorem deliver_completed (h : deliver s d = .ok (s', outcome))
    (hdone : outcome.status = .succeeded ∨ outcome.status = .skipped) :
    Completed s d s' outcome.status := by
  obtain ⟨⟨queued, hrun⟩, hvectors⟩ := deliver_ok h
  obtain ⟨executed, hexec, -⟩ := runStage_cases hrun
  cases execute_cases hexec with
  | idle _ status => exact absurd hdone (not_or.2 status)
  | skipped loaded reused _ status =>
    have hreuses := loaded.reuses reused
    rw [d.atEmbedding] at hreuses
    rw [status] at hvectors ⊢
    have hctx := context_eq loaded.jobRow loaded.contractRow
    exact .skipped ⟨loaded.jobRow, loaded.contractRow, hctx⟩ hreuses
      (hvectors.trans committed_skipped)
  | failed _ _ _ _ handled =>
    obtain ⟨error, rfl⟩ := handleFailure_outcome handled
    simp [failureOutcome] at hdone
  | halted loaded reused returned _ status =>
    rw [status] at hvectors ⊢
    exact completed_of_loaded loaded reused returned hvectors
  | advanced loaded reused returned _ _ status =>
    rw [status] at hvectors ⊢
    exact completed_of_loaded loaded reused returned hvectors

def Rewrites (s : Store ν) (d : Delivery ν Payload) (r : EmbeddingRow ν) : Prop :=
  ∃ job contract ctx, Opened s d job contract ctx ∧
    ¬ Reuses d.call s.db job contract .embedding ∧ Covers ctx r

theorem completions_step (h : completions.step s d = some s') :
    ∃ outcome, deliver s d = .ok (s', outcome) ∧
      (outcome.status = .succeeded ∨ outcome.status = .skipped) := by
  simp only [completions] at h
  split at h
  next => cases h
  next s₁ o hdeliver =>
    obtain ⟨hdone, heq⟩ := Option.ite_none_right_eq_some.1 h
    cases heq
    exact ⟨o, hdeliver, hdone⟩

theorem Opened.unique {job job' : ProcessingJob} {contract contract' : Contract} {ctx ctx' : Context}
    (h : Opened s d job contract ctx) (h' : Opened s d job' contract' ctx') :
    job = job' ∧ contract = contract' ∧ ctx = ctx' :=
  ⟨Option.some.inj (h.jobRow.symm.trans h'.jobRow),
    Option.some.inj (h.contractRow.symm.trans h'.contractRow),
    Option.some.inj (h.context.symm.trans h'.context)⟩

theorem mem_completion (h : completions.step s d = some s')
    (hforeign : r.space ≠ d.embedder.active) :
    r ∈ s'.vectors.rows ↔ r ∈ s.vectors.rows ∧ ¬ Rewrites s d r := by
  obtain ⟨outcome, hdeliver, hdone⟩ := completions_step h
  have hcompleted := deliver_completed hdeliver hdone
  generalize outcome.status = status at hcompleted
  cases hcompleted with
  | ran opened fresh stored =>
    rw [mem_run_iff stored hforeign]
    refine and_congr_right fun _ => not_congr ⟨fun hcovers => ⟨_, _, _, opened, fresh, hcovers⟩, ?_⟩
    rintro ⟨job, contract, ctx, opened', -, hcovers⟩
    obtain ⟨-, -, rfl⟩ := opened.unique opened'
    exact hcovers
  | skipped opened reused same =>
    rw [same]
    refine (and_iff_left ?_).symm
    rintro ⟨job, contract, ctx, opened', hfresh, -⟩
    obtain ⟨rfl, rfl, -⟩ := opened.unique opened'
    exact hfresh reused

end EmbeddingReindexer

end Clear

namespace Clear

namespace EmbeddingReindexer

open EmbeddingTable EmbeddingStage Runner

variable {ν Payload : Type} {s s' s₀ : Store ν} {d : Delivery ν Payload} {outcome : StageOutcome}
  {r : EmbeddingRow ν}

/-! ## The queued jobs -/

/-- The message still waits: its job is as the sweep created it, and the contract and its stage runs
are as they were in `s₀`. -/
structure Pending (s₀ s : Store ν) (message : StageMessage) : Prop where
  job : ∃ job, s.db.jobs message.jobId = some job ∧ IsFresh job
  contract : s.db.contracts message.contractId = s₀.db.contracts message.contractId
  runs : s.db.runs.ofContract message.contractId = s₀.db.runs.ofContract message.contractId

theorem Pending.step {message : StageMessage} (h : Pending s₀ s message)
    (hstep : completions.step s d = some s') (hjob : message.jobId ≠ d.message.jobId)
    (hcontract : message.contractId ≠ d.message.contractId) : Pending s₀ s' message := by
  obtain ⟨outcome, hdeliver, -⟩ := completions_step hstep
  obtain ⟨⟨queued, hrun⟩, -⟩ := deliver_ok hdeliver
  obtain ⟨job, hrow, hfresh⟩ := h.job
  have hframe := runStage_frame hrun fun job => s.keyed.jobs _ job
  refine ⟨⟨job, (hframe.jobs _ hjob).trans hrow, hfresh⟩, ?_, ?_⟩
  · exact (runStage_contract s.keyed hcontract hrun).trans h.contract
  · exact (runStage_contractRuns s.keyed hcontract hrun).trans h.runs

/-- The stage of a queued job replaces the row: the contract's checkpoint is not reusable and the row
is one of the contract's, in its own project. -/
structure Replaces (s₀ : Store ν) (d : Delivery ν Payload) (r : EmbeddingRow ν) : Prop where
  contract : r.contractId = d.message.contractId
  owned : (s₀.db.contracts d.message.contractId).map (·.projectId) = some r.projectId
  rerun : Workflow.reusable d.call.env d.call.loadErrors none
    (s₀.db.runs.checkpoints d.call.engine d.message.contractId) .embedding = false

theorem mem_levels (level : EmbeddingLevel) : level ∈ levels none := by
  cases level <;> decide

theorem reuses_fresh {call : StageCall Payload} {db : Db} {job : ProcessingJob}
    {contract : Contract} (hfresh : IsFresh job) :
    Reuses call db job contract .embedding ↔
      Workflow.reusable call.env call.loadErrors none
        (db.runs.checkpoints call.engine contract.id) .embedding = true := by
  obtain ⟨hstages, hresume, hprofile⟩ := hfresh
  have hloaded : loadProfile db job = none := by
    unfold loadProfile
    rw [hprofile]
    rfl
  have hscope : Workflow.scope (some .embedding) = some [.embedding, .indexing] := rfl
  have haction : plannedAction call db job contract .embedding =
      some (if Workflow.reusable call.env call.loadErrors none
        (db.runs.checkpoints call.engine contract.id) .embedding then .skip else .run) := by
    unfold plannedAction
    rw [hstages, hresume, hloaded, hscope]
    simp
  unfold Reuses
  rw [haction]
  constructor
  · rintro ⟨hskip, -⟩
    by_contra hrun
    rw [if_neg hrun] at hskip
    cases hskip
  · intro hreusable
    rw [if_pos hreusable]
    refine ⟨rfl, fun hnone => ?_⟩
    have hcurrent := (Bool.and_eq_true_iff.1 hreusable).2
    rw [Workflow.isCurrent, RunTable.checkpoints_none.2 hnone] at hcurrent
    cases hcurrent

theorem Pending.rewrites_iff (h : Pending s₀ s d.message)
    (hstep : completions.step s d = some s') : Rewrites s d r ↔ Replaces s₀ d r := by
  obtain ⟨job, hjob, hfresh⟩ := h.job
  obtain ⟨outcome, hdeliver, hdone⟩ := completions_step hstep
  obtain ⟨contract, hcontract⟩ : ∃ contract,
      s.db.contracts d.message.contractId = some contract := by
    have hcompleted := deliver_completed hdeliver hdone
    generalize outcome.status = status at hcompleted
    cases hcompleted with
    | ran opened => exact ⟨_, opened.contractRow⟩
    | skipped opened => exact ⟨_, opened.contractRow⟩
  have hid : contract.id = d.message.contractId := s.keyed.contracts _ _ hcontract
  have hctx := context_eq hjob hcontract
  have hlevels : (loadProfile s.db job).bind (·.embeddingLevels) = none := by
    unfold loadProfile
    rw [hfresh.2.2]
    rfl
  have hreuses : Reuses d.call s.db job contract .embedding ↔
      Workflow.reusable d.call.env d.call.loadErrors none
        (s.db.runs.checkpoints d.call.engine contract.id) .embedding = true := reuses_fresh hfresh
  rw [hid, RunTable.checkpoints_congr _ h.runs] at hreuses
  constructor
  · rintro ⟨job', contract', ctx, opened, hrun, hcovers⟩
    obtain ⟨rfl, rfl, rfl⟩ := opened.unique ⟨hjob, hcontract, hctx⟩
    refine ⟨hcovers.1.trans hid, ?_, Bool.eq_false_iff.2 fun hr => hrun (hreuses.2 hr)⟩
    rw [← h.contract, hcontract, hcovers.2.1]
    rfl
  · intro hreplaces
    refine ⟨job, contract, _, ⟨hjob, hcontract, hctx⟩, ?_, hreplaces.contract.trans hid.symm, ?_, ?_⟩
    · intro hr
      rw [hreplaces.rerun] at hreuses
      cases hreuses.1 hr
    · have howned := hreplaces.owned
      rw [← h.contract, hcontract] at howned
      exact (Option.some.inj howned).symm
    · show r.level ∈ levels ((loadProfile s.db job).bind (·.embeddingLevels))
      rw [hlevels]
      exact mem_levels _

/-- Of the stale rows, those survive the jobs of a sweep that none of them replaces. -/
theorem mem_exec {ds : List (Delivery ν Payload)} {target : EmbeddingSpace}
    (h : completions.exec s ds = some s') (hpending : ∀ d ∈ ds, Pending s₀ s d.message)
    (hjobs : (ds.map (·.message.jobId)).Nodup) (hcontracts : (ds.map (·.message.contractId)).Nodup)
    (hactive : ∀ d ∈ ds, d.embedder.active = target) (hforeign : r.space ≠ target) :
    r ∈ s'.vectors.rows ↔ r ∈ s.vectors.rows ∧ ∀ d ∈ ds, ¬ Replaces s₀ d r := by
  induction ds generalizing s with
  | nil =>
    cases h
    simp
  | cons d ds ih =>
    obtain ⟨s₁, hstep, h⟩ := Option.bind_eq_some_iff.1 h
    rw [List.map_cons, List.nodup_cons] at hjobs hcontracts
    have hrest : ∀ d' ∈ ds, Pending s₀ s₁ d'.message := by
      intro d' hd'
      refine (hpending d' (List.mem_cons_of_mem d hd')).step hstep ?_ ?_
      · exact fun heq => hjobs.1 (heq ▸ List.mem_map.2 ⟨d', hd', rfl⟩)
      · exact fun heq => hcontracts.1 (heq ▸ List.mem_map.2 ⟨d', hd', rfl⟩)
    have hd := hpending d List.mem_cons_self
    rw [ih h hrest hjobs.2 hcontracts.2 fun d' hd' => hactive d' (List.mem_cons_of_mem d hd'),
      mem_completion hstep (hactive d List.mem_cons_self ▸ hforeign), hd.rewrites_iff hstep,
      List.forall_mem_cons, and_assoc]

/-! ## The whole sweep -/

def Rewritten (s : Store ν) (d : Delivery ν Payload) : Prop :=
  ∀ ctx, context s.db d.message = some ctx → ∀ r ∈ s.vectors.rows,
    r.contractId = d.message.contractId → r.space = d.embedder.active ∨ Covers ctx r

def Settled (target : EmbeddingSpace) (projectId : Option Uuid) (s : Store ν) : Prop :=
  s.vectors.contractsNeedingReindex target projectId none false = [] ∧
    ∀ x : Reindexer, x.target = target → (run x { projectId } s).queued = []

/-- The sweep heals the contract: it is queued, its embedding checkpoint is not reusable, and its stale
rows in scope are in the contract's own project. -/
structure Heals (x : Reindexer) (projectId : Option Uuid) (s : Store ν)
    (ds : List (Delivery ν Payload)) (contractId : Uuid) (i : Nat) : Prop where
  accepted : Accepted x s contractId i
  rerun : ∀ d ∈ ds, d.message.contractId = contractId →
    Workflow.reusable d.call.env d.call.loadErrors none
      (s.db.runs.checkpoints d.call.engine contractId) .embedding = false
  owned : ∀ r ∈ s.vectors.rows, r.contractId = contractId → r.stale x.target = true →
    InScope projectId r → (s.db.contracts contractId).map (·.projectId) = some r.projectId

theorem unmixed_iff (h : deliver s d = .ok (s', outcome)) (hstatus : outcome.status = .succeeded) :
    Unmixed d.embedder.active d.message.contractId s'.vectors ↔ Rewritten s d := by
  have hcompleted := deliver_completed h (.inl hstatus)
  rw [hstatus] at hcompleted
  cases hcompleted with
  | ran opened fresh stored =>
    rw [unmixed_run_iff stored]
    constructor
    · intro hclean ctx hctx
      rw [Option.some.inj (hctx.symm.trans opened.context)]
      exact hclean
    · exact fun hclean => hclean _ opened.context

theorem settled_iff {target : EmbeddingSpace} {projectId : Option Uuid} :
    Settled target projectId s ↔
      s.vectors.contractsNeedingReindex target projectId none false = [] := by
  refine and_iff_left_of_imp fun hnone x hx => List.eq_nil_iff_forall_not_mem.2 fun m hm => ?_
  obtain ⟨target, ht, -⟩ := ((swept_run x projectId s).queued m).1 hm
  rw [hx, hnone] at ht
  cases ht

theorem exists_index {target : EmbeddingSpace} {projectId : Option Uuid} (hr : r ∈ s.vectors.rows)
    (hstale : r.stale target = true) (hscope : InScope projectId r) :
    ∃ i, (r.contractId, i) ∈
      (s.vectors.contractsNeedingReindex target projectId none false).zipIdx := by
  have hmem := mem_contractsNeedingReindex.2 ⟨r, hr, rfl, hstale, hscope⟩
  obtain ⟨i, hi, heq⟩ := List.getElem_of_mem hmem
  exact ⟨i, List.mem_zipIdx_iff_getElem?.2 (List.getElem?_eq_some_iff.2 ⟨hi, heq⟩)⟩

section
variable {x : Reindexer} {projectId : Option Uuid} {ds : List (Delivery ν Payload)}

theorem pending_run (hperm : (ds.map (·.message)).Perm (run x { projectId } s).queued) :
    (∀ d ∈ ds, Pending s (run x { projectId } s).store d.message) ∧
      (ds.map (·.message.jobId)).Nodup ∧ (ds.map (·.message.contractId)).Nodup := by
  have hswept := swept_run x projectId s
  refine ⟨fun d hd => ⟨?_, ?_, ?_⟩, ?_, ?_⟩
  · exact hswept.created _ (hperm.mem_iff.1 (List.mem_map_of_mem hd))
  · rw [hswept.contracts]
  · rw [hswept.runs]
  · have hjobs := (hperm.map (·.jobId)).nodup_iff.2 hswept.jobIds
    rwa [List.map_map] at hjobs
  · have hcontracts := (hperm.map (·.contractId)).nodup_iff.2 hswept.contractIds
    rwa [List.map_map] at hcontracts

/-- The stale rows that survive a sweep whose jobs all complete. -/
theorem mem_swept (hperm : (ds.map (·.message)).Perm (run x { projectId } s).queued)
    (hactive : ∀ d ∈ ds, d.embedder.active = x.target)
    (hexec : completions.exec (run x { projectId } s).store ds = some s')
    (hforeign : r.space ≠ x.target) :
    r ∈ s'.vectors.rows ↔ r ∈ s.vectors.rows ∧ ∀ d ∈ ds, ¬ Replaces s d r := by
  obtain ⟨hpending, hjobs, hcontracts⟩ := pending_run hperm
  rw [mem_exec hexec hpending hjobs hcontracts hactive hforeign, (swept_run x projectId s).vectors]

theorem settled_swept_iff (hperm : (ds.map (·.message)).Perm (run x { projectId } s).queued)
    (hactive : ∀ d ∈ ds, d.embedder.active = x.target)
    (hexec : completions.exec (run x { projectId } s).store ds = some s') :
    Settled x.target projectId s' ↔ ∀ target ∈
      (s.vectors.contractsNeedingReindex x.target projectId none false).zipIdx,
        Heals x projectId s ds target.1 target.2 := by
  have hswept := swept_run x projectId s
  obtain ⟨-, -, hcontracts⟩ := pending_run hperm
  have hforeign : ∀ r : EmbeddingRow ν, r.stale x.target = true ↔ r.space ≠ x.target := by
    intro r
    rw [ne_eq, ← EmbeddingValidator.stale_iff, Bool.not_eq_false]
  rw [settled_iff]
  constructor
  · intro hnone target htarget
    -- Every stale row of the contract in scope was replaced by some delivery.
    have hreplaced : ∀ r ∈ s.vectors.rows, r.contractId = target.1 → r.stale x.target = true →
        InScope projectId r → ∃ d ∈ ds, Replaces s d r := by
      intro r hr hcontract hstale hscope
      by_contra hkept
      have hsurvives := (mem_swept hperm hactive hexec ((hforeign r).1 hstale)).2
        ⟨hr, fun d hd hreplaces => hkept ⟨d, hd, hreplaces⟩⟩
      have hneeded := mem_contractsNeedingReindex.2 ⟨r, hsurvives, rfl, hstale, hscope⟩
      rw [hnone] at hneeded
      cases hneeded
    have hmem := List.fst_mem_of_mem_zipIdx htarget
    obtain ⟨r, hr, hcontract, hstale, hscope⟩ := mem_contractsNeedingReindex.1 hmem
    obtain ⟨d, hd, hreplaces⟩ := hreplaced r hr hcontract hstale hscope
    have hqueued := hperm.mem_iff.1 (List.mem_map_of_mem hd)
    obtain ⟨target', htarget', haccepted, hrequest⟩ := (hswept.queued d.message).1 hqueued
    have hsame : target' = target := by
      have hfst : target'.1 = target.1 := by
        rw [← hrequest.ids.2.1, ← hreplaces.contract, hcontract]
      have hnodup : (s.vectors.contractsNeedingReindex x.target projectId none
          false).zipIdx.map (·.1) |>.Nodup := by
        rw [List.zipIdx_map_fst]
        exact contractsNeedingReindex_nodup
      exact Keyed.inj hnodup htarget' htarget hfst
    subst hsame
    refine ⟨haccepted, fun d' hd' hcontract' => ?_, fun r' hr' hcontract' hstale' hscope' => ?_⟩
    · have heq : d' = d := by
        refine Keyed.inj hcontracts hd' hd ?_
        rw [hcontract', ← hreplaces.contract, hcontract]
      rw [heq, ← hcontract, hreplaces.contract]
      exact hreplaces.rerun
    · obtain ⟨d', -, hreplaces'⟩ := hreplaced r' hr' hcontract' hstale' hscope'
      rw [← hcontract', hreplaces'.contract]
      exact hreplaces'.owned
  · intro hheals
    refine List.eq_nil_iff_forall_not_mem.2 fun contractId hneeded => ?_
    obtain ⟨r, hr', hcontract, hstale, hscope⟩ := mem_contractsNeedingReindex.1 hneeded
    obtain ⟨hr, hkept⟩ := (mem_swept hperm hactive hexec ((hforeign r).1 hstale)).1 hr'
    obtain ⟨i, hi⟩ := exists_index hr hstale hscope
    have hheal := hheals _ hi
    -- The contract was queued, so one of the deliveries is for it.
    obtain ⟨projectId', stale, rest, hgroups⟩ : ∃ projectId' stale rest,
        projects s.vectors r.contractId = (projectId', stale) :: rest := by
      cases hprojects : projects s.vectors r.contractId with
      | cons group rest => exact ⟨group.1, group.2, rest, rfl⟩
      | nil =>
        unfold projects at hprojects
        dsimp only at hprojects
        have hfirst := ((Sql.map_distinctOn (·.projectId)
          (s.vectors.rows.filter (·.contractId = r.contractId))).2 r.projectId).2
            (List.mem_map_of_mem (List.mem_filter.2 ⟨hr, by simp⟩))
        rw [List.map_eq_nil_iff.1 hprojects] at hfirst
        cases hfirst
    have hqueued : (request x i r.contractId projectId').2 ∈ (run x { projectId } s).queued :=
      (hswept.queued _).2 ⟨_, hi, hheal.accepted, projectId', stale, rest, hgroups, rfl⟩
    obtain ⟨d, hd, hmessage⟩ := List.mem_map.1 (hperm.mem_iff.2 hqueued)
    have hid : d.message.contractId = r.contractId := by
      rw [hmessage]
      rfl
    refine hkept d hd ⟨hid.symm, ?_, ?_⟩
    · rw [hid]
      exact hheal.owned r hr rfl hstale hscope
    · rw [hid]
      exact hheal.rerun d hd hid

end

/-- After a successful embedding stage the contract is in the active space exactly when the rows that
are not replaced already were. A sweep whose jobs all complete, in any order, leaves nothing to
re-index exactly when it heals every contract it names. -/
theorem reindex_converges_iff (ν Payload : Type) :
    (∀ (s s' : Store ν) (d : Delivery ν Payload) (outcome : StageOutcome),
      deliver s d = .ok (s', outcome) → outcome.status = .succeeded →
        (Unmixed d.embedder.active d.message.contractId s'.vectors ↔ Rewritten s d)) ∧
      ∀ (x : Reindexer) (projectId : Option Uuid) (s s' : Store ν) (ds : List (Delivery ν Payload)),
        (ds.map (·.message)).Perm (run x { projectId } s).queued →
        (∀ d ∈ ds, d.embedder.active = x.target) →
        completions.exec (run x { projectId } s).store ds = some s' →
          (Settled x.target projectId s' ↔ ∀ target ∈
            (s.vectors.contractsNeedingReindex x.target projectId none false).zipIdx,
              Heals x projectId s ds target.1 target.2) :=
  ⟨fun _ _ _ _ h hstatus => unmixed_iff h hstatus,
    fun _ _ _ _ _ hperm hactive hexec => settled_swept_iff hperm hactive hexec⟩

/-! ## A profile that drops a level -/

namespace Sample

def embedder : Embedder Int where
  settings := { model := "new", dim := 1 }
  sha256 := id
  embedMany texts := .ok { vectors := texts.map fun _ => [0], model := "mock-new" }
  newId item := item.refId + 100

def oldSummary : EmbeddingRow Int where
  id := 50
  projectId := 2
  contractId := 1
  level := .documentSummary
  refId := 1
  embedding := [0]
  sourceText := "A services agreement."
  contentHash := "A services agreement."
  tokenCount := 4
  provider := "mock"
  model := "mock-old"
  dim := 1
  embeddingVersion := "v1"
  strategyVersion := "1.0.0"

def runs : RunTable where
  rows := [.validation, .parser, .docpipeline, .extraction].zipIdx.map fun (stage, i) =>
    { id := BitVec.ofNat 128 (200 + i), jobId := 9, contractId := 1, projectId := 2, stage
      status := .succeeded }
  idUnique := by decide
  attemptUnique := by decide

def profiled : Store Int where
  db :=
    { jobs := fun id => if id = 10 then
        some { id := 10, contractId := 1, projectId := 2, resumeFromStage := some .embedding,
               profileId := some 7 } else none
      contracts := fun id => if id = 1 then some { id := 1, projectId := 2 } else none
      profiles := fun id => if id = 7 then
        some { id := 7, key := "nda", version := "1", embeddingLevels := some ["chunk"] } else none
      runs }
  vectors := { rows := [oldSummary], idUnique := by simp, versionUnique := by simp }
  keyed :=
    { jobs := fun id job h => by
        obtain ⟨rfl, heq⟩ := Option.ite_none_right_eq_some.1 h
        cases heq
        rfl
      contracts := fun id contract h => by
        obtain ⟨rfl, heq⟩ := Option.ite_none_right_eq_some.1 h
        cases heq
        rfl }

def delivery (message : StageMessage) (h : message.stage = .embedding) (now : Timestamp) :
    Delivery Int Unit where
  message
  atEmbedding := h
  call :=
    { Pipeline.Sample.call (BitVec.ofNat 128 (300 + now)) now (.ok {}) with
      env := { settings := { embeddingModel := "new", embeddingDim := 1 } } }
  embedder
  engine := .stable
  payloads := ⟨fun _ _ => (), fun _ => ()⟩
  plan := [{ refId := 4, level := .chunk, text := "Notices are given in writing." }]

def reembedded : Delivery Int Unit :=
  delivery (Pipeline.Sample.message 10 [] .embedding) rfl 10

def reindexer : Reindexer where
  settings := embedder.settings
  now := 20
  jobId i := BitVec.ofNat 128 (20 + i)
  jobId_injective := fun a b h => by
    have hsum : (20 + a : Uuid) = 20 + b := by
      simpa [BitVec.ofNat_add] using h
    simpa using hsum
  dispatchId _ := ""
  refused _ := none
  str _ := ""

def queued : StageMessage := (request reindexer 0 1 2).2

def again : Delivery Int Unit := delivery queued rfl 30

def swept (s : Store Int) : Sweep Int :=
  sweepOne reindexer
    { store := s
      report :=
        { progress := { contractsTotal := 1 }
          targetModel := reindexer.target.model
          targetDim := reindexer.target.dim } } (1, 0)

/-- What the run for job 10 leaves behind. -/
def Mixed (s : Store Int) : Prop :=
  oldSummary ∈ s.vectors.rows ∧
    (Sql.distinctOn (·.contractId) (s.vectors.rows.filter fun r =>
      (false || r.stale reindexer.target) ∧
        ((none : Option Uuid) = none ∨ none = some r.projectId))).map (·.contractId) = [1] ∧
    (swept s).queued = [queued]

instance (s : Store Int) : Decidable (Mixed s) := inferInstanceAs (Decidable (_ ∧ _ ∧ _))

theorem run_mixed {s : Store Int} (h : Mixed s) : run reindexer { projectId := none } s = swept s := by
  have htargets : targets reindexer { projectId := none } s.vectors = [1] := by
    show contractsNeedingReindex s.vectors reindexer.target none none false = [1]
    unfold contractsNeedingReindex
    dsimp only
    rw [h.2.1, List.mergeSort_singleton]
  unfold run
  dsimp only
  rw [htargets]
  rfl

theorem oldSummary_stale : oldSummary.stale reindexer.target = true := by decide

end Sample

open Sample

/-- The old summary outlives the stage that ran under the profile, and its checkpoint stands in for
the stage that the sweep queues. -/
theorem dropped_level_never_converges :
    (¬ ∀ (s s' : Store Int) (d : Delivery Int Unit) (outcome : StageOutcome),
      deliver s d = .ok (s', outcome) → outcome.status = .succeeded →
        Unmixed d.embedder.active d.message.contractId s'.vectors) ∧
      ¬ ∀ (x : Reindexer) (projectId : Option Uuid) (s s' : Store Int)
          (ds : List (Delivery Int Unit)),
        (ds.map (·.message)).Perm (run x { projectId } s).queued →
        (∀ d ∈ ds, d.embedder.active = x.target) →
        completions.exec (run x { projectId } s).store ds = some s' →
          Settled x.target projectId s' := by
  have hdeliver : (deliver profiled reembedded).toOption.any (fun (s, outcome) =>
      outcome.status = .succeeded ∧ Mixed s ∧
        (completions.step (swept s).store again).any
          (fun s' => oldSummary ∈ s'.vectors.rows) = true) = true := by decide
  obtain ⟨⟨s, outcome⟩, hs, hall⟩ := (Option.any_eq_true _ _).1 hdeliver
  obtain ⟨hstatus, hmixed, hagain⟩ := of_decide_eq_true hall
  obtain ⟨s', hstep, hold⟩ := (Option.any_eq_true _ _).1 hagain
  have hforeign : oldSummary.space ≠ embedder.active := by decide
  constructor
  · intro hclean
    cases hok : deliver profiled reembedded with
    | error => simp [hok, Except.toOption] at hs
    | ok out =>
      rw [hok] at hs
      cases hs
      exact hforeign (hclean _ _ _ _ hok hstatus oldSummary hmixed.1 rfl)
  · intro hsettled
    have hrun := run_mixed hmixed
    have hdone := hsettled reindexer none s s' [again] (by rw [hrun, hmixed.2.2]; rfl)
      (by simp [again, delivery, reindexer, Reindexer.target, Embedder.active, embedder])
      (by rw [hrun]; simp [Machine.exec, hstep])
    have hneeded := mem_contractsNeedingReindex.2
      ⟨oldSummary, of_decide_eq_true hold, rfl, oldSummary_stale, .inl rfl⟩
    rw [hdone.1] at hneeded
    cases hneeded

end EmbeddingReindexer

end Clear
