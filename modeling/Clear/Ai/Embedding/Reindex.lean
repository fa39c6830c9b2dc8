import Clear.Ai.Embedding.Engine
import Clear.Orchestrator.Proof.Separation

/-!
# Regenerating the vector store

`EmbeddingReindexer`: the staleness predicate, the contracts that hold a stale vector, and the sweep
(`run`) that queues each of them from the embedding stage onward. `deliver` is what becomes of a
message so queued: `run_stage` with `EmbeddingStage` as its handler, the vectors it writes committed
with the rows of the call.
-/

/-!
## Stage 7: embedding

`EmbeddingStage.run` is the only part of the embedding path that touches the vector store: it reads
the vectors that can be reused, clears the levels it is about to rewrite, runs the engine and inserts
the rows. What the plan holds is read off the contract's clauses and chunks and comes as a parameter.
-/

namespace Clear

namespace EmbeddingStage

variable {ν Payload : Type}

/-- How the payloads of the stage's artifacts are built. -/
structure Payloads (ν Payload : Type) where
  vectors : EmbeddingLevel → List (EmbeddingRow ν) → Payload
  statistics : EmbeddingRun ν → Payload

def levels (configured : Option (List String)) : List EmbeddingLevel :=
  match configured with
  | none | some [] => embeddingLevels
  | some names => embeddingLevels.filter fun level => level.value ∈ names

structure Context where
  contractId : Uuid
  projectId : Uuid
  profileVersion : Option String := none
  configuredLevels : Option (List String) := none

/-- Find vectors that can be reused, and fetch them. -/
def loadReusable (e : Embedder ν) (db : Sql.Engine (EmbeddingRow ν)) (t : EmbeddingTable ν)
    (projectId : Uuid) (plan : EmbeddingPlan) (levels : List EmbeddingLevel) :
    Embedder.Stored ν :=
  let existing := levels.filterMap fun level =>
    let matched := (t.existingHashes db e.active projectId level).filter fun (hash, _) =>
      (plan.byLevel level).any fun item => e.contentHash item.text = hash
    if matched.isEmpty then none else some (level, matched)
  { existing
    vectors := (existing.flatMap fun (_, matched) => matched.map (·.2)).filterMap fun id =>
      (t.getVector id projectId).map (id, ·) }

def clear (t : EmbeddingTable ν) (ctx : Context) (levels : List EmbeddingLevel) :
    EmbeddingTable ν :=
  levels.foldl (fun t level => t.deleteForContractLevel ctx.contractId ctx.projectId level) t

def artifactKind : EmbeddingLevel → ArtifactKind
  | .documentSummary => .summaryEmbeddings
  | .clause => .clauseEmbeddings
  | .chunk => .chunkEmbeddings

def artifacts (payloads : Payloads ν Payload) (run : EmbeddingRun ν) :
    List (StageArtifact Payload) :=
  (embeddingLevels.filterMap fun level =>
    let rows := run.rows.filter (·.level = level)
    if rows.isEmpty then none
    else
      some
        { kind := artifactKind level
          payload := payloads.vectors level rows
          summary := [("level", .str level.value), ("count", .int rows.length)] }) ++
    [{ kind := .embeddingStatistics
       payload := payloads.statistics run
       summary := [("vectors", .int run.rows.length),
        ("generated", .int ((run.outcomes.map (·.generated)).foldl (· + ·) 0)),
        ("reused", .int ((run.outcomes.map (·.reused)).foldl (· + ·) 0)),
        ("failed_levels",
          .strs ((run.outcomes.filter (·.error.isSome)).map (·.level.value)))] }]

/-- The failure of the stage. -/
def pipelineError (message : String) (retryable : Bool) (details : JsonDict) : Raised :=
  .app
    { exception := "PipelineError"
      code := "pipeline_error"
      message
      details := details ++ [("stage", .str PipelineStage.embedding.value)]
      retryable
      stage := some PipelineStage.embedding.value }

def missingWarning (t : EmbeddingTable ν) (ctx : Context) (levels : List EmbeddingLevel) :
    List String :=
  let missing := levels.filter fun level => t.countAt ctx.contractId ctx.projectId level = 0
  if missing.isEmpty then []
  else ["No vectors were stored for: " ++ String.intercalate ", " (missing.map (·.value)) ++
    ". Retrieval at those levels will return nothing for this contract."]

def engineRun (e : Embedder ν) (db : Sql.Engine (EmbeddingRow ν)) (t : EmbeddingTable ν)
    (ctx : Context) (plan : EmbeddingPlan) : EmbeddingRun ν :=
  e.run ctx.contractId ctx.projectId ctx.profileVersion
    (loadReusable e db t ctx.projectId plan (levels ctx.configuredLevels)) plan
    (levels ctx.configuredLevels)

def run (e : Embedder ν) (payloads : Payloads ν Payload) (db : Sql.Engine (EmbeddingRow ν))
    (t : EmbeddingTable ν) (ctx : Context) (plan : EmbeddingPlan) (now : Timestamp) :
    Except Raised (EmbeddingTable ν × StageResult Payload) :=
  let levels := levels ctx.configuredLevels
  let run := engineRun e db t ctx plan
  if levels.isEmpty then
    .error (pipelineError
      ("The profile's embedding configuration enables no levels, so nothing could be embedded " ++
        "and the contract would not be searchable.") false [])
  else if plan.isEmpty then
    .error (pipelineError
      ("Nothing embeddable was found for this contract. Chunking and extraction produced no " ++
        "text long enough to embed.") false [("levels", .strs (levels.map (·.value)))])
  else if run.rows.isEmpty then
    .error (pipelineError
      ("No vectors were produced. Every embedding level failed - the contract would be " ++
        "invisible to search.") true
      [("failed_levels", .strs ((run.outcomes.filter (·.error.isSome)).map (·.level.value))),
        ("warnings", .strs run.warnings)])
  else do
    let t ← (clear t ctx levels).insertMany e.active
      (run.rows.map fun row => { row with createdAt := now })
    return (t,
      { artifacts := artifacts payloads run
        stats := [("vectors_total", .int run.rows.length),
          ("embedding_provider", .str e.active.provider),
          ("embedding_model", .str e.active.model),
          ("embedding_dim", .int e.active.dim)]
        contextUpdates :=
          { other := [("embedding_model", .str e.active.model),
              ("embedding_dim", .int e.active.dim), ("vectors_total", .int run.rows.length)] }
        warnings := run.warnings ++ missingWarning t ctx levels })

/-- The vector store as `run` leaves it when it raises: from the second check on, the levels have been
cleared. -/
def leftover (t : EmbeddingTable ν) (ctx : Context) (plan : EmbeddingPlan) : EmbeddingTable ν :=
  let levels := levels ctx.configuredLevels
  if levels.isEmpty ∨ plan.isEmpty then t else clear t ctx levels

/-! ## Histories -/

inductive Write (ν : Type) where
  | stage (e : Embedder ν) (db : Sql.Engine (EmbeddingRow ν)) (ctx : Context)
      (plan : EmbeddingPlan) (now : Timestamp)
  | delete (p : EmbeddingRow ν → Bool)

/-- Histories of the vector store, over any changes of the configuration. A stage that fails stores
no vector: if it leaves anything behind (`leftover`), that is a delete. -/
def history : Machine (EmbeddingTable ν) (Write ν) where
  init t := t = .empty
  step t
    | .stage e db ctx plan now =>
      let payloads : Payloads ν Unit := ⟨fun _ _ => (), fun _ => ()⟩
      (run e payloads db t ctx plan now).toOption.map (·.1)
    | .delete p => some (t.delete p)

end EmbeddingStage

end Clear

namespace Clear

def EmbeddingRow.stale {ν : Type} (target : EmbeddingSpace) (r : EmbeddingRow ν) : Bool :=
  r.model ≠ target.model || r.provider ≠ target.provider || r.dim ≠ target.dim ||
    r.embeddingVersion ≠ target.embeddingVersion || r.strategyVersion ≠ target.strategyVersion

/-- Contracts holding at least one vector outside the target space, in the order of their ids;
`includeCurrent` takes those that look correct as well. -/
def EmbeddingTable.contractsNeedingReindex {ν : Type} (t : EmbeddingTable ν)
    (target : EmbeddingSpace) (projectId : Option Uuid) (limit : Option Nat)
    (includeCurrent : Bool) : List Uuid :=
  let rows := t.rows.filter fun r =>
    (includeCurrent || r.stale target) ∧ (projectId = none ∨ projectId = some r.projectId)
  let contracts := (Sql.distinctOn (·.contractId) rows).map (·.contractId)
  let ordered := contracts.mergeSort fun a b => a.toNat ≤ b.toNat
  match limit with
  | none => ordered
  | some n => ordered.take n

namespace EmbeddingReindexer

structure Store (ν : Type) where
  db : Db := {}
  vectors : EmbeddingTable ν := .empty
  keyed : db.Keyed

/-! ## The sweep -/

/-- The deployment that runs a sweep, and what the sweep takes from outside: the clock, the keys of
the jobs it creates, and how the queue answers. -/
structure Reindexer where
  settings : EmbeddingSettings := {}
  strategyVersion : String := "1.0.0"
  now : Timestamp
  jobId : Nat → Uuid
  /-- The draws are distinct as long as a key is left. -/
  jobId_injective : Function.Injective fun draw : Uuid => jobId draw.toNat
  dispatchId : Nat → String
  /-- The exception `enqueue` raises. -/
  refused : StageMessage → Option Raised
  /-- Python's `str` of an exception. -/
  str : Raised → String

/-- The space every vector is supposed to end up in. -/
def Reindexer.target (x : Reindexer) : EmbeddingSpace := .active x.settings x.strategyVersion

/-- The arguments of `run`. -/
structure Options where
  projectId : Option Uuid := none
  contractIds : List Uuid := []
  limit : Option Nat := none
  dryRun : Bool := false
  includeCurrent : Bool := false

structure ReindexProgress where
  contractsTotal : Nat := 0
  contractsDone : Nat := 0
  contractsFailed : Nat := 0
  vectorsWritten : Nat := 0
  vectorsRemoved : Nat := 0

/-- Final outcome, including which contracts could not be done. -/
structure ReindexReport where
  progress : ReindexProgress := {}
  failures : List (Uuid × String) := []
  targetModel : String
  targetDim : Int

structure Sweep (ν : Type) where
  store : Store ν
  queued : List StageMessage := []
  report : ReindexReport

variable {ν Payload : Type} (x : Reindexer)

def Store.createJob (s : Store ν) (job : ProcessingJob) : Store ν where
  db := { s.db with jobs := Function.update s.db.jobs job.id (some job) }
  vectors := s.vectors
  keyed :=
    { contracts := s.keyed.contracts
      jobs := fun id j hj => by
        dsimp only at hj
        by_cases hid : id = job.id
        · subst hid
          rw [Function.update_self] at hj
          rw [← Option.some.inj hj]
        · rw [Function.update_of_ne hid] at hj
          exact s.keyed.jobs id j hj }

def projects (t : EmbeddingTable ν) (contractId : Uuid) : List (Uuid × Nat) :=
  let rows := t.rows.filter (·.contractId = contractId)
  (Sql.distinctOn (·.projectId) rows).map fun r =>
    (r.projectId, (rows.filter (·.projectId = r.projectId)).length)

def request (i : Nat) (contractId projectId : Uuid) : ProcessingJob × StageMessage :=
  Pipeline.enqueueReprocess (x.jobId i) (x.dispatchId i) x.now contractId projectId .embedding .low
    [("reason", .str "embedding_model_change"), ("target_model", .str x.settings.model)]

/-- Queue one contract to be re-embedded from the embedding stage onward. Returns the store, the
message, and the vectors written and to be removed. -/
def reindexContract (s : Store ν) (i : Nat) (contractId : Uuid) :
    Except Raised (Store ν × Option StageMessage × Nat × Nat) :=
  match projects s.vectors contractId with
  | [] => .ok (s, none, 0, 0)
  | (projectId, stale) :: _ =>
    let (job, message) := request x i contractId projectId
    if (s.db.jobs job.id).isNone ∧ (s.db.contracts contractId).isSome then
      match x.refused message with
      | some raised => .error raised
      | none => .ok (s.createJob job, some message, 0, stale)
    else .error (.other "IntegrityError")

def sweepOne (w : Sweep ν) (target : Uuid × Nat) : Sweep ν :=
  let progress := w.report.progress
  match reindexContract x w.store target.2 target.1 with
  | .ok (store, message, written, stale) =>
    { store
      queued := w.queued ++ message.toList
      report :=
        { w.report with
          progress :=
            { progress with
              contractsDone := progress.contractsDone + 1
              vectorsWritten := progress.vectorsWritten + written
              vectorsRemoved := progress.vectorsRemoved + stale } } }
  | .error raised =>
    { w with
      report :=
        { w.report with
          progress := { progress with contractsFailed := progress.contractsFailed + 1 }
          failures := w.report.failures ++ [(target.1, Text.take 300 (x.str raised))] } }

def targets (options : Options) (t : EmbeddingTable ν) : List Uuid :=
  if options.contractIds.isEmpty then
    t.contractsNeedingReindex x.target options.projectId options.limit options.includeCurrent
  else options.contractIds

/-- Re-embed every contract that needs it. -/
def run (options : Options) (s : Store ν) : Sweep ν :=
  let targets := targets x options s.vectors
  let start : Sweep ν :=
    { store := s
      report :=
        { progress := { contractsTotal := targets.length }
          targetModel := x.target.model
          targetDim := x.target.dim } }
  if options.dryRun then
    { start with report :=
      { start.report with progress :=
        { start.report.progress with contractsDone := targets.length } } }
  else targets.zipIdx.foldl (sweepOne x) start

/-! ## The embedding stage of a job -/

/-- One delivery of a message for the embedding stage. The outcome of its handler is
`EmbeddingStage`'s, so the one in `call` is not used. -/
structure Delivery (ν Payload : Type) where
  message : StageMessage
  atEmbedding : message.stage = .embedding
  call : StageCall Payload
  embedder : Embedder ν
  engine : Sql.Engine (EmbeddingRow ν)
  payloads : EmbeddingStage.Payloads ν Payload
  plan : EmbeddingPlan

def context (db : Db) (message : StageMessage) : Option EmbeddingStage.Context :=
  match db.jobs message.jobId, db.contracts message.contractId with
  | some job, some contract =>
    let profile := Runner.loadProfile db job
    some
      { contractId := contract.id
        projectId := contract.projectId
        profileVersion := profile.map (·.version)
        configuredLevels := profile.bind (·.embeddingLevels) }
  | _, _ => none

def handle (s : Store ν) (d : Delivery ν Payload) :
    Except Raised (EmbeddingTable ν × StageResult Payload) :=
  match context s.db d.message with
  | none => .error (.other "AttributeError")
  | some ctx =>
    EmbeddingStage.run d.embedder d.payloads d.engine s.vectors ctx d.plan d.call.startedAt

def answered (s : Store ν) (d : Delivery ν Payload) : StageCall Payload :=
  { d.call with outcome := (handle s d).map (·.2) }

/-- The vectors that are committed with the call. A failure that is recorded on its run commits what
the handler left behind. -/
def committed (s : Store ν) (d : Delivery ν Payload) (status : StageStatus) : EmbeddingTable ν :=
  match status, handle s d with
  | .succeeded, .ok (t, _) => t
  | .failed, .error _ =>
    match d.call.failureRecord, context s.db d.message with
    | .finished, some ctx => EmbeddingStage.leftover s.vectors ctx d.plan
    | _, _ => s.vectors
  | _, _ => s.vectors

def deliver (s : Store ν) (d : Delivery ν Payload) : Except Raised (Store ν × StageOutcome) :=
  match h : Runner.runStage (answered s d) s.db d.message with
  | .error raised => .error raised
  | .ok (db, outcome, _) =>
    .ok
      ({ db
         vectors := committed s d outcome.status
         keyed := Runner.runStage_keyed s.keyed h }, outcome)

def completions : Machine (Store ν) (Delivery ν Payload) where
  init _ := True
  step s d :=
    match deliver s d with
    | .error _ => none
    | .ok (s, outcome) =>
      if outcome.status = .succeeded ∨ outcome.status = .skipped then some s else none

end EmbeddingReindexer

end Clear
