import Clear.Repositories.Jobs

/-!
# Workflow Engine

The decision plane: given a job and the contract's checkpoints, `plan` lists the stages in scope
and decides for each whether to run it or to reuse its checkpoint, and `nextAfter` names the stage
to dispatch after one that completed.

Stage handlers are found in a registry (`getStageHandler`). A handler module that failed to import
is missing from it, so the registry is a parameter: the table of load errors.
-/

namespace Clear

/-! ## Handlers -/

structure StageHandler where
  stage : PipelineStage
  cacheable : Bool := true
  retryable : Bool := true

/-- The six handler classes; the retired stages have none. -/
def stageModules : PipelineStage → Option StageHandler
  | .validation => some { stage := .validation, cacheable := false }
  | .parser => some { stage := .parser }
  | .docpipeline => some { stage := .docpipeline }
  | .extraction => some { stage := .extraction }
  | .embedding => some { stage := .embedding }
  | .indexing => some { stage := .indexing }
  | _ => none

/-- Import failures of the discovery pass, by module name. -/
abbrev LoadErrors := List (String × String)

def getStageHandler (loadErrors : LoadErrors) (stage : PipelineStage) :
    Except Raised StageHandler :=
  let reason := loadErrors.lookup stage.value
  match stageModules stage, reason with
  | some handler, none => .ok handler
  | _, reason =>
    .error (.app
      { exception := "PipelineError"
        code := "pipeline_error"
        message := "No handler is registered for the '" ++ stage.value ++ "' stage." ++
          (match reason with
            | some text => " Its module failed to import: " ++ text
            | none => "")
        details := (match reason with
          | some text => [("import_error", .str text)]
          | none => []) ++ [("stage", .str stage.value)]
        stage := some stage.value })

/-! ## Plans -/

/-- The Workflow Engine's output: the full stage list including skips. -/
structure ExecutionPlan where
  jobId : Uuid
  contractId : Uuid
  projectId : Uuid
  stages : List PlannedStage := []
  branches : List String := []
  extensions : List String := []
  profileKey : Option String := none
  profileVersion : Option String := none
  notes : List String := []

namespace ExecutionPlan

def runnable (p : ExecutionPlan) : List PipelineStage :=
  (p.stages.filter (·.shouldRun)).map (·.stage)

def forStage (p : ExecutionPlan) (stage : PipelineStage) : Option PlannedStage :=
  p.stages.find? (·.stage = stage)

end ExecutionPlan

abbrev Checkpoints := PipelineStage → Option JobStageRun

namespace Workflow

def versionsFor (env : Env) (stage : PipelineStage) (profile : Option DocumentProfile) :
    ComponentVersions :=
  currentVersionsForStage env stage (profile.map (·.id.str)) (profile.map (·.version))

def versionChanged (changed : List (String × Option VersionValue × VersionValue)) : String :=
  "version_changed:" ++ String.intercalate "," ((changed.map (·.1)).mergeSort (· ≤ ·))

def planStage (env : Env) (loadErrors : LoadErrors) (stage : PipelineStage)
    (profile : Option DocumentProfile) (checkpoint : Option JobStageRun) (force : Bool) :
    PlannedStage :=
  let current := versionsFor env stage profile
  let serialised := current.modelDump
  if force then { stage, action := .run, reason := "forced", versions := serialised }
  else
    match checkpoint with
    | none => { stage, action := .run, reason := "no_checkpoint", versions := serialised }
    | some checkpoint =>
      match getStageHandler loadErrors stage with
      | .error _ =>
        { stage, action := .run, reason := "handler_unavailable", versions := serialised }
      | .ok handler =>
        if !handler.cacheable then
          { stage, action := .run, reason := "stage_not_cacheable", versions := serialised }
        else if current.matchesDict (some checkpoint.versions) then
          { stage
            action := .skip
            reason := "checkpoint_current"
            checkpointId := some checkpoint.id
            versions := checkpoint.versions }
        else
          { stage
            action := .run
            reason := versionChanged (current.diff (some checkpoint.versions))
            versions := serialised }

/-- The body of `plan`'s loop: a stage behind one that runs is not skipped. -/
def planNext (env : Env) (loadErrors : LoadErrors) (profile : Option DocumentProfile)
    (checkpoints : Checkpoints) (force upstreamReruns : Bool) (stage : PipelineStage) :
    PlannedStage :=
  let planned := planStage env loadErrors stage profile (checkpoints stage) force
  if upstreamReruns && planned.action = .skip then
    { stage, action := .run, reason := some "upstream_rerun", versions := planned.versions }
  else planned

/-- The loop of `plan`. Once any stage is going to run, everything after it runs too. -/
def planStages (env : Env) (loadErrors : LoadErrors) (profile : Option DocumentProfile)
    (checkpoints : Checkpoints) (force : Bool) :
    (upstreamReruns : Bool) → (scope : List PipelineStage) → List PlannedStage
  | _, [] => []
  | upstreamReruns, stage :: rest =>
    let planned := planNext env loadErrors profile checkpoints force upstreamReruns stage
    planned :: planStages env loadErrors profile checkpoints force
      (upstreamReruns || planned.action = .run) rest

/-- The stages before `fromStage` that never succeeded. -/
def missingPrerequisites (fromStage : PipelineStage) (checkpoints : Checkpoints) :
    Option (List PipelineStage) :=
  (stageIndex fromStage).map fun i =>
    (stageOrder.take i).filter fun stage => (checkpoints stage).isNone

/-- Refuse a resume whose upstream stages never succeeded. -/
def validatePrerequisites (fromStage : PipelineStage) (checkpoints : Checkpoints) :
    Except Raised Unit :=
  match missingPrerequisites fromStage checkpoints with
  | none => .error (.other "ValueError")
  | some [] => .ok ()
  | some missing =>
    .error (.app
      { exception := "InvalidStateTransitionError"
        code := "invalid_state_transition"
        message := "Cannot resume at '" ++ fromStage.value ++
          "': earlier stages have not completed (" ++
          String.intercalate ", " (missing.map (·.value)) ++ ")."
        details := [("from_stage", .str fromStage.value),
          ("missing_stages", .strs (missing.map (·.value)))] })

/-- Conditional workflow selection. -/
def resolveBranches (contract : Contract) : List String :=
  match contract.fileType with
  | .pdf => ["pdf", "ocr_available"]
  | .docx => ["docx"]
  | .doc => []

def scope (fromStage : Option PipelineStage) : Option (List PipelineStage) :=
  match fromStage with
  | none => some stageOrder
  | some stage => stagesFrom stage

/-- Build the plan for a job. `fromStage` restricts it to that stage and everything after it;
`force` disables checkpoint reuse. -/
def plan (env : Env) (loadErrors : LoadErrors) (job : ProcessingJob) (contract : Contract)
    (profile : Option DocumentProfile) (checkpoints : Checkpoints)
    (fromStage : Option PipelineStage) (force : Bool) : Except Raised ExecutionPlan := do
  let scope ← match scope fromStage with
    | none => .error (.other "ValueError")
    | some scope => .ok scope
  match fromStage with
    | none => pure ()
    | some stage => validatePrerequisites stage checkpoints
  let stages := planStages env loadErrors profile checkpoints force false scope
  return {
    jobId := job.id
    contractId := contract.id
    projectId := contract.projectId
    stages
    branches := resolveBranches contract
    extensions := (profile.map (·.workflowExtensions)).getD []
    profileKey := profile.map (·.key)
    profileVersion := profile.map (·.version)
    notes := if stages.all (!·.shouldRun) then
      ["Every stage has a current checkpoint; nothing needs to run."] else [] }

def nextAfter (p : ExecutionPlan) (completed : PipelineStage) : Option PipelineStage :=
  match stageIndex completed with
  | none => none
  | some position =>
    (p.stages.find? fun item =>
      match stagePosition item.stage with
      | none => false
      | some index => position < index && item.shouldRun).map (·.stage)

def progressFor (stage : PipelineStage) (completed : Bool) : Int :=
  let (start, end_) : Int × Int :=
    match stage with
    | .validation => (0, 3)
    | .parser => (3, 35)
    | .docpipeline => (35, 50)
    | .extraction => (50, 85)
    | .embedding => (85, 95)
    | .indexing => (95, 100)
    | _ => (0, 100)
  if completed then end_ else start

end Workflow

end Clear
