import Clear.Orchestrator.Workflow

/-!
# Incremental planning

A stage is reusable when its handler may be cached and its checkpoint is current. The plan reuses
the longest reusable prefix of the scope and runs everything after it (`forStage_plan`). A stage
that is never cacheable therefore voids the cache of every stage behind it: planning is exact
exactly when no such stage is in scope ahead of a current cacheable one (`plan_exact_iff`).

The versions that `EXTRACTION` declares leave out the profile, so a profile change alone never
reruns it (`extraction_rerun_iff`), while `EMBEDDING` is rerun (`embedding_rerun`).
-/

namespace Clear

namespace Workflow

section
variable (env : Env) (loadErrors : LoadErrors) (profile : Option DocumentProfile)
  (checkpoints : Checkpoints)

/-! ## Reusable stages -/

def cacheable (stage : PipelineStage) : Bool :=
  match getStageHandler loadErrors stage with
  | .ok handler => handler.cacheable
  | .error _ => false

def isCurrent (stage : PipelineStage) : Bool :=
  match checkpoints stage with
  | some checkpoint => (versionsFor env stage profile).matchesDict (some checkpoint.versions)
  | none => false

def reusable (stage : PipelineStage) : Bool :=
  cacheable loadErrors stage && isCurrent env profile checkpoints stage

end

variable {env : Env} {loadErrors : LoadErrors} {profile : Option DocumentProfile}
  {checkpoints : Checkpoints} {force : Bool}

theorem reusable_validation : reusable env loadErrors profile checkpoints .validation = false := by
  unfold reusable cacheable getStageHandler
  cases loadErrors.lookup PipelineStage.validation.value <;> rfl

theorem planStage_stage {stage : PipelineStage} {checkpoint : Option JobStageRun} :
    (planStage env loadErrors stage profile checkpoint force).stage = stage := by
  unfold planStage
  cases force with
  | true => rfl
  | false =>
    cases checkpoint with
    | none => rfl
    | some checkpoint =>
      cases getStageHandler loadErrors stage with
      | error e => rfl
      | ok handler =>
        dsimp only
        split_ifs <;> rfl

theorem planStage_action {stage : PipelineStage} :
    (planStage env loadErrors stage profile (checkpoints stage) false).action =
      if reusable env loadErrors profile checkpoints stage then .skip else .run := by
  unfold planStage reusable cacheable isCurrent
  cases checkpoints stage with
  | none => simp
  | some checkpoint =>
    cases getStageHandler loadErrors stage with
    | error e => simp
    | ok handler =>
      cases hc : handler.cacheable <;>
        cases hm : (versionsFor env stage profile).matchesDict (some checkpoint.versions) <;>
        simp [hc, hm]

/-! ## The loop -/

theorem planNext_stage {up : Bool} {stage : PipelineStage} :
    (planNext env loadErrors profile checkpoints force up stage).stage = stage := by
  unfold planNext
  dsimp only
  split
  · rfl
  · exact planStage_stage

theorem planNext_action {up : Bool} {stage : PipelineStage} :
    (planNext env loadErrors profile checkpoints false up stage).action =
      if up || !reusable env loadErrors profile checkpoints stage then .run else .skip := by
  unfold planNext
  cases up <;> cases hr : reusable env loadErrors profile checkpoints stage <;>
    simp [planStage_action, hr]

theorem planStages_cons {up : Bool} {stage : PipelineStage} {rest : List PipelineStage} :
    planStages env loadErrors profile checkpoints false up (stage :: rest) =
      planNext env loadErrors profile checkpoints false up stage ::
        planStages env loadErrors profile checkpoints false
          (up || !reusable env loadErrors profile checkpoints stage) rest := by
  rw [planStages]
  cases up <;> cases hr : reusable env loadErrors profile checkpoints stage <;>
    simp [planNext_action, hr]

theorem planStages_map_stage {up : Bool} {scope : List PipelineStage} :
    (planStages env loadErrors profile checkpoints force up scope).map (·.stage) = scope := by
  induction scope generalizing up with
  | nil => rfl
  | cons stage rest ih => rw [planStages, List.map_cons, ih, planNext_stage]

theorem planStages_run {scope : List PipelineStage} {p : PlannedStage}
    (h : p ∈ planStages env loadErrors profile checkpoints false true scope) :
    p.action = .run := by
  induction scope with
  | nil => cases h
  | cons stage rest ih =>
    rw [planStages_cons, Bool.true_or] at h
    rcases List.mem_cons.1 h with rfl | h
    · rw [planNext_action, Bool.true_or, if_pos rfl]
    · exact ih h

theorem planStages_all_run {stage : PipelineStage} {rest : List PipelineStage} {p : PlannedStage}
    (hr : reusable env loadErrors profile checkpoints stage = false)
    (h : p ∈ planStages env loadErrors profile checkpoints false false (stage :: rest)) :
    p.action = .run := by
  rw [planStages_cons, hr, Bool.not_false, Bool.or_true] at h
  rcases List.mem_cons.1 h with rfl | h
  · rw [planNext_action, hr, Bool.not_false, Bool.or_true, if_pos rfl]
  · exact planStages_run h

theorem find_planStages {up : Bool} {pre post : List PipelineStage} {stage : PipelineStage}
    (hpre : stage ∉ pre) :
    ((planStages env loadErrors profile checkpoints false up (pre ++ stage :: post)).find?
        (·.stage = stage)).map (·.action) =
      some (if up || (pre ++ [stage]).any (!reusable env loadErrors profile checkpoints ·)
        then .run else .skip) := by
  induction pre generalizing up with
  | nil =>
    rw [List.nil_append, planStages_cons,
      List.find?_cons_of_pos (by simpa using planNext_stage), Option.map_some, planNext_action]
    simp
  | cons q pre ih =>
    simp only [List.mem_cons, not_or] at hpre
    rw [List.cons_append, planStages_cons,
      List.find?_cons_of_neg (by simpa [planNext_stage] using Ne.symm hpre.1), ih hpre.2]
    simp [Bool.or_assoc]

/-! ## Plans -/

theorem plan_ok {job : ProcessingJob} {contract : Contract} {fromStage : Option PipelineStage}
    {P : ExecutionPlan}
    (h : plan env loadErrors job contract profile checkpoints fromStage force = .ok P) :
    ∃ stages, scope fromStage = some stages ∧
      P.stages = planStages env loadErrors profile checkpoints force false stages := by
  unfold plan at h
  cases hs : scope fromStage with
  | none => rw [hs] at h; cases h
  | some stages =>
    rw [hs] at h
    refine ⟨stages, rfl, ?_⟩
    cases fromStage with
    | none => cases h; rfl
    | some stage =>
      cases hv : validatePrerequisites stage checkpoints with
      | error e => dsimp only at h; rw [hv] at h; cases h
      | ok u => dsimp only at h; rw [hv] at h; cases h; rfl

theorem scope_nodup {fromStage : Option PipelineStage} {stages : List PipelineStage}
    (h : scope fromStage = some stages) : stages.Nodup := by
  have horder : stageOrder.Nodup := by decide
  cases fromStage with
  | none =>
    cases h
    exact horder
  | some stage =>
    obtain ⟨i, -, rfl⟩ := Option.map_eq_some_iff.1 h
    exact horder.sublist (List.drop_sublist _ _)

/-- The decision about a stage in scope: it runs unless it and every stage of the scope before it
are reusable. -/
theorem forStage_plan {job : ProcessingJob} {contract : Contract}
    {fromStage : Option PipelineStage} {P : ExecutionPlan} {pre post : List PipelineStage}
    {stage : PipelineStage}
    (h : plan env loadErrors job contract profile checkpoints fromStage false = .ok P)
    (hscope : scope fromStage = some (pre ++ stage :: post)) :
    (P.forStage stage).map (·.action) =
      some (if (pre ++ [stage]).all (reusable env loadErrors profile checkpoints ·)
        then .skip else .run) := by
  obtain ⟨stages, hs, hP⟩ := plan_ok h
  rw [hscope] at hs
  cases hs
  have hnodup := scope_nodup hscope
  have hpre : stage ∉ pre := fun hm => by
    have := (List.nodup_append.1 hnodup).2.2 stage hm stage (by simp)
    exact this rfl
  rw [ExecutionPlan.forStage, hP, find_planStages hpre, Bool.false_or]
  rw [show (pre ++ [stage]).any (!reusable env loadErrors profile checkpoints ·) =
      !(pre ++ [stage]).all (reusable env loadErrors profile checkpoints ·) by
    rw [List.not_all_eq_any_not]]
  cases (pre ++ [stage]).all (reusable env loadErrors profile checkpoints ·) <;> rfl

theorem forStage_none {job : ProcessingJob} {contract : Contract}
    {fromStage : Option PipelineStage} {P : ExecutionPlan} {stages : List PipelineStage}
    {stage : PipelineStage}
    (h : plan env loadErrors job contract profile checkpoints fromStage force = .ok P)
    (hscope : scope fromStage = some stages) (hstage : stage ∉ stages) :
    P.forStage stage = none := by
  obtain ⟨stages', hs, hP⟩ := plan_ok h
  rw [hscope] at hs
  cases hs
  rw [ExecutionPlan.forStage, List.find?_eq_none]
  intro q hq he
  have : q.stage ∈ P.stages.map (·.stage) := List.mem_map_of_mem hq
  rw [hP, planStages_map_stage] at this
  simp only [decide_eq_true_eq] at he
  exact hstage (he ▸ this)

theorem forStage_plan_mem {job : ProcessingJob} {contract : Contract}
    {fromStage : Option PipelineStage} {P : ExecutionPlan} {stages : List PipelineStage}
    {stage : PipelineStage}
    (h : plan env loadErrors job contract profile checkpoints fromStage false = .ok P)
    (hscope : scope fromStage = some stages) (hstage : stage ∈ stages) :
    (P.forStage stage).map (·.action) =
      some (if (stages.takeWhile (· ≠ stage) ++ [stage]).all
          (reusable env loadErrors profile checkpoints ·) then .skip else .run) := by
  obtain ⟨pre, post, rfl, hpre⟩ := List.eq_append_cons_of_mem hstage
  have htake : (pre ++ stage :: post).takeWhile (· ≠ stage) = pre := by
    rw [List.takeWhile_append_of_pos, List.takeWhile_cons_of_neg (by simp), List.append_nil]
    intro q hq
    have : q ≠ stage := fun he => hpre (he ▸ hq)
    simpa using this
  rw [htake]
  exact forStage_plan h hscope

/-! ## Exactness -/

/-- A cacheable stage is skipped while it and every cacheable stage before it are current; the
first one that is not, and every stage in scope after it, run. -/
structure Exact (env : Env) (loadErrors : LoadErrors) (profile : Option DocumentProfile)
    (checkpoints : Checkpoints) (stages : List PipelineStage) (P : ExecutionPlan) : Prop where
  skipped : ∀ pre stage post, stages = pre ++ stage :: post → cacheable loadErrors stage = true →
    (∀ q ∈ pre ++ [stage], cacheable loadErrors q = true →
      isCurrent env profile checkpoints q = true) →
    (P.forStage stage).map (·.action) = some .skip
  rerun : ∀ pre stage post, stages = pre ++ stage :: post →
    (∃ q ∈ pre ++ [stage], cacheable loadErrors q = true ∧
      isCurrent env profile checkpoints q = false) →
    (P.forStage stage).map (·.action) = some .run

/-- No stage that cannot be cached is in scope ahead of a cacheable stage that is current, as is
every cacheable stage before it. -/
def NoBarrier (env : Env) (loadErrors : LoadErrors) (profile : Option DocumentProfile)
    (checkpoints : Checkpoints) (stages : List PipelineStage) : Prop :=
  ∀ pre stage post, stages = pre ++ stage :: post → cacheable loadErrors stage = true →
    (∀ q ∈ pre ++ [stage], cacheable loadErrors q = true →
      isCurrent env profile checkpoints q = true) →
    ∀ q ∈ pre, cacheable loadErrors q = true

/-- Planning is exact exactly when no uncacheable stage stands in front of a current one. -/
theorem plan_exact_iff {job : ProcessingJob} {contract : Contract}
    {fromStage : Option PipelineStage} {stages : List PipelineStage} {P : ExecutionPlan}
    (hscope : scope fromStage = some stages)
    (h : plan env loadErrors job contract profile checkpoints fromStage false = .ok P) :
    Exact env loadErrors profile checkpoints stages P ↔
      NoBarrier env loadErrors profile checkpoints stages := by
  constructor
  · intro hex pre stage post hsplit hc hcur q hq
    have hskip := hex.skipped pre stage post hsplit hc hcur
    rw [forStage_plan h (hsplit ▸ hscope)] at hskip
    split at hskip
    · rename_i hall
      have := List.all_eq_true.1 hall q (List.mem_append_left _ hq)
      exact (Bool.and_eq_true_iff.1 this).1
    · cases hskip
  · intro hnb
    refine ⟨fun pre stage post hsplit hc hcur => ?_, fun pre stage post hsplit hst => ?_⟩
    · rw [forStage_plan h (hsplit ▸ hscope), if_pos]
      refine List.all_eq_true.2 fun q hq => Bool.and_eq_true_iff.2 ?_
      have hqc : cacheable loadErrors q = true := by
        rcases List.mem_append.1 hq with hq | hq
        · exact hnb pre stage post hsplit hc hcur q hq
        · rwa [List.mem_singleton.1 hq]
      exact ⟨hqc, hcur q hq hqc⟩
    · rw [forStage_plan h (hsplit ▸ hscope), if_neg]
      obtain ⟨q, hq, -, hstale⟩ := hst
      intro hall
      have := (Bool.and_eq_true_iff.1 (List.all_eq_true.1 hall q hq)).2
      rw [hstale] at this
      cases this

/-- With every handler loaded, the stage that voids the cache is `VALIDATION`, and it does so unless
`PARSER` has to run anyway. -/
theorem noBarrier_iff {fromStage : Option PipelineStage} {stages : List PipelineStage}
    (hscope : scope fromStage = some stages) :
    NoBarrier env [] profile checkpoints stages ↔
      .validation ∉ stages ∨ isCurrent env profile checkpoints .parser = false := by
  have hcache : ∀ q, q ∈ stageOrder → (cacheable [] q = true ↔ q ≠ .validation) := by
    intro q hq
    revert hq
    cases q <;> decide
  have hsub : ∀ q ∈ stages, q ∈ stageOrder := by
    intro q hq
    cases fromStage with
    | none => cases hscope; exact hq
    | some stage =>
      obtain ⟨i, -, rfl⟩ := Option.map_eq_some_iff.1 hscope
      exact List.mem_of_mem_drop hq
  constructor
  · intro hnb
    by_contra hcon
    simp only [not_or, not_not, Bool.not_eq_false] at hcon
    obtain ⟨hv, hp⟩ := hcon
    -- `VALIDATION` is in scope only when the whole order is.
    have hall : stages = [.validation] ++ .parser ::
        [.docpipeline, .extraction, .embedding, .indexing] := by
      cases fromStage with
      | none => cases hscope; rfl
      | some stage => cases stage <;> cases hscope <;> first | rfl | exact absurd hv (by decide)
    refine absurd (hnb _ _ _ hall (by decide) (fun q hq hc => ?_) .validation (by simp))
      (by decide)
    rcases List.mem_cons.1 hq with rfl | hq
    · exact absurd hc (by decide)
    · rwa [List.mem_singleton.1 hq]
  · intro hor pre stage post hsplit hc hcur q hq
    have hqs : q ∈ stages := hsplit ▸ List.mem_append_left _ hq
    refine (hcache q (hsub q hqs)).2 ?_
    rintro rfl
    rcases hor with hv | hp
    · exact hv hqs
    · -- `PARSER` follows `VALIDATION` at once, so it is at or before `stage`.
      have hparser : .parser ∈ pre ++ [stage] := by
        have hall : stages = stageOrder := by
          cases fromStage with
          | none => cases hscope; rfl
          | some s => cases s <;> cases hscope <;> first | rfl | exact absurd hqs (by decide)
        rw [hall] at hsplit
        match pre, hq, hsplit with
        | [_], _, hsplit => simp_all [stageOrder]
        | _ :: _ :: _, _, hsplit => simp_all [stageOrder]
      have := hcur .parser hparser (by decide)
      rw [hp] at this
      cases this

def stamped (env : Env) (profile : Option DocumentProfile) : Checkpoints := fun stage =>
  some
    { id := 100, jobId := 10, contractId := 1, projectId := 2, stage
      status := .succeeded
      versions := (versionsFor env stage profile).modelDump }

theorem stamped_isCurrent {stage : PipelineStage} :
    isCurrent env profile (stamped env profile) stage = true :=
  ComponentVersions.matchesDict_modelDump _

/-- Resuming at `PARSER` with every checkpoint current, planning is exact. -/
theorem plan_exact_after_validation :
    ∃ P, plan {} [] { id := 11, contractId := 1, projectId := 2 } { id := 1, projectId := 2 } none
        (stamped {} none) (some .parser) false = .ok P ∧
      (Exact {} [] none (stamped {} none)
          [.parser, .docpipeline, .extraction, .embedding, .indexing] P ↔
        NoBarrier {} [] none (stamped {} none)
          [.parser, .docpipeline, .extraction, .embedding, .indexing]) := by
  obtain ⟨P, hP⟩ : ∃ P, plan {} [] { id := 11, contractId := 1, projectId := 2 }
      { id := 1, projectId := 2 } none (stamped {} none) (some .parser) false = .ok P := ⟨_, rfl⟩
  exact ⟨P, hP, plan_exact_iff rfl hP⟩

/-- A full plan runs every stage although every checkpoint is current. -/
theorem full_plan_reruns :
    ∃ P, plan {} [] { id := 11, contractId := 1, projectId := 2 } { id := 1, projectId := 2 } none
        (stamped {} none) none false = .ok P ∧
      P.runnable = stageOrder ∧ ¬ Exact {} [] none (stamped {} none) stageOrder P := by
  obtain ⟨P, hP⟩ : ∃ P, plan {} [] { id := 11, contractId := 1, projectId := 2 }
      { id := 1, projectId := 2 } none (stamped {} none) none false = .ok P := ⟨_, rfl⟩
  have hscope : scope none = some ([.validation] ++ .parser ::
      [.docpipeline, .extraction, .embedding, .indexing]) := rfl
  have hrun : (P.forStage .parser).map (·.action) = some .run := by
    rw [forStage_plan hP hscope, if_neg]
    decide
  refine ⟨P, hP, ?_, fun h => ?_⟩
  · obtain ⟨stages, hs, hstages⟩ := plan_ok hP
    cases hs
    have hall : ∀ p ∈ P.stages, p.shouldRun = true := by
      intro p hp
      rw [hstages] at hp
      simpa [PlannedStage.shouldRun] using planStages_all_run (by decide) hp
    rw [ExecutionPlan.runnable, List.filter_eq_self.2 hall, hstages, planStages_map_stage]
  · have := h.skipped [.validation] .parser _ rfl (by decide) fun q hq hc => stamped_isCurrent
    rw [hrun] at this
    cases this

/-! ## A profile change -/

def StampedUnder (env : Env) (profile : DocumentProfile) (checkpoints : Checkpoints)
    (stage : PipelineStage) : Prop :=
  ∃ checkpoint, checkpoints stage = some checkpoint ∧
    checkpoint.versions = (versionsFor env stage (some profile)).modelDump

theorem versionsFor_extraction (p p' : Option DocumentProfile) :
    versionsFor env .extraction p = versionsFor env .extraction p' := by
  simp only [versionsFor, currentVersionsForStage]

theorem isCurrent_extraction {p p' : DocumentProfile}
    (h : StampedUnder env p checkpoints .extraction) :
    isCurrent env (some p') checkpoints .extraction = true := by
  obtain ⟨checkpoint, hc, hv⟩ := h
  rw [isCurrent, hc]
  dsimp only
  rw [hv, versionsFor_extraction (some p') (some p)]
  exact ComponentVersions.matchesDict_modelDump _

/-- Planning under the profile `p'` skips an extraction stamped under `p`, whatever the two are,
unless `EXTRACTION` is out of scope, cannot be cached, or has a stage in front of it that runs. -/
theorem extraction_rerun_iff {p p' : DocumentProfile} {job : ProcessingJob} {contract : Contract}
    {fromStage : Option PipelineStage} {stages : List PipelineStage} {P : ExecutionPlan}
    (hstamp : StampedUnder env p checkpoints .extraction) (hscope : scope fromStage = some stages)
    (h : plan env loadErrors job contract (some p') checkpoints fromStage false = .ok P) :
    (P.forStage .extraction).map (·.action) ≠ some .skip ↔
      .extraction ∉ stages ∨ cacheable loadErrors .extraction = false ∨
        ∃ q ∈ stages.takeWhile (· ≠ .extraction),
          reusable env loadErrors (some p') checkpoints q = false := by
  by_cases hin : .extraction ∈ stages
  · have hself : reusable env loadErrors (some p') checkpoints .extraction =
        cacheable loadErrors .extraction := by
      rw [reusable, isCurrent_extraction hstamp, Bool.and_true]
    rw [forStage_plan_mem h hscope hin, List.all_append, List.all_cons, List.all_nil, hself]
    cases hc : cacheable loadErrors .extraction <;>
      cases hall : (stages.takeWhile (· ≠ .extraction)).all
        (reusable env loadErrors (some p') checkpoints ·) <;>
      simp_all
  · simp [forStage_none h hscope hin, hin]

def ndaProfile (version : String) : DocumentProfile := { id := 7, key := "nda", version }

theorem stamped_under (profile : DocumentProfile) (stage : PipelineStage) :
    StampedUnder env profile (stamped env (some profile)) stage := ⟨_, rfl, rfl⟩

/-- Resuming at `DOCPIPELINE` under profile version 2 with checkpoints of version 1. -/
theorem extraction_rerun_from_docpipeline :
    ∃ P, plan {} [] { id := 11, contractId := 1, projectId := 2 } { id := 1, projectId := 2 }
        (some (ndaProfile "2")) (stamped {} (some (ndaProfile "1"))) (some .docpipeline) false =
          .ok P ∧
      ((P.forStage .extraction).map (·.action) ≠ some .skip ↔
        .extraction ∉ [PipelineStage.docpipeline, .extraction, .embedding, .indexing] ∨
          cacheable [] .extraction = false ∨
          ∃ q ∈ [PipelineStage.docpipeline, .extraction, .embedding, .indexing].takeWhile
              (· ≠ .extraction),
            reusable {} [] (some (ndaProfile "2")) (stamped {} (some (ndaProfile "1"))) q =
              false) := by
  obtain ⟨P, hP⟩ : ∃ P, plan {} [] { id := 11, contractId := 1, projectId := 2 }
      { id := 1, projectId := 2 } (some (ndaProfile "2")) (stamped {} (some (ndaProfile "1")))
      (some .docpipeline) false = .ok P := ⟨_, rfl⟩
  exact ⟨P, hP, extraction_rerun_iff (stamped_under _ _) rfl hP⟩

/-- Resuming at `EXTRACTION` under profile version 2, what version 1 extracted is reused. -/
theorem extraction_reused_across_profiles :
    ndaProfile "1" ≠ ndaProfile "2" ∧
      StampedUnder {} (ndaProfile "1") (stamped {} (some (ndaProfile "1"))) .extraction ∧
      ∃ P, plan {} [] { id := 11, contractId := 1, projectId := 2 } { id := 1, projectId := 2 }
          (some (ndaProfile "2")) (stamped {} (some (ndaProfile "1"))) (some .extraction) false =
            .ok P ∧
        (P.forStage .extraction).map (·.action) = some .skip := by
  obtain ⟨P, hP⟩ : ∃ P, plan {} [] { id := 11, contractId := 1, projectId := 2 }
      { id := 1, projectId := 2 } (some (ndaProfile "2")) (stamped {} (some (ndaProfile "1")))
      (some .extraction) false = .ok P := ⟨_, rfl⟩
  have hscope : scope (some .extraction) =
      some ([] ++ .extraction :: [.embedding, .indexing]) := rfl
  refine ⟨fun h => ?_, stamped_under _ _, P, hP, ?_⟩
  · exact absurd (congrArg DocumentProfile.version h) (by decide)
  · rw [forStage_plan hP hscope, if_pos]
    rw [List.nil_append, List.all_cons, List.all_nil, Bool.and_true, reusable,
      isCurrent_extraction (stamped_under _ _)]
    decide

end Workflow

end Clear
