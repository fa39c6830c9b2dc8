import Clear.Lib.Except
import Clear.Orchestrator.Proof.Planning

/-!
# The shape of a plan

A plan lists the stages from some position of the execution order on, and behind a stage that runs
every stage runs (`WellFormed`). In a well-formed plan `next_after` names the following stage exactly
when the plan runs it (`WellFormed.nextAfter_following`).
-/

namespace Clear

/-! ## Positions -/

theorem stageOrder_nodup : stageOrder.Nodup := by decide

theorem stageIndex_iff {stage : PipelineStage} {i : Nat} :
    stageIndex stage = some i ↔ stageOrder[i]? = some stage := by
  rw [stageIndex, List.idxOf?_eq_some_iff, List.getElem?_eq_some_iff]
  refine exists_congr fun hi => and_iff_left_of_imp fun hget j hj hjget => ?_
  exact absurd (stageOrder_nodup.getElem_inj_iff.1 (hjget.trans hget.symm)) (Nat.ne_of_lt hj)

def following (stage : PipelineStage) : Option PipelineStage :=
  (stageIndex stage).bind fun i => stageOrder[i + 1]?

theorem following_eq {stage : PipelineStage} {i : Nat} (h : stageIndex stage = some i) :
    following stage = stageOrder[i + 1]? := by
  rw [following, h]
  rfl

theorem stagesFrom_eq {stage : PipelineStage} {i : Nat} (h : stageIndex stage = some i) :
    stagesFrom stage = some (stage :: stageOrder.drop (i + 1)) := by
  obtain ⟨hi, hget⟩ := List.getElem?_eq_some_iff.1 (stageIndex_iff.1 h)
  rw [stagesFrom, h, Option.map_some, List.drop_eq_getElem_cons hi, hget]

theorem stagesFrom_following {stage : PipelineStage} {i : Nat} (h : stageIndex stage = some i) :
    stagesFrom stage = some (stage ::
      ((following stage).bind stagesFrom).getD []) := by
  rw [stagesFrom_eq h, following_eq h]
  cases hnext : stageOrder[i + 1]? with
  | none => rw [List.drop_eq_nil_of_le (List.getElem?_eq_none_iff.1 hnext)]; rfl
  | some next =>
    obtain ⟨hi, hget⟩ := List.getElem?_eq_some_iff.1 hnext
    rw [Option.bind_some, stagesFrom_eq (stageIndex_iff.2 hnext), Option.getD_some,
      List.drop_eq_getElem_cons hi, hget]

/-! ## Well-formed plans -/

structure WellFormed (stages : List PlannedStage) : Prop where
  order : ∃ n, stages.map (·.stage) = stageOrder.drop n
  runs : stages.Pairwise fun p q => p.action = .run → q.action = .run

namespace WellFormed

variable {stages : List PlannedStage}

theorem nil : WellFormed [] := ⟨⟨6, rfl⟩, .nil⟩

theorem nodup (h : WellFormed stages) : (stages.map (·.stage)).Nodup := by
  obtain ⟨n, hn⟩ := h.order
  rw [hn]
  exact stageOrder_nodup.sublist (List.drop_sublist _ _)

theorem find (h : WellFormed stages) {p : PlannedStage} (hp : p ∈ stages) :
    stages.find? (·.stage = p.stage) = some p := Keyed.find_of_mem h.nodup hp

theorem runs_behind (h : WellFormed stages) {i j : Nat} (hi : i < stages.length)
    (hj : j < stages.length) (hij : i ≤ j) (hrun : stages[i].action = .run) :
    stages[j].action = .run := by
  rcases Nat.eq_or_lt_of_le hij with rfl | hlt
  · exact hrun
  · exact List.pairwise_iff_getElem.1 h.runs i j hi hj hlt hrun

theorem index_getElem {n k : Nat} (hn : stages.map (·.stage) = stageOrder.drop n)
    (hk : k < stages.length) : stageIndex stages[k].stage = some (n + k) := by
  rw [stageIndex_iff, ← List.getElem?_drop, ← hn, List.getElem?_map, List.getElem?_eq_getElem hk]
  rfl

theorem exists_entry {n i : Nat} {stage : PipelineStage}
    (hn : stages.map (·.stage) = stageOrder.drop n) (hi : stageIndex stage = some i)
    (hle : n ≤ i) : ∃ hk : i - n < stages.length, stages[i - n].stage = stage := by
  have hget : (stages.map (·.stage))[i - n]? = some stage := by
    rw [hn, List.getElem?_drop, Nat.add_sub_cancel' hle]
    exact stageIndex_iff.1 hi
  obtain ⟨hk, hstage⟩ := List.getElem?_eq_some_iff.1 hget
  rw [List.length_map] at hk
  exact ⟨hk, by simpa using hstage⟩

theorem find_getElem (h : WellFormed stages) {k : Nat} (hk : k < stages.length) :
    stages.find? (·.stage = stages[k].stage) = some stages[k] := h.find (List.getElem_mem hk)

end WellFormed

theorem WellFormed.index_of_entry {P : ExecutionPlan} {stage : PipelineStage}
    {action : StageAction} (h : WellFormed P.stages)
    (hentry : (P.forStage stage).map (·.action) = some action) :
    ∃ i, stageIndex stage = some i := by
  obtain ⟨p, hp, -⟩ := Option.map_eq_some_iff.1 hentry
  have hstage : p.stage = stage := by simpa using List.find?_some hp
  obtain ⟨k, hk, rfl⟩ := List.getElem_of_mem (List.mem_of_find?_eq_some hp)
  obtain ⟨n, hn⟩ := h.order
  exact ⟨n + k, hstage ▸ index_getElem hn hk⟩

variable {P : ExecutionPlan} {stage next : PipelineStage} {i : Nat}

/-! ## What is dispatched -/

def dispatchable (i : Nat) (item : PlannedStage) : Bool :=
  match stagePosition item.stage with
  | none => false
  | some index => i < index && item.shouldRun

theorem dispatchable_iff {item : PlannedStage} :
    dispatchable i item = true ↔
      ∃ j, stageIndex item.stage = some j ∧ i < j ∧ item.action = .run := by
  unfold dispatchable
  rw [show stagePosition item.stage = stageIndex item.stage from rfl]
  cases stageIndex item.stage <;> simp [PlannedStage.shouldRun]

theorem nextAfter_eq (hi : stageIndex stage = some i) :
    Workflow.nextAfter P stage = (P.stages.find? (dispatchable i)).map (·.stage) := by
  unfold Workflow.nextAfter
  rw [hi]
  rfl

theorem nextAfter_some (h : Workflow.nextAfter P stage = some next) :
    ∃ i j, stageIndex stage = some i ∧ stageIndex next = some j ∧ i < j := by
  cases hi : stageIndex stage with
  | none =>
    rw [Workflow.nextAfter, hi] at h
    cases h
  | some i =>
    rw [nextAfter_eq hi] at h
    obtain ⟨p, hp, rfl⟩ := Option.map_eq_some_iff.1 h
    obtain ⟨j, hj, hij, -⟩ := dispatchable_iff.1 (List.find?_some hp)
    exact ⟨i, j, rfl, hj, hij⟩

theorem nextAfter_last (hi : stageIndex stage = some i) (hlast : following stage = none) :
    Workflow.nextAfter P stage = none := by
  rw [following_eq hi, List.getElem?_eq_none_iff] at hlast
  rw [nextAfter_eq hi]
  refine Option.map_eq_none_iff.2 (List.find?_eq_none.2 fun item _ hitem => ?_)
  obtain ⟨j, hj, hij, -⟩ := dispatchable_iff.1 hitem
  obtain ⟨hlt, -⟩ := List.getElem?_eq_some_iff.1 (stageIndex_iff.1 hj)
  omega

theorem WellFormed.forStage_run (h : WellFormed P.stages) (hi : stageIndex stage = some i)
    (hrun : (P.forStage stage).map (·.action) = some .run) :
    ∃ n k, P.stages.map (·.stage) = stageOrder.drop n ∧ i = n + k ∧
      ∃ hk : k < P.stages.length, P.stages[k].stage = stage ∧ P.stages[k].action = .run := by
  unfold ExecutionPlan.forStage at hrun
  obtain ⟨p, hp, hprun⟩ := Option.map_eq_some_iff.1 hrun
  have hstage : p.stage = stage := by simpa using List.find?_some hp
  obtain ⟨k, hk, rfl⟩ := List.getElem_of_mem (List.mem_of_find?_eq_some hp)
  obtain ⟨n, hn⟩ := h.order
  have hindex := index_getElem hn hk
  rw [hstage, hi] at hindex
  exact ⟨n, k, hn, Option.some.inj hindex, hk, hstage, hprun⟩

theorem WellFormed.nextAfter_following (h : WellFormed P.stages) (hi : stageIndex stage = some i)
    (hnext : following stage = some next) :
    Workflow.nextAfter P stage = some next ↔
      (P.forStage next).map (·.action) = some .run := by
  rw [following_eq hi] at hnext
  have hnextIndex := stageIndex_iff.2 hnext
  rw [nextAfter_eq hi]
  constructor
  · intro hfind
    obtain ⟨p, hp, rfl⟩ := Option.map_eq_some_iff.1 hfind
    obtain ⟨-, -, -, hrun⟩ := dispatchable_iff.1 (List.find?_some hp)
    rw [ExecutionPlan.forStage, h.find (List.mem_of_find?_eq_some hp), Option.map_some, hrun]
  · intro hrun
    obtain ⟨n, k, hn, hik, hk, hstage, haction⟩ := h.forStage_run hnextIndex hrun
    refine Option.map_eq_some_iff.2
      ⟨_, List.find?_eq_some_iff_getElem.2 ⟨?_, k, hk, rfl, fun j hj => ?_⟩, hstage⟩
    · exact dispatchable_iff.2 ⟨i + 1, hstage ▸ hnextIndex, Nat.lt_succ_self i, haction⟩
    · rw [Bool.not_eq_true', ← Bool.not_eq_true, dispatchable_iff]
      rintro ⟨l, hl, hil, -⟩
      rw [index_getElem hn (hj.trans hk), Option.some.injEq] at hl
      omega

/-- A stage between the one that completed and the one dispatched is not run by the plan; if nothing
is dispatched, no later stage is. -/
theorem WellFormed.nextAfter_passed (h : WellFormed P.stages) {passed : PipelineStage} {j : Nat}
    (hi : stageIndex stage = some i) (hj : stageIndex passed = some j) (hij : i < j)
    (hbefore : ∀ next k, Workflow.nextAfter P stage = some next → stageIndex next = some k → j < k) :
    (P.forStage passed).map (·.action) ≠ some .run := by
  intro hrun
  obtain ⟨n, k, hn, rfl, hk, hstage, haction⟩ := h.forStage_run hj hrun
  have hcandidate : dispatchable i P.stages[k] = true :=
    dispatchable_iff.2 ⟨n + k, index_getElem hn hk, hij, haction⟩
  rw [nextAfter_eq hi] at hbefore
  cases hfind : P.stages.find? (dispatchable i) with
  | none => exact List.find?_eq_none.1 hfind _ (List.getElem_mem hk) hcandidate
  | some p =>
    obtain ⟨-, l, hl, rfl, hearlier⟩ := List.find?_eq_some_iff_getElem.1 hfind
    have hlt := hbefore _ _ (congrArg (Option.map (·.stage)) hfind) (index_getElem hn hl)
    have := hearlier k (by omega)
    rw [hcandidate] at this
    cases this

theorem WellFormed.runs_following (h : WellFormed P.stages) (hi : stageIndex stage = some i)
    (hnext : following stage = some next)
    (hrun : (P.forStage stage).map (·.action) = some .run) :
    (P.forStage next).map (·.action) = some .run := by
  rw [following_eq hi] at hnext
  obtain ⟨n, k, hn, hik, hk, -, hprun⟩ := h.forStage_run hi hrun
  obtain ⟨hk', hnextStage⟩ := exists_entry hn (stageIndex_iff.2 hnext) (by omega)
  rw [ExecutionPlan.forStage, ← hnextStage, h.find_getElem hk', Option.map_some]
  exact congrArg some (h.runs_behind hk hk' (by omega) hprun)

/-! ## Plans of the planner -/

theorem planStages_pairwise {env : Env} {loadErrors : LoadErrors}
    {profile : Option DocumentProfile} {checkpoints : Checkpoints} {up : Bool}
    {scope : List PipelineStage} :
    (Workflow.planStages env loadErrors profile checkpoints false up scope).Pairwise
      fun p q => p.action = .run → q.action = .run := by
  induction scope generalizing up with
  | nil => exact .nil
  | cons stage rest ih =>
    rw [Workflow.planStages_cons]
    refine List.pairwise_cons.2 ⟨fun q hq hrun => ?_, ih⟩
    rw [Workflow.planNext_action] at hrun
    split at hrun
    next hup =>
      rw [hup] at hq
      exact Workflow.planStages_run hq
    next => cases hrun

theorem plan_wellFormed {env : Env} {loadErrors : LoadErrors} {job : ProcessingJob}
    {contract : Contract} {profile : Option DocumentProfile} {checkpoints : Checkpoints}
    {fromStage : Option PipelineStage}
    (h : Workflow.plan env loadErrors job contract profile checkpoints fromStage false = .ok P) :
    WellFormed P.stages := by
  obtain ⟨stages, hscope, hP⟩ := Workflow.plan_ok h
  refine ⟨?_, hP ▸ planStages_pairwise⟩
  rw [hP, Workflow.planStages_map_stage]
  cases fromStage with
  | none =>
    cases hscope
    exact ⟨0, rfl⟩
  | some stage =>
    obtain ⟨n, -, rfl⟩ := Option.map_eq_some_iff.1 hscope
    exact ⟨n, rfl⟩

theorem full_plan_runs {env : Env} {loadErrors : LoadErrors} {job : ProcessingJob}
    {contract : Contract} {profile : Option DocumentProfile} {checkpoints : Checkpoints}
    (h : Workflow.plan env loadErrors job contract profile checkpoints none false = .ok P)
    (hi : stageIndex stage = some i) : (P.forStage stage).map (·.action) = some .run := by
  have hmem : stage ∈ stageOrder := List.mem_of_getElem? (stageIndex_iff.1 hi)
  rw [Workflow.forStage_plan_mem h rfl hmem, if_neg]
  intro hall
  have hvalidation : PipelineStage.validation ∈ stageOrder.takeWhile (· ≠ stage) ++ [stage] := by
    revert hmem
    cases stage <;> decide
  rw [List.all_eq_true] at hall
  exact absurd (hall _ hvalidation) (by rw [Workflow.reusable_validation]; decide)

end Clear
