import Clear.Repositories.Jobs

/-!
# The two checkpoint lookups

`checkpoint` orders the successful runs of a stage by finish time, `checkpoints` by attempt number,
and attempts restart at 1 in every job. Over every admissible answer of the database the lookups
name the same run, the one that finished last, exactly when the runs of the stage have a newest
attempt: one that no other attempt number reaches and that no other run outlasts
(`lookupsAgree_iff`).
-/

namespace Clear

namespace RunTable

open Sql

/-! ## Statements -/

def IsLatest (t : RunTable) (contractId : Uuid) (stage : PipelineStage) (r : JobStageRun) :
    Prop :=
  r ∈ t.successes contractId stage ∧
    ∀ r' ∈ t.successes contractId stage, (OrderBy.descNullsLast (·.finishedAt)).le r r' = true

def LookupsAgree (t : RunTable) (contractId : Uuid) (stage : PipelineStage) : Prop :=
  ∀ db db' : Engine JobStageRun,
    checkpoints db t contractId stage = checkpoint db' t contractId stage ∧
      ∀ r, checkpoint db' t contractId stage = some r → t.IsLatest contractId stage r

/-- The stage never succeeded, or one successful run has the strictly highest attempt number and
none finished later. -/
def NewestAttempt (t : RunTable) (contractId : Uuid) (stage : PipelineStage) : Prop :=
  t.successes contractId stage = [] ∨
    ∃ r, t.IsLatest contractId stage r ∧
      ∀ r' ∈ t.successes contractId stage, r' ≠ r → r'.attempt < r.attempt

/-! ## What the lookups can return -/

variable {t : RunTable} {contractId : Uuid} {stage : PipelineStage} {r : JobStageRun}

theorem filter_stage :
    (t.rows.filter fun r => r.contractId = contractId ∧ r.status = .succeeded).filter
      (fun r => r.stage = stage) = t.successes contractId stage := by
  rw [List.filter_filter, successes]
  refine List.filter_congr fun r _ => ?_
  simp only [JobStageRun.isCheckpoint]
  by_cases h1 : r.contractId = contractId <;> by_cases h2 : r.stage = stage <;> simp [h1, h2]

theorem checkpoints_eq (db : Engine JobStageRun) :
    checkpoints db t contractId stage =
      ((db.select byAttempt (t.rows.filter fun r =>
        r.contractId = contractId ∧ r.status = .succeeded)).filter
          fun r => r.stage = stage).getLast? := by
  rw [checkpoints, foldl_update, Option.or_none]

/-- `checkpoint` can return the runs that come first by finish time and attempt. -/
theorem exists_checkpoint_iff :
    (∃ db, checkpoint db t contractId stage = some r) ↔
      r ∈ t.successes contractId stage ∧
        ∀ r' ∈ t.successes contractId stage, byFinish.le r r' = true :=
  exists_head_iff

/-- `checkpoints` can return the runs of highest attempt. -/
theorem exists_checkpoints_iff :
    (∃ db, checkpoints db t contractId stage = some r) ↔
      r ∈ t.successes contractId stage ∧
        ∀ r' ∈ t.successes contractId stage, r'.attempt ≤ r.attempt := by
  have hmem : ∀ q, q ∈ t.successes contractId stage ↔
      q ∈ (t.rows.filter fun r => r.contractId = contractId ∧ r.status = .succeeded) ∧
        decide (q.stage = stage) = true := fun q => by
    rw [← filter_stage, List.mem_filter]
  simp only [checkpoints_eq, exists_last_iff, byAttempt, OrderBy.asc_le, hmem]
  tauto

theorem checkpoint_isLatest {db : Engine JobStageRun}
    (h : checkpoint db t contractId stage = some r) : t.IsLatest contractId stage r := by
  obtain ⟨hr, hle⟩ := exists_checkpoint_iff.1 ⟨db, h⟩
  exact ⟨hr, fun r' hr' => (OrderBy.thenBy_le.1 (hle r' hr')).1⟩

theorem checkpoint_none {db : Engine JobStageRun} :
    checkpoint db t contractId stage = none ↔ t.successes contractId stage = [] :=
  (db.answers _ _).head_none

theorem checkpoints_none {db : Engine JobStageRun} :
    checkpoints db t contractId stage = none ↔ t.successes contractId stage = [] := by
  rw [checkpoints_eq, List.getLast?_eq_none_iff, List.filter_eq_nil_iff, ← filter_stage,
    List.filter_eq_nil_iff]
  exact forall_congr' fun r => by rw [Engine.mem_select]

theorem exists_highest (h : t.successes contractId stage ≠ []) :
    ∃ r ∈ t.successes contractId stage,
      ∀ r' ∈ t.successes contractId stage, r'.attempt ≤ r.attempt := by
  have : checkpoints .stable t contractId stage ≠ none := fun hn => h (checkpoints_none.1 hn)
  obtain ⟨r, hr⟩ := Option.ne_none_iff_exists'.1 this
  obtain ⟨hr, hle⟩ := exists_checkpoints_iff.1 ⟨_, hr⟩
  exact ⟨r, hr, hle⟩

/-! ## Agreement -/

theorem NewestAttempt.agree (h : t.NewestAttempt contractId stage) :
    t.LookupsAgree contractId stage := by
  intro db db'
  refine ⟨?_, fun r hr => checkpoint_isLatest hr⟩
  rcases h with h | ⟨r, ⟨hr, hlatest⟩, hmax⟩
  · rw [checkpoints_none.2 h, checkpoint_none.2 h]
  have hne : t.successes contractId stage ≠ [] := List.ne_nil_of_mem hr
  -- Any run of highest attempt is `r`.
  have hbulk : checkpoints db t contractId stage = some r := by
    cases hc : checkpoints db t contractId stage with
    | none => exact absurd (checkpoints_none.1 hc) hne
    | some q =>
      obtain ⟨hq, hle⟩ := exists_checkpoints_iff.1 ⟨db, hc⟩
      by_contra hqr
      have := hmax q hq fun h => hqr (by rw [h])
      have := hle r hr
      omega
  -- Any run that finished last ties with `r`, and `r` wins the tie.
  have hsingle : checkpoint db' t contractId stage = some r := by
    cases hc : checkpoint db' t contractId stage with
    | none => exact absurd (checkpoint_none.1 hc) hne
    | some q =>
      obtain ⟨hq, hle⟩ := exists_checkpoint_iff.1 ⟨db', hc⟩
      by_contra hqr
      have hlt := hmax q hq fun h => hqr (by rw [h])
      have htie := (OrderBy.thenBy_le.1 (hle r hr)).2 (hlatest q hq)
      rw [OrderBy.desc_le] at htie
      omega
  rw [hbulk, hsingle]

theorem LookupsAgree.newest (h : t.LookupsAgree contractId stage) :
    t.NewestAttempt contractId stage := by
  by_cases hs : t.successes contractId stage = []
  · exact .inl hs
  refine .inr ?_
  obtain ⟨r, hr⟩ : ∃ r, checkpoint .stable t contractId stage = some r :=
    Option.ne_none_iff_exists'.1 fun hn => hs (checkpoint_none.1 hn)
  refine ⟨r, checkpoint_isLatest hr, fun r' hr' hne => ?_⟩
  -- Every run of highest attempt is a possible bulk answer, hence is `r`.
  have huniq : ∀ q ∈ t.successes contractId stage,
      (∀ q' ∈ t.successes contractId stage, q'.attempt ≤ q.attempt) → q = r := by
    intro q hq hmax
    obtain ⟨db, hdb⟩ := exists_checkpoints_iff.2 ⟨hq, hmax⟩
    have := (h db .stable).1
    rw [hdb, hr] at this
    exact Option.some.inj this
  obtain ⟨m, hm, hmax⟩ := exists_highest hs
  obtain rfl := huniq m hm hmax
  by_contra hlt
  exact hne (huniq r' hr' fun q hq => by have := hmax q hq; omega)

/-- The two lookups agree on the latest successful run exactly when that run alone has the highest
attempt number. -/
theorem lookupsAgree_iff (t : RunTable) (contractId : Uuid) (stage : PipelineStage) :
    t.LookupsAgree contractId stage ↔ t.NewestAttempt contractId stage :=
  ⟨LookupsAgree.newest, NewestAttempt.agree⟩

/-- Contract 1 is parsed by job 10 at its second attempt, then again by job 11 at its first. -/
def reparsed : List Write :=
  [.start 100 10 1 2 .parser none none {} 10,
    .finish 100 .failed none [] (some { code := "parser_error", message := "Parsing failed." }) 20,
    .start 101 10 1 2 .parser none none {} 30,
    .finish 101 .succeeded none [] none 40,
    .start 102 11 1 2 .parser none none {} 50,
    .finish 102 .succeeded none [] none 60]

/-- The bulk lookup names the parse of job 10, the single lookup the later one of job 11. -/
theorem lookups_disagree :
    ∃ t, history.Reach t ∧ (checkpoints .stable t 1 .parser).map (·.jobId) = some 10 ∧
      (checkpoint .stable t 1 .parser).map (·.jobId) = some 11 ∧
      ¬ t.LookupsAgree 1 .parser := by
  have hrun : (history.exec empty reparsed).isSome = true := by decide
  have hbulk : ((history.exec empty reparsed).bind fun t =>
      (checkpoints .stable t 1 .parser).map (·.jobId)) = some 10 := by decide
  have hsingle : ((history.exec empty reparsed).bind fun t =>
      (checkpoint .stable t 1 .parser).map (·.jobId)) = some 11 := by decide
  obtain ⟨t, ht⟩ := Option.isSome_iff_exists.1 hrun
  rw [ht, Option.bind_some] at hbulk hsingle
  refine ⟨t, Machine.reach_of_exec rfl ht, hbulk, hsingle, fun h => ?_⟩
  rw [(h .stable .stable).1, hsingle] at hbulk
  exact absurd hbulk (by decide)

end RunTable

end Clear
