import Clear.Ai.Extraction.ClauseRules
import Clear.Lib.Except

/-!
# What the risk score says

Adding a risk never lowers the score, the worst severity decides the least band, and the breakdown
accounts for every point of it. The floor of a severity is one above a threshold, and it is not
clamped.

* `scoreLaw_iff`: the score keeps its bounds unless a threshold is 100 and a risk is floored above it.
-/

namespace Clear

namespace RiskAssessor

/-- Every risk contributes at most the whole scale: `assess` gives each at most 40. -/
def Weighed (risks : List ExtractedRisk) : Prop := ∀ r ∈ risks, r.scoreContribution ≤ 100

structure ScoreLaw (lowMax mediumMax : Int) (risks : List ExtractedRisk) : Prop where
  bounded : 0 ≤ (score lowMax mediumMax risks).1 ∧ (score lowMax mediumMax risks).1 ≤ 100
  monotone : ∀ (r : ExtractedRisk) (more : List ExtractedRisk), r.scoreContribution ≤ 100 →
    more.Perm (r :: risks) → (score lowMax mediumMax risks).1 ≤ (score lowMax mediumMax more).1
  banded : ∀ std general mandatory weights clauses modelRisks assessment,
    (build std general mandatory weights lowMax mediumMax).assess std clauses modelRisks =
        .ok assessment →
      assessment.risks = risks → assessment.score = (score lowMax mediumMax risks).1 ∧
        assessment.band = bandOf lowMax mediumMax assessment.score
  critical : (∃ r ∈ risks, r.severity = .critical) →
    bandOf lowMax mediumMax (score lowMax mediumMax risks).1 = .high
  high : (∃ r ∈ risks, r.severity = .high) →
    bandOf lowMax mediumMax (score lowMax mediumMax risks).1 ≠ .low
  decomposed : ∃ (raise : Int) (floorEntries : List ValueDict),
    (score lowMax mediumMax risks).1 = Rounding.halfEven (applied risks).sum + raise ∧
      (score lowMax mediumMax risks).2 =
        (ordered risks).zipWith riskEntry (applied risks) ++ floorEntries ∧
      (raise = 0 ∧ floorEntries = [] ∨ ∃ entry, floorEntries = [entry] ∧
        Value.get entry "risk_type" = .str "severity_floor" ∧
        Value.get entry "applied" = .float raise)

/-! ## The score as a maximum -/

section

variable {lowMax mediumMax : Int} {risks more : List ExtractedRisk}

theorem ordered_perm (risks : List ExtractedRisk) : (ordered risks).Perm risks :=
  List.mergeSort_perm _ _

theorem share_bounds {r : ExtractedRisk} (h : r.scoreContribution ≤ 100) :
    0 ≤ share r ∧ share r ≤ 1 := by
  have hcast : (r.scoreContribution : Rat) ≤ 100 := by exact_mod_cast h
  have hpos : (0 : Rat) ≤ r.scoreContribution := Nat.cast_nonneg _
  unfold share
  constructor <;> linarith

theorem shares_bounds (h : Weighed risks) : ∀ s ∈ risks.map share, 0 ≤ s ∧ s ≤ 1 := by
  intro s hs
  obtain ⟨r, hr, rfl⟩ := List.mem_map.1 hs
  exact share_bounds (h r hr)

theorem rest_ordered (risks : List ExtractedRisk) :
    Headroom.rest 100 ((ordered risks).map share) = Headroom.rest 100 (risks.map share) :=
  Headroom.rest_perm 100 ((ordered_perm risks).map share)

theorem saturated_eq (h : Weighed risks) :
    saturated risks = Rounding.halfEven (100 - Headroom.rest 100 (risks.map share)) := by
  have hbounds := shares_bounds h
  have hnonneg : 0 ≤ Headroom.rest 100 (risks.map share) :=
    Headroom.rest_nonneg (by norm_num) fun s hs => (hbounds s hs).2
  have hle : Headroom.rest 100 (risks.map share) ≤ 100 :=
    Headroom.rest_le (by norm_num) hbounds
  have hlow : 0 ≤ Rounding.halfEven (100 - Headroom.rest 100 (risks.map share)) :=
    Rounding.le_halfEven (by push_cast; linarith)
  have hhigh : Rounding.halfEven (100 - Headroom.rest 100 (risks.map share)) ≤ 100 :=
    Rounding.halfEven_le (by push_cast; linarith)
  unfold saturated
  rw [rest_ordered]
  omega

theorem saturated_bounds (risks : List ExtractedRisk) :
    0 ≤ saturated risks ∧ saturated risks ≤ 100 := by
  unfold saturated
  omega

theorem severityFloor_perm (h : risks.Perm more) :
    severityFloor lowMax mediumMax risks = severityFloor lowMax mediumMax more := by
  unfold severityFloor
  rw [h.any_eq, h.any_eq]

theorem score_eq (lowMax mediumMax : Int) (risks : List ExtractedRisk) :
    (score lowMax mediumMax risks).1 =
      max (saturated risks) (severityFloor lowMax mediumMax risks).1 := by
  unfold score
  rw [severityFloor_perm (ordered_perm risks)]
  dsimp only
  split <;> dsimp only <;> omega

/-! ## The floor -/

theorem any_severity (risks : List ExtractedRisk) (severity : RiskSeverity) :
    (risks.any fun r => decide (r.severity = severity)) = true ↔
      ∃ r ∈ risks, r.severity = severity := by
  rw [List.any_eq_true]
  simp only [decide_eq_true_eq]

theorem severityFloor_critical (h : ∃ r ∈ risks, r.severity = .critical) :
    (severityFloor lowMax mediumMax risks).1 = mediumMax + 1 := by
  unfold severityFloor
  rw [if_pos ((any_severity risks .critical).2 h)]

theorem severityFloor_high (h : ∃ r ∈ risks, r.severity = .high)
    (hcritical : ¬ ∃ r ∈ risks, r.severity = .critical) :
    (severityFloor lowMax mediumMax risks).1 = lowMax + 1 := by
  unfold severityFloor
  rw [if_neg (mt (any_severity risks .critical).1 hcritical),
    if_pos ((any_severity risks .high).2 h)]

theorem severityFloor_none (hcritical : ¬ ∃ r ∈ risks, r.severity = .critical)
    (hhigh : ¬ ∃ r ∈ risks, r.severity = .high) :
    (severityFloor lowMax mediumMax risks).1 = 0 := by
  unfold severityFloor
  rw [if_neg (mt (any_severity risks .critical).1 hcritical),
    if_neg (mt (any_severity risks .high).1 hhigh)]

theorem severityFloor_cons_le (hlow : 0 ≤ lowMax) (hmedium : lowMax ≤ mediumMax)
    (r : ExtractedRisk) (risks : List ExtractedRisk) :
    (severityFloor lowMax mediumMax risks).1 ≤ (severityFloor lowMax mediumMax (r :: risks)).1 := by
  have hmore : ∀ severity, (∃ s ∈ risks, s.severity = severity) →
      ∃ s ∈ r :: risks, s.severity = severity := by
    rintro severity ⟨s, hs, hseverity⟩
    exact ⟨s, List.mem_cons_of_mem r hs, hseverity⟩
  by_cases hcritical : ∃ s ∈ r :: risks, s.severity = .critical
  · rw [severityFloor_critical hcritical]
    unfold severityFloor
    split
    · exact le_refl _
    · split <;> dsimp only <;> omega
  · have hcritical' := mt (hmore .critical) hcritical
    by_cases hhigh : ∃ s ∈ r :: risks, s.severity = .high
    · rw [severityFloor_high hhigh hcritical]
      by_cases hhigh' : ∃ s ∈ risks, s.severity = .high
      · rw [severityFloor_high hhigh' hcritical']
      · rw [severityFloor_none hcritical' hhigh']
        omega
    · rw [severityFloor_none hcritical' (mt (hmore .high) hhigh),
        severityFloor_none hcritical hhigh]

/-- The floor leaves the scale when its threshold is the end of it. -/
theorem severityFloor_le_iff (hlow : 0 ≤ lowMax) (hmedium : lowMax ≤ mediumMax)
    (htop : mediumMax ≤ 100) :
    (severityFloor lowMax mediumMax risks).1 ≤ 100 ↔
      ((∃ r ∈ risks, r.severity = .critical) → mediumMax ≠ 100) ∧
        ((∃ r ∈ risks, r.severity = .high) → lowMax ≠ 100) := by
  by_cases hcritical : ∃ r ∈ risks, r.severity = .critical
  · rw [severityFloor_critical hcritical]
    constructor
    · exact fun h => ⟨fun _ => by omega, fun _ => by omega⟩
    · intro h
      have hne := h.1 hcritical
      omega
  · by_cases hhigh : ∃ r ∈ risks, r.severity = .high
    · rw [severityFloor_high hhigh hcritical]
      constructor
      · exact fun h => ⟨fun hc => absurd hc hcritical, fun _ => by omega⟩
      · intro h
        have hne := h.2 hhigh
        omega
    · rw [severityFloor_none hcritical hhigh]
      exact iff_of_true (by decide) ⟨fun hc => absurd hc hcritical, fun hh => absurd hh hhigh⟩

/-! ## The law -/

theorem Weighed.cons {r : ExtractedRisk} (hr : r.scoreContribution ≤ 100) (h : Weighed risks) :
    Weighed (r :: risks) := by
  intro s hs
  rcases List.mem_cons.1 hs with rfl | hs
  · exact hr
  · exact h s hs

theorem Weighed.perm (h : Weighed risks) (hperm : more.Perm risks) : Weighed more :=
  fun r hr => h r (hperm.mem_iff.1 hr)

theorem score_le_of_cons (hlow : 0 ≤ lowMax) (hmedium : lowMax ≤ mediumMax) (h : Weighed risks)
    {r : ExtractedRisk} (hr : r.scoreContribution ≤ 100) (hperm : more.Perm (r :: risks)) :
    (score lowMax mediumMax risks).1 ≤ (score lowMax mediumMax more).1 := by
  have hmore : Weighed more := (h.cons hr).perm hperm
  have hrest : Headroom.rest 100 (more.map share) ≤ Headroom.rest 100 (risks.map share) := by
    rw [Headroom.rest_perm 100 (hperm.map share)]
    exact Headroom.rest_cons_le (by norm_num) (share_bounds hr).1
      fun s hs => (shares_bounds h s hs).2
  have hsaturated : saturated risks ≤ saturated more := by
    rw [saturated_eq h, saturated_eq hmore]
    exact Rounding.halfEven_mono (by linarith)
  have hfloor := severityFloor_cons_le hlow hmedium r risks
  rw [← severityFloor_perm hperm] at hfloor
  rw [score_eq, score_eq]
  exact max_le_max hsaturated hfloor

theorem score_decomposed (h : Weighed risks) : ∃ (raise : Int) (floorEntries : List ValueDict),
    (score lowMax mediumMax risks).1 = Rounding.halfEven (applied risks).sum + raise ∧
      (score lowMax mediumMax risks).2 =
        (ordered risks).zipWith riskEntry (applied risks) ++ floorEntries ∧
      (raise = 0 ∧ floorEntries = [] ∨ ∃ entry, floorEntries = [entry] ∧
        Value.get entry "risk_type" = .str "severity_floor" ∧
        Value.get entry "applied" = .float raise) := by
  have hsum : Rounding.halfEven (applied risks).sum = saturated risks := by
    rw [saturated_eq h]
    unfold applied
    rw [Headroom.sum_taken, rest_ordered]
  rw [hsum]
  unfold score
  dsimp only
  generalize severityFloor lowMax mediumMax (ordered risks) = floor
  split
  · refine ⟨floor.1 - saturated risks, [floorEntry lowMax mediumMax (saturated risks) floor.1
      floor.2], by dsimp only; omega, rfl, .inr ⟨_, rfl, rfl, ?_⟩⟩
    exact congrArg Value.float (Rounding.toDigits_intCast 2 _)
  · exact ⟨0, [], (add_zero _).symm, (List.append_nil _).symm, .inl ⟨rfl, rfl⟩⟩

/-- The score is a bounded, monotone, band-consistent summary exactly when no risk is floored above
a threshold of 100. -/
theorem scoreLaw_iff (hlow : 0 ≤ lowMax) (hmedium : lowMax ≤ mediumMax) (htop : mediumMax ≤ 100)
    (h : Weighed risks) :
    ScoreLaw lowMax mediumMax risks ↔
      ((∃ r ∈ risks, r.severity = .critical) → mediumMax ≠ 100) ∧
        ((∃ r ∈ risks, r.severity = .high) → lowMax ≠ 100) := by
  have hsaturated := saturated_bounds risks
  have heq := score_eq lowMax mediumMax risks
  rw [← severityFloor_le_iff hlow hmedium htop]
  constructor
  · intro hlaw
    have hbounded := hlaw.bounded.2
    omega
  · intro hfloor
    constructor
    case bounded => omega
    case monotone =>
      intro r more hr hperm
      exact score_le_of_cons hlow hmedium h hr hperm
    case banded =>
      intro std general mandatory weights clauses modelRisks assessment hassess hrisks
      unfold assess at hassess
      obtain ⟨unlimited, -, rfl⟩ := Except.map_eq_ok.1 hassess
      subst hrisks
      exact ⟨rfl, rfl⟩
    case critical =>
      intro hcritical
      have hthreshold : (severityFloor lowMax mediumMax risks).1 = mediumMax + 1 :=
        severityFloor_critical hcritical
      unfold bandOf
      rw [if_pos (by omega)]
    case high =>
      intro hhigh
      have hthreshold : lowMax + 1 ≤ (severityFloor lowMax mediumMax risks).1 := by
        by_cases hcritical : ∃ r ∈ risks, r.severity = .critical
        · rw [severityFloor_critical hcritical]
          omega
        · rw [severityFloor_high hhigh hcritical]
      unfold bandOf
      split
      · exact nofun
      · rw [if_pos (by omega)]
        exact nofun
    case decomposed => exact score_decomposed h

end

/-! ## A score of 101 -/

def criticalRisk : ExtractedRisk where
  riskType := RiskType.unlimitedLiability.value
  severity := .critical
  scoreContribution := 40

/-- A profile whose medium band ends at 100 gives a critical risk the score 101. -/
theorem score_above_scale :
    (score 33 100 [criticalRisk]).1 = 101 ∧ ¬ ScoreLaw 33 100 [criticalRisk] := by
  have hscore : (score 33 100 [criticalRisk]).1 = 101 := by decide +kernel
  refine ⟨hscore, fun hlaw => ?_⟩
  have hbounded := hlaw.bounded.2
  omega

/-- The default thresholds keep the score of a critical risk in its bounds. -/
theorem scoreLaw_default : ScoreLaw 33 66 [criticalRisk] := by
  have hweighed : Weighed [criticalRisk] := by
    intro r hr
    rw [List.mem_singleton.1 hr]
    decide
  exact (scoreLaw_iff (by decide) (by decide) (by decide) hweighed).2
    ⟨fun _ => by decide, fun _ => by decide⟩

end RiskAssessor

end Clear
