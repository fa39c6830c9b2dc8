import Clear.Ai.Extraction.Proof.RiskOrder

/-!
# The flag for unlimited liability and the findings

The findings of a clause are lost when its handler raises, and the scan for the flag reads the same
attributes outside the guard of the handlers: there a clause that cannot be read fails the
assessment.

* `flagLaw_iff`: the assessment returns with a flag that agrees with the findings exactly when no
  unreadable clause comes before the first unlimited one, and some unlimited one keeps its findings.
-/

namespace Clear

namespace RiskAssessor

def SaysUnlimited (c : ClauseRules) (f : ClauseFinding) : Prop :=
  f = c.uncappedFinding ∨ ∃ material, material ≠ [] ∧ f = ClauseRules.carveOutFinding material

def Produced (c : ClauseRules) (clauses : List ExtractedClause) : Prop :=
  ∃ clause ∈ clauses, clause.clauseType = ClauseType.limitationOfLiability.value ∧
    ∃ f ∈ c.findings clause, SaysUnlimited c f

def FlagLaw (c : ClauseRules) (mandatory : List String) (lowMax mediumMax : Int)
    (clauses : List ExtractedClause) (modelRisks : List ExtractedRisk) : Prop :=
  ∃ assessment, (build c.std c.general mandatory c.weights lowMax mediumMax).assess c.std clauses
      modelRisks = .ok assessment ∧
    (assessment.hasUnlimitedLiability = true ↔ Produced c clauses)

/-- The low multiple of a cap is an integer that `:g` cannot format. -/
def Unprintable (attributes : ValueDict) : Prop :=
  ∃ n : Int, Value.get attributes "cap_multiple" = .int n ∧ n ≤ 1 ∧ Value.floatBound ≤ n.natAbs

/-- The handler of a limitation of liability does not raise. -/
def Completes (std : Stdlib) (attributes : ValueDict) : Prop :=
  (∃ carveOuts, ClauseRules.carveOuts std attributes = .ok carveOuts) ∧
    (ClauseRules.isUncapped attributes = true ∨ ¬ Unprintable attributes)

def ReadableFirst (std : Stdlib) (clauses : List ExtractedClause) : Prop :=
  ∀ l₁ clause l₂, clauses = l₁ ++ clause :: l₂ → verdict std clause = .unreadable →
    ∃ d ∈ l₁, verdict std d = .unlimited

/-! ## The handler -/

section

variable {c : ClauseRules} {attributes : ValueDict}

theorem formatG_ok_iff {v : Value} (h : v.num?.isSome = true) :
    (∃ text, c.formatG v = .ok text) ↔
      ∀ n : Int, v = .int n → n.natAbs < Value.floatBound := by
  unfold ClauseRules.formatG
  cases v with
  | bool b => exact iff_of_true ⟨_, rfl⟩ nofun
  | float x => exact iff_of_true ⟨_, rfl⟩ nofun
  | int n =>
    have hfloat : (Value.int n).toFloat c.std =
        if n.natAbs < Value.floatBound then .ok (Value.nearest n) else .error .overflowError := rfl
    rw [hfloat]
    by_cases hn : n.natAbs < Value.floatBound
    · rw [if_pos hn]
      refine iff_of_true ⟨_, rfl⟩ fun m hm => ?_
      cases hm
      exact hn
    · rw [if_neg hn]
      exact iff_of_false nofun fun hall => hn (hall n rfl)
  | null => cases h
  | str s => cases h
  | list l => cases h
  | dict d => cases h

theorem foundNumber_ok_iff {v : Value} {p : Rat → Bool} {finding : String → ClauseFinding} :
    (∃ l, c.foundNumber v p finding = .ok l) ↔
      ∀ n : Int, v = .int n → p n = true → n.natAbs < Value.floatBound := by
  unfold ClauseRules.foundNumber
  cases hnum : v.num? with
  | none =>
    refine iff_of_true ⟨[], rfl⟩ fun n hn => ?_
    subst hn
    cases hnum
  | some x =>
    have hformat := formatG_ok_iff (c := c) (v := v) (by rw [hnum]; rfl)
    dsimp only
    by_cases hp : p x = true
    · rw [if_pos hp]
      have hmap : (∃ l, (c.formatG v).map (fun text => [finding text]) = .ok l) ↔
          ∃ text, c.formatG v = .ok text := by
        constructor
        · rintro ⟨l, hl⟩
          obtain ⟨text, htext, -⟩ := Except.map_eq_ok.1 hl
          exact ⟨text, htext⟩
        · rintro ⟨text, htext⟩
          exact ⟨_, Except.map_eq_ok.2 ⟨text, htext, rfl⟩⟩
      rw [hmap, hformat]
      refine forall_congr' fun n => imp_congr_right fun hn => ?_
      subst hn
      cases hnum
      simp [hp]
    · rw [if_neg hp]
      refine iff_of_true ⟨[], rfl⟩ fun n hn hpn => ?_
      subst hn
      cases hnum
      exact absurd hpn hp

theorem mem_foundNumber {v : Value} {p : Rat → Bool} {finding : String → ClauseFinding}
    {l : List ClauseFinding} (h : c.foundNumber v p finding = .ok l) {f : ClauseFinding}
    (hf : f ∈ l) : ∃ text, f = finding text := by
  unfold ClauseRules.foundNumber at h
  split at h
  · split at h
    · obtain ⟨text, -, rfl⟩ := Except.map_eq_ok.1 h
      exact ⟨text, List.mem_singleton.1 hf⟩
    · cases h
      cases hf
  · cases h
    cases hf

theorem liabilityRisks_eq_ok {l : List ClauseFinding} :
    c.liabilityRisks attributes = .ok l ↔ ∃ carveOuts low,
      ClauseRules.carveOuts c.std attributes = .ok carveOuts ∧
        c.foundNumber (Value.get attributes "cap_multiple")
          (fun multiple => multiple ≤ ClauseRules.lowCapMultiple &&
            !ClauseRules.isUncapped attributes) ClauseRules.lowCapFinding = .ok low ∧
        (if ClauseRules.isUncapped attributes then [c.uncappedFinding]
          else ClauseRules.found ((Value.get attributes "cap_basis").isStr
            LiabilityCapBasis.notSpecified.value) c.undeterminedFinding) ++
          (if !(carveOuts.filter materialCarveOuts.contains).isEmpty then
              [ClauseRules.carveOutFinding (carveOuts.filter materialCarveOuts.contains)]
            else ClauseRules.found ((Value.get attributes "has_carve_outs").truthy &&
              carveOuts.isEmpty) ClauseRules.unidentifiedFinding) ++
          low ++ ClauseRules.found (Value.get attributes "is_mutual").isFalse
            ClauseRules.oneSidedFinding = l := by
  unfold ClauseRules.liabilityRisks
  constructor
  · intro h
    obtain ⟨carveOuts, hcarve, h⟩ := Except.bind_eq_ok.1 h
    obtain ⟨low, hlow, h⟩ := Except.bind_eq_ok.1 h
    exact ⟨carveOuts, low, hcarve, hlow, Except.pure_eq_ok.1 h⟩
  · rintro ⟨carveOuts, low, hcarve, hlow, h⟩
    exact Except.bind_eq_ok.2 ⟨carveOuts, hcarve,
      Except.bind_eq_ok.2 ⟨low, hlow, Except.pure_eq_ok.2 h⟩⟩

/-- The handler returns exactly when the carve-outs can be iterated and a low multiple can be
formatted. -/
theorem liabilityRisks_ok_iff :
    (∃ l, c.liabilityRisks attributes = .ok l) ↔ Completes c.std attributes := by
  have hlow : (∃ low, c.foundNumber (Value.get attributes "cap_multiple")
      (fun multiple => multiple ≤ ClauseRules.lowCapMultiple &&
        !ClauseRules.isUncapped attributes) ClauseRules.lowCapFinding = .ok low) ↔
      (ClauseRules.isUncapped attributes = true ∨ ¬ Unprintable attributes) := by
    rw [foundNumber_ok_iff]
    unfold Unprintable ClauseRules.lowCapMultiple
    have hone : ∀ n : Int, ((n : Rat) ≤ 1) ↔ n ≤ 1 := fun n => by exact_mod_cast Iff.rfl
    constructor
    · intro h
      by_cases hcap : ClauseRules.isUncapped attributes = true
      · exact .inl hcap
      · refine .inr ?_
        rintro ⟨n, hn, hle, hbound⟩
        have hlt := h n hn (by simp [hcap, hone, hle])
        omega
    · intro h n hn hp
      simp only [Bool.and_eq_true, decide_eq_true_eq, hone, Bool.not_eq_true'] at hp
      rcases h with hcap | hprint
      · rw [hcap] at hp
        cases hp.2
      · exact Nat.lt_of_not_le fun hbound => hprint ⟨n, hn, hp.1, hbound⟩
  unfold Completes
  rw [← hlow]
  constructor
  · rintro ⟨l, hl⟩
    obtain ⟨carveOuts, low, hcarve, hlow, -⟩ := liabilityRisks_eq_ok.1 hl
    exact ⟨⟨carveOuts, hcarve⟩, low, hlow⟩
  · rintro ⟨⟨carveOuts, hcarve⟩, low, hlow⟩
    exact ⟨_, liabilityRisks_eq_ok.2 ⟨carveOuts, low, hcarve, hlow, rfl⟩⟩

theorem not_saysUnlimited_of_recommendation {f : ClauseFinding}
    (hcap : f.recommendation ≠ c.uncappedFinding.recommendation)
    (hcarve : ∀ material, f.recommendation ≠ (ClauseRules.carveOutFinding material).recommendation) :
    ¬ SaysUnlimited c f := by
  rintro (rfl | ⟨material, -, rfl⟩)
  · exact hcap rfl
  · exact hcarve material rfl

theorem not_saysUnlimited_of_riskType {f : ClauseFinding} (h : f.riskType ≠ .unlimitedLiability) :
    ¬ SaysUnlimited c f := by
  rintro (rfl | ⟨material, -, rfl⟩)
  · exact h rfl
  · exact h rfl

theorem not_saysUnlimited_unidentified : ¬ SaysUnlimited c ClauseRules.unidentifiedFinding :=
  not_saysUnlimited_of_recommendation
    (by simp [ClauseRules.unidentifiedFinding, ClauseRules.uncappedFinding])
    fun material => by simp [ClauseRules.unidentifiedFinding, ClauseRules.carveOutFinding]

theorem mem_found {holds : Bool} {f g : ClauseFinding} (h : f ∈ ClauseRules.found holds g) :
    f = g := by
  unfold ClauseRules.found at h
  split at h
  · exact List.mem_singleton.1 h
  · cases h

theorem material_isEmpty (carveOuts : List String) :
    (carveOuts.filter materialCarveOuts.contains).isEmpty =
      !carveOuts.any materialCarveOuts.contains := by
  rw [Bool.eq_iff_iff]
  simp

theorem liabilityRisks_unlimited {l : List ClauseFinding} {carveOuts : List String}
    (hcarve : ClauseRules.carveOuts c.std attributes = .ok carveOuts)
    (h : c.liabilityRisks attributes = .ok l) :
    (∃ f ∈ l, SaysUnlimited c f) ↔
      ClauseRules.isUncapped attributes = true ∨
        carveOuts.any materialCarveOuts.contains = true := by
  obtain ⟨carveOuts', low, hcarve', hlow, rfl⟩ := liabilityRisks_eq_ok.1 h
  rw [hcarve] at hcarve'
  cases hcarve'
  rw [material_isEmpty, Bool.not_not]
  constructor
  · rintro ⟨f, hf, hunbounded⟩
    simp only [List.mem_append] at hf
    rcases hf with ((hf | hf) | hf) | hf
    · split at hf
      next hcap => exact .inl hcap
      · rw [mem_found hf] at hunbounded
        exact absurd hunbounded (not_saysUnlimited_of_riskType nofun)
    · split at hf
      next hmaterial => exact .inr hmaterial
      · rw [mem_found hf] at hunbounded
        exact absurd hunbounded not_saysUnlimited_unidentified
    · obtain ⟨text, rfl⟩ := mem_foundNumber hlow hf
      exact absurd hunbounded (not_saysUnlimited_of_riskType nofun)
    · rw [mem_found hf] at hunbounded
      exact absurd hunbounded (not_saysUnlimited_of_riskType nofun)
  · rintro (hcap | hmaterial)
    · rw [if_pos hcap]
      exact ⟨c.uncappedFinding, by simp, .inl rfl⟩
    · rw [if_pos hmaterial]
      refine ⟨ClauseRules.carveOutFinding (carveOuts.filter materialCarveOuts.contains), by simp,
        .inr ⟨_, fun hnil => ?_, rfl⟩⟩
      have hempty := material_isEmpty carveOuts
      rw [hnil, hmaterial] at hempty
      cases hempty

theorem findings_liability {clause : ExtractedClause}
    (h : clause.clauseType = ClauseType.limitationOfLiability.value) :
    c.findings clause =
      match c.liabilityRisks clause.attributes with
      | .ok findings => findings
      | .error _ => [] := by
  unfold ClauseRules.findings
  rw [h]
  rfl

theorem verdict_of_carveOuts {std : Stdlib} {clause : ExtractedClause} {carveOuts : List String}
    (h : clause.clauseType = ClauseType.limitationOfLiability.value)
    (hcarve : ClauseRules.carveOuts std clause.attributes = .ok carveOuts) :
    verdict std clause = .unlimited ↔
      ClauseRules.isUncapped clause.attributes = true ∨
        carveOuts.any materialCarveOuts.contains = true := by
  unfold verdict
  rw [if_neg (not_not.2 h), hcarve]
  dsimp only
  by_cases hcap : ClauseRules.isUncapped clause.attributes = true
  · simp [hcap]
  · by_cases hmaterial : carveOuts.any materialCarveOuts.contains = true
    · rw [if_neg hcap, if_pos hmaterial]
      exact iff_of_true rfl (.inr hmaterial)
    · rw [if_neg hcap, if_neg hmaterial]
      exact iff_of_false nofun (not_or.2 ⟨hcap, hmaterial⟩)

theorem verdict_type {std : Stdlib} {clause : ExtractedClause}
    (h : verdict std clause = .unlimited) :
    clause.clauseType = ClauseType.limitationOfLiability.value := by
  unfold verdict at h
  split at h
  · cases h
  next htype => exact not_not.1 htype

/-- A limitation of liability keeps a finding exactly when it is unlimited and its handler
completes. -/
theorem produced_iff (c : ClauseRules) (clauses : List ExtractedClause) :
    Produced c clauses ↔
      ∃ clause ∈ clauses, verdict c.std clause = .unlimited ∧
        Completes c.std clause.attributes := by
  unfold Produced
  refine exists_congr fun clause => and_congr_right fun _ => ?_
  by_cases htype : clause.clauseType = ClauseType.limitationOfLiability.value
  · rw [findings_liability htype]
    cases hrun : c.liabilityRisks clause.attributes with
    | error e =>
      have hraises : ¬ Completes c.std clause.attributes := by
        rw [← liabilityRisks_ok_iff (c := c), hrun]
        rintro ⟨l, hl⟩
        cases hl
      refine iff_of_false ?_ fun h => hraises h.2
      rintro ⟨-, f, hf, -⟩
      cases hf
    | ok l =>
      obtain ⟨carveOuts, low, hcarve, -⟩ := liabilityRisks_eq_ok.1 hrun
      have hcompletes : Completes c.std clause.attributes := liabilityRisks_ok_iff.1 ⟨l, hrun⟩
      have hunbounded := liabilityRisks_unlimited hcarve hrun
      rw [← verdict_of_carveOuts htype hcarve] at hunbounded
      constructor
      · exact fun h => ⟨hunbounded.1 h.2, hcompletes⟩
      · exact fun h => ⟨htype, hunbounded.2 h.1⟩
  · exact iff_of_false (fun h => htype h.1) fun h => htype (verdict_type h.1)

end

/-! ## The assessment -/

section

variable {std : Stdlib} {clauses : List ExtractedClause}

theorem hasUnlimitedLiability_ok_iff :
    (∃ flag, hasUnlimitedLiability std clauses = .ok flag) ↔ ReadableFirst std clauses := by
  rw [hasUnlimitedLiability_eq]
  cases hfind : clauses.find? fun c => decide (verdict std c ≠ .passes) with
  | none =>
    refine iff_of_true ⟨false, rfl⟩ fun l₁ clause l₂ heq hunreadable => ?_
    have hpass := List.find?_eq_none.1 hfind clause (heq ▸ by simp)
    simp [hunreadable] at hpass
  | some d =>
    obtain ⟨hdecides, l₁, l₂, heq, hpass⟩ := List.find?_eq_some_iff_append.1 hfind
    have hpass' : ∀ c ∈ l₁, verdict std c = .passes := fun c hc => by simpa using hpass c hc
    rw [scanEnd_some]
    rcases verdict_cases (by simpa using hdecides) with hunlimited | hunreadable
    · rw [if_pos hunlimited]
      refine iff_of_true ⟨true, rfl⟩ fun m₁ clause m₂ heq' hclause => ?_
      -- an unreadable clause stands behind the first one that decides
      rw [heq] at heq'
      rcases List.append_eq_append_iff.1 heq' with ⟨rest, rfl, htail⟩ | ⟨rest, rfl, htail⟩
      · cases rest with
        | nil =>
          rw [List.nil_append] at htail
          cases htail
          rw [hunlimited] at hclause
          cases hclause
        | cons x rest =>
          cases htail
          exact ⟨d, by simp, hunlimited⟩
      · cases rest with
        | nil =>
          rw [List.nil_append] at htail
          cases htail
          rw [hunlimited] at hclause
          cases hclause
        | cons x rest =>
          cases htail
          rw [hpass' clause (by simp)] at hclause
          cases hclause
    · rw [if_neg (by simp [hunreadable])]
      refine iff_of_false (by rintro ⟨flag, hflag⟩; cases hflag) fun hfirst => ?_
      obtain ⟨e, he, hunlimited⟩ := hfirst l₁ d l₂ heq hunreadable
      rw [hpass' e he] at hunlimited
      cases hunlimited

theorem hasUnlimitedLiability_ok {flag : Bool} (h : hasUnlimitedLiability std clauses = .ok flag) :
    flag = true ↔ ∃ clause ∈ clauses, verdict std clause = .unlimited := by
  rw [hasUnlimitedLiability_eq] at h
  cases hfind : clauses.find? fun c => decide (verdict std c ≠ .passes) with
  | none =>
    rw [hfind] at h
    cases h
    refine iff_of_false nofun ?_
    rintro ⟨clause, hclause, hunlimited⟩
    have hpass := List.find?_eq_none.1 hfind clause hclause
    simp [hunlimited] at hpass
  | some d =>
    rw [hfind, scanEnd_some] at h
    split at h
    next hunlimited =>
      cases h
      exact iff_of_true rfl ⟨d, List.mem_of_find?_eq_some hfind, hunlimited⟩
    · cases h

/-- The assessment returns with a flag that agrees with the findings exactly when no unreadable
clause comes before the first unlimited one, and an unlimited one keeps its findings if there is
one. -/
theorem flagLaw_iff (c : ClauseRules) (mandatory : List String) (lowMax mediumMax : Int)
    (clauses : List ExtractedClause) (modelRisks : List ExtractedRisk) :
    FlagLaw c mandatory lowMax mediumMax clauses modelRisks ↔
      ReadableFirst c.std clauses ∧
        ((∃ clause ∈ clauses, verdict c.std clause = .unlimited) →
          ∃ clause ∈ clauses, verdict c.std clause = .unlimited ∧
            Completes c.std clause.attributes) := by
  unfold FlagLaw assess
  rw [produced_iff, ← hasUnlimitedLiability_ok_iff]
  constructor
  · rintro ⟨assessment, hassess, hflag⟩
    obtain ⟨flag, hscan, rfl⟩ := Except.map_eq_ok.1 hassess
    exact ⟨⟨flag, hscan⟩, fun h => hflag.1 ((hasUnlimitedLiability_ok hscan).2 h)⟩
  · rintro ⟨⟨flag, hscan⟩, hkeeps⟩
    refine ⟨_, Except.map_eq_ok.2 ⟨flag, hscan, rfl⟩, ?_⟩
    show flag = true ↔ _
    rw [hasUnlimitedLiability_ok hscan]
    refine ⟨hkeeps, ?_⟩
    rintro ⟨clause, hclause, hunlimited, -⟩
    exact ⟨clause, hclause, hunlimited⟩

end

/-! ## Carve-outs that are a number -/

def limitation (attributes : ValueDict) : ExtractedClause where
  clauseType := ClauseType.limitationOfLiability.value
  attributes := attributes

def plainRules : ClauseRules where
  std := Stdlib.ascii
  general _ := ""
  weights := []

/-- Carve-outs that are a number fail the assessment; beside an uncapped basis they lose the
finding, and the flag is set. -/
theorem numeric_carveOuts :
    (build Stdlib.ascii (fun _ => "") [] [] 33 66).assess Stdlib.ascii
        [limitation [("carve_outs", .int 5)]] [] = .error "TypeError" ∧
      ¬ FlagLaw plainRules [] 33 66 [limitation [("carve_outs", .int 5)]] [] ∧
      ((build Stdlib.ascii (fun _ => "") [] [] 33 66).assess Stdlib.ascii
          [limitation [("cap_basis", .str "uncapped"), ("carve_outs", .int 5)]] []).toOption.map
        (fun x => (x.hasUnlimitedLiability, x.risks.length)) = some (true, 0) ∧
      ¬ FlagLaw plainRules [] 33 66
        [limitation [("cap_basis", .str "uncapped"), ("carve_outs", .int 5)]] [] := by
  refine ⟨rfl, ?_, by decide +kernel, ?_⟩
  · rintro ⟨assessment, hassess, -⟩
    cases hassess
  · rintro ⟨assessment, hassess, hflag⟩
    have hset : assessment.hasUnlimitedLiability = true := by
      cases hassess
      rfl
    obtain ⟨clause, hclause, -, f, hf, -⟩ := hflag.1 hset
    rw [List.mem_singleton.1 hclause] at hf
    cases hf

end RiskAssessor

end Clear
