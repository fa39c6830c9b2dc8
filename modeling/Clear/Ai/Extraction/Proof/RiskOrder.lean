import Clear.Ai.Extraction.Proof.RiskScore
import Clear.Lib.Thinning

/-!
# Whether the assessment depends on the order

The findings of the rules do not depend on the order of the clauses, and the score not on the order
of the risks. Two things do: of the model's risks of one type and clause the first is kept, with its
severity, and the scan for unlimited liability ends at the first clause that decides.

* `orderFree_iff`: the exact condition under which every order gives the same assessment.
-/

/-!
## The scan for unlimited liability

`_has_unlimited_liability` goes through the clauses until one decides: a limitation of liability
without a cap or with a material carve-out sets the flag, one whose carve-outs cannot be iterated
raises (`hasUnlimitedLiability_eq`).
-/

namespace Clear

namespace RiskAssessor

/-- What the scan makes of one clause. -/
inductive Verdict where
  | passes | unlimited | unreadable
  deriving DecidableEq

def verdict (std : Stdlib) (clause : ExtractedClause) : Verdict :=
  if clause.clauseType ≠ ClauseType.limitationOfLiability.value then .passes
  else if ClauseRules.isUncapped clause.attributes then .unlimited
  else
    match ClauseRules.carveOuts std clause.attributes with
    | .error _ => .unreadable
    | .ok carveOuts => if carveOuts.any materialCarveOuts.contains then .unlimited else .passes

def scanEnd (std : Stdlib) : Option ExtractedClause → Except String Bool
  | none => .ok false
  | some clause => if verdict std clause = .unlimited then .ok true else .error "TypeError"

variable {std : Stdlib} {clauses : List ExtractedClause}

theorem scanEnd_some (clause : ExtractedClause) : scanEnd std (some clause) =
    if verdict std clause = .unlimited then .ok true else .error "TypeError" := rfl

theorem hasUnlimitedLiability_cons (clause : ExtractedClause) (clauses : List ExtractedClause) :
    hasUnlimitedLiability std (clause :: clauses) =
      if verdict std clause = .passes then hasUnlimitedLiability std clauses
      else scanEnd std (some clause) := by
  have hend : ∀ v, verdict std clause = v →
      (if verdict std clause = .passes then hasUnlimitedLiability std clauses
        else scanEnd std (some clause)) =
      if v = .passes then hasUnlimitedLiability std clauses
        else if v = .unlimited then .ok true else .error "TypeError" := by
    intro v hv
    rw [scanEnd_some, hv]
  rw [hasUnlimitedLiability]
  by_cases htype : clause.clauseType ≠ ClauseType.limitationOfLiability.value
  · rw [if_pos htype, hend .passes (if_pos htype), if_pos rfl]
  · rw [if_neg htype]
    by_cases hcap : ClauseRules.isUncapped clause.attributes = true
    · have hv : verdict std clause = .unlimited := by
        unfold verdict
        rw [if_neg htype, if_pos hcap]
      rw [hend .unlimited hv]
      exact if_pos hcap
    · rw [if_neg (show ¬ (Value.get clause.attributes "cap_basis").isStr
        LiabilityCapBasis.uncapped.value = true from hcap)]
      cases hitems : ((Value.get clause.attributes "carve_outs").or (.list [])).iter with
      | none =>
        have hv : verdict std clause = .unreadable := by
          unfold verdict ClauseRules.carveOuts
          rw [if_neg htype, if_neg hcap, hitems]
        rw [hend .unreadable hv]
        rfl
      | some items =>
        have hv : verdict std clause =
            if items.any fun item => materialCarveOuts.contains (item.text std) then .unlimited
            else .passes := by
          unfold verdict ClauseRules.carveOuts
          rw [if_neg htype, if_neg hcap, hitems]
          dsimp only
          rw [List.any_map]
          rfl
        dsimp only
        by_cases hany : (items.any fun item => materialCarveOuts.contains (item.text std)) = true
        · rw [if_pos hany] at hv
          rw [if_pos hany, hend .unlimited hv]
          rfl
        · rw [if_neg hany] at hv
          rw [if_neg hany, hend .passes hv, if_pos rfl]

theorem hasUnlimitedLiability_eq (clauses : List ExtractedClause) :
    hasUnlimitedLiability std clauses =
      scanEnd std (clauses.find? fun c => decide (verdict std c ≠ .passes)) := by
  induction clauses with
  | nil => rfl
  | cons clause clauses ih =>
    rw [hasUnlimitedLiability_cons]
    by_cases h : verdict std clause = .passes
    · rw [if_pos h, List.find?_cons_of_neg (by simpa using h), ih]
    · rw [if_neg h, List.find?_cons_of_pos (by simpa using h)]

theorem verdict_cases {clause : ExtractedClause} (h : verdict std clause ≠ .passes) :
    verdict std clause = .unlimited ∨ verdict std clause = .unreadable := by
  cases hv : verdict std clause with
  | passes => exact absurd hv h
  | unlimited => exact .inl rfl
  | unreadable => exact .inr rfl

theorem hasUnlimitedLiability_of_readable (h : ∀ c ∈ clauses, verdict std c ≠ .unreadable) :
    hasUnlimitedLiability std clauses = .ok (clauses.any fun c => verdict std c = .unlimited) := by
  induction clauses with
  | nil => rfl
  | cons clause clauses ih =>
    have hrest := ih fun c hc => h c (List.mem_cons_of_mem _ hc)
    rw [hasUnlimitedLiability_cons, List.any_cons]
    split
    next hpass =>
      rw [hrest, hpass]
      rfl
    next hpass =>
      have hunlimited := (verdict_cases hpass).resolve_right (h clause List.mem_cons_self)
      rw [scanEnd_some, if_pos hunlimited, hunlimited]
      rfl

theorem hasUnlimitedLiability_of_unreadable (h : ∀ c ∈ clauses, verdict std c ≠ .unlimited)
    (hex : ∃ c ∈ clauses, verdict std c = .unreadable) :
    hasUnlimitedLiability std clauses = .error "TypeError" := by
  rw [hasUnlimitedLiability_eq]
  obtain ⟨c, hc, hunreadable⟩ := hex
  obtain ⟨d, hd⟩ : ∃ d, (clauses.find? fun c => decide (verdict std c ≠ .passes)) = some d := by
    rw [← Option.isSome_iff_exists, List.find?_isSome]
    exact ⟨c, hc, by simp [hunreadable]⟩
  rw [hd]
  exact if_neg (h d (List.mem_of_find?_eq_some hd))

end RiskAssessor

end Clear

namespace Clear

namespace RiskAssessor

def view (r : ExtractedRisk) : (String × Option String) × RiskSeverity :=
  ((r.riskType, r.clauseType), r.severity)

structure SameSummary (x y : RiskAssessment) : Prop where
  score : x.score = y.score
  band : x.band = y.band
  missing : ∀ key, key ∈ x.missingMandatory ↔ key ∈ y.missingMandatory
  unlimited : x.hasUnlimitedLiability = y.hasUnlimitedLiability
  risks : (x.risks.map view).Perm (y.risks.map view)

def SameOutcome : Except String RiskAssessment → Except String RiskAssessment → Prop
  | .ok x, .ok y => SameSummary x y
  | .error _, .error _ => True
  | _, _ => False

def OrderFree (a : RiskAssessor) (std : Stdlib) (clauses : List ExtractedClause)
    (modelRisks : List ExtractedRisk) : Prop :=
  ∀ clauses' modelRisks', clauses'.Perm clauses → modelRisks'.Perm modelRisks →
    SameOutcome (a.assess std clauses modelRisks) (a.assess std clauses' modelRisks')

def ruleRisks (a : RiskAssessor) (clauses : List ExtractedClause) : List ExtractedRisk :=
  (a.missingMandatory (clauses.map (·.clauseType)) ++ clauses.flatMap a.fromClause).map toRisk

def allRisks (a : RiskAssessor) (clauses : List ExtractedClause)
    (modelRisks : List ExtractedRisk) : List ExtractedRisk :=
  modelRisks.foldl mergeRisk (a.ruleRisks clauses)

def Agreed (a : RiskAssessor) (clauses : List ExtractedClause)
    (modelRisks : List ExtractedRisk) : Prop :=
  ∀ r ∈ modelRisks, ∀ s ∈ modelRisks, r.riskType = s.riskType → r.clauseType = s.clauseType →
    (∀ found ∈ a.ruleRisks clauses, ¬ (found.riskType = r.riskType ∧
      found.clauseType = r.clauseType)) → r.severity = s.severity

section

variable {a : RiskAssessor} {std : Stdlib} {clauses clauses' : List ExtractedClause}
  {modelRisks modelRisks' : List ExtractedRisk}

/-! ## The risks -/

theorem filter_missing_perm (h : clauses'.Perm clauses) (mandatory : List String) :
    (mandatory.filter (!(clauses'.map (·.clauseType)).contains ·)) =
      mandatory.filter (!(clauses.map (·.clauseType)).contains ·) := by
  apply List.filter_congr
  intro key _
  rw [(h.map _).contains_eq]

theorem ruleRisks_perm (h : clauses'.Perm clauses) :
    (a.ruleRisks clauses').Perm (a.ruleRisks clauses) := by
  unfold ruleRisks missingMandatory
  rw [filter_missing_perm h]
  exact ((List.Perm.refl _).append (h.flatMap_right _)).map _

theorem map_view_merge (risks modelRisks : List ExtractedRisk) :
    (modelRisks.foldl mergeRisk risks).map view =
      FirstCome.join (risks.map view) (modelRisks.map view) := by
  induction modelRisks generalizing risks with
  | nil => rfl
  | cons r modelRisks ih =>
    rw [List.foldl_cons, ih]
    show _ = FirstCome.join (FirstCome.push (risks.map view) (view r)) (modelRisks.map view)
    congr 1
    have hseen : ((risks.map view).any fun e => decide (e.1 = (view r).1)) =
        risks.any fun s => s.riskType = r.riskType && s.clauseType = r.clauseType := by
      rw [List.any_map]
      congr 1
      funext s
      simp [view]
    unfold mergeRisk FirstCome.push
    rw [hseen]
    split
    · rfl
    · rw [List.map_append]
      rfl

theorem views_agree_iff : FirstCome.Agree ((a.ruleRisks clauses).map view) (modelRisks.map view) ↔
    a.Agreed clauses modelRisks := by
  have hnew : ∀ r : ExtractedRisk, (view r).1 ∉ ((a.ruleRisks clauses).map view).map Prod.fst ↔
      ∀ found ∈ a.ruleRisks clauses, ¬ (found.riskType = r.riskType ∧
        found.clauseType = r.clauseType) := by
    intro r
    simp [view]
  unfold FirstCome.Agree Agreed
  constructor
  · intro h r hr s hs htype hclause hr'
    have hview := h (view r) (List.mem_map_of_mem hr) (view s) (List.mem_map_of_mem hs)
      (by simp [view, htype, hclause]) ((hnew r).2 hr')
    exact congrArg Prod.snd hview
  · intro h e he e' he' hkey hfresh
    obtain ⟨r, hr, rfl⟩ := List.mem_map.1 he
    obtain ⟨s, hs, rfl⟩ := List.mem_map.1 he'
    have htype : r.riskType = s.riskType := congrArg Prod.fst hkey
    have hclause : r.clauseType = s.clauseType := congrArg Prod.snd hkey
    exact Prod.ext hkey (h r hr s hs htype hclause ((hnew r).1 hfresh))

theorem allRisks_perm (h : a.Agreed clauses modelRisks) (hc : clauses'.Perm clauses)
    (hm : modelRisks'.Perm modelRisks) :
    ((a.allRisks clauses modelRisks).map view).Perm ((a.allRisks clauses' modelRisks').map view) := by
  unfold allRisks
  rw [map_view_merge, map_view_merge]
  exact FirstCome.join_perm ((ruleRisks_perm hc).symm.map view) (hm.symm.map view) (views_agree_iff.2 h)

/-! ## The score -/

def Contributed (risks : List ExtractedRisk) : Prop :=
  ∀ r ∈ risks, r.scoreContribution = contribution r.severity

theorem contributed_allRisks (a : RiskAssessor) (clauses : List ExtractedClause)
    (modelRisks : List ExtractedRisk) : Contributed (a.allRisks clauses modelRisks) := by
  have hmerge : ∀ (modelRisks risks : List ExtractedRisk), Contributed risks →
      Contributed (modelRisks.foldl mergeRisk risks) := by
    intro modelRisks
    induction modelRisks with
    | nil => exact fun risks h => h
    | cons m modelRisks ih =>
      intro risks h
      apply ih
      intro r hr
      unfold mergeRisk at hr
      split at hr
      · exact h r hr
      · rcases List.mem_append.1 hr with hr | hr
        · exact h r hr
        · rw [List.mem_singleton.1 hr]
  apply hmerge
  intro r hr
  obtain ⟨finding, -, rfl⟩ := List.mem_map.1 hr
  rfl

theorem map_severity_perm {risks more : List ExtractedRisk}
    (h : (risks.map view).Perm (more.map view)) :
    (risks.map (·.severity)).Perm (more.map (·.severity)) := by
  have hmap : ∀ l : List ExtractedRisk, (l.map view).map Prod.snd = l.map (·.severity) := by
    intro l
    rw [List.map_map]
    rfl
  rw [← hmap, ← hmap]
  exact h.map Prod.snd

theorem score_congr {lowMax mediumMax : Int} {risks more : List ExtractedRisk}
    (hrisks : Contributed risks) (hmore : Contributed more)
    (h : (risks.map (·.severity)).Perm (more.map (·.severity))) :
    (score lowMax mediumMax risks).1 = (score lowMax mediumMax more).1 := by
  have hshares : ∀ l : List ExtractedRisk, Contributed l →
      l.map share = (l.map (·.severity)).map fun severity => (contribution severity : Rat) / 100 := by
    intro l hl
    rw [List.map_map]
    refine List.map_congr_left fun r hr => ?_
    show (r.scoreContribution : Rat) / 100 = _
    rw [hl r hr]
    rfl
  have hrest : Headroom.rest 100 (risks.map share) = Headroom.rest 100 (more.map share) := by
    rw [hshares risks hrisks, hshares more hmore]
    exact Headroom.rest_perm 100 (h.map _)
  have hany : ∀ severity, (risks.any fun r => decide (r.severity = severity)) =
      more.any fun r => decide (r.severity = severity) := by
    intro severity
    have hmap : ∀ l : List ExtractedRisk, (l.any fun r => decide (r.severity = severity)) =
        (l.map (·.severity)).any fun s => decide (s = severity) := by
      intro l
      rw [List.any_map]
      rfl
    rw [hmap, hmap, h.any_eq]
  rw [score_eq, score_eq]
  unfold saturated severityFloor
  rw [rest_ordered, rest_ordered, hrest, hany, hany]

/-! ## The assessment -/

/-- What an assessment says when the scan ends in a flag. -/
def summary (a : RiskAssessor) (clauses : List ExtractedClause)
    (modelRisks : List ExtractedRisk) (unlimited : Bool) : RiskAssessment where
  score := (a.rules.score (a.allRisks clauses modelRisks)).1
  band := a.band (a.rules.score (a.allRisks clauses modelRisks)).1
  risks := a.allRisks clauses modelRisks
  missingMandatory := a.mandatory.filter (!(clauses.map (·.clauseType)).contains ·)
  breakdown := (a.rules.score (a.allRisks clauses modelRisks)).2
  hasUnlimitedLiability := unlimited

theorem assess_eq (a : RiskAssessor) (std : Stdlib) (clauses : List ExtractedClause)
    (modelRisks : List ExtractedRisk) :
    a.assess std clauses modelRisks =
      (hasUnlimitedLiability std clauses).map (a.summary clauses modelRisks) := rfl

theorem sameSummary_of_perm {general : Rat → String} {mandatory : List String}
    {weights : ValueDict} {lowMax mediumMax : Int} {unlimited : Bool}
    (ha : a = build std general mandatory weights lowMax mediumMax)
    (h : a.Agreed clauses modelRisks) (hc : clauses'.Perm clauses)
    (hm : modelRisks'.Perm modelRisks) :
    SameSummary (a.summary clauses modelRisks unlimited)
      (a.summary clauses' modelRisks' unlimited) := by
  have hrisks := allRisks_perm h hc hm
  have hscore : (a.rules.score (a.allRisks clauses modelRisks)).1 =
      (a.rules.score (a.allRisks clauses' modelRisks')).1 := by
    subst ha
    exact score_congr (contributed_allRisks _ _ _) (contributed_allRisks _ _ _)
      (map_severity_perm hrisks)
  constructor
  case score => exact hscore
  case band => exact congrArg a.band hscore
  case missing =>
    intro key
    show key ∈ a.mandatory.filter _ ↔ key ∈ a.mandatory.filter _
    rw [filter_missing_perm hc]
  case unlimited => rfl
  case risks => exact hrisks

theorem not_sameOutcome_of_both {x : Except String RiskAssessment} {y : RiskAssessment}
    {e : String} (hok : SameOutcome x (.ok y)) : ¬ SameOutcome x (.error e) := by
  cases x with
  | error _ => exact fun _ => hok
  | ok _ => exact id

theorem exists_perm_cons {α : Type} {x : α} {l : List α} (h : x ∈ l) :
    ∃ rest, (x :: rest).Perm l := by
  obtain ⟨s, t, rfl⟩ := List.append_of_mem h
  exact ⟨s ++ t, List.perm_middle.symm⟩

theorem agreed_of_orderFree (hreadable : ∀ c ∈ clauses, verdict std c ≠ .unreadable)
    (h : a.OrderFree std clauses modelRisks) : a.Agreed clauses modelRisks := by
  intro r hr s hs htype hclause hfresh
  have hviews : ∀ modelRisks', modelRisks'.Perm modelRisks →
      ((a.allRisks clauses modelRisks).map view).Perm
        ((a.allRisks clauses modelRisks').map view) := by
    intro modelRisks' hperm
    have hsame := h clauses modelRisks' (.refl _) hperm
    rw [assess_eq, assess_eq, hasUnlimitedLiability_of_readable hreadable] at hsame
    exact hsame.risks
  have hfirst : ∀ {m : ExtractedRisk} {rest : List ExtractedRisk}, view m = ((r.riskType,
      r.clauseType), m.severity) → ((a.allRisks clauses (m :: rest)).map view).filter
        (fun e => decide (e.1 = (r.riskType, r.clauseType))) = [view m] := by
    intro m rest hm
    unfold allRisks
    rw [map_view_merge, List.map_cons]
    have hkey : (view m).1 = (r.riskType, r.clauseType) := congrArg Prod.fst hm
    rw [← hkey]
    refine FirstCome.filter_join_cons ?_
    rw [hkey]
    intro hmem
    obtain ⟨e, he, hkey'⟩ := List.mem_map.1 hmem
    obtain ⟨found, hfound, rfl⟩ := List.mem_map.1 he
    exact hfresh found hfound ⟨congrArg Prod.fst hkey', congrArg Prod.snd hkey'⟩
  obtain ⟨rest, hrest⟩ := exists_perm_cons hr
  obtain ⟨rest', hrest'⟩ := exists_perm_cons hs
  have hperm := ((hviews _ hrest).symm.trans (hviews _ hrest')).filter
    fun e => decide (e.1 = (r.riskType, r.clauseType))
  rw [hfirst (m := r) rfl, hfirst (m := s) (by simp [view, htype, hclause])] at hperm
  exact congrArg Prod.snd (List.singleton_perm_singleton.1 hperm)

/-- Every order gives the same assessment exactly when either no clause is unreadable and the
model's risks of a new type and clause agree in their severity, or some clause is unreadable and
none is unlimited, so that no order gives an assessment. -/
theorem orderFree_iff (general : Rat → String) (mandatory : List String) (weights : ValueDict)
    (lowMax mediumMax : Int) :
    (build std general mandatory weights lowMax mediumMax).OrderFree std clauses modelRisks ↔
      ((∀ c ∈ clauses, verdict std c ≠ .unreadable) ∧
          (build std general mandatory weights lowMax mediumMax).Agreed clauses modelRisks) ∨
        ((∃ c ∈ clauses, verdict std c = .unreadable) ∧
          ∀ c ∈ clauses, verdict std c ≠ .unlimited) := by
  generalize ha : build std general mandatory weights lowMax mediumMax = a
  constructor
  · intro h
    by_cases hreadable : ∀ c ∈ clauses, verdict std c ≠ .unreadable
    · exact .inl ⟨hreadable, agreed_of_orderFree hreadable h⟩
    · push Not at hreadable
      obtain ⟨c, hc, hunreadable⟩ := hreadable
      refine .inr ⟨⟨c, hc, hunreadable⟩, fun d hd hunlimited => ?_⟩
      obtain ⟨rest, hrest⟩ := exists_perm_cons hc
      obtain ⟨rest', hrest'⟩ := exists_perm_cons hd
      have hraises := h _ modelRisks hrest (.refl _)
      have hreturns := h _ modelRisks hrest' (.refl _)
      have hraised : hasUnlimitedLiability std (c :: rest) = .error "TypeError" := by
        rw [hasUnlimitedLiability_cons, hunreadable, scanEnd_some, hunreadable]
        rfl
      have hset : hasUnlimitedLiability std (d :: rest') = .ok true := by
        rw [hasUnlimitedLiability_cons, hunlimited, scanEnd_some, hunlimited]
        rfl
      rw [assess_eq a std (c :: rest), hraised] at hraises
      rw [assess_eq a std (d :: rest'), hset] at hreturns
      exact not_sameOutcome_of_both hreturns hraises
  · rintro (⟨hreadable, hagreed⟩ | ⟨hunreadable, hlimited⟩) clauses' modelRisks' hc hm
    · have hreadable' : ∀ c ∈ clauses', verdict std c ≠ .unreadable :=
        fun c hc' => hreadable c (hc.mem_iff.1 hc')
      rw [assess_eq, assess_eq, hasUnlimitedLiability_of_readable hreadable,
        hasUnlimitedLiability_of_readable hreadable', hc.any_eq]
      exact sameSummary_of_perm ha.symm hagreed hc hm
    · obtain ⟨c, hmem, hraises⟩ := hunreadable
      rw [assess_eq, assess_eq, hasUnlimitedLiability_of_unreadable hlimited ⟨c, hmem, hraises⟩,
        hasUnlimitedLiability_of_unreadable (fun d hd => hlimited d (hc.mem_iff.1 hd))
          ⟨c, hc.mem_iff.2 hmem, hraises⟩]
      trivial

end

/-! ## Two severities of one risk -/

def modelRisk (severity : RiskSeverity) : ExtractedRisk where
  riskType := RiskType.weakSla.value
  severity := severity
  clauseType := some "service_level"

/-- The assessor of a profile without mandatory clauses and weights. -/
def plainAssessor : RiskAssessor := build Stdlib.ascii (fun _ => "") [] [] 33 66

/-- A low and a high risk of one type and clause: the one that comes first sets the score. -/
theorem first_severity_kept :
    (plainAssessor.assess Stdlib.ascii [] [modelRisk .low, modelRisk .high]).toOption.map
        (fun x => (x.score, x.band)) = some (3, .low) ∧
      (plainAssessor.assess Stdlib.ascii [] [modelRisk .high, modelRisk .low]).toOption.map
        (fun x => (x.score, x.band)) = some (34, .medium) ∧
      ¬ plainAssessor.OrderFree Stdlib.ascii [] [modelRisk .low, modelRisk .high] := by
  have hlow : (plainAssessor.assess Stdlib.ascii [] [modelRisk .low, modelRisk .high]).toOption.map
      (fun x => (x.score, x.band)) = some (3, .low) := by decide +kernel
  have hhigh : (plainAssessor.assess Stdlib.ascii [] [modelRisk .high, modelRisk .low]).toOption.map
      (fun x => (x.score, x.band)) = some (34, .medium) := by decide +kernel
  refine ⟨hlow, hhigh, fun hfree => ?_⟩
  have hsame := hfree [] [modelRisk .high, modelRisk .low] (.refl _) (.swap _ _ _)
  obtain ⟨x, hx, hxscore⟩ := Option.map_eq_some_iff.1 hlow
  obtain ⟨y, hy, hyscore⟩ := Option.map_eq_some_iff.1 hhigh
  rw [Except.toOption_eq_some.1 hx, Except.toOption_eq_some.1 hy] at hsame
  have hscore := hsame.score
  have hx3 : x.score = 3 := congrArg Prod.fst hxscore
  have hy34 : y.score = 34 := congrArg Prod.fst hyscore
  omega

end RiskAssessor

end Clear
