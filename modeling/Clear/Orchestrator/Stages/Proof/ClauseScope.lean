import Clear.Orchestrator.Stages.Extraction

/-!
# The clauses of detection and of extraction

Detection asks the mapping for the document type, extraction for the agreement type that the
classification has written. Both are scoped to the same keys exactly if nothing is mapped to the
fallback type, and an unmapped label is configured like the type that it is filed under
(`scopes_agree_iff`).
-/

namespace Clear

namespace ExtractionStage

open DocPipeline (Classification)

variable {config : ClauseConfiguration} {docType : String}

def SameScope (a b : Option (List String)) : Prop :=
  (a = none ↔ b = none) ∧ ∀ keys ∈ a, ∀ keys' ∈ b, ∀ key, key ∈ keys ↔ key ∈ keys'

def extractionScope (config : ClauseConfiguration) (contract : Classification) (docType : String) :
    Option (List String) :=
  activeClauseKeys config (contract.promote docType).agreementType

structure ConfiguredAlike (config : ClauseConfiguration) (a b : String) : Prop where
  mapped : config.configured a = 0 ↔ config.configured b = 0
  keys : ∀ key, key ∈ config.activeKeys a ↔ key ∈ config.activeKeys b

def Aligned (config : ClauseConfiguration) (docType : String) : Prop :=
  if isFallback docType then config.configured fallbackDocType = 0
  else ConfiguredAlike config docType (Taxonomy.agreementTypeFor docType).1

/-! ## The two queries -/

def scopeOf (config : ClauseConfiguration) (agreementType : String) : Option (List String) :=
  if config.configured agreementType = 0 then none else some (config.activeKeys agreementType)

theorem clauseKeysFor_eq (h : isFallback docType = false) :
    clauseKeysFor config docType = scopeOf config docType := by
  unfold clauseKeysFor scopeOf
  rw [if_neg (by simp [h])]
  by_cases hrows : config.configured docType = 0
  · simp [hrows, ClauseConfiguration.activeKeys_of_configured_eq_zero hrows]
  · cases hkeys : config.activeKeys docType <;> simp [hrows]

theorem extractionScope_eq (contract : Classification) :
    extractionScope config contract docType =
      scopeOf config (Taxonomy.agreementTypeFor docType).1 := by
  unfold extractionScope activeClauseKeys scopeOf
  rw [Classification.promote_agreementType]
  obtain ⟨t, ht⟩ := Taxonomy.agreementTypeFor_value docType
  have hne : (Taxonomy.agreementTypeFor docType).1 ≠ "" := by
    rw [ht]
    cases t <;> decide
  simp [Option.filter, hne]

theorem agreementTypeFor_fallback (h : isFallback docType = true) :
    (Taxonomy.agreementTypeFor docType).1 = fallbackDocType := by
  have hstrip : Text.strip (Text.strip docType) = Text.strip docType := Text.trim_trim _ _
  have hfallback : Taxonomy.normalise fallbackDocType = "other" := by decide +kernel
  unfold isFallback at h
  simp only at h
  split at h
  · cases h
  · unfold Taxonomy.agreementTypeFor
    simp only
    split at h
    next hnorm =>
      rw [hfallback] at hnorm
      split
      next hvalue =>
        -- no other value has the comparable form of the fallback
        obtain ⟨t, ht⟩ := AgreementType.value_of_isSome hvalue
        rw [ht] at hnorm ⊢
        have hall : ∀ t : AgreementType, Taxonomy.normalise t.value = "other" → t = .other := by
          intro t
          cases t <;> decide +kernel
        rw [hall t hnorm]
        rfl
      · have hlegacy : Taxonomy.legacyAgreementType (Text.strip docType) = none := by
          unfold Taxonomy.legacyAgreementType
          rw [hnorm]
          decide
        rw [hlegacy]
        rfl
    · split
      next hvalue =>
        -- no value is a retired label of the fallback
        obtain ⟨t, ht⟩ := AgreementType.value_of_isSome hvalue
        rw [ht] at h
        have hall : ∀ t : AgreementType, (Taxonomy.legacyAgreementType t.value).any
            (fun mapped => mapped.1 = AgreementType.other.value) = false := by
          intro t
          cases t <;> decide +kernel
        rw [hall t] at h
        cases h
      · cases hlegacy : Taxonomy.legacyAgreementType (Text.strip docType) with
        | none =>
          rw [hlegacy] at h
          cases h
        | some mapped =>
          rw [hlegacy] at h
          exact of_decide_eq_true h

theorem sameScope_scopeOf {a b : String} :
    SameScope (scopeOf config a) (scopeOf config b) ↔ ConfiguredAlike config a b := by
  unfold SameScope scopeOf
  by_cases ha : config.configured a = 0
  · by_cases hb : config.configured b = 0
    · have hka := ClauseConfiguration.activeKeys_of_configured_eq_zero ha
      have hkb := ClauseConfiguration.activeKeys_of_configured_eq_zero hb
      simp only [ha, hb, if_true, true_and]
      exact iff_of_true (fun _ h => absurd h (by simp)) ⟨iff_of_true ha hb, by simp [hka, hkb]⟩
    · simp only [ha, hb, if_true, if_false]
      exact iff_of_false (fun h => by simp at h) fun h => hb (h.mapped.1 ha)
  · by_cases hb : config.configured b = 0
    · simp only [ha, hb, if_true, if_false]
      exact iff_of_false (fun h => by simp at h) fun h => ha (h.mapped.2 hb)
    · simp only [ha, hb, if_false]
      refine ⟨fun h => ⟨iff_of_false ha hb, h.2 _ rfl _ rfl⟩, fun h => ⟨by simp, ?_⟩⟩
      intro keys hkeys keys' hkeys'
      cases hkeys
      cases hkeys'
      exact h.keys

/-- **Detection and extraction look for the same clauses exactly if the configuration does not tell
the document type from the agreement type that it is filed under.** -/
theorem scopes_agree_iff (config : ClauseConfiguration) (contract : Classification)
    (docType : String) :
    SameScope (clauseKeysFor config docType) (extractionScope config contract docType) ↔
      Aligned config docType := by
  rw [extractionScope_eq]
  unfold Aligned
  cases hfallback : isFallback docType with
  | false =>
    rw [clauseKeysFor_eq hfallback]
    simpa using sameScope_scopeOf
  | true =>
    have hnone : clauseKeysFor config docType = none := by
      unfold clauseKeysFor
      rw [if_pos hfallback]
    rw [hnone, agreementTypeFor_fallback hfallback]
    unfold SameScope scopeOf
    by_cases hrows : config.configured fallbackDocType = 0 <;> simp [hrows]

def Sample.oneOfTwo : ClauseConfiguration where
  categories := [{ key := "term", name := "Term" }, { key := "notice", name := "Notice" }]
  mapping := [{ agreementType := "other", clauseKey := "term" }]

def Sample.ndaProfile : DocumentProfile where
  id := 7#128
  key := "nda"
  version := "1"
  agreementType := "nda"

/-- The taxonomy offers the fallback type, for which detection looks for every clause and extraction
for one. -/
theorem fallback_scopes_differ :
    (loadDocTypes .stable [Sample.ndaProfile]).any (·.contains "other") = true ∧
      ¬ SameScope (clauseKeysFor Sample.oneOfTwo "other")
        (extractionScope Sample.oneOfTwo {} "other") := by
  refine ⟨by decide +kernel, fun h => ?_⟩
  have hall : clauseKeysFor Sample.oneOfTwo "other" = none := by decide +kernel
  exact absurd (h.1.1 hall) (by decide +kernel)

end ExtractionStage

end Clear

/-!
## The scope of a profile

Neither query of `_resolve_profile` asks for the project of the contract. The profile that is
promoted respects the scope of a project exactly if the profiles of the type that are bound to
another project are outranked by one of the project, and the default is not bound to another project
where it is needed (`respects_scope_iff`).
-/

namespace Clear

namespace DocPipeline

variable {profiles : List DocumentProfile} {project : Uuid} {wanted : String}

/-! ## What is promised -/

def UsableBy (project : Uuid) (profile : DocumentProfile) : Prop :=
  profile.projectId = none ∨ profile.projectId = some project

instance (project : Uuid) (profile : DocumentProfile) : Decidable (UsableBy project profile) :=
  inferInstanceAs (Decidable (profile.projectId = none ∨ profile.projectId = some project))

def candidates (profiles : List DocumentProfile) (project : Uuid) (wanted : String) :
    List DocumentProfile :=
  (profilesOfType profiles wanted).filter (UsableBy project ·)

structure RespectsScope (profiles : List DocumentProfile) (project : Uuid) (wanted : String)
    (promoted : Option DocumentProfile) : Prop where
  usable : ∀ profile ∈ promoted, UsableBy project profile
  /-- A candidate is promoted if there is one, and one of the project if there is one. -/
  best : ∀ other ∈ candidates profiles project wanted, ∃ profile ∈ promoted,
    profile ∈ candidates profiles project wanted ∧
    (other.projectId = some project → profile.projectId = some project) ∧
    (other.projectId = profile.projectId → other.priority ≤ profile.priority)
  /-- What is not of the type is the default, and there is no candidate. -/
  fallback : ∀ profile ∈ promoted, profile ∉ candidates profiles project wanted →
    profile ∈ defaultProfiles profiles ∧ candidates profiles project wanted = []

/-- A profile of another project is outranked by one of the project, and is no default that is
needed. -/
structure Unshadowed (profiles : List DocumentProfile) (project : Uuid) (wanted : String) :
    Prop where
  outranked : ∀ foreign ∈ profilesOfType profiles wanted, ¬ UsableBy project foreign →
    ∃ own ∈ profilesOfType profiles wanted, own.projectId = some project ∧
      foreign.priority < own.priority
  default : profilesOfType profiles wanted = [] →
    ∀ profile ∈ defaultProfiles profiles, UsableBy project profile

/-! ## The query -/

theorem byPrecedence_le {a b : DocumentProfile} :
    byPrecedence.le a b = true ↔
      (a.projectId = none → b.projectId = none) ∧
      ((b.projectId = none → a.projectId = none) → b.priority ≤ a.priority) := by
  unfold byPrecedence
  rw [Sql.OrderBy.thenBy_le]
  simp only [Sql.OrderBy.asc_le, Sql.OrderBy.desc_le]
  cases a.projectId <;> cases b.projectId <;> simp

theorem mem_candidates {profile : DocumentProfile} :
    profile ∈ candidates profiles project wanted ↔
      profile ∈ profilesOfType profiles wanted ∧ UsableBy project profile := by
  unfold candidates
  simp [List.mem_filter]

theorem resolveProfile_nil (db : Sql.Engine DocumentProfile)
    (h : profilesOfType profiles wanted = []) :
    resolveProfile db profiles wanted =
      (db.select .unordered (defaultProfiles profiles)).head? := by
  unfold resolveProfile
  have hnone := (db.answers byPrecedence (profilesOfType profiles wanted)).head_none.2 h
  rw [hnone]

theorem resolveProfile_ne_nil (db : Sql.Engine DocumentProfile)
    (h : profilesOfType profiles wanted ≠ []) :
    ∃ profile, resolveProfile db profiles wanted = some profile ∧
      profile ∈ profilesOfType profiles wanted ∧
      ∀ other ∈ profilesOfType profiles wanted, byPrecedence.le profile other = true := by
  have hanswers := db.answers byPrecedence (profilesOfType profiles wanted)
  cases hhead : (db.select byPrecedence (profilesOfType profiles wanted)).head? with
  | none => exact absurd (hanswers.head_none.1 hhead) h
  | some profile =>
    refine ⟨profile, ?_, hanswers.head_le hhead⟩
    unfold resolveProfile
    rw [hhead]

theorem exists_resolveProfile {profile : DocumentProfile}
    (hmem : profile ∈ profilesOfType profiles wanted)
    (hle : ∀ other ∈ profilesOfType profiles wanted, byPrecedence.le profile other = true) :
    ∃ db, resolveProfile db profiles wanted = some profile := by
  obtain ⟨db, hdb⟩ := Sql.exists_head_iff.2 ⟨hmem, hle⟩
  refine ⟨db, ?_⟩
  unfold resolveProfile
  rw [hdb]

/-! ## The law -/

theorem Unshadowed.respects (h : Unshadowed profiles project wanted)
    (db : Sql.Engine DocumentProfile) :
    RespectsScope profiles project wanted (resolveProfile db profiles wanted) := by
  by_cases hnil : profilesOfType profiles wanted = []
  · have hcandidates : candidates profiles project wanted = [] := by
      unfold candidates
      rw [hnil]
      rfl
    rw [resolveProfile_nil db hnil]
    have hdefault : ∀ profile ∈ (db.select .unordered (defaultProfiles profiles)).head?,
        profile ∈ defaultProfiles profiles :=
      fun profile hp => ((db.answers _ _).head_le hp).1
    refine ⟨fun profile hp => h.default hnil profile (hdefault profile hp), ?_, ?_⟩
    · rw [hcandidates]
      exact fun _ hother => absurd hother List.not_mem_nil
    · exact fun profile hp _ => ⟨hdefault profile hp, hcandidates⟩
  · obtain ⟨profile, hresolve, hmem, hle⟩ := resolveProfile_ne_nil db hnil
    rw [hresolve]
    have husable : UsableBy project profile := by
      by_contra hforeign
      obtain ⟨own, hown, hproject, hlt⟩ := h.outranked profile hmem hforeign
      -- both are bound to a project, so the priorities decide
      have hbound : profile.projectId ≠ none := fun hnone => hforeign (.inl hnone)
      have := (byPrecedence_le.1 (hle own hown)).2 fun hnone => by simp [hproject] at hnone
      omega
    have hcand : profile ∈ candidates profiles project wanted := mem_candidates.2 ⟨hmem, husable⟩
    refine ⟨?_, fun other hother => ⟨profile, rfl, hcand, fun hbound => ?_, fun hsame => ?_⟩, ?_⟩
    · intro _ heq
      cases heq
      exact husable
    · have hprecedes := (byPrecedence_le.1 (hle other (mem_candidates.1 hother).1)).1
      rcases husable with hnone | hproject
      · simp [hprecedes hnone] at hbound
      · exact hproject
    · exact (byPrecedence_le.1 (hle other (mem_candidates.1 hother).1)).2 fun hnone =>
        hsame ▸ hnone
    · intro _ heq hnot
      cases heq
      exact absurd hcand hnot

/-- A profile of another project that none of the project outranks is promoted by some engine, or
one of another project that precedes it. -/
theorem exists_foreign {foreign : DocumentProfile}
    (hmem : foreign ∈ profilesOfType profiles wanted) (hforeign : ¬ UsableBy project foreign)
    (hrank : ∀ own ∈ profilesOfType profiles wanted, own.projectId = some project →
      own.priority ≤ foreign.priority) :
    ∃ db profile, resolveProfile db profiles wanted = some profile ∧
      ¬ UsableBy project profile := by
  -- the first of the profiles of other projects
  let others := (profilesOfType profiles wanted).filter fun profile => ¬ UsableBy project profile
  have hothers : foreign ∈ others := List.mem_filter.2 ⟨hmem, by simpa using hforeign⟩
  have hanswers := Sql.Engine.stable.answers (.desc DocumentProfile.priority) others
  cases hhead : (Sql.Engine.stable.select (.desc DocumentProfile.priority) others).head? with
  | none =>
    rw [hanswers.head_none.1 hhead] at hothers
    exact absurd hothers List.not_mem_nil
  | some top =>
    obtain ⟨htop, hle⟩ := hanswers.head_le hhead
    obtain ⟨htopmem, htopforeign⟩ := List.mem_filter.1 htop
    have hnot : ¬ UsableBy project top := by simpa using htopforeign
    have hmax : ∀ other ∈ others, other.priority ≤ top.priority := fun other hother =>
      Sql.OrderBy.desc_le.1 (hle other hother)
    have hfirst : ∀ other ∈ profilesOfType profiles wanted,
        byPrecedence.le top other = true := by
      intro other hother
      refine byPrecedence_le.2 ⟨fun hnone => absurd (.inl hnone) hnot, fun himp => ?_⟩
      by_cases husable : UsableBy project other
      · rcases husable with hnone | hproject
        · exact absurd (.inl (himp hnone)) hnot
        · exact (hrank other hother hproject).trans (hmax foreign hothers)
      · exact hmax other (List.mem_filter.2 ⟨hother, by simpa using husable⟩)
    obtain ⟨db, hdb⟩ := exists_resolveProfile htopmem hfirst
    exact ⟨db, top, hdb, hnot⟩

/-- **The profile that is promoted respects the scope of the project, whichever rows the database
returns for ties, exactly if no profile of another project comes first.** -/
theorem respects_scope_iff (profiles : List DocumentProfile) (project : Uuid) (wanted : String) :
    (∀ db, RespectsScope profiles project wanted (resolveProfile db profiles wanted)) ↔
      Unshadowed profiles project wanted := by
  refine ⟨fun h => ⟨fun foreign hmem hforeign => ?_, fun hnil profile hprofile => ?_⟩,
    fun h db => h.respects db⟩
  · by_contra hnone
    push Not at hnone
    obtain ⟨db, profile, hdb, hnot⟩ := exists_foreign hmem hforeign hnone
    exact hnot ((h db).usable profile hdb)
  · have hle : ∀ other ∈ defaultProfiles profiles,
        (Sql.OrderBy.unordered : Sql.OrderBy DocumentProfile).le profile other = true := fun _ _ => rfl
    obtain ⟨db, hdb⟩ := Sql.exists_head_iff.2 ⟨hprofile, hle⟩
    exact (h db).usable profile (by rw [resolveProfile_nil db hnil, hdb]; rfl)

def Sample.bound : DocumentProfile where
  id := 7#128
  key := "msa_project_two"
  version := "1"
  agreementType := "msa"
  projectId := some 2#128

/-- It governs a contract of project 1. -/
theorem foreign_profile_promoted :
    ¬ RespectsScope [Sample.bound] 1#128 "msa" (resolveProfile .stable [Sample.bound] "msa") := by
  intro h
  have husable := h.usable Sample.bound rfl
  revert husable
  decide

end DocPipeline

end Clear
