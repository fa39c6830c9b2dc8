import Clear.Ai.Extraction.Proof.Outcomes
import Clear.Ai.Extraction.Proof.Runs

/-!
# When an omission is asserted

The assessor sees the types of the extracted clauses and nothing else: a mandatory clause type is
asserted to be absent exactly when its category yields no clause (`asserted_iff`), whatever the
reason. `clauseEnd` tells the reasons apart. So the assertion is sound exactly when every mandatory
category is looked for and ends in a clause, in no evidence or in a reported absence
(`omissions_sound_iff`).
-/

namespace Clear

open ExtractionEngine

namespace Extractor

inductive ClauseEnd where
  /-- Clauses are not wanted, or none of the planned categories has this key. -/
  | notAsked
  /-- No chunk was selected. -/
  | noEvidence
  /-- The provider raised: an error, a refusal or an unusable response. -/
  | callFailed
  /-- The answer has no list of clauses. -/
  | noClauseList
  /-- The validation of an entry raised. -/
  | crashed
  /-- The model reported absence: nothing found, or a list without entries. -/
  | reportedAbsent
  /-- Every entry failed its validation. -/
  | rejected
  | found
  deriving DecidableEq

def ClauseEnd.absent : ClauseEnd → Bool
  | noEvidence | reportedAbsent => true
  | _ => false

def foundParties (x : Extractor) (q : ExtractionRequest) : List ExtractedParty :=
  match (x.engine q).documentSteps q with
  | .ok r => r.parties
  | .error _ => []

def entriesEnd (read : Except String (List ExtractedClause × List ValidationIssue))
    (items : List Value) : ClauseEnd :=
  match read with
  | .error _ => .crashed
  | .ok (clauses, _) =>
    if !clauses.isEmpty then .found
    else if items.any (·.asDict?.isSome) then .rejected
    else .reportedAbsent

def definitionEnd (x : Extractor) (q : ExtractionRequest) (d : ClauseDefinition) : ClauseEnd :=
  if (x.select q.chunks d.key).isEmpty then .noEvidence
  else
    match x.generate d.category with
    | .error _ => .callFailed
    | .ok data =>
      if !(Value.get data "found").truthy then .reportedAbsent
      else
        match Value.get data "clauses" with
        | .list items =>
          entriesEnd (readItems ((x.readers q).clause d (x.foundParties q)) (.list items)) items
        | _ => .noClauseList

def clauseEnd (x : Extractor) (q : ExtractionRequest) (key : String) : ClauseEnd :=
  if !q.wants "clauses" then .notAsked
  else
    match q.clausePlan.find? (·.key = key) with
    | none => .notAsked
    | some d => x.definitionEnd q d

def Asserted (r : ExtractionResult) (key : String) : Prop :=
  key ∈ r.assessment.missingMandatory ∨
    ∃ risk ∈ r.assessment.risks, risk.isOmission = true ∧ risk.clauseType = some key

def OmissionsSound (x : Extractor) (q : ExtractionRequest) (r : ExtractionResult) : Prop :=
  ∀ key, Asserted r key → (x.clauseEnd q key).absent = true

/-! ## The clauses of a category -/

theorem readItems_mem {α : Type} {read : Nat → ValueDict → Except String (ItemRead α)}
    {items : Value} {out : List α} {issues : List ValidationIssue}
    (h : readItems read items = .ok (out, issues)) {a : α} (ha : a ∈ out) :
    ∃ i raw, read i raw = .ok (.accepted a) := by
  unfold readItems at h
  split at h
  · cases h
  refine Except.foldlM_invariant (fun acc => ∀ a ∈ acc.1, ∃ i raw, read i raw = .ok (.accepted a))
    ?_ (by simp) h a ha
  intro acc acc' entry _ hacc hstep
  unfold readItem at hstep
  split at hstep
  next raw _ =>
    obtain ⟨item, hitem, rfl⟩ := Except.map_eq_ok.1 hstep
    cases item with
    | skipped => exact hacc
    | rejected issues => exact hacc
    | accepted item =>
      intro b hb
      rcases List.mem_append.1 hb with hb | hb
      · exact hacc b hb
      · obtain rfl := List.mem_singleton.1 hb
        exact ⟨_, raw, hitem⟩
  · cases hstep
    exact hacc

section

variable {x : Extractor} {q : ExtractionRequest}

theorem readClause_type {ctx : ValidationContext} {bundle : EvidenceBundle} {d : ClauseDefinition}
    {parties : List ExtractedParty} {index : Nat} {raw : ValueDict} {c : ExtractedClause}
    (h : x.readClause ctx bundle d parties index raw = .ok (.accepted c)) : c.clauseType = d.key := by
  unfold readClause at h
  obtain ⟨confidence, -, h⟩ := Except.bind_eq_ok.1 h
  obtain ⟨outcome, -, h⟩ := Except.bind_eq_ok.1 h
  have hitem := Except.pure_eq_ok.1 h
  unfold accept at hitem
  split at hitem
  · cases hitem
  · cases hitem
    rfl

theorem categoryClauses_type {d : ClauseDefinition} {parties : List ExtractedParty}
    {c : ExtractedClause} (h : c ∈ (x.engine q).categoryClauses q parties d) :
    c.clauseType = d.key := by
  unfold categoryClauses at h
  split at h
  · simp at h
  next data _ =>
    split at h
    next reading hread =>
      unfold parseClauses at hread
      split at hread
      · split at hread
        · obtain ⟨⟨out, issues⟩, hitems, rfl⟩ := Except.map_eq_ok.1 hread
          obtain ⟨i, raw, hraw⟩ := readItems_mem hitems h
          exact readClause_type hraw
        · cases hread
          simp at h
      · cases hread
        simp at h
    · simp at h

theorem categoryClauses_ne_nil (d : ClauseDefinition) :
    (x.engine q).categoryClauses q (x.foundParties q) d ≠ [] ↔ x.definitionEnd q d = .found := by
  unfold categoryClauses answerOf definitionEnd
  have hselect : ((x.engine q).select q.chunks d.key) = x.select q.chunks d.key := rfl
  have hgenerate : (x.engine q).generate d.category = x.generate d.category := rfl
  rw [hselect, hgenerate]
  by_cases hempty : (x.select q.chunks d.key).isEmpty = true
  · simp [hempty]
  · rw [if_neg (by simp [hempty]), if_neg hempty]
    cases hgen : x.generate d.category with
    | error failure => simp
    | ok data =>
      dsimp only
      unfold parseClauses
      dsimp only
      by_cases hfound : (Value.get data "found").truthy = true
      · have hnot : ¬ (!(Value.get data "found").truthy) = true := by simp [hfound]
        rw [if_pos hfound, if_neg hnot]
        cases hclauses : Value.get data "clauses" with
        | list items =>
          have hreaders : (x.engine q).readers = x.readers q := rfl
          rw [hreaders]
          dsimp only
          generalize readItems ((x.readers q).clause d (x.foundParties q)) (.list items) = read
          unfold entriesEnd
          rcases read with message | ⟨clauses, issues⟩
          · simp [Except.map]
          · simp only [Except.map]
            cases clauses with
            | nil =>
              by_cases hdict : items.any (·.asDict?.isSome) = true
              · simp [hdict]
              · simp [hdict]
            | cons c clauses => simp
        | null => simp
        | bool b => simp
        | int n => simp
        | float y => simp
        | str s => simp
        | dict l => simp
      · have hnot : (!(Value.get data "found").truthy) = true := by simpa using hfound
        rw [if_neg hfound, if_pos hnot]
        simp

/-! ## The types found -/

def Fresh (r : ExtractionResult) : Prop := r.clauses = [] ∧ r.risks = []

theorem SameItems.fresh {r r' : ExtractionResult} (h : SameItems r r') (hr : Fresh r) : Fresh r' := by
  obtain ⟨outcomes, warnings, rfl⟩ := h
  exact hr

theorem documentSteps_fresh {e : ExtractionEngine} {r : ExtractionResult}
    (h : e.documentSteps q = .ok r) : Fresh r := by
  unfold documentSteps at h
  obtain ⟨r₁, h₁, h⟩ := Except.bind_eq_ok.1 h
  have hfresh : Fresh r₁ := by
    unfold whenWanted at h₁
    split at h₁
    · obtain ⟨⟨r', parties⟩, hout, rfl⟩ := Except.map_eq_ok.1 h₁
      have hstart : Fresh {} := ⟨rfl, rfl⟩
      have hout' : Fresh r' := SameItems.fresh (runCategory_spec _ _ _ hout).1 hstart
      exact hout'
    · cases h₁
      exact ⟨rfl, rfl⟩
  unfold whenWanted at h
  split at h
  · obtain ⟨⟨r', facts⟩, hout, rfl⟩ := Except.map_eq_ok.1 h
    have hout' : Fresh r' := SameItems.fresh (runCategory_spec _ _ _ hout).1 hfresh
    exact hout'
  · cases h
    exact hfresh

theorem mem_clauseStep {e : ExtractionEngine} {r : ExtractionResult} (hr : Fresh r)
    {c : ExtractedClause} :
    c ∈ (e.clauseStep q r).clauses ↔ q.wants "clauses" = true ∧
      ∃ d ∈ q.clausePlan, c ∈ e.categoryClauses q r.parties d := by
  unfold clauseStep
  split
  next hwants =>
    obtain ⟨outcomes, warnings, heq⟩ := extractClauses_eq e q (nameParties r)
    have hnil : (nameParties r).clauses = [] := hr.1
    have hparties : (nameParties r).parties = r.parties := rfl
    rw [heq, hnil, hparties]
    simp [hwants, List.mem_mergeSort]
  next hwants =>
    have hnil : (nameParties r).clauses = [] := hr.1
    rw [hnil]
    simp [hwants]

theorem clauseStep_risks {e : ExtractionEngine} {r : ExtractionResult} (hr : Fresh r) :
    (e.clauseStep q r).risks = [] := by
  unfold clauseStep
  split
  · obtain ⟨outcomes, warnings, heq⟩ := extractClauses_eq e q (nameParties r)
    rw [heq]
    exact hr.2
  · exact hr.2

theorem mem_types_iff {r : ExtractionResult} (h : (x.engine q).documentSteps q = .ok r)
    (key : String) :
    key ∈ ((x.engine q).clauseStep q r).clauses.map (·.clauseType) ↔
      x.clauseEnd q key = .found := by
  have hparties : x.foundParties q = r.parties := by
    unfold foundParties
    rw [h]
  have hfresh := documentSteps_fresh h
  unfold clauseEnd
  constructor
  · intro hmem
    obtain ⟨c, hc, rfl⟩ := List.mem_map.1 hmem
    obtain ⟨hwants, d, hd, hc⟩ := (mem_clauseStep hfresh).1 hc
    have htype := categoryClauses_type hc
    rw [if_neg (by simp [hwants])]
    have hfound : x.definitionEnd q d = .found := by
      rw [← categoryClauses_ne_nil, hparties]
      exact List.ne_nil_of_mem hc
    cases hfind : q.clausePlan.find? (·.key = c.clauseType) with
    | none =>
      have := List.find?_eq_none.1 hfind d hd
      simp [htype] at this
    | some d' =>
      have hkey : d'.key = d.key := by
        simpa [htype] using List.find?_some hfind
      rw [List.inj_on_of_nodup_map (clausePlan_keys q) (List.mem_of_find?_eq_some hfind) hd hkey]
      exact hfound
  · intro hend
    split at hend
    · cases hend
    next hwants =>
      split at hend
      · cases hend
      next d hfind =>
        rw [← categoryClauses_ne_nil, hparties] at hend
        obtain ⟨c, hc⟩ := List.exists_mem_of_ne_nil _ hend
        refine List.mem_map.2 ⟨c, (mem_clauseStep hfresh).2 ⟨by simpa using hwants, d,
          List.mem_of_find?_eq_some hfind, hc⟩, ?_⟩
        rw [categoryClauses_type hc]
        simpa using List.find?_some hfind

/-! ## The assertion -/

def NoOmissions (risks : List ExtractedRisk) : Prop := ∀ risk ∈ risks, risk.isOmission = false

theorem readRisk_isOmission {ctx : ValidationContext} {index : Nat} {raw : ValueDict}
    {risk : ExtractedRisk} (h : x.readRisk ctx index raw = .ok (.accepted risk)) :
    risk.isOmission = false := by
  unfold readRisk at h
  split at h
  · cases h
  · obtain ⟨confidence, -, h⟩ := Except.bind_eq_ok.1 h
    have hitem := Except.pure_eq_ok.1 h
    unfold accept at hitem
    split at hitem
    · cases hitem
    · cases hitem
      rfl

theorem runModelRisks_noOmissions {r r' : ExtractionResult} (hr : NoOmissions r.risks)
    (h : (x.engine q).runModelRisks q r = .ok r') : NoOmissions r'.risks := by
  obtain ⟨⟨r₁, items⟩, hout, rfl⟩ := Except.map_eq_ok.1 h
  obtain ⟨⟨outcomes, warnings, rfl⟩, hvalue⟩ := runCategory_spec _ _ _ hout
  rcases hvalue with ⟨-, rfl⟩ | ⟨data, reading, -, hread, rfl⟩
  · exact hr
  · obtain ⟨⟨risks, issues⟩, hitems, rfl⟩ := Except.map_eq_ok.1 hread
    intro risk hrisk
    obtain ⟨i, raw, hraw⟩ := readItems_mem hitems hrisk
    exact readRisk_isOmission hraw

theorem derivedSteps_noOmissions {r r' : ExtractionResult} (hr : NoOmissions r.risks)
    (h : (x.engine q).derivedSteps q r = .ok r') : NoOmissions r'.risks := by
  unfold derivedSteps at h
  obtain ⟨r₁, h₁, h⟩ := Except.bind_eq_ok.1 h
  obtain ⟨r₂, h₂, h⟩ := Except.bind_eq_ok.1 h
  obtain ⟨r₃, h₃, h⟩ := Except.bind_eq_ok.1 h
  obtain ⟨r₄, h₄, h⟩ := Except.bind_eq_ok.1 h
  let P (r : ExtractionResult) : Prop := NoOmissions r.risks
  have p₁ : P r₁ := whenWanted_keeps h₁ hr fun h => by
    have hsame : r₁.risks = r.risks := map_keeps (·.risks) SameItems.risks h fun out => by
      dsimp only
      split <;> rfl
    show NoOmissions _
    rw [hsame]
    exact hr
  have p₂ : P r₂ := whenWanted_keeps h₂ p₁ fun h => by
    have hsame : r₂.risks = r₁.risks := map_keeps (·.risks) SameItems.risks h fun _ => rfl
    show NoOmissions _
    rw [hsame]
    exact p₁
  have p₃ : P r₃ := whenWanted_keeps h₃ p₂ fun h => by
    have hsame : r₃.risks = r₂.risks := map_keeps (·.risks) SameItems.risks h fun out => by
      dsimp only
      split <;> rfl
    show NoOmissions _
    rw [hsame]
    exact p₂
  have p₄ : P r₄ := whenWanted_keeps h₄ p₃ (runModelRisks_noOmissions p₃)
  exact whenWanted_keeps (P := P) h p₄ fun h => by
    have hsame : r'.risks = r₄.risks := map_keeps (·.risks) SameItems.risks h fun _ => rfl
    show NoOmissions _
    rw [hsame]
    exact p₄

theorem mem_foldl_mergeRisk {risks model : List ExtractedRisk} {risk : ExtractedRisk} :
    risk ∈ model.foldl RiskAssessor.mergeRisk risks →
      risk ∈ risks ∨ ∃ m ∈ model, risk.isOmission = m.isOmission := by
  induction model generalizing risks with
  | nil => exact .inl
  | cons m model ih =>
    intro h
    rcases ih h with h | ⟨m', hm', heq⟩
    · unfold RiskAssessor.mergeRisk at h
      split at h
      · exact .inl h
      · rcases List.mem_append.1 h with h | h
        · exact .inl h
        · obtain rfl := List.mem_singleton.1 h
          exact .inr ⟨m, List.mem_cons_self, rfl⟩
    · exact .inr ⟨m', List.mem_cons_of_mem _ hm', heq⟩

theorem assess_asserted {a : RiskAssessor} {std : Stdlib} {clauses : List ExtractedClause}
    {model : List ExtractedRisk} {assessment : RiskAssessment} (hmodel : NoOmissions model)
    (h : a.assess std clauses model = .ok assessment) (key : String) :
    (key ∈ assessment.missingMandatory ∨
        ∃ risk ∈ assessment.risks, risk.isOmission = true ∧ risk.clauseType = some key) ↔
      key ∈ a.mandatory ∧ key ∉ clauses.map (·.clauseType) := by
  unfold RiskAssessor.assess at h
  dsimp only at h
  obtain ⟨unlimited, -, rfl⟩ := Except.map_eq_ok.1 h
  have hmissing : key ∈ a.mandatory.filter (!(clauses.map (·.clauseType)).contains ·) ↔
      key ∈ a.mandatory ∧ key ∉ clauses.map (·.clauseType) := by
    rw [List.mem_filter]
    simp
  constructor
  · rintro (hkey | ⟨risk, hrisk, homission, htype⟩)
    · exact hmissing.1 hkey
    · rcases mem_foldl_mergeRisk hrisk with hrisk | ⟨m, hm, heq⟩
      · obtain ⟨finding, hfinding, rfl⟩ := List.mem_map.1 hrisk
        rcases List.mem_append.1 hfinding with hfinding | hfinding
        · obtain ⟨key', hkey', rfl⟩ := List.mem_map.1 hfinding
          obtain rfl : key' = key := Option.some.inj htype
          exact hmissing.1 hkey'
        · obtain ⟨c, -, hfinding⟩ := List.mem_flatMap.1 hfinding
          obtain ⟨found, -, rfl⟩ := List.mem_map.1 hfinding
          cases homission
      · rw [heq, hmodel m hm] at homission
        cases homission
  · exact fun hkey => .inl (hmissing.2 hkey)

/-- A clause type is asserted to be absent exactly when it is mandatory and its category does not
end in a clause. -/
theorem asserted_iff {r : ExtractionResult} (hchunks : q.chunks ≠ []) (h : x.extract q = .ok r)
    (key : String) :
    Asserted r key ↔ key ∈ q.mandatoryClauseKeys ∧ x.clauseEnd q key ≠ .found := by
  obtain ⟨r₁, r₂, assessment, h₁, h₂, hassess, rfl⟩ := (extract_eq_ok hchunks).1 h
  have hrisks : NoOmissions ((x.engine q).clauseStep q r₁).risks := by
    rw [clauseStep_risks (documentSteps_fresh h₁)]
    intro risk hrisk
    cases hrisk
  rw [ne_eq, ← mem_types_iff h₁ key]
  exact assess_asserted (derivedSteps_noOmissions hrisks h₂) hassess key

/-- Every assertion of an absence is sound exactly when there are no chunks or every mandatory
clause type is looked for and ends in a clause, in no evidence or in a reported absence. -/
theorem omissions_sound_iff {r : ExtractionResult} (h : x.extract q = .ok r) :
    x.OmissionsSound q r ↔ q.chunks = [] ∨
      ∀ key ∈ q.mandatoryClauseKeys,
        x.clauseEnd q key = .found ∨ (x.clauseEnd q key).absent = true := by
  by_cases hchunks : q.chunks = []
  · have hnone : ∀ key, ¬ Asserted r key := by
      unfold extract ExtractionEngine.extract at h
      rw [if_pos (by simp [hchunks])] at h
      cases h
      rintro key (hkey | ⟨risk, hrisk, -⟩)
      · cases hkey
      · cases hrisk
    simp only [hchunks, true_or, iff_true]
    exact fun key hkey => absurd hkey (hnone key)
  · have hiff := asserted_iff hchunks h
    constructor
    · intro hsound
      refine .inr fun key hkey => ?_
      by_cases hfound : x.clauseEnd q key = .found
      · exact .inl hfound
      · exact .inr (hsound key ((hiff key).2 ⟨hkey, hfound⟩))
    · intro hends key hkey
      obtain ⟨hmandatory, hfound⟩ := (hiff key).1 hkey
      exact ((hends.resolve_left hchunks) key hmandatory).resolve_left hfound

end

/-! ## A failed call that asserts an absence -/

namespace Sample

/-- A standard library that knows no Unicode and matches nothing. -/
def std : Stdlib where
  lower := Text.lower
  upper := id
  isAlpha := Char.isAlpha
  repr _ := ""
  isoformat _ := ""
  parseFloat _ := none
  matchingBlocks _ _ := []

def timeouts : Extractor where
  std := std
  generate _ := .error (.provider "timed out")
  select chunks _ := { scored := chunks }
  head chunks := { scored := chunks }
  schemaIssues _ _ := []
  clauseAttributes _ _ _ := .ok {}
  riskRules := { handler := fun _ => [], score := fun _ => (0, []) }

def liability : ClauseDefinition where
  key := ClauseType.limitationOfLiability.value
  mandatory := true

def clausesOnly : ExtractionRequest where
  chunks := [{ chunkId := "c1" }]
  clauseDefinitions := [liability]
  keys := List.nodup_singleton _
  onlyCategories := some ["clauses"]

theorem clausesOnly_plan : clausesOnly.clausePlan = [liability] := by
  simp [ExtractionRequest.clausePlan, clausesOnly]

theorem timeouts_end (key : String) :
    timeouts.clauseEnd clausesOnly key =
      if liability.key = key then .callFailed else .notAsked := by
  unfold clauseEnd
  rw [clausesOnly_plan]
  by_cases hkey : liability.key = key
  · rw [if_pos hkey]
    simp [hkey, definitionEnd, timeouts, clausesOnly, ExtractionRequest.wants, EvidenceBundle.isEmpty]
  · rw [if_neg hkey]
    simp [hkey]

theorem timeouts_extract : ∃ r, timeouts.extract clausesOnly = .ok r := by
  have hchunks : clausesOnly.chunks ≠ [] := by simp [clausesOnly]
  have hclauses : ((timeouts.engine clausesOnly).clauseStep clausesOnly {}).clauses = [] := by
    rw [List.eq_nil_iff_forall_not_mem]
    intro c hc
    have hend : timeouts.clauseEnd clausesOnly c.clauseType = .found :=
      (mem_types_iff rfl _).1 (List.mem_map_of_mem hc)
    rw [timeouts_end] at hend
    split at hend <;> cases hend
  obtain ⟨assessment, hassess⟩ : ∃ assessment, (timeouts.engine clausesOnly).assess clausesOnly
      ((timeouts.engine clausesOnly).clauseStep clausesOnly {}).clauses
      ((timeouts.engine clausesOnly).clauseStep clausesOnly {}).risks = .ok assessment := by
    rw [hclauses]
    exact ⟨_, rfl⟩
  exact ⟨_, (extract_eq_ok hchunks).2 ⟨{}, _, assessment, rfl, rfl, hassess, rfl⟩⟩

end Sample

/-- A limitation of liability whose call times out is asserted to be absent from the agreement. -/
theorem failed_call_asserted :
    ∃ r, Sample.timeouts.extract Sample.clausesOnly = .ok r ∧
      Asserted r ClauseType.limitationOfLiability.value ∧
      Sample.timeouts.clauseEnd Sample.clausesOnly ClauseType.limitationOfLiability.value =
        .callFailed ∧
      ¬ Sample.timeouts.OmissionsSound Sample.clausesOnly r := by
  have hend := Sample.timeouts_end ClauseType.limitationOfLiability.value
  have hkey : Sample.liability.key = ClauseType.limitationOfLiability.value := rfl
  rw [if_pos hkey] at hend
  obtain ⟨r, hr⟩ := Sample.timeouts_extract
  have hchunks : Sample.clausesOnly.chunks ≠ [] := by simp [Sample.clausesOnly]
  have hasserted : Asserted r ClauseType.limitationOfLiability.value := by
    rw [asserted_iff hchunks hr, hend]
    exact ⟨by decide, by decide⟩
  refine ⟨r, hr, hasserted, hend, fun hsound => ?_⟩
  have habsent := hsound _ hasserted
  rw [hend] at habsent
  cases habsent

/-- The run of the failed call is one that the condition speaks about. -/
theorem failed_call_decided :
    ∃ r, Sample.timeouts.extract Sample.clausesOnly = .ok r ∧
      (Sample.timeouts.OmissionsSound Sample.clausesOnly r ↔ Sample.clausesOnly.chunks = [] ∨
        ∀ key ∈ Sample.clausesOnly.mandatoryClauseKeys,
          Sample.timeouts.clauseEnd Sample.clausesOnly key = .found ∨
            (Sample.timeouts.clauseEnd Sample.clausesOnly key).absent = true) := by
  obtain ⟨r, hr⟩ := Sample.timeouts_extract
  exact ⟨r, hr, omissions_sound_iff hr⟩

end Extractor

end Clear
