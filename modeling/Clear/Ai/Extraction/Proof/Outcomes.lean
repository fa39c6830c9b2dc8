import Clear.Ai.Extraction.Engine
import Clear.Lib.Except
import Mathlib.Data.List.Nodup
import Mathlib.Data.List.Perm.Basic

/-!
# One outcome for each requested category

Every category appends its outcome unless its call fails: then `_call` fills the outcome and the
caller returns without it. So the outcomes of a contract with chunks are those of the requested
categories whose call did not fail, in some order (`extract_outcomes`), and the extraction accounts
for every category exactly when no call fails (`accounted_iff`).
-/

namespace Clear

namespace ExtractionEngine

structure Requested where
  category : String
  bundle : EvidenceBundle
  always : Bool

def derived (e : ExtractionEngine) (q : ExtractionRequest) (category : String) : Requested :=
  { category, bundle := e.select q.chunks category, always := false }

def clauseRequest (e : ExtractionEngine) (q : ExtractionRequest) (d : ClauseDefinition) :
    Requested :=
  { category := d.category, bundle := e.select q.chunks d.key, always := false }

def headRequest (e : ExtractionEngine) (q : ExtractionRequest) (category : String) : Requested :=
  { category, bundle := e.head q.chunks, always := true }

def ifWanted (q : ExtractionRequest) (category : String) (l : List Requested) : List Requested :=
  if q.wants category then l else []

def requested (e : ExtractionEngine) (q : ExtractionRequest) : List Requested :=
  ifWanted q "parties" [e.headRequest q "parties"] ++
    ifWanted q "metadata" [e.headRequest q "metadata"] ++
    ifWanted q "clauses" (q.clausePlan.map (e.clauseRequest q)) ++
    ifWanted q "financial" [e.derived q "financial"] ++
    ifWanted q "obligations" [e.derived q "obligations"] ++
    ifWanted q "dates" [e.derived q "dates"] ++
    ifWanted q "risks" [e.derived q "risks"] ++
    ifWanted q "relationships" [e.derived q "relationships"]

def callFails (e : ExtractionEngine) (c : Requested) : Bool :=
  (c.always || !c.bundle.isEmpty) &&
    match e.generate c.category with
    | .error _ => true
    | .ok _ => false

def names (r : ExtractionResult) : List String := r.outcomes.map (·.category)

def answered (e : ExtractionEngine) (l : List Requested) : List String :=
  (l.filter (!e.callFails ·)).map (·.category)

theorem answered_append (e : ExtractionEngine) (l l' : List Requested) :
    e.answered (l ++ l') = e.answered l ++ e.answered l' := by
  simp [answered]

@[simp] theorem names_append (r : ExtractionResult) (o : CategoryOutcome) :
    names (append r o) = names r ++ [o.category] := by
  simp [names, append]

/-! ## One category -/

section

variable {e : ExtractionEngine} {q : ExtractionRequest} {r r' : ExtractionResult}

theorem call_names (outcome : CategoryOutcome) :
    names (e.call outcome r).1 = names r ∧
      (e.call outcome r).2.1.category = outcome.category ∧
      ((e.call outcome r).2.2 = none ↔ ∃ f, e.generate outcome.category = .error f) := by
  unfold call
  split <;> simp_all [names]

theorem runCategory_names {α : Type} {outcome : CategoryOutcome} {bundle : EvidenceBundle}
    {skipEmpty : Bool} {noEvidence : Option String}
    {read : ValueDict → Except String (Reading α)} {value : Option α}
    (h : e.runCategory outcome bundle skipEmpty noEvidence read r = .ok (r', value)) :
    names r' = names r ++
      e.answered [{ category := outcome.category, bundle, always := !skipEmpty }] := by
  unfold runCategory at h
  dsimp only at h
  split at h
  next hempty =>
    cases h
    rw [Bool.and_eq_true] at hempty
    simp [answered, callFails, hempty]
  next hcall =>
    have hasked : (!skipEmpty || !bundle.isEmpty) = true := by
      cases skipEmpty <;> simp_all
    obtain ⟨hnames, hcat, hnone⟩ := call_names (e := e) (r := r)
      { outcome with evidenceChunks := bundle.chunkCount }
    split at h
    next result _ heq =>
      cases h
      rw [heq] at hnames hnone
      obtain ⟨f, hf⟩ := hnone.1 rfl
      have hfails : e.callFails
          { category := outcome.category, bundle, always := !skipEmpty } = true := by
        unfold callFails
        rw [hasked, hf]
        rfl
      simp [answered, hfails, ← hnames]
    next result outcome' data heq =>
      obtain ⟨reading, -, h⟩ := Except.map_eq_ok.1 h
      cases h
      rw [heq] at hnames hcat hnone
      have hok : e.callFails
          { category := outcome.category, bundle, always := !skipEmpty } = false := by
        unfold callFails
        cases hg : e.generate outcome.category with
        | error f => exact absurd (hnone.2 ⟨f, hg⟩) (by simp)
        | ok data => simp
      have hcat' : outcome'.category = outcome.category := hcat
      rw [names_append, hnames]
      simp [answered, hok, Reading.finish, hcat']

/-- A category only raises on the answer of a call that succeeded. -/
theorem runCategory_error {α : Type} {outcome : CategoryOutcome} {bundle : EvidenceBundle}
    {skipEmpty : Bool} {noEvidence : Option String}
    {read : ValueDict → Except String (Reading α)} {message : String}
    (h : e.runCategory outcome bundle skipEmpty noEvidence read r = .error message) :
    e.callFails { category := outcome.category, bundle, always := !skipEmpty } = false := by
  unfold runCategory at h
  dsimp only at h
  split at h
  · cases h
  · split at h
    · cases h
    next result outcome' data heq =>
      obtain ⟨-, -, hnone⟩ := call_names (e := e) (r := r)
        { outcome with evidenceChunks := bundle.chunkCount }
      rw [heq] at hnone
      unfold callFails
      cases hg : e.generate outcome.category with
      | error f => exact absurd (hnone.2 ⟨f, hg⟩) (by simp)
      | ok data => simp

theorem runCategory_ok {α : Type} {outcome : CategoryOutcome} {bundle : EvidenceBundle}
    {skipEmpty : Bool} {noEvidence : Option String}
    {read : ValueDict → Except String (Reading α)}
    (hread : ∀ data, e.generate outcome.category = .ok data → ∃ x, read data = .ok x) :
    ∃ out, e.runCategory outcome bundle skipEmpty noEvidence read r = .ok out := by
  unfold runCategory
  dsimp only
  split
  · exact ⟨_, rfl⟩
  · split
    · exact ⟨_, rfl⟩
    next result outcome' data heq =>
      have hdata : e.generate outcome.category = .ok data := by
        revert heq
        unfold call
        split <;> simp_all
      obtain ⟨x, hx⟩ := hread data hdata
      exact ⟨_, Except.map_eq_ok.2 ⟨x, hx, rfl⟩⟩

/-! ## The steps -/

/-- A step that runs one category and then stores what it read. -/
theorem map_names {α : Type} {x : Except String (ExtractionResult × α)}
    {f : ExtractionResult × α → ExtractionResult} {l : List String}
    (h : x.map f = .ok r') (hf : ∀ a, names (f a) = names a.1)
    (hx : ∀ a, x = .ok a → names a.1 = l) : names r' = l := by
  obtain ⟨a, ha, rfl⟩ := Except.map_eq_ok.1 h
  rw [hf]
  exact hx a ha

theorem extractParties_names (h : e.extractParties q r = .ok r') :
    names r' = names r ++ e.answered [e.headRequest q "parties"] :=
  map_names h (fun _ => rfl) fun _ ha => runCategory_names ha

theorem extractMetadata_names (h : e.extractMetadata q r = .ok r') :
    names r' = names r ++ e.answered [e.headRequest q "metadata"] :=
  map_names h (fun _ => rfl) fun _ ha => runCategory_names ha

theorem runFinancial_names (h : e.runFinancial q r = .ok r') :
    names r' = names r ++ e.answered [e.derived q "financial"] :=
  map_names h (fun a => by dsimp only; split <;> rfl) fun _ ha => runCategory_names ha

theorem runObligations_names (h : e.runObligations q r = .ok r') :
    names r' = names r ++ e.answered [e.derived q "obligations"] :=
  map_names h (fun _ => rfl) fun _ ha => runCategory_names ha

theorem runDates_names (h : e.runDates q r = .ok r') :
    names r' = names r ++ e.answered [e.derived q "dates"] :=
  map_names h (fun a => by dsimp only; split <;> rfl) fun _ ha => runCategory_names ha

theorem runModelRisks_names (h : e.runModelRisks q r = .ok r') :
    names r' = names r ++ e.answered [e.derived q "risks"] :=
  map_names h (fun _ => rfl) fun _ ha => runCategory_names ha

theorem runRelationships_names (h : e.runRelationships q r = .ok r') :
    names r' = names r ++ e.answered [e.derived q "relationships"] :=
  map_names h (fun _ => rfl) fun _ ha => runCategory_names ha

/-! ## The clauses -/

def crashed (batches : List (ClauseDefinition × Except String (List ExtractedClause))) :
    List String :=
  (batches.filter fun b => !b.2.isOk).map (·.1.category)

theorem gatherClause_names
    (s : ExtractionResult × List (ClauseDefinition × Except String (List ExtractedClause)))
    (d : ClauseDefinition) :
    (names (e.gatherClause q s d).1 ++ crashed (e.gatherClause q s d).2).Perm
      (names s.1 ++ crashed s.2 ++ e.answered [e.clauseRequest q d]) := by
  unfold gatherClause
  split
  next message h =>
    have hok : e.callFails (e.clauseRequest q d) = false := runCategory_error h
    have hanswered : e.answered [e.clauseRequest q d] = [(e.clauseRequest q d).category] := by
      simp [answered, hok]
    rw [hanswered]
    simp [crashed, Except.isOk, Except.toBool, clauseRequest]
  next result clauses h =>
    rw [show names result = names s.1 ++ e.answered [e.clauseRequest q d] from
      runCategory_names h]
    have hcrashed : crashed (s.2 ++ [(d, Except.ok (clauses.getD []))]) = crashed s.2 := by
      simp [crashed, Except.isOk, Except.toBool]
    rw [hcrashed, List.append_assoc, List.append_assoc]
    exact List.perm_append_comm.append_left _

theorem foldl_gatherClause_names
    (s : ExtractionResult × List (ClauseDefinition × Except String (List ExtractedClause)))
    (l : List ClauseDefinition) :
    (names (l.foldl (e.gatherClause q) s).1 ++ crashed (l.foldl (e.gatherClause q) s).2).Perm
      (names s.1 ++ crashed s.2 ++ e.answered (l.map (e.clauseRequest q))) := by
  induction l generalizing s with
  | nil => simp [answered]
  | cons d l ih =>
    have hsplit : e.answered ((d :: l).map (e.clauseRequest q)) =
        e.answered [e.clauseRequest q d] ++ e.answered (l.map (e.clauseRequest q)) :=
      answered_append e [e.clauseRequest q d] _
    rw [List.foldl_cons, hsplit, ← List.append_assoc]
    exact (ih _).trans ((gatherClause_names s d).append_right _)

theorem foldl_collectBatch_names
    (batches : List (ClauseDefinition × Except String (List ExtractedClause))) :
    names (batches.foldl collectBatch r) = names r ++ crashed batches := by
  induction batches generalizing r with
  | nil => simp [crashed]
  | cons b batches ih =>
    obtain ⟨d, batch⟩ := b
    rw [List.foldl_cons, ih]
    cases batch with
    | error message =>
      simp [collectBatch, crashed, Except.isOk, Except.toBool]
    | ok clauses =>
      simp [collectBatch, names, crashed, Except.isOk, Except.toBool]

/-- The clause categories leave one outcome each, unless their call fails. -/
theorem extractClauses_names :
    (names (e.extractClauses q r)).Perm
      (names r ++ e.answered (q.clausePlan.map (e.clauseRequest q))) := by
  have hnames : names (e.extractClauses q r) =
      names (q.clausePlan.foldl (e.gatherClause q) (r, [])).1 ++
        crashed (q.clausePlan.foldl (e.gatherClause q) (r, [])).2 :=
    foldl_collectBatch_names _
  rw [hnames]
  simpa [crashed] using foldl_gatherClause_names (e := e) (q := q) (r, []) q.clausePlan

/-! ## The contract -/

theorem whenWanted_names {category : String}
    {step : ExtractionResult → Except String ExtractionResult} {l : List Requested}
    (h : whenWanted q category step r = .ok r')
    (hstep : step r = .ok r' → (names r').Perm (names r ++ e.answered l)) :
    (names r').Perm (names r ++ e.answered (ifWanted q category l)) := by
  unfold whenWanted at h
  unfold ifWanted
  split at h
  next hwants =>
    rw [if_pos hwants]
    exact hstep h
  next hwants =>
    cases h
    rw [if_neg hwants]
    simp [answered]

theorem runCategories_names (h : e.runCategories q = .ok r) :
    (names r).Perm (e.answered (e.requested q)) := by
  unfold runCategories at h
  obtain ⟨r₁, h₁, h⟩ := Except.bind_eq_ok.1 h
  obtain ⟨r₂, h₂, h⟩ := Except.bind_eq_ok.1 h
  obtain ⟨r₃, h₃, h⟩ := Except.bind_eq_ok.1 h
  obtain ⟨r₄, h₄, h⟩ := Except.bind_eq_ok.1 h
  obtain ⟨r₅, h₅, h⟩ := Except.bind_eq_ok.1 h
  obtain ⟨r₆, h₆, h⟩ := Except.bind_eq_ok.1 h
  obtain ⟨r₇, h₇, h⟩ := Except.bind_eq_ok.1 h
  have p₁ := whenWanted_names (e := e) h₁ fun h => .of_eq (extractParties_names h)
  have p₂ := whenWanted_names (e := e) h₂ fun h => .of_eq (extractMetadata_names h)
  have p₃ := whenWanted_names (e := e) h₃ fun h => by
    cases h
    exact extractClauses_names
  have p₄ := whenWanted_names (e := e) h₄ fun h => .of_eq (runFinancial_names h)
  have p₅ := whenWanted_names (e := e) h₅ fun h => .of_eq (runObligations_names h)
  have p₆ := whenWanted_names (e := e) h₆ fun h => .of_eq (runDates_names h)
  have p₇ := whenWanted_names (e := e) h₇ fun h => .of_eq (runModelRisks_names h)
  have p₈ := whenWanted_names (e := e) h fun h => .of_eq (runRelationships_names h)
  unfold requested
  simp only [answered_append]
  have hnamed : names (nameParties r₂) = names r₂ := rfl
  rw [hnamed] at p₃
  have hstart : names ({} : ExtractionResult) = [] := rfl
  rw [hstart, List.nil_append] at p₁
  exact p₈.trans ((p₇.trans ((p₆.trans ((p₅.trans ((p₄.trans ((p₃.trans ((p₂.trans
    (p₁.append_right _)).append_right _)).append_right _)).append_right _)).append_right
      _)).append_right _)).append_right _)

theorem extract_outcomes (h : e.extract q = .ok r) :
    (q.chunks = [] ∧ names r = []) ∨
      (q.chunks ≠ [] ∧ (names r).Perm (e.answered (e.requested q))) := by
  unfold extract at h
  split at h
  next hempty =>
    cases h
    exact .inl ⟨List.isEmpty_iff.1 hempty, rfl⟩
  next hne =>
    obtain ⟨r₁, h₁, h⟩ := Except.bind_eq_ok.1 h
    obtain ⟨assessment, -, h⟩ := Except.bind_eq_ok.1 h
    obtain rfl := Except.pure_eq_ok.1 h
    have hperm := runCategories_names h₁
    exact .inr ⟨fun hnil => hne (List.isEmpty_iff.2 hnil), hperm⟩

/-! ## Distinct categories -/

theorem category_head (d : ClauseDefinition) : d.category.toList.head? = some 'c' := by
  unfold ClauseDefinition.category
  rw [String.toList_append]
  rfl

theorem category_inj {d d' : ClauseDefinition} (h : d.category = d'.category) :
    d.key = d'.key := by
  have := congrArg String.toList h
  unfold ClauseDefinition.category at this
  rw [String.toList_append, String.toList_append] at this
  exact String.toList_inj.1 (List.append_cancel_left this)

theorem clausePlan_keys (q : ExtractionRequest) : (q.clausePlan.map (·.key)).Nodup := by
  have hsorted : ((q.clauseDefinitions.mergeSort fun a b =>
      a.priority < b.priority || (a.priority = b.priority && a.key ≤ b.key)).map (·.key)).Nodup :=
    ((List.mergeSort_perm _ _).map _).nodup_iff.2 q.keys
  unfold ExtractionRequest.clausePlan
  dsimp only
  split
  · exact hsorted
  · exact hsorted
  · exact (List.filter_sublist.map _).nodup hsorted

def fixedCategories : List String :=
  ["parties", "metadata", "financial", "obligations", "dates", "risks", "relationships"]

theorem category_not_fixed (d : ClauseDefinition) : d.category ∉ fixedCategories := by
  intro hmem
  have hhead : ∀ s ∈ fixedCategories, s.toList.head? ≠ some 'c' := by decide
  exact hhead _ hmem (category_head d)

theorem ifWanted_sublist (category : String) (l : List Requested) :
    ((ifWanted q category l).map (·.category)).Sublist (l.map (·.category)) := by
  unfold ifWanted
  split
  · exact List.Sublist.refl _
  · exact List.nil_sublist _

theorem requested_nodup (e : ExtractionEngine) (q : ExtractionRequest) :
    ((e.requested q).map (·.category)).Nodup := by
  generalize hl : (q.clausePlan.map (e.clauseRequest q)).map (·.category) = clauses
  have hclauses : clauses.Nodup := by
    rw [← hl, List.map_map]
    have hkeys := clausePlan_keys q
    rw [List.nodup_map_iff_inj_on (List.Nodup.of_map _ hkeys)]
    intro d hd d' hd' heq
    exact List.inj_on_of_nodup_map hkeys hd hd' (category_inj heq)
  have hdisjoint : List.Disjoint fixedCategories clauses := by
    intro c hfixed hc
    rw [← hl, List.map_map] at hc
    obtain ⟨d, -, rfl⟩ := List.mem_map.1 hc
    exact category_not_fixed d hfixed
  have hfull : (fixedCategories.take 2 ++ clauses ++ fixedCategories.drop 2).Nodup := by
    have hperm : (fixedCategories.take 2 ++ clauses ++ fixedCategories.drop 2).Perm
        (fixedCategories ++ clauses) := by
      rw [show fixedCategories ++ clauses =
        fixedCategories.take 2 ++ fixedCategories.drop 2 ++ clauses by
          rw [List.take_append_drop], List.append_assoc, List.append_assoc]
      exact List.perm_append_comm.append_left _
    exact hperm.nodup_iff.2 (List.Nodup.append (by decide) hclauses hdisjoint)
  have hsub : ((e.requested q).map (·.category)).Sublist
      (fixedCategories.take 2 ++ clauses ++ fixedCategories.drop 2) := by
    unfold requested
    simp only [List.map_append]
    have h := ((((((((ifWanted_sublist (q := q) "parties" [e.headRequest q "parties"]).append
      (ifWanted_sublist (q := q) "metadata" [e.headRequest q "metadata"])).append
      (ifWanted_sublist (q := q) "clauses" (q.clausePlan.map (e.clauseRequest q)))).append
      (ifWanted_sublist (q := q) "financial" [e.derived q "financial"])).append
      (ifWanted_sublist (q := q) "obligations" [e.derived q "obligations"])).append
      (ifWanted_sublist (q := q) "dates" [e.derived q "dates"])).append
      (ifWanted_sublist (q := q) "risks" [e.derived q "risks"])).append
      (ifWanted_sublist (q := q) "relationships" [e.derived q "relationships"]))
    rw [hl] at h
    simpa [fixedCategories, headRequest, derived] using h
  exact hsub.nodup hfull

/-! ## The account -/

/-- Every requested category has exactly one outcome, and one whose call failed is listed among the
failed categories and, with the validation-failure rule on, asks for a review. -/
def Accounted (e : ExtractionEngine) (q : ExtractionRequest) (r : ExtractionResult) : Prop :=
  ∀ c ∈ e.requested q, r.outcomes.countP (·.category = c.category) = 1 ∧
    (e.callFails c = true → c.category ∈ r.failedCategories ∧
      (ruleOn q "validation_failure" = true → r.needsReview = true))

theorem count_names (r : ExtractionResult) (c : String) :
    r.outcomes.countP (·.category = c) = (names r).count c := by
  unfold names
  rw [List.count, List.countP_map]
  apply List.countP_congr
  simp

theorem count_answered {c : Requested} (hc : c ∈ e.requested q) :
    (e.answered (e.requested q)).count c.category = if e.callFails c then 0 else 1 := by
  have hnodup := requested_nodup e q
  split
  next hfails =>
    rw [List.count_eq_zero]
    intro hmem
    obtain ⟨c', hc', heq⟩ := List.mem_map.1 hmem
    obtain ⟨hc', hok⟩ := List.mem_filter.1 hc'
    rw [List.inj_on_of_nodup_map hnodup hc' hc heq, hfails] at hok
    cases hok
  next hok =>
    apply List.count_eq_one_of_mem
    · exact (List.filter_sublist.map _).nodup hnodup
    · exact List.mem_map_of_mem (List.mem_filter.2 ⟨hc, by simpa using hok⟩)

end

/-- No answer makes its reader raise, besides the clauses, whose crashes are gathered. -/
structure Readable (e : ExtractionEngine) (q : ExtractionRequest) : Prop where
  parties : ∀ data, e.generate "parties" = .ok data →
    ∃ x, readList "parties" e.readers.party data = .ok x
  metadata : ∀ data, e.generate "metadata" = .ok data →
    ∀ parties, ∃ x, e.readers.metadata parties data = .ok x
  financial : ∀ data, e.generate "financial" = .ok data →
    ∀ facts parties, ∃ x, e.readers.financial facts parties data = .ok x
  obligations : ∀ data, e.generate "obligations" = .ok data →
    ∀ parties, ∃ x, readList "obligations" (e.readers.obligation parties) data = .ok x
  dates : ∀ data, e.generate "dates" = .ok data →
    ∀ parties, ∃ x, readList "dates" (e.readers.keyDate parties) data = .ok x
  risks : ∀ data, e.generate "risks" = .ok data →
    ∀ parties, ∃ x, readList "risks" (e.readers.risk parties) data = .ok x
  relationships : ∀ data, e.generate "relationships" = .ok data →
    ∀ parties, ∃ x, readList "relationships" (e.readers.relationship parties) data = .ok x
  assess : ∀ clauses risks, ∃ x, e.assess q clauses risks = .ok x

theorem whenWanted_ok {q : ExtractionRequest} {category : String}
    {step : ExtractionResult → Except String ExtractionResult} {r : ExtractionResult}
    (h : ∃ r', step r = .ok r') : ∃ r', whenWanted q category step r = .ok r' := by
  unfold whenWanted
  split
  · exact h
  · exact ⟨r, rfl⟩

theorem exists_map {α β : Type} {x : Except String α} {f : α → β} (h : ∃ a, x = .ok a) :
    ∃ b, x.map f = .ok b := by
  obtain ⟨a, ha⟩ := h
  exact ⟨f a, Except.map_eq_ok.2 ⟨a, ha, rfl⟩⟩

section

variable {e : ExtractionEngine} {q : ExtractionRequest}

theorem Readable.extract (h : e.Readable q) : ∃ r, e.extract q = .ok r := by
  unfold ExtractionEngine.extract
  split
  · exact ⟨_, rfl⟩
  obtain ⟨r₁, h₁⟩ : ∃ r', whenWanted q "parties" (e.extractParties q) {} = .ok r' :=
    whenWanted_ok (exists_map (runCategory_ok h.parties))
  obtain ⟨r₂, h₂⟩ : ∃ r', whenWanted q "metadata" (e.extractMetadata q) r₁ = .ok r' :=
    whenWanted_ok (exists_map (runCategory_ok fun data hd => exists_map (h.metadata data hd _)))
  obtain ⟨r₃, h₃⟩ : ∃ r', whenWanted q "clauses" (fun r => .ok (e.extractClauses q r))
      (nameParties r₂) = .ok r' := whenWanted_ok ⟨_, rfl⟩
  obtain ⟨r₄, h₄⟩ : ∃ r', whenWanted q "financial" (e.runFinancial q) r₃ = .ok r' :=
    whenWanted_ok (exists_map (runCategory_ok fun data hd => exists_map (h.financial data hd _ _)))
  obtain ⟨r₅, h₅⟩ : ∃ r', whenWanted q "obligations" (e.runObligations q) r₄ = .ok r' :=
    whenWanted_ok (exists_map (runCategory_ok fun data hd => h.obligations data hd _))
  obtain ⟨r₆, h₆⟩ : ∃ r', whenWanted q "dates" (e.runDates q) r₅ = .ok r' :=
    whenWanted_ok (exists_map (runCategory_ok fun data hd => h.dates data hd _))
  obtain ⟨r₇, h₇⟩ : ∃ r', whenWanted q "risks" (e.runModelRisks q) r₆ = .ok r' :=
    whenWanted_ok (exists_map (runCategory_ok fun data hd => h.risks data hd _))
  obtain ⟨r₈, h₈⟩ : ∃ r', whenWanted q "relationships" (e.runRelationships q) r₇ = .ok r' :=
    whenWanted_ok (exists_map (runCategory_ok fun data hd => h.relationships data hd _))
  have hrun : e.runCategories q = .ok r₈ := by
    unfold runCategories
    rw [h₁]
    show (whenWanted q "metadata" (e.extractMetadata q) r₁ >>= _) = _
    rw [h₂]
    show (whenWanted q "clauses" _ (nameParties r₂) >>= _) = _
    rw [h₃]
    show (whenWanted q "financial" (e.runFinancial q) r₃ >>= _) = _
    rw [h₄]
    show (whenWanted q "obligations" (e.runObligations q) r₄ >>= _) = _
    rw [h₅]
    show (whenWanted q "dates" (e.runDates q) r₅ >>= _) = _
    rw [h₆]
    show (whenWanted q "risks" (e.runModelRisks q) r₆ >>= _) = _
    rw [h₇]
    exact h₈
  obtain ⟨assessment, hassess⟩ := h.assess r₈.clauses r₈.risks
  exact ⟨_, Except.bind_eq_ok.2 ⟨r₈, hrun, Except.bind_eq_ok.2 ⟨assessment, hassess, rfl⟩⟩⟩

/-- The extraction returns unless the answer of a category cannot be read, and it accounts for every
requested category exactly when there are chunks (or nothing is requested) and no call fails. -/
theorem accounted_iff (e : ExtractionEngine) (q : ExtractionRequest) :
    (e.Readable q → ∃ r, e.extract q = .ok r) ∧
      ∀ r, e.extract q = .ok r → (e.Accounted q r ↔
        (q.chunks = [] → e.requested q = []) ∧
          ∀ c ∈ e.requested q, e.callFails c = false) := by
  refine ⟨fun h => h.extract, fun r h => ?_⟩
  have hout := extract_outcomes h
  constructor
  · intro hacc
    constructor
    · intro hnil
      rcases hout with ⟨-, hnames⟩ | ⟨hne, -⟩
      · rw [List.eq_nil_iff_forall_not_mem]
        intro c hc
        have := (hacc c hc).1
        rw [count_names, hnames] at this
        cases this
      · exact absurd hnil hne
    · intro c hc
      have hone := (hacc c hc).1
      rcases hout with ⟨-, hnames⟩ | ⟨-, hperm⟩
      · rw [count_names, hnames] at hone
        cases hone
      · rw [count_names, hperm.count_eq, count_answered hc] at hone
        cases hfails : e.callFails c with
        | false => rfl
        | true =>
          rw [hfails] at hone
          cases hone
  · rintro ⟨hchunks, hcalls⟩ c hc
    constructor
    · rcases hout with ⟨hnil, -⟩ | ⟨-, hperm⟩
      · rw [hchunks hnil] at hc
        cases hc
      · rw [count_names, hperm.count_eq, count_answered hc, hcalls c hc]
        rfl
    · intro hfails
      rw [hcalls c hc] at hfails
      cases hfails

end

/-! ## A failed call that leaves no trace -/

namespace Sample

def readers : ItemReaders where
  party _ _ := .ok .skipped
  metadata _ _ := .ok {}
  clause _ _ _ _ := .ok .skipped
  financial _ _ _ := .ok { totalValue := none, currency := none, paymentDays := none, issues := [] }
  obligation _ _ _ := .ok .skipped
  keyDate _ _ _ := .ok .skipped
  risk _ _ _ := .ok .skipped
  relationship _ _ _ := .ok .skipped
  schemaIssues _ _ := []

def timeouts : ExtractionEngine where
  generate _ := .error (.provider "timed out")
  select chunks _ := { scored := chunks }
  head chunks := { scored := chunks }
  readers := readers
  assess _ _ _ := .ok {}
  repr _ := ""

def partiesOnly : ExtractionRequest where
  chunks := [{ chunkId := "c1" }]
  clauseDefinitions := []
  keys := List.nodup_nil
  onlyCategories := some ["parties"]

end Sample

/-- The parties call fails: the result has no outcome, no failed category and needs no review. -/
theorem failed_parties_unaccounted :
    ∃ r, Sample.timeouts.extract Sample.partiesOnly = .ok r ∧ r.outcomes.isEmpty = true ∧
      r.failedCategories = [] ∧ r.needsReview = false ∧
      ¬ Sample.timeouts.Accounted Sample.partiesOnly r := by
  refine ⟨_, rfl, rfl, rfl, rfl, fun hacc => ?_⟩
  have hone := (hacc (Sample.timeouts.headRequest Sample.partiesOnly "parties")
    List.mem_cons_self).1
  cases hone

end ExtractionEngine

end Clear
