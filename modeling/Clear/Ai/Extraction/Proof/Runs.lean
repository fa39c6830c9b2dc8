import Clear.Ai.Extraction.Readers
import Clear.Lib.Except

/-!
# What an extraction is made of

A category changes the outcomes and the warnings and yields what its reader makes of the answer
(`runCategory_spec`); it raises only if its reader does. So the clauses of a run are those of its
clause categories, sorted (`extractClauses_eq`), the categories after the clauses leave them alone
(`derivedSteps_frame`) and raise exactly when one of their answers cannot be read
(`derivedSteps_ok_iff`).
-/

namespace Clear

namespace ExtractionEngine

variable {e : ExtractionEngine} {q : ExtractionRequest} {r r' : ExtractionResult}

def answerOf (e : ExtractionEngine) (category : String) (bundle : EvidenceBundle)
    (skipEmpty : Bool) : Option ValueDict :=
  if skipEmpty && bundle.isEmpty then none
  else
    match e.generate category with
    | .ok data => some data
    | .error _ => none

def SameItems (r r' : ExtractionResult) : Prop :=
  ∃ outcomes warnings, r' = { r with outcomes, warnings }

theorem SameItems.clauses (h : SameItems r r') : r'.clauses = r.clauses := by
  obtain ⟨outcomes, warnings, rfl⟩ := h
  rfl

theorem SameItems.parties (h : SameItems r r') : r'.parties = r.parties := by
  obtain ⟨outcomes, warnings, rfl⟩ := h
  rfl

theorem SameItems.facts (h : SameItems r r') : r'.facts = r.facts := by
  obtain ⟨outcomes, warnings, rfl⟩ := h
  rfl

theorem SameItems.risks (h : SameItems r r') : r'.risks = r.risks := by
  obtain ⟨outcomes, warnings, rfl⟩ := h
  rfl

theorem call_spec (e : ExtractionEngine) (outcome : CategoryOutcome) (r : ExtractionResult) :
    SameItems r (e.call outcome r).1 ∧
      (e.call outcome r).2.2 =
        match e.generate outcome.category with
        | .ok data => some data
        | .error _ => none := by
  unfold call
  split <;> rename_i h <;> rw [h] <;> exact ⟨⟨_, _, rfl⟩, rfl⟩

section

variable {α : Type} {outcome : CategoryOutcome} {bundle : EvidenceBundle} {skipEmpty : Bool}
  (noEvidence : Option String) (read : ValueDict → Except String (Reading α))
  (r : ExtractionResult)

theorem runCategory_none (h : e.answerOf outcome.category bundle skipEmpty = none) :
    ∃ r', SameItems r r' ∧
      e.runCategory outcome bundle skipEmpty noEvidence read r = .ok (r', none) := by
  unfold answerOf at h
  unfold runCategory
  dsimp only
  split at h
  next hempty =>
    rw [if_pos hempty]
    exact ⟨_, ⟨_, _, rfl⟩, rfl⟩
  next hempty =>
    rw [if_neg hempty]
    obtain ⟨hitems, hdata⟩ := call_spec e { outcome with evidenceChunks := bundle.chunkCount } r
    dsimp only at hdata
    rw [h] at hdata
    generalize e.call { outcome with evidenceChunks := bundle.chunkCount } r = called at *
    obtain ⟨r₁, outcome₁, data⟩ := called
    obtain rfl : data = none := hdata
    exact ⟨r₁, hitems, rfl⟩

theorem runCategory_some {data : ValueDict}
    (h : e.answerOf outcome.category bundle skipEmpty = some data) :
    ∃ f : Reading α → ExtractionResult, (∀ reading, SameItems r (f reading)) ∧
      e.runCategory outcome bundle skipEmpty noEvidence read r =
        (read data).map fun reading => (f reading, some reading.value) := by
  unfold answerOf at h
  unfold runCategory
  dsimp only
  split at h
  next => cases h
  next hempty =>
    rw [if_neg hempty]
    obtain ⟨hitems, hdata⟩ := call_spec e { outcome with evidenceChunks := bundle.chunkCount } r
    dsimp only at hdata
    rw [h] at hdata
    generalize e.call { outcome with evidenceChunks := bundle.chunkCount } r = called at *
    obtain ⟨r₁, outcome₁, data₁⟩ := called
    obtain rfl : data₁ = some data := hdata
    obtain ⟨outcomes, warnings, rfl⟩ := hitems
    exact ⟨fun reading => append { r with outcomes, warnings } (reading.finish outcome₁),
      fun reading => ⟨_, _, rfl⟩, rfl⟩

theorem runCategory_spec {value : Option α}
    (h : e.runCategory outcome bundle skipEmpty noEvidence read r = .ok (r', value)) :
    SameItems r r' ∧
      ((e.answerOf outcome.category bundle skipEmpty = none ∧ value = none) ∨
        ∃ data reading, e.answerOf outcome.category bundle skipEmpty = some data ∧
          read data = .ok reading ∧ value = some reading.value) := by
  cases hanswer : e.answerOf outcome.category bundle skipEmpty with
  | none =>
    obtain ⟨r₁, hitems, hrun⟩ := runCategory_none noEvidence read r hanswer
    rw [hrun] at h
    cases h
    exact ⟨hitems, .inl ⟨rfl, rfl⟩⟩
  | some data =>
    obtain ⟨f, hitems, hrun⟩ := runCategory_some noEvidence read r hanswer
    rw [hrun] at h
    obtain ⟨reading, hread, h⟩ := Except.map_eq_ok.1 h
    cases h
    exact ⟨hitems reading, .inr ⟨data, reading, rfl, hread, rfl⟩⟩

theorem runCategory_ok_iff :
    (∃ out, e.runCategory outcome bundle skipEmpty noEvidence read r = .ok out) ↔
      ∀ data, e.answerOf outcome.category bundle skipEmpty = some data →
        ∃ reading, read data = .ok reading := by
  cases hanswer : e.answerOf outcome.category bundle skipEmpty with
  | none =>
    obtain ⟨r₁, -, hrun⟩ := runCategory_none noEvidence read r hanswer
    simp [hrun]
  | some data =>
    obtain ⟨f, -, hrun⟩ := runCategory_some noEvidence read r hanswer
    rw [hrun]
    constructor
    · rintro ⟨out, h⟩ data' hdata
      cases hdata
      obtain ⟨reading, hread, -⟩ := Except.map_eq_ok.1 h
      exact ⟨reading, hread⟩
    · intro h
      obtain ⟨reading, hread⟩ := h data rfl
      exact ⟨_, Except.map_eq_ok.2 ⟨reading, hread, rfl⟩⟩

end

/-- A category only reads the provider's answer to it. -/
theorem runCategory_congr {α : Type} {e e' : ExtractionEngine} {outcome : CategoryOutcome}
    (hgenerate : e'.generate outcome.category = e.generate outcome.category)
    (hschema : e'.readers.schemaIssues = e.readers.schemaIssues) (bundle : EvidenceBundle)
    (skipEmpty : Bool) (noEvidence : Option String)
    (read : ValueDict → Except String (Reading α)) (r : ExtractionResult) :
    e'.runCategory outcome bundle skipEmpty noEvidence read r =
      e.runCategory outcome bundle skipEmpty noEvidence read r := by
  unfold runCategory call
  dsimp only
  rw [hgenerate, hschema]

/-! ## The clauses -/

def categoryClauses (e : ExtractionEngine) (q : ExtractionRequest) (parties : List ExtractedParty)
    (d : ClauseDefinition) : List ExtractedClause :=
  match e.answerOf d.category (e.select q.chunks d.key) true with
  | none => []
  | some data =>
    match e.parseClauses d parties data with
    | .ok reading => reading.value
    | .error _ => []

def batchClauses : Except String (List ExtractedClause) → List ExtractedClause
  | .ok clauses => clauses
  | .error _ => []

theorem SameItems.refl (r : ExtractionResult) : SameItems r r := ⟨_, _, rfl⟩

theorem SameItems.trans {r r' r'' : ExtractionResult} (h : SameItems r r') (h' : SameItems r' r'') :
    SameItems r r'' := by
  obtain ⟨outcomes, warnings, rfl⟩ := h
  obtain ⟨outcomes', warnings', rfl⟩ := h'
  exact ⟨outcomes', warnings', rfl⟩

theorem extractOneClause_some {d : ClauseDefinition} {data : ValueDict} (r : ExtractionResult)
    (h : e.answerOf d.category (e.select q.chunks d.key) true = some data) :
    ∃ f, e.extractOneClause q d r = (e.parseClauses d r.parties data).map f := by
  have hcategory : e.answerOf
      ({ category := d.category, promptId := "extraction.clauses" } : CategoryOutcome).category
      (e.select q.chunks d.key) true = some data := h
  obtain ⟨f, -, hrun⟩ := runCategory_some _ (e.parseClauses d r.parties) r hcategory
  exact ⟨_, hrun⟩

theorem gatherClause_spec
    (s : ExtractionResult × List (ClauseDefinition × Except String (List ExtractedClause)))
    (d : ClauseDefinition) :
    SameItems s.1 (e.gatherClause q s d).1 ∧
      ∃ batch, (e.gatherClause q s d).2 = s.2 ++ [(d, batch)] ∧
        batchClauses batch = e.categoryClauses q s.1.parties d := by
  unfold gatherClause categoryClauses
  split
  next message herror =>
    refine ⟨.refl _, _, rfl, ?_⟩
    cases hanswer : e.answerOf d.category (e.select q.chunks d.key) true with
    | none => rfl
    | some data =>
      obtain ⟨f, hrun⟩ := extractOneClause_some s.1 hanswer
      rw [hrun] at herror
      dsimp only
      cases hread : e.parseClauses d s.1.parties data with
      | error _ => rfl
      | ok reading =>
        rw [hread] at herror
        cases herror
  next result clauses hok =>
    obtain ⟨hitems, hvalue⟩ := runCategory_spec _ _ _ hok
    refine ⟨hitems, _, rfl, ?_⟩
    rcases hvalue with ⟨hanswer, rfl⟩ | ⟨data, reading, hanswer, hread, rfl⟩
    · rw [hanswer]
      rfl
    · rw [hanswer]
      dsimp only
      rw [hread]
      rfl

theorem foldl_gatherClause_spec
    (s : ExtractionResult × List (ClauseDefinition × Except String (List ExtractedClause)))
    (l : List ClauseDefinition) :
    SameItems s.1 (l.foldl (e.gatherClause q) s).1 ∧
      (l.foldl (e.gatherClause q) s).2.flatMap (batchClauses ·.2) =
        s.2.flatMap (batchClauses ·.2) ++ l.flatMap (e.categoryClauses q s.1.parties) := by
  induction l generalizing s with
  | nil => exact ⟨.refl _, by simp⟩
  | cons d l ih =>
    obtain ⟨hitems, batch, hbatch, hclauses⟩ := gatherClause_spec (e := e) (q := q) s d
    obtain ⟨hrest, hflat⟩ := ih (e.gatherClause q s d)
    rw [List.foldl_cons]
    refine ⟨hitems.trans hrest, ?_⟩
    rw [hflat, hbatch, hitems.parties]
    simp [hclauses]

theorem foldl_collectBatch_spec
    (batches : List (ClauseDefinition × Except String (List ExtractedClause)))
    (r : ExtractionResult) :
    ∃ outcomes, batches.foldl collectBatch r =
      { r with outcomes, clauses := r.clauses ++ batches.flatMap (batchClauses ·.2) } := by
  induction batches generalizing r with
  | nil => exact ⟨r.outcomes, by simp⟩
  | cons b batches ih =>
    obtain ⟨d, batch⟩ := b
    obtain ⟨outcomes, hfold⟩ := ih (collectBatch r (d, batch))
    rw [List.foldl_cons, hfold]
    refine ⟨outcomes, ?_⟩
    cases batch with
    | error message => simp [collectBatch, append, batchClauses]
    | ok clauses => simp [collectBatch, batchClauses]

def clauseRank (q : ExtractionRequest) (clauseType : String) : Nat :=
  ((q.clausePlan.map (·.key)).idxOf? clauseType).getD 999

/-- The order of the clauses: by the priority of their category, then by falling confidence. -/
def clauseLe (q : ExtractionRequest) (a b : ExtractedClause) : Bool :=
  clauseRank q a.clauseType < clauseRank q b.clauseType ||
    (clauseRank q a.clauseType = clauseRank q b.clauseType && b.confidence ≤ a.confidence)

theorem clauseLe_iff {q : ExtractionRequest} {a b : ExtractedClause} :
    clauseLe q a b = true ↔ clauseRank q a.clauseType < clauseRank q b.clauseType ∨
      (clauseRank q a.clauseType = clauseRank q b.clauseType ∧ b.confidence ≤ a.confidence) := by
  unfold clauseLe
  simp

theorem clauseLe_trans (q : ExtractionRequest) (a b c : ExtractedClause)
    (h : clauseLe q a b = true) (h' : clauseLe q b c = true) : clauseLe q a c = true := by
  rw [clauseLe_iff] at *
  rcases h with h | ⟨h, hconf⟩
  · rcases h' with h' | ⟨h', -⟩
    · exact .inl (h.trans h')
    · exact .inl (h' ▸ h)
  · rcases h' with h' | ⟨h', hconf'⟩
    · exact .inl (h ▸ h')
    · exact .inr ⟨h.trans h', Rat.le_trans hconf' hconf⟩

theorem clauseLe_total (q : ExtractionRequest) (a b : ExtractedClause) :
    (clauseLe q a b || clauseLe q b a) = true := by
  rw [Bool.or_eq_true, clauseLe_iff, clauseLe_iff]
  rcases Nat.lt_trichotomy (clauseRank q a.clauseType) (clauseRank q b.clauseType) with h | h | h
  · exact .inl (.inl h)
  · rcases Rat.le_total (a := b.confidence) (b := a.confidence) with hconf | hconf
    · exact .inl (.inr ⟨h, hconf⟩)
    · exact .inr (.inr ⟨h.symm, hconf⟩)
  · exact .inr (.inl h)

/-- The clauses of a run are those of its clause categories, sorted. -/
theorem extractClauses_eq (e : ExtractionEngine) (q : ExtractionRequest) (r : ExtractionResult) :
    ∃ outcomes warnings, e.extractClauses q r =
      { r with
        outcomes
        warnings
        clauses := (r.clauses ++ q.clausePlan.flatMap (e.categoryClauses q r.parties)).mergeSort
          (clauseLe q) } := by
  obtain ⟨hitems, hflat⟩ := foldl_gatherClause_spec (e := e) (q := q) (r, []) q.clausePlan
  obtain ⟨outcomes, hfold⟩ := foldl_collectBatch_spec
    (q.clausePlan.foldl (e.gatherClause q) (r, [])).2
    (q.clausePlan.foldl (e.gatherClause q) (r, [])).1
  obtain ⟨outcomes', warnings', hgathered⟩ := hitems
  unfold extractClauses
  dsimp only
  rw [hfold, hflat, hgathered]
  exact ⟨outcomes, warnings', rfl⟩

/-! ## The whole run -/

def documentSteps (e : ExtractionEngine) (q : ExtractionRequest) :
    Except String ExtractionResult := do
  let r ← whenWanted q "parties" (e.extractParties q) {}
  whenWanted q "metadata" (e.extractMetadata q) r

def clauseStep (e : ExtractionEngine) (q : ExtractionRequest) (r : ExtractionResult) :
    ExtractionResult :=
  if q.wants "clauses" then e.extractClauses q (nameParties r) else nameParties r

def derivedSteps (e : ExtractionEngine) (q : ExtractionRequest) (r : ExtractionResult) :
    Except String ExtractionResult := do
  let r ← whenWanted q "financial" (e.runFinancial q) r
  let r ← whenWanted q "obligations" (e.runObligations q) r
  let r ← whenWanted q "dates" (e.runDates q) r
  let r ← whenWanted q "risks" (e.runModelRisks q) r
  whenWanted q "relationships" (e.runRelationships q) r

theorem runCategories_eq (e : ExtractionEngine) (q : ExtractionRequest) :
    e.runCategories q = (e.documentSteps q).bind fun r => e.derivedSteps q (e.clauseStep q r) := by
  have hclauses : ∀ r, whenWanted q "clauses" (fun r => .ok (e.extractClauses q r)) (nameParties r) =
      .ok (e.clauseStep q r) := by
    intro r
    unfold whenWanted clauseStep
    split <;> rfl
  unfold runCategories documentSteps
  cases whenWanted q "parties" (e.extractParties q) {} with
  | error message => rfl
  | ok r₁ =>
    show (whenWanted q "metadata" (e.extractMetadata q) r₁ >>= _) =
      (whenWanted q "metadata" (e.extractMetadata q) r₁).bind _
    cases whenWanted q "metadata" (e.extractMetadata q) r₁ with
    | error message => rfl
    | ok r₂ =>
      show (whenWanted q "clauses" _ (nameParties r₂) >>= _) = _
      rw [hclauses]
      rfl

def SameClauses (r r' : ExtractionResult) : Prop :=
  r'.clauses = r.clauses ∧ r'.parties = r.parties

theorem SameClauses.trans {r r' r'' : ExtractionResult} (h : SameClauses r r')
    (h' : SameClauses r' r'') : SameClauses r r'' :=
  ⟨h'.1.trans h.1, h'.2.trans h.2⟩

theorem whenWanted_ok_iff {category : String}
    {step : ExtractionResult → Except String ExtractionResult} :
    (∃ r', whenWanted q category step r = .ok r') ↔
      (q.wants category = true → ∃ r', step r = .ok r') := by
  unfold whenWanted
  split
  next hwants => simp [hwants]
  next hwants => simp [hwants]

theorem whenWanted_same {category : String}
    {step : ExtractionResult → Except String ExtractionResult}
    (h : whenWanted q category step r = .ok r') (hstep : step r = .ok r' → SameClauses r r') :
    SameClauses r r' := by
  unfold whenWanted at h
  split at h
  · exact hstep h
  · cases h
    exact ⟨rfl, rfl⟩

theorem whenWanted_keeps {P : ExtractionResult → Prop} {category : String}
    {step : ExtractionResult → Except String ExtractionResult}
    (h : whenWanted q category step r = .ok r') (hr : P r) (hstep : step r = .ok r' → P r') :
    P r' := by
  unfold whenWanted at h
  split at h
  · exact hstep h
  · cases h
    exact hr

theorem map_keeps {α β : Type} {outcome : CategoryOutcome} {bundle : EvidenceBundle}
    {skipEmpty : Bool} {noEvidence : Option String}
    {read : ValueDict → Except String (Reading α)}
    {f : ExtractionResult × Option α → ExtractionResult} (get : ExtractionResult → β)
    (hget : ∀ {r r' : ExtractionResult}, SameItems r r' → get r' = get r)
    (h : (e.runCategory outcome bundle skipEmpty noEvidence read r).map f = .ok r')
    (hf : ∀ out, get (f out) = get out.1) : get r' = get r := by
  obtain ⟨out, hout, rfl⟩ := Except.map_eq_ok.1 h
  exact (hf out).trans (hget (runCategory_spec _ _ _ hout).1)

theorem map_same {α : Type} {outcome : CategoryOutcome} {bundle : EvidenceBundle}
    {skipEmpty : Bool} {noEvidence : Option String}
    {read : ValueDict → Except String (Reading α)}
    {f : ExtractionResult × Option α → ExtractionResult}
    (h : (e.runCategory outcome bundle skipEmpty noEvidence read r).map f = .ok r')
    (hf : ∀ out, SameClauses out.1 (f out)) : SameClauses r r' := by
  obtain ⟨out, hout, rfl⟩ := Except.map_eq_ok.1 h
  have hitems := (runCategory_spec _ _ _ hout).1
  exact SameClauses.trans ⟨hitems.clauses, hitems.parties⟩ (hf out)

theorem runFinancial_same (h : e.runFinancial q r = .ok r') : SameClauses r r' :=
  map_same h fun out => by
    dsimp only
    split <;> exact ⟨rfl, rfl⟩

theorem runObligations_same (h : e.runObligations q r = .ok r') : SameClauses r r' :=
  map_same h fun _ => ⟨rfl, rfl⟩

theorem runDates_same (h : e.runDates q r = .ok r') : SameClauses r r' :=
  map_same h fun out => by
    dsimp only
    split <;> exact ⟨rfl, rfl⟩

theorem runModelRisks_same (h : e.runModelRisks q r = .ok r') : SameClauses r r' :=
  map_same h fun _ => ⟨rfl, rfl⟩

theorem runRelationships_same (h : e.runRelationships q r = .ok r') : SameClauses r r' :=
  map_same h fun _ => ⟨rfl, rfl⟩

theorem derivedSteps_same (h : e.derivedSteps q r = .ok r') : SameClauses r r' := by
  unfold derivedSteps at h
  obtain ⟨r₁, h₁, h⟩ := Except.bind_eq_ok.1 h
  obtain ⟨r₂, h₂, h⟩ := Except.bind_eq_ok.1 h
  obtain ⟨r₃, h₃, h⟩ := Except.bind_eq_ok.1 h
  obtain ⟨r₄, h₄, h⟩ := Except.bind_eq_ok.1 h
  have s₁ := whenWanted_same h₁ runFinancial_same
  have s₂ := whenWanted_same h₂ runObligations_same
  have s₃ := whenWanted_same h₃ runDates_same
  have s₄ := whenWanted_same h₄ runModelRisks_same
  have s₅ := whenWanted_same h runRelationships_same
  exact s₁.trans (s₂.trans (s₃.trans (s₄.trans s₅)))

def Reads {α : Type} (e : ExtractionEngine) (q : ExtractionRequest) (category : String)
    (read : ValueDict → Except String (Reading α)) : Prop :=
  q.wants category = true → ∀ data,
    e.answerOf category (e.select q.chunks category) true = some data →
      ∃ reading, read data = .ok reading

structure DerivedReadable (e : ExtractionEngine) (q : ExtractionRequest) (facts : ContractFacts)
    (parties : List ExtractedParty) : Prop where
  financial : Reads e q "financial" fun data => (e.readers.financial facts parties data).map
    fun terms => { value := terms, itemCount := 1 }
  obligations : Reads e q "obligations" (readList "obligations" (e.readers.obligation parties))
  dates : Reads e q "dates" (readList "dates" (e.readers.keyDate parties))
  risks : Reads e q "risks" (readList "risks" (e.readers.risk parties))
  relationships : Reads e q "relationships"
    (readList "relationships" (e.readers.relationship parties))

theorem step_ok_iff {α : Type} {category : String}
    {read : ValueDict → Except String (Reading α)}
    {f : ExtractionResult × Option α → ExtractionResult} (r : ExtractionResult) :
    (q.wants category = true → ∃ r', (e.runDerived q category read r).map f = .ok r') ↔
      Reads e q category read := by
  unfold Reads
  rw [Except.exists_map_ok]
  exact imp_congr_right fun _ => runCategory_ok_iff _ _ _

theorem derivedSteps_ok_iff :
    (∃ r', e.derivedSteps q r = .ok r') ↔ e.DerivedReadable q r.facts r.parties := by
  unfold derivedSteps
  constructor
  · rintro ⟨r', h⟩
    obtain ⟨r₁, h₁, h⟩ := Except.bind_eq_ok.1 h
    obtain ⟨r₂, h₂, h⟩ := Except.bind_eq_ok.1 h
    obtain ⟨r₃, h₃, h⟩ := Except.bind_eq_ok.1 h
    obtain ⟨r₄, h₄, h⟩ := Except.bind_eq_ok.1 h
    have s₁ := whenWanted_same h₁ runFinancial_same
    have s₂ := s₁.trans (whenWanted_same h₂ runObligations_same)
    have s₃ := s₂.trans (whenWanted_same h₃ runDates_same)
    have s₄ := s₃.trans (whenWanted_same h₄ runModelRisks_same)
    constructor
    · exact (step_ok_iff r).1 (whenWanted_ok_iff.1 ⟨r₁, h₁⟩)
    · rw [← s₁.2]
      exact (step_ok_iff r₁).1 (whenWanted_ok_iff.1 ⟨r₂, h₂⟩)
    · rw [← s₂.2]
      exact (step_ok_iff r₂).1 (whenWanted_ok_iff.1 ⟨r₃, h₃⟩)
    · rw [← s₃.2]
      exact (step_ok_iff r₃).1 (whenWanted_ok_iff.1 ⟨r₄, h₄⟩)
    · rw [← s₄.2]
      exact (step_ok_iff r₄).1 (whenWanted_ok_iff.1 ⟨r', h⟩)
  · intro h
    obtain ⟨r₁, h₁⟩ : ∃ r', whenWanted q "financial" (e.runFinancial q) r = .ok r' :=
      whenWanted_ok_iff.2 ((step_ok_iff r).2 h.financial)
    have s₁ := whenWanted_same h₁ runFinancial_same
    obtain ⟨r₂, h₂⟩ : ∃ r', whenWanted q "obligations" (e.runObligations q) r₁ = .ok r' :=
      whenWanted_ok_iff.2 ((step_ok_iff r₁).2 (s₁.2 ▸ h.obligations))
    have s₂ := s₁.trans (whenWanted_same h₂ runObligations_same)
    obtain ⟨r₃, h₃⟩ : ∃ r', whenWanted q "dates" (e.runDates q) r₂ = .ok r' :=
      whenWanted_ok_iff.2 ((step_ok_iff r₂).2 (s₂.2 ▸ h.dates))
    have s₃ := s₂.trans (whenWanted_same h₃ runDates_same)
    obtain ⟨r₄, h₄⟩ : ∃ r', whenWanted q "risks" (e.runModelRisks q) r₃ = .ok r' :=
      whenWanted_ok_iff.2 ((step_ok_iff r₃).2 (s₃.2 ▸ h.risks))
    have s₄ := s₃.trans (whenWanted_same h₄ runModelRisks_same)
    obtain ⟨r₅, h₅⟩ : ∃ r', whenWanted q "relationships" (e.runRelationships q) r₄ = .ok r' :=
      whenWanted_ok_iff.2 ((step_ok_iff r₄).2 (s₄.2 ▸ h.relationships))
    rw [h₁]
    show ∃ r', (whenWanted q "obligations" (e.runObligations q) r₁ >>= _) = .ok r'
    rw [h₂]
    show ∃ r', (whenWanted q "dates" (e.runDates q) r₂ >>= _) = .ok r'
    rw [h₃]
    show ∃ r', (whenWanted q "risks" (e.runModelRisks q) r₃ >>= _) = .ok r'
    rw [h₄]
    exact ⟨r₅, h₅⟩

theorem extract_eq_ok (hchunks : q.chunks ≠ []) :
    e.extract q = .ok r ↔ ∃ r₁ r₂ assessment, e.documentSteps q = .ok r₁ ∧
      e.derivedSteps q (e.clauseStep q r₁) = .ok r₂ ∧
      e.assess q (e.clauseStep q r₁).clauses r₂.risks = .ok assessment ∧
      applyReviewTriggers q { r₂ with assessment, risks := assessment.risks } = r := by
  have hne : q.chunks.isEmpty = false := by simpa using hchunks
  unfold ExtractionEngine.extract
  rw [if_neg (by simp [hne]), runCategories_eq]
  constructor
  · intro h
    obtain ⟨r₂, h₂, h⟩ := Except.bind_eq_ok.1 h
    obtain ⟨r₁, h₁, h₂⟩ := Except.bind_eq_ok.1 h₂
    obtain ⟨assessment, hassess, h⟩ := Except.bind_eq_ok.1 h
    rw [(derivedSteps_same h₂).1] at hassess
    exact ⟨r₁, r₂, assessment, h₁, h₂, hassess, Except.pure_eq_ok.1 h⟩
  · rintro ⟨r₁, r₂, assessment, h₁, h₂, hassess, h⟩
    rw [← (derivedSteps_same h₂).1] at hassess
    exact Except.bind_eq_ok.2 ⟨r₂, Except.bind_eq_ok.2 ⟨r₁, h₁, h₂⟩,
      Except.bind_eq_ok.2 ⟨assessment, hassess, Except.pure_eq_ok.2 h⟩⟩

end ExtractionEngine

end Clear
