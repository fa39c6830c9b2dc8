import Clear.Ai.Extraction.Proof.Runs

/-!
# Dates that contradict each other

The metadata call's dates are checked when they are read, and a conflict between them asks for a
review. The dates call fills the gaps afterwards, and what it fills is not checked (`issues_iff`).

* `flagged_iff`: a conflict is flagged exactly when the metadata call gave both dates.
-/

namespace Clear

open Validation

def IsConflict (i : ValidationIssue) : Prop :=
  i.code = "effective_after_expiration" ∨ i.code = "execution_after_effective"

def Conflicting (issues : List ValidationIssue) : Prop := ∃ i ∈ issues, IsConflict i

def Inverted (effective expiration : Option Date) : Prop :=
  ∃ e f, effective = some e ∧ expiration = some f ∧ ¬ e ≤ f

def DatesFlagged (r : ExtractionResult) : Prop :=
  Inverted r.facts.effectiveDate r.facts.expirationDate →
    Conflicting r.facts.issues ∧ r.needsReview = true

def firstDate (t : DateType) (dates : List ExtractedKeyDate) : Option Date :=
  dates.findSome? fun d => if d.dateType = t then d.dateValue else none

structure DefaultDates (q : ExtractionRequest) : Prop where
  checked : ({ rules := q.validationRules } : ValidationContext).flag
    "dates.effective_before_expiration" true = true
  unchecked : ({ rules := q.validationRules } : ValidationContext).flag
    "dates.execution_not_after_effective" false = false
  reviewed : ExtractionEngine.ruleOn q "conflicting_dates" = true

/-! ## Checks that say nothing about conflicts -/

def Quiet (o o' : FieldOutcome) : Prop := ∀ i ∈ o'.issues, IsConflict i → i ∈ o.issues

theorem Quiet.refl (o : FieldOutcome) : Quiet o o := fun _ hi _ => hi

theorem Quiet.trans {o o' o'' : FieldOutcome} (h : Quiet o o') (h' : Quiet o' o'') :
    Quiet o o'' := fun i hi hc => h i (h' i hi hc) hc

variable {o o' : FieldOutcome} {std : Stdlib} {ctx : ValidationContext}

theorem quiet_error (o : FieldOutcome) {code : String} (message field : String)
    (h : code ≠ "effective_after_expiration" ∧ code ≠ "execution_after_effective") :
    Quiet o (o.error code message field) := by
  intro i hi hc
  rcases List.mem_append.1 hi with hi | hi
  · exact hi
  · obtain rfl := List.mem_singleton.1 hi
    exact absurd hc (not_or.2 h)

theorem quiet_warning (o : FieldOutcome) {code : String} (message field : String)
    (h : code ≠ "effective_after_expiration" ∧ code ≠ "execution_after_effective") :
    Quiet o (o.warning code message field) := by
  intro i hi hc
  rcases List.mem_append.1 hi with hi | hi
  · exact hi
  · obtain rfl := List.mem_singleton.1 hi
    exact absurd hc (not_or.2 h)

theorem Quiet.ite {o₁ o₂ : FieldOutcome} {c : Prop} [Decidable c] (h : Quiet o o₁)
    (h' : Quiet o o₂) : Quiet o (if c then o₁ else o₂) := by
  split
  · exact h
  · exact h'

theorem quiet_checkCitations (ids : Value) (fieldName : String) :
    Quiet o (checkCitations std ids ctx o fieldName).2 := by
  have hcases : ∀ texts : List String, Quiet o
      (if texts.isEmpty then
        (([] : List String), o.error "missing_citation"
          ("The item cites no evidence. Every extracted fact must reference the " ++
            "evidence block it came from.") fieldName)
      else
        let valid := texts.filter ctx.allowedChunkIds.contains
        let invented := texts.filter (!ctx.allowedChunkIds.contains ·)
        if invented.isEmpty then (valid, o)
        else
          (valid, o.error "unknown_evidence_citation"
            ("The item cites evidence ids that were not supplied: " ++
              ", ".intercalate (invented.take 5) ++
              ". A citation to evidence the model did not " ++
              "receive cannot be verified and the item is rejected.") fieldName)).2 := by
    intro texts
    dsimp only
    split
    · exact quiet_error o _ _ (by decide)
    · split
      · exact .refl o
      · exact quiet_error o _ _ (by decide)
  unfold checkCitations
  split
  · exact .refl o
  · exact hcases _

theorem quiet_checkConfidence {value : Value} {confidence : Rat}
    (h : checkConfidence std value o = .ok (confidence, o')) : Quiet o o' := by
  unfold checkConfidence at h
  split at h
  · cases h
  · cases h
    exact quiet_warning o _ _ (by decide)
  · split at h
    · cases h
      exact .refl o
    · cases h
      exact quiet_warning o _ _ (by decide)

theorem quiet_checkDuration {key : String} {value : Value}
    (h : checkDuration std key value o = .ok o') : Quiet o o' := by
  unfold checkDuration at h
  split at h
  next unit x _ _ =>
    obtain ⟨m, -, rfl⟩ := Except.map_eq_ok.1 h
    have hsign : Quiet o (if 0 ≤ x then o else o.error "negative_duration"
        (key ++ " is " ++ Value.text std value ++ "; a duration cannot be negative.") key) :=
      .ite (.refl o) (quiet_error o _ _ (by decide))
    exact hsign.trans (.ite (.refl _) (quiet_warning _ _ _ (by decide)))
  · cases h
    exact .refl o

theorem quiet_checkMoney {attributes : ValueDict} {key : String} {value : Value}
    (h : checkMoney std ctx attributes key value o = .ok o') : Quiet o o' := by
  unfold checkMoney at h
  split at h
  next x _ =>
    split at h
    · have hsign : Quiet o (if 0 ≤ x then o else o.error "negative_amount"
          (key ++ " is " ++ Value.text std value ++ "; a monetary amount cannot be negative.")
          key) := .ite (.refl o) (quiet_error o _ _ (by decide))
      obtain ⟨exceeds, -, rfl⟩ := Except.map_eq_ok.1 h
      refine hsign.trans (Quiet.trans ?_ (.ite (quiet_warning _ _ _ (by decide)) (.refl _)))
      exact .ite (quiet_warning _ _ _ (by decide)) (.refl _)
    · cases h
      exact .refl o
  · cases h
    exact .refl o

theorem quiet_checkCurrency (key : String) (value : Value) :
    Quiet o (checkCurrency std key value o) := by
  unfold checkCurrency
  split
  · split
    · dsimp only
      split
      · exact quiet_warning _ _ _ (by decide)
      · split
        · exact quiet_warning _ _ _ (by decide)
        · exact .refl o
    · exact .refl o
  · exact .refl o

theorem quiet_checkDate (key : String) (value : Value) :
    Quiet o (checkDate std ctx key value o) := by
  unfold checkDate
  split
  · split
    · exact quiet_warning _ _ _ (by decide)
    · exact .refl o
  · exact .refl o

theorem quiet_checkAttribute {attributes : ValueDict} {entry : String × Value}
    (h : checkAttribute std ctx attributes o entry = .ok o') : Quiet o o' := by
  unfold checkAttribute at h
  split at h
  · cases h
    exact .refl o
  · obtain ⟨o₁, h₁, h⟩ := Except.bind_eq_ok.1 h
    obtain ⟨o₂, h₂, h⟩ := Except.bind_eq_ok.1 h
    obtain rfl := Except.pure_eq_ok.1 h
    exact ((quiet_checkDuration h₁).trans (quiet_checkMoney h₂)).trans
      ((quiet_checkCurrency _ _).trans (quiet_checkDate _ _))

theorem quiet_checkGenericAttributes {attributes : ValueDict}
    (h : checkGenericAttributes std attributes ctx o = .ok o') : Quiet o o' := by
  have hfold : ∀ (l : ValueDict) (o : FieldOutcome),
      l.foldlM (checkAttribute std ctx attributes) o = .ok o' → Quiet o o' := by
    intro l
    induction l with
    | nil =>
      intro o h
      obtain rfl := Except.pure_eq_ok.1 h
      exact .refl o
    | cons entry l ih =>
      intro o h
      rw [List.foldlM_cons] at h
      obtain ⟨o₁, h₁, h⟩ := Except.bind_eq_ok.1 h
      exact (quiet_checkAttribute h₁).trans (ih o₁ h)
  exact hfold attributes o h

/-! ## The metadata call -/

theorem checkDateOrder_conflicting {facts : ValueDict} {q : ExtractionRequest}
    (h : DefaultDates q) (hctx : ctx.rules = q.validationRules) (ho : ¬ Conflicting o.issues) :
    Conflicting (checkDateOrder std facts o ctx).issues ↔
      Inverted (parseDate (Value.get facts "effective_date"))
        (parseDate (Value.get facts "expiration_date")) := by
  have hflag : ∀ path default, ctx.flag path default =
      ({ rules := q.validationRules } : ValidationContext).flag path default := by
    intro path default
    unfold ValidationContext.flag ValidationContext.rule
    rw [hctx]
  unfold checkDateOrder
  rw [hflag, hflag, h.checked, h.unchecked]
  simp only [Bool.not_true, Bool.false_eq_true, if_false, Bool.false_and]
  generalize parseDate (Value.get facts "effective_date") = effective
  generalize parseDate (Value.get facts "expiration_date") = expiration
  generalize parseDate (Value.get facts "execution_date") = execution
  cases effective with
  | none => cases execution <;> simpa [Inverted] using ho
  | some e =>
    cases expiration with
    | none => cases execution <;> simpa [Inverted] using ho
    | some f =>
      have hcheck : Conflicting (if e ≤ f then o else
          o.error "effective_after_expiration"
            ("The effective date (" ++ std.isoformat e ++ ") is after the expiration date (" ++
              std.isoformat f ++ "). One of the two was misread.") "effective_date").issues ↔
          Inverted (some e) (some f) := by
        split
        next hle =>
          refine iff_of_false ho ?_
          rintro ⟨e', f', he, hf, hlt⟩
          cases he
          cases hf
          exact hlt hle
        next hlt =>
          exact iff_of_true ⟨_, List.mem_append_right _ (List.mem_singleton_self _), .inl rfl⟩
            ⟨e, f, rfl, rfl, hlt⟩
      cases execution with
      | none => exact hcheck
      | some x => exact hcheck

theorem quiet_grounding {x : Extractor} {raw : ValueDict} {fieldName : String} {confidence : Rat}
    (h : x.grounding ctx raw fieldName = .ok (confidence, o)) : Quiet {} o :=
  (quiet_checkCitations (Value.get raw "evidence_chunk_ids") fieldName).trans
    (quiet_checkConfidence h)

theorem Quiet.not_conflicting (h : Quiet {} o) : ¬ Conflicting o.issues := by
  rintro ⟨i, hi, hc⟩
  exact List.not_mem_nil (h i hi hc)

/-- The facts of the metadata call: their dates as the answer gives them, and an issue exactly when
these conflict. -/
theorem readMetadata_dates {x : Extractor} {q : ExtractionRequest} {bundle : EvidenceBundle}
    {payload : ValueDict} {facts : ContractFacts} (hrules : DefaultDates q)
    (h : x.readMetadata (x.context q bundle) payload = .ok facts) :
    facts.effectiveDate = parseDate (Value.get payload "effective_date") ∧
      facts.expirationDate = parseDate (Value.get payload "expiration_date") ∧
      (Conflicting facts.issues ↔ Inverted facts.effectiveDate facts.expirationDate) := by
  unfold Extractor.readMetadata at h
  obtain ⟨⟨confidence, o₁⟩, hground, h⟩ := Except.bind_eq_ok.1 h
  obtain ⟨o₂, hgeneric, h⟩ := Except.bind_eq_ok.1 h
  obtain ⟨keyTopics, -, h⟩ := Except.bind_eq_ok.1 h
  obtain ⟨contractValue, -, h⟩ := Except.bind_eq_ok.1 h
  obtain rfl := Except.pure_eq_ok.1 h
  have hquiet : Quiet {} o₂ := (quiet_grounding hground).trans (quiet_checkGenericAttributes hgeneric)
  exact ⟨rfl, rfl, checkDateOrder_conflicting hrules rfl hquiet.not_conflicting⟩

/-! ## The dates of a run -/

namespace Extractor

open ExtractionEngine

variable {x : Extractor} {q : ExtractionRequest} {r r' : ExtractionResult}

def metadataDate (x : Extractor) (q : ExtractionRequest) (field : String) : Option Date :=
  if q.wants "metadata" then
    ((x.engine q).answerOf "metadata" (x.head q.chunks) false).bind fun payload =>
      parseDate (Value.get payload field)
  else none

def givenDates (x : Extractor) (q : ExtractionRequest) : List ExtractedKeyDate :=
  if q.wants "dates" then
    match (x.engine q).answerOf "dates" (x.select q.chunks "dates") true with
    | none => []
    | some data =>
      match readList "dates" (x.readKeyDate (x.context q (x.select q.chunks "dates"))) data with
      | .ok reading => reading.value
      | .error _ => []
  else []

def MetadataInverted (x : Extractor) (q : ExtractionRequest) : Prop :=
  Inverted (x.metadataDate q "effective_date") (x.metadataDate q "expiration_date")

/-- The facts have these dates, and an issue exactly when the dates of the metadata call conflict.
-/
structure Dated (x : Extractor) (q : ExtractionRequest) (facts : ContractFacts)
    (effective expiration : Option Date) : Prop where
  effective : facts.effectiveDate = effective
  expiration : facts.expirationDate = expiration
  issues : Conflicting facts.issues ↔ x.MetadataInverted q

def AsMetadata (x : Extractor) (q : ExtractionRequest) (facts : ContractFacts) : Prop :=
  x.Dated q facts (x.metadataDate q "effective_date") (x.metadataDate q "expiration_date")

theorem asMetadata_of_none (h : ∀ field, x.metadataDate q field = none) :
    x.AsMetadata q {} where
  effective := (h _).symm
  expiration := (h _).symm
  issues := by
    unfold MetadataInverted Inverted Conflicting
    simp [h]

theorem extractMetadata_dates (hrules : DefaultDates q) (hwants : q.wants "metadata" = true)
    (h : (x.engine q).extractMetadata q r = .ok r') : x.AsMetadata q r'.facts := by
  obtain ⟨⟨r₁, facts⟩, hout, rfl⟩ := Except.map_eq_ok.1 h
  have hdate : ∀ field, x.metadataDate q field =
      ((x.engine q).answerOf "metadata" (x.head q.chunks) false).bind fun payload =>
        parseDate (Value.get payload field) := fun field => if_pos hwants
  rcases (runCategory_spec _ _ _ hout).2 with ⟨hanswer, rfl⟩ | ⟨data, reading, hanswer, hread, rfl⟩
  · exact asMetadata_of_none fun field => by
      rw [hdate]
      exact Option.bind_eq_none_iff.2 fun payload hpayload => by
        rw [show (x.engine q).answerOf "metadata" (x.head q.chunks) false = none from hanswer]
          at hpayload
        cases hpayload
  · have hsome : ∀ field, x.metadataDate q field = parseDate (Value.get data field) := by
      intro field
      rw [hdate, show (x.engine q).answerOf "metadata" (x.head q.chunks) false = some data from
        hanswer]
      rfl
    obtain ⟨facts, hfacts, rfl⟩ := Except.map_eq_ok.1 hread
    obtain ⟨heffective, hexpiration, hissues⟩ := readMetadata_dates hrules hfacts
    rw [heffective, hexpiration] at hissues
    unfold AsMetadata
    rw [hsome, hsome]
    refine ⟨heffective, hexpiration, hissues.trans ?_⟩
    unfold MetadataInverted
    rw [hsome, hsome]

theorem documentSteps_dates (hrules : DefaultDates q)
    (h : (x.engine q).documentSteps q = .ok r) : x.AsMetadata q r.facts := by
  unfold documentSteps at h
  obtain ⟨r₁, h₁, h⟩ := Except.bind_eq_ok.1 h
  have hfacts : r₁.facts = {} := whenWanted_keeps (P := fun r => r.facts = {}) h₁ rfl fun h =>
    map_keeps (·.facts) SameItems.facts h fun _ => rfl
  unfold whenWanted at h
  split at h
  next hwants => exact extractMetadata_dates hrules hwants h
  next hwants =>
    cases h
    rw [hfacts]
    exact asMetadata_of_none fun field => if_neg hwants

theorem clauseStep_dates (h : x.AsMetadata q r.facts) :
    x.AsMetadata q ((x.engine q).clauseStep q r).facts := by
  have hnamed : x.AsMetadata q (nameParties r).facts := ⟨h.effective, h.expiration, h.issues⟩
  unfold clauseStep
  split
  · obtain ⟨outcomes, warnings, heq⟩ := extractClauses_eq (x.engine q) q (nameParties r)
    rw [heq]
    exact hnamed
  · exact hnamed

theorem readFinancial_quiet {facts : ContractFacts} {payload : ValueDict} {terms : FinancialTerms}
    {ctx : ValidationContext} (h : x.readFinancial ctx facts payload = .ok terms) :
    ¬ Conflicting terms.issues := by
  unfold readFinancial at h
  obtain ⟨o, hgeneric, h⟩ := Except.bind_eq_ok.1 h
  obtain ⟨totalValue, -, h⟩ := Except.bind_eq_ok.1 h
  obtain rfl := Except.pure_eq_ok.1 h
  exact ((quiet_checkCitations _ _).trans (quiet_checkGenericAttributes hgeneric)).not_conflicting

theorem conflicting_append {issues issues' : List ValidationIssue} (h : ¬ Conflicting issues') :
    Conflicting (issues ++ issues') ↔ Conflicting issues := by
  unfold Conflicting at *
  constructor
  · rintro ⟨i, hi, hc⟩
    rcases List.mem_append.1 hi with hi | hi
    · exact ⟨i, hi, hc⟩
    · exact absurd ⟨i, hi, hc⟩ h
  · rintro ⟨i, hi, hc⟩
    exact ⟨i, List.mem_append_left _ hi, hc⟩

theorem runFinancial_dates (hr : x.AsMetadata q r.facts)
    (h : (x.engine q).runFinancial q r = .ok r') : x.AsMetadata q r'.facts := by
  obtain ⟨⟨r₁, terms⟩, hout, rfl⟩ := Except.map_eq_ok.1 h
  obtain ⟨hitems, hvalue⟩ := runCategory_spec _ _ _ hout
  rw [← hitems.facts] at hr
  rcases hvalue with ⟨-, rfl⟩ | ⟨data, reading, -, hread, rfl⟩
  · exact hr
  · obtain ⟨terms, hterms, rfl⟩ := Except.map_eq_ok.1 hread
    exact ⟨hr.effective, hr.expiration,
      (conflicting_append (readFinancial_quiet hterms)).trans hr.issues⟩

theorem foldl_promoteDate (dates : List ExtractedKeyDate) (facts : ContractFacts) :
    (dates.foldl promoteDate facts).effectiveDate =
        facts.effectiveDate.or (firstDate .effectiveDate dates) ∧
      (dates.foldl promoteDate facts).expirationDate =
        facts.expirationDate.or (firstDate .expirationDate dates) ∧
      (dates.foldl promoteDate facts).issues = facts.issues := by
  induction dates generalizing facts with
  | nil => simp [firstDate]
  | cons d dates ih =>
    obtain ⟨heffective, hexpiration, hissues⟩ := ih (promoteDate facts d)
    rw [List.foldl_cons, heffective, hexpiration, hissues]
    unfold promoteDate firstDate
    cases hvalue : d.dateValue with
    | none => simp [hvalue]
    | some day => cases htype : d.dateType <;> simp [hvalue, htype]

theorem runDates_dates (hr : x.AsMetadata q r.facts)
    (h : whenWanted q "dates" ((x.engine q).runDates q) r = .ok r') :
    x.Dated q r'.facts
      ((x.metadataDate q "effective_date").or (firstDate .effectiveDate (x.givenDates q)))
      ((x.metadataDate q "expiration_date").or (firstDate .expirationDate (x.givenDates q))) := by
  have hopen : x.givenDates q = [] → x.Dated q r.facts
      ((x.metadataDate q "effective_date").or (firstDate .effectiveDate (x.givenDates q)))
      ((x.metadataDate q "expiration_date").or (firstDate .expirationDate (x.givenDates q))) := by
    intro hnone
    rw [hnone]
    simpa [firstDate, AsMetadata] using hr
  unfold whenWanted at h
  split at h
  next hwants =>
    obtain ⟨⟨r₁, items⟩, hout, rfl⟩ := Except.map_eq_ok.1 h
    obtain ⟨hitems, hvalue⟩ := runCategory_spec _ _ _ hout
    rw [← hitems.facts] at hr hopen
    rcases hvalue with ⟨hanswer, rfl⟩ | ⟨data, reading, hanswer, hread, rfl⟩
    · refine hopen ?_
      unfold givenDates
      rw [if_pos hwants, show (x.engine q).answerOf "dates" (x.select q.chunks "dates") true = none
        from hanswer]
    · have hgiven : x.givenDates q = reading.value := by
        unfold givenDates
        rw [if_pos hwants, show (x.engine q).answerOf "dates" (x.select q.chunks "dates") true =
          some data from hanswer]
        dsimp only
        rw [show readList "dates" (x.readKeyDate (x.context q (x.select q.chunks "dates"))) data =
          .ok reading from hread]
      obtain ⟨heffective, hexpiration, hissues⟩ := foldl_promoteDate reading.value r₁.facts
      rw [hgiven]
      refine ⟨?_, ?_, ?_⟩
      · rw [← hr.effective]
        exact heffective
      · rw [← hr.expiration]
        exact hexpiration
      · refine Iff.trans ?_ hr.issues
        show Conflicting (reading.value.foldl promoteDate r₁.facts).issues ↔ _
        rw [hissues]
  next hwants =>
    cases h
    exact hopen (if_neg hwants)

/-- The dates that a run leaves, and its issues about conflicts. -/
theorem derivedSteps_dates (hr : x.AsMetadata q r.facts)
    (h : (x.engine q).derivedSteps q r = .ok r') :
    x.Dated q r'.facts
      ((x.metadataDate q "effective_date").or (firstDate .effectiveDate (x.givenDates q)))
      ((x.metadataDate q "expiration_date").or (firstDate .expirationDate (x.givenDates q))) := by
  unfold derivedSteps at h
  obtain ⟨r₁, h₁, h⟩ := Except.bind_eq_ok.1 h
  obtain ⟨r₂, h₂, h⟩ := Except.bind_eq_ok.1 h
  obtain ⟨r₃, h₃, h⟩ := Except.bind_eq_ok.1 h
  obtain ⟨r₄, h₄, h⟩ := Except.bind_eq_ok.1 h
  have p₁ : x.AsMetadata q r₁.facts :=
    whenWanted_keeps (P := fun r => x.AsMetadata q r.facts) h₁ hr (runFinancial_dates hr)
  have s₂ : r₂.facts = r₁.facts :=
    whenWanted_keeps (P := fun r => r.facts = r₁.facts) h₂ rfl fun h =>
      map_keeps (·.facts) SameItems.facts h fun _ => rfl
  have p₃ := runDates_dates (r := r₂) (by rw [s₂]; exact p₁) h₃
  have s₄ : r₄.facts = r₃.facts :=
    whenWanted_keeps (P := fun r => r.facts = r₃.facts) h₄ rfl fun h =>
      map_keeps (·.facts) SameItems.facts h fun _ => rfl
  have s₅ : r'.facts = r₄.facts :=
    whenWanted_keeps (P := fun r => r.facts = r₄.facts) h rfl fun h =>
      map_keeps (·.facts) SameItems.facts h fun _ => rfl
  rw [s₅, s₄]
  exact p₃

theorem needsReview_of_conflicting (hrules : DefaultDates q) (h : Conflicting r.facts.issues) :
    (applyReviewTriggers q r).needsReview = true := by
  obtain ⟨i, hi, hc⟩ := h
  have hfound : (r.facts.issues.filter fun i =>
      i.code = "effective_after_expiration" || i.code = "execution_after_effective").isEmpty =
        false := by
    rw [List.isEmpty_eq_false_iff_exists_mem]
    exact ⟨i, List.mem_filter.2 ⟨hi, by simpa [IsConflict] using hc⟩⟩
  show (!(reviewReasons q r).isEmpty) = true
  unfold reviewReasons
  dsimp only
  rw [hrules.reviewed, hfound]
  simp [trigger]

/-- Conflicting dates in the final facts are flagged exactly when there are no chunks, when the
dates do not conflict or when the metadata call gave both of them. -/
theorem flagged_iff (hrules : DefaultDates q) (h : x.extract q = .ok r) :
    DatesFlagged r ↔ q.chunks = [] ∨
      (Inverted
          ((x.metadataDate q "effective_date").or (firstDate .effectiveDate (x.givenDates q)))
          ((x.metadataDate q "expiration_date").or (firstDate .expirationDate (x.givenDates q))) →
        (x.metadataDate q "effective_date").isSome = true ∧
          (x.metadataDate q "expiration_date").isSome = true) := by
  by_cases hchunks : q.chunks = []
  · unfold extract ExtractionEngine.extract at h
    rw [if_pos (by simp [hchunks])] at h
    cases h
    refine iff_of_true ?_ (.inl hchunks)
    rintro ⟨e, f, he, -⟩
    cases he
  · obtain ⟨r₁, r₂, assessment, h₁, h₂, -, rfl⟩ := (extract_eq_ok hchunks).1 h
    have hdated := derivedSteps_dates (clauseStep_dates (documentSteps_dates hrules h₁)) h₂
    have hflagged : DatesFlagged (applyReviewTriggers q
        { r₂ with assessment, risks := assessment.risks }) ↔
        (Inverted r₂.facts.effectiveDate r₂.facts.expirationDate →
          Conflicting r₂.facts.issues) := by
      refine imp_congr_right fun _ => ⟨And.left, fun hconflict => ⟨hconflict, ?_⟩⟩
      exact needsReview_of_conflicting (r := { r₂ with assessment, risks := assessment.risks })
        hrules hconflict
    rw [hflagged, hdated.effective, hdated.expiration, hdated.issues, or_iff_right hchunks]
    refine imp_congr_right fun hinverted => ⟨?_, ?_⟩
    · rintro ⟨e, f, he, hf, -⟩
      rw [he, hf]
      exact ⟨rfl, rfl⟩
    · rintro ⟨he, hf⟩
      obtain ⟨e, he⟩ := Option.isSome_iff_exists.1 he
      obtain ⟨f, hf⟩ := Option.isSome_iff_exists.1 hf
      unfold MetadataInverted
      rw [he, hf] at hinverted ⊢
      exact hinverted

/-! ## A conflict between the two calls -/

namespace LateExpiration

/-- A standard library that knows no Unicode and matches nothing. -/
def plain : Stdlib where
  lower := Text.lower
  upper := id
  isAlpha := Char.isAlpha
  repr _ := ""
  isoformat _ := ""
  parseFloat _ := none
  matchingBlocks _ _ := []

def grounded (fields : ValueDict) : ValueDict :=
  fields ++ [("confidence", .int 1), ("evidence_chunk_ids", .list [.str "c1"])]

/-- A metadata call that finds the effective date, and a dates call that finds an earlier expiration
date. -/
def answers (category : String) : Except CallFailure ValueDict :=
  if category = "metadata" then .ok (grounded [("effective_date", .str "2025-01-01")])
  else if category = "dates" then
    .ok [("dates", .list [.dict (grounded
      [("date_type", .str "expiration_date"), ("date_value", .str "2024-01-01")])])]
  else .error (.provider "timed out")

def extractor : Extractor where
  std := plain
  generate := answers
  select chunks _ := { scored := chunks }
  head chunks := { scored := chunks }
  schemaIssues _ _ := []
  clauseAttributes _ _ _ := .ok {}
  riskRules := { handler := fun _ => [], score := fun _ => (0, []) }

/-- A contract of one chunk under the default rules. -/
def request : ExtractionRequest where
  chunks := [{ chunkId := "c1" }]
  clauseDefinitions := []
  keys := List.nodup_nil

theorem request_default : DefaultDates request where
  checked := by decide
  unchecked := by decide
  reviewed := by decide

theorem extract_leaves : ((extractor.extract request).toOption.map fun r =>
    (r.facts.effectiveDate, r.facts.expirationDate, r.facts.issues, r.needsReview)) =
      some (Date.ofYmd? 2025 1 1, Date.ofYmd? 2024 1 1, [], false) := by decide +kernel

theorem extract_spec : ∃ r, extractor.extract request = .ok r ∧
    Inverted r.facts.effectiveDate r.facts.expirationDate ∧ r.facts.issues = [] := by
  obtain ⟨r, hr, hleaves⟩ := Option.map_eq_some_iff.1 extract_leaves
  have heffective : r.facts.effectiveDate = Date.ofYmd? 2025 1 1 := congrArg (·.1) hleaves
  have hexpiration : r.facts.expirationDate = Date.ofYmd? 2024 1 1 := congrArg (·.2.1) hleaves
  have hissues : r.facts.issues = [] := congrArg (·.2.2.1) hleaves
  refine ⟨r, Except.toOption_eq_some.1 hr, ?_, hissues⟩
  rw [heffective, hexpiration]
  exact ⟨739252, 738886, by decide, by decide, by decide⟩

end LateExpiration

/-- The metadata call gives an effective date, the dates call an earlier expiration date: nothing is
flagged. -/
theorem late_expiration_unflagged :
    DefaultDates LateExpiration.request ∧
      ∃ r, LateExpiration.extractor.extract LateExpiration.request = .ok r ∧
        Inverted r.facts.effectiveDate r.facts.expirationDate ∧ ¬ DatesFlagged r := by
  obtain ⟨r, hr, hinverted, hissues⟩ := LateExpiration.extract_spec
  refine ⟨LateExpiration.request_default, r, hr, hinverted, fun hflagged => ?_⟩
  obtain ⟨⟨i, hi, -⟩, -⟩ := hflagged hinverted
  rw [hissues] at hi
  cases hi

/-- The run of the late expiration date is one that the condition speaks about. -/
theorem late_expiration_decided :
    ∃ r, LateExpiration.extractor.extract LateExpiration.request = .ok r ∧
      (DatesFlagged r ↔ LateExpiration.request.chunks = [] ∨
        (Inverted
            ((LateExpiration.extractor.metadataDate LateExpiration.request "effective_date").or
              (firstDate .effectiveDate
                (LateExpiration.extractor.givenDates LateExpiration.request)))
            ((LateExpiration.extractor.metadataDate LateExpiration.request "expiration_date").or
              (firstDate .expirationDate
                (LateExpiration.extractor.givenDates LateExpiration.request))) →
          (LateExpiration.extractor.metadataDate LateExpiration.request
              "effective_date").isSome = true ∧
            (LateExpiration.extractor.metadataDate LateExpiration.request
              "expiration_date").isSome = true)) := by
  obtain ⟨r, hr, -, -⟩ := LateExpiration.extract_spec
  exact ⟨r, hr, flagged_iff LateExpiration.request_default hr⟩

end Extractor

end Clear
