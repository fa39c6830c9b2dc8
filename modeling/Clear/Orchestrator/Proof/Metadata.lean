import Clear.Lib.Dict
import Clear.Lib.Except
import Clear.Orchestrator.Stages.ExtractionBase

/-!
# The metadata projection and earlier runs

`upsert` writes the columns that it is given and keeps the others (`upsert_column`), and the
projection gives it the columns for which the result carries a value (`value_eq_none_iff`). So a
column without a value keeps what an earlier run left there: two prior states lead to the same
columns exactly when they agree on those (`metadata_independent_iff`).
-/

namespace Clear

/-! ## The upsert -/

namespace MetadataTable

theorem getForContract_insert {t : MetadataTable} {row : ContractMetadata} {id : Uuid}
    (hid : row.contractId = id) (h : t.getForContract row.contractId = none) :
    (t.insert row h).getForContract id = some row := by
  subst hid
  unfold insert getForContract
  rw [List.find?_append, show t.rows.find? (·.contractId = row.contractId) = none from h]
  simp

theorem getForContract_contractId {t : MetadataTable} {id : Uuid} {row : ContractMetadata}
    (h : t.getForContract id = some row) : row.contractId = id := by
  simpa using List.find?_some h

theorem getForContract_setattrs {t : MetadataTable} {id : Uuid} {row : ContractMetadata}
    {values : List (MetadataColumn × Cell)} (h : t.getForContract id = some row) :
    (t.setattrs id values).getForContract id =
      some (values.foldl ContractMetadata.setattr row) := by
  have hid := getForContract_contractId h
  have hid' : (values.foldl ContractMetadata.setattr row).contractId = id := by
    rw [ContractMetadata.foldl_setattr_contractId, hid]
  have hmem : values.foldl ContractMetadata.setattr row ∈ (t.setattrs id values).rows :=
    List.mem_map.2 ⟨row, List.mem_of_find?_eq_some h, by rw [if_pos hid]⟩
  have hfind := Keyed.find_of_mem (t.setattrs id values).keys hmem
  simpa only [getForContract, hid'] using hfind

/-- What the database makes of the values, key by key. -/
theorem lookup_bound {bind : MetadataColumn → Cell → Except Raised Cell}
    {values bound : List (MetadataColumn × Cell)}
    (h : values.mapM (fun e => (bind e.1 e.2).map (e.1, ·)) = .ok bound) :
    bound.map Prod.fst = values.map Prod.fst ∧
      ∀ c, (values.lookup c = none → bound.lookup c = none) ∧
        ∀ v, values.lookup c = some v → ∃ v', bind c v = .ok v' ∧ bound.lookup c = some v' := by
  induction values generalizing bound with
  | nil =>
    obtain rfl : [] = bound := by simpa [pure, Except.pure] using h
    simp
  | cons e values ih =>
    obtain ⟨k, x⟩ := e
    rw [List.mapM_cons] at h
    obtain ⟨y, hy, h⟩ := Except.bind_eq_ok.1 h
    obtain ⟨x', hx', rfl⟩ := Except.map_eq_ok.1 hy
    obtain ⟨rest, hrest, h⟩ := Except.bind_eq_ok.1 h
    obtain rfl := Except.pure_eq_ok.1 h
    obtain ⟨hkeys, hlookup⟩ := ih hrest
    refine ⟨by simp [hkeys], fun c => ?_⟩
    by_cases hc : c = k
    · subst hc
      refine ⟨fun hn => by simp at hn, fun v hv => ?_⟩
      obtain rfl : x = v := by simpa using hv
      exact ⟨x', hx', by simp⟩
    · have hne : (c == k) = false := by simpa using hc
      simpa only [List.lookup_cons, hne] using hlookup c

/-- `upsert` leaves a row; in it a column that was given holds the bound value, and the others what
they held before. -/
theorem upsert_column {bind : MetadataColumn → Cell → Except Raised Cell} {id projectId : Uuid}
    {values : List (MetadataColumn × Cell)} {t t' : MetadataTable}
    (hkeys : (values.map Prod.fst).Nodup) (h : t.upsert bind id projectId values = .ok t') :
    (t'.getForContract id).isSome ∧
      ∀ c, (values.lookup c = none → t'.column id c = t.column id c) ∧
        ∀ v, values.lookup c = some v → ∃ v', bind c v = .ok v' ∧ t'.column id c = some v' := by
  unfold upsert at h
  obtain ⟨bound, hbound, h⟩ := Except.bind_eq_ok.1 h
  obtain ⟨hb, hlookup⟩ := lookup_bound hbound
  -- either way the row holds `bound` over its prior columns
  have hrow : ∃ row, t'.getForContract id = some row ∧
      ∀ c, row.columns c = (bound.lookup c).or (t.column id c) := by
    split at h
    next hnone =>
      obtain rfl := Except.pure_eq_ok.1 h
      have hid : (ContractMetadata.new id projectId bound).contractId = id :=
        ContractMetadata.foldl_setattr_contractId bound _
      refine ⟨_, getForContract_insert hid _, fun c => ?_⟩
      rw [column, hnone]
      exact ContractMetadata.foldl_setattr_columns (hb ▸ hkeys) c
    next hsome =>
      obtain rfl := Except.pure_eq_ok.1 h
      obtain ⟨row, hrow⟩ := Option.ne_none_iff_exists'.1 hsome
      refine ⟨_, getForContract_setattrs hrow, fun c => ?_⟩
      rw [column, hrow]
      exact ContractMetadata.foldl_setattr_columns (hb ▸ hkeys) c
  obtain ⟨row, hget, hcols⟩ := hrow
  have hcolumn : ∀ c, t'.column id c = (bound.lookup c).or (t.column id c) := by
    intro c
    rw [column, hget]
    exact hcols c
  refine ⟨by simp [hget], fun c => ⟨fun hn => ?_, fun v hv => ?_⟩⟩
  · rw [hcolumn, (hlookup c).1 hn, Option.none_or]
  · obtain ⟨v', hbind, hl⟩ := (hlookup c).2 v hv
    exact ⟨v', hbind, by rw [hcolumn, hl, Option.some_or]⟩

end MetadataTable

/-! ## The projection -/

namespace Projection

def supports (p : Projection) (r : ExtractionResult) : MetadataColumn → Bool
  | .effectiveDate => r.facts.effectiveDate.isSome
  | .executionDate => r.facts.executionDate.isSome
  | .expirationDate => r.facts.expirationDate.isSome
  | .noticeDeadline => r.noticeDeadline.isSome
  | .termMonths => r.facts.termMonths.isSome
  | .governingLaw =>
    (Value.ofStr? r.facts.governingLaw).truthy ||
      !(Value.get (r.attributesOf .governingLaw) "governing_law").isNull
  | .jurisdiction =>
    (Value.ofStr? r.facts.jurisdiction).truthy ||
      !(Value.get (r.attributesOf .governingLaw) "jurisdiction").isNull
  | .country => !(Value.get (r.attributesOf .governingLaw) "country").isNull
  | .language => p.language.isSome
  | .currency => r.facts.currency.isSome
  | .contractValue => r.facts.contractValue.isSome
  | .paymentTermsDays =>
    (Value.ofInt? r.facts.paymentTermsDays).truthy ||
      !(Value.get (r.attributesOf .paymentTerms) "payment_days").isNull
  | .partyA => r.facts.partyA.isSome
  | .partyB => r.facts.partyB.isSome
  | .autoRenewal => !(Value.get (r.attributesOf .autoRenewal) "auto_renews").isNull
  | .autoRenewalNoticeDays =>
    !(Value.get (r.attributesOf .autoRenewal) "renewal_notice_days").isNull
  | .renewalTermMonths =>
    !(Value.get (r.attributesOf .autoRenewal) "renewal_term_months").isNull
  | .liabilityCapAmount =>
    !(Value.get (r.attributesOf .limitationOfLiability) "cap_amount").isNull
  | .terminationNoticeDays =>
    !(Value.get (r.attributesOf .terminationForConvenience) "notice_days").isNull
  | .summary => (Value.ofStr? r.facts.executiveSummary).truthy || r.facts.summary.isSome
  -- every other projected column is always written
  | _ => true

theorem ofValue?_eq_none {v : Value} : Cell.ofValue? v = none ↔ v.isNull = true := by
  cases v <;> simp [Cell.ofValue?, Value.isNull]

@[simp] theorem isNull_ofStr? (s : Option String) : (Value.ofStr? s).isNull = !s.isSome := by
  cases s <;> rfl

@[simp] theorem isNull_ofInt? (n : Option Int) : (Value.ofInt? n).isNull = !n.isSome := by
  cases n <;> rfl

theorem isNull_or (v w : Value) : (v.or w).isNull = (!v.truthy && w.isNull) := by
  rw [Bool.eq_iff_iff, Value.isNull_eq_true, Value.or_eq_null]
  simp [Value.isNull_eq_true]

theorem value_eq_none_iff {p : Projection} {r : ExtractionResult} {hasCap : Bool}
    {c : MetadataColumn} (hc : c ∈ MetadataColumn.projected) :
    p.value r hasCap c = none ↔ p.supports r c = false := by
  cases c <;>
    first
      | exact absurd hc (by decide)
      | simp [value, supports, date, always, ofValue?_eq_none, isNull_or]

theorem projected_nodup : MetadataColumn.projected.Nodup := by decide

theorem values_keys (p : Projection) (r : ExtractionResult) (hasCap : Bool) :
    ((p.values r hasCap).map Prod.fst).Nodup := by
  have hsub : ((p.values r hasCap).map Prod.fst).Sublist MetadataColumn.projected := by
    unfold values
    induction MetadataColumn.projected with
    | nil => simp
    | cons c l ih =>
      cases hv : p.value r hasCap c with
      | none => simpa [List.filterMap_cons, hv] using ih.cons c
      | some v => simpa [List.filterMap_cons, hv] using ih.cons_cons c
  exact hsub.nodup projected_nodup

theorem updateMetadata_column {p : Projection}
    {bind : MetadataColumn → Cell → Except Raised Cell} {id projectId : Uuid}
    {r : ExtractionResult} {t t' : MetadataTable}
    (h : p.updateMetadata bind id projectId r t = .ok t') :
    ∃ hasCap, r.hasLiabilityCap = .ok hasCap ∧ (t'.getForContract id).isSome ∧
      ∀ c ∈ MetadataColumn.projected,
        (p.supports r c = false → t'.column id c = t.column id c) ∧
        (p.supports r c = true →
          ∃ v v', p.value r hasCap c = some v ∧ bind c v = .ok v' ∧ t'.column id c = some v') := by
  obtain ⟨hasCap, hcap, h⟩ := Except.bind_eq_ok.1 h
  obtain ⟨hrow, hcols⟩ := MetadataTable.upsert_column (values_keys p r hasCap) h
  refine ⟨hasCap, hcap, hrow, fun c hc => ?_⟩
  have hlookup : (p.values r hasCap).lookup c = p.value r hasCap c := by
    rw [values, Dict.lookup_filterMap, if_pos hc]
  constructor
  · intro hs
    exact (hcols c).1 (hlookup.trans ((value_eq_none_iff hc).2 hs))
  · intro hs
    have hne : p.value r hasCap c ≠ none := by
      rw [Ne, value_eq_none_iff hc, hs]
      simp
    obtain ⟨v, hv⟩ := Option.ne_none_iff_exists'.1 hne
    obtain ⟨v', hbind, hcol⟩ := (hcols c).2 v (hlookup.trans hv)
    exact ⟨v, v', hv, hbind, hcol⟩

/-! ## Two prior states -/

/-- After the stage has persisted one result over two prior states, the contract has a row in both,
and the projected columns agree exactly when the prior states agree on every column for which the
result carries no value. -/
theorem metadata_independent_iff (p : Projection)
    (bind : MetadataColumn → Cell → Except Raised Cell) (id projectId : Uuid)
    (r : ExtractionResult) (t₁ t₂ : MetadataTable) {t₁' t₂' : MetadataTable}
    (h₁ : p.updateMetadata bind id projectId r t₁ = .ok t₁')
    (h₂ : p.updateMetadata bind id projectId r t₂ = .ok t₂') :
    (t₁'.getForContract id).isSome ∧ (t₂'.getForContract id).isSome ∧
      ((∀ c ∈ MetadataColumn.projected, t₁'.column id c = t₂'.column id c) ↔
        ∀ c ∈ MetadataColumn.projected,
          p.supports r c = false → t₁.column id c = t₂.column id c) := by
  obtain ⟨cap₁, hcap₁, hrow₁, hcols₁⟩ := updateMetadata_column h₁
  obtain ⟨cap₂, hcap₂, hrow₂, hcols₂⟩ := updateMetadata_column h₂
  obtain rfl : cap₁ = cap₂ := by
    rw [hcap₁] at hcap₂
    exact Except.ok.inj hcap₂
  refine ⟨hrow₁, hrow₂, fun heq c hc hs => ?_, fun hprior c hc => ?_⟩
  · rw [← (hcols₁ c hc).1 hs, ← (hcols₂ c hc).1 hs]
    exact heq c hc
  · cases hs : p.supports r c with
    | false =>
      rw [(hcols₁ c hc).1 hs, (hcols₂ c hc).1 hs]
      exact hprior c hc hs
    | true =>
      -- both runs write what the database makes of the same value
      obtain ⟨v, v₁, hv, hb₁, hc₁⟩ := (hcols₁ c hc).2 hs
      obtain ⟨w, v₂, hw, hb₂, hc₂⟩ := (hcols₂ c hc).2 hs
      obtain rfl : v = w := Option.some.inj (hv.symm.trans hw)
      obtain rfl : v₁ = v₂ := Except.ok.inj (hb₁.symm.trans hb₂)
      rw [hc₁, hc₂]

/-! ## A term that the contract no longer states -/

namespace Sample

def projection : Projection where
  toStr := fun _ => ""
  language := some "en"
  counts := { clauses := 1, obligations := 0, risks := 0 }

def dated : ExtractionResult where
  facts := { effectiveDate := some 739000, expirationDate := some 739365 }
  clauses := [{ clauseType := "governing_law", attributes := [("country", .str "India")] }]

/-- A later run that found none. -/
def undated : ExtractionResult where
  facts := { effectiveDate := some 739000 }
  clauses := [{ clauseType := "governing_law", attributes := [("country", .str "India")] }]

/-- Persist a result for the contract `1` of the project `2`, under columns that take any value. -/
def persist (r : ExtractionResult) (t : MetadataTable) : Except Raised MetadataTable :=
  projection.updateMetadata (fun _ v => .ok v) 1 2 r t

end Sample

/-- The expiration date of the first run survives the second, whose result has none; with no earlier
run the column is NULL. -/
theorem stale_expiration_survives :
    ∃ t₁ t₁' t₂', Sample.persist Sample.dated .empty = .ok t₁ ∧
      Sample.persist Sample.undated t₁ = .ok t₁' ∧
      Sample.persist Sample.undated .empty = .ok t₂' ∧
      .expirationDate ∈ MetadataColumn.projected ∧
      t₁'.column 1 .expirationDate ≠ t₂'.column 1 .expirationDate := by
  refine ⟨_, _, _, rfl, rfl, rfl, by decide, ?_⟩
  intro h
  cases h

/-- The result that states every date of the first run overwrites it whatever came before. -/
theorem dated_overwrites :
    ∃ t' t'', Sample.persist Sample.dated .empty = .ok t' ∧
      Sample.persist Sample.dated t' = .ok t'' ∧
      ((∀ c ∈ MetadataColumn.projected, t'.column 1 c = t''.column 1 c) ↔
        ∀ c ∈ MetadataColumn.projected, Sample.projection.supports Sample.dated c = false →
          MetadataTable.empty.column 1 c = t'.column 1 c) :=
  ⟨_, _, rfl, rfl, (metadata_independent_iff Sample.projection (fun _ v => .ok v) 1 2 Sample.dated
    .empty _ rfl rfl).2.2⟩

end Projection

end Clear
