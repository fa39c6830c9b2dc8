import Clear.Api.V1.Dashboard

/-!
# The tiles and the lists they open

A tile counts rows of metadata, the list counts live contracts with theirs. They agree exactly if
no row that a tile counts is left from a deleted contract (`tiles_iff`).
-/

namespace Clear

namespace Dashboard

open ContractRepository (Condition onMetadata incomplete filteredQuery withMetadata)

structure Tables extends ContractTables where
  owned : ∀ m ∈ metadata, ∃ c ∈ contracts, c.id = m.contractId ∧ c.projectId = m.projectId

def TileMatches (texts : Texts) (db : ContractTables) (projectIds : List Uuid) (today : Date)
    (tile : KpiTile) : Prop :=
  ∀ q, tile.drilldown = some q → ∀ sql collation paging,
    (listAllContracts sql collation texts db projectIds today q paging).map (·.2) = .ok tile.value

def TilesMatch (texts : Texts) (db : ContractTables) (clauses : List ClauseRow)
    (projectIds : List Uuid) (today : Date) : Prop :=
  ∀ tiles, getDashboard db clauses projectIds today = some tiles →
    ∀ tile ∈ tiles, TileMatches texts db projectIds today tile

def counted (today horizon : Date) (m : ContractMetadata) : Bool :=
  expiringSoon today horizon m || highRisk m || unlimitedLiability m || incomplete m

def NoneLeft (db : ContractTables) (projectIds : List Uuid) (today : Date) : Prop :=
  ∀ horizon, today.addDays? expiringWindowDays = some horizon →
    ∀ m ∈ db.metadata, m.projectId ∈ projectIds → counted today horizon m = true →
      ∀ c ∈ db.contracts, c.id = m.contractId → c.deletedAt = none

variable {texts : Texts} {db : ContractTables} {projectIds : List Uuid} {today horizon : Date}

/-! ## The joined rows -/

def listed (db : ContractTables) (projectIds : List Uuid) (m : ContractMetadata) : Bool :=
  db.contracts.any fun c => c.id = m.contractId && (c.deletedAt.isNone && c.projectId ∈ projectIds)

theorem mem_withMetadata {metadata : List ContractMetadata} {c : ContractRecord}
    {m : ContractMetadata} {c' : ContractRecord} :
    (c', some m) ∈ withMetadata metadata c ↔ c' = c ∧ m ∈ metadata ∧ m.contractId = c.id := by
  unfold withMetadata
  split
  next h =>
    have hnone : ∀ m ∈ metadata, m.contractId ≠ c.id := by simpa [List.filter_eq_nil_iff] using h
    simp only [List.mem_singleton, Prod.mk.injEq, reduceCtorEq, and_false, false_iff, not_and]
    exact fun _ hm => hnone m hm
  next =>
    simp only [List.mem_map, List.mem_filter, Prod.mk.injEq, Option.some.injEq, decide_eq_true_eq]
    constructor
    · intro h
      obtain ⟨m', ⟨hm, hid⟩, rfl, rfl⟩ := h
      exact ⟨rfl, hm, hid⟩
    · intro h
      obtain ⟨rfl, hm, hid⟩ := h
      exact ⟨m, ⟨hm, hid⟩, rfl, rfl⟩

theorem map_withMetadata (h : (db.metadata.map (·.contractId)).Nodup) (c : ContractRecord) :
    (withMetadata db.metadata c).map (·.1) = [c] := by
  unfold withMetadata
  rcases Keyed.filter_eq_nil_or_singleton h c.id with hnone | hone
  · rw [hnone]
    rfl
  · obtain ⟨m, hm⟩ := hone
    rw [hm]
    rfl

def inScope (db : ContractTables) (projectIds : List Uuid) : List ContractRecord :=
  db.contracts.filter fun c => c.deletedAt.isNone && c.projectId ∈ projectIds

theorem map_joined : ((inScope db projectIds).flatMap (withMetadata db.metadata)).map (·.1) =
    inScope db projectIds := by
  rw [List.map_flatMap]
  simp only [map_withMetadata db.metadataIds, List.flatMap_singleton']

theorem length_of_contract (p : ContractRecord → Bool) :
    (filteredQuery db projectIds fun r => p r.1).length = countContracts db projectIds p := by
  have hmap : (filteredQuery db projectIds fun r => p r.1).map (·.1) =
      (inScope db projectIds).filter p := by
    rw [← map_joined, List.filter_map]
    rfl
  rw [← List.length_map (·.1), hmap, inScope, List.filter_filter, countContracts]
  congr 1
  apply List.filter_congr
  intro c _
  cases c.deletedAt.isNone <;> cases p c <;> simp

theorem nodup_ids (conditions : ListedContract → Bool) :
    ((filteredQuery db projectIds conditions).map (·.1.id)).Nodup := by
  have hall : (((inScope db projectIds).flatMap (withMetadata db.metadata)).map (·.1.id)).Nodup := by
    have hids : ((inScope db projectIds).map (·.id)).Nodup :=
      db.contractIds.sublist (List.filter_sublist.map _)
    rw [← map_joined, List.map_map] at hids
    exact hids
  exact hall.sublist (List.filter_sublist.map _)

theorem length_of_metadata (p : ContractMetadata → Bool) :
    (filteredQuery db projectIds (onMetadata p)).length =
      (db.metadata.filter fun m => listed db projectIds m && p m).length := by
  have hnodup : ((db.metadata.filter fun m => listed db projectIds m && p m).map
      (·.contractId)).Nodup := db.metadataIds.sublist (List.filter_sublist.map _)
  have hperm := (List.perm_ext_iff_of_nodup (nodup_ids (onMetadata p)) hnodup).2 fun id => by
    simp only [filteredQuery, List.mem_map, List.mem_filter, List.mem_flatMap, Bool.and_eq_true,
      listed, List.any_eq_true, decide_eq_true_eq]
    constructor
    · intro h
      obtain ⟨⟨c, m?⟩, ⟨⟨c', hc', hrow⟩, hp⟩, rfl⟩ := h
      cases m? with
      | none => cases hp
      | some m =>
        obtain ⟨rfl, hm, hid⟩ := mem_withMetadata.1 hrow
        exact ⟨m, ⟨hm, ⟨c, hc'.1, hid.symm, hc'.2⟩, hp⟩, hid⟩
    · intro h
      obtain ⟨m, ⟨hm, ⟨c, hc, hid, hlive⟩, hp⟩, rfl⟩ := h
      exact ⟨(c, some m), ⟨⟨c, ⟨hc, hlive⟩, mem_withMetadata.2 ⟨rfl, hm, hid.symm⟩⟩, hp⟩, hid⟩
  simpa using hperm.length_eq

/-! ## Tiles over metadata -/

/-- A filter that keeps less keeps as many exactly if it keeps the same. -/
theorem length_filter_eq_iff {α : Type} {l : List α} {p q : α → Bool}
    (h : ∀ a ∈ l, p a = true → q a = true) :
    (l.filter p).length = (l.filter q).length ↔ ∀ a ∈ l, q a = true → p a = true := by
  have hsub : l.filter p = (l.filter q).filter p := by
    rw [List.filter_filter]
    apply List.filter_congr
    intro a ha
    cases hp : p a
    · rfl
    · rw [h a ha hp]
      rfl
  rw [hsub, List.length_filter_eq_length_iff]
  simp only [List.mem_filter, and_imp]

theorem listed_project (db : Tables) {m : ContractMetadata} (hm : m ∈ db.metadata)
    (h : listed db.toContractTables projectIds m = true) : m.projectId ∈ projectIds := by
  obtain ⟨c, hc, hand⟩ := List.any_eq_true.1 h
  simp only [Bool.and_eq_true, decide_eq_true_eq] at hand
  obtain ⟨c', hc', hid, hproject⟩ := db.owned m hm
  rw [← hproject, Keyed.inj db.contractIds hc' hc (hid.trans hand.1.symm)]
  exact hand.2.2

theorem listed_iff (db : Tables) {m : ContractMetadata} (hm : m ∈ db.metadata)
    (hproject : m.projectId ∈ projectIds) : listed db.toContractTables projectIds m = true ↔
      ∀ c ∈ db.contracts, c.id = m.contractId → c.deletedAt = none := by
  obtain ⟨c, hc, hid, howner⟩ := db.owned m hm
  unfold listed
  simp only [List.any_eq_true, Bool.and_eq_true, decide_eq_true_eq, Option.isNone_iff_eq_none]
  constructor
  · intro h c' hc' hid'
    obtain ⟨d, hd, hid'', hlive, -⟩ := h
    rw [Keyed.inj db.contractIds hc' hd (hid'.trans hid''.symm)]
    exact hlive
  · intro h
    exact ⟨c, hc, hid, h c hc hid, howner ▸ hproject⟩

theorem tile_iff (db : Tables) (p : ContractMetadata → Bool) :
    (filteredQuery db.toContractTables projectIds (onMetadata p)).length =
        countMetadata db.toContractTables projectIds p ↔
      ∀ m ∈ db.metadata, m.projectId ∈ projectIds → p m = true →
        ∀ c ∈ db.contracts, c.id = m.contractId → c.deletedAt = none := by
  rw [length_of_metadata, countMetadata, length_filter_eq_iff]
  · simp only [Bool.and_eq_true, decide_eq_true_eq, and_imp]
    constructor
    · intro h m hm hproject hp
      exact (listed_iff db hm hproject).1 (h m hm hproject hp).1
    · intro h m hm hproject hp
      exact ⟨(listed_iff db hm hproject).2 (h m hm hproject hp), hp⟩
  · intro m hm h
    rw [Bool.and_eq_true] at h ⊢
    exact ⟨decide_eq_true (listed_project db hm h.1), h.2⟩

/-! ## The filters of the tiles -/

theorem flag_true {q : Query} (key : String) (h : q.values key = [.text "true"]) :
    q.flag texts key = .ok (some true) := by
  have htrue : Query.parseBool "true" = some true := by decide +kernel
  have htext : q.text texts key = some "true" := by
    rw [Query.text, h]
    rfl
  simp only [Query.flag, Query.read, htext, htrue]

theorem filters_unlimited :
    filtersFromQuery texts [("has_unlimited_liability", .text "true")] =
      .ok { hasUnlimitedLiability := some true, exclusive := rfl } := by
  unfold filtersFromQuery
  rw [flag_true "has_unlimited_liability" rfl]
  rfl

theorem filters_missing : filtersFromQuery texts [("missing_mandatory", .text "true")] =
    .ok { missingMandatory := some true, exclusive := rfl } := by
  unfold filtersFromQuery
  rw [flag_true "missing_mandatory" rfl]
  rfl

theorem filters_review : filtersFromQuery texts [("needs_review", .text "true")] =
    .ok { needsReview := some true, exclusive := rfl } := by
  unfold filtersFromQuery
  rw [flag_true "needs_review" rfl]
  rfl

theorem filters_band : filtersFromQuery texts [("risk_band", .text "high")] =
    .ok { riskBand := some [.high], exclusive := rfl } := rfl

theorem ordered_of_le (h : today ≤ horizon) :
    ((some today).all fun a => (some horizon).all (a ≤ ·)) = true := by
  simpa using h

theorem filters_expiry (h : today ≤ horizon) :
    filtersFromQuery texts [("expiry_from", .date today), ("expiry_to", .date horizon)] =
      .ok { expirationDate := some ⟨some today, some horizon, ordered_of_le h⟩
            exclusive := rfl } := by
  have hrange : dateRange (some today) (some horizon) =
      .ok ⟨some today, some horizon, ordered_of_le h⟩ := dif_pos _
  simp [filtersFromQuery, Query.short, Query.read, Query.text, Query.number, Query.flag,
    Query.date, Query.enums, Query.enums.items?, Query.values, Query.list, bind, Except.bind, hrange]
  rfl

theorem list_total {q : Query} {f : ContractFilterParams} {conditions : List Condition}
    {condition : Condition} (hids : projectIds ≠ []) (hf : filtersFromQuery texts q = .ok f)
    (hconditions : ContractRepository.conditions texts.std texts.sql today f = some conditions)
    (hall : ∀ r, conditions.all (· r) = condition r) (sql : Sql.Engine ListedContract)
    (collation : ContractRepository.Collation) (paging : Paging) :
    (listAllContracts sql collation texts db projectIds today q paging).map (·.2) =
      .ok (filteredQuery db projectIds condition).length := by
  unfold listAllContracts
  simp only [hf, hids, hconditions, if_false, bind, Except.bind, ← funext hall]
  rfl

theorem tileMatches_iff (conditions : List Condition) {condition : Condition} {tile : KpiTile}
    {q : Query} {f : ContractFilterParams} (hids : projectIds ≠ [])
    (hq : tile.drilldown = some q) (hf : filtersFromQuery texts q = .ok f)
    (hconditions : ContractRepository.conditions texts.std texts.sql today f = some conditions)
    (hall : ∀ r, conditions.all (· r) = condition r) :
    TileMatches texts db projectIds today tile ↔
      (filteredQuery db projectIds condition).length = tile.value := by
  have htotal : ∀ sql collation paging,
      (listAllContracts sql collation texts db projectIds today q paging).map (·.2) =
        .ok (filteredQuery db projectIds condition).length :=
    list_total hids hf hconditions hall
  constructor
  · intro h
    have hvalue := h q hq .stable { text := .unordered, statusRank := fun _ => 0 } {}
    rw [htotal] at hvalue
    exact Except.ok.inj hvalue
  · intro h q' hq' sql collation paging
    rw [Option.some.inj (hq'.symm.trans hq), htotal, h]

theorem tileMatches_of_none {key label : String} {value : Nat} :
    TileMatches texts db projectIds today { key, label, value } := by
  intro q hq
  cases hq

variable {key label : String} {value : Nat}

theorem review_iff (hids : projectIds ≠ []) :
    TileMatches texts db projectIds today
        { key, label, value, drilldown := some [("needs_review", .text "true")] } ↔
      countContracts db projectIds (·.needsReview) = value := by
  rw [← length_of_contract]
  exact tileMatches_iff [fun r : ListedContract => r.1.needsReview = true] hids rfl filters_review
    (by simp [ContractRepository.conditions]) fun r => by simp

theorem band_iff (hids : projectIds ≠ []) :
    TileMatches texts db projectIds today
        { key, label, value, drilldown := some [("risk_band", .text "high")] } ↔
      (filteredQuery db projectIds (onMetadata highRisk)).length = value := by
  have hitems : ContractRepository.items? (some [RiskBand.high]) = some [RiskBand.high] := rfl
  refine tileMatches_iff
    [onMetadata fun m => (m.str? .riskBand).any (RiskBand.high.value = ·)] hids rfl
    filters_band (by simp [ContractRepository.conditions, hitems]) fun r => ?_
  obtain ⟨c, m?⟩ := r
  cases m? with
  | none => rfl
  | some m => cases h : m.str? .riskBand <;> simp [onMetadata, highRisk, h, eq_comm]

theorem unlimited_iff (hids : projectIds ≠ []) :
    TileMatches texts db projectIds today
        { key, label, value, drilldown := some [("has_unlimited_liability", .text "true")] } ↔
      (filteredQuery db projectIds (onMetadata unlimitedLiability)).length = value :=
  tileMatches_iff [onMetadata unlimitedLiability] hids rfl filters_unlimited
    (by simp [ContractRepository.conditions]; rfl) fun r => by simp

theorem missing_iff (hids : projectIds ≠ []) :
    TileMatches texts db projectIds today
        { key, label, value, drilldown := some [("missing_mandatory", .text "true")] } ↔
      (filteredQuery db projectIds (onMetadata incomplete)).length = value :=
  tileMatches_iff [onMetadata incomplete] hids rfl filters_missing
    (by simp [ContractRepository.conditions]) fun r => by simp

theorem expiry_iff (hids : projectIds ≠ []) (hle : today ≤ horizon) :
    TileMatches texts db projectIds today
        { key, label, value
          drilldown := some [("expiry_from", .date today), ("expiry_to", .date horizon)] } ↔
      (filteredQuery db projectIds (onMetadata (expiringSoon today horizon))).length = value := by
  refine tileMatches_iff
    [onMetadata fun m => (m.date? .expirationDate).any (today ≤ ·),
      onMetadata fun m => (m.date? .expirationDate).any (· ≤ horizon)] hids rfl (filters_expiry hle)
    (by simp [ContractRepository.conditions]; rfl) fun r => ?_
  obtain ⟨c, m?⟩ := r
  cases m? with
  | none => rfl
  | some m => cases h : m.date? .expirationDate <;> simp [onMetadata, expiringSoon, h]

/-! ## The main result -/

/-- The tiles agree exactly where none of the counted rows is left from a deleted contract. -/
theorem tiles_iff (texts : Texts) (db : Tables) (clauses : List ClauseRow)
    (projectIds : List Uuid) (today : Date) :
    TilesMatch texts db.toContractTables clauses projectIds today ↔
      NoneLeft db.toContractTables projectIds today := by
  by_cases hids : projectIds = []
  · subst hids
    have hmatch : TilesMatch texts db.toContractTables clauses [] today := by
      intro tiles h tile htile
      rw [← Option.some.inj h] at htile
      cases htile
    exact iff_of_true hmatch fun _ _ _ _ hm => nomatch hm
  · unfold TilesMatch getDashboard NoneLeft
    rw [if_neg hids]
    cases hhorizon : today.addDays? expiringWindowDays with
    | none => simp
    | some horizon =>
      have hle : today ≤ horizon := by
        have hlast := Date.addDays?_eq_some hhorizon
        have hnonneg : (0 : Int) ≤ (expiringWindowDays : Nat) := by decide
        exact Int.ofNat_le.1 (by omega)
      simp only [Option.bind_eq_bind, Option.bind_some, Option.pure_def, Option.some.injEq,
        forall_eq', List.forall_mem_cons, List.not_mem_nil, false_implies, implies_true, and_true,
        tileMatches_of_none, review_iff hids, band_iff hids, unlimited_iff hids,
        missing_iff hids, expiry_iff hids hle, tile_iff, true_and]
      simp only [counted, Bool.or_eq_true, or_imp, forall_and, or_assoc]

/-! A contract of high risk that was deleted. -/

namespace Sample

def plainTexts : Texts where
  std := Stdlib.ascii
  sql := { ilike := fun _ _ => false, lower := id }
  fromisoformat _ := none

def contract : ContractRecord :=
  { id := 0, projectId := 0, uploadedBy := none, originalFileName := "lease.pdf"
    originalFilePath := none, convertedFilePath := none, originalFileType := none
    sha256Hash := "", storagePath := "lease.pdf", processingFilePath := none
    processingSha256 := none, fileType := .pdf, fileSize := 1, mimeType := none
    status := .archived, deletedAt := some 5 }

def metadata : ContractMetadata := .new 0 0 [(.riskBand, .value (.str "high"))]

def tables : Tables where
  contracts := [contract]
  metadata := [metadata]
  contractIds := List.nodup_singleton _
  metadataIds := List.nodup_singleton _
  owned m hm := by
    rw [List.mem_singleton.1 hm]
    exact ⟨contract, List.mem_singleton_self _, rfl, rfl⟩

end Sample

/-- The tile counts the contract, the list leaves it out. -/
theorem deleted_fails :
    ¬ TilesMatch Sample.plainTexts Sample.tables.toContractTables [] [0] 738000 := by
  intro h
  have htile := h _ rfl { key := "high_risk", label := "High risk", value := 1
                          drilldown := some [("risk_band", .text "high")] } (by decide)
  rw [band_iff (List.cons_ne_nil _ _)] at htile
  exact absurd htile (by decide)

end Dashboard

end Clear
