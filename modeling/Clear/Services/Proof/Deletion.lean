import Clear.Export.Dataset
import Clear.Services.Project

/-!
# What a deleted contract leaves behind

`delete_contract` marks the row of a contract and keeps what is derived from it. The queries that
join to the live contracts (the status counts, the registers, the exports) read what they would read
if everything were removed. The others look at the derived tables alone: they do so exactly if no
row of the contract is one they count (`excluded_iff`).
-/

namespace Clear.Deletion

open Removal

structure SameReads (settings : AlertSettings) (today : Date) (projectId : Uuid)
    (after removed : Portfolio) : Prop where
  stats : ProjectService.computeStats settings today after projectId =
    ProjectService.computeStats settings today removed projectId
  statusCounts : ∀ projectIds, ContractRepository.statusCounts after projectIds =
    ContractRepository.statusCounts removed projectIds
  typeCounts : ∀ projectIds, ClauseRepository.typeCounts after projectIds =
    ClauseRepository.typeCounts removed projectIds
  severityCounts : ∀ projectIds, RiskRepository.severityCounts after projectIds =
    RiskRepository.severityCounts removed projectIds
  counterparties : ∀ sql projectIds limit,
    EntityRepository.counterparties sql after projectIds limit =
      EntityRepository.counterparties sql removed projectIds limit
  upcoming : ∀ sql projectIds before limit,
    ObligationRepository.upcoming sql after projectIds before limit =
      ObligationRepository.upcoming sql removed projectIds before limit
  findByAttribute : ∀ sql contains projectIds clauseType attributeFilter limit,
    ClauseRepository.findByAttribute sql contains after projectIds clauseType attributeFilter
        limit =
      ClauseRepository.findByAttribute sql contains removed projectIds clauseType attributeFilter
        limit
  obligations : ∀ sql texts projectIds params p,
    Registers.listObligations sql texts after projectIds params p =
      Registers.listObligations sql texts removed projectIds params p
  keyDates : ∀ sql rank projectIds params p,
    Registers.listKeyDates sql rank after projectIds params p =
      Registers.listKeyDates sql rank removed projectIds params p
  risks : ∀ sql texts projectIds params p,
    Registers.listRisks sql texts after projectIds params p =
      Registers.listRisks sql texts removed projectIds params p
  parties : ∀ sql texts projectIds params p,
    Registers.listParties sql texts after projectIds params p =
      Registers.listParties sql texts removed projectIds params p
  exports : ∀ reader request,
    Export.build reader after request = Export.build reader removed request

/-- No row of the contract is one that a query on its table alone reads. -/
structure NoTrace (settings : AlertSettings) (today : Date) (contractId projectId : Uuid)
    (db : Portfolio) : Prop where
  metadata : ∀ m ∈ db.metadata, m.contractId = contractId → m.projectId = projectId →
    ProjectService.isHighRisk settings m = false ∧
      ProjectService.isExpiring settings today m = false
  alerts : ∀ a ∈ db.alerts, a.contractId = some contractId → a.projectId = projectId →
    a.status ≠ .open
  clauses : ∀ r ∈ db.clauses, r.contractId ≠ contractId
  risks : ∀ r ∈ db.risks, r.contractId ≠ contractId
  entities : ∀ r ∈ db.entities, r.contractId = contractId → r.isPrimary = false
  obligations : ∀ r ∈ db.obligations, r.contractId = contractId → r.dueDate = none

/-- The database after the deletion. -/
def marked (contractId : Uuid) (now : Timestamp) (db : Portfolio) : Portfolio :=
  { db with
    contracts := db.contracts.map fun c =>
      if c.id = contractId then Portfolio.mark now c else c }

variable {settings : AlertSettings} {today : Date} {contractId projectId : Uuid} {now : Timestamp}
  {db : Portfolio}

/-! ## Queries that look at the contract -/

theorem live_contracts (p : ContractRow → Bool) :
    (marked contractId now db).contracts.filter (fun c => c.deletedAt.isNone && p c) =
      (db.remove contractId).contracts.filter fun c => c.deletedAt.isNone && p c :=
  filter_mark (·.id) (Portfolio.mark now) (fun _ => rfl) db.contracts

theorem register_rows {α : Type} (ref : α → Uuid) (table : List α) (projectIds : List Uuid)
    (conditions : α → Bool) :
    Registers.rows ref table (marked contractId now db) projectIds conditions =
      Registers.rows ref (removal ref contractId table) (db.remove contractId) projectIds
        conditions := by
  have hjoin := join_mark ref (·.id) (k := contractId) (Portfolio.mark now)
    (p := Registers.liveContracts projectIds) (fun _ => rfl) table db.contracts
  exact congrArg (List.filter fun r => conditions r.1) hjoin

theorem register_ne {α : Type} {ref : α → Uuid} {table : List α} {projectIds : List Uuid}
    {conditions : α → Bool} {r : α × ContractRow}
    (h : r ∈ Registers.rows ref (removal ref contractId table) (db.remove contractId) projectIds
      conditions) : ref r.1 ≠ contractId := by
  unfold Registers.rows join at h
  obtain ⟨a, ha, hr⟩ := List.mem_flatMap.1 (List.mem_filter.1 h).1
  obtain ⟨c, -, rfl⟩ := List.mem_map.1 hr
  exact (mem_removal.1 ha).2

theorem metadataOf_remove {k : Uuid} (h : k ≠ contractId) :
    Registers.metadataOf (marked contractId now db) k =
      Registers.metadataOf (db.remove contractId) k :=
  (find_removal h db.metadata).symm

theorem mem_page {α : Type} {sql : Sql.Session} {order : Sql.OrderBy α} {rows : List α}
    {p : Registers.Pagination} {r : α} (h : r ∈ (Registers.page sql order rows p).1) :
    r ∈ rows := by
  unfold Registers.page at h
  split at h
  · cases h
  · exact (sql α).mem_select.1 (List.mem_of_mem_drop (List.mem_of_mem_take h))

theorem statusCounts_same (projectIds : List Uuid) :
    ContractRepository.statusCounts (marked contractId now db) projectIds =
      ContractRepository.statusCounts (db.remove contractId) projectIds := by
  unfold ContractRepository.statusCounts
  rw [live_contracts]

theorem statusCount_same (p : ContractStatus → Bool) :
    ProjectService.statusCount (marked contractId now db) projectId p =
      ProjectService.statusCount (db.remove contractId) projectId p := by
  unfold ProjectService.statusCount
  rw [live_contracts]

theorem listObligations_same (sql : Sql.Session) (texts : Registers.Texts)
    (projectIds : List Uuid) (params : Registers.ObligationParams) (p : Registers.Pagination) :
    Registers.listObligations sql texts (marked contractId now db) projectIds params p =
      Registers.listObligations sql texts (db.remove contractId) projectIds params p := by
  unfold Registers.listObligations
  rw [show (marked contractId now db).obligations = db.obligations from rfl, register_rows]
  rfl

theorem listKeyDates_same (sql : Sql.Session) (rank : DateType → Nat) (projectIds : List Uuid)
    (params : Registers.KeyDateParams) (p : Registers.Pagination) :
    Registers.listKeyDates sql rank (marked contractId now db) projectIds params p =
      Registers.listKeyDates sql rank (db.remove contractId) projectIds params p := by
  unfold Registers.listKeyDates
  rw [show (marked contractId now db).keyDates = db.keyDates from rfl, register_rows]
  rfl

theorem listRisks_same (sql : Sql.Session) (texts : Registers.Texts) (projectIds : List Uuid)
    (params : Registers.RiskParams) (p : Registers.Pagination) :
    Registers.listRisks sql texts (marked contractId now db) projectIds params p =
      Registers.listRisks sql texts (db.remove contractId) projectIds params p := by
  unfold Registers.listRisks
  rw [show (marked contractId now db).risks = db.risks from rfl, register_rows]
  refine Prod.ext (List.map_congr_left fun r hr => ?_) rfl
  rw [metadataOf_remove (register_ne (mem_page hr))]

/-! ## Parties -/

theorem valueByParty_same (texts : Registers.Texts) (projectIds : List Uuid) (key : String) :
    Registers.valueByParty texts (marked contractId now db) projectIds key =
      Registers.valueByParty texts (db.remove contractId) projectIds key := by
  unfold Registers.valueByParty
  rw [show (marked contractId now db).entities = db.entities from rfl, register_rows]
  have hmap : ∀ r ∈ Registers.rows (fun r : EntityRow => r.contractId)
      (removal (·.contractId) contractId db.entities) (db.remove contractId) projectIds
      (Registers.partyKey texts · = key),
      Registers.metadataOf (marked contractId now db) r.1.contractId =
        Registers.metadataOf (db.remove contractId) r.1.contractId :=
    fun r hr => metadataOf_remove (register_ne hr)
  rw [List.filterMap_congr fun r hr => by rw [hmap r hr]]
  rfl

theorem partyEntry_same (texts : Registers.Texts) (projectIds : List Uuid)
    {found : List (EntityRow × ContractRow)} (hfound : ∀ r ∈ found, r.1.contractId ≠ contractId)
    (key : String) :
    Registers.partyEntry texts (marked contractId now db) projectIds found key =
      Registers.partyEntry texts (db.remove contractId) projectIds found key := by
  unfold Registers.partyEntry
  rw [valueByParty_same]
  have hexpiry : ∀ r ∈ (found.map (·.1)).filter (Registers.partyKey texts · = key),
      Registers.metadataOf (marked contractId now db) r.contractId =
        Registers.metadataOf (db.remove contractId) r.contractId := by
    intro r hr
    obtain ⟨r', hr', rfl⟩ := List.mem_map.1 (List.mem_filter.1 hr).1
    exact metadataOf_remove (hfound r' hr')
  simp only [Registers.PartyEntry.mk.injEq, true_and, and_true]
  rw [List.filterMap_congr fun r hr => by rw [hexpiry r hr]]

theorem listParties_same (sql : Sql.Session) (texts : Registers.Texts) (projectIds : List Uuid)
    (params : Registers.PartyParams) (p : Registers.Pagination) :
    Registers.listParties sql texts (marked contractId now db) projectIds params p =
      Registers.listParties sql texts (db.remove contractId) projectIds params p := by
  unfold Registers.listParties
  rw [show (marked contractId now db).entities = db.entities from rfl, register_rows]
  have hentry : Registers.partyEntry texts (marked contractId now db) projectIds
      (Registers.rows (fun r : EntityRow => r.contractId)
        (removal (·.contractId) contractId db.entities) (db.remove contractId) projectIds
        (Registers.partyConditions texts params)) =
      Registers.partyEntry texts (db.remove contractId) projectIds _ :=
    funext fun key => partyEntry_same texts projectIds (fun r hr => register_ne hr) key
  dsimp only
  rw [hentry]
  rfl

/-! ## Exports -/

section Exports

variable (reader : Export.Reader) (request : Export.Request)

theorem mem_loadContracts {db : Portfolio} {c : ContractRow}
    (h : c ∈ Export.loadContracts reader (db.remove contractId) request) : c.id ≠ contractId := by
  unfold Export.loadContracts at h
  have hmem := (List.mem_filter.1 (List.mem_filter.1 ((reader.sql ContractRow).mem_select.1 h)).1).1
  exact (mem_removal.1 hmem).2

theorem loadContracts_same :
    Export.loadContracts reader (marked contractId now db) request =
      Export.loadContracts reader (db.remove contractId) request := by
  unfold Export.loadContracts
  rw [live_contracts]
  refine congrArg _ (List.filter_congr fun c hc => ?_)
  have hne : c.id ≠ contractId := (mem_removal.1 (List.mem_filter.1 hc).1).2
  rw [metadataOf_remove hne]

theorem selected_same {α : Type} (ref projectOf : α → Uuid) (order : Sql.OrderBy α)
    (table : List α) {contracts : List ContractRow} (h : ∀ c ∈ contracts, c.id ≠ contractId) :
    Export.selected reader request ref projectOf order table contracts =
      Export.selected reader request ref projectOf order (removal ref contractId table)
        contracts := by
  unfold Export.selected
  refine congrArg _ (filter_removal_iff.2 fun a _ href => ?_)
  have hnone : ref a ∉ contracts.map (·.id) := by
    intro hmem
    obtain ⟨c, hc, hid⟩ := List.mem_map.1 hmem
    exact h c hc (hid.trans href)
  rw [decide_eq_false hnone, Bool.false_and]

theorem selectedClauses_same {contracts : List ContractRow}
    (h : ∀ c ∈ contracts, c.id ≠ contractId) :
    Export.selectedClauses reader (marked contractId now db) request contracts =
      Export.selectedClauses reader (db.remove contractId) request contracts := by
  unfold Export.selectedClauses
  rw [selected_same reader request (·.contractId) (·.projectId) _
    (marked contractId now db).clauses h]
  rfl

theorem sheet_same {contracts : List ContractRow} (projects : List Project)
    (h : ∀ c ∈ contracts, c.id ≠ contractId) (entity : ExportEntity) :
    Export.sheet reader (marked contractId now db) request contracts projects entity =
      Export.sheet reader (db.remove contractId) request contracts projects entity := by
  unfold Export.sheet
  cases entity with
  | contracts =>
    dsimp only
    rw [List.map_congr_left fun c hc => by rw [metadataOf_remove (h c hc)]]
  | clauses =>
    dsimp only
    rw [selectedClauses_same reader request h]
  | obligations =>
    dsimp only
    rw [selected_same reader request (·.contractId) (·.projectId) _
      (marked contractId now db).obligations h]
    rfl
  | risks =>
    dsimp only
    rw [selected_same reader request (·.contractId) (·.projectId) _
      (marked contractId now db).risks h]
    rfl
  | keyDates =>
    dsimp only
    rw [selected_same reader request (·.contractId) (·.projectId) _
      (marked contractId now db).keyDates h]
    rfl
  | entities =>
    dsimp only
    rw [selected_same reader request (·.contractId) (·.projectId) _
      (marked contractId now db).entities h]
    rfl

theorem build_same :
    Export.build reader (marked contractId now db) request =
      Export.build reader (db.remove contractId) request := by
  unfold Export.build Export.maskedTotal
  have hne : ∀ c ∈ Export.loadContracts reader (db.remove contractId) request,
      c.id ≠ contractId := fun c hc => mem_loadContracts reader request hc
  dsimp only
  rw [loadContracts_same, selectedClauses_same reader request hne]
  have hsheet : Export.sheet reader (marked contractId now db) request
      (Export.loadContracts reader (db.remove contractId) request)
      (Export.loadProjects reader (marked contractId now db) request) =
      Export.sheet reader (db.remove contractId) request _ _ :=
    funext fun entity => sheet_same reader request _ hne entity
  rw [hsheet]
  rfl

end Exports

/-! ## Queries on the derived tables alone -/

theorem counts_removal_iff {α κ ι : Type} [DecidableEq κ] [DecidableEq ι] {ref : α → κ} {k : κ}
    {group : α → ι} {p : α → Bool} {rows : List α} :
    counts group (rows.filter p) = counts group ((removal ref k rows).filter p) ↔
      ∀ a ∈ rows, ref a = k → p a = false := by
  constructor
  · intro h a ha href
    by_contra hp
    have hp' : p a = true := by simpa using hp
    have hcount := congrFun h (group a)
    unfold counts at hcount
    rw [List.filter_filter, List.filter_filter] at hcount
    have hpos : 0 < (rows.filter fun b => decide (group b = group a) && p b).length :=
      List.length_pos_of_mem (List.mem_filter.2 ⟨ha, by simp [hp']⟩)
    have hlen : (rows.filter fun b => decide (group b = group a) && p b).length =
        ((removal ref k rows).filter fun b => decide (group b = group a) && p b).length := by
      rw [Option.filter_some, if_pos (by simpa using hpos), Option.filter_some] at hcount
      split at hcount
      · exact Option.some.inj hcount
      · cases hcount
    have := count_removal_iff.1 hlen a ha href
    simp [hp'] at this
  · intro h
    rw [filter_removal_iff.2 h]

/-- So do the dicts for every scope exactly if the key has no row at all. -/
theorem counts_scopes_iff {α ι : Type} [DecidableEq ι] {ref projectOf : α → Uuid} {k : Uuid}
    {group : α → ι} {rows : List α} :
    (∀ projectIds : List Uuid, counts group (rows.filter (projectOf · ∈ projectIds)) =
      counts group ((removal ref k rows).filter (projectOf · ∈ projectIds))) ↔
      ∀ a ∈ rows, ref a ≠ k := by
  simp only [counts_removal_iff]
  constructor
  · intro h a ha href
    simpa using h [projectOf a] a ha href
  · intro h projectIds a ha href
    exact absurd href (h a ha)

theorem select_removal_iff {α : Type} {ref : α → Uuid} {k : Uuid} {p : α → Bool} {rows : List α}
    {order : Sql.OrderBy α} :
    (∀ (sql : Sql.Session) (limit : Nat),
      ((sql α).select order (rows.filter p)).take limit =
        ((sql α).select order ((removal ref k rows).filter p)).take limit) ↔
      ∀ a ∈ rows, ref a = k → p a = false := by
  constructor
  · intro h a ha href
    by_contra hp
    let sql : Sql.Session := fun _ => Sql.Engine.stable
    have hmem : a ∈ (sql α).select order (rows.filter p) :=
      (sql α).mem_select.2 (List.mem_filter.2 ⟨ha, by simpa using hp⟩)
    have hall := h sql ((sql α).select order (rows.filter p)).length
    rw [List.take_length] at hall
    rw [hall] at hmem
    have hin := (sql α).mem_select.1 (List.mem_of_mem_take hmem)
    exact (mem_removal.1 (List.mem_filter.1 hin).1).2 href
  · intro h sql limit
    rw [filter_removal_iff.2 h]

theorem upcoming_iff :
    (∀ sql projectIds before limit,
      ObligationRepository.upcoming sql (marked contractId now db) projectIds before limit =
        ObligationRepository.upcoming sql (db.remove contractId) projectIds before limit) ↔
      ∀ r ∈ db.obligations, r.contractId = contractId → r.dueDate = none := by
  constructor
  · intro h r hr hid
    by_contra hdue
    obtain ⟨due, hdue⟩ := Option.ne_none_iff_exists'.1 hdue
    have hno := select_removal_iff.1 (fun sql limit => h sql [r.projectId] due limit) r hr hid
    simp [hdue] at hno
  · intro h sql projectIds before limit
    refine select_removal_iff.2 (fun r hr hid => ?_) sql limit
    simp [h r hr hid]

/-! ## Counterparties -/

theorem mem_contractCounts {rows : List EntityRow} {name : String} {n : Nat} :
    (name, n) ∈ EntityRepository.contractCounts rows ↔
      (∃ r ∈ rows, r.name = name) ∧
        n = ((rows.filter (·.name = name)).map (·.contractId)).dedup.length := by
  unfold EntityRepository.contractCounts
  simp only [List.mem_map, List.mem_dedup, Prod.mk.injEq]
  constructor
  · rintro ⟨_, ⟨r, hr, rfl⟩, rfl, rfl⟩
    exact ⟨⟨r, hr, rfl⟩, rfl⟩
  · rintro ⟨⟨r, hr, rfl⟩, rfl⟩
    exact ⟨r.name, ⟨r, hr, rfl⟩, rfl, rfl⟩

theorem not_mem_contractCounts {rows : List EntityRow} {r : EntityRow} {n : Nat} (hr : r ∈ rows)
    (hn : (r.name, n) ∈ EntityRepository.contractCounts rows) :
    (r.name, n) ∉ EntityRepository.contractCounts (removal (·.contractId) r.contractId rows) := by
  intro hmem
  have hcount := (mem_contractCounts.1 hn).2.symm.trans (mem_contractCounts.1 hmem).2
  rw [filter_removal] at hcount
  exact distinct_removal_iff.1 hcount r (List.mem_filter.2 ⟨hr, by simp⟩) rfl

theorem counterparties_iff :
    (∀ sql projectIds limit,
      EntityRepository.counterparties sql (marked contractId now db) projectIds limit =
        EntityRepository.counterparties sql (db.remove contractId) projectIds limit) ↔
      ∀ r ∈ db.entities, r.contractId = contractId → r.isPrimary = false := by
  constructor
  · intro h r hr hid
    by_contra hprimary
    let sql : Sql.Session := fun _ => Sql.Engine.stable
    let rows := db.entities.filter fun e => e.projectId ∈ [r.projectId] && e.isPrimary
    have hr' : r ∈ rows := List.mem_filter.2 ⟨hr, by simpa using hprimary⟩
    have hmem := mem_contractCounts.2 ⟨⟨r, hr', rfl⟩, rfl⟩
    have hselect := (sql (String × Nat)).mem_select (o := .desc (·.2)).2 hmem
    have hall := h sql [r.projectId] ((sql (String × Nat)).select (.desc (·.2))
      (EntityRepository.contractCounts rows)).length
    unfold EntityRepository.counterparties at hall
    rw [show (marked contractId now db).entities = db.entities from rfl, List.take_length] at hall
    rw [hall] at hselect
    have hkept := (sql (String × Nat)).mem_select.1 (List.mem_of_mem_take hselect)
    rw [show (db.remove contractId).entities =
      removal (·.contractId) contractId db.entities from rfl, filter_removal, ← hid] at hkept
    exact not_mem_contractCounts hr' hmem hkept
  · intro h sql projectIds limit
    unfold EntityRepository.counterparties
    rw [show (marked contractId now db).entities = db.entities from rfl,
      filter_removal_iff.2 fun r hr hid => by rw [h r hr hid, Bool.and_false]]
    rfl

/-! ## Statistics -/

theorem computeStats_iff
    (hjobs : ∀ j ∈ db.jobs, j.contractId = contractId → j.state.isTerminal = true) :
    ProjectService.computeStats settings today (marked contractId now db) projectId =
      ProjectService.computeStats settings today (db.remove contractId) projectId ↔
      (∀ m ∈ db.metadata, m.contractId = contractId → m.projectId = projectId →
        ProjectService.isHighRisk settings m = false ∧
          ProjectService.isExpiring settings today m = false) ∧
      ∀ a ∈ db.alerts, a.contractId = some contractId → a.projectId = projectId →
        a.status ≠ .open := by
  have hprocessing : (db.jobs.filter fun j => j.projectId = projectId && !j.state.isTerminal) =
      (removal (·.contractId) contractId db.jobs).filter
        fun j => j.projectId = projectId && !j.state.isTerminal :=
    filter_removal_iff.2 fun j hj hid => by simp [hjobs j hj hid]
  have hmetadata : ∀ p : ContractMetadata → Bool,
      (db.metadata.filter fun m => m.projectId = projectId && p m).length =
        ((db.remove contractId).metadata.filter fun m => m.projectId = projectId && p m).length ↔
      ∀ m ∈ db.metadata, m.contractId = contractId → m.projectId = projectId → p m = false := by
    intro p
    refine count_removal_iff.trans ?_
    simp
  have halerts : (db.alerts.filter fun a => a.projectId = projectId && a.status = .open).length =
      ((db.remove contractId).alerts.filter
        fun a => a.projectId = projectId && a.status = .open).length ↔
      ∀ a ∈ db.alerts, a.contractId = some contractId → a.projectId = projectId →
        a.status ≠ .open := by
    refine count_removal_iff.trans ?_
    simp
  unfold ProjectService.computeStats
  simp only [ProjectStats.mk.injEq, statusCount_same, true_and]
  rw [show (marked contractId now db).metadata = db.metadata from rfl,
    show (marked contractId now db).alerts = db.alerts from rfl,
    show (marked contractId now db).jobs = db.jobs from rfl, hmetadata, hmetadata, halerts,
    show (db.remove contractId).jobs = removal (·.contractId) contractId db.jobs from rfl,
    hprocessing, show (db.remove contractId).members = db.members from rfl,
    show (marked contractId now db).members = db.members from rfl]
  simp only [true_and]
  constructor
  · rintro ⟨hrisk, hexpiring, hopen⟩
    exact ⟨fun m hm hid hp => ⟨hrisk m hm hid hp, hexpiring m hm hid hp⟩, hopen⟩
  · rintro ⟨hmeta, hopen⟩
    exact ⟨fun m hm hid hp => (hmeta m hm hid hp).1, fun m hm hid hp => (hmeta m hm hid hp).2,
      hopen⟩

/-! ## The exact condition -/

/-- After a deletion every aggregate read is what it would be without the contract and its rows
exactly if none of these rows is one that a query on its table alone reads. -/
theorem excluded_iff {after : Portfolio}
    (h : db.deleteContract contractId projectId now = .ok after) :
    SameReads settings today projectId after (db.remove contractId) ↔
      NoTrace settings today contractId projectId db := by
  obtain ⟨hjobs, rfl⟩ := db.deleteContract_ok h
  constructor
  · intro hsame
    obtain ⟨hmetadata, halerts⟩ := (computeStats_iff hjobs).1 hsame.stats
    exact ⟨hmetadata, halerts, counts_scopes_iff.1 hsame.typeCounts,
      counts_scopes_iff.1 hsame.severityCounts, counterparties_iff.1 hsame.counterparties,
      upcoming_iff.1 hsame.upcoming⟩
  · intro hno
    exact {
      stats := (computeStats_iff hjobs).2 ⟨hno.metadata, hno.alerts⟩
      statusCounts := statusCounts_same
      typeCounts := counts_scopes_iff.2 hno.clauses
      severityCounts := counts_scopes_iff.2 hno.risks
      counterparties := counterparties_iff.2 hno.entities
      upcoming := upcoming_iff.2 hno.obligations
      findByAttribute := fun sql contains projectIds clauseType attributeFilter limit =>
        select_removal_iff.2 (fun r hr hid => absurd hid (hno.clauses r hr)) sql limit
      obligations := listObligations_same
      keyDates := listKeyDates_same
      risks := listRisks_same
      parties := listParties_same
      exports := build_same }

/-! ## A contract that is still counted -/

namespace Sample

def contract : ContractRow where
  id := 1
  projectId := 2
  uploadedBy := none
  originalFileName := "msa.pdf"
  originalFilePath := none
  convertedFilePath := none
  originalFileType := some .pdf
  sha256Hash := ""
  storagePath := ""
  processingFilePath := none
  processingSha256 := none
  fileType := .pdf
  fileSize := 1
  mimeType := none
  status := .ready

def portfolio : Portfolio where
  contracts := [contract]
  metadata := [ContractMetadata.new 1 2 [(.riskScore, .value (.int 90))]]

end Sample

theorem excluded_iff_sample :
    ∃ after, Sample.portfolio.deleteContract 1 2 0 = .ok after ∧
      (SameReads {} 0 2 after (Sample.portfolio.remove 1) ↔ NoTrace {} 0 1 2 Sample.portfolio) :=
  ⟨_, rfl, excluded_iff rfl⟩

/-- The high-risk counter of the project still counts the contract. -/
theorem deleted_contract_counted :
    ∃ after, Sample.portfolio.deleteContract 1 2 0 = .ok after ∧
      (ProjectService.computeStats {} 0 after 2).highRiskCount = 1 ∧
      (ProjectService.computeStats {} 0 (Sample.portfolio.remove 1) 2).highRiskCount = 0 ∧
      ¬ SameReads {} 0 2 after (Sample.portfolio.remove 1) := by
  refine ⟨_, rfl, by decide, by decide, fun h => ?_⟩
  exact absurd (congrArg ProjectStats.highRiskCount h.stats) (by decide)

end Clear.Deletion
