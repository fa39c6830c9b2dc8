import Clear.Api.V1.Portfolio
import Clear.Repositories.Listing

/-!
# The pages of a list

Every page is a query of its own, and the database may order rows that tie under its `ORDER BY`
anew each time. The pages show every matching row once, for every choice it makes, exactly if no
page ends between rows that tie (`paging_iff`). Only the directory of parties breaks its ties.
-/

namespace Clear

namespace Paging

open Registers

variable {α β : Type}

/-- The pages of a list show every row once, and say how many there are, whatever order of tied
rows the database chooses for each page. -/
def CoversAll (list : Sql.Session → Nat → List β × Nat) (size : Nat) (rows : List β) : Prop :=
  ∀ sql : Nat → Sql.Session, (∀ page, (list (sql page) page).2 = rows.length) ∧
    ((List.range (Sql.pages size rows.length)).flatMap fun i =>
      (list (sql i) (i + 1)).1).Perm rows

/-! ## One list -/

open Classical in
theorem exists_sessions {o : Sql.OrderBy α} {rows : List α} {answers : Nat → List α}
    (h : ∀ i, Sql.Answers o rows (answers i)) :
    ∃ sql : Nat → Sql.Session, ∀ i, (sql i α).select o rows = answers i := by
  refine ⟨fun i γ => if heq : α = γ then heq ▸ .answering (h i) else .stable, fun i => ?_⟩
  dsimp only
  rw [dif_pos rfl]
  exact Sql.Engine.answering_select (h i)

/-- A list whose pages are slices of answers to one query. -/
theorem coversAll_iff {o : Sql.OrderBy α} {rows : List α} {shown : α → β} {size : Nat}
    {list : Sql.Session → Nat → List β × Nat} (hs : 0 < size)
    (hlist : ∀ sql i, list sql (i + 1) =
      ((Sql.slice size i ((sql α).select o rows)).map shown, rows.length))
    (hfirst : ∀ sql, (list sql 0).2 = rows.length) :
    CoversAll list size (rows.map shown) ↔ Sql.TiesTogether o rows shown size := by
  rw [← Sql.covers_iff shown hs]
  constructor
  · intro h answers hanswers
    obtain ⟨sql, hsql⟩ := exists_sessions hanswers
    have hcovers := (h sql).2
    simp only [hlist, hsql, List.length_map] at hcovers
    exact hcovers
  · intro h sql
    constructor
    · intro page
      rw [List.length_map]
      cases page with
      | zero => exact hfirst _
      | succ i => rw [hlist]
    · have hcovers := h (fun i => (sql i α).select o rows) fun i => (sql i α).answers o rows
      simp only [hlist, List.length_map]
      exact hcovers

/-! ## The registers -/

theorem page_eq (sql : Sql.Session) (o : Sql.OrderBy α) (rows : List α) (i size : Nat) :
    Registers.page sql o rows ⟨i + 1, size⟩ =
      (Sql.slice size i ((sql α).select o rows), rows.length) := by
  unfold Registers.page
  split
  next h =>
    rw [List.length_eq_zero_iff] at h
    have hnone : (sql α).select o rows = [] := by
      rw [← List.length_eq_zero_iff, ((sql α).answers o rows).perm.length_eq, h]
      rfl
    rw [hnone, h]
    simp [Sql.slice]
  next => rfl

theorem page_total (sql : Sql.Session) (o : Sql.OrderBy α) (rows : List α) (p : Pagination) :
    (Registers.page sql o rows p).2 = rows.length := by
  unfold Registers.page
  split
  next h => exact h.symm
  next => rfl

theorem register_iff {o : Sql.OrderBy α} {rows : List α} {shown : α → β} {size : Nat}
    (hs : 0 < size) :
    CoversAll (fun sql page =>
      ((Registers.page sql o rows ⟨page, size⟩).1.map shown,
        (Registers.page sql o rows ⟨page, size⟩).2)) size (rows.map shown) ↔
      Sql.TiesTogether o rows shown size :=
  coversAll_iff hs (fun sql i => by rw [page_eq]) fun sql => page_total _ _ _ _

def obligationOrder : Sql.OrderBy (Obligation × ContractRow) :=
  (Sql.OrderBy.ascNullsLast (·.1.dueDate)).thenBy (.desc (·.1.createdAt))

def keyDateOrder (rank : DateType → Nat) : Sql.OrderBy (KeyDateRow × ContractRow) :=
  (Sql.OrderBy.ascNullsLast (·.1.dateValue)).thenBy (.asc (rank ·.1.dateType))

def riskOrder : Sql.OrderBy (RiskRow × ContractRow) :=
  (Sql.OrderBy.asc (severityRank ·.1.severity)).thenBy
    ((Sql.OrderBy.descNullsLast (·.1.scoreContribution)).thenBy (.desc (·.1.createdAt)))

def partyOrder (texts : Texts) : Sql.OrderBy PartyEntry :=
  (Sql.OrderBy.desc (·.contractCount)).thenBy (.comap (·.key) texts.collation)

def withContract (r : α × ContractRow) : α × Option String × Option String :=
  (r.1, r.2.title, r.2.contractNumber)

def withScore (db : Portfolio) (r : RiskRow × ContractRow) :
    RiskRow × Option String × Option String × Option Int :=
  (r.1, r.2.title, r.2.contractNumber, (metadataOf db r.1.contractId).bind (·.int? .riskScore))

def partyRows (texts : Texts) (db : Portfolio) (projectIds : List Uuid) (params : PartyParams) :
    List PartyEntry :=
  let found := rows (·.contractId) db.entities db projectIds (partyConditions texts params)
  (found.map fun r => partyKey texts r.1).dedup.map (partyEntry texts db projectIds found)

theorem parties_iff (texts : Texts) (db : Portfolio) (projectIds : List Uuid)
    (params : PartyParams) {size : Nat} (hs : 0 < size) :
    CoversAll (fun sql page => listParties sql texts db projectIds params ⟨page, size⟩) size
        (partyRows texts db projectIds params) ↔
      Sql.TiesTogether (partyOrder texts) (partyRows texts db projectIds params) id size := by
  rw [← register_iff hs]
  simp only [List.map_id]
  rfl

/-! ## The list of contracts -/

section Contracts

open ContractRepository

variable {db : ContractTables} {projectIds : List Uuid} {conditions : ListedContract → Bool}

theorem withMetadata_ids (c : ContractRecord) :
    (withMetadata db.metadata c).map (·.1.id) = [c.id] := by
  have hid : ∀ m ∈ db.metadata.filter (·.contractId = c.id), m.contractId = c.id :=
    fun m hm => by simpa using (List.mem_filter.1 hm).2
  have hnodup : ((db.metadata.filter (·.contractId = c.id)).map (·.contractId)).Nodup :=
    db.metadataIds.sublist (List.filter_sublist.map _)
  unfold withMetadata
  generalize db.metadata.filter (·.contractId = c.id) = found at hid hnodup
  rcases found with _ | ⟨m, _ | ⟨m', found⟩⟩
  · rfl
  · rfl
  · have hsame : m.contractId = m'.contractId := by rw [hid m (by simp), hid m' (by simp)]
    simp [hsame] at hnodup

theorem nodup_filteredQuery : ((filteredQuery db projectIds conditions).map (·.1.id)).Nodup := by
  unfold filteredQuery
  refine List.Nodup.sublist (List.filter_sublist.map _) ?_
  rw [List.map_flatMap]
  simp only [withMetadata_ids]
  rw [← List.map_eq_flatMap]
  exact db.contractIds.sublist (List.filter_sublist.map _)

theorem contracts_iff (collation : Collation) (sortBy : Option String) (sortDir : String)
    {size : Nat} (hs : 0 < size) :
    CoversAll (fun sql page => paginateFiltered (sql _) collation db projectIds conditions page
        size sortBy sortDir) size (filteredQuery db projectIds conditions) ↔
      Sql.TiesTogether (applySort collation sortBy sortDir)
        (filteredQuery db projectIds conditions) id size := by
  have hrows := List.map_id (filteredQuery db projectIds conditions)
  rw [← coversAll_iff hs, hrows]
  · intro sql i
    unfold paginateFiltered
    dsimp only
    rw [List.map_id, Nat.add_sub_cancel, unique, Sql.distinctOn_eq_self]
    · rfl
    · have hselected := ((sql _).answers (applySort collation sortBy sortDir)
        (filteredQuery db projectIds conditions)).perm.map (·.1.id)
      refine (hselected.nodup_iff.2 nodup_filteredQuery).sublist (List.Sublist.map _ ?_)
      exact (List.take_sublist _ _).trans (List.drop_sublist _ _)
  · exact fun _ => rfl

end Contracts

/-! ## All lists -/

/-- The pages of a list cover it exactly if no page ends between rows that tie under its order and
are shown differently. -/
theorem paging_iff (collation : ContractRepository.Collation) (texts : Texts)
    (rank : DateType → Nat) (tables : ContractTables) (db : Portfolio) (projectIds : List Uuid)
    (conditions : ListedContract → Bool) (sortBy : Option String) (sortDir : String)
    (obligations : ObligationParams) (keyDates : KeyDateParams) (risks : RiskParams)
    (parties : PartyParams) (size : Nat) (hs : 0 < size) :
    (CoversAll (fun sql page => ContractRepository.paginateFiltered (sql _) collation tables
        projectIds conditions page size sortBy sortDir) size
        (ContractRepository.filteredQuery tables projectIds conditions) ↔
      Sql.TiesTogether (ContractRepository.applySort collation sortBy sortDir)
        (ContractRepository.filteredQuery tables projectIds conditions) id size) ∧
    (CoversAll (fun sql page => listObligations sql texts db projectIds obligations ⟨page, size⟩)
        size ((rows (·.contractId) db.obligations db projectIds
          (obligationConditions texts obligations)).map withContract) ↔
      Sql.TiesTogether obligationOrder (rows (·.contractId) db.obligations db projectIds
        (obligationConditions texts obligations)) withContract size) ∧
    (CoversAll (fun sql page => listKeyDates sql rank db projectIds keyDates ⟨page, size⟩) size
        ((rows (·.contractId) db.keyDates db projectIds (keyDateConditions keyDates)).map
          withContract) ↔
      Sql.TiesTogether (keyDateOrder rank) (rows (·.contractId) db.keyDates db projectIds
        (keyDateConditions keyDates)) withContract size) ∧
    (CoversAll (fun sql page => listRisks sql texts db projectIds risks ⟨page, size⟩) size
        ((rows (·.contractId) db.risks db projectIds (riskConditions texts risks)).map
          (withScore db)) ↔
      Sql.TiesTogether riskOrder (rows (·.contractId) db.risks db projectIds
        (riskConditions texts risks)) (withScore db) size) ∧
    (CoversAll (fun sql page => listParties sql texts db projectIds parties ⟨page, size⟩) size
        (partyRows texts db projectIds parties) ↔
      Sql.TiesTogether (partyOrder texts) (partyRows texts db projectIds parties) id size) :=
  ⟨contracts_iff collation sortBy sortDir hs, register_iff hs, register_iff hs, register_iff hs,
    parties_iff texts db projectIds parties hs⟩

section Sample

def sampleContract (id : Uuid) : ContractRecord :=
  { id, projectId := 0, uploadedBy := none, originalFileName := "a.pdf", originalFilePath := none
    convertedFilePath := none, originalFileType := none, sha256Hash := "", storagePath := ""
    processingFilePath := none, processingSha256 := none, fileType := .pdf, fileSize := 1
    mimeType := none }

def sampleTables : ContractTables where
  contracts := [sampleContract 1, sampleContract 2]
  metadata := []
  contractIds := by decide
  metadataIds := by decide

def sampleCollation : ContractRepository.Collation := ⟨.unordered, fun _ => 0⟩

/-- On one page they are both shown. -/
theorem paging_two : CoversAll (fun sql page => ContractRepository.paginateFiltered (sql _)
    sampleCollation sampleTables [0] (fun _ => true) page 2 none "desc") 2
    (ContractRepository.filteredQuery sampleTables [0] fun _ => true) :=
  (paging_iff sampleCollation ⟨fun _ _ => true, .unordered, id⟩ (fun _ => 0) sampleTables {} [0]
    (fun _ => true) none "desc" {} {} {} {} 2 (by decide)).1.2
    (Sql.tiesTogether_of_length_le (by decide))

/-- On two pages the same one may be shown twice. -/
theorem paging_fails : ¬ CoversAll (fun sql page => ContractRepository.paginateFiltered (sql _)
    sampleCollation sampleTables [0] (fun _ => true) page 1 none "desc") 1
    (ContractRepository.filteredQuery sampleTables [0] fun _ => true) := by
  rw [contracts_iff sampleCollation none "desc" (by decide)]
  intro h
  have hne : (sampleContract 1, (none : Option ContractMetadata)) ≠ (sampleContract 2, none) :=
    fun heq => absurd (congrArg (·.1.id) heq) (by decide)
  have hpage := h (sampleContract 1, none) (.head _) (sampleContract 2, none)
    (.tail _ (.head _)) rfl rfl hne
  revert hpage
  decide

end Sample

end Paging

end Clear
