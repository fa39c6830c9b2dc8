import Clear.Core.Enums
import Clear.Core.Uuid
import Clear.Core.Value
import Clear.Lib.Dict
import Clear.Lib.OrderBy

/-!
# Extracted knowledge

The rows of `clauses`, `entities`, `risks`, `key_dates` and `knowledge_relationships`
(`app/models/knowledge.py`) as retrieval, the registers and the exports read them.
-/

/-!
## Chunks

The reads of `ChunkRepository` that context expansion uses: every one is bounded by a project.
-/

namespace Clear

structure ChunkRow where
  id : Uuid
  contractId : Uuid
  projectId : Uuid
  sectionTitle : Option String := none
  clauseNumber : Option String := none
  textContent : String
  readingOrder : Int
  pageStart : Option Nat := none
  pageEnd : Option Nat := none
  boundingBoxes : List Value := []
  version : Nat := 1

namespace ChunkRow

def position (c : ChunkRow) : Uuid × Nat × Int := (c.contractId, c.version, c.readingOrder)

def listByIds (db : Sql.Engine ChunkRow) (chunks : List ChunkRow) (ids : List Uuid)
    (projectId : Uuid) : List ChunkRow :=
  db.select .unordered (chunks.filter fun c => c.projectId = projectId && c.id ∈ ids)

def neighbours (db : Sql.Engine ChunkRow) (table : List ChunkRow) (chunk : ChunkRow)
    (projectId : Uuid) (window : Nat) : List ChunkRow :=
  if window = 0 then []
  else db.select (.asc (·.readingOrder)) <| table.filter fun c =>
    c.projectId = projectId && c.contractId = chunk.contractId && c.version = chunk.version &&
      chunk.readingOrder - window ≤ c.readingOrder &&
      c.readingOrder ≤ chunk.readingOrder + window && c.id ≠ chunk.id

abbrev Spans := List ((Uuid × Nat) × Int × Int)

def addSpan (window : Nat) (spans : Spans) (c : ChunkRow) : Spans :=
  let low := c.readingOrder - window
  let high := c.readingOrder + window
  match spans.lookup (c.contractId, c.version) with
  | none => Dict.assign spans (c.contractId, c.version) (low, high)
  | some (low', high') =>
    Dict.assign spans (c.contractId, c.version) (min low' low, max high' high)

def neighboursForMany (db : Sql.Engine ChunkRow) (table chunks : List ChunkRow)
    (projectId : Uuid) (window : Nat) : List (Uuid × List ChunkRow) :=
  if window = 0 || chunks.isEmpty then []
  else
    let spans := chunks.foldl (addSpan window) []
    let rows := db.select .unordered <| table.filter fun c =>
      c.projectId = projectId && spans.any fun span =>
        c.contractId = span.1.1 && c.version = span.1.2 && span.2.1 ≤ c.readingOrder &&
          c.readingOrder ≤ span.2.2
    let byPosition := Dict.ofItems (rows.map fun c => (c.position, c))
    let offsets := (List.range (2 * window + 1)).map fun (i : Nat) => (i : Int) - window
    Dict.ofItems <| chunks.map fun c =>
      (c.id, (offsets.filter (· ≠ 0)).filterMap fun offset =>
        byPosition.lookup (c.contractId, c.version, c.readingOrder + offset))

/-! ## What the reads answer -/

theorem mem_listByIds {db : Sql.Engine ChunkRow} {chunks : List ChunkRow} {ids : List Uuid}
    {projectId : Uuid} {c : ChunkRow} :
    c ∈ listByIds db chunks ids projectId ↔ c ∈ chunks ∧ c.projectId = projectId ∧ c.id ∈ ids := by
  unfold listByIds
  rw [Sql.Engine.mem_select, List.mem_filter]
  simp

theorem mem_neighboursForMany {db : Sql.Engine ChunkRow} {table chunks : List ChunkRow}
    {projectId : Uuid} {window : Nat} {e : Uuid × List ChunkRow} {c : ChunkRow}
    (he : e ∈ neighboursForMany db table chunks projectId window) (hc : c ∈ e.2) :
    c ∈ table ∧ c.projectId = projectId ∧
      ∃ chunk ∈ chunks, chunk.id = e.1 ∧ chunk.contractId = c.contractId := by
  unfold neighboursForMany at he
  split at he
  · cases he
  · obtain ⟨chunk, hchunk, rfl⟩ := List.mem_map.1 (Dict.mem_ofItems he)
    obtain ⟨offset, -, hlookup⟩ := List.mem_filterMap.1 hc
    obtain ⟨row, hrow, heq⟩ := List.mem_map.1 (Dict.mem_ofItems (Dict.mem_of_lookup hlookup))
    obtain ⟨hposition, rfl⟩ := Prod.mk.inj heq
    rw [Sql.Engine.mem_select, List.mem_filter, Bool.and_eq_true, decide_eq_true_eq] at hrow
    exact ⟨hrow.1, hrow.2.1, chunk, hchunk, rfl, (Prod.mk.inj hposition).1.symm⟩

end ChunkRow

structure ChunkTable where
  rows : List ChunkRow
  ids : (rows.map (·.id)).Nodup
  positions : (rows.map (·.position)).Nodup

end Clear

namespace Clear

structure ClauseRow where
  id : Uuid
  contractId : Uuid
  projectId : Uuid
  chunkId : Option Uuid := none
  clauseType : String
  textContent : String
  sectionTitle : Option String := none
  clauseNumber : Option String := none
  pageStart : Option Nat := none
  pageEnd : Option Nat := none
  boundingBoxes : List Value := []
  reviewStatus : ReviewStatus := .notRequired
  title : Option String := none
  summary : Option String := none
  isRiskFlagged : Bool := false
  isMandatory : Bool := false
  confidence : Option Rat := none
  attributes : ValueDict := []

structure EntityRow where
  id : Uuid
  contractId : Uuid
  projectId : Uuid
  entityType : EntityType
  name : String
  legalName : Option String := none
  role : Option String := none
  jurisdiction : Option String := none
  registrationNumber : Option String := none
  isPrimary : Bool := false
  pageStart : Option Nat := none
  /-- Defined terms and short forms. -/
  aliases : List String := []

structure RiskRow where
  id : Uuid
  contractId : Uuid
  projectId : Uuid
  clauseId : Option Uuid := none
  riskType : String
  severity : RiskSeverity
  description : String
  recommendation : Option String := none
  scoreContribution : Option Int := none
  category : Option String := none
  isOmission : Bool := false
  pageStart : Option Nat := none
  createdAt : Timestamp := 0

structure KeyDateRow where
  id : Uuid
  contractId : Uuid
  projectId : Uuid
  dateType : DateType
  dateValue : Option Date := none
  dateExpression : Option String := none
  description : Option String := none
  isRecurring : Bool := false
  pageStart : Option Nat := none

/-- A row of `knowledge_relationships`: an edge between two node references. -/
structure KnowledgeRelationship where
  contractId : Uuid
  projectId : Uuid
  relation : GraphRelation
  sourceType : String
  sourceRef : String
  targetType : String
  targetRef : String
  label : Option String := none
  attributes : ValueDict := []

def KnowledgeRelationship.neighbours (db : Sql.Engine KnowledgeRelationship)
    (edges : List KnowledgeRelationship) (projectId : Uuid) (nodeRef : String) (limit : Nat) :
    List KnowledgeRelationship :=
  (db.select .unordered <| edges.filter fun e =>
    e.projectId = projectId && (e.sourceRef = nodeRef || e.targetRef = nodeRef)).take limit

def KnowledgeRelationship.other (edge : KnowledgeRelationship) (nodeRef : String) : String :=
  if edge.sourceRef = nodeRef then edge.targetRef else edge.sourceRef

end Clear
