import Clear.Ai.Retrieval.Planner
import Clear.Ai.Retrieval.Rerank
import Clear.Repositories.Contract
import Clear.Repositories.ContractMetadata
import Clear.Repositories.Embedding
import Clear.Repositories.Knowledge

/-!
# Retrieval engine

`RetrievalEngine.retrieve`: the metadata pre-filter, one vector and one keyword search per level of
the plan, the expansion by neighbours and graph edges, deduplication and re-ranking. An empty list
of candidate contracts restricts no search. What PostgreSQL computes (the order of rows that tie,
cosine distance, full-text match and rank, `ILIKE`) is a parameter, and so are the embedding of the
query and the re-ranker. Timings, metrics and log lines are left out.
-/

namespace Clear

namespace Retrieval

/-- The tables that retrieval reads. The rows of a contract are filed under it: a vector's
`filter_metadata` names the project of its row, and a chunk's vector is filed under the chunk's
contract. -/
structure Corpus (ν : Type) where
  contracts : List ContractRow
  metadata : MetadataTable
  chunks : List ChunkRow
  clauses : List ClauseRow
  embeddings : EmbeddingTable ν
  relationships : List KnowledgeRelationship
  contractsUnique : (contracts.map (·.id)).Nodup
  chunksUnique : (chunks.map (·.id)).Nodup
  projectFiled : ∀ r ∈ embeddings.rows, ∀ v, r.filterMetadata.lookup "project_id" = some v →
    v = .str r.projectId.str
  chunkFiled : ∀ r ∈ embeddings.rows, r.level = .chunk → ∀ c ∈ chunks, c.id = r.refId →
    c.contractId = r.contractId

abbrev Candidate := ContractMetadata × ContractRow

/-- What the database and the providers compute. -/
structure Backend (ν : Type) where
  candidateOrder : Sql.Engine Candidate
  vectorOrder : Sql.Engine (EmbeddingRow ν)
  chunkOrder : Sql.Engine ChunkRow
  clauseOrder : Sql.Engine ClauseRow
  edgeOrder : Sql.Engine KnowledgeRelationship
  cosineDistance : List ν → List ν → Rat
  tsMatches : (query text : String) → Bool
  tsRank : (query text : String) → Rat
  ilike : (pattern text : String) → Bool
  /-- False when the full-text query raises. -/
  keywordAvailable : Bool
  /-- `provider.embed_query`, absent where it raises. -/
  embedQuery : String → Option (List ν)
  /-- `provider.model`. -/
  model : String
  reranker : Reranker

/-- Everything the plan retrieved. -/
structure Result where
  evidence : List Evidence := []
  candidateContracts : List Uuid := []
  metadataRows : List Candidate := []
  warnings : List String := []
  truncated : Bool := false
  topSimilarityByLevel : List (EmbeddingLevel × Rat) := []

def maxCandidateContracts : Nat := 200

variable {ν : Type}

/-! ## Metadata -/

/-- The conditions of the pre-filter's `SELECT`. A comparison with NULL selects nothing. -/
def selects (backend : Backend ν) (plan : RetrievalPlan) (row : Candidate) : Bool :=
  let filters := plan.filters
  let contractMetadata := row.1
  let contract := row.2
  decide (contractMetadata.projectId ∈ plan.projectIds) &&
  contract.deletedAt.isNone &&
  (plan.contractIds.isEmpty || contractMetadata.contractId ∈ plan.contractIds) &&
  (filters.agreementTypes.isEmpty ||
    contract.agreementType.any fun t => t ∈ filters.agreementTypes) &&
  (filters.riskBands.isEmpty ||
    (contractMetadata.str? .riskBand).any fun band => band ∈ filters.riskBands) &&
  (filters.hasUnlimitedLiability.all fun b =>
    contractMetadata.bool? .hasUnlimitedLiability = some b) &&
  (filters.missingMandatory ≠ some true ||
    !(contractMetadata.list .missingMandatoryClauses).isEmpty) &&
  (filters.expiringAfter.all fun day =>
    (contractMetadata.date? .expirationDate).any (day ≤ ·)) &&
  (filters.expiringBefore.all fun day =>
    (contractMetadata.date? .expirationDate).any (· ≤ day)) &&
  (filters.effectiveAfter.all fun day =>
    (contractMetadata.date? .effectiveDate).any (day ≤ ·)) &&
  (filters.parties.isEmpty || filters.parties.any fun party =>
    (contractMetadata.str? .partyA).any (backend.ilike ("%" ++ party ++ "%")) ||
    (contractMetadata.str? .partyB).any (backend.ilike ("%" ++ party ++ "%")))

def joined (db : Corpus ν) : List Candidate :=
  db.metadata.rows.flatMap fun row =>
    (db.contracts.filter fun c => c.id = row.contractId).map (row, ·)

def selected (backend : Backend ν) (db : Corpus ν) (plan : RetrievalPlan) : List Candidate :=
  (joined db).filter (selects backend plan)

def candidateClause : Sql.OrderBy Candidate :=
  ((Sql.OrderBy.descNullsLast fun row => row.1.int? .riskScore).thenBy
    (.ascNullsLast fun row => row.1.date? .expirationDate)).thenBy
    (.asc fun row => row.1.contractId.toNat)

def metadataPrefilter (backend : Backend ν) (db : Corpus ν) (plan : RetrievalPlan) :
    List Uuid × List Candidate × Bool :=
  let rows := (backend.candidateOrder.select candidateClause (selected backend db plan)).take
    (maxCandidateContracts + 1)
  let truncated := maxCandidateContracts < rows.length
  let rows := rows.take maxCandidateContracts
  (rows.map (·.1.contractId), rows, truncated)

/-! ## Hydration -/

/-- Fill in the citation fields of one vector hit. -/
def hydrateItem (db : Corpus ν) (item : Evidence) : Evidence :=
  match item.level with
  | .chunk =>
    match db.chunks.find? (·.id = item.refId) with
    | none => item
    | some chunk =>
      { item with
        text := if item.text = "" then chunk.textContent else item.text
        sectionTitle := chunk.sectionTitle
        clauseNumber := chunk.clauseNumber
        pageStart := chunk.pageStart
        pageEnd := chunk.pageEnd
        boundingBoxes := chunk.boundingBoxes
        chunkId := some chunk.id }
  | .clause =>
    match db.clauses.find? (·.id = item.refId) with
    | none => item
    | some clause =>
      { item with
        text := if item.text = "" then clause.textContent else item.text
        clauseType := some clause.clauseType
        clauseNumber := clause.clauseNumber
        sectionTitle := clause.sectionTitle
        pageStart := clause.pageStart
        pageEnd := clause.pageEnd
        boundingBoxes := clause.boundingBoxes
        chunkId := clause.chunkId }
  | .documentSummary => item

def attachTitles (db : Corpus ν) (evidence : List Evidence) : List Evidence :=
  evidence.map fun item =>
    match item.contractTitle with
    | some _ => item
    | none =>
      { item with
        contractTitle := (db.contracts.find? (·.id = item.contractId)).bind (·.title) }

def hydrate (db : Corpus ν) (evidence : List Evidence) : List Evidence :=
  attachTitles db (evidence.map (hydrateItem db))

/-! ## Vector -/

def embedQuery (backend : Backend ν) (plan : RetrievalPlan) : Option (List ν) :=
  if plan.mode = .keyword then none else backend.embedQuery plan.query

def vectorMetadata (filters : MetadataFilter) : JsonDict :=
  (match filters.agreementTypes with
    | [agreementType] => [("agreement_type", .str agreementType)]
    | _ => []) ++
  (match filters.riskBands with
    | [band] => [("risk_band", .str band)]
    | _ => []) ++
  (match filters.hasUnlimitedLiability with
    | some b => [("has_unlimited_liability", .bool b)]
    | none => [])

def firstProject (plan : RetrievalPlan) : Except Raised Uuid :=
  match plan.projectIds with
  | project :: _ => .ok project
  | [] => .error (.other "IndexError")

/-- The project that a vector's `filter_metadata` names, else the first project of the plan. The
embedding stage writes texts only. -/
def projectOf (plan : RetrievalPlan) (r : EmbeddingRow ν) : Except Raised Uuid :=
  match r.filterMetadata.lookup "project_id" with
  | none | some .null | some (.str "") => firstProject plan
  | some (.str text) =>
    match Uuid.parse? text with
    | some id => .ok id
    | none => .error (.other "ValueError")
  | some _ => .error (.other "ValueError")

def vectorItem (backend : Backend ν) (plan : RetrievalPlan) (queryVector : List ν)
    (hit : EmbeddingRow ν × Nat) : Except Raised Evidence :=
  (projectOf plan hit.1).map fun projectId =>
    let score := 1 - backend.cosineDistance hit.1.embedding queryVector
    { level := hit.1.level
      refId := hit.1.refId
      contractId := hit.1.contractId
      projectId
      text := hit.1.sourceText
      score
      source := .vector
      rank := hit.2
      similarity := some score }

def vectorSearch (backend : Backend ν) (db : Corpus ν) (plan : RetrievalPlan) (budget : LevelBudget)
    (candidates : List Uuid) (queryVector : List ν) : Except Raised (List Evidence) :=
  if plan.projectIds.isEmpty || queryVector.isEmpty then .ok []
  else
    let hits := db.embeddings.search backend.vectorOrder
      (backend.cosineDistance · queryVector) plan.projectIds budget.level budget.limit candidates
      (vectorMetadata plan.filters) (1 - budget.minSimilarity) backend.model
    ((hits.zipIdx 1).mapM (vectorItem backend plan queryVector)).map (hydrate db)

/-! ## Keyword -/

def keywordItem (backend : Backend ν) (plan : RetrievalPlan) (hit : ChunkRow × Nat) : Evidence where
  level := .chunk
  refId := hit.1.id
  contractId := hit.1.contractId
  projectId := hit.1.projectId
  text := hit.1.textContent
  score := backend.tsRank plan.query hit.1.textContent
  source := .keyword
  rank := hit.2
  sectionTitle := hit.1.sectionTitle
  clauseNumber := hit.1.clauseNumber
  pageStart := hit.1.pageStart
  pageEnd := hit.1.pageEnd
  boundingBoxes := hit.1.boundingBoxes
  chunkId := some hit.1.id

/-- Full-text search over chunk text. -/
def keywordSearch (backend : Backend ν) (db : Corpus ν) (plan : RetrievalPlan)
    (budget : LevelBudget) (candidates : List Uuid) : List Evidence :=
  if budget.level = .documentSummary || !backend.keywordAvailable then []
  else
    let rows := db.chunks.filter fun c =>
      c.projectId ∈ plan.projectIds && backend.tsMatches plan.query c.textContent &&
        (candidates.isEmpty || c.contractId ∈ candidates)
    let hits := (backend.chunkOrder.select
      (.desc fun c => backend.tsRank plan.query c.textContent) rows).take budget.limit
    (hits.zipIdx 1).map (keywordItem backend plan)

/-! ## Levels -/

structure Progress where
  evidence : List Evidence := []
  candidates : List Uuid
  topSimilarityByLevel : List (EmbeddingLevel × Rat) := []

/-- The best cosine similarity of a level, taken before fusion overwrites the score. -/
def noteSimilarity (tops : List (EmbeddingLevel × Rat)) (level : EmbeddingLevel)
    (hits : List Evidence) : List (EmbeddingLevel × Rat) :=
  match hits with
  | [] => tops
  | hit :: rest =>
    Dict.assign tops level <|
      max ((tops.lookup level).getD 0) (rest.foldl (fun top item => max top item.score) hit.score)

def keywordLeg (backend : Backend ν) (db : Corpus ν) (plan : RetrievalPlan) (budget : LevelBudget)
    (candidates : List Uuid) : List Evidence :=
  if plan.mode = .semantic then [] else keywordSearch backend db plan budget candidates

def mergeHits (mode : SearchMode) (vectorHits keywordHits : List Evidence) (limit : Nat) :
    List Evidence :=
  match mode with
  | .semantic => vectorHits
  | .keyword => keywordHits
  | .hybrid => fuse vectorHits keywordHits limit

def mergeLevel (backend : Backend ν) (db : Corpus ν) (plan : RetrievalPlan) (progress : Progress)
    (budget : LevelBudget) (vectorHits : List Evidence) : Progress :=
  let keywordHits := keywordLeg backend db plan budget progress.candidates
  let merged := mergeHits plan.mode vectorHits keywordHits budget.limit
  { evidence := progress.evidence ++ merged
    candidates :=
      if budget.level = .documentSummary && !merged.isEmpty then
        (merged.map (·.contractId)).take maxCandidateContracts
      else progress.candidates
    topSimilarityByLevel := noteSimilarity progress.topSimilarityByLevel budget.level vectorHits }

def searchLevel (backend : Backend ν) (db : Corpus ν) (plan : RetrievalPlan)
    (queryVector : Option (List ν)) (progress : Progress) (budget : LevelBudget) :
    Except Raised Progress :=
  let vectorHits :=
    match queryVector with
    | some queryVector => vectorSearch backend db plan budget progress.candidates queryVector
    | none => .ok []
  vectorHits.map (mergeLevel backend db plan progress budget)

/-! ## Expansion -/

def seeds (settings : RetrievalSettings) (evidence : List Evidence) : List Evidence :=
  ((evidence.filter (·.level = .chunk)).take settings.maxChunks).filter (·.chunkId.isSome)

def seedChunks (backend : Backend ν) (db : Corpus ν) (seeds : List Evidence) (projectId : Uuid) :
    List ChunkRow :=
  ChunkRow.listByIds backend.chunkOrder db.chunks
    ((seeds.filter (·.projectId = projectId)).filterMap (·.chunkId)) projectId

def neighbourItem (item : Evidence) (neighbour : ChunkRow) : Evidence where
  level := .chunk
  refId := neighbour.id
  contractId := neighbour.contractId
  projectId := neighbour.projectId
  text := neighbour.textContent
  score := item.score / 2
  source := .neighbour
  sectionTitle := neighbour.sectionTitle
  clauseNumber := neighbour.clauseNumber
  pageStart := neighbour.pageStart
  pageEnd := neighbour.pageEnd
  boundingBoxes := neighbour.boundingBoxes
  chunkId := some neighbour.id
  contractTitle := item.contractTitle

def addNeighbours (item : Evidence) (neighbours : List ChunkRow)
    (state : List Evidence × List Uuid) : List Evidence × List Uuid :=
  neighbours.foldl (fun state neighbour =>
    if neighbour.id ∈ state.2 then state
    else (state.1 ++ [neighbourItem item neighbour], neighbour.id :: state.2)) state

def expandNeighbours (backend : Backend ν) (db : Corpus ν) (settings : RetrievalSettings)
    (plan : RetrievalPlan) (evidence : List Evidence) : List Evidence :=
  let seeds := seeds settings evidence
  let projects := (seeds.map (·.projectId)).eraseDups
  let chunks := projects.flatMap (seedChunks backend db seeds)
  let neighbours := Dict.ofItems <| projects.flatMap fun projectId =>
    ChunkRow.neighboursForMany backend.chunkOrder db.chunks (seedChunks backend db seeds projectId)
      projectId plan.neighbourWindow
  (seeds.foldl (fun state item =>
    match item.chunkId with
    | none => state
    | some chunkId =>
      if chunks.any (·.id = chunkId) then
        addNeighbours item ((neighbours.lookup chunkId).getD []) state
      else state) ([], evidence.filterMap (·.chunkId))).1

def graphItem (item : Evidence) (clause : ClauseRow) : Evidence where
  level := .clause
  refId := clause.id
  contractId := clause.contractId
  projectId := clause.projectId
  text := clause.textContent
  score := item.score * (2 / 5)
  source := .graph
  clauseType := some clause.clauseType
  clauseNumber := clause.clauseNumber
  sectionTitle := clause.sectionTitle
  pageStart := clause.pageStart
  pageEnd := clause.pageEnd
  boundingBoxes := clause.boundingBoxes
  contractTitle := item.contractTitle

def followEdge (backend : Backend ν) (db : Corpus ν) (item : Evidence) (nodeRef : String)
    (state : List Evidence × List String) (edge : KnowledgeRelationship) :
    List Evidence × List String :=
  let target := edge.other nodeRef
  if target = "" || target ∈ state.2 then state
  else
    let rows := db.clauses.filter fun c =>
      c.projectId = item.projectId && c.contractId = item.contractId && c.clauseNumber = some target
    match (backend.clauseOrder.select .unordered rows).head? with
    | none => (state.1, target :: state.2)
    | some clause => (state.1 ++ [graphItem item clause], target :: state.2)

def followEdges (backend : Backend ν) (db : Corpus ν) (plan : RetrievalPlan)
    (state : List Evidence × List String) (item : Evidence) : List Evidence × List String :=
  match item.clauseNumber with
  | none | some "" => state
  | some nodeRef =>
    (KnowledgeRelationship.neighbours backend.edgeOrder db.relationships item.projectId nodeRef
      (plan.graphDepth * 5)).foldl (followEdge backend db item nodeRef) state

def expandGraph (backend : Backend ν) (db : Corpus ν) (plan : RetrievalPlan)
    (evidence : List Evidence) : List Evidence :=
  (((evidence.filter (·.level = .clause)).take 10).foldl (followEdges backend db plan) ([], [])).1

/-! ## Re-ranking -/

def rerankPrimary (settings : RetrievalSettings) (reranker : Reranker) (plan : RetrievalPlan)
    (evidence : List Evidence) : Except Raised (List Evidence) :=
  let primary := evidence.filter (·.source ∉ [.neighbour, .graph])
  let expansion := evidence.filter (·.source ∈ [.neighbour, .graph])
  if primary.isEmpty then .ok evidence
  else
    (reranker.rerank plan.query primary (min primary.length settings.rerankTopK)).map
      fun (ordered, primary) =>
        ordered ++ primary.filter (fun item => ordered.all (·.key ≠ item.key)) ++ expansion

/-! ## The engine -/

/-- Expansion, deduplication, titles and re-ranking. -/
def finish (std : Stdlib) (settings : RetrievalSettings) (backend : Backend ν) (db : Corpus ν)
    (plan : RetrievalPlan) (evidence : List Evidence) : Except Raised (List Evidence) :=
  let evidence :=
    if 0 < plan.neighbourWindow then
      evidence ++ expandNeighbours backend db settings plan evidence
    else evidence
  let evidence :=
    if 0 < plan.graphDepth then evidence ++ expandGraph backend db plan evidence else evidence
  let evidence := attachTitles db (deduplicate std.lower evidence)
  if plan.rerank && !evidence.isEmpty then
    rerankPrimary settings backend.reranker plan evidence
  else .ok evidence

def unscopedWarning : String :=
  "You are not a member of any project in scope, so there is nothing to search."

def truncatedWarning : String :=
  "More than 200 contracts match this question, so results are ranked across the whole project " ++
    "rather than a pre-selected subset of it."

def unmatchedWarning : String := "No contracts matched the filters implied by this question."

def semanticWarning : String :=
  "Semantic search was unavailable, so results are keyword-based only."

def retrieve (std : Stdlib) (settings : RetrievalSettings) (backend : Backend ν) (db : Corpus ν)
    (plan : RetrievalPlan) : Except Raised Result :=
  if !plan.isScoped then .ok { warnings := [unscopedWarning] }
  else
    let (ids, metadataRows, truncated) := metadataPrefilter backend db plan
    -- A slice is no candidate set: after a truncated pre-filter the list is dropped.
    let candidates := if truncated then [] else ids
    let result : Result :=
      { candidateContracts := candidates
        metadataRows
        truncated
        warnings := if truncated then [truncatedWarning] else [] }
    if plan.strategy = .metadataOnly then .ok result
    else if candidates.isEmpty && !truncated && !plan.filters.isEmpty then
      .ok { result with warnings := result.warnings ++ [unmatchedWarning] }
    else do
      let queryVector := embedQuery backend plan
      let progress ← plan.levels.foldlM (searchLevel backend db plan queryVector) { candidates }
      let evidence ← finish std settings backend db plan progress.evidence
      return { result with
        evidence
        candidateContracts := progress.candidates
        warnings := result.warnings ++
          if plan.mode ≠ .keyword && queryVector.isNone then [semanticWarning] else []
        topSimilarityByLevel := progress.topSimilarityByLevel }

end Retrieval

end Clear
