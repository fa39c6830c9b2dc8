import Clear.Ai.Retrieval.Engine

/-!
# Scope and filters bound retrieval

Whatever leg an item comes from, its project is one of the plan's, and once the pre-filter has left a
list of candidates, its contract is one of them: the searches select by the list, the document level
only narrows it, and the expansions stay in the contract of the hit they start from (`InBounds`).

An empty list restricts nothing, so the three ways to get one are told apart. If the filters match no
contract the engine stops. If they match more than 200 the list is dropped on purpose, and the items
are bounded by the projects alone. Contracts that are named are repeated in the filters, and at most
200 of them are never dropped (`retrieve_bounded`).
-/

namespace Clear

namespace Retrieval

open Evidence

variable {ν : Type} {std : Stdlib} {settings : RetrievalSettings} {backend : Backend ν}
variable {db : Corpus ν} {plan : RetrievalPlan}

/-! ## What the pre-filter selects -/

structure Meets (backend : Backend ν) (plan : RetrievalPlan) (row : Candidate) : Prop where
  project : row.1.projectId ∈ plan.projectIds
  live : row.2.deletedAt = none
  named : plan.contractIds ≠ [] → row.1.contractId ∈ plan.contractIds
  agreementType : plan.filters.agreementTypes ≠ [] →
    ∃ t ∈ plan.filters.agreementTypes, row.2.agreementType = some t
  riskBand : plan.filters.riskBands ≠ [] →
    ∃ band ∈ plan.filters.riskBands, row.1.str? .riskBand = some band
  liability : ∀ b, plan.filters.hasUnlimitedLiability = some b →
    row.1.bool? .hasUnlimitedLiability = some b
  missing : plan.filters.missingMandatory = some true → row.1.list .missingMandatoryClauses ≠ []
  expiringAfter : ∀ day, plan.filters.expiringAfter = some day →
    ∃ d, row.1.date? .expirationDate = some d ∧ day ≤ d
  expiringBefore : ∀ day, plan.filters.expiringBefore = some day →
    ∃ d, row.1.date? .expirationDate = some d ∧ d ≤ day
  effectiveAfter : ∀ day, plan.filters.effectiveAfter = some day →
    ∃ d, row.1.date? .effectiveDate = some d ∧ day ≤ d
  party : plan.filters.parties ≠ [] → ∃ party ∈ plan.filters.parties, ∃ name,
    (row.1.str? .partyA = some name ∨ row.1.str? .partyB = some name) ∧
      backend.ilike ("%" ++ party ++ "%") name = true

theorem meets_of_selects {row : Candidate} (h : selects backend plan row = true) :
    Meets backend plan row := by
  unfold selects at h
  dsimp only at h
  simp only [Bool.and_eq_true, Bool.or_eq_true, decide_eq_true_eq, List.isEmpty_iff,
    Option.isNone_iff_eq_none, Option.any_eq_true, Option.all_eq_true, List.any_eq_true,
    Bool.not_eq_true', List.isEmpty_eq_false_iff] at h
  obtain ⟨⟨⟨⟨⟨⟨⟨⟨⟨⟨hproject, hlive⟩, hnamed⟩, htype⟩, hband⟩, hliability⟩, hmissing⟩, hafter⟩,
    hbefore⟩, heffective⟩, hparty⟩ := h
  refine ⟨hproject, hlive, fun hne => hnamed.resolve_left hne, fun hne => ?_, fun hne => ?_,
    hliability, fun hmust => hmissing.resolve_left (fun hne => hne hmust), hafter, hbefore,
    heffective, fun hne => ?_⟩
  · obtain ⟨t, ht, hmem⟩ := htype.resolve_left hne
    exact ⟨t, hmem, ht⟩
  · obtain ⟨band, hb, hmem⟩ := hband.resolve_left hne
    exact ⟨band, hmem, hb⟩
  · obtain ⟨party, hmem, hname⟩ := hparty.resolve_left hne
    rcases hname with ⟨name, hname, hlike⟩ | ⟨name, hname, hlike⟩
    · exact ⟨party, hmem, name, .inl hname, hlike⟩
    · exact ⟨party, hmem, name, .inr hname, hlike⟩

theorem id_of_mem_joined {row : Candidate} (h : row ∈ joined db) : row.2.id = row.1.contractId := by
  unfold joined at h
  obtain ⟨m, -, hrow⟩ := List.mem_flatMap.1 h
  obtain ⟨c, hc, rfl⟩ := List.mem_map.1 hrow
  exact of_decide_eq_true (List.mem_filter.1 hc).2

theorem joined_nodup (db : Corpus ν) : ((joined db).map (·.1.contractId)).Nodup :=
  Keyed.join_nodup db.metadata.keys db.contractsUnique

theorem prefilter_ids {ids : List Uuid} {rows : List Candidate} {truncated : Bool}
    (h : metadataPrefilter backend db plan = (ids, rows, truncated)) :
    (truncated = true ↔ maxCandidateContracts < (selected backend db plan).length) ∧
      (truncated = false → (∀ id ∈ ids, ∃ row ∈ joined db, row.2.id = id ∧ Meets backend plan row) ∧
        (ids = [] ↔ selected backend db plan = [])) := by
  unfold metadataPrefilter at h
  have hanswer := backend.candidateOrder.answers candidateClause (selected backend db plan)
  have hlength := hanswer.perm.length_eq
  have htruncated : truncated = true ↔
      maxCandidateContracts < (selected backend db plan).length := by
    rw [← (Prod.mk.inj (Prod.mk.inj h).2).2, decide_eq_true_eq, List.length_take, hlength]
    omega
  refine ⟨htruncated, fun hwhole => ?_⟩
  have hle : (selected backend db plan).length ≤ maxCandidateContracts := by
    rw [← Nat.not_lt, ← htruncated, hwhole]
    exact Bool.false_ne_true
  have hids : ids = (backend.candidateOrder.select candidateClause
      (selected backend db plan)).map (·.1.contractId) := by
    rw [← (Prod.mk.inj h).1, List.take_take, List.take_of_length_le]
    rw [hlength]
    omega
  rw [hids]
  constructor
  · intro id hid
    obtain ⟨row, hrow, rfl⟩ := List.mem_map.1 hid
    obtain ⟨hjoined, hselects⟩ := List.mem_filter.1 (hanswer.perm.mem_iff.1 hrow)
    exact ⟨row, hjoined, id_of_mem_joined hjoined, meets_of_selects hselects⟩
  · rw [List.map_eq_nil_iff, ← List.length_eq_zero_iff, hlength, List.length_eq_zero_iff]

theorem selected_length_le (hnamed : plan.contractIds ≠ []) :
    (selected backend db plan).length ≤ plan.contractIds.length := by
  have hnodup : ((selected backend db plan).map (·.1.contractId)).Nodup :=
    (joined_nodup db).sublist (List.filter_sublist.map _)
  have hsubset : (selected backend db plan).map (·.1.contractId) ⊆ plan.contractIds := by
    intro id hid
    obtain ⟨row, hrow, rfl⟩ := List.mem_map.1 hid
    exact (meets_of_selects (List.mem_filter.1 hrow).2).named hnamed
  have hle := (List.subperm_of_subset hnodup hsubset).length_le
  rwa [List.length_map] at hle

/-! ## What every leg keeps -/

/-- The project of an item is in scope, its contract is a candidate, and a chunk item is read from a
chunk of its contract. `scope` empty restricts nothing. -/
structure InBounds (db : Corpus ν) (projects scope : List Uuid) (o : Origin) : Prop where
  project : o.projectId ∈ projects
  contract : scope ≠ [] → o.contractId ∈ scope
  anchored : o.level = .chunk → ∀ id, o.chunkId = some id → ∀ c ∈ db.chunks, c.id = id →
    c.contractId = o.contractId

def Narrows (scope candidates : List Uuid) : Prop :=
  scope ≠ [] → candidates ≠ [] ∧ candidates ⊆ scope

def AllInBounds (db : Corpus ν) (plan : RetrievalPlan) (scope : List Uuid)
    (items : List Evidence) : Prop :=
  ∀ item ∈ items, InBounds db plan.projectIds scope item.origin

variable {scope candidates : List Uuid} {items evidence : List Evidence}

theorem AllInBounds.of_origin {items' : List Evidence} (h : AllInBounds db plan scope items)
    (ho : ∀ item ∈ items', ∃ source ∈ items, source.origin = item.origin) :
    AllInBounds db plan scope items' := by
  intro item hitem
  obtain ⟨source, hsource, horigin⟩ := ho item hitem
  rw [← horigin]
  exact h source hsource

theorem AllInBounds.append {items' : List Evidence} (h : AllInBounds db plan scope items)
    (h' : AllInBounds db plan scope items') : AllInBounds db plan scope (items ++ items') := by
  intro item hitem
  rcases List.mem_append.1 hitem with hitem | hitem
  · exact h item hitem
  · exact h' item hitem

theorem Narrows.mem {id : Uuid} (h : Narrows scope candidates) (hscope : scope ≠ [])
    (hid : (candidates.isEmpty || decide (id ∈ candidates)) = true) : id ∈ scope := by
  obtain ⟨hne, hsubset⟩ := h hscope
  rw [Bool.or_eq_true, List.isEmpty_iff, decide_eq_true_eq] at hid
  exact hsubset (hid.resolve_left hne)

/-! ## Vector search -/

theorem projectOf_mem {r : EmbeddingRow ν} {project : Uuid} (hr : r ∈ db.embeddings.rows)
    (hproject : r.projectId ∈ plan.projectIds) (h : projectOf plan r = .ok project) :
    project ∈ plan.projectIds := by
  have hfirst : firstProject plan = .ok project → project ∈ plan.projectIds := by
    intro h
    unfold firstProject at h
    split at h
    next heq =>
      cases h
      rw [heq]
      exact List.mem_cons_self
    next => cases h
  unfold projectOf at h
  split at h
  · exact hfirst h
  · exact hfirst h
  · exact hfirst h
  · next text _ hlookup =>
    have htext : text = r.projectId.str := Json.str.inj (db.projectFiled r hr _ hlookup)
    rw [htext, Uuid.parse_str] at h
    cases h
    exact hproject
  · cases h

theorem origin_of_mem_attachTitles {item : Evidence} (h : item ∈ attachTitles db evidence) :
    ∃ source ∈ evidence, source.origin = item.origin := by
  unfold attachTitles at h
  obtain ⟨source, hsource, rfl⟩ := List.mem_map.1 h
  refine ⟨source, hsource, ?_⟩
  split <;> rfl

theorem hydrateItem_inBounds {item : Evidence}
    (hproject : item.projectId ∈ plan.projectIds)
    (hcontract : scope ≠ [] → item.contractId ∈ scope) (hchunk : item.chunkId = none)
    (hfiled : item.level = .chunk → ∀ c ∈ db.chunks, c.id = item.refId →
      c.contractId = item.contractId) :
    InBounds db plan.projectIds scope (hydrateItem db item).origin := by
  unfold hydrateItem
  split
  next hlevel =>
    split
    next => exact ⟨hproject, hcontract, fun _ id hid => by simp [origin, hchunk] at hid⟩
    next chunk hfind =>
      refine ⟨hproject, hcontract, fun _ id hid c hc hcid => ?_⟩
      have hchunkId : chunk.id = item.refId := by simpa using List.find?_some hfind
      have hid' : chunk.id = id := Option.some.inj hid
      exact hfiled hlevel c hc (by rw [hcid, ← hid', hchunkId])
  next hlevel =>
    split
    next => exact ⟨hproject, hcontract, fun _ id hid => by simp [origin, hchunk] at hid⟩
    next => exact ⟨hproject, hcontract, fun h => by simp [origin, hlevel] at h⟩
  next hlevel => exact ⟨hproject, hcontract, fun h => by simp [origin, hlevel] at h⟩

theorem vectorSearch_inBounds {budget : LevelBudget} {queryVector : List ν} {hits : List Evidence}
    (hnarrows : Narrows scope candidates)
    (h : vectorSearch backend db plan budget candidates queryVector = .ok hits) :
    AllInBounds db plan scope hits := by
  unfold vectorSearch at h
  split at h
  · cases h
    intro item hitem
    cases hitem
  · obtain ⟨found, hfound, rfl⟩ := Except.map_eq_ok.1 h
    intro item hitem
    obtain ⟨hydrated, hhydrated, horigin⟩ := origin_of_mem_attachTitles hitem
    obtain ⟨source, hsource, rfl⟩ := List.mem_map.1 hhydrated
    obtain ⟨⟨r, rank⟩, hr, hsource⟩ := (Except.mem_of_mapM hfound).1 hsource
    obtain ⟨project, hproject, rfl⟩ := Except.map_eq_ok.1 hsource
    have hrow := List.mem_of_mem_take (List.fst_mem_of_mem_zipIdx hr)
    rw [Sql.Engine.mem_select, List.mem_filter] at hrow
    obtain ⟨hmem, hselected⟩ := hrow
    simp only [Bool.and_eq_true] at hselected
    obtain ⟨⟨⟨⟨⟨hscope, -⟩, hcandidate⟩, -⟩, -⟩, -⟩ := hselected
    rw [← horigin]
    exact hydrateItem_inBounds (projectOf_mem hmem (of_decide_eq_true hscope) hproject)
      (fun hne => hnarrows.mem hne hcandidate) rfl (db.chunkFiled r hmem)

/-! ## Keyword search -/

theorem keywordSearch_inBounds {budget : LevelBudget} (hnarrows : Narrows scope candidates) :
    AllInBounds db plan scope (keywordSearch backend db plan budget candidates) := by
  unfold keywordSearch
  split
  · intro item hitem
    cases hitem
  · intro item hitem
    obtain ⟨⟨c, rank⟩, hc, rfl⟩ := List.mem_map.1 hitem
    have hrow := List.mem_of_mem_take (List.fst_mem_of_mem_zipIdx hc)
    rw [Sql.Engine.mem_select, List.mem_filter, Bool.and_eq_true, Bool.and_eq_true] at hrow
    obtain ⟨hmem, ⟨hscope, -⟩, hcandidate⟩ := hrow
    refine ⟨of_decide_eq_true hscope, fun hne => hnarrows.mem hne hcandidate, ?_⟩
    intro _ id hid other hother hotherId
    have hsame : other = c := Keyed.inj db.chunksUnique hother hmem
      (hotherId.trans (Option.some.inj hid).symm)
    rw [hsame]
    rfl

/-! ## The loop over the levels -/

theorem mergeHits_inBounds {mode : SearchMode} {vectorHits keywordHits : List Evidence}
    {limit : Nat} (hvector : AllInBounds db plan scope vectorHits)
    (hkeyword : AllInBounds db plan scope keywordHits) :
    AllInBounds db plan scope (mergeHits mode vectorHits keywordHits limit) := by
  unfold mergeHits
  split
  · exact hvector
  · exact hkeyword
  · exact (hvector.append hkeyword).of_origin fun item hitem => origin_of_mem_fuse hitem

structure Bounded (db : Corpus ν) (plan : RetrievalPlan) (scope : List Uuid) (p : Progress) :
    Prop where
  evidence : AllInBounds db plan scope p.evidence
  narrows : Narrows scope p.candidates

theorem searchLevel_bounded {queryVector : Option (List ν)} {budget : LevelBudget}
    {progress progress' : Progress} (hbounded : Bounded db plan scope progress)
    (h : searchLevel backend db plan queryVector progress budget = .ok progress') :
    Bounded db plan scope progress' := by
  unfold searchLevel at h
  obtain ⟨vectorHits, hvector, rfl⟩ := Except.map_eq_ok.1 h
  have hvectorHits : AllInBounds db plan scope vectorHits := by
    cases queryVector with
    | some queryVector => exact vectorSearch_inBounds hbounded.narrows hvector
    | none =>
      cases hvector
      intro item hitem
      cases hitem
  have hkeywordHits : AllInBounds db plan scope
      (keywordLeg backend db plan budget progress.candidates) := by
    unfold keywordLeg
    split
    · intro item hitem
      cases hitem
    · exact keywordSearch_inBounds hbounded.narrows
  unfold mergeLevel
  dsimp only
  generalize keywordLeg backend db plan budget progress.candidates = keywordHits at hkeywordHits ⊢
  have hlevel : AllInBounds db plan scope
      (mergeHits plan.mode vectorHits keywordHits budget.limit) :=
    mergeHits_inBounds hvectorHits hkeywordHits
  generalize mergeHits plan.mode vectorHits keywordHits budget.limit = merged at hlevel ⊢
  refine ⟨hbounded.evidence.append hlevel, fun hscope => ?_⟩
  split
  next hnarrowed =>
    simp only [Bool.and_eq_true, Bool.not_eq_true', List.isEmpty_eq_false_iff] at hnarrowed
    constructor
    · intro hnil
      rw [List.take_eq_nil_iff, List.map_eq_nil_iff] at hnil
      exact hnil.elim (by decide) hnarrowed.2
    · intro id hid
      obtain ⟨item, hitem, rfl⟩ := List.mem_map.1 (List.mem_of_mem_take hid)
      exact (hlevel item hitem).contract hscope
  next => exact hbounded.narrows hscope

/-! ## Expansion -/

theorem mem_neighbours {seeds : List Evidence} {chunkId : Uuid} {neighbours : List ChunkRow}
    {neighbour : ChunkRow}
    (h : (Dict.ofItems <| ((seeds.map (·.projectId)).eraseDups).flatMap fun projectId =>
      ChunkRow.neighboursForMany backend.chunkOrder db.chunks
        (seedChunks backend db seeds projectId) projectId plan.neighbourWindow).lookup chunkId =
      some neighbours) (hneighbour : neighbour ∈ neighbours) :
    neighbour ∈ db.chunks ∧ (∃ seed ∈ seeds, seed.projectId = neighbour.projectId) ∧
      ∃ chunk ∈ db.chunks, chunk.id = chunkId ∧ chunk.contractId = neighbour.contractId := by
  obtain ⟨projectId, hprojectId, hmem⟩ :=
    List.mem_flatMap.1 (Dict.mem_ofItems (Dict.mem_of_lookup h))
  obtain ⟨hrow, hproject, chunk, hchunk, hid, hcontract⟩ :=
    ChunkRow.mem_neighboursForMany hmem hneighbour
  obtain ⟨seed, hseed, hseedProject⟩ := List.mem_map.1 (List.mem_eraseDups.1 hprojectId)
  exact ⟨hrow, ⟨seed, hseed, hseedProject.trans hproject.symm⟩, chunk,
    (ChunkRow.mem_listByIds.1 hchunk).1, hid, hcontract⟩

theorem mem_addNeighbours {item found : Evidence} {neighbours : List ChunkRow}
    {state : List Evidence × List Uuid} (h : found ∈ (addNeighbours item neighbours state).1) :
    found ∈ state.1 ∨ ∃ neighbour ∈ neighbours, found = neighbourItem item neighbour := by
  unfold addNeighbours at h
  induction neighbours generalizing state with
  | nil => exact .inl h
  | cons neighbour neighbours ih =>
    rw [List.foldl_cons] at h
    rcases ih h with h | ⟨n, hn, heq⟩
    · split at h
      · exact .inl h
      · rcases List.mem_append.1 h with h | h
        · exact .inl h
        · exact .inr ⟨neighbour, List.mem_cons_self, List.mem_singleton.1 h⟩
    · exact .inr ⟨n, List.mem_cons_of_mem _ hn, heq⟩

theorem neighbourItem_inBounds {item : Evidence} {neighbour chunk : ChunkRow} {chunkId : Uuid}
    (hitem : InBounds db plan.projectIds scope item.origin) (hlevel : item.level = .chunk)
    (hchunkId : item.chunkId = some chunkId) (hrow : neighbour ∈ db.chunks)
    (hproject : neighbour.projectId ∈ plan.projectIds) (hchunk : chunk ∈ db.chunks)
    (hid : chunk.id = chunkId) (hcontract : chunk.contractId = neighbour.contractId) :
    InBounds db plan.projectIds scope (neighbourItem item neighbour).origin := by
  have hsame : neighbour.contractId = item.contractId :=
    hcontract.symm.trans (hitem.anchored hlevel chunkId hchunkId chunk hchunk hid)
  refine ⟨hproject, fun hscope => ?_, fun _ id hid c hc hcid => ?_⟩
  · have := hitem.contract hscope
    show neighbour.contractId ∈ scope
    rwa [hsame]
  · rw [Keyed.inj db.chunksUnique hc hrow (hcid.trans (Option.some.inj hid).symm)]
    rfl

theorem expandNeighbours_inBounds (h : AllInBounds db plan scope evidence) :
    AllInBounds db plan scope (expandNeighbours backend db settings plan evidence) := by
  unfold expandNeighbours
  dsimp only
  have hseeds : ∀ item ∈ seeds settings evidence, item ∈ evidence ∧ item.level = .chunk := by
    intro item hitem
    unfold seeds at hitem
    have hmem := List.mem_of_mem_take (List.mem_filter.1 hitem).1
    exact ⟨(List.mem_filter.1 hmem).1, of_decide_eq_true (List.mem_filter.1 hmem).2⟩
  generalize seeds settings evidence = seeds at hseeds
  generalize hneighbours : (Dict.ofItems <| ((seeds.map (·.projectId)).eraseDups).flatMap
    fun projectId => ChunkRow.neighboursForMany backend.chunkOrder db.chunks
      (seedChunks backend db seeds projectId) projectId plan.neighbourWindow) = neighbours
  generalize (seeds.map (·.projectId)).eraseDups.flatMap (seedChunks backend db seeds) = chunks
  refine List.foldlRecOn seeds _
    (motive := fun (state : List Evidence × List Uuid) => AllInBounds db plan scope state.1) ?_ ?_
  · intro item hitem
    cases hitem
  · intro state hstate item hitem
    split
    next => exact hstate
    next chunkId hchunkId =>
      split
      next =>
        intro found hfound
        rcases mem_addNeighbours hfound with hfound | ⟨neighbour, hneighbour, rfl⟩
        · exact hstate found hfound
        · cases hlookup : neighbours.lookup chunkId with
          | none =>
            rw [hlookup] at hneighbour
            cases hneighbour
          | some list =>
            rw [hlookup] at hneighbour
            subst hneighbours
            obtain ⟨hrow, ⟨seed, hseed, hproject⟩, chunk, hchunk, hid, hcontract⟩ :=
              mem_neighbours hlookup hneighbour
            refine neighbourItem_inBounds (h item (hseeds item hitem).1) (hseeds item hitem).2
              hchunkId hrow ?_ hchunk hid hcontract
            rw [← hproject]
            exact (h seed (hseeds seed hseed).1).project
      next => exact hstate

theorem expandGraph_inBounds (h : AllInBounds db plan scope evidence) :
    AllInBounds db plan scope (expandGraph backend db plan evidence) := by
  unfold expandGraph
  refine List.foldlRecOn _ _
    (motive := fun (state : List Evidence × List String) => AllInBounds db plan scope state.1) ?_ ?_
  · intro item hitem
    cases hitem
  · intro state hstate item hitem
    have hitem := h item (List.mem_filter.1 (List.mem_of_mem_take hitem)).1
    unfold followEdges
    split
    · exact hstate
    · exact hstate
    next nodeRef _ _ =>
      refine List.foldlRecOn _ _
        (motive := fun (state : List Evidence × List String) =>
          AllInBounds db plan scope state.1) hstate ?_
      intro state hstate edge hedge
      unfold followEdge
      dsimp only
      split
      · exact hstate
      · split
        next => exact hstate
        next clause hhead =>
          have hrow := List.mem_of_head? hhead
          rw [Sql.Engine.mem_select, List.mem_filter] at hrow
          simp only [Bool.and_eq_true, decide_eq_true_eq] at hrow
          obtain ⟨-, ⟨hproject, hcontract⟩, -⟩ := hrow
          refine hstate.append fun found hfound => ?_
          rw [List.mem_singleton.1 hfound]
          refine ⟨?_, fun hscope => ?_, fun hlevel => by cases hlevel⟩
          · show clause.projectId ∈ plan.projectIds
            rw [hproject]
            exact hitem.project
          · show clause.contractId ∈ scope
            rw [hcontract]
            exact hitem.contract hscope

/-! ## The whole retrieval -/

theorem rerankPrimary_inBounds {ordered : List Evidence} {reranker : Reranker}
    (h : AllInBounds db plan scope evidence)
    (hordered : rerankPrimary settings reranker plan evidence = .ok ordered) :
    AllInBounds db plan scope ordered := by
  unfold rerankPrimary at hordered
  dsimp only at hordered
  split at hordered
  · cases hordered
    exact h
  · obtain ⟨reranked, hreranked, rfl⟩ := Except.map_eq_ok.1 hordered
    have hprimary : AllInBounds db plan scope
        (evidence.filter (·.source ∉ [.neighbour, .graph])) :=
      fun item hitem => h item (List.mem_filter.1 hitem).1
    have hfirst := hprimary.of_origin fun item hitem =>
      Reranker.origin_of_mem_rerank hreranked (.inl hitem)
    have hmarked := hprimary.of_origin fun item hitem =>
      Reranker.origin_of_mem_rerank hreranked (.inr hitem)
    refine (hfirst.append ?_).append ?_
    · exact fun item hitem => hmarked item (List.mem_filter.1 hitem).1
    · exact fun item hitem => h item (List.mem_filter.1 hitem).1

theorem finish_inBounds {finished : List Evidence} (h : AllInBounds db plan scope evidence)
    (hfinish : finish std settings backend db plan evidence = .ok finished) :
    AllInBounds db plan scope finished := by
  unfold finish at hfinish
  dsimp only at hfinish
  generalize hwidened : (if 0 < plan.neighbourWindow then
    evidence ++ expandNeighbours backend db settings plan evidence else evidence) = widened
    at hfinish
  have hw : AllInBounds db plan scope widened := by
    rw [← hwidened]
    split
    · exact h.append (expandNeighbours_inBounds h)
    · exact h
  generalize hlinked : (if 0 < plan.graphDepth then
    widened ++ expandGraph backend db plan widened else widened) = linked at hfinish
  have hl : AllInBounds db plan scope linked := by
    rw [← hlinked]
    split
    · exact hw.append (expandGraph_inBounds hw)
    · exact hw
  have hd : AllInBounds db plan scope (deduplicate std.lower linked) :=
    hl.of_origin fun item hitem => origin_of_mem_deduplicate hitem
  have ht : AllInBounds db plan scope (attachTitles db (deduplicate std.lower linked)) :=
    hd.of_origin fun item hitem => origin_of_mem_attachTitles hitem
  split at hfinish
  · exact rerankPrimary_inBounds ht hfinish
  · cases hfinish
    exact ht

/-- The candidates that the searches start from: the ids of the pre-filter, unless it was cut. -/
def candidateScope (backend : Backend ν) (db : Corpus ν) (plan : RetrievalPlan) : List Uuid :=
  if (metadataPrefilter backend db plan).2.2 then [] else (metadataPrefilter backend db plan).1

theorem retrieve_inBounds {result : Result}
    (h : retrieve std settings backend db plan = .ok result) :
    AllInBounds db plan (candidateScope backend db plan) result.evidence ∧
      (result.evidence ≠ [] → (metadataPrefilter backend db plan).2.2 = false →
        plan.filters.isEmpty = false → candidateScope backend db plan ≠ []) := by
  have hnone : AllInBounds db plan (candidateScope backend db plan) ([] : List Evidence) := by
    intro item hitem
    cases hitem
  unfold retrieve at h
  split at h
  · cases h
    exact ⟨hnone, fun hne => absurd rfl hne⟩
  · dsimp only at h
    change (if plan.strategy = .metadataOnly then _
      else if (candidateScope backend db plan).isEmpty && !_ && _ then _ else _) = _ at h
    split at h
    · cases h
      exact ⟨hnone, fun hne => absurd rfl hne⟩
    · split at h
      · cases h
        exact ⟨hnone, fun hne => absurd rfl hne⟩
      next hgoes =>
        obtain ⟨progress, hprogress, h⟩ := Except.bind_eq_ok.1 h
        obtain ⟨evidence, hevidence, h⟩ := Except.bind_eq_ok.1 h
        obtain rfl := Except.pure_eq_ok.1 h
        have hstart : Bounded db plan (candidateScope backend db plan)
            { candidates := candidateScope backend db plan } :=
          ⟨hnone, fun hne => ⟨hne, List.Subset.refl _⟩⟩
        have hend : Bounded db plan (candidateScope backend db plan) progress :=
          Except.foldlM_invariant (Bounded db plan (candidateScope backend db plan))
            (fun _ _ _ _ hbounded hstep => searchLevel_bounded hbounded hstep) hstart hprogress
        refine ⟨finish_inBounds hend.evidence hevidence, fun _ hwhole hfilters hempty => ?_⟩
        refine hgoes ?_
        rw [hempty, hwhole, hfilters]
        rfl

/-- Every item of evidence belongs to a project of the plan. It belongs to one of the contracts that
the plan names, if it names at most 200. If the filters match at most 200 contracts, and do not match
none for want of filters, it belongs to a contract that satisfies them. -/
theorem retrieve_bounded {result : Result}
    (hplan : plan.filters.contractIds = plan.contractIds)
    (h : retrieve std settings backend db plan = .ok result) (item : Evidence)
    (hitem : item ∈ result.evidence) :
    item.projectId ∈ plan.projectIds ∧
      (plan.contractIds ≠ [] → plan.contractIds.length ≤ maxCandidateContracts →
        item.contractId ∈ plan.contractIds) ∧
      ((selected backend db plan).length ≤ maxCandidateContracts →
        (selected backend db plan ≠ [] ∨ plan.filters.isEmpty = false) →
        ∃ row ∈ joined db, row.2.id = item.contractId ∧ Meets backend plan row) := by
  obtain ⟨hbounds, hstops⟩ := retrieve_inBounds h
  obtain ⟨ids, rows, truncated, hprefilter⟩ :
      ∃ ids rows truncated, metadataPrefilter backend db plan = (ids, rows, truncated) :=
    ⟨_, _, _, rfl⟩
  obtain ⟨htruncated, hids⟩ := prefilter_ids hprefilter
  have hmeets : (selected backend db plan).length ≤ maxCandidateContracts →
      (selected backend db plan ≠ [] ∨ plan.filters.isEmpty = false) →
      ∃ row ∈ joined db, row.2.id = item.contractId ∧ Meets backend plan row := by
    intro hle hmatched
    have hwhole : truncated = false := by
      rw [← Bool.not_eq_true, htruncated]
      omega
    obtain ⟨hmeets, hnil⟩ := hids hwhole
    have hscope : candidateScope backend db plan = ids := by
      unfold candidateScope
      rw [hprefilter, if_neg (by simp [hwhole])]
    have hne : ids ≠ [] := by
      rcases hmatched with hmatched | hfilters
      · exact fun hnone => hmatched (hnil.1 hnone)
      · rw [← hscope]
        exact hstops (List.ne_nil_of_mem hitem) (by rw [hprefilter, hwhole]) hfilters
    have hcontract := (hbounds item hitem).contract (by rwa [hscope])
    rw [hscope] at hcontract
    exact hmeets _ hcontract
  refine ⟨(hbounds item hitem).project, fun hnamed hfew => ?_, hmeets⟩
  have hfilters : plan.filters.isEmpty = false := by
    have : plan.filters.contractIds ≠ [] := by rwa [hplan]
    unfold MetadataFilter.isEmpty
    simp [this]
  obtain ⟨row, hrow, hid, hrowMeets⟩ :=
    hmeets (Nat.le_trans (selected_length_le hnamed) hfew) (.inr hfilters)
  rw [← hid, id_of_mem_joined hrow]
  exact hrowMeets.named hnamed

theorem retrieve_truncated {progress : Progress} (hscoped : plan.isScoped = true)
    (hstrategy : plan.strategy ≠ .metadataOnly)
    (htruncated : maxCandidateContracts < (selected backend db plan).length)
    (hprogress : plan.levels.foldlM (searchLevel backend db plan (embedQuery backend plan))
      { candidates := [] } = .ok progress)
    (hfinish : finish std settings backend db plan progress.evidence = .ok evidence) :
    ∃ result, retrieve std settings backend db plan = .ok result ∧ result.evidence = evidence := by
  obtain ⟨ids, rows, truncated, hprefilter⟩ :
      ∃ ids rows truncated, metadataPrefilter backend db plan = (ids, rows, truncated) :=
    ⟨_, _, _, rfl⟩
  obtain rfl : truncated = true := (prefilter_ids hprefilter).1.2 htruncated
  unfold retrieve
  rw [if_neg (by simp [hscoped]), hprefilter]
  dsimp only
  rw [if_neg hstrategy, if_neg (by simp)]
  simp only [if_true, hprogress, bind, Except.bind, hfinish, pure, Except.pure]
  exact ⟨_, rfl, rfl⟩

/-! ## More contracts than candidates -/

namespace Sample

def defaults : RetrievalSettings where
  similarityFloor _ := 2 / 5
  graphMaxDepth := 3
  rerankerEnabled := false
  rerankTopK := 20
  documentTypeConfidenceThreshold := 7 / 10

def planner : RetrievalPlanner where
  settings := defaults
  today := 740000
  lower := Text.lower
  search _ _ := none
  searchAnyCase _ _ := none

def offline : Backend Rat where
  candidateOrder := .stable
  vectorOrder := .stable
  chunkOrder := .stable
  clauseOrder := .stable
  edgeOrder := .stable
  cosineDistance _ _ := 1
  tsMatches query text := Text.contains query text
  tsRank _ _ := 1
  ilike _ _ := false
  keywordAvailable := true
  embedQuery _ := none
  model := "m"
  reranker :=
    { enabled := false, generateStructured := fun _ _ => none, floatText := fun _ => none }

def contract (id : Uuid) (agreementType : String) : ContractRow where
  id
  projectId := 1
  uploadedBy := none
  originalFileName := "a.pdf"
  originalFilePath := none
  convertedFilePath := none
  originalFileType := none
  sha256Hash := ""
  storagePath := ""
  processingFilePath := none
  processingSha256 := none
  fileType := .pdf
  fileSize := 0
  mimeType := none
  agreementType := some agreementType

/-- A statement of work, and NDAs under the numbers from 1. -/
def contracts (ndas : Nat) : List ContractRow :=
  contract 0 "SOW" :: (List.range ndas).map fun n => contract (BitVec.ofNat 128 (n + 1)) "NDA"

theorem contracts_nodup {ndas : Nat} (h : ndas < 2 ^ 128) :
    ((contracts ndas).map (·.id)).Nodup := by
  have hids : (contracts ndas).map (·.id) = (List.range (ndas + 1)).map (BitVec.ofNat 128) := by
    unfold contracts
    rw [List.range_succ_eq_map, List.map_cons, List.map_cons, List.map_map, List.map_map]
    rfl
  rw [hids]
  refine List.Nodup.map_on (fun m hm n hn heq => ?_) List.nodup_range
  rw [List.mem_range] at hm hn
  have := congrArg BitVec.toNat heq
  rwa [BitVec.toNat_ofNat, BitVec.toNat_ofNat, Nat.mod_eq_of_lt (by omega),
    Nat.mod_eq_of_lt (by omega)] at this

def corpus (ndas : Nat) (chunkOf : Uuid) (h : ndas < 2 ^ 128) : Corpus Rat where
  contracts := contracts ndas
  metadata :=
    { rows := (contracts ndas).map fun c => .new c.id 1 []
      keys := by
        rw [List.map_map]
        exact contracts_nodup h }
  chunks := [{ id := 7, contractId := chunkOf, projectId := 1, textContent := "the rent"
               readingOrder := 0 }]
  clauses := []
  embeddings := .empty
  relationships := []
  contractsUnique := contracts_nodup h
  chunksUnique := by simp
  projectFiled _ hr := by cases hr
  chunkFiled _ hr := by cases hr

theorem joined_corpus {ndas : Nat} {chunkOf : Uuid} (h : ndas < 2 ^ 128) :
    joined (corpus ndas chunkOf h) = (contracts ndas).map fun c => (.new c.id 1 [], c) := by
  unfold joined
  show ((contracts ndas).map fun c => ContractMetadata.new c.id 1 []).flatMap
    (fun row => ((contracts ndas).filter fun c => c.id = row.contractId).map (row, ·)) = _
  rw [List.flatMap_map, ← List.flatMap_singleton' ((contracts ndas).map _), List.flatMap_map]
  refine List.flatMap_congr fun c hc => ?_
  show ((contracts ndas).filter fun c' => c'.id = c.id).map _ = _
  rw [Keyed.filter_of_mem (contracts_nodup h) hc]
  rfl

/-- A question about NDAs: nothing in its text is a filter. -/
def request : RetrievalPlanner.Request :=
  { projectIds := [1], agreementTypes := ["NDA"], mode := .keyword }

def ndaPlan : RetrievalPlan where
  query := "rent"
  intent := .generalQa
  strategy := .hybrid
  scope := .project
  mode := .keyword
  projectIds := [1]
  filters := { agreementTypes := ["NDA"] }
  levels := [{ level := .documentSummary, limit := 25, minSimilarity := 2 / 5 },
    { level := .clause, limit := 40, minSimilarity := 2 / 5 },
    { level := .chunk, limit := 20, minSimilarity := 2 / 5 }]

def namedRequest : RetrievalPlanner.Request := { request with contractIds := [1] }

def namedPlan : RetrievalPlan :=
  { ndaPlan with
    contractIds := [1]
    filters := { agreementTypes := ["NDA"], contractIds := [1] } }

theorem truncated_ndas : maxCandidateContracts <
    (selected offline (corpus 201 0 (by decide)) ndaPlan).length := by
  unfold selected
  rw [joined_corpus]
  decide +kernel

end Sample

/-- With 201 NDAs a question about NDAs is answered from the statement of work. -/
theorem truncated_leaves_filters :
    Sample.planner.plan "rent" Sample.request = some Sample.ndaPlan ∧
      ∃ result, retrieve .ascii Sample.defaults Sample.offline
          (Sample.corpus 201 0 (by decide)) Sample.ndaPlan = .ok result ∧
        ∃ item ∈ result.evidence, ¬ ∃ row ∈ joined (Sample.corpus 201 0 (by decide)),
          row.2.id = item.contractId ∧ Meets Sample.offline Sample.ndaPlan row := by
  have hfound : ((Sample.ndaPlan.levels.foldlM (searchLevel Sample.offline
      (Sample.corpus 201 0 (by decide)) Sample.ndaPlan (embedQuery Sample.offline Sample.ndaPlan))
      { candidates := [] }).toOption.bind fun progress =>
        (finish .ascii Sample.defaults Sample.offline (Sample.corpus 201 0 (by decide))
          Sample.ndaPlan progress.evidence).toOption).any
            (fun evidence => evidence.any (·.contractId = 0)) = true := by decide +kernel
  obtain ⟨evidence, hrun, hitem⟩ := (Option.any_eq_true _ _).1 hfound
  obtain ⟨progress, hprogress, hfinish⟩ := Option.bind_eq_some_iff.1 hrun
  obtain ⟨item, hitem, hcontract⟩ := List.any_eq_true.1 hitem
  obtain ⟨result, hresult, rfl⟩ := retrieve_truncated rfl (by decide) Sample.truncated_ndas
    (Except.toOption_eq_some.1 hprogress) (Except.toOption_eq_some.1 hfinish)
  refine ⟨by decide +kernel, result, hresult, item, hitem, ?_⟩
  rintro ⟨row, hrow, hid, hmeets⟩
  -- The only contract with the number of the item is the statement of work.
  rw [of_decide_eq_true hcontract] at hid
  rw [Sample.joined_corpus] at hrow
  obtain ⟨c, hc, rfl⟩ := List.mem_map.1 hrow
  obtain ⟨t, ht, htype⟩ := hmeets.agreementType (by decide)
  obtain rfl : c = Sample.contract 0 "SOW" :=
    Keyed.inj (Sample.contracts_nodup (by decide)) hc List.mem_cons_self hid
  rw [List.mem_singleton.1 ht] at htype
  exact absurd htype (by decide)

/-- The answer to a question about the first of three NDAs comes from that NDA. -/
theorem named_contract_bounds :
    Sample.planner.plan "rent" Sample.namedRequest = some Sample.namedPlan ∧
      ∃ result, retrieve .ascii Sample.defaults Sample.offline (Sample.corpus 3 1 (by decide))
          Sample.namedPlan = .ok result ∧
        ∃ item ∈ result.evidence, item.projectId ∈ [(1 : Uuid)] ∧ item.contractId ∈ [(1 : Uuid)] ∧
          ∃ row ∈ joined (Sample.corpus 3 1 (by decide)),
            row.2.id = item.contractId ∧ Meets Sample.offline Sample.namedPlan row := by
  have hfound : (retrieve .ascii Sample.defaults Sample.offline (Sample.corpus 3 1 (by decide))
      Sample.namedPlan).toOption.any (fun result => !result.evidence.isEmpty) = true := by
    decide +kernel
  obtain ⟨result, hresult, hne⟩ := (Option.any_eq_true _ _).1 hfound
  obtain ⟨item, hitem⟩ := List.exists_mem_of_ne_nil result.evidence (by simpa using hne)
  have hresult := Except.toOption_eq_some.1 hresult
  obtain ⟨hproject, hcontract, hmeets⟩ := retrieve_bounded rfl hresult item hitem
  exact ⟨by decide +kernel, result, hresult, item, hitem, hproject,
    hcontract (by decide) (by decide), hmeets (by decide +kernel) (.inr (by decide))⟩

end Retrieval

end Clear
