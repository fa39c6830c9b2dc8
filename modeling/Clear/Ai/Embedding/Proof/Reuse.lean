import Clear.Ai.Embedding.Reindex
import Clear.Lib.Dict
import Mathlib.Algebra.Ring.Int.Defs

/-!
# Vector reuse

A stored vector is reused under the content hash, and the lookup names the model and the versions but
neither the provider nor the dimension. So a run reuses vectors of the active space only exactly when
the oldest row of every hash it needs has the active provider and dimension; as long as every run
does, a row's recorded space is the space its vector was produced in (`reuse_in_space_iff`).
-/

/-!
## The checks of an embedding space

Three places decide whether a row belongs to the active space: `validate_row` before an insert,
`EmbeddingSpace.from_row` with the label that `audit_rows` groups by, and the staleness predicate of
the reindexer. The predicate compares all five fields; `validate_row` and the label leave the
strategy version out. They agree on a row exactly when its space is the active one or has another
label (`checks_agree_iff`).
-/

namespace Clear

namespace EmbeddingSpace

variable {s t : EmbeddingSpace}

theorem eq_iff : s = t ↔ s.provider = t.provider ∧ s.model = t.model ∧ s.dim = t.dim ∧
    s.embeddingVersion = t.embeddingVersion ∧ s.strategyVersion = t.strategyVersion := by
  cases s
  cases t
  simp

/-- Everything the label is printed from. -/
def SameLabelled (s t : EmbeddingSpace) : Prop :=
  s.provider = t.provider ∧ s.model = t.model ∧ s.dim = t.dim ∧
    s.embeddingVersion = t.embeddingVersion

theorem SameLabelled.label (h : SameLabelled s t) : s.label = t.label := by
  obtain ⟨hprovider, hmodel, hdim, hversion⟩ := h
  unfold EmbeddingSpace.label
  rw [hprovider, hmodel, hdim, hversion]

end EmbeddingSpace

namespace EmbeddingValidator

open EmbeddingSpace

variable {ν : Type} {active : EmbeddingSpace} {row : RowDict ν} {r : EmbeddingRow ν}

/-! ## Validation -/

/-- A row is inserted exactly when its four labelled fields are the active ones and its vector has the
active width. -/
theorem objection_eq_none : objection active row = none ↔
    SameLabelled (fromRow row) active ∧
      ∃ vector, row.embedding = some vector ∧ (vector.length : Int) = active.dim := by
  unfold SameLabelled
  simp only [objection]
  by_cases hforeign : (fromRow row).model ≠ active.model ∨ (fromRow row).provider ≠ active.provider
  · rw [if_pos hforeign]
    simp only [reduceCtorEq, false_iff]
    tauto
  rw [if_neg hforeign]
  rw [not_or, not_not, not_not] at hforeign
  by_cases hdim : (fromRow row).dim = active.dim
  · rw [if_neg (not_not.2 hdim)]
    by_cases hversion : (fromRow row).embeddingVersion = active.embeddingVersion
    · rw [if_neg (not_not.2 hversion)]
      cases hvector : row.embedding with
      | none => simp
      | some vector => simp [hforeign, hdim, hversion]
    · rw [if_pos hversion]
      simp [hversion]
  · rw [if_pos hdim]
    simp [hdim]

def Accepts (active : EmbeddingSpace) (row : RowDict ν) : Prop :=
  ∀ report, (validateRow active row report).2 = true

theorem accepts_iff : Accepts active row ↔ objection active row = none := by
  unfold Accepts validateRow
  cases objection active row with
  | none => simp
  | some reason =>
    simp only [Bool.false_eq_true, reduceCtorEq, iff_false]
    exact fun h => h {}

/-! ## The audit -/

def incompatible (active : EmbeddingSpace) (row : RowDict ν) : Int :=
  if (fromRow row).label ≠ active.label then rowCount row else 0

theorem foldl_auditRow (rows : List (RowDict ν)) (audit : StoreAudit) :
    (rows.foldl (auditRow active) audit).incompatibleRows =
      audit.incompatibleRows + (rows.map (incompatible active)).sum := by
  induction rows generalizing audit with
  | nil => simp
  | cons row rows ih =>
    rw [List.foldl_cons, ih, List.map_cons, List.sum_cons]
    simp only [auditRow, incompatible]
    by_cases h : (fromRow row).label = active.label
    · simp [h]
    · simp only [ne_eq, h, not_false_eq_true, if_true]
      omega

theorem auditRows_incompatible (rows : List (RowDict ν)) :
    (auditRows active rows).incompatibleRows = (rows.map (incompatible active)).sum := by
  unfold auditRows
  rw [foldl_auditRow]
  simp

def Compatible (active : EmbeddingSpace) (row : RowDict ν) : Prop :=
  (auditRows active [row]).incompatibleRows = 0

theorem compatible_dict : Compatible active r.dict ↔ r.space.label = active.label := by
  unfold Compatible
  rw [auditRows_incompatible]
  rw [List.map_singleton, List.sum_singleton, incompatible, EmbeddingRow.fromRow_dict]
  by_cases h : r.space.label = active.label
  · simp [h]
  · simp [h, rowCount, EmbeddingRow.dict]

/-! ## Agreement -/

theorem stale_iff : r.stale active = false ↔ r.space = active := by
  rw [eq_iff]
  simp [EmbeddingRow.stale, EmbeddingRow.space]
  tauto

def ValidVector (r : EmbeddingRow ν) : Prop := (r.embedding.length : Int) = r.dim

structure ChecksAgree (active : EmbeddingSpace) (r : EmbeddingRow ν) : Prop where
  validate : Accepts active r.dict ↔ fromRow r.dict = active
  audit : Compatible active r.dict ↔ fromRow r.dict = active
  stale : r.stale active = false ↔ fromRow r.dict = active

theorem accepts_dict (hvalid : ValidVector r) :
    Accepts active r.dict ↔ SameLabelled r.space active := by
  rw [accepts_iff, objection_eq_none]
  constructor
  · exact fun h => h.1
  · exact fun h => ⟨h, r.embedding, rfl, hvalid.trans h.2.2.1⟩

/-- The checks agree on a row exactly when it is in the active space or has another label. -/
theorem checks_agree_iff (active : EmbeddingSpace) (r : EmbeddingRow ν) (hvalid : ValidVector r) :
    ChecksAgree active r ↔ (r.space = active ∨ r.space.label ≠ active.label) := by
  constructor
  · intro h
    by_cases hlabel : r.space.label = active.label
    · exact .inl (h.audit.1 (compatible_dict.2 hlabel))
    · exact .inr hlabel
  · intro h
    refine ⟨?_, ?_, stale_iff⟩
    · rw [accepts_dict hvalid, EmbeddingRow.fromRow_dict]
      refine ⟨fun hsame => ?_, fun heq => heq ▸ ⟨rfl, rfl, rfl, rfl⟩⟩
      exact h.resolve_right fun hne => hne hsame.label
    · rw [compatible_dict, EmbeddingRow.fromRow_dict]
      exact ⟨fun hlabel => h.resolve_right fun hne => hne hlabel, fun heq => heq ▸ rfl⟩

/-! ## A row of an older strategy -/

def embeddedUnder (strategyVersion : String) : EmbeddingRow Int where
  id := 1
  projectId := 2
  contractId := 3
  level := .chunk
  refId := 4
  embedding := List.replicate 2048 0
  sourceText := "Notices are given in writing."
  contentHash := "5d41"
  tokenCount := 7
  provider := "mock"
  model := "mock-nvidia/nemotron-3-embed-1b"
  dim := 2048
  embeddingVersion := "v1"
  strategyVersion := strategyVersion

theorem embeddedUnder_valid (strategyVersion : String) :
    ValidVector (embeddedUnder strategyVersion) := by
  unfold ValidVector embeddedUnder
  rw [List.length_replicate]
  rfl

/-- The checks agree on a row of the current strategy. -/
theorem checks_agree_current : ChecksAgree (.active {} "1.0.0") (embeddedUnder "1.0.0") :=
  (checks_agree_iff _ _ (embeddedUnder_valid "1.0.0")).2 (.inl (by decide))

/-- After a bump of the strategy version the old row is stale and still passes the other two. -/
theorem checks_disagree_after_bump :
    (embeddedUnder "1.0.0").stale (.active {} "1.1.0") = true ∧
      ¬ ∀ (active : EmbeddingSpace) (r : EmbeddingRow Int), ValidVector r →
        ChecksAgree active r := by
  refine ⟨by decide, fun hall => ?_⟩
  have hagree := hall (.active {} "1.1.0") (embeddedUnder "1.0.0") (embeddedUnder_valid "1.0.0")
  have hspace := hagree.audit.1 (compatible_dict.2 (by decide))
  exact absurd (congrArg EmbeddingSpace.strategyVersion hspace) (by decide)

end EmbeddingValidator

end Clear

namespace Clear

namespace EmbeddingTable

variable {ν : Type} {t : EmbeddingTable ν} {active : EmbeddingSpace} {projectId : Uuid}
  {level : EmbeddingLevel} {hash : String} {r r' : EmbeddingRow ν}

/-! ## The oldest row of a hash -/

structure Oldest (t : EmbeddingTable ν) (active : EmbeddingSpace) (projectId : Uuid)
    (level : EmbeddingLevel) (hash : String) (r : EmbeddingRow ν) : Prop where
  mem : r ∈ t.reusable active projectId level
  hashed : r.contentHash = hash
  least : ∀ r' ∈ t.reusable active projectId level, r'.contentHash = hash →
    oldestFirst.le r r' = true

theorem mem_reusable : r ∈ t.reusable active projectId level ↔
    r ∈ t.rows ∧ r.projectId = projectId ∧ r.level = level ∧ r.model = active.model ∧
      r.embeddingVersion = active.embeddingVersion ∧
        r.strategyVersion = active.strategyVersion := by
  simp [reusable]

theorem Oldest.unique (h : t.Oldest active projectId level hash r)
    (h' : t.Oldest active projectId level hash r') : r = r' := by
  have hle := h.least r' h'.mem h'.hashed
  have hge := h'.least r h.mem h.hashed
  have hid : r.id.toNat ≤ r'.id.toNat := by
    simpa [hle, hge] using (Sql.OrderBy.thenBy_le.1 hle).2 (Sql.OrderBy.thenBy_le.1 hge).1
  have hid' : r'.id.toNat ≤ r.id.toNat := by
    simpa [hle, hge] using (Sql.OrderBy.thenBy_le.1 hge).2 (Sql.OrderBy.thenBy_le.1 hle).1
  refine Keyed.inj t.idUnique (mem_reusable.1 h.mem).1 (mem_reusable.1 h'.mem).1 ?_
  exact BitVec.eq_of_toNat_eq (Nat.le_antisymm hid hid')

theorem existingHashes_lookup (db : Sql.Engine (EmbeddingRow ν)) {id : Uuid} :
    (t.existingHashes db active projectId level).lookup hash = some id ↔
      ∃ r, t.Oldest active projectId level hash r ∧ r.id = id := by
  have hlookup : (t.existingHashes db active projectId level).lookup hash =
      ((db.select oldestFirst (t.reusable active projectId level)).find?
        (·.contentHash = hash)).map (·.id) := by
    unfold existingHashes
    rw [Dict.lookup_map, Sql.distinctOn_find]
  have hanswers := db.answers oldestFirst (t.reusable active projectId level)
  rw [hlookup, Option.map_eq_some_iff]
  constructor
  · rintro ⟨r, hfind, hid⟩
    obtain ⟨hmem, hhash, hle⟩ := hanswers.find_le hfind
    exact ⟨r, ⟨hmem, by simpa using hhash, fun r' hr' h => hle r' hr' (by simpa using h)⟩, hid⟩
  · rintro ⟨r, hold, hid⟩
    obtain ⟨r', hfind⟩ : ∃ r', (db.select oldestFirst (t.reusable active projectId level)).find?
        (·.contentHash = hash) = some r' := by
      refine Option.isSome_iff_exists.1 (List.find?_isSome.2 ⟨r, ?_, by simpa using hold.hashed⟩)
      exact (Sql.Engine.mem_select db).2 hold.mem
    obtain ⟨hmem, hhash, hle⟩ := hanswers.find_le hfind
    have hold' : t.Oldest active projectId level hash r' :=
      ⟨hmem, by simpa using hhash, fun r' hr' h => hle r' hr' (by simpa using h)⟩
    exact ⟨r', hfind, by rw [hold'.unique hold, hid]⟩

theorem getVector_of_mem (hr : r ∈ t.rows) (hproject : r.projectId = projectId) :
    t.getVector r.id projectId = some r.embedding := by
  unfold getVector
  cases hfind : t.rows.find? fun r' => r'.id = r.id ∧ r'.projectId = projectId with
  | none => simpa [hproject] using List.find?_eq_none.1 hfind r hr
  | some r' =>
    have hid : r'.id = r.id ∧ r'.projectId = projectId := by simpa using List.find?_some hfind
    rw [Keyed.inj t.idUnique (List.mem_of_find?_eq_some hfind) hr hid.1]
    rfl

end EmbeddingTable

namespace EmbeddingStage

open EmbeddingTable

variable {ν : Type} {e : Embedder ν} {db : Sql.Engine (EmbeddingRow ν)} {t : EmbeddingTable ν}
  {projectId : Uuid} {plan : EmbeddingPlan} {levels : List EmbeddingLevel}
  {level : EmbeddingLevel} {item : EmbeddingItem}

/-! ## What is reused -/

def matched (e : Embedder ν) (db : Sql.Engine (EmbeddingRow ν)) (t : EmbeddingTable ν)
    (projectId : Uuid) (plan : EmbeddingPlan) (level : EmbeddingLevel) : List (String × Uuid) :=
  (t.existingHashes db e.active projectId level).filter fun (hash, _) =>
    (plan.byLevel level).any fun item => e.contentHash item.text = hash

theorem loadReusable_existing : (loadReusable e db t projectId plan levels).existing =
    levels.filterMap fun level =>
      (if (matched e db t projectId plan level).isEmpty then none
        else some (matched e db t projectId plan level)).map (level, ·) := by
  unfold loadReusable
  refine congrArg (levels.filterMap ·) (funext fun level => ?_)
  show (if (matched e db t projectId plan level).isEmpty then none
    else some (level, matched e db t projectId plan level)) = _
  split <;> rfl

theorem loadReusable_hashes (hlevel : level ∈ levels) :
    (loadReusable e db t projectId plan levels).hashes level =
      matched e db t projectId plan level := by
  unfold Embedder.Stored.hashes
  rw [loadReusable_existing, Dict.lookup_filterMap, if_pos hlevel]
  split
  next h => rw [Option.getD_none, List.isEmpty_iff.1 h]
  next => rfl

theorem reuse_iff (db : Sql.Engine (EmbeddingRow ν)) (hlevel : level ∈ levels) (hitem : item ∈ plan.byLevel level) {id : Uuid}
    {vector : List ν} :
    e.reuse (loadReusable e db t projectId plan levels) level item = some (id, vector) ↔
      ∃ r, t.Oldest e.active projectId level (e.contentHash item.text) r ∧ r.id = id ∧
        r.embedding = vector := by
  have hneeded : (matched e db t projectId plan level).lookup (e.contentHash item.text) =
      (t.existingHashes db e.active projectId level).lookup (e.contentHash item.text) := by
    unfold matched
    rw [Dict.lookup_filter fun hash =>
      (plan.byLevel level).any fun item => e.contentHash item.text = hash]
    refine if_pos (List.any_eq_true.2 ⟨item, hitem, ?_⟩)
    simp
  -- A matched id is among those whose vectors are fetched.
  have hvectors : ∀ r, t.Oldest e.active projectId level (e.contentHash item.text) r →
      (loadReusable e db t projectId plan levels).vectors.lookup r.id = some r.embedding := by
    intro r hold
    have hlookup := (existingHashes_lookup db).2 ⟨r, hold, rfl⟩
    rw [← hneeded] at hlookup
    have hmem := Dict.mem_of_lookup hlookup
    have hpair : (level, matched e db t projectId plan level) ∈
        (loadReusable e db t projectId plan levels).existing := by
      rw [loadReusable_existing]
      refine List.mem_filterMap.2 ⟨level, hlevel, ?_⟩
      rw [if_neg (by simpa [List.isEmpty_iff] using List.ne_nil_of_mem hmem)]
      rfl
    have hwanted : r.id ∈ (loadReusable e db t projectId plan levels).existing.flatMap
        fun entry => entry.2.map (·.2) :=
      List.mem_flatMap.2 ⟨_, hpair, List.mem_map.2 ⟨_, hmem, rfl⟩⟩
    have hfetch := Dict.lookup_filterMap (t.getVector · projectId)
      ((loadReusable e db t projectId plan levels).existing.flatMap
        fun entry => entry.2.map (·.2)) r.id
    rw [if_pos hwanted] at hfetch
    refine hfetch.trans ?_
    have hrow := mem_reusable.1 hold.mem
    exact getVector_of_mem hrow.1 hrow.2.1
  unfold Embedder.reuse
  rw [loadReusable_hashes hlevel, hneeded, Option.bind_eq_some_iff]
  constructor
  · rintro ⟨id', hlookup, hvector⟩
    obtain ⟨r, hold, rfl⟩ := (existingHashes_lookup db).1 hlookup
    rw [hvectors r hold, Option.map_some, Option.some.injEq, Prod.mk.injEq] at hvector
    exact ⟨r, hold, hvector.1, hvector.2⟩
  · rintro ⟨r, hold, rfl, rfl⟩
    exact ⟨r.id, (existingHashes_lookup db).2 ⟨r, hold, rfl⟩, by rw [hvectors r hold]; rfl⟩

def ReusesInSpace (e : Embedder ν) (db : Sql.Engine (EmbeddingRow ν)) (t : EmbeddingTable ν)
    (ctx : Context) (plan : EmbeddingPlan) : Prop :=
  ∀ level ∈ EmbeddingStage.levels ctx.configuredLevels, ∀ reused ∈ e.reusedItems
      (loadReusable e db t ctx.projectId plan (EmbeddingStage.levels ctx.configuredLevels)) level
      (plan.byLevel level),
    ∃ r ∈ t.rows, r.id = reused.2.1 ∧ r.embedding = reused.2.2 ∧ r.space = e.active

def OldestInSpace (e : Embedder ν) (t : EmbeddingTable ν) (ctx : Context) (plan : EmbeddingPlan) :
    Prop :=
  ∀ level ∈ EmbeddingStage.levels ctx.configuredLevels,
    ∀ item ∈ Embedder.embeddable (plan.byLevel level), ∀ r,
      t.Oldest e.active ctx.projectId level (e.contentHash item.text) r →
        r.provider = e.active.provider ∧ r.dim = e.active.dim

theorem reusesInSpace_iff (db : Sql.Engine (EmbeddingRow ν)) {ctx : Context} :
    ReusesInSpace e db t ctx plan ↔ OldestInSpace e t ctx plan := by
  constructor
  · intro h level hlevel item hitem r hold
    have hplan := (List.mem_filter.1 hitem).1
    have hreuse := (reuse_iff db hlevel hplan).2 ⟨r, hold, rfl, rfl⟩
    have hmem : (item, r.id, r.embedding) ∈ e.reusedItems _ level (plan.byLevel level) :=
      List.mem_filterMap.2 ⟨item, hitem, by rw [hreuse]; rfl⟩
    obtain ⟨r', hr', hid, -, hspace⟩ := h level hlevel _ hmem
    rw [← Keyed.inj t.idUnique hr' (mem_reusable.1 hold.mem).1 hid, ← hspace]
    exact ⟨rfl, rfl⟩
  · rintro h level hlevel ⟨item, id, vector⟩ hmem
    obtain ⟨item', hitem, hreuse⟩ := List.mem_filterMap.1 hmem
    obtain ⟨⟨id', vector'⟩, hreuse, heq⟩ := Option.map_eq_some_iff.1 hreuse
    cases heq
    obtain ⟨r, hold, hid, hvector⟩ := (reuse_iff db hlevel (List.mem_filter.1 hitem).1).1 hreuse
    obtain ⟨hprovider, hdim⟩ := h level hlevel item hitem r hold
    obtain ⟨hr, -, -, hmodel, hversion, hstrategy⟩ := mem_reusable.1 hold.mem
    exact ⟨r, hr, hid, hvector,
      EmbeddingSpace.eq_iff.2 ⟨hprovider, hmodel, hdim, hversion, hstrategy⟩⟩

end EmbeddingStage

/-! ## The rows of a run -/

namespace Embedder

variable {ν : Type} {e : Embedder ν} {contractId projectId : Uuid} {profileVersion : Option String}
  {stored : Stored ν} {plan : EmbeddingPlan} {levels : List EmbeddingLevel} {r : EmbeddingRow ν}

def Generated (e : Embedder ν) (vector : List ν) : Prop :=
  ∃ texts result, e.embedMany texts = .ok result ∧ vector ∈ result.vectors

theorem fill_mem {P : List ν → Prop} {vectors new filled : List (List ν)} {start : Nat}
    (h : fill vectors start new = .ok filled) (hold : ∀ v ∈ vectors, P v) (hnew : ∀ v ∈ new, P v) :
    ∀ v ∈ filled, P v := by
  induction new generalizing vectors start with
  | nil =>
    cases h
    exact hold
  | cons w new ih =>
    rw [fill] at h
    split at h
    · refine ih h (fun v hv => ?_) fun v hv => hnew v (List.mem_cons_of_mem w hv)
      rcases List.mem_or_eq_of_mem_set hv with hv | rfl
      · exact hold v hv
      · exact hnew v List.mem_cons_self
    · cases h

/-- A slot the provider did not fill is empty. -/
theorem generate_mem {batches : List (List String)} {vectors filled : List (List ν)} {start : Nat}
    {model model' : Option String}
    (h : e.generate vectors start model batches = .ok (filled, model'))
    (hold : ∀ v ∈ vectors, v = [] ∨ e.Generated v) : ∀ v ∈ filled, v = [] ∨ e.Generated v := by
  induction batches generalizing vectors start model with
  | nil =>
    cases h
    exact hold
  | cons texts rest ih =>
    rw [generate] at h
    obtain ⟨result, hresult, h⟩ := Except.bind_eq_ok.1 h
    obtain ⟨vectors', hfill, h⟩ := Except.bind_eq_ok.1 h
    exact ih h (fill_mem hfill hold fun v hv => .inr ⟨texts, result, hresult, hv⟩)

inductive RowOf (e : Embedder ν) (contractId projectId : Uuid) (profileVersion : Option String)
    (stored : Stored ν) (plan : EmbeddingPlan) (level : EmbeddingLevel) : EmbeddingRow ν → Prop
  | reused {item id vector model}
      (mem : (item, id, vector) ∈ e.reusedItems stored level (plan.byLevel level)) :
      RowOf e contractId projectId profileVersion stored plan level
        (e.row contractId projectId profileVersion item vector model)
  | generated {item vector model} (mem : item ∈ plan.byLevel level)
      (source : e.Generated vector) :
      RowOf e contractId projectId profileVersion stored plan level
        (e.row contractId projectId profileVersion item vector model)

theorem mem_embedLevel {level : EmbeddingLevel} {rows : List (EmbeddingRow ν)}
    (h : (e.embedLevel contractId projectId profileVersion stored level
      (plan.byLevel level)).2 = .ok rows) (hr : r ∈ rows) :
    RowOf e contractId projectId profileVersion stored plan level r := by
  have hreused : ∀ reused ∈ e.reusedItems stored level (plan.byLevel level),
      RowOf e contractId projectId profileVersion stored plan level
        (e.row contractId projectId profileVersion reused.1 reused.2.2
          (e.settings.provider.model e.settings)) := fun _ hmem => .reused hmem
  simp only [embedLevel] at h
  split at h
  next =>
    cases h
    obtain ⟨reused, hmem, rfl⟩ := List.mem_map.1 hr
    exact hreused reused hmem
  next =>
    split at h
    next => cases h
    next vectors model hembed =>
      cases h
      rcases List.mem_append.1 hr with hr | hr
      · obtain ⟨reused, hmem, rfl⟩ := List.mem_map.1 hr
        exact hreused reused hmem
      · obtain ⟨item, hitem, hrow⟩ := List.mem_filterMap.1 hr
        have hmem : item ∈ plan.byLevel level :=
          (List.mem_filter.1 (List.mem_filter.1 hitem).1).1
        obtain ⟨⟨filled, model'⟩, hgenerate, heq⟩ := Except.bind_eq_ok.1 hembed
        cases heq
        have hslots := generate_mem hgenerate fun v hv => by
          obtain ⟨_, _, rfl⟩ := List.mem_map.1 hv
          exact .inl rfl
        split at hrow
        next => cases hrow
        next => cases hrow
        next vector hne hlookup =>
          cases hrow
          refine .generated hmem ((hslots vector ?_).resolve_left hne)
          exact (List.of_mem_zip (Dict.mem_of_lookup hlookup)).2

theorem mem_run (h : r ∈ (e.run contractId projectId profileVersion stored plan levels).rows) :
    ∃ level ∈ levels, RowOf e contractId projectId profileVersion stored plan level r := by
  have hfold : ∀ (todo : List EmbeddingLevel) (done_ : EmbeddingRun ν),
      r ∈ (todo.foldl (e.runLevel contractId projectId profileVersion stored plan levels)
        done_).rows → r ∈ done_.rows ∨
        ∃ level ∈ levels, RowOf e contractId projectId profileVersion stored plan level r := by
    intro todo
    induction todo with
    | nil => exact fun _ h => .inl h
    | cons level todo ih =>
      intro done_ h
      rcases ih _ h with h | h
      · unfold runLevel at h
        dsimp only at h
        split at h
        next => exact .inl h
        next hlevel =>
          rw [not_or, not_not] at hlevel
          split at h
          next outcome rows heq =>
            rcases List.mem_append.1 h with h | h
            · exact .inl h
            · exact .inr ⟨level, hlevel.1, mem_embedLevel (by rw [heq]) h⟩
          next => exact .inl h
      · exact .inr h
  exact (hfold embeddingLevels {} h).resolve_left (by simp)

end Embedder

/-! ## What the stage stores -/

namespace EmbeddingValidator

variable {ν : Type} {active : EmbeddingSpace}

theorem validateRows_rejected (active : EmbeddingSpace) (rows : List (RowDict ν)) (report : ValidationReport) :
    (validateRows active rows report).2.rejected =
      report.rejected + (rows.filter fun row => (objection active row).isSome).length := by
  induction rows generalizing report with
  | nil => rfl
  | cons row rows ih =>
    unfold validateRows validateRow
    cases h : objection active row with
    | none =>
      dsimp only
      rw [ih, List.filter_cons_of_neg (by simp [h])]
    | some reason =>
      dsimp only
      rw [ih, List.filter_cons_of_pos (by simp [h])]
      simp only [ValidationReport.reject, List.length_cons]
      omega

theorem validateBatch_ok {rows : List (RowDict ν)} {kept : List (RowDict ν) × ValidationReport}
    (h : validateBatch active rows = .ok kept) : ∀ row ∈ rows, objection active row = none := by
  unfold validateBatch at h
  cases hrows : validateRows active rows {} with
  | mk keep report =>
    rw [hrows] at h
    dsimp only at h
    split at h
    next hzero =>
      intro row hrow
      have hcount := validateRows_rejected active rows {}
      rw [hrows, hzero, Nat.zero_add] at hcount
      have hnil := List.length_eq_zero_iff.1 hcount.symm
      simpa using List.filter_eq_nil_iff.1 hnil row hrow
    next => cases h

end EmbeddingValidator

namespace EmbeddingTable

variable {ν : Type} {t t' : EmbeddingTable ν} {rows : List (EmbeddingRow ν)} {r : EmbeddingRow ν}

theorem insertAll_rows (h : t.insertAll rows = .ok t') : t'.rows = t.rows ++ rows := by
  induction rows generalizing t with
  | nil =>
    cases h
    exact (List.append_nil _).symm
  | cons r rows ih =>
    obtain ⟨t₁, hinsert, h⟩ := Except.bind_eq_ok.1 h
    unfold insert at hinsert
    split at hinsert
    next =>
      cases hinsert
      rw [ih h, List.append_assoc, List.singleton_append]
    next => cases hinsert

theorem insertMany_rows {active : EmbeddingSpace} (h : t.insertMany active rows = .ok t') :
    t'.rows = t.rows ++ rows ∧ ∀ r ∈ rows, EmbeddingSpace.SameLabelled r.space active := by
  unfold insertMany at h
  split at h
  next hempty =>
    cases h
    rw [List.isEmpty_iff.1 hempty]
    exact ⟨(List.append_nil _).symm, by simp⟩
  next =>
    obtain ⟨kept, hvalid, h⟩ := Except.bind_eq_ok.1 h
    refine ⟨insertAll_rows h, fun r hr => ?_⟩
    have hnone := EmbeddingValidator.validateBatch_ok hvalid r.dict (List.mem_map_of_mem hr)
    exact (EmbeddingValidator.objection_eq_none.1 hnone).1

theorem mem_delete {p : EmbeddingRow ν → Bool} :
    r ∈ (t.delete p).rows ↔ r ∈ t.rows ∧ p r = false := by
  simp [delete]

end EmbeddingTable

namespace EmbeddingStage

open EmbeddingTable

variable {ν Payload : Type} {e : Embedder ν} {payloads : Payloads ν Payload}
  {db : Sql.Engine (EmbeddingRow ν)} {t t' : EmbeddingTable ν} {ctx : Context}
  {plan : EmbeddingPlan} {now : Timestamp} {result : StageResult Payload} {r : EmbeddingRow ν}

theorem mem_clear (todo : List EmbeddingLevel) : r ∈ (clear t ctx todo).rows ↔
    r ∈ t.rows ∧ ¬ (r.contractId = ctx.contractId ∧ r.projectId = ctx.projectId ∧
      r.level ∈ todo) := by
  unfold clear
  induction todo generalizing t with
  | nil => simp
  | cons level todo ih =>
    rw [List.foldl_cons, ih, deleteForContractLevel, mem_delete, List.mem_cons,
      decide_eq_false_iff_not]
    tauto

theorem run_rows (h : run e payloads db t ctx plan now = .ok (t', result)) :
    t'.rows = (clear t ctx (levels ctx.configuredLevels)).rows ++
        (engineRun e db t ctx plan).rows.map (fun row => { row with createdAt := now }) ∧
      ∀ r ∈ (engineRun e db t ctx plan).rows, EmbeddingSpace.SameLabelled r.space e.active := by
  unfold run at h
  dsimp only at h
  split at h <;> try cases h
  split at h <;> try cases h
  split at h <;> try cases h
  obtain ⟨t₁, hinsert, h⟩ := Except.bind_eq_ok.1 h
  cases h
  obtain ⟨hrows, hspace⟩ := insertMany_rows hinsert
  exact ⟨hrows, fun r hr => hspace { r with createdAt := now } (List.mem_map.2 ⟨r, hr, rfl⟩)⟩

theorem space_of_mem (hr : r ∈ (engineRun e db t ctx plan).rows)
    (hspace : EmbeddingSpace.SameLabelled r.space e.active) : r.space = e.active := by
  obtain ⟨hprovider, hmodel, hdim, hversion⟩ := hspace
  obtain ⟨level, -, hrow⟩ := Embedder.mem_run hr
  refine EmbeddingSpace.eq_iff.2 ⟨hprovider, hmodel, hdim, hversion, ?_⟩
  cases hrow <;> rfl

/-! ## Histories -/

/-- Every stored row records the space its vector was produced in. `Produced v s` says that `v` is a
vector of the space `s`. -/
def Recorded (Produced : List ν → EmbeddingSpace → Prop) (t : EmbeddingTable ν) : Prop :=
  ∀ r ∈ t.rows, Produced r.embedding r.space

def Sound (Produced : List ν → EmbeddingSpace → Prop) (t : EmbeddingTable ν) : Write ν → Prop
  | .stage e _ ctx plan _ =>
    (∀ vector, e.Generated vector → Produced vector e.active) ∧ OldestInSpace e t ctx plan
  | .delete _ => True

theorem recorded_step {Produced : List ν → EmbeddingSpace → Prop} {w : Write ν}
    (h : Recorded Produced t) (hsound : Sound Produced t w) (hs : history.step t w = some t') :
    Recorded Produced t' := by
  cases w with
  | delete p =>
    cases hs
    exact fun r hr => h r (mem_delete.1 hr).1
  | stage e db ctx plan now =>
    obtain ⟨hproduced, holdest⟩ := hsound
    obtain ⟨⟨t₁, result⟩, hrun, rfl⟩ := Option.map_eq_some_iff.1 hs
    cases hok : run e ⟨fun _ _ => (), fun _ => ()⟩ db t ctx plan now with
    | error => simp [hok, Except.toOption] at hrun
    | ok out =>
      rw [hok] at hrun
      cases hrun
      obtain ⟨hrows, hspace⟩ := run_rows hok
      intro r hr
      rw [hrows] at hr
      rcases List.mem_append.1 hr with hr | hr
      · exact h r ((mem_clear _).1 hr).1
      · obtain ⟨row, hrow, rfl⟩ := List.mem_map.1 hr
        show Produced row.embedding row.space
        rw [space_of_mem hrow (hspace row hrow)]
        obtain ⟨level, hlevel, hkind⟩ := Embedder.mem_run hrow
        cases hkind with
        | reused hmem =>
          obtain ⟨source, hsource, -, hvector, heq⟩ :=
            (reusesInSpace_iff db).2 holdest level hlevel _ hmem
          have hstored := h source hsource
          rw [hvector, heq] at hstored
          exact hstored
        | generated _ hgenerated => exact hproduced _ hgenerated

/-- A run reuses vectors of the active space only exactly when the oldest row of every hash it needs
has the active provider and dimension; in a history of such runs every row records the space its
vector was produced in. -/
theorem reuse_in_space_iff (ν : Type) :
    (∀ (e : Embedder ν) (db : Sql.Engine (EmbeddingRow ν)) (t : EmbeddingTable ν) (ctx : Context)
        (plan : EmbeddingPlan),
      ReusesInSpace e db t ctx plan ↔ OldestInSpace e t ctx plan) ∧
      ∀ (Produced : List ν → EmbeddingSpace → Prop) (t : EmbeddingTable ν),
        history.ReachIf (Sound Produced) t → Recorded Produced t := by
  refine ⟨fun _ db _ _ _ => reusesInSpace_iff db, fun Produced t h => ?_⟩
  have hinv : history.Invariant (Sound Produced) (Recorded Produced) :=
    { init := fun t ht => by
        obtain rfl := ht
        exact fun r hr => by simp [EmbeddingTable.empty] at hr
      step := fun _ _ _ h hG hs => recorded_step h hG hs }
  exact hinv.reach h

/-! ## A change of provider -/

def servedBy (provider : EmbeddingProvider) : Embedder String where
  settings := { provider, model := "text-embedding-3-small", dim := 64 }
  sha256 := id
  embedMany texts := .ok
    { vectors := texts.map fun _ => List.replicate 64 provider.value
      model := "text-embedding-3-small" }
  newId item := item.refId + 100

def boilerplate (refId : Uuid) : EmbeddingItem :=
  { refId, level := .chunk, text := "Notices are given in writing." }

def switched : List (Write String) :=
  [.stage (servedBy .openai) .stable { contractId := 3, projectId := 2 } [boilerplate 4] 0,
    .stage (servedBy .azureOpenai) .stable { contractId := 5, projectId := 2 } [boilerplate 6] 1]

def From (vector : List String) (space : EmbeddingSpace) : Prop :=
  ∀ x ∈ vector, x = space.provider

instance (vector : List String) (space : EmbeddingSpace) : Decidable (From vector space) :=
  inferInstanceAs (Decidable (∀ x ∈ vector, x = space.provider))

theorem servedBy_from (provider : EmbeddingProvider) {vector : List String}
    (h : (servedBy provider).Generated vector) : From vector (servedBy provider).active := by
  obtain ⟨texts, result, hresult, hvector⟩ := h
  cases hresult
  obtain ⟨-, -, rfl⟩ := List.mem_map.1 hvector
  exact fun x hx => List.eq_of_mem_replicate hx

/-- The rows of contract 3 record where their vectors come from. -/
theorem first_provider_recorded : ∃ t, t.rows ≠ [] ∧ Recorded From t := by
  have hrun : (history.exec .empty (switched.take 1)).any (fun t => t.rows ≠ []) = true := by
    decide
  obtain ⟨t, ht, hrows⟩ := (Option.any_eq_true _ _).1 hrun
  obtain ⟨u, hu, heq⟩ := Option.bind_eq_some_iff.1 ht
  cases heq
  refine ⟨t, of_decide_eq_true hrows, (reuse_in_space_iff String).2 From t ⟨.empty, rfl, ?_⟩⟩
  refine .single (a := .stage (servedBy .openai) .stable { contractId := 3, projectId := 2 }
    [boilerplate 4] 0) ⟨fun _ => servedBy_from .openai, ?_⟩ hu
  exact fun _ _ _ _ _ hold => by cases (mem_reusable.1 hold.mem).1

/-- Azure reuses the vectors that OpenAI produced, and its rows are stamped as Azure's own. -/
theorem switched_provider_relabels :
    (∃ t, history.Reach t ∧ ¬ Recorded From t) ∧
      ¬ ∀ (e : Embedder String) (db : Sql.Engine (EmbeddingRow String))
        (t : EmbeddingTable String) (ctx : Context) (plan : EmbeddingPlan),
        ReusesInSpace e db t ctx plan := by
  have hrun : (history.exec .empty (switched.take 1)).any (fun t =>
      (∀ r ∈ t.rows, From r.embedding r.space) ∧
        (history.exec t (switched.drop 1)).any (fun u =>
          ∃ r ∈ u.rows, ¬ From r.embedding r.space) = true) = true := by decide
  obtain ⟨t, ht, hrun⟩ := (Option.any_eq_true _ _).1 hrun
  obtain ⟨hrecorded, hrun⟩ := of_decide_eq_true hrun
  obtain ⟨u, hu, hbad⟩ := (Option.any_eq_true _ _).1 hrun
  obtain ⟨r, hr, hfrom⟩ := of_decide_eq_true hbad
  have hreach : history.Reach t := Machine.reach_of_exec rfl ht
  have hbroken : ¬ Recorded From u := fun h => hfrom (h r hr)
  refine ⟨⟨u, hreach.run (Machine.run_of_exec hu), hbroken⟩, fun hall => hbroken ?_⟩
  obtain ⟨u', hstep, heq⟩ := Option.bind_eq_some_iff.1 hu
  cases heq
  have hsound : Sound From t (.stage (servedBy .azureOpenai) .stable
      { contractId := 5, projectId := 2 } [boilerplate 6] 1) :=
    ⟨fun _ => servedBy_from .azureOpenai, (reusesInSpace_iff .stable).1 (hall _ _ _ _ _)⟩
  exact recorded_step hrecorded hsound hstep

end EmbeddingStage

end Clear
