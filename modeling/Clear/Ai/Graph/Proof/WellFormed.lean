import Clear.Ai.Graph.Builder

/-!
# The passes of the graph keep it well formed

Every pass keeps `Wf`: keys are unique, and a resolved edge ends in nodes whose rows it names. Nodes
and edges of a pass are added together, so an edge that is kept for an earlier row goes with the
node that is kept for it (`Attached`); the nodes of obligations and risks are numbered (`Numbered`).
-/

namespace Clear

namespace KnowledgeGraphBuilder

/-! ## Statements -/

def Holds (b : KnowledgeGraphBuilder) (key : NodeKey) (id : Option Uuid) : Prop :=
  ∃ node, b.nodes.lookup key = some node ∧ ∀ row, node.rowId = some row → id = some row

/-- Both ends of an edge are nodes whose rows it names. -/
def Anchored (b : KnowledgeGraphBuilder) (edge : GraphEdge) : Prop :=
  b.Holds edge.source edge.sourceId ∧ b.Holds edge.target edge.targetId

def HasResolved (b : KnowledgeGraphBuilder) (key : EdgeKey) : Prop :=
  ∃ edge, b.edges.lookup key = some edge ∧ edge.isResolved = true

/-- What every step keeps. -/
structure Wf (std : Stdlib) (b : KnowledgeGraphBuilder) : Prop where
  nodeKeys : (b.nodes.map (·.1)).Nodup
  nodeKey : ∀ e ∈ b.nodes, e.2.key = e.1
  edgeKeys : (b.edges.map (·.1)).Nodup
  edgeKey : ∀ e ∈ b.edges, e.2.key = e.1
  anchored : ∀ e ∈ b.edges, e.2.isResolved = true → b.Anchored e.2
  indexed : ∀ e ∈ b.clauseIndex, normaliseNumber std e.2 = e.1 ∧
    ∃ node, b.nodes.lookup ⟨GraphNodeType.clause.value, e.2⟩ = some node

structure Grows (b c : KnowledgeGraphBuilder) : Prop where
  nodes : ∀ key node, b.nodes.lookup key = some node → c.nodes.lookup key = some node
  resolved : ∀ key, b.HasResolved key → c.HasResolved key
  dangling : b.dangling ⊆ c.dangling

def Types (b : KnowledgeGraphBuilder) (types : List GraphNodeType) : Prop :=
  ∀ key ∈ b.nodes.map (·.1), ∃ t ∈ types, key.nodeType = t.value

/-! ## Single additions -/

variable {std : Stdlib} {b c d : KnowledgeGraphBuilder} {node : GraphNode} {edge : GraphEdge} {key : NodeKey}
  {id : Option Uuid}

theorem Grows.refl (b : KnowledgeGraphBuilder) : Grows b b :=
  ⟨fun _ _ h => h, fun _ h => h, List.Subset.refl _⟩

theorem Grows.trans (h : Grows b c) (h' : Grows c d) : Grows b d :=
  ⟨fun key node hn => h'.nodes key node (h.nodes key node hn),
    fun key he => h'.resolved key (h.resolved key he), List.Subset.trans h.dangling h'.dangling⟩

theorem Grows.foldl {α : Type} {f : KnowledgeGraphBuilder → α → KnowledgeGraphBuilder}
    (h : ∀ b a, Grows b (f b a)) (l : List α) (b : KnowledgeGraphBuilder) :
    Grows b (l.foldl f b) := by
  induction l generalizing b with
  | nil => exact .refl b
  | cons a l ih => exact (h b a).trans (ih _)

theorem Grows.holds (h : Grows b c) (hb : b.Holds key id) : c.Holds key id := by
  obtain ⟨node, hnode, hrow⟩ := hb
  exact ⟨node, h.nodes key node hnode, hrow⟩

theorem Grows.anchored (h : Grows b c) (hb : b.Anchored edge) : c.Anchored edge :=
  ⟨h.holds hb.1, h.holds hb.2⟩

theorem lookup_addNode :
    (b.addNode node).nodes.lookup key =
      (b.nodes.lookup key).or (if key = node.key then some node else none) :=
  Dict.lookup_setDefault

theorem grows_addNode (b : KnowledgeGraphBuilder) (node : GraphNode) : Grows b (b.addNode node) := by
  refine ⟨fun key n hn => ?_, fun _ h => h, List.Subset.refl _⟩
  rw [lookup_addNode, hn]
  rfl

theorem lookup_addNode_self (h : b.nodes.lookup node.key = none) :
    (b.addNode node).nodes.lookup node.key = some node := by
  rw [lookup_addNode, h, if_pos rfl]
  rfl

theorem exists_addNode (b : KnowledgeGraphBuilder) (node : GraphNode) :
    ∃ n, (b.addNode node).nodes.lookup node.key = some n := by
  cases h : b.nodes.lookup node.key with
  | none => exact ⟨node, lookup_addNode_self h⟩
  | some n => exact ⟨n, (grows_addNode b node).nodes _ _ h⟩

theorem holds_addNode (h : b.nodes.lookup node.key = none) :
    (b.addNode node).Holds node.key node.rowId :=
  ⟨node, lookup_addNode_self h, fun _ hrow => hrow⟩

theorem Wf.lookup_key (h : Wf std b) (hnode : b.nodes.lookup key = some node) : node.key = key :=
  h.nodeKey _ (Dict.mem_of_lookup hnode)

theorem Wf.lookup_self (h : Wf std b) (hnode : b.nodes.lookup key = some node) :
    b.nodes.lookup node.key = some node := by
  rw [h.lookup_key hnode]
  exact hnode

theorem Wf.addNode (h : Wf std b) (node : GraphNode) : Wf std (b.addNode node) where
  nodeKeys := Dict.nodup_setDefault h.nodeKeys
  nodeKey e he := by
    rcases Dict.mem_setDefault he with he | rfl
    · exact h.nodeKey e he
    · rfl
  edgeKeys := h.edgeKeys
  edgeKey := h.edgeKey
  anchored e he hresolved := (grows_addNode b node).anchored (h.anchored e he hresolved)
  indexed e he := by
    obtain ⟨hnumber, n, hn⟩ := h.indexed e he
    exact ⟨hnumber, n, (grows_addNode b node).nodes _ _ hn⟩

/-! ### Edges -/

theorem better_key {existing : GraphEdge} (h : existing.key = edge.key) :
    (better existing edge).key = edge.key := by
  unfold better
  dsimp only
  split <;> split
  · rfl
  · exact h
  · rfl
  · exact h

theorem better_resolved (existing edge : GraphEdge) :
    (better existing edge).isResolved = (existing.isResolved || edge.isResolved) := by
  unfold better corroborate
  dsimp only
  cases hx : existing.isResolved <;> cases he : edge.isResolved <;> split <;> simp [hx, he]

theorem better_anchored {existing : GraphEdge}
    (h : existing.isResolved = true → b.Anchored existing)
    (hnew : existing.isResolved = false → edge.isResolved = true → b.Anchored edge)
    (hresolved : (better existing edge).isResolved = true) : b.Anchored (better existing edge) := by
  rw [better_resolved] at hresolved
  have hwinner : b.Anchored
      (if edge.isResolved && !existing.isResolved then edge else existing) := by
    cases hx : existing.isResolved with
    | true => simpa using h hx
    | false =>
      have he : edge.isResolved = true := by simpa [hx] using hresolved
      simpa [he] using hnew hx he
  unfold better
  dsimp only
  split
  · exact hwinner
  · exact hwinner

theorem lookup_addEdge_self (b : KnowledgeGraphBuilder) (edge : GraphEdge) :
    (b.addEdge edge).edges.lookup edge.key = some (b.merged edge) :=
  Dict.lookup_assign_self _ _ _

theorem merged_resolved (h : edge.isResolved = true ∨ b.HasResolved edge.key) :
    (b.merged edge).isResolved = true := by
  unfold merged
  cases hx : b.edges.lookup edge.key with
  | none =>
    refine h.resolve_right ?_
    rintro ⟨x, hsome, -⟩
    rw [hx] at hsome
    cases hsome
  | some existing =>
    show (better existing edge).isResolved = true
    rw [better_resolved]
    rcases h with h | ⟨x, hsome, h⟩
    · simp [h]
    · rw [hx] at hsome
      cases hsome
      simp [h]

theorem hasResolved_addEdge (h : edge.isResolved = true) : (b.addEdge edge).HasResolved edge.key :=
  ⟨_, lookup_addEdge_self b edge, merged_resolved (.inl h)⟩

theorem grows_addEdge (b : KnowledgeGraphBuilder) (edge : GraphEdge) : Grows b (b.addEdge edge) := by
  refine ⟨fun _ _ h => h, fun key h => ?_, List.Subset.refl _⟩
  by_cases hkey : key = edge.key
  · subst hkey
    exact ⟨_, lookup_addEdge_self b edge, merged_resolved (.inr h)⟩
  · obtain ⟨x, hx, hresolved⟩ := h
    exact ⟨x, (Dict.lookup_assign_ne hkey).trans hx, hresolved⟩

theorem Wf.addEdge (h : Wf std b)
    (hnew : edge.isResolved = true → b.HasResolved edge.key ∨ b.Anchored edge) :
    Wf std (b.addEdge edge) where
  nodeKeys := h.nodeKeys
  nodeKey := h.nodeKey
  edgeKeys := Dict.nodup_assign h.edgeKeys
  edgeKey e he := by
    rcases Dict.mem_assign he with he | rfl
    · exact h.edgeKey e he
    · show (b.merged edge).key = edge.key
      unfold merged
      cases hx : b.edges.lookup edge.key with
      | none => rfl
      | some existing => exact better_key (h.edgeKey _ (Dict.mem_of_lookup hx))
  anchored e he hresolved := by
    rcases Dict.mem_assign he with he | rfl
    · exact h.anchored e he hresolved
    · show b.Anchored (b.merged edge)
      have hresolved' : (b.merged edge).isResolved = true := hresolved
      revert hresolved'
      unfold merged
      cases hx : b.edges.lookup edge.key with
      | none =>
        intro hedge
        refine (hnew hedge).resolve_left ?_
        rintro ⟨x, hsome, -⟩
        rw [hx] at hsome
        cases hsome
      | some existing =>
        refine better_anchored (h.anchored _ (Dict.mem_of_lookup hx)) fun hold hedge => ?_
        refine (hnew hedge).resolve_left ?_
        rintro ⟨x, hsome, hresolved⟩
        rw [hx] at hsome
        cases hsome
        rw [hold] at hresolved
        cases hresolved
  indexed := h.indexed

/-! ## Passes -/

/-- What holds between the passes: the contract is a node, and nodes have the types of the passes
so far. -/
structure Stage (std : Stdlib) (contractId : Uuid) (types : List GraphNodeType) (b : KnowledgeGraphBuilder) :
    Prop where
  wf : Wf std b
  rooted : b.Holds (contractKey contractId) (some contractId)
  types : b.Types types

def Attached (types : List GraphNodeType) (edgeKey : NodeKey → EdgeKey)
    (b : KnowledgeGraphBuilder) : Prop :=
  ∀ key node, b.nodes.lookup key = some node → (∃ t ∈ types, key.nodeType = t.value) →
    b.HasResolved (edgeKey key)

variable {finditer : String → String → List SectionMatch} {contractId : Uuid}
  {types types' : List GraphNodeType} {edgeKey : NodeKey → EdgeKey}

theorem Types.mono (h : b.Types types) (hsub : types ⊆ types') : b.Types types' := by
  intro key hkey
  obtain ⟨t, ht, heq⟩ := h key hkey
  exact ⟨t, hsub ht, heq⟩

theorem Types.addNode (h : b.Types types) (hnode : node.nodeType ∈ types) :
    (b.addNode node).Types types := by
  intro key hkey
  obtain ⟨e, he, rfl⟩ := List.mem_map.1 hkey
  rcases Dict.mem_setDefault he with he | rfl
  · exact h _ (List.mem_map_of_mem he)
  · exact ⟨node.nodeType, hnode, rfl⟩

theorem key_mem (h : b.nodes.lookup key = some node) : key ∈ b.nodes.map (·.1) :=
  List.mem_map_of_mem (Dict.mem_of_lookup h)

theorem Types.fresh (h : b.Types types) (hnode : ∀ t ∈ types, node.nodeType.value ≠ t.value) :
    b.nodes.lookup node.key = none := by
  cases hn : b.nodes.lookup node.key with
  | none => rfl
  | some n =>
    obtain ⟨t, ht, heq⟩ := h _ (key_mem hn)
    exact absurd heq (hnode t ht)

theorem Types.attached (h : b.Types types)
    (hnew : ∀ t ∈ types, ∀ t' ∈ types', t.value ≠ t'.value) : Attached types' edgeKey b := by
  intro key node hnode hpass
  obtain ⟨t, ht, heq⟩ := h _ (key_mem hnode)
  obtain ⟨t', ht', heq'⟩ := hpass
  exact absurd (heq.symm.trans heq') (hnew t ht t' ht')

theorem Stage.addNode (h : Stage std contractId types b) (hnode : node.nodeType ∈ types) :
    Stage std contractId types (b.addNode node) :=
  ⟨h.wf.addNode node, (grows_addNode b node).holds h.rooted, h.types.addNode hnode⟩

theorem Stage.addEdge (h : Stage std contractId types b)
    (hnew : edge.isResolved = true → b.HasResolved edge.key ∨ b.Anchored edge) :
    Stage std contractId types (b.addEdge edge) :=
  ⟨h.wf.addEdge hnew, (grows_addEdge b edge).holds h.rooted, h.types⟩

theorem Stage.mono (h : Stage std contractId types b) (hsub : types ⊆ types') :
    Stage std contractId types' b := ⟨h.wf, h.rooted, h.types.mono hsub⟩

theorem Attached.add (h : Attached types edgeKey b) (hgrows : Grows (b.addNode node) c)
    (hnodes : c.nodes = (b.addNode node).nodes) (hkey : edge.key = edgeKey node.key)
    (hresolved : edge.isResolved = true) : Attached types edgeKey (c.addEdge edge) := by
  intro key n hn hpass
  have hn' : (b.addNode node).nodes.lookup key = some n := by
    rw [← hnodes]
    exact hn
  by_cases heq : key = node.key
  · rw [heq, ← hkey]
    exact hasResolved_addEdge hresolved
  · rw [lookup_addNode, if_neg heq, Option.or_none] at hn'
    exact (grows_addEdge c edge).resolved _
      (hgrows.resolved _ ((grows_addNode b node).resolved _ (h key n hn' hpass)))

theorem Attached.admits (h : Attached types edgeKey b) (hnode : node.nodeType ∈ types)
    (hgrows : Grows (b.addNode node) c) (hkey : edge.key = edgeKey node.key)
    (hfresh : (b.addNode node).Holds node.key node.rowId → c.Anchored edge) :
    c.HasResolved edge.key ∨ c.Anchored edge := by
  cases hn : b.nodes.lookup node.key with
  | none => exact .inr (hfresh (holds_addNode hn))
  | some n =>
    refine .inl (hgrows.resolved _ ((grows_addNode b node).resolved _ ?_))
    rw [hkey]
    exact h _ n hn ⟨node.nodeType, hnode, rfl⟩

/-! ### Parties -/

def partyTypes : List GraphNodeType := [.party, .vendor, .customer]

theorem partyNodeType_mem (std : Stdlib) (role : Option String) :
    partyNodeType std role ∈ partyTypes := by
  unfold partyNodeType partyTypes
  dsimp only
  split
  · decide
  · split
    · decide
    · split <;> decide

theorem stage_addParty {b : KnowledgeGraphBuilder} (party : EntityRow)
    (h : Stage std contractId (.contract :: partyTypes) b ∧
      Attached partyTypes (⟨.belongsTo, ·, contractKey contractId⟩) b) :
    Stage std contractId (.contract :: partyTypes) (addParty std contractId b party) ∧
      Attached partyTypes (⟨.belongsTo, ·, contractKey contractId⟩)
        (addParty std contractId b party) := by
  unfold addParty
  dsimp only
  split
  · exact h
  · obtain ⟨hstage, hattached⟩ := h
    have htype : (partyNode std party).nodeType ∈ partyTypes := partyNodeType_mem std party.role
    have hadded := hstage.addNode (List.mem_cons_of_mem _ htype)
    have hindexed : Stage std contractId (.contract :: partyTypes)
        ((b.addNode (partyNode std party)).indexParty std (Text.strip party.name) party.aliases) :=
      ⟨⟨hadded.wf.nodeKeys, hadded.wf.nodeKey, hadded.wf.edgeKeys, hadded.wf.edgeKey,
        hadded.wf.anchored, hadded.wf.indexed⟩, hadded.rooted, hadded.types⟩
    have hgrows : Grows (b.addNode (partyNode std party))
        ((b.addNode (partyNode std party)).indexParty std (Text.strip party.name) party.aliases) :=
      ⟨fun _ _ h => h, fun _ h => h, List.Subset.refl _⟩
    refine ⟨hindexed.addEdge fun _ => hattached.admits htype hgrows (by rfl) fun hholds => ?_,
      hattached.add hgrows (by rfl) (by rfl) (by rfl)⟩
    exact ⟨hholds, hindexed.rooted⟩

/-! ### Clauses -/

def clauseTypes : List GraphNodeType := .clause :: .contract :: partyTypes

theorem Wf.indexClause {clause : ClauseRow} (h : Wf std b)
    (hnode : ∃ n, b.nodes.lookup (clauseNode clause).key = some n) :
    Wf std (b.indexClause std clause) := by
  unfold KnowledgeGraphBuilder.indexClause
  dsimp only
  split
  · exact h
  next hnumber =>
    refine ⟨h.nodeKeys, h.nodeKey, h.edgeKeys, h.edgeKey, h.anchored, fun e he => ?_⟩
    rcases Dict.mem_assign he with he | rfl
    · exact h.indexed e he
    · refine ⟨?_, hnode⟩
      show normaliseNumber std (clauseRef clause) = _
      unfold clauseRef
      rw [if_neg hnumber]

theorem indexClause_nodes (b : KnowledgeGraphBuilder) (clause : ClauseRow) :
    (b.indexClause std clause).nodes = b.nodes := by
  unfold indexClause
  dsimp only
  split <;> rfl

theorem grows_indexClause (b : KnowledgeGraphBuilder) (clause : ClauseRow) :
    Grows b (b.indexClause std clause) := by
  unfold indexClause
  dsimp only
  split
  · exact .refl b
  · exact ⟨fun _ _ h => h, fun _ h => h, List.Subset.refl _⟩

theorem grows_addClause (b : KnowledgeGraphBuilder) (clause : ClauseRow) :
    Grows b (addClause std contractId b clause) := by
  unfold addClause
  split
  · exact .refl b
  · exact ((grows_addNode b _).trans (grows_indexClause _ clause)).trans (grows_addEdge _ _)

theorem stage_addClause {b : KnowledgeGraphBuilder} (clause : ClauseRow)
    (h : Stage std contractId clauseTypes b ∧
      Attached [.clause] (⟨.contains, contractKey contractId, ·⟩) b) :
    Stage std contractId clauseTypes (addClause std contractId b clause) ∧
      Attached [.clause] (⟨.contains, contractKey contractId, ·⟩)
        (addClause std contractId b clause) := by
  unfold addClause
  split
  · exact h
  · obtain ⟨hstage, hattached⟩ := h
    have hadded : Stage std contractId clauseTypes (b.addNode (clauseNode clause)) :=
      hstage.addNode List.mem_cons_self
    have hgrows : Grows (b.addNode (clauseNode clause))
        ((b.addNode (clauseNode clause)).indexClause std clause) := grows_indexClause _ clause
    have hnodes : ((b.addNode (clauseNode clause)).indexClause std clause).nodes =
        (b.addNode (clauseNode clause)).nodes := indexClause_nodes _ clause
    have hindexed : Stage std contractId clauseTypes
        ((b.addNode (clauseNode clause)).indexClause std clause) := by
      refine ⟨hadded.wf.indexClause (exists_addNode b _), hgrows.holds hadded.rooted, ?_⟩
      unfold Types
      rw [hnodes]
      exact hadded.types
    refine ⟨hindexed.addEdge fun _ => hattached.admits List.mem_cons_self hgrows (by rfl)
      fun hholds => ⟨hindexed.rooted, hgrows.holds hholds⟩,
      hattached.add hgrows hnodes (by rfl) (by rfl)⟩

/-! ### Obligations and risks -/

def Numbered (t : GraphNodeType) (ref : Nat → String → Prop) (n : Nat)
    (b : KnowledgeGraphBuilder) : Prop :=
  ∀ key node, b.nodes.lookup key = some node → key.nodeType = t.value → ∃ i < n, ref i key.ref

theorem Numbered.mono {t : GraphNodeType} {ref : Nat → String → Prop} {m n : Nat}
    (h : Numbered t ref m b) (hle : m ≤ n) : Numbered t ref n b := by
  intro key node hnode htype
  obtain ⟨i, hi, href⟩ := h key node hnode htype
  exact ⟨i, by omega, href⟩

theorem Numbered.addNode {t : GraphNodeType} {ref : Nat → String → Prop} {n : Nat}
    (h : Numbered t ref n b) (href : ref n node.ref) : Numbered t ref (n + 1) (b.addNode node) := by
  intro key x hx htype
  rw [lookup_addNode] at hx
  by_cases heq : key = node.key
  · exact ⟨n, by omega, by rw [heq]; exact href⟩
  · rw [if_neg heq, Option.or_none] at hx
    obtain ⟨i, hi, href⟩ := h key x hx htype
    exact ⟨i, by omega, href⟩

theorem Numbered.fresh {t : GraphNodeType} {ref : Nat → String → Prop} {n : Nat}
    (h : Numbered t ref n b) (href : ref n node.ref) (htype : node.nodeType = t)
    (hinj : ∀ i j s, ref i s → ref j s → i = j) : b.nodes.lookup node.key = none := by
  cases hx : b.nodes.lookup node.key with
  | none => rfl
  | some x =>
    obtain ⟨i, hi, href'⟩ := h _ x hx (by rw [← htype]; rfl)
    have := hinj i n _ href' href
    omega

theorem resolveParty_self (h : Wf std b) {name : Option String} {party : GraphNode}
    (hparty : resolveParty std b name = some party) : b.nodes.lookup party.key = some party := by
  unfold resolveParty at hparty
  split at hparty
  · cases hparty
  · obtain ⟨candidate, -, hfound⟩ := Option.bind_eq_some_iff.1 hparty
    obtain ⟨t, -, hlookup⟩ := List.exists_of_findSome?_eq_some hfound
    exact h.lookup_self hlookup

theorem find_self (h : Wf std b) {p : NodeKey × GraphNode → Bool} {e : NodeKey × GraphNode}
    (he : b.nodes.find? p = some e) : b.nodes.lookup e.2.key = some e.2 := by
  have hmem := List.mem_of_find?_eq_some he
  rw [h.nodeKey e hmem]
  exact (Dict.lookup_eq_some_iff h.nodeKeys).2 hmem

theorem clauseByType_self (h : Wf std b) {clauseType : Option String} {clause : GraphNode}
    (hclause : clauseByType b clauseType = some clause) :
    b.nodes.lookup clause.key = some clause := by
  unfold clauseByType at hclause
  obtain ⟨t, -, hfound⟩ := Option.bind_eq_some_iff.1 hclause
  obtain ⟨e, he, rfl⟩ := Option.map_eq_some_iff.1 hfound
  exact find_self h he

theorem holds_self (h : b.nodes.lookup node.key = some node) : b.Holds node.key node.rowId :=
  ⟨node, h, fun _ hrow => hrow⟩

theorem Stage.addContained (h : Stage std contractId types b) (hnode : node.nodeType ∈ types)
    (hfresh : b.nodes.lookup node.key = none) (label : Option String) :
    Stage std contractId types ((b.addNode node).addEdge (containsEdge contractId node label)) :=
  (h.addNode hnode).addEdge fun _ =>
    .inr ⟨(grows_addNode b node).holds h.rooted, holds_addNode hfresh⟩

theorem grows_addObligation (b : KnowledgeGraphBuilder) (obligation : Obligation) (n : Nat) :
    Grows b (addObligation std contractId b obligation n) := by
  unfold addObligation
  dsimp only
  split
  · exact .refl b
  · have hadded := (grows_addNode b (obligationNode std n obligation)).trans
      (grows_addEdge _ (containsEdge contractId (obligationNode std n obligation) none))
    split
    · exact hadded
    · exact hadded.trans (grows_addEdge _ _)

def IsObligation (n : Nat) (ref : String) : Prop := ref = "obligation-" ++ toString n

theorem isObligation_inj (i j : Nat) (s : String) (hi : IsObligation i s)
    (hj : IsObligation j s) : i = j := by
  have hrefs : "obligation-" ++ toString i = "obligation-" ++ toString j := hi.symm.trans hj
  have hchars := congrArg String.toList hrefs
  simp only [String.toList_append, Nat.toString_eq_ofList_toDigits, String.toList_ofList]
    at hchars
  refine Text.toDigits_inj (x := []) (y := []) nofun nofun ?_
  rw [List.append_nil, List.append_nil]
  exact List.append_cancel_left hchars

def obligationTypes : List GraphNodeType := .obligation :: clauseTypes

theorem stage_addObligation {b : KnowledgeGraphBuilder} (obligation : Obligation) (n : Nat)
    (h : Stage std contractId obligationTypes b ∧ Numbered .obligation IsObligation n b) :
    Stage std contractId obligationTypes (addObligation std contractId b obligation n) ∧
      Numbered .obligation IsObligation (n + 1) (addObligation std contractId b obligation n) := by
  obtain ⟨hstage, hnumbered⟩ := h
  unfold addObligation
  dsimp only
  split
  · exact ⟨hstage, hnumbered.mono (Nat.le_succ n)⟩
  · have href : IsObligation n (obligationNode std n obligation).ref := rfl
    have hfresh := hnumbered.fresh href rfl isObligation_inj
    have hadded := hstage.addContained List.mem_cons_self hfresh none
    have hnext := hnumbered.addNode href
    split
    · exact ⟨hadded, hnext⟩
    next party hparty =>
      have hself := resolveParty_self hadded.wf hparty
      refine ⟨hadded.addEdge fun _ => .inr ⟨?_, holds_self hself⟩, hnext⟩
      exact (grows_addEdge _ _).holds (holds_addNode hfresh)

theorem risk_ref_inj {i j : Nat} {t u : String}
    (h : "risk-" ++ toString i ++ "-" ++ t = "risk-" ++ toString j ++ "-" ++ u) :
    i = j ∧ t = u := by
  have hchars := congrArg String.toList h
  simp only [String.toList_append, Nat.toString_eq_ofList_toDigits, String.toList_ofList,
    List.append_assoc] at hchars
  have hdash : ∀ l : List Char, ∀ c, ("-".toList ++ l).head? = some c → c.isDigit = false := by
    intro l c hc
    cases hc
    rfl
  have hrest := List.append_cancel_left hchars
  obtain rfl := Text.toDigits_inj (hdash t.toList) (hdash u.toList) hrest
  exact ⟨rfl, String.toList_inj.1 (List.append_cancel_left (List.append_cancel_left hrest))⟩

def IsRisk (n : Nat) (ref : String) : Prop :=
  ∃ riskType, riskType ≠ "" ∧ ref = "risk-" ++ toString n ++ "-" ++ riskType

theorem isRisk_inj (i j : Nat) (s : String) (hi : IsRisk i s) (hj : IsRisk j s) : i = j := by
  obtain ⟨t, -, hi⟩ := hi
  obtain ⟨u, -, hj⟩ := hj
  exact (risk_ref_inj (hi.symm.trans hj)).1

def riskTypes : List GraphNodeType := .risk :: obligationTypes

theorem grows_addRisk (b : KnowledgeGraphBuilder) (risk : RiskInput) (n : Nat) :
    Grows b (addRisk contractId b risk n) := by
  unfold addRisk
  dsimp only
  split
  · exact .refl b
  · have hadded := (grows_addNode b (riskNode n risk)).trans
      (grows_addEdge _ (containsEdge contractId (riskNode n risk) none))
    split
    · exact hadded
    · split
      · exact hadded
      · exact hadded.trans (grows_addEdge _ _)

theorem stage_addRisk {b : KnowledgeGraphBuilder} (risk : RiskInput) (n : Nat)
    (h : Stage std contractId riskTypes b ∧ Numbered .risk IsRisk n b) :
    Stage std contractId riskTypes (addRisk contractId b risk n) ∧
      Numbered .risk IsRisk (n + 1) (addRisk contractId b risk n) := by
  obtain ⟨hstage, hnumbered⟩ := h
  unfold addRisk
  dsimp only
  split
  · exact ⟨hstage, hnumbered.mono (Nat.le_succ n)⟩
  next htype =>
    have href : IsRisk n (riskNode n risk).ref := ⟨risk.riskType, htype, rfl⟩
    have hfresh := hnumbered.fresh href rfl isRisk_inj
    have hadded := hstage.addContained List.mem_cons_self hfresh none
    have hnext := hnumbered.addNode href
    split
    · exact ⟨hadded, hnext⟩
    next clause hclause =>
      split
      · exact ⟨hadded, hnext⟩
      · have hself := clauseByType_self hadded.wf hclause
        refine ⟨hadded.addEdge fun _ => .inr ⟨?_, holds_self hself⟩, hnext⟩
        exact (grows_addEdge _ _).holds (holds_addNode hfresh)

theorem foldl_numbered {α : Type} {I : Nat → KnowledgeGraphBuilder → Prop}
    {f : KnowledgeGraphBuilder → α → Nat → KnowledgeGraphBuilder}
    (h : ∀ b a n, I n b → I (n + 1) (f b a n)) (l : List α) :
    ∀ (n : Nat) (b : KnowledgeGraphBuilder), I n b →
      ∃ m, I m ((l.zipIdx n).foldl (fun b e => f b e.1 e.2) b) := by
  induction l with
  | nil => exact fun n b hb => ⟨n, hb⟩
  | cons a l ih => exact fun n b hb => ih (n + 1) _ (h b a n hb)

theorem foldl_keeps {α : Type} {I : KnowledgeGraphBuilder → Prop}
    {f : KnowledgeGraphBuilder → α → KnowledgeGraphBuilder} (h : ∀ b a, I b → I (f b a))
    (l : List α) (b : KnowledgeGraphBuilder) (hb : I b) : I (l.foldl f b) := by
  induction l generalizing b with
  | nil => exact hb
  | cons a l ih => exact ih _ (h b a hb)

/-! ### The governing law -/

theorem grows_addGoverningLaw (b : KnowledgeGraphBuilder) (metadata : Option ContractMetadata) :
    Grows b (addGoverningLaw std contractId b metadata) := by
  unfold addGoverningLaw
  dsimp only
  split
  · exact .refl b
  · exact (grows_addNode b _).trans (grows_addEdge _ _)

theorem stage_addGoverningLaw (h : Stage std contractId riskTypes b)
    (metadata : Option ContractMetadata) :
    Stage std contractId (.definition :: riskTypes) (addGoverningLaw std contractId b metadata) := by
  have hstage : Stage std contractId (.definition :: riskTypes) b :=
    h.mono (List.subset_cons_of_subset _ (List.Subset.refl _))
  unfold addGoverningLaw
  dsimp only
  split
  · exact hstage
  · have hfresh : b.nodes.lookup
        (lawNode (Text.strip (((governingLaw b metadata).or (.str "")).text std))).key = none := by
      refine h.types.fresh ?_
      show ∀ t ∈ riskTypes, GraphNodeType.definition.value ≠ t.value
      decide
    exact (hstage.addNode List.mem_cons_self).addEdge fun _ =>
      .inr ⟨(grows_addNode b _).holds hstage.rooted, holds_addNode hfresh⟩

end KnowledgeGraphBuilder

end Clear
