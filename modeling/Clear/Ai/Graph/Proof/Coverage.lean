import Clear.Ai.Graph.Proof.References

/-!
# Which clauses the graph represents

Of the rows with one reference, which is the printed number or else the type, the first makes the
node (`lookup_build`): a second clause read from one numbered clause, or a second unnumbered clause
of one type, has no node, and risks find no clause of its type.

* `covered_iff`: every row is represented, and every risk attributed, if and only if references are
  distinct and the risks have types.
-/

namespace Clear

namespace KnowledgeGraphBuilder

variable {std : Stdlib} {finditer : String → String → List SectionMatch}
  {b c d : KnowledgeGraphBuilder} {node : GraphNode} {t : GraphNodeType} {contractId : Uuid}

/-! ## Nodes of one type -/

def SameNodes (t : GraphNodeType) (b c : KnowledgeGraphBuilder) : Prop :=
  ∀ ref, c.nodes.lookup ⟨t.value, ref⟩ = b.nodes.lookup ⟨t.value, ref⟩

theorem SameNodes.refl (t : GraphNodeType) (b : KnowledgeGraphBuilder) : SameNodes t b b :=
  fun _ => rfl

theorem SameNodes.trans (h : SameNodes t b c) (h' : SameNodes t c d) : SameNodes t b d :=
  fun ref => (h' ref).trans (h ref)

theorem SameNodes.foldl {α : Type} {f : KnowledgeGraphBuilder → α → KnowledgeGraphBuilder}
    (h : ∀ b a, SameNodes t b (f b a)) (l : List α) (b : KnowledgeGraphBuilder) :
    SameNodes t b (l.foldl f b) := by
  induction l generalizing b with
  | nil => exact .refl t b
  | cons a l ih => exact (h b a).trans (ih _)

theorem sameNodes_addNode (h : node.nodeType ≠ t) : SameNodes t b (b.addNode node) := by
  intro ref
  have hkey : (⟨t.value, ref⟩ : NodeKey) ≠ node.key := fun heq =>
    h (GraphNodeType.value_inj.1 (congrArg NodeKey.nodeType heq).symm)
  rw [lookup_addNode, if_neg hkey, Option.or_none]

theorem sameNodes_addObligation (b : KnowledgeGraphBuilder) (obligation : Obligation) (n : Nat) :
    SameNodes .clause b (addObligation std contractId b obligation n) := by
  unfold addObligation
  dsimp only
  have hnode : SameNodes .clause b (b.addNode (obligationNode std n obligation)) :=
    sameNodes_addNode nofun
  split
  · exact .refl _ b
  · split <;> exact hnode

theorem sameNodes_addRisk (b : KnowledgeGraphBuilder) (risk : RiskInput) (n : Nat) :
    SameNodes .clause b (addRisk contractId b risk n) := by
  unfold addRisk
  dsimp only
  have hnode : SameNodes .clause b (b.addNode (riskNode n risk)) := sameNodes_addNode nofun
  split
  · exact .refl _ b
  · split
    · exact hnode
    · split <;> exact hnode

theorem sameNodes_addGoverningLaw (h : t ≠ .definition) (b : KnowledgeGraphBuilder)
    (metadata : Option ContractMetadata) :
    SameNodes t b (addGoverningLaw std contractId b metadata) := by
  unfold addGoverningLaw
  dsimp only
  split
  · exact .refl t b
  · have hnode : SameNodes t b (b.addNode
        (lawNode (Text.strip (((governingLaw b metadata).or (.str "")).text std)))) :=
      sameNodes_addNode h.symm
    exact hnode

theorem sameNodes_addObligations (b : KnowledgeGraphBuilder) (input : Input) :
    SameNodes .clause b (addObligations std input b) :=
  SameNodes.foldl (f := fun b (e : Obligation × Nat) =>
    addObligation std input.contractId b e.1 e.2)
    (fun b e => sameNodes_addObligation b e.1 e.2) input.obligations.zipIdx b

theorem sameNodes_addRisks (b : KnowledgeGraphBuilder) (input : Input) :
    SameNodes .clause b (addRisks input b) :=
  SameNodes.foldl (f := fun b (e : RiskInput × Nat) => addRisk input.contractId b e.1 e.2)
    (fun b e => sameNodes_addRisk b e.1 e.2) input.risks.zipIdx b

theorem sameNodes_listed (input : Input) :
    SameNodes .clause (listed std input) (governed std input) := by
  have hlaw : GraphNodeType.clause ≠ .definition := by decide
  exact ((sameNodes_addObligations _ input).trans (sameNodes_addRisks _ input)).trans
    (sameNodes_addGoverningLaw hlaw _ input.metadata)

theorem nodes_build (input : Input) :
    (build std finditer input).nodes = (governed std input).nodes :=
  ((sameIndex_related input).trans (sameIndex_build input)).nodes

theorem Types.lookup_none {types : List GraphNodeType} (h : b.Types types)
    (hnew : ∀ s ∈ types, s.value ≠ t.value) (ref : String) :
    b.nodes.lookup ⟨t.value, ref⟩ = none := by
  cases hn : b.nodes.lookup ⟨t.value, ref⟩ with
  | none => rfl
  | some n =>
    obtain ⟨s, hs, heq⟩ := h _ (key_mem hn)
    exact absurd heq.symm (hnew s hs)

/-! ## The nodes of clauses -/

def firstOf (l : List ClauseRow) (ref : String) : Option ClauseRow :=
  l.find? fun c => clauseRef c ≠ "" ∧ clauseRef c = ref

theorem nodes_addEdge (b : KnowledgeGraphBuilder) (edge : GraphEdge) :
    (b.addEdge edge).nodes = b.nodes := by
  rfl

theorem lookup_addClause (b : KnowledgeGraphBuilder) (row : ClauseRow) (ref : String) :
    (addClause std contractId b row).nodes.lookup ⟨GraphNodeType.clause.value, ref⟩ =
      (b.nodes.lookup ⟨GraphNodeType.clause.value, ref⟩).or
        ((firstOf [row] ref).map clauseNode) := by
  unfold addClause firstOf
  by_cases hempty : clauseRef row = ""
  · rw [if_pos hempty, List.find?_cons_of_neg (by simp [hempty])]
    exact Option.or_none.symm
  · rw [if_neg hempty]
    rw [nodes_addEdge, indexClause_nodes, lookup_addNode]
    by_cases href : clauseRef row = ref
    · subst href
      rw [List.find?_cons_of_pos (by simp [hempty]), if_pos (by rfl)]
      rfl
    · have hkey : (⟨GraphNodeType.clause.value, ref⟩ : NodeKey) ≠ (clauseNode row).key :=
        fun heq => href (congrArg NodeKey.ref heq).symm
      rw [List.find?_cons_of_neg (by simp [href]), if_neg hkey]
      rfl

theorem lookup_addClauses (l : List ClauseRow) (b : KnowledgeGraphBuilder) (ref : String) :
    (l.foldl (addClause std contractId) b).nodes.lookup ⟨GraphNodeType.clause.value, ref⟩ =
      (b.nodes.lookup ⟨GraphNodeType.clause.value, ref⟩).or ((firstOf l ref).map clauseNode) := by
  induction l generalizing b with
  | nil => exact Option.or_none.symm
  | cons row l ih =>
    have hfirst : firstOf ([row] ++ l) ref = (firstOf [row] ref).or (firstOf l ref) :=
      List.find?_append
    rw [List.singleton_append] at hfirst
    rw [List.foldl_cons, ih, lookup_addClause, hfirst, Option.or_assoc]
    cases firstOf [row] ref <;> rfl

theorem lookup_listed (input : Input) (ref : String) :
    (listed std input).nodes.lookup ⟨GraphNodeType.clause.value, ref⟩ =
      (firstOf input.clauses ref).map clauseNode := by
  have hparties : Stage std input.contractId (.contract :: partyTypes) (addParties std input
      (({} : KnowledgeGraphBuilder).addNode (contractNode input))) :=
    stage_addParties input (stage_start input)
  have hnone := hparties.types.lookup_none (t := .clause) (by decide) ref
  unfold listed addClauses
  rw [lookup_addClauses, hnone]
  rfl

theorem lookup_build (input : Input) (ref : String) :
    (build std finditer input).nodes.lookup ⟨GraphNodeType.clause.value, ref⟩ =
      (firstOf input.clauses ref).map clauseNode := by
  rw [nodes_build, sameNodes_listed input ref, lookup_listed]

/-! ## Represented rows -/

def Represented (g : GraphResult) (contractId : Uuid) (row : ClauseRow) : Prop :=
  ∃ node ∈ g.nodes, node.nodeType = .clause ∧ node.rowId = some row.id ∧
    g.Links ⟨.contains, contractKey contractId, node.key⟩

theorem firstOf_eq_some {l : List ClauseRow} {ref : String} {row : ClauseRow}
    (h : firstOf l ref = some row) : row ∈ l ∧ clauseRef row ≠ "" ∧ clauseRef row = ref := by
  have hprop := List.find?_some h
  simp only [decide_eq_true_eq] at hprop
  exact ⟨List.mem_of_find?_eq_some h, hprop⟩

theorem grows_governed (input : Input) : Grows (governed std input) (build std finditer input) :=
  (Grows.foldl grows_resolveExtracted input.relationships _).trans (grows_build input)

theorem represented_iff (input : Input) (hids : (input.clauses.map (·.id)).Nodup)
    {row : ClauseRow} (hrow : row ∈ input.clauses) :
    Represented (result (build std finditer input)) input.contractId row ↔
      firstOf input.clauses (clauseRef row) = some row := by
  have hwf : Wf std (build std finditer input) := wf_build input
  constructor
  · rintro ⟨node, hnode, htype, hid, -⟩
    obtain ⟨⟨key, n⟩, he, rfl⟩ := List.mem_map.1 hnode
    have hkey : n.key = key := hwf.nodeKey _ he
    have hlookup := (Dict.lookup_eq_some_iff hwf.nodeKeys).2 he
    rw [← hkey] at hlookup
    unfold GraphNode.key at hlookup
    rw [htype, lookup_build] at hlookup
    obtain ⟨first, hfirst, rfl⟩ := Option.map_eq_some_iff.1 hlookup
    obtain ⟨hmem, -, href⟩ := firstOf_eq_some hfirst
    have heq : first = row := by
      refine List.inj_on_of_nodup_map hids hmem hrow ?_
      exact Option.some.inj hid
    subst heq
    exact hfirst
  · intro hfirst
    have hlookup : (build std finditer input).nodes.lookup
        ⟨GraphNodeType.clause.value, clauseRef row⟩ = some (clauseNode row) := by
      rw [lookup_build, hfirst]
      rfl
    have hlisted : (listed std input).nodes.lookup
        ⟨GraphNodeType.clause.value, clauseRef row⟩ = some (clauseNode row) := by
      rw [lookup_listed, hfirst]
      rfl
    have hcontains := (stage_listed input).2 _ _ hlisted ⟨.clause, List.mem_cons_self, rfl⟩
    refine ⟨clauseNode row, mem_result_nodes hlookup, rfl, rfl, hwf.links ?_⟩
    exact (grows_governed input).resolved _ ((grows_listed input).resolved _ hcontains)

theorem firstOf_iff_nodup {l : List ClauseRow} (hl : l.Nodup) :
    (∀ row ∈ l, clauseRef row ≠ "" → firstOf l (clauseRef row) = some row) ↔
      ((l.map clauseRef).filter (· ≠ "")).Nodup := by
  rw [List.filter_map, List.nodup_map_iff_inj_on (hl.filter _)]
  constructor
  · intro h x hx y hy heq
    obtain ⟨hx, hxref⟩ := List.mem_filter.1 hx
    obtain ⟨hy, hyref⟩ := List.mem_filter.1 hy
    have hfirst := h x hx (by simpa using hxref)
    rw [heq, h y hy (by simpa using hyref)] at hfirst
    exact (Option.some.inj hfirst).symm
  · intro h row hrow href
    obtain ⟨first, hfirst⟩ : ∃ first, firstOf l (clauseRef row) = some first := by
      refine Option.isSome_iff_exists.1 (List.find?_isSome.2 ⟨row, hrow, ?_⟩)
      simpa using href
    obtain ⟨hmem, hne, heq⟩ := firstOf_eq_some hfirst
    rw [hfirst, h first (List.mem_filter.2 ⟨hmem, by simpa using hne⟩) row
      (List.mem_filter.2 ⟨hrow, by simpa using href⟩) heq]

/-! ## Attributed risks -/

def OfType (clauseType : String) (node : GraphNode) : Prop :=
  node.nodeType = .clause ∧ Value.get node.attributes "clause_type" = .str clauseType

def Attributed (g : GraphResult) (clauseType : String) (risk : RiskInput) (n : Nat) : Prop :=
  ∃ node ∈ g.nodes, OfType clauseType node ∧ g.Links ⟨.dependsOn, (riskNode n risk).key, node.key⟩

def HasType (clauseType : String) (b : KnowledgeGraphBuilder) : Prop :=
  ∃ key node, b.nodes.lookup key = some node ∧ OfType clauseType node

def Caused (clauseType : String) (risk : NodeKey) (b : KnowledgeGraphBuilder) : Prop :=
  ∃ node, b.nodes.lookup node.key = some node ∧ OfType clauseType node ∧
    b.HasResolved ⟨.dependsOn, risk, node.key⟩

theorem HasType.grows {clauseType : String} (h : HasType clauseType b) (hgrows : Grows b c) :
    HasType clauseType c := by
  obtain ⟨key, node, hnode, htype⟩ := h
  exact ⟨key, node, hgrows.nodes _ _ hnode, htype⟩

theorem Caused.grows {clauseType : String} {risk : NodeKey} (h : Caused clauseType risk b)
    (hgrows : Grows b c) : Caused clauseType risk c := by
  obtain ⟨node, hnode, htype, hedge⟩ := h
  exact ⟨node, hgrows.nodes _ _ hnode, htype, hgrows.resolved _ hedge⟩

theorem isStr_eq_true {v : Value} {s : String} : v.isStr s = true ↔ v = .str s := by
  cases v <;> simp [Value.isStr]

theorem clauseByType_of_hasType {clauseType : String} (h : HasType clauseType b)
    (hne : clauseType ≠ "") :
    ∃ clause, clauseByType b (some clauseType) = some clause ∧ OfType clauseType clause := by
  obtain ⟨key, node, hnode, htype, hattr⟩ := h
  unfold clauseByType
  rw [Option.filter_some, if_pos (by simpa using hne), Option.bind_some]
  have hfind : (b.nodes.find? fun e => e.2.nodeType = .clause &&
      (Value.get e.2.attributes "clause_type").isStr clauseType).isSome = true := by
    refine List.find?_isSome.2 ⟨(key, node), Dict.mem_of_lookup hnode, ?_⟩
    simp [htype, isStr_eq_true.2 hattr]
  obtain ⟨e, he⟩ := Option.isSome_iff_exists.1 hfind
  have hprop := List.find?_some he
  simp only [Bool.and_eq_true, decide_eq_true_eq] at hprop
  exact ⟨e.2, by rw [he]; rfl, hprop.1, isStr_eq_true.1 hprop.2⟩

theorem caused_addRisk {risk : RiskInput} {n : Nat} {clauseType : String}
    (h : Stage std contractId riskTypes b ∧ Numbered .risk IsRisk n b)
    (hclause : HasType clauseType b) (hne : clauseType ≠ "") (htype : risk.riskType ≠ "")
    (homission : risk.isOmission = false) (hrisk : risk.clauseType = some clauseType) :
    Caused clauseType (riskNode n risk).key (addRisk contractId b risk n) := by
  have href : IsRisk n (riskNode n risk).ref := ⟨_, htype, rfl⟩
  have hfresh := h.2.fresh href rfl isRisk_inj
  have hadded := (h.1.addContained List.mem_cons_self hfresh none).wf
  have hgrows := (grows_addNode b (riskNode n risk)).trans
    (grows_addEdge _ (containsEdge contractId (riskNode n risk) none))
  obtain ⟨clause, hfound, hof⟩ := clauseByType_of_hasType (hclause.grows hgrows) hne
  have hself := clauseByType_self hadded hfound
  unfold addRisk
  dsimp only
  rw [if_neg htype, hrisk, hfound, homission]
  exact ⟨clause, hself, hof, hasResolved_addEdge rfl⟩

/-- What each step of a numbered pass establishes for its own row holds for every row after it. -/
theorem foldl_numbered_each {α : Type} {I : Nat → KnowledgeGraphBuilder → Prop}
    {P : KnowledgeGraphBuilder → α → Nat → Prop}
    {f : KnowledgeGraphBuilder → α → Nat → KnowledgeGraphBuilder}
    (hI : ∀ b a n, I n b → I (n + 1) (f b a n)) (hP : ∀ b a n, I n b → P (f b a n) a n)
    (hgrows : ∀ b a n, Grows b (f b a n)) (hmono : ∀ b c a n, Grows b c → P b a n → P c a n)
    (l : List α) : ∀ (n : Nat) (b : KnowledgeGraphBuilder), I n b →
      ∀ e ∈ l.zipIdx n, P ((l.zipIdx n).foldl (fun b e => f b e.1 e.2) b) e.1 e.2 := by
  induction l with
  | nil => exact fun _ _ _ e he => absurd he List.not_mem_nil
  | cons a l ih =>
    intro n b hb e he
    rw [List.zipIdx_cons] at he ⊢
    rcases List.mem_cons.1 he with rfl | he
    · rw [List.foldl_cons]
      exact hmono _ _ _ _ (Grows.foldl (f := fun b (e : α × Nat) => f b e.1 e.2)
        (fun b e => hgrows b e.1 e.2) _ _) (hP b a n hb)
    · exact ih (n + 1) _ (hI b a n hb) e he

theorem attributed_build (input : Input) {clauseType : String} {e : RiskInput × Nat}
    (he : e ∈ input.risks.zipIdx) (hclause : HasType clauseType (listed std input))
    (hne : clauseType ≠ "") (htype : e.1.riskType ≠ "") (homission : e.1.isOmission = false)
    (hrisk : e.1.clauseType = some clauseType) :
    Attributed (result (build std finditer input)) clauseType e.1 e.2 := by
  have hstart : Stage std input.contractId riskTypes (obliged std input) :=
    (stage_obliged input).mono (List.subset_cons_self _ _)
  have hnumbered : Numbered .risk IsRisk 0 (obliged std input) :=
    Types.numbered (stage_obliged input).types (by decide)
  have hcaused := foldl_numbered_each (f := addRisk input.contractId)
    (I := fun n b => (Stage std input.contractId riskTypes b ∧ Numbered .risk IsRisk n b) ∧
      HasType clauseType b)
    (P := fun b risk n => (risk, n) = e → Caused clauseType (riskNode n risk).key b)
    (fun b risk n h => ⟨stage_addRisk risk n h.1, h.2.grows (grows_addRisk b risk n)⟩)
    (fun b risk n h heq => by
      subst heq
      exact caused_addRisk h.1 h.2 hne htype homission hrisk)
    (fun b risk n => grows_addRisk b risk n) (fun _ _ _ _ hgrows h heq => (h heq).grows hgrows)
    input.risks 0 (obliged std input)
    ⟨⟨hstart, hnumbered⟩, hclause.grows (grows_addObligations _ input)⟩ e he rfl
  have hgrows : Grows (addRisks input (obliged std input)) (build std finditer input) :=
    (grows_addGoverningLaw _ input.metadata).trans (grows_governed input)
  obtain ⟨node, hnode, hof, hedge⟩ := Caused.grows hcaused hgrows
  exact ⟨node, mem_result_nodes hnode, hof, (wf_build input).links hedge⟩

theorem Attributed.riskType_ne (input : Input) {clauseType : String} {risk : RiskInput} {n : Nat}
    (h : Attributed (result (build std finditer input)) clauseType risk n) :
    risk.riskType ≠ "" := by
  obtain ⟨clause, -, -, edge, hedge, hkey, hresolved⟩ := h
  obtain ⟨e, he, rfl⟩ := List.mem_map.1 hedge
  have hwf : Wf std (build std finditer input) := wf_build input
  obtain ⟨node, hnode, -⟩ := (hwf.anchored e he hresolved).1
  have hsource : e.2.source = (riskNode n risk).key := congrArg EdgeKey.source hkey
  have hlaw : GraphNodeType.risk ≠ .definition := by decide
  rw [hsource, nodes_build] at hnode
  unfold governed at hnode
  rw [show (riskNode n risk).key = ⟨GraphNodeType.risk.value, (riskNode n risk).ref⟩ from rfl,
    sameNodes_addGoverningLaw hlaw _ input.metadata] at hnode
  obtain ⟨m, -, hnumbered⟩ := stage_addRisks input (stage_obliged input)
  obtain ⟨j, -, u, hu, href⟩ := hnumbered _ _ hnode rfl
  obtain ⟨-, rfl⟩ := risk_ref_inj href
  exact hu

/-! ## The graph -/

/-- Every row with a number or a type is represented, and every risk that is no omission and whose
clause type some row has is attributed. -/
def Covered (g : GraphResult) (input : Input) : Prop :=
  (∀ row ∈ input.clauses, clauseRef row ≠ "" → Represented g input.contractId row) ∧
    ∀ e ∈ input.risks.zipIdx, e.1.isOmission = false → ∀ clauseType, clauseType ≠ "" →
      e.1.clauseType = some clauseType → (∃ row ∈ input.clauses, row.clauseType = clauseType) →
      Attributed g clauseType e.1 e.2

def Distinct (input : Input) : Prop :=
  ((input.clauses.map clauseRef).filter (· ≠ "")).Nodup ∧
    ∀ risk ∈ input.risks, risk.isOmission = false → ∀ clauseType, clauseType ≠ "" →
      risk.clauseType = some clauseType → (∃ row ∈ input.clauses, row.clauseType = clauseType) →
      risk.riskType ≠ ""

theorem clauseRef_ne {row : ClauseRow} (h : row.clauseType ≠ "") : clauseRef row ≠ "" := by
  unfold clauseRef
  dsimp only
  split
  · exact h
  next hnumber => exact hnumber

/-- The graph covers the clauses and the risks exactly when references are distinct. -/
theorem covered_iff (std : Stdlib) (finditer : String → String → List SectionMatch) (input : Input)
    (hids : (input.clauses.map (·.id)).Nodup) :
    Covered (result (build std finditer input)) input ↔ Distinct input := by
  have hfirst := firstOf_iff_nodup (List.Nodup.of_map _ hids)
  constructor
  · rintro ⟨hrows, hrisks⟩
    refine ⟨hfirst.1 fun row hrow href => ?_, fun risk hrisk homission t hne ht hex => ?_⟩
    · exact (represented_iff input hids hrow).1 (hrows row hrow href)
    · obtain ⟨n, hn⟩ := List.mem_iff_getElem?.1 hrisk
      have hmem := List.mk_mem_zipIdx_iff_getElem?.2 hn
      exact Attributed.riskType_ne input (hrisks (risk, n) hmem homission t hne ht hex)
  · rintro ⟨hnodup, htyped⟩
    have hrows := hfirst.2 hnodup
    refine ⟨fun row hrow href => ?_, fun e he homission t hne ht hex => ?_⟩
    · exact (represented_iff input hids hrow).2 (hrows row hrow href)
    · have htype := htyped e.1 (List.fst_mem_of_mem_zipIdx he) homission t hne ht hex
      obtain ⟨row, hrow, hrowtype⟩ := hex
      have href : clauseRef row ≠ "" := clauseRef_ne (by rw [hrowtype]; exact hne)
      have hlookup : (listed std input).nodes.lookup
          ⟨GraphNodeType.clause.value, clauseRef row⟩ = some (clauseNode row) := by
        rw [lookup_listed, hrows row hrow href]
        rfl
      have hof : OfType t (clauseNode row) := ⟨rfl, congrArg Value.str hrowtype⟩
      exact attributed_build input he ⟨_, _, hlookup, hof⟩ hne htype homission ht

def numbered (second : String) : Input where
  contractId := 0
  clauses :=
    [{ id := 1, contractId := 0, projectId := 0, clauseType := "termination"
       textContent := "", clauseNumber := some "9" },
      { id := 2, contractId := 0, projectId := 0, clauseType := "assignment"
        textContent := "", clauseNumber := some second }]
  risks := [{ id := 3, riskType := "notice", severity := .high, clauseType := some "assignment" }]

theorem covered_numbered :
    Covered (result (build Stdlib.ascii sectionNine (numbered "10"))) (numbered "10") := by
  refine (covered_iff Stdlib.ascii sectionNine (numbered "10") (by decide)).2 ⟨?_, ?_⟩
  · decide +kernel
  · intro risk hrisk _ _ _ _ _
    rw [List.mem_singleton.1 hrisk]
    decide

/-- Of two clauses read from one number, the second has no node. -/
theorem not_covered :
    ¬ Covered (result (build Stdlib.ascii sectionNine (numbered "9"))) (numbered "9") := by
  rintro ⟨hrows, -⟩
  have hids : ((numbered "9").clauses.map (·.id)).Nodup := by decide
  have hduplicate : ¬ (((numbered "9").clauses.map clauseRef).filter (· ≠ "")).Nodup := by
    decide +kernel
  refine hduplicate ((firstOf_iff_nodup (List.Nodup.of_map _ hids)).1 fun row hrow href => ?_)
  exact (represented_iff (numbered "9") hids hrow).1 (hrows row hrow href)

end KnowledgeGraphBuilder

end Clear
