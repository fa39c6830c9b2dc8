import Clear.Ai.Graph.Proof.WellFormed

/-!
# Every reference is an edge or is listed

Resolution adds edges and entries, and changes nothing that it reads (`SameIndex`), so what a
reference resolves to does not depend on the references before it.

* `wellFormed_build`: the graph of any rows is well formed. The text of a clause that has neither a
  number nor a type is not read.
-/

namespace Clear

namespace KnowledgeGraphBuilder

variable {std : Stdlib} {finditer : String → String → List SectionMatch}
  {b c d : KnowledgeGraphBuilder} {node : GraphNode}

/-! ## Resolution -/

structure SameIndex (b c : KnowledgeGraphBuilder) : Prop where
  nodes : c.nodes = b.nodes
  partyIndex : c.partyIndex = b.partyIndex
  clauseIndex : c.clauseIndex = b.clauseIndex

theorem SameIndex.refl (b : KnowledgeGraphBuilder) : SameIndex b b := ⟨rfl, rfl, rfl⟩

theorem SameIndex.trans (h : SameIndex b c) (h' : SameIndex c d) : SameIndex b d :=
  ⟨h'.nodes.trans h.nodes, h'.partyIndex.trans h.partyIndex, h'.clauseIndex.trans h.clauseIndex⟩

theorem SameIndex.foldl {α : Type} {f : KnowledgeGraphBuilder → α → KnowledgeGraphBuilder}
    (h : ∀ b a, SameIndex b (f b a)) (l : List α) (b : KnowledgeGraphBuilder) :
    SameIndex b (l.foldl f b) := by
  induction l generalizing b with
  | nil => exact .refl b
  | cons a l ih => exact (h b a).trans (ih _)

theorem resolveReference_congr (h : SameIndex b c) (ref hintedType : String) :
    resolveReference std finditer c ref hintedType =
      resolveReference std finditer b ref hintedType := by
  unfold resolveReference resolveParty
  rw [h.nodes, h.partyIndex, h.clauseIndex]

theorem resolveReference_self (h : Wf std b) {ref hintedType : String}
    (hnode : resolveReference std finditer b ref hintedType = some node) :
    b.nodes.lookup node.key = some node := by
  unfold resolveReference at hnode
  dsimp only at hnode
  split at hnode
  next party hparty =>
    cases hnode
    split at hparty
    · exact resolveParty_self h hparty
    · cases hparty
  · split at hnode
    · exact h.lookup_self hnode
    · obtain ⟨e, he, rfl⟩ := Option.map_eq_some_iff.1 hnode
      exact find_self h he

theorem grows_listUnmatched (b : KnowledgeGraphBuilder) (relation : GraphRelation) (ref : String)
    (node : Option GraphNode) : Grows b (b.listUnmatched relation ref node) := by
  unfold listUnmatched
  split
  · exact .refl b
  · exact ⟨fun _ _ h => h, fun _ h => h, List.subset_append_left _ _⟩

theorem sameIndex_listUnmatched (b : KnowledgeGraphBuilder) (relation : GraphRelation)
    (ref : String) (node : Option GraphNode) : SameIndex b (b.listUnmatched relation ref node) := by
  unfold listUnmatched
  split <;> exact ⟨rfl, rfl, rfl⟩

theorem Wf.listUnmatched (h : Wf std b) (relation : GraphRelation) (ref : String)
    (node : Option GraphNode) : Wf std (b.listUnmatched relation ref node) := by
  unfold KnowledgeGraphBuilder.listUnmatched
  split <;> exact ⟨h.nodeKeys, h.nodeKey, h.edgeKeys, h.edgeKey, h.anchored, h.indexed⟩

theorem mem_listUnmatched (b : KnowledgeGraphBuilder) (relation : GraphRelation) (ref : String) :
    ∃ entry ∈ (b.listUnmatched relation ref none).dangling,
      entry.reference = ref ∧ entry.relation = relation :=
  ⟨_, List.mem_append_right _ (List.mem_singleton_self _), rfl, rfl⟩

theorem grows_resolveExtracted (b : KnowledgeGraphBuilder) (r : KnowledgeRelationship) :
    Grows b (resolveExtracted std finditer b r) := by
  unfold resolveExtracted
  dsimp only
  split
  · exact .refl b
  · exact ((grows_listUnmatched b _ _ _).trans (grows_listUnmatched _ _ _ _)).trans
      (grows_addEdge _ _)

theorem sameIndex_resolveExtracted (b : KnowledgeGraphBuilder) (r : KnowledgeRelationship) :
    SameIndex b (resolveExtracted std finditer b r) := by
  unfold resolveExtracted
  dsimp only
  split
  · exact .refl b
  · exact ((sameIndex_listUnmatched b _ _ _).trans (sameIndex_listUnmatched _ _ _ _)).trans
      ⟨rfl, rfl, rfl⟩

theorem holds_endpoint (h : Wf std b) {ref hintedType : String}
    (hsome : (resolveReference std finditer b ref hintedType).isSome = true) :
    b.Holds (endpoint (resolveReference std finditer b ref hintedType) hintedType ref)
      ((resolveReference std finditer b ref hintedType).bind (·.rowId)) := by
  cases hnode : resolveReference std finditer b ref hintedType with
  | none =>
    rw [hnode] at hsome
    cases hsome
  | some node => exact holds_self (resolveReference_self h hnode)

theorem wf_resolveExtracted (b : KnowledgeGraphBuilder) (r : KnowledgeRelationship) (h : Wf std b) :
    Wf std (resolveExtracted std finditer b r) := by
  unfold resolveExtracted
  dsimp only
  split
  · exact h
  · refine ((h.listUnmatched _ _ _).listUnmatched _ _ _).addEdge fun hresolved => .inr ?_
    have hboth := Bool.and_eq_true_iff.1 hresolved
    have hgrows := (grows_listUnmatched b r.relation (Text.strip r.sourceRef)
      (resolveReference std finditer b (Text.strip r.sourceRef) r.sourceType)).trans
      (grows_listUnmatched _ r.relation (Text.strip r.targetRef)
        (resolveReference std finditer b (Text.strip r.targetRef) r.targetType))
    exact ⟨hgrows.holds (holds_endpoint h hboth.1), hgrows.holds (holds_endpoint h hboth.2)⟩

/-- What became of an extracted relationship: each end that matches no node is listed, and if both
match there is a resolved edge. -/
structure Settled (std : Stdlib) (finditer : String → String → List SectionMatch)
    (b c : KnowledgeGraphBuilder) (r : KnowledgeRelationship) : Prop where
  source : resolveReference std finditer b (Text.strip r.sourceRef) r.sourceType = none →
    ∃ entry ∈ c.dangling, entry.reference = Text.strip r.sourceRef ∧ entry.relation = r.relation
  target : resolveReference std finditer b (Text.strip r.targetRef) r.targetType = none →
    ∃ entry ∈ c.dangling, entry.reference = Text.strip r.targetRef ∧ entry.relation = r.relation
  edge : ∀ source target,
    resolveReference std finditer b (Text.strip r.sourceRef) r.sourceType = some source →
    resolveReference std finditer b (Text.strip r.targetRef) r.targetType = some target →
    c.HasResolved ⟨r.relation, source.key, target.key⟩

theorem settled_resolveExtracted (b : KnowledgeGraphBuilder) (r : KnowledgeRelationship)
    (hsource : Text.strip r.sourceRef ≠ "") (htarget : Text.strip r.targetRef ≠ "") :
    Settled std finditer b (resolveExtracted std finditer b r) r := by
  unfold resolveExtracted
  dsimp only
  rw [if_neg (not_or.2 ⟨hsource, htarget⟩)]
  constructor
  · intro hnone
    rw [hnone]
    obtain ⟨entry, hentry, hfacts⟩ := mem_listUnmatched b r.relation (Text.strip r.sourceRef)
    exact ⟨entry, (grows_listUnmatched _ _ _ _).dangling hentry, hfacts⟩
  · intro hnone
    rw [hnone]
    exact mem_listUnmatched _ r.relation (Text.strip r.targetRef)
  · intro source target hs ht
    rw [hs, ht]
    exact hasResolved_addEdge rfl

theorem Settled.grows {r : KnowledgeRelationship} (h : Settled std finditer b c r)
    (hgrows : Grows c d) : Settled std finditer b d r where
  source hnone := by
    obtain ⟨entry, hentry, hfacts⟩ := h.source hnone
    exact ⟨entry, hgrows.dangling hentry, hfacts⟩
  target hnone := by
    obtain ⟨entry, hentry, hfacts⟩ := h.target hnone
    exact ⟨entry, hgrows.dangling hentry, hfacts⟩
  edge source target hs ht := hgrows.resolved _ (h.edge source target hs ht)

theorem Settled.congr {r : KnowledgeRelationship} {b' : KnowledgeGraphBuilder}
    (h : Settled std finditer b c r) (hsame : SameIndex b b') :
    Settled std finditer b' c r := by
  constructor
  · rw [resolveReference_congr hsame]
    exact h.source
  · rw [resolveReference_congr hsame]
    exact h.target
  · rw [resolveReference_congr hsame, resolveReference_congr hsame]
    exact h.edge

/-! ## Cross-references -/

theorem grows_linkReference (own : String) (source : GraphNode) (b : KnowledgeGraphBuilder)
    (m : SectionMatch) : Grows b (linkReference std own source b m) := by
  unfold linkReference
  dsimp only
  split
  · exact .refl b
  · split
    · exact ⟨fun _ _ h => h, fun _ h => h, List.subset_append_left _ _⟩
    · exact grows_addEdge b _

theorem sameIndex_linkReference (own : String) (source : GraphNode) (b : KnowledgeGraphBuilder)
    (m : SectionMatch) : SameIndex b (linkReference std own source b m) := by
  unfold linkReference
  dsimp only
  split
  · exact .refl b
  · split <;> exact ⟨rfl, rfl, rfl⟩

theorem wf_linkReference {own : String} {source : GraphNode} (h : Wf std b)
    (hsource : b.nodes.lookup source.key = some source) (m : SectionMatch) :
    Wf std (linkReference std own source b m) := by
  unfold linkReference
  dsimp only
  split
  · exact h
  · split
    · exact ⟨h.nodeKeys, h.nodeKey, h.edgeKeys, h.edgeKey, h.anchored, h.indexed⟩
    next target htarget =>
      refine h.addEdge fun _ => .inr ⟨holds_self hsource, ?_⟩
      obtain ⟨-, node, hnode⟩ := h.indexed _ (Dict.mem_of_lookup htarget)
      refine ⟨node, hnode, fun row hrow => ?_⟩
      show (b.nodes.lookup _).bind (·.rowId) = some row
      rw [hnode]
      exact hrow

structure Linked (std : Stdlib) (b c : KnowledgeGraphBuilder) (source : NodeKey)
    (m : SectionMatch) : Prop where
  edge : ∀ target, b.clauseIndex.lookup (normaliseNumber std m.number) = some target →
    c.HasResolved ⟨.references, source, ⟨GraphNodeType.clause.value, target⟩⟩
  listed : b.clauseIndex.lookup (normaliseNumber std m.number) = none →
    ∃ entry ∈ c.dangling, entry.reference = m.text ∧ entry.relation = .references

theorem Linked.grows {source : NodeKey} {m : SectionMatch} (h : Linked std b c source m)
    (hgrows : Grows c d) : Linked std b d source m where
  edge target htarget := hgrows.resolved _ (h.edge target htarget)
  listed hnone := by
    obtain ⟨entry, hentry, hfacts⟩ := h.listed hnone
    exact ⟨entry, hgrows.dangling hentry, hfacts⟩

theorem Linked.congr {source : NodeKey} {m : SectionMatch} {b' : KnowledgeGraphBuilder}
    (h : Linked std b c source m) (hsame : SameIndex b' b) : Linked std b' c source m := by
  constructor
  · rw [← hsame.clauseIndex]
    exact h.edge
  · rw [← hsame.clauseIndex]
    exact h.listed

theorem linked_linkReference {own : String} (source : GraphNode) (b : KnowledgeGraphBuilder)
    {m : SectionMatch} (hnumber : normaliseNumber std m.number ≠ "")
    (hown : normaliseNumber std m.number ≠ own) :
    Linked std b (linkReference std own source b m) source.key m := by
  unfold linkReference
  dsimp only
  rw [if_neg (not_or.2 ⟨hnumber, hown⟩)]
  constructor
  · intro target htarget
    rw [htarget]
    exact hasResolved_addEdge rfl
  · intro hnone
    rw [hnone]
    exact ⟨_, List.mem_append_right _ (List.mem_singleton_self _), rfl, rfl⟩

theorem linkReferences {own : String} {source : GraphNode} (l : List SectionMatch)
    (b : KnowledgeGraphBuilder) (h : Wf std b) (hsource : b.nodes.lookup source.key = some source) :
    Wf std (l.foldl (linkReference std own source) b) ∧
      ∀ m ∈ l, normaliseNumber std m.number ≠ "" → normaliseNumber std m.number ≠ own →
        Linked std b (l.foldl (linkReference std own source) b) source.key m := by
  induction l generalizing b with
  | nil => exact ⟨h, fun m hm => absurd hm List.not_mem_nil⟩
  | cons head l ih =>
    have hgrows : Grows b (linkReference std own source b head) := grows_linkReference own source b _
    have hsame : SameIndex b (linkReference std own source b head) :=
      sameIndex_linkReference own source b _
    obtain ⟨hwf, hlinked⟩ := ih _ (wf_linkReference h hsource head)
      (hgrows.nodes _ _ hsource)
    refine ⟨hwf, fun m hm hnumber hown => ?_⟩
    rcases List.mem_cons.1 hm with rfl | hm
    · exact (linked_linkReference source b hnumber hown).grows
        (Grows.foldl (grows_linkReference own source) l _)
    · exact (hlinked m hm hnumber hown).congr hsame

theorem grows_linkClause (b : KnowledgeGraphBuilder) (clause : ClauseRow) :
    Grows b (linkClause std finditer b clause) := by
  unfold linkClause
  split
  · exact .refl b
  · split
    · exact .refl b
    · exact Grows.foldl (grows_linkReference _ _) _ b

theorem sameIndex_linkClause (b : KnowledgeGraphBuilder) (clause : ClauseRow) :
    SameIndex b (linkClause std finditer b clause) := by
  unfold linkClause
  split
  · exact .refl b
  · split
    · exact .refl b
    · exact SameIndex.foldl (sameIndex_linkReference _ _) _ b

theorem wf_linkClause (b : KnowledgeGraphBuilder) (clause : ClauseRow) (h : Wf std b) :
    Wf std (linkClause std finditer b clause) := by
  unfold linkClause
  split
  · exact h
  · split
    · exact h
    next source hsource => exact (linkReferences _ b h (h.lookup_self hsource)).1

theorem linked_linkClause (h : Wf std b) {clause : ClauseRow}
    (hnode : ∃ n, b.nodes.lookup ⟨GraphNodeType.clause.value, clauseRef clause⟩ = some n)
    (htext : clause.textContent ≠ "") {m : SectionMatch}
    (hm : m ∈ finditer sectionReference clause.textContent)
    (hnumber : normaliseNumber std m.number ≠ "")
    (hown : normaliseNumber std m.number ≠ normaliseNumber std (clause.clauseNumber.getD "")) :
    Linked std b (linkClause std finditer b clause)
      ⟨GraphNodeType.clause.value, clauseRef clause⟩ m := by
  obtain ⟨source, hsource⟩ := hnode
  unfold linkClause
  rw [if_neg htext, hsource]
  rw [← h.lookup_key hsource]
  exact (linkReferences _ b h (h.lookup_self hsource)).2 m hm hnumber hown

/-! ## The whole graph -/

/-- What each step establishes for its own row holds for every row after the pass. -/
theorem foldl_each {α : Type} {I : KnowledgeGraphBuilder → Prop}
    {P : KnowledgeGraphBuilder → α → Prop} {f : KnowledgeGraphBuilder → α → KnowledgeGraphBuilder}
    (hI : ∀ b a, I b → I (f b a)) (hP : ∀ b a, I b → P (f b a) a) (hgrows : ∀ b a, Grows b (f b a))
    (hmono : ∀ b c a, Grows b c → P b a → P c a) (l : List α) (b : KnowledgeGraphBuilder)
    (hb : I b) : ∀ a ∈ l, P (l.foldl f b) a := by
  induction l generalizing b with
  | nil => exact fun a ha => absurd ha List.not_mem_nil
  | cons x l ih =>
    intro a ha
    rcases List.mem_cons.1 ha with rfl | ha
    · exact hmono _ _ _ (Grows.foldl hgrows l _) (hP b a hb)
    · exact ih _ (hI b x hb) a ha

theorem stage_start (input : Input) :
    Stage std input.contractId [.contract]
      (({} : KnowledgeGraphBuilder).addNode (contractNode input)) := by
  have hempty : Wf std {} :=
    ⟨List.nodup_nil, fun _ he => absurd he List.not_mem_nil, List.nodup_nil,
      fun _ he => absurd he List.not_mem_nil, fun _ he => absurd he List.not_mem_nil,
      fun _ he => absurd he List.not_mem_nil⟩
  have hnone : Types {} [.contract] := fun _ he => absurd he List.not_mem_nil
  exact ⟨hempty.addNode _, holds_addNode rfl, hnone.addNode List.mem_cons_self⟩

theorem stage_addParties (input : Input) (h : Stage std input.contractId [.contract] b) :
    Stage std input.contractId (.contract :: partyTypes) (addParties std input b) := by
  have hattached : Attached partyTypes (⟨.belongsTo, ·, contractKey input.contractId⟩) b :=
    h.types.attached (by decide)
  have hstage : Stage std input.contractId (.contract :: partyTypes) b := h.mono (by decide)
  exact (foldl_keeps (f := addParty std input.contractId)
    (I := fun b => Stage std input.contractId (.contract :: partyTypes) b ∧
      Attached partyTypes (⟨.belongsTo, ·, contractKey input.contractId⟩) b)
    (fun _ party hb => stage_addParty party hb) input.parties b ⟨hstage, hattached⟩).1

theorem stage_addClauses (input : Input)
    (h : Stage std input.contractId (.contract :: partyTypes) b) :
    Stage std input.contractId clauseTypes (addClauses std input b) ∧
      Attached [.clause] (⟨.contains, contractKey input.contractId, ·⟩) (addClauses std input b) := by
  have hattached : Attached [.clause] (⟨.contains, contractKey input.contractId, ·⟩) b :=
    h.types.attached (by decide)
  exact foldl_keeps (f := addClause std input.contractId)
    (I := fun b => Stage std input.contractId clauseTypes b ∧
      Attached [.clause] (⟨.contains, contractKey input.contractId, ·⟩) b)
    (fun _ clause hb => stage_addClause clause hb) input.clauses b
    ⟨h.mono (List.subset_cons_self _ _), hattached⟩

theorem Types.numbered {types : List GraphNodeType} {t : GraphNodeType}
    {ref : Nat → String → Prop} (h : b.Types types) (hnew : ∀ s ∈ types, s.value ≠ t.value) :
    Numbered t ref 0 b := by
  intro key node hnode htype
  obtain ⟨s, hs, heq⟩ := h _ (key_mem hnode)
  exact absurd (heq.symm.trans htype) (hnew s hs)

theorem stage_addObligations (input : Input) (h : Stage std input.contractId clauseTypes b) :
    Stage std input.contractId obligationTypes (addObligations std input b) := by
  obtain ⟨n, hn⟩ := foldl_numbered (f := addObligation std input.contractId)
    (I := fun n b => Stage std input.contractId obligationTypes b ∧
      Numbered .obligation IsObligation n b)
    (fun _ obligation n hb => stage_addObligation obligation n hb) input.obligations 0 b
    ⟨h.mono (List.subset_cons_self _ _), h.types.numbered (by decide)⟩
  exact hn.1

theorem stage_addRisks (input : Input) (h : Stage std input.contractId obligationTypes b) :
    ∃ n, Stage std input.contractId riskTypes (addRisks input b) ∧
      Numbered .risk IsRisk n (addRisks input b) :=
  foldl_numbered (f := addRisk input.contractId)
    (I := fun n b => Stage std input.contractId riskTypes b ∧ Numbered .risk IsRisk n b)
    (fun _ risk n hb => stage_addRisk risk n hb) input.risks 0 b
    ⟨h.mono (List.subset_cons_self _ _), h.types.numbered (by decide)⟩

/-- What there is before the obligations. -/
def listed (std : Stdlib) (input : Input) : KnowledgeGraphBuilder :=
  addClauses std input
    (addParties std input (({} : KnowledgeGraphBuilder).addNode (contractNode input)))

/-- What there is before the risks. -/
def obliged (std : Stdlib) (input : Input) : KnowledgeGraphBuilder :=
  addObligations std input (listed std input)

/-- What the structural passes have built. -/
def governed (std : Stdlib) (input : Input) : KnowledgeGraphBuilder :=
  addGoverningLaw std input.contractId (addRisks input (obliged std input)) input.metadata

def related (std : Stdlib) (finditer : String → String → List SectionMatch) (input : Input) :
    KnowledgeGraphBuilder :=
  input.relationships.foldl (resolveExtracted std finditer) (governed std input)

theorem build_eq (input : Input) :
    build std finditer input =
      input.clauses.foldl (linkClause std finditer) (related std finditer input) := by
  rfl

theorem stage_listed (input : Input) :
    Stage std input.contractId clauseTypes (listed std input) ∧
      Attached [.clause] (⟨.contains, contractKey input.contractId, ·⟩) (listed std input) :=
  stage_addClauses input (stage_addParties input (stage_start input))

theorem stage_obliged (input : Input) :
    Stage std input.contractId obligationTypes (obliged std input) :=
  stage_addObligations input (stage_listed input).1

theorem wf_governed (input : Input) : Wf std (governed std input) := by
  obtain ⟨n, hrisks, -⟩ := stage_addRisks input (stage_obliged input)
  exact (stage_addGoverningLaw hrisks input.metadata).wf

theorem wf_related (input : Input) : Wf std (related std finditer input) :=
  foldl_keeps wf_resolveExtracted input.relationships _ (wf_governed input)

theorem wf_build (input : Input) : Wf std (build std finditer input) := by
  rw [build_eq]
  exact foldl_keeps wf_linkClause input.clauses _ (wf_related input)

theorem sameIndex_build (input : Input) :
    SameIndex (related std finditer input) (build std finditer input) := by
  rw [build_eq]
  exact SameIndex.foldl sameIndex_linkClause input.clauses _

theorem grows_build (input : Input) :
    Grows (related std finditer input) (build std finditer input) := by
  rw [build_eq]
  exact Grows.foldl grows_linkClause input.clauses _

theorem exists_addClause (b : KnowledgeGraphBuilder) {clause : ClauseRow} {contractId : Uuid}
    (href : clauseRef clause ≠ "") :
    ∃ n, (addClause std contractId b clause).nodes.lookup
      ⟨GraphNodeType.clause.value, clauseRef clause⟩ = some n := by
  unfold addClause
  rw [if_neg href]
  obtain ⟨n, hn⟩ := exists_addNode b (clauseNode clause)
  exact ⟨n, (grows_addEdge _ _).nodes _ _ ((grows_indexClause _ clause).nodes _ _ hn)⟩

theorem exists_addClauses (b : KnowledgeGraphBuilder) (input : Input) {clause : ClauseRow}
    (hclause : clause ∈ input.clauses) (href : clauseRef clause ≠ "") :
    ∃ n, (addClauses std input b).nodes.lookup
      ⟨GraphNodeType.clause.value, clauseRef clause⟩ = some n :=
  foldl_each (f := addClause std input.contractId) (I := fun _ => True)
    (P := fun b clause => clauseRef clause ≠ "" →
      ∃ n, b.nodes.lookup ⟨GraphNodeType.clause.value, clauseRef clause⟩ = some n)
    (fun _ _ _ => trivial) (fun b _ _ href => exists_addClause b href)
    grows_addClause
    (fun _ _ _ hgrows h href => (h href).imp fun _ hn => hgrows.nodes _ _ hn)
    input.clauses b trivial clause hclause href

theorem grows_addObligations (b : KnowledgeGraphBuilder) (input : Input) :
    Grows b (addObligations std input b) :=
  Grows.foldl (f := fun b (e : Obligation × Nat) => addObligation std input.contractId b e.1 e.2)
    (fun b e => grows_addObligation b e.1 e.2) input.obligations.zipIdx b

theorem grows_addRisks (b : KnowledgeGraphBuilder) (input : Input) :
    Grows b (addRisks input b) :=
  Grows.foldl (f := fun b (e : RiskInput × Nat) => addRisk input.contractId b e.1 e.2)
    (fun b e => grows_addRisk b e.1 e.2) input.risks.zipIdx b

theorem grows_listed (input : Input) : Grows (listed std input) (governed std input) :=
  ((grows_addObligations _ input).trans (grows_addRisks _ input)).trans
    (grows_addGoverningLaw _ input.metadata)

theorem exists_clause (input : Input) {clause : ClauseRow} (hclause : clause ∈ input.clauses)
    (href : clauseRef clause ≠ "") :
    ∃ n, (governed std input).nodes.lookup ⟨GraphNodeType.clause.value, clauseRef clause⟩ =
      some n := by
  obtain ⟨n, hn⟩ : ∃ n, (listed std input).nodes.lookup
      ⟨GraphNodeType.clause.value, clauseRef clause⟩ = some n :=
    exists_addClauses _ input hclause href
  exact ⟨n, (grows_listed input).nodes _ _ hn⟩

theorem sameIndex_related (input : Input) :
    SameIndex (governed std input) (related std finditer input) :=
  SameIndex.foldl sameIndex_resolveExtracted input.relationships _

theorem SameIndex.symm (h : SameIndex b c) : SameIndex c b :=
  ⟨h.nodes.symm, h.partyIndex.symm, h.clauseIndex.symm⟩

theorem settled_later {b₀ : KnowledgeGraphBuilder} (r : KnowledgeRelationship)
    (h : SameIndex b₀ b) (hsource : Text.strip r.sourceRef ≠ "")
    (htarget : Text.strip r.targetRef ≠ "") :
    Settled std finditer b₀ (resolveExtracted std finditer b r) r :=
  Settled.congr (settled_resolveExtracted b r hsource htarget) h.symm

theorem settled_build (input : Input) {r : KnowledgeRelationship} (hr : r ∈ input.relationships)
    (hsource : Text.strip r.sourceRef ≠ "") (htarget : Text.strip r.targetRef ≠ "") :
    Settled std finditer (build std finditer input) (build std finditer input) r := by
  have hall := foldl_each (f := resolveExtracted std finditer)
    (I := fun b => SameIndex (governed std input) b)
    (P := fun c x => x = r → Settled std finditer (governed std input) c r)
    (fun b x h => SameIndex.trans h (sameIndex_resolveExtracted b x))
    (fun b x h heq => by
      subst heq
      exact settled_later x h hsource htarget)
    grows_resolveExtracted (fun _ _ _ hgrows h heq => Settled.grows (h heq) hgrows)
    input.relationships (governed std input) (.refl _) r hr rfl
  have hsame : SameIndex (governed std input) (build std finditer input) :=
    (sameIndex_related input).trans (sameIndex_build input)
  have hbuilt : Settled std finditer (governed std input) (build std finditer input) r :=
    Settled.grows hall (grows_build input)
  exact hbuilt.congr hsame

theorem linked_build (input : Input) {clause : ClauseRow} (hclause : clause ∈ input.clauses)
    (href : clauseRef clause ≠ "") (htext : clause.textContent ≠ "") {m : SectionMatch}
    (hm : m ∈ finditer sectionReference clause.textContent)
    (hnumber : normaliseNumber std m.number ≠ "")
    (hown : normaliseNumber std m.number ≠ normaliseNumber std (clause.clauseNumber.getD "")) :
    Linked std (build std finditer input) (build std finditer input)
      ⟨GraphNodeType.clause.value, clauseRef clause⟩ m := by
  obtain ⟨n, hn⟩ : ∃ n, (governed std input).nodes.lookup
      ⟨GraphNodeType.clause.value, clauseRef clause⟩ = some n := exists_clause input hclause href
  rw [← (sameIndex_related input).nodes] at hn
  have hall := foldl_each (f := linkClause std finditer)
    (I := fun c => Wf std c ∧ SameIndex (related std finditer input) c)
    (P := fun c row => row = clause →
      Linked std (related std finditer input) c ⟨GraphNodeType.clause.value, clauseRef clause⟩ m)
    (fun b row h => ⟨wf_linkClause b row h.1, h.2.trans (sameIndex_linkClause b row)⟩)
    (fun b row h heq => by
      subst heq
      have hnode : b.nodes.lookup ⟨GraphNodeType.clause.value, clauseRef row⟩ = some n := by
        rw [h.2.nodes]
        exact hn
      exact (linked_linkClause h.1 ⟨n, hnode⟩ htext hm hnumber hown).congr h.2)
    (fun b row => grows_linkClause b row)
    (fun _ _ _ hgrows h heq => (h heq).grows hgrows)
    input.clauses _ ⟨wf_related input, .refl _⟩ clause hclause rfl
  rw [← build_eq] at hall
  exact hall.congr (sameIndex_build input).symm

end KnowledgeGraphBuilder

/-! ## The result -/

namespace GraphResult

def Ends (g : GraphResult) (key : NodeKey) (id : Option Uuid) : Prop :=
  ∃ node ∈ g.nodes, node.key = key ∧ ∀ row, node.rowId = some row → id = some row

def Links (g : GraphResult) (key : EdgeKey) : Prop :=
  ∃ edge ∈ g.edges, edge.key = key ∧ edge.isResolved = true

def Lists (g : GraphResult) (reference : String) (relation : GraphRelation) : Prop :=
  ∃ entry ∈ g.dangling, entry.reference = reference ∧ entry.relation = relation

end GraphResult

namespace KnowledgeGraphBuilder

def CrossReferenced (std : Stdlib) (finditer : String → String → List SectionMatch)
    (g : GraphResult) (clause : ClauseRow) : Prop :=
  clause.textContent ≠ "" → ∀ m ∈ finditer sectionReference clause.textContent,
    normaliseNumber std m.number ≠ "" →
    normaliseNumber std m.number ≠ normaliseNumber std (clause.clauseNumber.getD "") →
    (∃ target ∈ g.nodes, target.nodeType = .clause ∧
      normaliseNumber std target.ref = normaliseNumber std m.number ∧
      g.Links ⟨.references, ⟨GraphNodeType.clause.value, clauseRef clause⟩, target.key⟩) ∨
    g.Lists m.text .references

/-- What became of an extracted relationship whose references are not blank: each end that matches no
node is listed, and between two nodes there is a resolved edge. -/
def Extracted (std : Stdlib) (finditer : String → String → List SectionMatch)
    (b : KnowledgeGraphBuilder) (r : KnowledgeRelationship) : Prop :=
  let source := resolveReference std finditer b (Text.strip r.sourceRef) r.sourceType
  let target := resolveReference std finditer b (Text.strip r.targetRef) r.targetType
  (source = none → (result b).Lists (Text.strip r.sourceRef) r.relation) ∧
    (target = none → (result b).Lists (Text.strip r.targetRef) r.relation) ∧
    ∀ x ∈ source, ∀ y ∈ target, x ∈ (result b).nodes ∧ y ∈ (result b).nodes ∧
      (result b).Links ⟨r.relation, x.key, y.key⟩

/-- Keys are unique, resolved edges end in nodes whose rows they name, and extracted relationships
are accounted for. -/
structure WellFormed (std : Stdlib) (finditer : String → String → List SectionMatch)
    (relationships : List KnowledgeRelationship) (b : KnowledgeGraphBuilder) : Prop where
  nodeKeys : ((result b).nodes.map GraphNode.key).Nodup
  edgeKeys : ((result b).edges.map GraphEdge.key).Nodup
  resolved : ∀ edge ∈ (result b).edges, edge.isResolved = true →
    (result b).Ends edge.source edge.sourceId ∧ (result b).Ends edge.target edge.targetId
  extracted : ∀ r ∈ relationships, Text.strip r.sourceRef ≠ "" → Text.strip r.targetRef ≠ "" →
    Extracted std finditer b r

theorem map_key {α β : Type} {l : List (α × β)} {f : β → α} (h : ∀ e ∈ l, f e.2 = e.1) :
    (l.map (·.2)).map f = l.map (·.1) := by
  rw [List.map_map]
  exact List.map_congr_left h

theorem mem_result_nodes {key : NodeKey} (h : b.nodes.lookup key = some node) :
    node ∈ (result b).nodes := List.mem_map_of_mem (Dict.mem_of_lookup h)

theorem Wf.links {key : EdgeKey} (h : Wf std b) (hkey : b.HasResolved key) :
    (result b).Links key := by
  obtain ⟨edge, hedge, hresolved⟩ := hkey
  have hmem := Dict.mem_of_lookup hedge
  exact ⟨edge, List.mem_map_of_mem hmem, h.edgeKey _ hmem, hresolved⟩

theorem Wf.ends {key : NodeKey} {id : Option Uuid} (h : Wf std b) (hkey : b.Holds key id) :
    (result b).Ends key id := by
  obtain ⟨node, hnode, hrow⟩ := hkey
  exact ⟨node, mem_result_nodes hnode, h.lookup_key hnode, hrow⟩

theorem wellFormed (input : Input) :
    WellFormed std finditer input.relationships (build std finditer input) := by
  have hwf : Wf std (build std finditer input) := wf_build input
  constructor
  · show (List.map _ (List.map _ _)).Nodup
    rw [map_key hwf.nodeKey]
    exact hwf.nodeKeys
  · show (List.map _ (List.map _ _)).Nodup
    rw [map_key hwf.edgeKey]
    exact hwf.edgeKeys
  · intro edge hedge hresolved
    obtain ⟨e, he, rfl⟩ := List.mem_map.1 hedge
    obtain ⟨hsource, htarget⟩ := hwf.anchored e he hresolved
    exact ⟨hwf.ends hsource, hwf.ends htarget⟩
  · intro r hr hsource htarget
    have hsettled : Settled std finditer (build std finditer input) (build std finditer input) r :=
      settled_build input hr hsource htarget
    refine ⟨hsettled.source, hsettled.target, fun x hx y hy => ⟨?_, ?_, ?_⟩⟩
    · exact mem_result_nodes (resolveReference_self hwf hx)
    · exact mem_result_nodes (resolveReference_self hwf hy)
    · exact hwf.links (hsettled.edge x y hx hy)

theorem crossReferenced (input : Input) {clause : ClauseRow} (hclause : clause ∈ input.clauses)
    (href : clauseRef clause ≠ "") :
    CrossReferenced std finditer (result (build std finditer input)) clause := by
  intro htext m hm hnumber hown
  have hwf : Wf std (build std finditer input) := wf_build input
  have hlinked : Linked std (build std finditer input) (build std finditer input)
      ⟨GraphNodeType.clause.value, clauseRef clause⟩ m :=
    linked_build input hclause href htext hm hnumber hown
  cases htarget : (build std finditer input).clauseIndex.lookup (normaliseNumber std m.number) with
  | none => exact .inr (hlinked.listed htarget)
  | some target =>
    obtain ⟨hnum, node, hnode⟩ := hwf.indexed _ (Dict.mem_of_lookup htarget)
    have hkey : node.key = ⟨GraphNodeType.clause.value, target⟩ := hwf.lookup_key hnode
    refine .inl ⟨node, mem_result_nodes hnode, ?_, ?_, ?_⟩
    · exact GraphNodeType.value_inj.1 (congrArg NodeKey.nodeType hkey)
    · have href : node.ref = target := congrArg NodeKey.ref hkey
      rw [href]
      exact hnum
    · rw [hkey]
      exact hwf.links (hlinked.edge target htarget)

/-- The graph of any rows is well formed, and the references in the text of a clause that has a
number or a type are accounted for. -/
theorem wellFormed_build (std : Stdlib) (finditer : String → String → List SectionMatch)
    (input : Input) :
    WellFormed std finditer input.relationships (build std finditer input) ∧
      ∀ clause ∈ input.clauses, clauseRef clause ≠ "" →
        CrossReferenced std finditer (result (build std finditer input)) clause :=
  ⟨wellFormed input, fun _ hclause href => crossReferenced input hclause href⟩

def untyped : ClauseRow :=
  { id := ⟨1⟩, contractId := ⟨0⟩, projectId := ⟨0⟩, clauseType := ""
    textContent := "As set out in Section 9." }

def sectionNine (_ text : String) : List SectionMatch :=
  if text = "As set out in Section 9." then [{ text := "Section 9", number := "9" }] else []

/-- The text of such a clause is not read: what it refers to is neither an edge nor listed. -/
theorem crossReference_unread :
    ∃ clause ∈ [untyped], ¬ CrossReferenced Stdlib.ascii sectionNine
      (result (build Stdlib.ascii sectionNine { contractId := ⟨0⟩, clauses := [untyped] }))
      clause := by
  have hedges : (result (build Stdlib.ascii sectionNine
      { contractId := ⟨0⟩, clauses := [untyped] })).edges.isEmpty = true := by decide +kernel
  have hdangling : (result (build Stdlib.ascii sectionNine
      { contractId := ⟨0⟩, clauses := [untyped] })).dangling.isEmpty = true := by decide +kernel
  have hmatch : (⟨"Section 9", "9"⟩ : SectionMatch) ∈
      sectionNine sectionReference untyped.textContent := List.mem_singleton_self _
  refine ⟨untyped, List.mem_singleton_self _, fun h => ?_⟩
  rcases h (by decide) _ hmatch (by decide +kernel) (by decide +kernel) with
    ⟨_, _, _, _, edge, hedge, _⟩ | ⟨entry, hentry, _⟩
  · rw [List.isEmpty_iff.1 hedges] at hedge
    exact List.not_mem_nil hedge
  · rw [List.isEmpty_iff.1 hdangling] at hentry
    exact List.not_mem_nil hentry

end KnowledgeGraphBuilder

end Clear
