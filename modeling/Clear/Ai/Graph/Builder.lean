import Clear.Core.Stdlib
import Clear.Models.Identity
import Clear.Repositories.ContractMetadata
import Clear.Repositories.Knowledge

/-!
# Knowledge graph builder

`app/ai/graph/builder.py`: the graph of one contract, from its extracted rows. Seven passes add nodes
and edges; of two nodes with one key the first stays, of two edges the resolved one. What a pattern
of `re` finds is a parameter.
-/

namespace Clear

structure NodeKey where
  nodeType : String
  ref : String
  deriving DecidableEq

structure GraphNode where
  nodeType : GraphNodeType
  /-- Stable reference within the contract: a clause number, a party name, an id. -/
  ref : String
  label : String
  /-- The database row this node stands for. -/
  rowId : Option Uuid := none
  attributes : ValueDict := []

def GraphNode.key (node : GraphNode) : NodeKey := ⟨node.nodeType.value, node.ref⟩

inductive EdgeOrigin where
  | derived | extracted | both
  deriving DecidableEq

structure EdgeKey where
  relation : GraphRelation
  source : NodeKey
  target : NodeKey
  deriving DecidableEq

structure GraphEdge where
  relation : GraphRelation
  source : NodeKey
  target : NodeKey
  label : Option String := none
  sourceId : Option Uuid := none
  targetId : Option Uuid := none
  attributes : ValueDict := []
  /-- Both endpoints resolved to a known node. -/
  isResolved : Bool := false
  origin : EdgeOrigin := .derived

def GraphEdge.key (edge : GraphEdge) : EdgeKey := ⟨edge.relation, edge.source, edge.target⟩

/-- A reference the text made that no node satisfies. -/
structure DanglingReference where
  reference : String
  relation : GraphRelation
  reason : String

structure GraphResult where
  nodes : List GraphNode
  edges : List GraphEdge
  dangling : List DanglingReference
  warnings : List String

structure RiskInput where
  id : Uuid
  riskType : String
  severity : RiskSeverity
  description : String := ""
  isOmission : Bool := false
  clauseType : Option String := none

structure SectionMatch where
  text : String
  number : String

/-- `_SECTION_REFERENCE`, which ignores case: how contracts cross-reference. -/
def sectionReference : String :=
  r"\b(?:section|clause|article|paragraph|schedule|exhibit|annex(?:ure)?|appendix)\s+" ++
    r"(?P<number>[0-9]+(?:\.[0-9]+)*|[IVXLCDM]+|[A-Z])\b"

/-- `_PARTY_ARTICLE.sub("", text)`: a leading "the" is dropped. -/
def dropArticle (text : String) : String :=
  match text.toList.dropWhile Text.isSpace with
  | t :: h :: e :: space :: rest =>
    if t.toLower = 't' ∧ h.toLower = 'h' ∧ e.toLower = 'e' ∧ Text.isSpace space = true then
      String.ofList (rest.dropWhile Text.isSpace)
    else text
  | _ => text

/-- What the passes have built, and the indexes that resolution reads. -/
structure KnowledgeGraphBuilder where
  nodes : List (NodeKey × GraphNode) := []
  edges : List (EdgeKey × GraphEdge) := []
  dangling : List DanglingReference := []
  /-- Lower-cased party names and aliases. -/
  partyIndex : List (String × String) := []
  /-- Clause numbers. -/
  clauseIndex : List (String × String) := []

namespace KnowledgeGraphBuilder

/-! ## Collection -/

def addNode (b : KnowledgeGraphBuilder) (node : GraphNode) : KnowledgeGraphBuilder :=
  { b with nodes := Dict.setDefault b.nodes node.key node }

def corroborate (edge : GraphEdge) : GraphEdge :=
  { edge with
    attributes := Dict.assign edge.attributes "corroborated" (.bool true)
    origin := .both }

/-- The better of two edges: a resolved one beats an unresolved one, otherwise the first stands. -/
def better (existing edge : GraphEdge) : GraphEdge :=
  let winner := if edge.isResolved && !existing.isResolved then edge else existing
  if existing.origin = edge.origin then winner else corroborate winner

def merged (b : KnowledgeGraphBuilder) (edge : GraphEdge) : GraphEdge :=
  match b.edges.lookup edge.key with
  | none => edge
  | some existing => better existing edge

def addEdge (b : KnowledgeGraphBuilder) (edge : GraphEdge) : KnowledgeGraphBuilder :=
  { b with edges := Dict.assign b.edges edge.key (b.merged edge) }

def addDangling (b : KnowledgeGraphBuilder) (entry : DanglingReference) : KnowledgeGraphBuilder :=
  { b with dangling := b.dangling ++ [entry] }

/-! ## Helpers -/

section
variable (std : Stdlib) (finditer : (pattern text : String) → List SectionMatch)

def partyNodeType (role : Option String) : GraphNodeType :=
  let lowered := std.lower (role.getD "")
  if (role.getD "") = "" then .party
  else if lowered ∈ ["vendor", "supplier", "service_provider", "licensor", "contractor"] then
    .vendor
  else if lowered ∈ ["customer", "licensee", "tenant", "employer"] then .customer
  else .party

def normaliseNumber (value : String) : String :=
  std.upper (String.ofList
    ((Text.strip value).toList.reverse.dropWhile fun c => c = '.' || c = ')').reverse)

def clauseRef (clause : ClauseRow) : String :=
  let number := Text.strip (clause.clauseNumber.getD "")
  if number = "" then clause.clauseType else number

/-- The first `n` characters of a text that is not empty, or of another. -/
def labelOf (text fallback : String) : String := Text.take 120 (if text = "" then fallback else text)

/-! ## Looking nodes up -/

def resolveParty (b : KnowledgeGraphBuilder) (name : Option String) : Option GraphNode :=
  match name.filter (· ≠ "") with
  | none => none
  | some name =>
    let lowered := std.lower (Text.strip name)
    let exact := ((b.partyIndex.lookup lowered).filter (· ≠ "")).or
      (b.partyIndex.lookup (dropArticle lowered))
    -- substring match, for "Acme Corporation Ltd" against "Acme Corporation"
    let candidate := exact.or <| (b.partyIndex.find? fun known =>
      known.1 ≠ "" && (Text.contains known.1 lowered || Text.contains lowered known.1)).map (·.2)
    candidate.bind fun candidate =>
      [GraphNodeType.party, .vendor, .customer].findSome? fun nodeType =>
        b.nodes.lookup ⟨nodeType.value, candidate⟩

def resolveReference (b : KnowledgeGraphBuilder) (ref hintedType : String) : Option GraphNode :=
  let lowered := std.lower (Text.strip ref)
  let party :=
    if hintedType ∈ ["party", "vendor", "customer"] || (b.partyIndex.lookup lowered).isSome then
      resolveParty std b (some ref)
    else none
  match party with
  | some node => some node
  | none =>
    let number := normaliseNumber std
      (((finditer sectionReference ref).head?.map (·.number)).getD ref)
    match (b.clauseIndex.lookup number).filter (· ≠ "") with
    | some clause => b.nodes.lookup ⟨GraphNodeType.clause.value, clause⟩
    | none => (b.nodes.find? fun e => std.lower e.2.ref = lowered).map (·.2)

def clauseByType (b : KnowledgeGraphBuilder) (clauseType : Option String) : Option GraphNode :=
  (clauseType.filter (· ≠ "")).bind fun clauseType =>
    (b.nodes.find? fun e => e.2.nodeType = .clause &&
      (Value.get e.2.attributes "clause_type").isStr clauseType).map (·.2)

/-! ## Nodes and structural edges -/

variable (contractId : Uuid)

def contractKey : NodeKey := ⟨GraphNodeType.contract.value, contractId.str⟩

def indexParty (b : KnowledgeGraphBuilder) (name : String) (aliases : List String) :
    KnowledgeGraphBuilder :=
  let named := Dict.assign b.partyIndex (std.lower name) name
  { b with
    partyIndex := aliases.foldl (fun index alternative =>
      let text := std.lower (Text.strip alternative)
      if text = "" then index
      else Dict.assign (Dict.assign index text name) (dropArticle text) name) named }

def partyNode (party : EntityRow) : GraphNode where
  nodeType := partyNodeType std party.role
  ref := Text.strip party.name
  label := Text.strip party.name
  rowId := some party.id
  attributes :=
    [("role", .ofStr? party.role), ("is_primary", .bool party.isPrimary),
      ("jurisdiction", .ofStr? party.jurisdiction)]

def addParty (b : KnowledgeGraphBuilder) (party : EntityRow) : KnowledgeGraphBuilder :=
  let name := Text.strip party.name
  if name = "" then b
  else
    ((b.addNode (partyNode std party)).indexParty std name party.aliases).addEdge
      { relation := .belongsTo
        source := (partyNode std party).key
        target := contractKey contractId
        label := party.role
        sourceId := some party.id
        targetId := some contractId
        isResolved := true }

def clauseNode (clause : ClauseRow) : GraphNode where
  nodeType := .clause
  ref := clauseRef clause
  label :=
    if (clause.title.getD "") = "" then
      String.ofList (clause.clauseType.toList.map fun c => if c = '_' then ' ' else c)
    else clause.title.getD ""
  rowId := some clause.id
  attributes :=
    [("clause_type", .str clause.clauseType),
      ("clause_number",
        .ofStr? ((clause.clauseNumber.map Text.strip).filter (· ≠ ""))),
      ("is_risk_flagged", .bool clause.isRiskFlagged),
      ("page_start", .ofInt? (clause.pageStart.map Int.ofNat)),
      ("extracted", .dict clause.attributes)]

def indexClause (b : KnowledgeGraphBuilder) (clause : ClauseRow) : KnowledgeGraphBuilder :=
  let number := Text.strip (clause.clauseNumber.getD "")
  if number = "" then b
  else
    { b with
      clauseIndex :=
        Dict.assign b.clauseIndex (normaliseNumber std number) (clauseRef clause) }

def containsEdge (node : GraphNode) (label : Option String) : GraphEdge where
  relation := .contains
  source := contractKey contractId
  target := node.key
  label := label
  sourceId := some contractId
  targetId := node.rowId
  isResolved := true

def addClause (b : KnowledgeGraphBuilder) (clause : ClauseRow) : KnowledgeGraphBuilder :=
  if clauseRef clause = "" then b
  else
    ((b.addNode (clauseNode clause)).indexClause std clause).addEdge
      (containsEdge contractId (clauseNode clause) (some clause.clauseType))

def obligationNode (index : Nat) (obligation : Obligation) : GraphNode where
  nodeType := .obligation
  ref := "obligation-" ++ toString index
  label := Text.take 120 (Text.strip obligation.action)
  rowId := some obligation.id
  attributes :=
    [("responsible_party", .ofStr? obligation.responsibleParty),
      ("due_date", .ofStr? (obligation.dueDate.map std.isoformat)),
      ("due_description", .ofStr? obligation.dueDescription),
      ("is_recurring", .bool obligation.isRecurring)]

/-- Who owes an obligation. -/
def assignEdge (node party : GraphNode) : GraphEdge where
  relation := .assignedTo
  source := node.key
  target := party.key
  sourceId := node.rowId
  targetId := party.rowId
  isResolved := true

def addObligation (b : KnowledgeGraphBuilder) (obligation : Obligation) (index : Nat) :
    KnowledgeGraphBuilder :=
  if Text.strip obligation.action = "" then b
  else
    let node := obligationNode std index obligation
    let b := (b.addNode node).addEdge (containsEdge contractId node none)
    match resolveParty std b obligation.responsibleParty with
    | none => b
    | some party => b.addEdge (assignEdge node party)

def riskNode (index : Nat) (risk : RiskInput) : GraphNode where
  nodeType := .risk
  ref := "risk-" ++ toString index ++ "-" ++ risk.riskType
  label := labelOf risk.description risk.riskType
  rowId := some risk.id
  attributes :=
    [("risk_type", .str risk.riskType), ("severity", .str risk.severity.value),
      ("is_omission", .bool risk.isOmission), ("clause_type", .ofStr? risk.clauseType)]

def causeEdge (node clause : GraphNode) : GraphEdge where
  relation := .dependsOn
  source := node.key
  target := clause.key
  sourceId := node.rowId
  targetId := clause.rowId
  isResolved := true

def addRisk (b : KnowledgeGraphBuilder) (risk : RiskInput) (index : Nat) :
    KnowledgeGraphBuilder :=
  if risk.riskType = "" then b
  else
    let node := riskNode index risk
    let b := (b.addNode node).addEdge (containsEdge contractId node none)
    match clauseByType b risk.clauseType with
    | none => b
    | some clause => if risk.isOmission then b else b.addEdge (causeEdge node clause)

def governingLaw (b : KnowledgeGraphBuilder) (metadata : Option ContractMetadata) : Value :=
  let law := (metadata.map (·.value .governingLaw)).getD .null
  if law.truthy then law
  else
    match clauseByType b (some "governing_law") with
    | none => law
    | some clause =>
      let extracted := ((Value.get clause.attributes "extracted").asDict?).getD []
      (Value.get extracted "governing_law").or (Value.get extracted "country")

def lawNode (law : String) : GraphNode where
  nodeType := .definition
  ref := law
  label := law
  attributes := [("kind", .str "governing_law")]

def addGoverningLaw (b : KnowledgeGraphBuilder) (metadata : Option ContractMetadata) :
    KnowledgeGraphBuilder :=
  let law := Text.strip (((governingLaw b metadata).or (.str "")).text std)
  if law = "" then b
  else
    (b.addNode (lawNode law)).addEdge
      { relation := .governedBy
        source := contractKey contractId
        target := (lawNode law).key
        sourceId := some contractId
        isResolved := true }

/-! ## Resolution -/

/-- The end of an extracted edge: the node, or what the text says. -/
def endpoint (node : Option GraphNode) (hintedType ref : String) : NodeKey :=
  match node with
  | some node => node.key
  | none => ⟨if hintedType = "" then "term" else hintedType, ref⟩

def listUnmatched (b : KnowledgeGraphBuilder) (relation : GraphRelation) (ref : String)
    (node : Option GraphNode) : KnowledgeGraphBuilder :=
  match node with
  | some _ => b
  | none => b.addDangling
      { reference := ref
        relation
        reason := "no node in this contract matches this reference" }

/-- Turn the string references of one relationship into an edge, resolved where possible. -/
def resolveExtracted (b : KnowledgeGraphBuilder) (relationship : KnowledgeRelationship) :
    KnowledgeGraphBuilder :=
  let sourceRef := Text.strip relationship.sourceRef
  let targetRef := Text.strip relationship.targetRef
  if sourceRef = "" ∨ targetRef = "" then b
  else
    let source := resolveReference std finditer b sourceRef relationship.sourceType
    let target := resolveReference std finditer b targetRef relationship.targetType
    ((b.listUnmatched relationship.relation sourceRef source).listUnmatched
        relationship.relation targetRef target).addEdge
      { relation := relationship.relation
        source := endpoint source relationship.sourceType sourceRef
        target := endpoint target relationship.targetType targetRef
        label := relationship.label
        sourceId := source.bind (·.rowId)
        targetId := target.bind (·.rowId)
        isResolved := source.isSome && target.isSome
        origin := .extracted
        attributes := relationship.attributes }

def referenceEdge (b : KnowledgeGraphBuilder) (source : GraphNode) (targetRef text : String) :
    GraphEdge where
  relation := .references
  source := source.key
  target := ⟨GraphNodeType.clause.value, targetRef⟩
  label := some text
  sourceId := source.rowId
  targetId := (b.nodes.lookup ⟨GraphNodeType.clause.value, targetRef⟩).bind (·.rowId)
  isResolved := true

def linkReference (ownNumber : String) (source : GraphNode) (b : KnowledgeGraphBuilder)
    (m : SectionMatch) : KnowledgeGraphBuilder :=
  let number := normaliseNumber std m.number
  -- a clause referring to itself is a drafting artefact, not an edge
  if number = "" ∨ number = ownNumber then b
  else
    match b.clauseIndex.lookup number with
    | none => b.addDangling
        { reference := m.text
          relation := .references
          reason := "the referenced clause was not extracted" }
    | some targetRef => b.addEdge (referenceEdge b source targetRef m.text)

def linkClause (b : KnowledgeGraphBuilder) (clause : ClauseRow) : KnowledgeGraphBuilder :=
  if clause.textContent = "" then b
  else
    match b.nodes.lookup ⟨GraphNodeType.clause.value, clauseRef clause⟩ with
    | none => b
    | some source =>
      (finditer sectionReference clause.textContent).foldl
        (linkReference std (normaliseNumber std (clause.clauseNumber.getD "")) source) b

/-! ## The graph -/

/-- What a graph is built from. -/
structure Input where
  contractId : Uuid
  contractTitle : Option String := none
  agreementType : Option String := none
  parties : List EntityRow := []
  clauses : List ClauseRow := []
  obligations : List Obligation := []
  risks : List RiskInput := []
  relationships : List KnowledgeRelationship := []
  metadata : Option ContractMetadata := none

def contractNode (input : Input) : GraphNode where
  nodeType := .contract
  ref := input.contractId.str
  label := if (input.contractTitle.getD "") = "" then "Contract" else input.contractTitle.getD ""
  rowId := some input.contractId
  attributes :=
    [("agreement_type", .ofStr? input.agreementType),
      ("risk_band", (input.metadata.map (·.value .riskBand)).getD .null),
      ("risk_score", (input.metadata.map (·.value .riskScore)).getD .null)]

def addParties (input : Input) (b : KnowledgeGraphBuilder) : KnowledgeGraphBuilder :=
  input.parties.foldl (addParty std input.contractId) b

def addClauses (input : Input) (b : KnowledgeGraphBuilder) : KnowledgeGraphBuilder :=
  input.clauses.foldl (addClause std input.contractId) b

def addObligations (input : Input) (b : KnowledgeGraphBuilder) : KnowledgeGraphBuilder :=
  input.obligations.zipIdx.foldl (fun b e => addObligation std input.contractId b e.1 e.2) b

def addRisks (input : Input) (b : KnowledgeGraphBuilder) : KnowledgeGraphBuilder :=
  input.risks.zipIdx.foldl (fun b e => addRisk input.contractId b e.1 e.2) b

def build (input : Input) : KnowledgeGraphBuilder :=
  let structural := addRisks input (addObligations std input (addClauses std input
    (addParties std input ({ : KnowledgeGraphBuilder }.addNode (contractNode input)))))
  let governed := addGoverningLaw std input.contractId structural input.metadata
  let extracted := input.relationships.foldl (resolveExtracted std finditer) governed
  input.clauses.foldl (linkClause std finditer) extracted

/-- What `build` returns. -/
def result (b : KnowledgeGraphBuilder) : GraphResult where
  nodes := b.nodes.map (·.2)
  edges := b.edges.map (·.2)
  dangling := b.dangling
  warnings :=
    if b.dangling.isEmpty then []
    else
      [toString b.dangling.length ++ " reference(s) in the text could not be resolved to " ++
        "anything in this contract - they may point at a schedule or agreement that has not " ++
        "been uploaded."]

end

end KnowledgeGraphBuilder

end Clear
