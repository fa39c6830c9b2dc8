import Clear.Core.Enums
import Clear.Core.Stdlib
import Clear.Core.Uuid
import Mathlib.Data.Rat.Defs

/-!
# Retrieval planner

What to retrieve and how (`app/ai/retrieval/planner.py`): the intent of the question, the strategy,
the metadata filters it implies and the budget of each level. The explanations collected on the way
are left out.
-/

namespace Clear

/-! ## The plan -/

structure MetadataFilter where
  agreementTypes : List String := []
  riskBands : List String := []
  clauseTypes : List String := []
  parties : List String := []
  expiringBefore : Option Date := none
  expiringAfter : Option Date := none
  effectiveAfter : Option Date := none
  hasUnlimitedLiability : Option Bool := none
  missingMandatory : Option Bool := none
  contractIds : List Uuid := []
  deriving DecidableEq

def MetadataFilter.isEmpty (f : MetadataFilter) : Bool :=
  f.agreementTypes.isEmpty && f.riskBands.isEmpty && f.clauseTypes.isEmpty && f.parties.isEmpty &&
    f.expiringBefore.isNone && f.expiringAfter.isNone && f.effectiveAfter.isNone &&
    f.hasUnlimitedLiability.isNone && f.missingMandatory.isNone && f.contractIds.isEmpty

/-- How many candidates to take from one level of the hierarchy. -/
structure LevelBudget where
  level : EmbeddingLevel
  limit : Nat
  minSimilarity : Rat
  deriving DecidableEq

/-- The decision: executed by the retrieval engine, never by the planner. -/
structure RetrievalPlan where
  query : String
  intent : QueryIntent
  strategy : RetrievalStrategy
  scope : SearchScope
  mode : SearchMode
  projectIds : List Uuid := []
  contractIds : List Uuid := []
  filters : MetadataFilter := {}
  levels : List LevelBudget := []
  neighbourWindow : Nat := 1
  graphDepth : Nat := 0
  rerank : Bool := false
  deriving DecidableEq

def RetrievalPlan.isScoped (p : RetrievalPlan) : Bool := !p.projectIds.isEmpty

/-! ## The rules -/

def intentPatterns : List (QueryIntent × List String) :=
  [(.comparison,
      [r"\bcompare\b", r"\bversus\b", r"\bvs\.?\b", r"\bdifference between\b", r"\bdiffer\b",
        r"\bwhich (?:one|contract) (?:is|has) (?:better|more|less)\b"]),
    (.timeline,
      [r"\bexpir\w*\b", r"\brenew\w*\b", r"\bdeadline\b", r"\bwhen (?:does|do|will|is)\b",
        r"\bnext (?:quarter|month|year|\d+ days)\b", r"\bupcoming\b", r"\btimeline\b",
        r"\bdue (?:date|by)\b", r"\bnotice period\b", r"\bcoming up\b"]),
    (.riskAssessment,
      [r"\brisk\w*\b", r"\bexposure\b", r"\bunlimited liability\b", r"\buncapped\b",
        r"\bdangerous\b", r"\bconcern\w*\b", r"\bred flag\b", r"\bproblematic\b"]),
    (.obligationLookup,
      [r"\bobligation\w*\b", r"\bwhat must\b", r"\bwho (?:is )?responsible\b", r"\brequired to\b",
        r"\bdeliverable\w*\b", r"\bwe (?:have|need) to\b", r"\bcommitment\w*\b"]),
    (.financial,
      [r"\bfee\w*\b", r"\bprice\w*\b", r"\bpayment\b", r"\bcost\w*\b", r"\bvalue\b",
        r"\binvoice\b", r"\bhow much\b", r"\bspend\w*\b", r"\bbudget\b"]),
    (.compliance,
      [r"\bcomply\w*\b", r"\bcompliance\b", r"\bgdpr\b", r"\bregulat\w+\b", r"\bpolicy\b",
        r"\bmandatory\b", r"\bmissing clause\w*\b", r"\baudit\b"]),
    (.relationship,
      [r"\brelated to\b", r"\bconnect\w+\b", r"\breference\w*\b", r"\bdepend\w+\b",
        r"\blinked\b", r"\bamend\w*\b", r"\bsupersede\w*\b", r"\bschedule\b"]),
    (.summarization,
      [r"\bsummar\w+\b", r"\boverview\b", r"\bexplain\b", r"\bwhat (?:is|are) this\b",
        r"\bkey (?:points|terms)\b", r"\btell me about\b", r"\bbrief\w*\b"]),
    (.clauseLookup,
      [r"\bclause\w*\b", r"\bsection \d", r"\bprovision\w*\b", r"\bterm\w*\b",
        r"\bindemnit\w+\b", r"\bliabilit\w+\b", r"\bterminat\w+\b", r"\bconfidential\w*\b",
        r"\bgoverning law\b", r"\bwarrant\w+\b", r"\bexclusiv\w+\b", r"\bassign\w+\b"]),
    (.metadataLookup,
      [r"\bhow many\b", r"\blist (?:all|the|every)\b", r"\bshow me (?:all|every)\b",
        r"\bcount\b", r"\bwhich contracts\b", r"\ball contracts\b", r"\bfilter\b"])]

def intentStrategy : QueryIntent → RetrievalStrategy
  | .metadataLookup | .timeline => .metadataOnly
  | .clauseLookup | .obligationLookup | .comparison => .clauseRetrieval
  | .riskAssessment | .summarization | .compliance => .metadataPlusDocument
  | .relationship => .graphTraversal
  | .financial | .generalQa => .hybrid

def clauseHints : List (String × List String) :=
  [("limitation_of_liability",
      ["liability", "liabilities", "cap", "capped", "uncapped", "consequential damages",
        "limitation of liability"]),
    ("indemnification",
      ["indemnity", "indemnities", "indemnify", "indemnification", "hold harmless"]),
    ("intellectual_property",
      ["ip", "intellectual property", "work product", "copyright", "patent", "ownership of work"]),
    ("payment_terms", ["payment", "invoice", "net 30", "fees", "pay", "payable"]),
    ("term", ["term", "duration", "how long", "commencement"]),
    ("auto_renewal", ["renewal", "renew", "auto-renew", "evergreen"]),
    ("governing_law", ["governing law", "jurisdiction", "applicable law", "venue"]),
    ("dispute_resolution", ["arbitration", "dispute", "litigation", "mediation", "seat"]),
    ("confidentiality", ["confidential", "nda", "non-disclosure", "secrecy"]),
    ("termination_for_convenience",
      ["terminate for convenience", "termination for convenience", "walk away", "exit"]),
    ("termination_for_cause",
      ["terminate for cause", "termination for cause", "breach", "cure period"]),
    ("force_majeure", ["force majeure", "act of god", "pandemic", "epidemic"]),
    ("non_solicitation", ["non-solicit", "non solicit", "poach", "solicitation"]),
    ("exclusivity", ["exclusive", "exclusivity"]),
    ("assignment", ["assign", "assignment", "change of control", "novation"]),
    ("audit_rights", ["audit", "inspect", "records"]),
    ("insurance", ["insurance", "coverage", "insured"]),
    ("data_protection", ["gdpr", "data protection", "personal data", "privacy", "dpa"]),
    ("warranty", ["warranty", "warranties", "represent"]),
    ("liquidated_damages", ["liquidated damages", "penalty", "penalties"]),
    ("license_grant", ["licence", "license", "grant of rights"]),
    ("survival", ["survive", "survival", "surviving"]),
    ("notice", ["notice", "notify", "notification"])]

/-- Relative time expressions and the days of their unit. -/
def periodPatterns : List (String × Nat) :=
  [(r"\bnext (\d+) days?\b", 1), (r"\bnext (\d+) months?\b", 30), (r"\bnext (\d+) weeks?\b", 7),
    (r"\bnext quarter\b", 90), (r"\bnext month\b", 30), (r"\bnext year\b", 365),
    (r"\bthis quarter\b", 90), (r"\bthis month\b", 30), (r"\bthis year\b", 365),
    (r"\bwithin (\d+) days?\b", 1), (r"\bcoming (\d+) months?\b", 30)]

def riskBands : List String := ["high", "medium", "low"]

def clauseNumber : String := r"\b(?:clause|section|article)\s+(?P<number>\d+(?:\.\d+)*)\b"

/-! ## The planner -/

structure RetrievalSettings where
  maxDocuments : Nat := 25
  maxClauses : Nat := 40
  maxChunks : Nat := 20
  similarityFloor : EmbeddingLevel → Rat
  graphMaxDepth : Nat
  rerankerEnabled : Bool
  rerankTopK : Nat
  documentTypeConfidenceThreshold : Rat

structure QueryAnalysis where
  intent : QueryIntent := .generalQa
  confidence : Rat := 0
  /-- The label that the model chose. -/
  documentType : Option String := none
  reasoning : String := ""
  method : AnalysisMethod := .unavailable
  /-- Served from the cache. -/
  cached : Bool := false

structure ResolvedDocumentType where
  label : String
  agreementType : String

/-- The planner, with `re.search`: the groups of the first match. `searchAnyCase` ignores case. -/
structure RetrievalPlanner where
  settings : RetrievalSettings
  today : Date
  lower : String → String
  search : (pattern text : String) → Option (List String)
  searchAnyCase : (pattern text : String) → Option (List String)

namespace RetrievalPlanner

variable (planner : RetrievalPlanner)

def withDocumentType (agreementTypes : List String) (analysis : Option QueryAnalysis)
    (documentType : Option ResolvedDocumentType) : List String :=
  if !agreementTypes.isEmpty then agreementTypes
  else
    match documentType with
    | none => agreementTypes
    | some documentType =>
      let confidence := (analysis.map (·.confidence)).getD 0
      if confidence < planner.settings.documentTypeConfidenceThreshold then agreementTypes
      else [documentType.agreementType]

def detectIntent (query : String) (analysis : Option QueryAnalysis) : QueryIntent :=
  let lowered := planner.lower query
  match intentPatterns.find? fun e => e.2.any fun p => (planner.search p lowered).isSome with
  | some (intent, _) => intent
  | none => (analysis.map (·.intent)).getD .generalQa

def selectStrategy (intent : QueryIntent) (query : String) (scope : SearchScope)
    (contractIds : List Uuid) (preferContent : Bool) : RetrievalStrategy :=
  let strategy := intentStrategy intent
  if (planner.searchAnyCase clauseNumber query).isSome then .clauseRetrieval
  else if preferContent && strategy = .metadataOnly then .hybrid
  else if scope = .contract && strategy = .metadataOnly then .hybrid
  else if !contractIds.isEmpty && strategy = .metadataOnly then .hybrid
  else strategy

/-- Turn "next quarter" or "within 60 days" into a number of days. A number that `int` refuses leaves
the pattern out. -/
def resolvePeriod (lowered : String) : Option Int :=
  periodPatterns.findSome? fun (pattern, multiplier) =>
    match planner.search pattern lowered with
    | none => none
    | some [] => some multiplier
    | some (group :: _) => (Text.toInt? group).map (· * multiplier)

/-- The filters that the question implies; absent where the window leaves the calendar. -/
def extractFilters (query : String) (agreementTypes : List String) (contractIds : List Uuid) :
    Option MetadataFilter :=
  let lowered := planner.lower query
  let found pattern := (planner.search pattern lowered).isSome
  let filters : MetadataFilter :=
    { agreementTypes
      contractIds
      clauseTypes := (clauseHints.filter fun e => e.2.any (Text.contains · lowered)).map (·.1)
      riskBands := riskBands.filter fun band =>
        found (r"\b" ++ band ++ r"[- ]risk\b") ||
          found (r"\brisk (?:is |band )?" ++ band ++ r"\b")
      hasUnlimitedLiability :=
        if found r"\bunlimited liabilit\w*\b|\buncapped\b" then some true else none
      missingMandatory :=
        if found r"\bmissing clause\w*\b|\bmissing mandatory\b|\bincomplete\b" then some true
        else none }
  match planner.resolvePeriod lowered with
  | none => some filters
  | some window =>
    (planner.today.addDays? window).map fun last =>
      { filters with expiringAfter := some planner.today, expiringBefore := some last }

/-- How many candidates each level yields. -/
def levelBudgets (strategy : RetrievalStrategy) (scope : SearchScope) (levelLimit : Option Nat)
    (namedContracts : Bool) : List LevelBudget :=
  let settings := planner.settings
  let budget level limit : LevelBudget :=
    { level, limit := levelLimit.getD limit, minSimilarity := settings.similarityFloor level }
  if strategy = .metadataOnly then []
  else
    (if !namedContracts && strategy ∈ [.metadataPlusDocument, .hybrid, .graphTraversal] then
        [budget .documentSummary (settings.maxDocuments * if scope = .application then 2 else 1)]
      else []) ++
    (if strategy ∈ [.clauseRetrieval, .hybrid, .metadataPlusDocument, .graphTraversal] then
        [budget .clause settings.maxClauses]
      else []) ++
    [budget .chunk settings.maxChunks]

/-- How far to widen a retrieved chunk. -/
def neighbourWindow (intent : QueryIntent) : Nat :=
  if intent ∈ [.summarization, .comparison] then 2
  else if intent ∈ [.metadataLookup, .timeline] then 0
  else 1

/-- What a caller asks for besides the question. -/
structure Request where
  projectIds : List Uuid
  scope : SearchScope := .project
  contractIds : List Uuid := []
  mode : SearchMode := .hybrid
  agreementTypes : List String := []
  analysis : Option QueryAnalysis := none
  documentType : Option ResolvedDocumentType := none
  levelLimit : Option Nat := none
  preferContent : Bool := false
  forAnswer : Bool := false

/-- Turn a question into a plan; absent where the date window overflows. -/
def plan (query : String) (request : Request) : Option RetrievalPlan :=
  let text := Text.strip query
  let agreementTypes :=
    planner.withDocumentType request.agreementTypes request.analysis request.documentType
  let intent := planner.detectIntent text request.analysis
  let strategy :=
    planner.selectStrategy intent text request.scope request.contractIds request.preferContent
  let levels := planner.levelBudgets strategy request.scope request.levelLimit
    (!request.contractIds.isEmpty && request.forAnswer)
  (planner.extractFilters text agreementTypes request.contractIds).map fun filters =>
    { query := text
      intent
      strategy
      scope := request.scope
      mode := request.mode
      projectIds := request.projectIds
      contractIds := request.contractIds
      filters
      levels
      neighbourWindow := neighbourWindow intent
      graphDepth := if strategy = .graphTraversal then planner.settings.graphMaxDepth else 0
      rerank := planner.settings.rerankerEnabled && strategy ≠ .metadataOnly }

variable {planner}

end RetrievalPlanner

end Clear
