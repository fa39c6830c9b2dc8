import Clear.Ai.Rag.Providers
import Clear.Ai.Retrieval.Engine

/-!
# Context assembly

`ContextAssembler.assemble` (`app/ai/retrieval/context.py`): the evidence that fits the budget, in
order of admission, each item under its label.
-/

namespace Clear

namespace Retrieval

/-! ## History -/

def Turn.cost (turn : Turn) : Nat := estimateTokens (turn.content.getD "") + 8

def keepTurns (ceiling : Nat) : (spent : Nat) → (kept : Bool) → List Turn → List Turn
  | _, _, [] => []
  | spent, kept, turn :: turns =>
    if ceiling < spent + turn.cost && kept then []
    else turn :: keepTurns ceiling (spent + turn.cost) true turns

def trimHistory (budget : Nat) (history : List Turn) : List Turn :=
  let recent := history.drop (history.length - 6)
  if budget = 0 then recent
  else (keepTurns (budget * 15 / 100) 0 false recent.reverse).reverse

/-! ## Order of admission -/

def prefersClauses (intent : QueryIntent) : Bool :=
  intent ∈ [.clauseLookup, .comparison, .riskAssessment, .compliance]

def levelRank (intent : QueryIntent) (item : Evidence) : Int :=
  -- neighbours are context, not answers: they go last regardless of rank
  if item.source ∈ [.neighbour, .graph] then 1
  else if prefersClauses intent && item.level = .clause then -1
  else 0

/-- The tie-break is the position in the retrieved list. -/
def prioritise (evidence : List Evidence) (intent : QueryIntent) : List Evidence :=
  evidence.insertionSort fun a b => levelRank intent a ≤ levelRank intent b

/-! ## Admission -/

/-- A row of the pre-filter as the facts that a prompt shows. -/
def MetadataRow.ofCandidate (std : Stdlib) (row : Candidate) : MetadataRow where
  contractId := row.1.contractId
  title := row.2.title
  agreementType := row.2.agreementType
  riskBand := row.1.str? .riskBand
  effectiveDate := (row.1.date? .effectiveDate).map std.isoformat
  expirationDate := (row.1.date? .expirationDate).map std.isoformat
  contractValue := ((row.1.value .contractValue).real?).filter (· ≠ 0)
  currency := row.1.str? .currency
  partyA := row.1.str? .partyA
  partyB := row.1.str? .partyB
  missingMandatoryClauses := (row.1.list .missingMandatoryClauses).map (·.text std)

/-- What the loop over the evidence carries. -/
structure Admission where
  citations : List Citation := []
  dropped : Nat := 0
  spent : Nat

def minItems : Nat := 3

def Evidence.citation (item : Evidence) (label : Nat) : Citation where
  label
  contractId := item.contractId
  contractTitle := item.contractTitle
  text := Text.strip item.text
  clauseType := item.clauseType
  clauseNumber := item.clauseNumber
  sectionTitle := item.sectionTitle
  pageStart := item.pageStart
  pageEnd := item.pageEnd
  source := item.source
  similarity := item.similarity
  rerankScore := item.rerankScore

def admitItem (budget maxCitations : Nat) (state : Admission) (item : Evidence) : Admission :=
  let label := state.citations.length + 1
  let cost := estimateTokens (Text.strip item.text) + 30
  if maxCitations < label then { state with dropped := state.dropped + 1 }
  else if Text.strip item.text = "" then state
  else if (budget / 4 < cost || budget < state.spent + cost) && minItems < label then
    { state with dropped := state.dropped + 1 }
  else
    { state with
      citations := state.citations ++ [item.citation label]
      spent := state.spent + cost }

def droppedWarning (dropped : Nat) : String :=
  toString dropped ++ " retrieved passage(s) did not fit the context budget and were not used."

def emptyWarning : String := "No evidence was available for this question."

def assemble (std : Stdlib) (budget : Nat) (query : String) (intent : QueryIntent)
    (retrieval : Result) (history : List Turn) (maxCitations : Nat) : ContextPackage :=
  let package : ContextPackage :=
    { query
      budget
      metadataRows := (retrieval.metadataRows.take 25).map (.ofCandidate std)
      history := trimHistory budget history
      warnings := retrieval.warnings }
  let facts := String.ofList (Fragment.chars (package.renderMetadata std))
  let spent := estimateTokens facts + (package.history.map Turn.cost).sum
  let admitted := (prioritise retrieval.evidence intent).foldl (admitItem budget maxCitations) { spent }
  let package :=
    { package with
      citations := admitted.citations
      dropped := admitted.dropped
      tokenEstimate := admitted.spent }
  { package with
    warnings := package.warnings ++
      (if package.dropped = 0 then [] else [droppedWarning package.dropped]) ++
      if package.isEmpty then [emptyWarning] else [] }

/-! ## The package is empty only where nothing has a text -/

variable {std : Stdlib} {budget maxCitations : Nat} {state : Admission} {items : List Evidence}

end Retrieval

end Clear
