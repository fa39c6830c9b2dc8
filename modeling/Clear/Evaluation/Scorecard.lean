import Clear.Ai.Retrieval.Evidence
import Clear.Evaluation.Relevance
import Mathlib.Algebra.BigOperators.Group.List.Basic

/-!
# The scorecard of a run

The metrics of `app/evaluation/metrics/` as far as `Scorecard.key_metrics` reads them. Averages,
rates and milliseconds are exact rationals. `contributes` says which cases a metric is made of.
-/

namespace Clear

structure CaseExpectation extends GoldenExpectation where
  agreementTypes : List String := []
  shouldAnswer : Bool := true
  intent : Option String := none
  documentType : Option String := none
  answerContains : List String := []

/-- A retrieved passage, with what the metrics read besides. -/
structure RecordedItem extends RetrievedItem where
  similarity : Option Rat := none
  text : String := ""
  inContext : Bool := false
  cited : Bool := false

structure CitationRecord where
  resolved : Bool := true
  refId : Option Uuid := none
  sectionTitle : Option String := none

/-- `CaseResult`: `latencyMs` is the total of its timings. -/
structure CaseResult where
  expected : CaseExpectation := {}
  ok : Bool := true
  answer : String := ""
  answered : Bool := false
  generationFailed : Bool := false
  retrieved : List RecordedItem := []
  citations : List CitationRecord := []
  intent : Option String := none
  documentType : Option String := none
  appliedAgreementTypes : List String := []
  confidence : Rat := 0
  latencyMs : Int := 0
  costUsd : Rat := 0

namespace Scorecard

open Relevance

def mean (values : List Rat) : Rat := if values ≠ [] then values.sum / values.length else 0

def share (part population : Nat) : Rat := if population ≠ 0 then part / population else 0

def given (value : Option String) : Bool := value.any (· ≠ "")

variable (std : Stdlib) (log2 : Log2) (results : List CaseResult)

/-! ## Retrieval -/

def isScored (result : CaseResult) : Bool := result.ok && result.expected.hasRelevanceSignal

/-- The passages, as relevance reads them. -/
def items (result : CaseResult) : List RetrievedItem :=
  result.retrieved.map RecordedItem.toRetrievedItem

def retrievalMean (metric : GoldenExpectation → List RetrievedItem → Option Rat) : Rat :=
  mean ((results.filter isScored).filterMap fun result =>
    metric result.expected.toGoldenExpectation (items result))

def duplicateRate (retrieved : List RecordedItem) : Rat :=
  if retrieved.length < 2 then 0
  else
    let kept := retrieved.foldl (fun (kept : List (List String) × Nat) item =>
      let shingles := Retrieval.shingles std.lower item.text
      if shingles.isEmpty then kept
      else if kept.1.any (Retrieval.nearDuplicate shingles) then (kept.1, kept.2 + 1)
      else (kept.1 ++ [shingles], kept.2)) ([], 0)
    kept.2 / retrieved.length

/-! ## Citations -/

structure CaseCitationOutcome where
  total : Nat := 0
  correct : Nat := 0
  imprecise : Nat := 0
  broken : Nat := 0
  hallucinated : Nat := 0
  missed : Nat := 0
  expectedAvailable : Nat := 0

namespace CaseCitationOutcome

def precision (o : CaseCitationOutcome) : Option Rat :=
  let resolvable : Int := o.total - o.hallucinated - o.broken
  if resolvable ≤ 0 then none else some (o.correct / resolvable)

def recallShown (o : CaseCitationOutcome) : Option Rat :=
  if o.expectedAvailable ≤ 0 then none
  else some (((o.expectedAvailable : Rat) - o.missed) / o.expectedAvailable)

end CaseCitationOutcome

def headingAgrees (expected : GoldenExpectation) (citation : CitationRecord) : Bool :=
  let wanted := expected.headings.map fun heading => normalise std (some heading)
  if wanted = [] then false else wanted.contains (normalise std citation.sectionTitle)

def matchesExpectation (expected : GoldenExpectation) (item : RetrievedItem)
    (citation : CitationRecord) : Bool :=
  if !expected.hasRelevanceSignal then true
  else if Grade.page.value ≤ (expected.grade std item).value then true
  else if expected.grade std item = .contract then
    if !(expected.clauses ≠ [] || expected.pages ≠ []) then true
    else headingAgrees std expected citation
  else false

def byRef (result : CaseResult) (refId : Option Uuid) : Option RetrievedItem :=
  refId.bind fun ref => (items result).reverse.find? (·.refId = ref)

def judgeCitation (result : CaseResult) (o : CaseCitationOutcome) (citation : CitationRecord) :
    CaseCitationOutcome :=
  let o := { o with total := o.total + 1 }
  if !citation.resolved then { o with hallucinated := o.hallucinated + 1 }
  else
    match byRef result citation.refId with
    | none => { o with broken := o.broken + 1 }
    | some item =>
      if matchesExpectation std result.expected.toGoldenExpectation item citation then
        { o with correct := o.correct + 1 }
      else { o with imprecise := o.imprecise + 1 }

def evaluateCaseCitations (result : CaseResult) : CaseCitationOutcome :=
  let o := result.citations.foldl (judgeCitation std result) {}
  let shown := result.retrieved.filter fun item =>
    item.inContext && result.expected.isRelevant std item.toRetrievedItem
  { o with expectedAvailable := shown.length, missed := shown.countP fun item => !item.cited }

/-- The cases that are scored for citations. -/
def isAnswered (result : CaseResult) : Bool := result.ok && result.answered

def trivialAnswerChars : Nat := 160

def isUncited (result : CaseResult) : Bool :=
  trivialAnswerChars < result.answer.length && result.citations.isEmpty

def outcomes : List CaseCitationOutcome :=
  (results.filter isAnswered).map (evaluateCaseCitations std)

def brokenCitations : Nat := ((outcomes std results).map (·.broken)).sum

def hallucinationRate : Rat :=
  let hallucinated := ((outcomes std results).map (·.hallucinated)).sum
  let uncited := (results.filter isAnswered).countP isUncited
  share (hallucinated + uncited) (results.filter isAnswered).length

def fullyGroundedRate : Rat :=
  share ((outcomes std results).countP fun o => o.total ≠ 0 && o.correct = o.total)
    (outcomes std results).length

/-! ## Planner and guardrail -/

/-- `_score_filtering`: whether the filter that was applied was right, if that can be told. -/
def filteredRightly (result : CaseResult) : Option Bool :=
  let expected := result.expected
  if result.appliedAgreementTypes = [] then none
  else if expected.agreementTypes ≠ [] then
    let wanted := expected.agreementTypes.map fun value => normalise std (some value)
    some (result.appliedAgreementTypes.any fun value =>
      wanted.contains (normalise std (some value)))
  else if !expected.hasRelevanceSignal then none
  else some ((items result).any (expected.isRelevant std))

/-- The cases that went through. -/
def succeeded : List CaseResult := results.filter (·.ok)

def intentAccuracy : Rat :=
  let labelled := (succeeded results).filter fun result => given result.expected.intent
  share (labelled.countP fun result =>
    normalise std result.intent = normalise std result.expected.intent) labelled.length

def documentTypeAccuracy : Rat :=
  let labelled := (succeeded results).filter fun result => given result.expected.documentType
  share (labelled.countP fun result =>
    normalise std result.documentType = normalise std result.expected.documentType) labelled.length

def falseFilteringRate : Rat :=
  let judged := (succeeded results).filterMap (filteredRightly std)
  share (judged.countP (!·)) judged.length

def isDecided (result : CaseResult) : Bool := result.ok && !result.generationFailed

/-- How many decisions were made for such a case, and how. -/
def decisions (should answered : Bool) : Nat :=
  (results.filter isDecided).countP fun result =>
    result.expected.shouldAnswer = should && result.answered = answered

def guardrailAccuracy : Rat :=
  share (decisions results true true + decisions results false false)
    (decisions results true true + decisions results false false + decisions results false true +
      decisions results true false)

def falseAcceptRate : Rat :=
  share (decisions results false true)
    (decisions results false false + decisions results false true)

def falseRejectRate : Rat :=
  share (decisions results true false)
    (decisions results true true + decisions results true false)

/-! ## Performance and calibration -/

def percentile (values : List Rat) (fraction : Rat) : Rat :=
  let ordered := values.insertionSort (· ≤ ·)
  match ordered with
  | [] => 0
  | [value] => value
  | _ =>
    let position := fraction * (ordered.length - 1 : Nat)
    let lower := position.floor.toNat
    let upper := min (lower + 1) (ordered.length - 1)
    let weight := position - lower
    ordered.getD lower 0 * (1 - weight) + ordered.getD upper 0 * weight

def latencies : List Rat := (succeeded results).map fun result => result.latencyMs

def correctnessLabel (result : CaseResult) : Option Bool :=
  if !result.ok || result.generationFailed then none
  else if !result.expected.shouldAnswer then
    if result.answered then some (!result.answered) else none
  else if !result.answered then none
  else if result.expected.answerContains ≠ [] then
    some (result.expected.answerContains.all fun needle =>
      Text.contains (std.lower needle) (std.lower result.answer))
  else if !result.expected.hasRelevanceSignal then none
  else
    let outcome := evaluateCaseCitations std result
    if outcome.total = 0 then
      if trivialAnswerChars < result.answer.length then some false else none
    else outcome.precision.map fun precision => 1 / 2 ≤ precision

def collectSamples : List (Rat × Bool) :=
  results.filterMap fun result => (correctnessLabel std result).map fun label =>
    (max 0 (min result.confidence 1), label)

def defaultBins : Nat := 10

def bucketError (total : Nat) (bucket : List (Rat × Bool)) : Rat :=
  if bucket ≠ [] then
    let meanConfidence := (bucket.map (·.1)).sum / bucket.length
    let observedAccuracy := (bucket.countP (·.2) : Rat) / bucket.length
    (bucket.length : Rat) / total * |meanConfidence - observedAccuracy|
  else 0

def ece (samples : List (Rat × Bool)) : Rat :=
  if samples ≠ [] then
    ((List.range defaultBins).map fun index => bucketError samples.length
      (samples.filter fun sample =>
        min (sample.1 * defaultBins).floor.toNat (defaultBins - 1) = index)).sum
  else 0

/-! ## The mapping that is compared -/

/-- `key_metrics`, without the placeholder of the composite. -/
def ownMetrics : List (String × Rat) :=
  [("recall@5", retrievalMean results fun e l => e.recallAtK std l 5),
    ("recall@10", retrievalMean results fun e l => e.recallAtK std l 10),
    ("recall@20", retrievalMean results fun e l => e.recallAtK std l 20),
    ("precision@5", retrievalMean results fun e l => e.precisionAtK std l 5),
    ("precision@10", retrievalMean results fun e l => e.precisionAtK std l 10),
    ("ndcg@10", retrievalMean results fun e l => e.ndcgAtK std log2 l 10),
    ("mrr", retrievalMean results fun e l => e.reciprocalRank std l),
    ("mean_similarity", mean ((succeeded results).flatMap fun result =>
      result.retrieved.filterMap (·.similarity))),
    ("duplicate_rate", mean ((succeeded results).map fun result =>
      duplicateRate std result.retrieved)),
    ("citation_precision", mean ((outcomes std results).filterMap (·.precision))),
    ("citation_recall", mean ((outcomes std results).filterMap (·.recallShown))),
    ("hallucination_rate", hallucinationRate std results),
    ("grounding_rate", fullyGroundedRate std results),
    ("broken_citations", brokenCitations std results),
    ("guardrail_accuracy", guardrailAccuracy results),
    ("false_accept_rate", falseAcceptRate results),
    ("false_reject_rate", falseRejectRate results),
    ("intent_accuracy", intentAccuracy std results),
    ("document_type_accuracy", documentTypeAccuracy std results),
    ("false_filtering_rate", falseFilteringRate std results),
    ("latency_p50_ms", percentile (latencies results) (1 / 2)),
    ("latency_p95_ms", percentile (latencies results) (95 / 100)),
    ("mean_cost_usd", mean ((succeeded results).map (·.costUsd))),
    ("ece", ece (collectSamples std results))]

def keyMetrics : List (String × Rat) := ownMetrics std log2 results ++ [("composite", 0)]

def compositeWeights : List (String × Rat) :=
  [("recall@10", 30 / 100), ("mrr", 20 / 100), ("ndcg@10", 15 / 100),
    ("citation_precision", 15 / 100), ("guardrail_accuracy", 15 / 100), ("grounding_rate", 5 / 100)]

/-- The body of the loop of `composite`: the score and the weight so far. -/
def addWeighted (metrics : List (String × Rat)) (sums : Rat × Rat) (weighted : String × Rat) :
    Rat × Rat :=
  match metrics.lookup weighted.1 with
  | none => sums
  | some value => (sums.1 + weighted.2 * value, sums.2 + weighted.2)

def composite : Rat :=
  let sums := compositeWeights.foldl (addWeighted (keyMetrics std log2 results)) (0, 0)
  if sums.2 ≠ 0 then sums.1 / sums.2 else 0

def metricsForComparison : List (String × Rat) :=
  Dict.assign (keyMetrics std log2 results) "composite" (composite std log2 results)

/-! ## What a metric is made of -/

/-- The cases that each metric but the composite is made of. -/
def populations : List (String × (CaseResult → Bool)) :=
  [("recall@5", isScored), ("recall@10", isScored), ("recall@20", isScored),
    ("precision@5", isScored), ("precision@10", isScored), ("ndcg@10", isScored),
    ("mrr", isScored),
    ("mean_similarity", fun r => r.ok && r.retrieved.any (·.similarity.isSome)),
    ("duplicate_rate", (·.ok)),
    ("citation_precision",
      fun r => isAnswered r && (evaluateCaseCitations std r).precision.isSome),
    ("citation_recall",
      fun r => isAnswered r && (evaluateCaseCitations std r).recallShown.isSome),
    ("hallucination_rate", isAnswered), ("grounding_rate", isAnswered),
    ("broken_citations", isAnswered),
    ("guardrail_accuracy", isDecided),
    ("false_accept_rate", fun r => isDecided r && !r.expected.shouldAnswer),
    ("false_reject_rate", fun r => isDecided r && r.expected.shouldAnswer),
    ("intent_accuracy", fun r => r.ok && given r.expected.intent),
    ("document_type_accuracy", fun r => r.ok && given r.expected.documentType),
    ("false_filtering_rate", fun r => r.ok && (filteredRightly std r).isSome),
    ("latency_p50_ms", (·.ok)), ("latency_p95_ms", (·.ok)), ("mean_cost_usd", (·.ok)),
    ("ece", fun r => (correctnessLabel std r).isSome)]

def contributes (metric : String) (result : CaseResult) : Bool :=
  if metric = "composite" then
    compositeWeights.any fun w => ((populations std).lookup w.1).any (· result)
  else ((populations std).lookup metric).any (· result)

def names : List String := (populations Stdlib.ascii).map (·.1) ++ ["composite"]

section Empty

variable {std log2 results} {p : CaseResult → Bool}

theorem isSome_lookup_iff {metric : String} :
    ((metricsForComparison std log2 results).lookup metric).isSome = true ↔ metric ∈ names := by
  have hkeys : (keyMetrics std log2 results).map (·.1) = names := rfl
  have hmem : "composite" ∈ names := List.mem_append_right _ List.mem_cons_self
  unfold metricsForComparison
  rw [Dict.lookup_isSome_iff, Dict.keys_assign, hkeys, if_pos hmem]

end Empty

end Scorecard

end Clear
