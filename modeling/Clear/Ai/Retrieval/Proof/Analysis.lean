import Clear.Ai.Rag.Engine
import Clear.Ai.Retrieval.Planner
import Clear.Lib.Except

/-!
# Cached classifications

The cache holds the confidence of a classification rounded to four digits, and the planner compares
it with a threshold: a cached classification plans as a fresh one exactly when rounding leaves the
confidence on its side of the threshold, where the type filter depends on it (`cached_plan_iff`).
-/

/-!
## Query analysis

`app/ai/retrieval/analysis.py`: a question is classified by a model against the document types that
exist, and the classification is cached. The prompt, timings and costs are left out; what the cache
holds under the key of the question and the document types is given, and so is what the model
returns.
-/

namespace Clear

namespace QueryAnalysis

open Retrieval

/-- What is written to the cache. -/
def asDict (analysis : QueryAnalysis) : ValueDict :=
  [("intent", .str analysis.intent.value),
    ("document_type", .ofStr? analysis.documentType),
    ("confidence", .float (Rag.roundTo 4 analysis.confidence)),
    ("reasoning", .str analysis.reasoning),
    ("method", .str analysis.method.value),
    ("cached", .bool analysis.cached)]

/-- Rebuild a cached analysis, or nothing if the shape has moved on. Document types are written as
texts or as nothing. A number that no float can hold raises. -/
def restore (std : Stdlib) (payload : ValueDict) : Except FloatError (Option QueryAnalysis) :=
  match payload.lookup "intent" with
  | none => .ok none
  | some intent =>
    match QueryIntent.ofValue? (intent.text std) with
    | none => .ok none
    | some intent =>
      match ((Value.get payload "confidence").or (.float 0)).toFloat std with
      | .error .overflowError => .error .overflowError
      | .error _ => .ok none
      | .ok confidence =>
        .ok (some
          { intent
            documentType := (Value.get payload "document_type").asStr?
            confidence
            reasoning := ((Value.get payload "reasoning").or (.str "")).text std
            method := .llm
            cached := true })

def intentIn (std : Stdlib) (data : ValueDict) : QueryIntent :=
  (QueryIntent.ofValue?
    (Text.strip (((Value.get data "intent").or (.str "")).text std))).getD .generalQa

def documentTypeIn (std : Stdlib) (data : ValueDict) (docTypes : List String) : Option String :=
  let rawType := Value.get data "documentType"
  let label := if rawType.isNull || rawType.isStr "" || rawType.isStr "null" then none
    else some (Text.strip (rawType.text std))
  if docTypes.isEmpty then label else label.bind fun label =>
    docTypes.find? fun name => std.lower (Text.strip name) = std.lower label

def confidenceIn (std : Stdlib) (data : ValueDict) : Except FloatError Rat :=
  match ((Value.get data "confidence").or (.float 0)).toFloat std with
  | .error .overflowError => .error .overflowError
  | .error _ => .ok 0
  | .ok x => .ok (max 0 (min x 1))

/-- Read the model's response defensively. -/
def coerce (std : Stdlib) (data : ValueDict) (docTypes : List String) :
    Except FloatError QueryAnalysis :=
  (confidenceIn std data).map fun confidence =>
    let documentType := documentTypeIn std data docTypes
    { intent := intentIn std data
      documentType
      -- no type means no confidence in a type
      confidence := if documentType.isNone then 0 else confidence
      reasoning :=
        Text.take 400 (Text.strip (((Value.get data "reasoning").or (.str "")).text std))
      method := .llm }

def restoreCached (std : Stdlib) (cached : Option Value) : Except FloatError (Option QueryAnalysis) :=
  match cached.bind Value.asDict? with
  | none => .ok none
  | some payload => restore std payload

/-- What a response is read as, and written to the cache: a real classification only. The response
is absent where the provider raises or refuses. -/
def classify (std : Stdlib) (response : Option ValueDict) (docTypes : List String) :
    Except FloatError (QueryAnalysis × Option Value) :=
  match response with
  | none => .ok ({}, none)
  | some data => (coerce std data docTypes).map fun analysis =>
      (analysis, some (.dict analysis.asDict))

def analyse (std : Stdlib) (response : Option ValueDict) (cached : Option Value) (query : String)
    (docTypes : List String) : Except FloatError (QueryAnalysis × Option Value) :=
  if Text.strip query = "" then .ok ({ method := .skipped }, none)
  else do
    match ← restoreCached std cached with
    | some restored => .ok (restored, none)
    | none => classify std response docTypes

theorem classify_payload {std : Stdlib} {response : Option ValueDict} {docTypes : List String}
    {analysis : QueryAnalysis} {payload : Value}
    (h : classify std response docTypes = .ok (analysis, some payload)) :
    payload = .dict analysis.asDict := by
  unfold classify at h
  cases response with
  | none => cases h
  | some data =>
    cases hdata : coerce std data docTypes with
    | error e =>
      simp only [hdata] at h
      cases h
    | ok made =>
      simp only [hdata] at h
      cases h
      rfl

/-- Only a classification that was made is written. -/
theorem analyse_payload {std : Stdlib} {response : Option ValueDict} {cached : Option Value}
    {query : String} {docTypes : List String} {analysis : QueryAnalysis} {payload : Value}
    (h : analyse std response cached query docTypes = .ok (analysis, some payload)) :
    Text.strip query ≠ "" ∧ payload = .dict analysis.asDict := by
  unfold analyse at h
  split at h
  · cases h
  next htext =>
    refine ⟨htext, ?_⟩
    obtain ⟨recalled, -, h⟩ := Except.bind_eq_ok.1 h
    cases recalled with
    | some restored => cases h
    | none => exact classify_payload h

theorem restore_asDict (std : Stdlib) (analysis : QueryAnalysis) :
    restore std analysis.asDict = .ok (some
      { analysis with
        confidence := Rag.roundTo 4 analysis.confidence
        method := .llm
        cached := true }) := by
  have hintent : analysis.asDict.lookup "intent" = some (.str analysis.intent.value) := rfl
  have htype : Value.get analysis.asDict "document_type" = .ofStr? analysis.documentType := rfl
  have hconfidence : Value.get analysis.asDict "confidence" =
    .float (Rag.roundTo 4 analysis.confidence) := rfl
  have hreasoning : Value.get analysis.asDict "reasoning" = .str analysis.reasoning := rfl
  have hfloat : ∀ x : Rat, ((Value.float x).or (.float 0)).toFloat std = .ok x := by
    intro x
    unfold Value.or Value.truthy
    by_cases hx : x = 0
    · rw [hx]
      rfl
    · rw [if_pos (decide_eq_true hx)]
      rfl
  have htext : ∀ s : String, ((Value.str s).or (.str "")).text std = s := by
    intro s
    unfold Value.or Value.truthy
    by_cases hs : s = ""
    · rw [hs]
      rfl
    · rw [if_pos (decide_eq_true hs)]
      rfl
  have hvalue : QueryIntent.ofValue? ((Value.str analysis.intent.value).text std) =
    some analysis.intent := QueryIntent.ofValue?_value analysis.intent
  unfold restore
  rw [hintent, htype, hconfidence, hreasoning, hfloat, htext, Value.asStr?_ofStr?]
  dsimp only
  rw [hvalue]

end QueryAnalysis

end Clear

namespace Clear

namespace QueryAnalysis

open Retrieval

def decision (plan : RetrievalPlan) : QueryIntent × RetrievalStrategy × MetadataFilter :=
  (plan.intent, plan.strategy, plan.filters)

def resolved (resolve : String → Option ResolvedDocumentType) (analysis : QueryAnalysis) :
    Option ResolvedDocumentType :=
  (analysis.documentType.filter (· ≠ "")).bind resolve

def planned (planner : RetrievalPlanner) (resolve : String → Option ResolvedDocumentType)
    (query : String) (request : RetrievalPlanner.Request) (analysis : QueryAnalysis) :
    Option (QueryIntent × RetrievalStrategy × MetadataFilter) :=
  (planner.plan query
    { request with
      analysis := some analysis
      documentType := resolved resolve analysis }).map decision

/-- The date window of the question leaves the calendar: no plan is made. -/
def Overflows (planner : RetrievalPlanner) (query : String) : Prop :=
  ∃ window, planner.resolvePeriod (planner.lower (Text.strip query)) = some window ∧
    planner.today.addDays? window = none

/-- The request or the taxonomy leaves the type filter open, so that the confidence decides. -/
def Decisive (resolve : String → Option ResolvedDocumentType)
    (request : RetrievalPlanner.Request) (analysis : QueryAnalysis) : Prop :=
  request.agreementTypes = [] ∧ (resolved resolve analysis).isSome = true

variable {std : Stdlib} {planner : RetrievalPlanner}
  {resolve : String → Option ResolvedDocumentType} {query : String}
  {request : RetrievalPlanner.Request} {response response' : Option ValueDict}
  {docTypes : List String} {fresh restored : QueryAnalysis} {payload : Value}
  {stored : Option Value}

theorem restored_eq
    (hfresh : analyse std response none query docTypes = .ok (fresh, some payload))
    (hrestored : analyse std response' (some payload) query docTypes = .ok (restored, stored)) :
    restored =
      { fresh with
        confidence := Rag.roundTo 4 fresh.confidence
        method := .llm
        cached := true } := by
  obtain ⟨htext, rfl⟩ := analyse_payload hfresh
  unfold analyse at hrestored
  rw [if_neg htext] at hrestored
  have hrestoreCached : restoreCached std (some (.dict fresh.asDict)) = restore std fresh.asDict := rfl
  rw [hrestoreCached, restore_asDict] at hrestored
  cases hrestored
  rfl

theorem extractFilters_isNone {agreementTypes : List String} {contractIds : List Uuid} :
    planner.extractFilters (Text.strip query) agreementTypes contractIds = none ↔
      Overflows planner query := by
  unfold RetrievalPlanner.extractFilters Overflows
  dsimp only
  split
  next hperiod => simp [hperiod]
  next window hperiod => simp [hperiod]

theorem extractFilters_agreementTypes {agreementTypes : List String} {contractIds : List Uuid}
    {filters : MetadataFilter}
    (h : planner.extractFilters query agreementTypes contractIds = some filters) :
    filters.agreementTypes = agreementTypes := by
  unfold RetrievalPlanner.extractFilters at h
  dsimp only at h
  split at h
  · cases h
    rfl
  · obtain ⟨last, -, rfl⟩ := Option.map_eq_some_iff.1 h
    rfl

def typesOf (planner : RetrievalPlanner) (resolve : String → Option ResolvedDocumentType)
    (request : RetrievalPlanner.Request) (analysis : QueryAnalysis) : List String :=
  planner.withDocumentType request.agreementTypes (some analysis) (resolved resolve analysis)

theorem planned_eq (analysis : QueryAnalysis) :
    planned planner resolve query request analysis =
      (planner.extractFilters (Text.strip query) (typesOf planner resolve request analysis)
        request.contractIds).map fun filters =>
          (planner.detectIntent (Text.strip query) (some analysis),
            planner.selectStrategy (planner.detectIntent (Text.strip query) (some analysis))
              (Text.strip query) request.scope request.contractIds request.preferContent,
            filters) := by
  unfold planned RetrievalPlanner.plan
  rw [Option.map_map]
  rfl

theorem planned_eq_iff {a b : QueryAnalysis} (hintent : a.intent = b.intent) :
    planned planner resolve query request a = planned planner resolve query request b ↔
      Overflows planner query ∨
        typesOf planner resolve request a = typesOf planner resolve request b := by
  have hdetect : planner.detectIntent (Text.strip query) (some a) =
      planner.detectIntent (Text.strip query) (some b) := by
    unfold RetrievalPlanner.detectIntent
    rw [Option.map_some, Option.map_some, hintent]
  rw [planned_eq, planned_eq, hdetect]
  constructor
  · intro heq
    by_cases hoverflow : Overflows planner query
    · exact .inl hoverflow
    refine .inr ?_
    cases hb : planner.extractFilters (Text.strip query) (typesOf planner resolve request b)
        request.contractIds with
    | none => exact absurd (extractFilters_isNone.1 hb) hoverflow
    | some filters =>
      rw [hb, Option.map_some, Option.map_eq_some_iff] at heq
      obtain ⟨filters', ha, hfilters⟩ := heq
      have hsame : filters' = filters := (Prod.mk.inj (Prod.mk.inj hfilters).2).2
      rw [← extractFilters_agreementTypes ha, hsame, extractFilters_agreementTypes hb]
  · intro h
    rcases h with hoverflow | htypes
    · rw [extractFilters_isNone.2 hoverflow, extractFilters_isNone.2 hoverflow]
    · rw [htypes]

/-- Analyses of one label filter by the same types if their confidences are on the same side of the
threshold, or are not asked for. -/
theorem typesOf_eq_iff {a b : QueryAnalysis} (htype : a.documentType = b.documentType) :
    typesOf planner resolve request a = typesOf planner resolve request b ↔
      (Decisive resolve request b →
        (a.confidence < planner.settings.documentTypeConfidenceThreshold ↔
          b.confidence < planner.settings.documentTypeConfidenceThreshold)) := by
  have hresolved : resolved resolve a = resolved resolve b := by
    unfold resolved
    rw [htype]
  unfold typesOf Decisive RetrievalPlanner.withDocumentType
  rw [hresolved]
  cases hrequest : request.agreementTypes with
  | cons type types => simp
  | nil =>
    cases hb : resolved resolve b with
    | none => simp
    | some documentType =>
      by_cases hleft : a.confidence < planner.settings.documentTypeConfidenceThreshold
      · by_cases hright : b.confidence < planner.settings.documentTypeConfidenceThreshold
        · simp [hleft, hright]
        · simp [hleft, hright]
      · by_cases hright : b.confidence < planner.settings.documentTypeConfidenceThreshold
        · simp [hleft, hright]
        · simp [hleft, hright]

namespace Sample

/-- A planner with the default threshold, whose patterns match nothing. -/
def plain : RetrievalPlanner where
  settings :=
    { similarityFloor := fun _ => 0
      graphMaxDepth := 2
      rerankerEnabled := false
      rerankTopK := 10
      documentTypeConfidenceThreshold := 3 / 4 }
  today := 0
  lower := id
  search _ _ := none
  searchAnyCase _ _ := none

def known (label : String) : Option ResolvedDocumentType :=
  if label = "nda" then some { label, agreementType := label } else none

def question : String := "Who may see this?"

def answer (confidence : Rat) : ValueDict :=
  [("intent", .str "general_qa"), ("documentType", .str "nda"), ("confidence", .float confidence)]

def read (confidence : Rat) : QueryAnalysis where
  documentType := some "nda"
  confidence := confidence
  method := .llm

theorem coerce_answer {confidence : Rat} (hpos : 0 < confidence) (hle : confidence ≤ 1) :
    coerce Stdlib.ascii (answer confidence) ["nda"] = .ok (read confidence) := by
  have hreported : ((Value.get (answer confidence) "confidence").or (.float 0)).toFloat
      Stdlib.ascii = .ok confidence := by
    show ((Value.float confidence).or (.float 0)).toFloat Stdlib.ascii = .ok confidence
    unfold Value.or Value.truthy
    rw [if_pos (decide_eq_true hpos.ne')]
    rfl
  have hconfidence : confidenceIn Stdlib.ascii (answer confidence) = .ok confidence := by
    unfold confidenceIn
    rw [hreported]
    dsimp only
    rw [min_eq_left hle, max_eq_right hpos.le]
  have htype : documentTypeIn Stdlib.ascii (answer confidence) ["nda"] = some "nda" := by
    unfold documentTypeIn
    rw [show Value.get (answer confidence) "documentType" = .str "nda" from rfl]
    decide
  have hintent : intentIn Stdlib.ascii (answer confidence) = .generalQa := by
    unfold intentIn
    rw [show Value.get (answer confidence) "intent" = .str "general_qa" from rfl]
    decide
  have hreasoning : Text.take 400 (Text.strip
      (((Value.get (answer confidence) "reasoning").or (.str "")).text Stdlib.ascii)) = "" := by
    rw [show Value.get (answer confidence) "reasoning" = .null from rfl]
    decide
  unfold coerce
  rw [hconfidence, htype, hintent, hreasoning]
  rfl

theorem analyse_answer {confidence : Rat} (hpos : 0 < confidence) (hle : confidence ≤ 1) :
    analyse Stdlib.ascii (some (answer confidence)) none question ["nda"] =
      .ok (read confidence, some (.dict (read confidence).asDict)) := by
  unfold analyse
  rw [if_neg (show Text.strip question ≠ "" by decide)]
  show classify Stdlib.ascii (some (answer confidence)) ["nda"] = _
  unfold classify
  dsimp only
  rw [coerce_answer hpos hle]
  rfl

theorem analyse_cached (analysis : QueryAnalysis) (docTypes : List String) :
    analyse Stdlib.ascii none (some (.dict analysis.asDict)) question docTypes =
      .ok ({ analysis with
        confidence := Rag.roundTo 4 analysis.confidence
        method := .llm
        cached := true }, none) := by
  unfold analyse
  rw [if_neg (show Text.strip question ≠ "" by decide)]
  show (restore Stdlib.ascii analysis.asDict >>= _) = _
  rw [restore_asDict]
  rfl

end Sample

end QueryAnalysis

end Clear
