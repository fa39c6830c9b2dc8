import Clear.Core.Text
import Clear.Repositories.Embedding

/-!
# Embedding engine

`EmbeddingEngine.run` turns a plan into rows, one level after another: a text whose content hash is
already stored reuses that vector, the other texts are sent to the provider in batches, and every row
is stamped with the active configuration. A level that fails loses its rows and the others continue.

An `Embedder` is a deployment together with what lies outside it: the provider's answers, SHA-256 and
new primary keys.
-/

namespace Clear

/-! ## Plans and outcomes -/

/-- One thing to embed. -/
structure EmbeddingItem where
  refId : Uuid
  level : EmbeddingLevel
  text : String
  filterMetadata : JsonDict := []
  tokenEstimate : Nat := 0
  deriving DecidableEq

abbrev EmbeddingPlan := List EmbeddingItem

def EmbeddingPlan.byLevel (plan : EmbeddingPlan) (level : EmbeddingLevel) : List EmbeddingItem :=
  plan.filter (·.level = level)

structure LevelOutcome where
  level : EmbeddingLevel
  requested : Nat := 0
  generated : Nat := 0
  reused : Nat := 0
  truncated : Nat := 0
  skippedEmpty : Nat := 0
  batches : Nat := 0
  model : Option String := none
  error : Option Raised := none

/-- The engine's output: rows to insert, plus accounting. -/
structure EmbeddingRun (ν : Type) where
  rows : List (EmbeddingRow ν) := []
  outcomes : List LevelOutcome := []
  warnings : List String := []

/-- What `embed_many` returns. -/
structure EmbeddingResult (ν : Type) where
  vectors : List (List ν)
  model : String

/-- A deployment, its provider, SHA-256 and the primary keys of the rows to come. -/
structure Embedder (ν : Type) where
  settings : EmbeddingSettings := {}
  strategyVersion : String := "1.0.0"
  sha256 : String → String
  embedMany : List String → Except Raised (EmbeddingResult ν)
  newId : EmbeddingItem → Uuid

namespace Embedder

variable {ν : Type} (e : Embedder ν)

def active : EmbeddingSpace := .active e.settings e.strategyVersion

def contentHash (text : String) : String := e.sha256 (String.intercalate " " (Text.split text))

def maxEmbedChars : Nat := 24000

def row (contractId projectId : Uuid) (profileVersion : Option String) (item : EmbeddingItem)
    (vector : List ν) (model : String) : EmbeddingRow ν where
  id := e.newId item
  projectId := projectId
  contractId := contractId
  level := item.level
  refId := item.refId
  embedding := vector
  sourceText := Text.take maxEmbedChars item.text
  contentHash := e.contentHash item.text
  tokenCount := if item.tokenEstimate = 0 then max 1 (item.text.length / 4) else item.tokenEstimate
  provider := e.settings.provider.value
  model := model
  dim := vector.length
  embeddingVersion := e.settings.version
  strategyVersion := e.strategyVersion
  profileVersion := profileVersion
  filterMetadata := item.filterMetadata

/-! ## One level -/

structure Stored (ν : Type) where
  existing : List (EmbeddingLevel × List (String × Uuid)) := []
  vectors : List (Uuid × List ν) := []

def Stored.hashes (stored : Stored ν) (level : EmbeddingLevel) : List (String × Uuid) :=
  (stored.existing.lookup level).getD []

def reuse (stored : Stored ν) (level : EmbeddingLevel) (item : EmbeddingItem) :
    Option (Uuid × List ν) :=
  ((stored.hashes level).lookup (e.contentHash item.text)).bind fun id =>
    (stored.vectors.lookup id).map (id, ·)

def embeddable (items : List EmbeddingItem) : List EmbeddingItem :=
  items.filter fun item => !Text.isBlank item.text

def reusedItems (stored : Stored ν) (level : EmbeddingLevel) (items : List EmbeddingItem) :
    List (EmbeddingItem × Uuid × List ν) :=
  (embeddable items).filterMap fun item => (e.reuse stored level item).map (item, ·)

def toGenerate (stored : Stored ν) (level : EmbeddingLevel) (items : List EmbeddingItem) :
    List EmbeddingItem :=
  (embeddable items).filter fun item => (e.reuse stored level item).isNone

def payload (item : EmbeddingItem) : String := Text.take maxEmbedChars item.text

def batches (size : Nat) : (fuel : Nat) → (payloads : List String) → List (List String)
  | 0, _ => []
  | _ + 1, [] => []
  | fuel + 1, payloads => payloads.take size :: batches size fuel (payloads.drop size)

def fill (vectors : List (List ν)) (start : Nat) : List (List ν) → Except Raised (List (List ν))
  | [] => .ok vectors
  | vector :: rest =>
    if start < vectors.length then fill (vectors.set start vector) (start + 1) rest
    else .error (.other "IndexError")

/-- Send the batches to the provider and reassemble its answers in order. With the vectors comes the
model of the last batch. -/
def generate : (vectors : List (List ν)) → (start : Nat) → (model : Option String) →
    List (List String) → Except Raised (List (List ν) × Option String)
  | vectors, _, model, [] => .ok (vectors, model)
  | vectors, start, _, texts :: rest => do
    let result ← e.embedMany texts
    let vectors ← fill vectors start result.vectors
    generate vectors (start + texts.length) result.model rest

def calls (start : Nat) : List (List String) → List (Nat × List String)
  | [] => []
  | texts :: rest => (start, texts) :: calls (start + texts.length) rest

def answers (order : List (Nat × List String)) :
    Except Raised (List (Nat × EmbeddingResult ν)) :=
  order.mapM fun call => (e.embedMany call.2).map (call.1, ·)

/-- One round of the loop over the sorted answers. -/
def place (held : List (List ν) × Option String) (answer : Nat × EmbeddingResult ν) :
    Except Raised (List (List ν) × Option String) := do
  let vectors ← fill held.1 answer.1 answer.2.vectors
  return (vectors, some answer.2.model)

/-- `for start, result in sorted(results, key=lambda entry: entry[0])`. -/
def reassemble (vectors : List (List ν)) (results : List (Nat × EmbeddingResult ν)) :
    Except Raised (List (List ν) × Option String) :=
  (results.insertionSort fun a b => a.1 ≤ b.1).foldlM place (vectors, none)

def embedItems (items : List EmbeddingItem) :
    Except Raised (List (String × List ν) × Option String) := do
  let unique := Sql.distinctOn (fun item : EmbeddingItem => e.contentHash item.text) items
  let payloads := unique.map payload
  let (vectors, model) ← e.generate (payloads.map fun _ => []) 0 none
    (batches (max 1 e.settings.batchSize) payloads.length payloads)
  return ((unique.map fun item => e.contentHash item.text).zip vectors, model)

def stampedModel (model : Option String) : String :=
  (model.filter (· ≠ "")).getD (e.settings.provider.model e.settings)

def generatedRows (contractId projectId : Uuid) (profileVersion : Option String)
    (items : List EmbeddingItem) (vectors : List (String × List ν)) (model : Option String) :
    List (EmbeddingRow ν) :=
  items.filterMap fun item =>
    match vectors.lookup (e.contentHash item.text) with
    | none | some [] => none
    | some vector =>
      some (e.row contractId projectId profileVersion item vector (e.stampedModel model))

def embedLevel (contractId projectId : Uuid) (profileVersion : Option String) (stored : Stored ν)
    (level : EmbeddingLevel) (items : List EmbeddingItem) :
    LevelOutcome × Except Raised (List (EmbeddingRow ν)) :=
  let reused := e.reusedItems stored level items
  let rows := reused.map fun (item, _, vector) =>
    e.row contractId projectId profileVersion item vector (e.settings.provider.model e.settings)
  let pending := e.toGenerate stored level items
  let unique := Sql.distinctOn (fun item : EmbeddingItem => e.contentHash item.text) pending
  let outcome : LevelOutcome :=
    { level
      requested := items.length
      reused := reused.length
      skippedEmpty := items.length - (embeddable items).length }
  if pending.isEmpty then
    ({ outcome with model := some (e.settings.provider.model e.settings) }, .ok rows)
  else
    let outcome :=
      { outcome with
        truncated := (unique.filter fun item : EmbeddingItem =>
          maxEmbedChars < item.text.length).length }
    match e.embedItems pending with
    | .error raised => ({ outcome with error := some raised }, .error raised)
    | .ok (vectors, model) =>
      let generated := e.generatedRows contractId projectId profileVersion pending vectors model
      ({ outcome with
          generated := generated.length
          batches := (batches (max 1 e.settings.batchSize) unique.length
            (unique.map payload)).length
          model },
        .ok (rows ++ generated))

/-! ## All levels -/

def levelWarning (level : EmbeddingLevel) : Raised → String
  | .app error =>
    level.value ++ " embeddings failed: " ++ error.message ++ ". The other levels were unaffected."
  | .other _ => level.value ++ " embeddings failed unexpectedly."

/-- The body of `run`'s loop. -/
def runLevel (contractId projectId : Uuid) (profileVersion : Option String) (stored : Stored ν)
    (plan : EmbeddingPlan) (levels : List EmbeddingLevel) (r : EmbeddingRun ν)
    (level : EmbeddingLevel) : EmbeddingRun ν :=
  let items := plan.byLevel level
  if level ∉ levels ∨ items.isEmpty then r
  else
    match e.embedLevel contractId projectId profileVersion stored level items with
    | (outcome, .ok rows) =>
      { r with rows := r.rows ++ rows, outcomes := r.outcomes ++ [outcome] }
    | (outcome, .error raised) =>
      { r with
        outcomes := r.outcomes ++ [outcome]
        warnings := r.warnings ++ [levelWarning level raised] }

def run (contractId projectId : Uuid) (profileVersion : Option String) (stored : Stored ν)
    (plan : EmbeddingPlan) (levels : List EmbeddingLevel) : EmbeddingRun ν :=
  embeddingLevels.foldl (e.runLevel contractId projectId profileVersion stored plan levels) {}

end Embedder

end Clear
