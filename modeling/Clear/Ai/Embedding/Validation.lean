import Mathlib.Data.Int.Notation
import Clear.Models.Processing

/-!
# Embedding compatibility validation

Vectors are comparable when their spaces are equal. `EmbeddingSpace` is the identity of a space, read
off a row by `fromRow` and off the configuration by `active`; `validateRow` checks a row before it is
inserted, `auditRows` counts the stored rows that are not in the expected space.

A coordinate type `ν` stands for the floats of a vector: only the width of a vector is ever read.
-/

namespace Clear

/-! ## Spaces -/

structure EmbeddingSpace where
  provider : String
  model : String
  dim : Int
  embeddingVersion : String
  strategyVersion : String
  deriving DecidableEq

/-- A row handed to the validator, read by key. -/
structure RowDict (ν : Type) where
  provider : Option String := none
  model : Option String := none
  dim : Option Int := none
  embeddingVersion : Option String := none
  strategyVersion : Option String := none
  embedding : Option (List ν) := none
  refId : Option Uuid := none
  count : Option Int := none

namespace EmbeddingSpace

def fromRow {ν : Type} (row : RowDict ν) : EmbeddingSpace where
  provider := row.provider.getD ""
  model := row.model.getD ""
  dim := row.dim.getD 0
  embeddingVersion := row.embeddingVersion.getD ""
  strategyVersion := row.strategyVersion.getD ""

def label (s : EmbeddingSpace) : String :=
  s.provider ++ ":" ++ s.model ++ "@" ++ s.dim.repr ++ "/" ++ s.embeddingVersion

end EmbeddingSpace

/-! ## Providers -/

inductive EmbeddingProvider where
  | nvidia | openai | azureOpenai | sentenceTransformers | mock
  deriving DecidableEq

structure EmbeddingSettings where
  provider : EmbeddingProvider := .mock
  model : String := "nvidia/nemotron-3-embed-1b"
  dim : Nat := 2048
  version : String := "v1"
  batchSize : Nat := 64
  sentenceTransformersModel : String := "sentence-transformers/all-MiniLM-L6-v2"

namespace EmbeddingProvider

/-- The text of the setting, which is also the provider's `name`. -/
def value : EmbeddingProvider → String
  | nvidia => "nvidia"
  | openai => "openai"
  | azureOpenai => "azure_openai"
  | sentenceTransformers => "sentence_transformers"
  | mock => "mock"

def model (settings : EmbeddingSettings) : EmbeddingProvider → String
  | sentenceTransformers => settings.sentenceTransformersModel
  | mock => "mock-" ++ settings.model
  | _ => settings.model

end EmbeddingProvider

def EmbeddingSpace.active (settings : EmbeddingSettings) (strategyVersion : String) :
    EmbeddingSpace where
  provider := settings.provider.value
  model := settings.provider.model settings
  dim := settings.dim
  embeddingVersion := settings.version
  strategyVersion := strategyVersion

/-! ## Before an insert -/

structure ValidationReport where
  accepted : Nat := 0
  rejected : Nat := 0
  reasons : List (String × Nat) := []
  rejectedSamples : List JsonDict := []

namespace ValidationReport

def count (reasons : List (String × Nat)) (reason : String) : List (String × Nat) :=
  match reasons with
  | [] => [(reason, 1)]
  | (key, n) :: rest => if key = reason then (key, n + 1) :: rest else (key, n) :: count rest reason

/-- `_reject`. Five samples are kept. -/
def reject (r : ValidationReport) (reason : String) (detail : JsonDict) : ValidationReport :=
  { r with
    rejected := r.rejected + 1
    reasons := count r.reasons reason
    rejectedSamples :=
      if r.rejectedSamples.length < 5 then
        r.rejectedSamples ++ [("reason", .str reason) :: detail]
      else r.rejectedSamples }

end ValidationReport

namespace EmbeddingValidator

variable {ν : Type} (expected : EmbeddingSpace)

/-- Why a row may not be inserted, with the details of the rejection. -/
def objection (row : RowDict ν) : Option (String × JsonDict) :=
  let space := EmbeddingSpace.fromRow row
  if space.model ≠ expected.model ∨ space.provider ≠ expected.provider then
    some ("foreign_space", [("found", .str space.label), ("expected", .str expected.label)])
  else if space.dim ≠ expected.dim then
    some ("dimension_mismatch", [("found", .int space.dim), ("expected", .int expected.dim)])
  else if space.embeddingVersion ≠ expected.embeddingVersion then
    some ("version_mismatch",
      [("found", .str space.embeddingVersion), ("expected", .str expected.embeddingVersion)])
  else
    match row.embedding with
    | none =>
      some ("missing_vector", [("ref_id", .str ((row.refId.map Uuid.str).getD "None"))])
    | some vector =>
      if (vector.length : Int) ≠ expected.dim then
        some ("vector_length_mismatch",
          [("found", .int vector.length), ("expected", .int expected.dim)])
      else none

/-- Check one prospective row; the second component tells whether it may be inserted. -/
def validateRow (row : RowDict ν) (report : ValidationReport) : ValidationReport × Bool :=
  match objection expected row with
  | some (reason, detail) => (report.reject reason detail, false)
  | none => ({ report with accepted := report.accepted + 1 }, true)

def validateRows : List (RowDict ν) → ValidationReport → List (RowDict ν) × ValidationReport
  | [], report => ([], report)
  | row :: rows, report =>
    let (report, ok) := validateRow expected row report
    let (keep, report) := validateRows rows report
    (if ok then row :: keep else keep, report)

/-- `as_dict`. A `Json` holds no nested object, so a reason stands with its count and a sample with its
reason in one text. -/
def asDict (report : ValidationReport) : JsonDict :=
  [("accepted", .int report.accepted), ("rejected", .int report.rejected),
    ("reasons", .strs (report.reasons.map fun (reason, n) => reason ++ ": " ++ n.repr)),
    ("samples", .strs (report.rejectedSamples.map fun sample =>
      match sample.lookup "reason" with
      | some (.str reason) => reason
      | _ => ""))]

def validateBatch (rows : List (RowDict ν)) :
    Except Raised (List (RowDict ν) × ValidationReport) :=
  let (keep, report) := validateRows expected rows {}
  if report.rejected = 0 then .ok (keep, report)
  else
    .error (.app
      { exception := "ValidationError"
        code := "validation_error"
        message := report.rejected.repr ++
          " embedding(s) are not compatible with the active space (" ++ expected.label ++
          "). Mixing embedding spaces silently corrupts similarity search, so the batch was " ++
          "refused."
        details := asDict report })

/-! ## What is stored -/

structure StoreAudit where
  active : EmbeddingSpace
  spaces : List (String × Int) := []
  incompatibleRows : Int := 0

def addSpace (spaces : List (String × Int)) (label : String) (count : Int) : List (String × Int) :=
  match spaces with
  | [] => [(label, count)]
  | (key, n) :: rest =>
    if key = label then (key, n + count) :: rest else (key, n) :: addSpace rest label count

def rowCount (row : RowDict ν) : Int :=
  match row.count with
  | none | some 0 => 1
  | some n => n

def auditRow (audit : StoreAudit) (row : RowDict ν) : StoreAudit :=
  let space := EmbeddingSpace.fromRow row
  { audit with
    spaces := addSpace audit.spaces space.label (rowCount row)
    incompatibleRows :=
      if space.label ≠ expected.label then audit.incompatibleRows + rowCount row
      else audit.incompatibleRows }

/-- Group stored rows by space and count what cannot be compared. -/
def auditRows (rows : List (RowDict ν)) : StoreAudit :=
  rows.foldl (auditRow expected) { active := expected }

end EmbeddingValidator

end Clear
