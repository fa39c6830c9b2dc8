import Mathlib.Data.Finmap
import Clear.Core.Enums
import Clear.Lib.Keyed

/-!
# Version registry

The component versions of `app/core/versions.py`. A checkpoint stores the versions that produced
it (`ComponentVersions.modelDump`), and the orchestrator compares that payload with the versions in
force now (`ComponentVersions.matchesDict`, `ComponentVersions.diff`). `currentVersionsForStage` is the
per-stage table of what a stage declares.

The registry constants are the fields of `Registry` with the source's values as defaults, and the
settings a stage reads are `Settings`: an `Env` is one deployment, so that a version bump or a
configuration change is a change of `Env`.
-/

namespace Clear

/-! ## Payloads -/

abbrev StrDict := Finmap (fun _ : String => String)

def StrDict.ofItems (items : List (String × String)) : StrDict :=
  (items.map fun p => (⟨p.1, p.2⟩ : Sigma fun _ : String => String)).toFinmap

inductive VersionValue where
  | str (s : String)
  | int (n : Int)
  | dict (d : StrDict)
  deriving DecidableEq

def VersionValue.truthy : VersionValue → Bool
  | str s => s ≠ ""
  | int n => n ≠ 0
  | dict d => d ≠ ∅

/-- A `versions` JSONB payload, read by key. -/
abbrev VersionDict := List (String × VersionValue)

namespace VersionDict

def get (d : VersionDict) (key : String) : Option VersionValue := d.lookup key

theorem get_of_mem {d : VersionDict} {p : String × VersionValue} (hd : (d.map Prod.fst).Nodup)
    (hp : p ∈ d) : d.get p.1 = some p.2 := by
  induction d with
  | nil => simp at hp
  | cons q d ih =>
    simp only [List.map_cons, List.nodup_cons] at hd
    rcases List.mem_cons.1 hp with rfl | hp
    · obtain ⟨key, value⟩ := p
      simp [get]
    · have hne : p.1 ≠ q.1 := fun h => hd.1 (h ▸ List.mem_map_of_mem hp)
      rw [get, List.lookup_cons, show (p.1 == q.1) = false by simpa using hne]
      exact ih hd.2 hp

end VersionDict

/-! ## Component versions -/

/-- The declared fields of the `versions` payload stored on checkpoints and artifacts. Only those
relevant to the producing stage are populated. -/
structure ComponentVersions where
  cdmVersion : Option String := none
  parserName : Option String := none
  parserVersion : Option String := none
  parserAdapterVersion : Option String := none
  enrichmentEngineVersion : Option String := none
  classificationEngineVersion : Option String := none
  classificationTaxonomyVersion : Option String := none
  profileId : Option String := none
  profileVersion : Option String := none
  chunkEngineVersion : Option String := none
  chunkStrategy : Option String := none
  chunkStrategyVersion : Option String := none
  extractionEngineVersion : Option String := none
  extractionSchemaVersion : Option String := none
  validationRulesVersion : Option String := none
  promptVersions : StrDict := ∅
  modelName : Option String := none
  modelVersion : Option String := none
  embeddingProvider : Option String := none
  embeddingModel : Option String := none
  embeddingDim : Option Int := none
  embeddingVersion : Option String := none
  embeddingStrategyVersion : Option String := none
  indexVersion : Option String := none
  graphVersion : Option String := none
  riskModelVersion : Option String := none
  sourceArtifactVersion : Option String := none

namespace ComponentVersions

/-- Every field under its name, in declaration order; `none` where the field is unset. -/
def fields (v : ComponentVersions) : List (String × Option VersionValue) :=
  [("cdm_version", v.cdmVersion.map .str),
    ("parser_name", v.parserName.map .str),
    ("parser_version", v.parserVersion.map .str),
    ("parser_adapter_version", v.parserAdapterVersion.map .str),
    ("enrichment_engine_version", v.enrichmentEngineVersion.map .str),
    ("classification_engine_version", v.classificationEngineVersion.map .str),
    ("classification_taxonomy_version", v.classificationTaxonomyVersion.map .str),
    ("profile_id", v.profileId.map .str),
    ("profile_version", v.profileVersion.map .str),
    ("chunk_engine_version", v.chunkEngineVersion.map .str),
    ("chunk_strategy", v.chunkStrategy.map .str),
    ("chunk_strategy_version", v.chunkStrategyVersion.map .str),
    ("extraction_engine_version", v.extractionEngineVersion.map .str),
    ("extraction_schema_version", v.extractionSchemaVersion.map .str),
    ("validation_rules_version", v.validationRulesVersion.map .str),
    ("prompt_versions", some (.dict v.promptVersions)),
    ("model_name", v.modelName.map .str),
    ("model_version", v.modelVersion.map .str),
    ("embedding_provider", v.embeddingProvider.map .str),
    ("embedding_model", v.embeddingModel.map .str),
    ("embedding_dim", v.embeddingDim.map .int),
    ("embedding_version", v.embeddingVersion.map .str),
    ("embedding_strategy_version", v.embeddingStrategyVersion.map .str),
    ("index_version", v.indexVersion.map .str),
    ("graph_version", v.graphVersion.map .str),
    ("risk_model_version", v.riskModelVersion.map .str),
    ("source_artifact_version", v.sourceArtifactVersion.map .str)]

def modelDump (v : ComponentVersions) : VersionDict :=
  v.fields.filterMap fun (key, value) => value.map (key, ·)

/-- True when every version this payload declares is unchanged in `other`. Asymmetric: a key absent
from `other` counts as changed, an extra key in `other` is ignored. -/
def matchesDict (v : ComponentVersions) (other : Option VersionDict) : Bool :=
  match other with
  | none => false
  | some otherDict =>
    v.modelDump.all fun (key, value) => !value.truthy || otherDict.get key == some value

/-- `{field: (stored, current)}` for every version that moved. -/
def diff (v : ComponentVersions) (other : Option VersionDict) :
    List (String × Option VersionValue × VersionValue) :=
  let otherDict := other.getD []
  v.modelDump.filterMap fun (key, value) =>
    if value.truthy && otherDict.get key != some value then some (key, otherDict.get key, value)
    else none

end ComponentVersions

/-! ## The registry -/

/-- The hand-maintained version constants that `current_versions_for_stage` reads. -/
structure Registry where
  parserFrameworkVersion : String := "1.0.0"
  parserAdapterVersions : List (String × String) :=
    [("adi", "1.0.0"), ("pdfextract", "1.0.0"), ("pymupdf", "1.0.0"), ("textract", "1.0.0"),
      ("googledocai", "1.0.0")]
  extractionEngineVersion : String := "1.0.0"
  docpipelineVersion : String := "1.0.0"
  extractionSchemaVersion : String := "1.1.0"
  promptVersions : List (String × String) :=
    [("extraction.metadata", "1.0.0"), ("extraction.parties", "1.0.0"),
      ("extraction.clauses", "1.0.0"), ("extraction.financial", "1.0.0"),
      ("extraction.obligations", "1.0.0"), ("extraction.rights", "1.0.0"),
      ("extraction.risks", "1.0.0"), ("extraction.dates", "1.0.0"),
      ("extraction.relationships", "1.0.0"), ("classification.document", "1.0.0"),
      ("summary.document", "1.1.0"), ("rag.qa", "1.0.0"), ("rag.contract_summary", "1.0.0"),
      ("rag.executive_summary", "1.0.0"), ("rag.risk_report", "1.0.0"),
      ("rag.compliance_report", "1.0.0"), ("rag.clause_comparison", "1.0.0"),
      ("rag.timeline", "1.0.0"), ("rag.obligation_report", "1.0.0"),
      ("rag.action_items", "1.0.0"), ("planner.query_analysis", "1.0.0")]
  embeddingStrategyVersion : String := "1.0.0"
  indexVersion : String := "1.0.0"
  graphVersion : String := "1.0.0"

/-- The settings that `current_versions_for_stage` reads, with their defaults. -/
structure Settings where
  activeParser : String := "adi"
  llmProvider : String := "azure_openai"
  azureOpenaiDeployment : String := ""
  modelSimple : String := "gpt-4.1"
  embeddingProvider : String := "mock"
  embeddingModel : String := "nvidia/nemotron-3-embed-1b"
  embeddingDim : Int := 2048
  embeddingVersion : String := "v1"

structure Env where
  registry : Registry := {}
  settings : Settings := {}

namespace Env

def parserAdapterVersion (env : Env) (parserName : String) : String :=
  (env.registry.parserAdapterVersions.lookup parserName).getD "unknown"

def simpleTierModel (env : Env) : String :=
  if env.settings.llmProvider = "azure_openai" ∧ env.settings.azureOpenaiDeployment ≠ "" then
    env.settings.azureOpenaiDeployment
  else env.settings.modelSimple

end Env

def currentVersionsForStage (env : Env) (stage : PipelineStage)
    (profileId profileVersion : Option String) : ComponentVersions :=
  let settings := env.settings
  let parserName := settings.activeParser
  match stage with
  | .validation => {}
  | .parser =>
    { parserName := parserName
      parserVersion := env.registry.parserFrameworkVersion
      parserAdapterVersion := env.parserAdapterVersion parserName }
  | .extraction =>
    { parserName := parserName
      parserAdapterVersion := env.parserAdapterVersion parserName
      extractionEngineVersion := env.registry.extractionEngineVersion
      extractionSchemaVersion := env.registry.extractionSchemaVersion
      modelName := env.simpleTierModel
      promptVersions := StrDict.ofItems env.registry.promptVersions }
  | .docpipeline =>
    { parserName := parserName
      parserAdapterVersion := env.parserAdapterVersion parserName
      extractionEngineVersion := env.registry.docpipelineVersion
      modelName := env.simpleTierModel
      embeddingProvider := settings.embeddingProvider
      embeddingModel := settings.embeddingModel
      embeddingDim := settings.embeddingDim
      embeddingVersion := settings.embeddingVersion }
  | .embedding =>
    { profileId := profileId
      profileVersion := profileVersion
      embeddingProvider := settings.embeddingProvider
      embeddingModel := settings.embeddingModel
      embeddingDim := settings.embeddingDim
      embeddingVersion := settings.embeddingVersion
      embeddingStrategyVersion := env.registry.embeddingStrategyVersion }
  | .indexing =>
    { indexVersion := env.registry.indexVersion
      graphVersion := env.registry.graphVersion
      embeddingModel := settings.embeddingModel
      embeddingVersion := settings.embeddingVersion }
  | _ => {}

/-! ## Comparing payloads -/

namespace ComponentVersions

theorem matchesDict_some {v : ComponentVersions} {d : VersionDict} :
    v.matchesDict (some d) = true ↔
      ∀ p ∈ v.modelDump, p.2.truthy = true → d.get p.1 = some p.2 := by
  simp only [matchesDict, List.all_eq_true, Bool.or_eq_true, Bool.not_eq_true', beq_iff_eq]
  refine forall₂_congr fun p _ => ?_
  cases p.2.truthy <;> simp

theorem fields_nodup (v : ComponentVersions) : (v.fields.map Prod.fst).Nodup := by
  simp only [fields, List.map_cons, List.map_nil]
  decide

theorem modelDump_nodup (v : ComponentVersions) : (v.modelDump.map Prod.fst).Nodup := by
  refine (fields_nodup v).sublist ?_
  simp only [modelDump]
  induction v.fields with
  | nil => simp
  | cons p l ih =>
    obtain ⟨key, _ | value⟩ := p
    · exact (ih).trans (List.sublist_cons_self _ _)
    · exact ih.cons_cons key

theorem matchesDict_modelDump (v : ComponentVersions) : v.matchesDict (some v.modelDump) = true :=
  matchesDict_some.2 fun _ hp _ => VersionDict.get_of_mem v.modelDump_nodup hp

end ComponentVersions

end Clear
