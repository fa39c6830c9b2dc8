import Clear.Ai.DocPipeline.Clauses
import Clear.Lib.OrderBy
import Clear.Models.Processing
import Mathlib.Data.String.Basic

/-!
# Which clauses matter for which document type

`app/ai/docpipeline/mapping.py`: the document types that the active profiles offer, and the clauses
that detection looks for in a document of a type.
-/

/-!
## The Clause Master

`app/models/clause_master.py`: the clause taxonomy that an administrator maintains, its versioned
extraction rules, and the mapping that says which clauses an agreement type is checked for.
-/

namespace Clear

structure ClauseMasterRule where
  version : Int
  /-- Alternative headings the same clause appears under. -/
  synonyms : List String := []
  isActive : Bool := true
  deriving DecidableEq

structure ClauseMasterCategory where
  key : String
  name : String
  description : Option String := none
  mandatory : Bool := false
  confidenceThreshold : Rat := 17 / 20
  priority : Int := 999
  isActive : Bool := true
  deletedAt : Option Timestamp := none
  /-- Newest version first. -/
  rules : List ClauseMasterRule := []
  deriving DecidableEq

structure AgreementTypeClause where
  agreementType : String
  clauseKey : String
  /-- Whether this clause is applied when a document of this type is processed. -/
  isActive : Bool := true
  deriving DecidableEq

structure ClauseConfiguration where
  categories : List ClauseMasterCategory
  mapping : List AgreementTypeClause

namespace ClauseConfiguration

def activeKeys (config : ClauseConfiguration) (agreementType : String) : List String :=
  (config.mapping.filter fun row => row.agreementType = agreementType ∧ row.isActive = true).map
    (·.clauseKey)

def configured (config : ClauseConfiguration) (agreementType : String) : Nat :=
  (config.mapping.filter (·.agreementType = agreementType)).length

def active (config : ClauseConfiguration) : List ClauseMasterCategory :=
  config.categories.filter fun category => category.isActive ∧ category.deletedAt = none

theorem configured_eq_zero {config : ClauseConfiguration} {agreementType : String} :
    config.configured agreementType = 0 ↔
      ∀ row ∈ config.mapping, row.agreementType ≠ agreementType := by
  unfold configured
  rw [List.length_eq_zero_iff, List.filter_eq_nil_iff]
  simp

theorem activeKeys_of_configured_eq_zero {config : ClauseConfiguration} {agreementType : String}
    (h : config.configured agreementType = 0) : config.activeKeys agreementType = [] := by
  unfold activeKeys
  rw [List.map_eq_nil_iff, List.filter_eq_nil_iff]
  intro row hrow hactive
  simp only [decide_eq_true_eq] at hactive
  exact configured_eq_zero.1 h row hrow hactive.1

end ClauseConfiguration

end Clear

/-!
## Document types and agreement types

`app/ai/docpipeline/taxonomy.py`: the labels of documents as values of `contracts.agreement_type`,
and the names of clauses as keys of the Clause Master.
-/

namespace Clear

namespace Taxonomy

def isAlnum (c : Char) : Bool := ('a' ≤ c && c ≤ 'z') || ('0' ≤ c && c ≤ '9')

def normalise (name : String) : String :=
  Text.strip (String.ofList (Text.replaceRuns isAlnum ' ' false
    (Text.lower (Text.strip name)).toList))

def docTypeAgreements : List (String × String × Option String) :=
  [("msa", AgreementType.msa.value, none),
    ("nda", AgreementType.nda.value, none),
    ("license agreement", AgreementType.licenseAgreement.value, none),
    ("addendum", AgreementType.amendment.value, some "addendum"),
    ("contract cum order form", AgreementType.purchaseOrder.value, some "contract_cum_order_form"),
    ("others", AgreementType.other.value, none)]

def legacyAgreementType (docType : String) : Option (String × Option String) :=
  docTypeAgreements.lookup (normalise docType)

/-- `key.replace(" ", "_")[:64] or None`. -/
def subtypeOf (key : String) : Option String :=
  (some (Text.take 64 (String.ofList (key.toList.map fun c => if c = ' ' then '_' else c)))).filter
    (· ≠ "")

def agreementTypeFor (docType : String) : String × Option String :=
  let candidate := Text.strip docType
  if (AgreementType.ofValue? candidate).isSome then (candidate, none)
  else
    match legacyAgreementType candidate with
    | some mapped => mapped
    | none => (AgreementType.other.value, subtypeOf (normalise candidate))

example : agreementTypeFor "Contract cum Order-Form " =
    ("purchase_order", some "contract_cum_order_form") := by decide +kernel

theorem agreementTypeFor_value (docType : String) :
    ∃ t : AgreementType, (agreementTypeFor docType).1 = t.value := by
  unfold agreementTypeFor
  simp only
  split
  next h => exact AgreementType.value_of_isSome h
  · split
    next mapped hmapped =>
      have hall : docTypeAgreements.all (fun e => (AgreementType.ofValue? e.2.1).isSome) = true := by
        decide
      exact AgreementType.value_of_isSome (List.all_eq_true.1 hall _ (Dict.mem_of_lookup hmapped))
    · exact ⟨.other, rfl⟩

end Taxonomy

end Clear

namespace Clear

def DocumentProfile.isLive (profile : DocumentProfile) : Bool :=
  profile.isActive && profile.deletedAt.isNone

def fallbackDocType : String := AgreementType.other.value

/-- `load_doc_types`: the types of the live profiles, and the fallback; nothing when there is none
(a `LookupError`). -/
def loadDocTypes (db : Sql.Engine String) (profiles : List DocumentProfile) :
    Option (List String) :=
  let rows := db.select (.asc fun t => t) ((profiles.filter (·.isLive)).map (·.agreementType)).dedup
  let types := rows.filter (· ≠ "")
  if types.isEmpty then none
  else some (if fallbackDocType ∈ types then types else types ++ [fallbackDocType])

/-- Is this the "I could not tell" bucket, in any spelling it has had? -/
def isFallback (label : String) : Bool :=
  let candidate := Text.strip label
  if candidate = "" then false
  else if Taxonomy.normalise candidate = Taxonomy.normalise fallbackDocType then true
  else (Taxonomy.legacyAgreementType candidate).any (·.1 = AgreementType.other.value)

def clauseKeysFor (config : ClauseConfiguration) (docType : String) : Option (List String) :=
  if isFallback docType then none
  else
    let keys := config.activeKeys docType
    if !keys.isEmpty then some keys
    else if config.configured docType ≠ 0 then some []
    else none

def ClauseMasterCategory.describe (category : ClauseMasterCategory) : String :=
  let synonyms := match category.rules.find? (·.isActive) with
    | none => []
    | some rule => (rule.synonyms.map Text.strip).filter (· ≠ "")
  if synonyms.isEmpty then Text.strip (category.description.getD "")
  else "also called " ++ ", ".intercalate synonyms

def byPriority : Sql.OrderBy ClauseMasterCategory :=
  (Sql.OrderBy.asc (·.priority)).thenBy (.asc (·.key))

def inScope (wanted : Option (List String)) (key : String) : Bool :=
  match wanted with
  | none => true
  | some keys => keys.contains key

def loadClauses (db : Sql.Engine ClauseMasterCategory) (config : ClauseConfiguration)
    (docType : String) : List ClauseSpec :=
  let wanted := clauseKeysFor config docType
  let categories := db.select byPriority (config.active.filter (inScope wanted ·.key))
  (categories.filter fun category => Text.strip category.name ≠ "").map fun category =>
    { clause := Text.strip category.name, description := category.describe }

end Clear
