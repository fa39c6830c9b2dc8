import Clear.Ai.DocPipeline.Mapping
import Clear.Ai.Extraction.Engine
import Clear.Ai.Rag.Providers

/-!
# The extraction stage: what is searched, and for which clauses

`_section_chunks` (`app/orchestrator/stages/extraction.py`) groups the paragraphs of a document into
sections, and cuts a long section into parts. `_load_clause_definitions` and `_active_clause_keys`
(`app/orchestrator/stages/extraction_base.py`) say which clauses a contract is searched for.
-/

namespace Clear

namespace ExtractionStage

/-! ## Sections -/

open Retrieval (estimateTokens)

def maxSectionTokens : Nat := 700

def isDropped (p : Paragraph) : Bool := p.isFurniture || Text.isBlank p.content

/-- One round of the first loop of `_section_chunks`, on the sections and the current one. -/
def gather (s : List (List Paragraph) × List Paragraph) (p : Paragraph) :
    List (List Paragraph) × List Paragraph :=
  if isDropped p then s
  else if p.isHeading && !s.2.isEmpty then (s.1 ++ [s.2], [p])
  else (s.1, s.2 ++ [p])

/-- A heading opens a section; what comes before the first heading is a section of its own. -/
def sections (paragraphs : List Paragraph) : List (List Paragraph) :=
  let s := paragraphs.foldl gather ([], [])
  if s.2.isEmpty then s.1 else s.1 ++ [s.2]

/-- What the loop of `_split_oversized` carries. -/
structure Splitting where
  parts : List (List Paragraph) := []
  run : List Paragraph := []
  budget : Nat := 0

def Splitting.flush (heading : Option Paragraph) (s : Splitting) : Splitting :=
  { parts := s.parts ++ [heading.toList ++ s.run] }

/-- One round of the loop of `_split_oversized`. -/
def Splitting.place (heading : Option Paragraph) (s : Splitting) (p : Paragraph) : Splitting :=
  let cost := estimateTokens p.content
  let s := if !s.run.isEmpty && maxSectionTokens < s.budget + cost then s.flush heading else s
  { s with run := s.run ++ [p], budget := s.budget + cost }

def headingOf (paragraphs : List Paragraph) : Option Paragraph :=
  paragraphs.head?.filter (·.isHeading)

def bodyOf (paragraphs : List Paragraph) : List Paragraph :=
  if (headingOf paragraphs).isSome then paragraphs.drop 1 else paragraphs

def splitOversized (paragraphs : List Paragraph) : List (List Paragraph) :=
  if estimateTokens ("\n".intercalate (paragraphs.map (·.content))) ≤ maxSectionTokens then
    [paragraphs]
  else
    let heading := headingOf paragraphs
    let s := (bodyOf paragraphs).foldl (Splitting.place heading) {}
    let s := if s.run.isEmpty then s else s.flush heading
    if s.parts.isEmpty then [paragraphs] else s.parts

/-- The digits at the start, with every group of a dot and digits after them, and the rest. -/
def numberFrom : (number : List Char) → List Char → List Char × List Char
  | number, '.' :: d :: rest =>
    if Text.isDecimal d then numberFrom (d :: '.' :: number) rest else (number, '.' :: d :: rest)
  | number, c :: rest =>
    if Text.isDecimal c then numberFrom (c :: number) rest else (number, c :: rest)
  | number, [] => (number, [])

/-- `_CLAUSE_NUMBER.match(title)`: the number that a title starts with. White space must follow it,
or a dot or a parenthesis and white space. -/
def clauseNumber (title : String) : Option String :=
  let chars := title.toList.dropWhile Text.isSpace
  let found := numberFrom [] chars
  let ended :=
    match found.2 with
    | c :: d :: _ => Text.isSpace c || ((c = '.' || c = ')') && Text.isSpace d)
    | [c] => Text.isSpace c
    | [] => false
  if chars.head?.any Text.isDecimal && ended then some (String.ofList found.1.reverse) else none

example : clauseNumber "9.3. Limitation of Liability" = some "9.3" := by decide

def pageBoxes (paragraphs : List Paragraph) : Except LayoutError (List Coordinates) := do
  let boxes ← paragraphs.mapM (·.box)
  let byPage := Dict.groupBy (·.pageNumber) id (boxes.filterMap id)
  let merged ← ((byPage.map (·.1)).insertionSort (· ≤ ·)).mapM fun page =>
    Coordinates.merge ((byPage.lookup page).getD [])
  return merged.filterMap id

def textOf (paragraphs : List Paragraph) : String :=
  "\n".intercalate ((paragraphs.map fun p => Text.strip p.content).filter (· ≠ ""))

/-- `_to_chunk`: one section as the selector wants to see it. -/
def toChunk (paragraphs : List Paragraph) (readingOrder : Nat) (suffix : String) :
    Except LayoutError (Option CandidateChunk) :=
  let text := textOf paragraphs
  match paragraphs with
  | [] => .ok none
  | first :: _ =>
    if text = "" then .ok none
    else do
      let title := (headingOf paragraphs).map fun heading => Text.strip heading.content
      let boundingBoxes ← pageBoxes paragraphs
      return some
        { chunkId := first.ref ++ suffix
          text
          chunkType := if title.isSome then .«section» else .paragraph
          readingOrder
          tokenCount := estimateTokens text
          sectionTitle := title
          clauseNumber := title.bind clauseNumber
          pageStart := (paragraphs.map (·.pageNumber)).min?
          pageEnd := (paragraphs.map (·.pageNumber)).max?
          boundingBoxes }

def addPart (count : Nat) (chunks : List CandidateChunk) (numbered : List Paragraph × Nat) :
    Except LayoutError (List CandidateChunk) := do
  let suffix := if 1 < count then "-" ++ toString numbered.2 else ""
  let chunk ← toChunk numbered.1 (chunks.length + 1) suffix
  return chunks ++ chunk.toList

def addSection (chunks : List CandidateChunk) (paragraphs : List Paragraph) :
    Except LayoutError (List CandidateChunk) :=
  let parts := splitOversized paragraphs
  (parts.zipIdx 1).foldlM (addPart parts.length) chunks

def sectionChunks (paragraphs : List Paragraph) : Except LayoutError (List CandidateChunk) :=
  (sections paragraphs).foldlM addSection []

/-! ## Clauses -/

/-- Clause keys configured and active for the agreement type of a contract; `none` means "no mapping
configured, run everything". -/
def activeClauseKeys (config : ClauseConfiguration) (agreementType : Option String) :
    Option (List String) :=
  match agreementType.filter (· ≠ "") with
  | none => none
  | some agreementType =>
    let keys := config.activeKeys agreementType
    if config.configured agreementType = 0 then none else some keys

def activeRule (category : ClauseMasterCategory) : Option ClauseMasterRule :=
  (category.rules.filter (·.isActive)).foldl
    (fun best rule =>
      match best with
      | none => some rule
      | some held => if held.version < rule.version then some rule else some held)
    none

def ofCategory (category : ClauseMasterCategory) : ClauseDefinition where
  key := category.key
  name := category.name
  priority := if category.priority = 0 then 999 else category.priority
  mandatory := category.mandatory
  confidenceThreshold :=
    if category.confidenceThreshold = 0 then 17 / 20 else category.confidenceThreshold

/-- The Clause Master, restricted to what an agreement type asks for; a category without an active
rule is skipped. -/
def loadClauseDefinitions (db : Sql.Engine ClauseMasterCategory) (config : ClauseConfiguration)
    (agreementType : Option String) : List ClauseDefinition :=
  let wanted := activeClauseKeys config agreementType
  (db.select byPriority config.active).filterMap fun category =>
    if inScope wanted category.key then (activeRule category).map fun _ => ofCategory category
    else none

end ExtractionStage

end Clear

/-!
## The document pipeline stage: what it promotes

`DocPipelineStage.run` (`app/orchestrator/stages/docpipeline.py`) classifies the document, resolves
the profile that governs it, and promotes both onto the rows of the contract and of the job.
-/

namespace Clear

namespace DocPipeline

/-! ## The profile -/

def profilesOfType (profiles : List DocumentProfile) (wanted : String) : List DocumentProfile :=
  profiles.filter fun profile => profile.isLive = true ∧ profile.agreementType = wanted

def defaultProfiles (profiles : List DocumentProfile) : List DocumentProfile :=
  profiles.filter fun profile => profile.isLive = true ∧ profile.isDefault = true

def byPrecedence : Sql.OrderBy DocumentProfile :=
  (Sql.OrderBy.asc (·.projectId.isNone)).thenBy (.desc (·.priority))

def resolveProfile (db : Sql.Engine DocumentProfile) (profiles : List DocumentProfile)
    (wanted : String) : Option DocumentProfile :=
  match (db.select byPrecedence (profilesOfType profiles wanted)).head? with
  | some profile => some profile
  | none => (db.select .unordered (defaultProfiles profiles)).head?

/-! ## The classification -/

/-- The columns of `contracts` that record the classification. -/
structure Classification where
  agreementType : Option String := none
  agreementSubtype : Option String := none

def Classification.promote (contract : Classification) (docType : String) : Classification :=
  let (agreementType, agreementSubtype) := Taxonomy.agreementTypeFor docType
  { agreementType := if agreementType ≠ "" then some agreementType else contract.agreementType
    agreementSubtype := (agreementSubtype.filter (· ≠ "")).or contract.agreementSubtype }

theorem Classification.promote_agreementType (contract : Classification) (docType : String) :
    (contract.promote docType).agreementType = some (Taxonomy.agreementTypeFor docType).1 := by
  obtain ⟨t, ht⟩ := Taxonomy.agreementTypeFor_value docType
  have hne : (Taxonomy.agreementTypeFor docType).1 ≠ "" := by
    rw [ht]
    cases t <;> decide
  exact if_pos hne

end DocPipeline

end Clear
