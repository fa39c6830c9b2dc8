import Clear.Ai.Parsers.Layout
import Clear.Lib.Dict
import Clear.Lib.Slices
import Mathlib.Data.List.Sort

/-!
# Finding each expected clause in the document

`ClauseDetector.detect` (`app/ai/docpipeline/clauses.py`). Pass A matches section headings, exactly
and then by two samples of one model call; pass B searches the body in windows of pages, in waves
whose calls share one list of outstanding clauses. What neither pass locates is reported as not
found.

The prompts and schemas are left out: the provider may answer any call in any way. `Search` records
the requests of pass B, one for each window that was sent.
-/

/-!
## Pages and paragraphs

The parsed document that the document pipeline reads (`app/ai/docpipeline/source.py`): pages in
order, each with its paragraphs in reading order, built from one payload a page; and the geometry of
a set of paragraphs, one box for each page.
-/

namespace Clear

structure Paragraph where
  pageNumber : Int
  index : Nat
  role : Option String
  content : String
  polygon : List Rat := []
  pageWidth : Rat := 612
  pageHeight : Rat := 792
  unit : String := "inch"
  deriving DecidableEq

structure PageContent where
  pageNumber : Int
  paragraphs : List Paragraph

namespace Paragraph

def furnitureRoles : List String := ["pageHeader", "pageFooter", "pageNumber"]

/-- Openings of an execution block. -/
def signatureHints : List String :=
  ["in witness whereof", "signed by", "signature", "for and on behalf of", "authorised signatory",
    "authorized signatory", "duly authorised", "/s/"]

/-- Stable label used in prompts, e.g. `9.3`. -/
def ref (p : Paragraph) : String := toString p.pageNumber ++ "." ++ toString p.index

def box (p : Paragraph) : Except LayoutError (Option Coordinates) :=
  if p.polygon.isEmpty then .ok none
  else Layout.coordinates p.polygon p.pageNumber p.pageWidth p.pageHeight p.unit

def isHeading (p : Paragraph) : Bool := p.role = some "sectionHeading"

def isFurniture (p : Paragraph) : Bool :=
  match p.role with
  | none => false
  | some role => role ∈ furnitureRoles

def isSignatureBlock (p : Paragraph) : Bool :=
  let head := Text.take 80 (Text.lower (Text.strip p.content))
  signatureHints.any fun hint => Text.startsWith hint head || Text.contains (" " ++ hint) head

def endsClauseExtent (p : Paragraph) : Bool := p.isHeading || p.isFurniture || p.isSignatureBlock

end Paragraph

def iterParagraphs (pages : List PageContent) : List Paragraph := pages.flatMap (·.paragraphs)

/-! ## Pages from payloads -/

namespace Source

open Layout (getOf iterOr floats)

variable (std : Stdlib)

/-- `_page_number`: the page's own number, or the one that its position gives. A number that JSON
spells `true` or `false` counts as 1 or 0. -/
def pageNumber (payload : ValueDict) (fallback : Nat) : Except LayoutError Int :=
  match Value.get payload "pages" with
  | .list (page :: _) => do
    let number ← getOf page "pageNumber"
    match number with
    | .int n => return n
    | .bool b => return if b then 1 else 0
    | _ => return fallback
  | _ => .ok fallback

/-- `_page_data`: the page's own entry, which carries its dimensions and unit. -/
def pageData (payload : ValueDict) : ValueDict :=
  match Value.get payload "pages" with
  | .list (.dict page :: _) => page
  | _ => []

def contentOf (raw : Value) : Except LayoutError String := do
  match (← getOf raw "content").or (.str "") with
  | .str text => return Text.strip text
  | _ => .error .malformed

def polygonOf (raw : Value) : Except LayoutError (List Rat) := do
  let regions ← getOf raw "boundingRegions"
  let polygon ←
    match regions with
    | .list (region :: _) => do floats std (← getOf region "polygon")
    | _ => pure []
  if polygon.isEmpty then floats std (← getOf raw "polygon") else return polygon

/-- One round of the loop of `_build_page`: a blank paragraph is left out. -/
def readParagraph (number : Int) (size : Rat × Rat × String) (paragraphs : List Paragraph)
    (raw : Value) : Except LayoutError (List Paragraph) := do
  let content ← contentOf raw
  if content = "" then return paragraphs
  else
    let polygon ← polygonOf std raw
    return paragraphs ++
      [{ pageNumber := number
         index := paragraphs.length + 1
         role := (← getOf raw "role").asStr?
         content
         polygon
         pageWidth := size.1
         pageHeight := size.2.1
         unit := size.2.2 }]

def buildPage (payload : ValueDict) (fallback : Nat) : Except LayoutError PageContent := do
  let number ← pageNumber payload fallback
  let size ← Layout.pageSize std (pageData payload)
  let raws ← iterOr (Value.get payload "paragraphs")
  let paragraphs ← raws.foldlM (readParagraph std number size) []
  return { pageNumber := number, paragraphs }

def pagesFromPayloads (payloads : List ValueDict) : Except LayoutError (List PageContent) :=
  (payloads.zipIdx 1).mapM fun p => buildPage std p.1 p.2

end Source

/-! ## Boxes -/

namespace Geometry

open Layout (everyOther minOf maxOf)

/-- `union_polygon`: one axis-aligned box that covers every polygon given. -/
def unionPolygon (polygons : List (List Rat)) : List Rat :=
  let usable := polygons.filter fun polygon => 8 ≤ polygon.length
  let xs := usable.flatMap everyOther
  let ys := usable.flatMap fun polygon => everyOther (polygon.drop 1)
  if xs.isEmpty || ys.isEmpty then []
  else
    [minOf xs, minOf ys, maxOf xs, minOf ys, maxOf xs, maxOf ys, minOf xs, maxOf ys]

def sortedSet (numbers : List Int) : List Int := numbers.eraseDups.insertionSort (· ≤ ·)

def located (paragraphs : List Paragraph) : List Paragraph :=
  paragraphs.filter fun p => !p.polygon.isEmpty

def pagesWithGeometry (paragraphs : List Paragraph) : List Int :=
  sortedSet ((located paragraphs).map (·.pageNumber))

def polygonsByPage (paragraphs : List Paragraph) : List (Int × List (List Rat)) :=
  Dict.groupBy (·.pageNumber) (·.polygon) (located paragraphs)

def perPageBoxes (paragraphs : List Paragraph) : List Rat :=
  let byPage := polygonsByPage paragraphs
  ((byPage.map (·.1)).insertionSort (· ≤ ·)).flatMap fun n =>
    unionPolygon ((byPage.lookup n).getD [])

end Geometry

end Clear

namespace Clear

/-! ## Calls of the provider -/

/-- An exception of `generate_structured`. -/
structure ProviderFailure where
  schemaValidation : Bool
  message : String

def ProviderFailure.isTruncation (e : ProviderFailure) : Bool :=
  e.schemaValidation && Text.contains "truncated" (Text.lower e.message)

inductive ProviderCall where
  | headings (sample : Nat)
  | split (ref : String)
  | search (window : Nat)
  deriving DecidableEq

inductive NotIterable where
  | typeError
  deriving DecidableEq

/-- What leaves `detect` instead of a result: an answer held a value that cannot be iterated, or the
completeness assertion. -/
inductive DetectError where
  | raised (e : NotIterable)
  | assertion (notFound : List String) (pagesNeverRead : List Int)
  deriving DecidableEq

structure ClauseSpec where
  clause : String
  description : String := ""
  deriving DecidableEq

/-- A clause located in the document, with the text behind it. -/
structure DetectedClause where
  clause : String
  paragraphs : List Paragraph
  method : String
  boundaryRepaired : Bool := false
  deriving DecidableEq

namespace DetectedClause

def pageNumbers (c : DetectedClause) : List Int :=
  if (Geometry.pagesWithGeometry c.paragraphs).isEmpty then
    Geometry.sortedSet (c.paragraphs.map (·.pageNumber))
  else Geometry.pagesWithGeometry c.paragraphs

def polygon (c : DetectedClause) : List Rat := Geometry.perPageBoxes c.paragraphs

end DetectedClause

/-- What one window cost and yielded. -/
structure ChunkOutcome where
  startPage : Int
  endPage : Int
  found : List String := []
  outstandingAfter : Nat := 0
  skipped : Bool := false
  charsSent : Nat := 0
  deriving DecidableEq

/-- The result of the stage, including what was not looked at. -/
structure ClauseDetection where
  detected : List DetectedClause := []
  notFound : List String := []
  chunkOutcomes : List ChunkOutcome := []
  pagesNeverRead : List Int := []
  earlyStopped : Bool := false
  headingExact : Nat := 0
  headingLlm : Nat := 0
  totalTargets : Nat := 0
  deriving DecidableEq

structure Search where
  window : Nat
  clauses : List String
  deriving DecidableEq

/-- The detector with its provider: `generateStructured call maxTokens` is what one call answers
within a budget, `headroom` the provider's own budget, `repr` Python's `str` of a value that is not
a text. -/
structure ClauseDetector where
  repr : Value → String
  headroom : Nat
  generateStructured : ProviderCall → Nat → Except ProviderFailure ValueDict

/-- The keyword arguments of `detect`. -/
structure DetectOptions where
  chunkPages : Int := 4
  chunkOverlap : Int := 0
  concurrency : Int := 4
  earlyStop : Bool := true

/-! ## Helpers -/

namespace Heading

/-- What is left of a numbered label's digits: `\d+(?:\.\d+)*` matched greedily. -/
def afterNumber : List Char → List Char
  | [] => []
  | c :: rest =>
    if Text.isDecimal c then afterNumber rest
    else if c = '.' && (rest.head?.map Text.isDecimal).getD false then afterNumber rest
    else c :: rest

/-- `[.)\]]\s+` at the start of `chars`. -/
def afterCloser : List Char → Option (List Char)
  | c :: space :: rest =>
    if (c = '.' || c = ')' || c = ']') && Text.isSpace space then
      some (rest.dropWhile Text.isSpace)
    else none
  | _ => none

def isRoman (c : Char) : Bool := "ivxlc".toList.contains c

/-- `_LEADING_NUMBER.sub("", lowered)`: the label is a number, a Roman numeral or one letter. -/
def dropLabel (chars : List Char) : List Char :=
  let label := chars.dropWhile Text.isSpace
  let number := if (label.head?.map Text.isDecimal).getD false then
    afterCloser (afterNumber label) else none
  let roman := if (label.head?.map isRoman).getD false then
    afterCloser (label.dropWhile isRoman) else none
  let letter := if (label.head?.map fun c => 'a' ≤ c && c ≤ 'z').getD false then
    afterCloser (label.drop 1) else none
  ((number.or roman).or letter).getD chars

/-- `_normalise`: a heading or clause name reduced to comparable form. -/
def normalise (text : String) : String :=
  let lowered := (Text.lower (Text.strip text)).toList
  let alnum := (dropLabel lowered).map fun c =>
    if ('a' ≤ c && c ≤ 'z') || ('0' ≤ c && c ≤ '9') then c else ' '
  " ".intercalate (Text.split (String.ofList alnum))

example : normalise "6. INSPECTION & AUDIT" = "inspection audit" := by decide

def normalisedLookup (clauses : List ClauseSpec) : List (String × String) :=
  clauses.flatMap fun spec =>
    (spec.clause :: Text.splitOn '/' spec.clause).filterMap fun name =>
      if normalise name = "" then none else some (normalise name, spec.clause)

end Heading

def byRef (paragraphs : List Paragraph) (ref : String) : Option Paragraph :=
  (paragraphs.filter (·.ref = ref)).getLast?

def extentFromHeading (heading : Paragraph) (paragraphs : List Paragraph) : List Paragraph :=
  match paragraphs.idxOf? heading with
  | none => [heading]
  | some start => heading :: (paragraphs.drop (start + 1)).takeWhile (!·.endsClauseExtent)

def maxRepairParagraphs : Nat := 12

/-- `_repair_boundary`: extend a clause that runs off the end of its chunk. -/
def repairBoundary (selected body paragraphs : List Paragraph) : List Paragraph × Bool :=
  match selected.getLast?, body.getLast? with
  | some last, some edge =>
    if last.ref ≠ edge.ref then (selected, false)
    else
      match paragraphs.idxOf? last with
      | none => (selected, false)
      | some start =>
        let more := (((paragraphs.drop (start + 1)).takeWhile (!·.endsClauseExtent)).take
          maxRepairParagraphs).takeWhile (·.pageNumber ≤ last.pageNumber + 1)
        (selected ++ more, !more.isEmpty)
  | _, _ => (selected, false)

def windows (pages : List PageContent) (options : DetectOptions) : List (List PageContent) :=
  let size := (max 1 options.chunkPages).toNat
  let step := max 1 (size - (max 0 options.chunkOverlap).toNat)
  Slices.slices size step pages

namespace ClauseDetector

/-! ## Reading a response -/

def defaultMaxTokens : Nat := 2000

/-- `call_structured`: one call on a budget, retried once with headroom if it overflows. -/
def structured (d : ClauseDetector) (call : ProviderCall) : Except ProviderFailure ValueDict :=
  match d.generateStructured call defaultMaxTokens with
  | .ok data => .ok data
  | .error e =>
    if e.isTruncation then
      if d.headroom ≤ defaultMaxTokens then .error e else d.generateStructured call d.headroom
    else .error e

def entries (data : ValueDict) (key : String) : Except NotIterable (List ValueDict) :=
  match ((Value.get data key).or (.list [])).iter with
  | none => .error .typeError
  | some items => .ok (items.filterMap Value.asDict?)

def cleanRef (d : ClauseDetector) (v : Value) : String :=
  Text.strip (Text.trim (fun c => c = '[' || c = ']') (Text.strip (v.toStr d.repr)))

def clauseOf (d : ClauseDetector) (entry : ValueDict) : String :=
  Text.strip (((Value.get entry "clause").or (.str "")).toStr d.repr)

def refsOf (d : ClauseDetector) (entry : ValueDict) : Except NotIterable (List String) :=
  match ((Value.get entry "paragraph_refs").or (.list [])).iter with
  | none => .error .typeError
  | some items => .ok (items.map d.cleanRef)

/-! ## Pass A -/

def headingSamples : Nat := 2

/-- Clause name → (heading, how it was matched), in the order of insertion. -/
abbrev Taken := List (String × (Paragraph × String))

def Taken.holds (taken : Taken) (clause : String) : Bool := taken.any (·.1 = clause)

def exactStep (lookup : List (String × String)) (s : Taken × List Paragraph)
    (heading : Paragraph) : Taken × List Paragraph :=
  match lookup.lookup (Heading.normalise heading.content) with
  | none => (s.1, s.2 ++ [heading])
  | some clause =>
    if s.1.holds clause then (s.1, s.2 ++ [heading])
    else (s.1 ++ [(clause, heading, "heading:exact")], s.2)

def exactPass (headings : List Paragraph) (clauses : List ClauseSpec) : Taken × List Paragraph :=
  headings.foldl (exactStep (Heading.normalisedLookup clauses)) ([], [])

/-- The pair of an entry of `matches`, if both parts are there. -/
def assignmentOf (d : ClauseDetector) (entry : ValueDict) : Option (String × String) :=
  let ref := d.cleanRef ((Value.get entry "heading_ref").or (.str ""))
  let clause := d.clauseOf entry
  if ref = "" || clause = "" then none else some (ref, clause)

def mapHeadings (d : ClauseDetector) (sample : Nat) :
    Except NotIterable (List (String × String)) :=
  match d.structured (.headings sample) with
  | .error _ => .ok []
  | .ok data => (entries data "matches").map fun es => es.filterMap d.assignmentOf

/-- One pair of a sample: the first claim of a clause that is still free counts. -/
def assignStep (unmatched : List Paragraph) (remaining : List ClauseSpec) (taken : Taken)
    (a : String × String) : Taken :=
  match byRef unmatched a.1 with
  | none => taken
  | some heading =>
    if remaining.any (·.clause = a.2) && !taken.holds a.2 then
      taken ++ [(a.2, heading, "heading:llm")]
    else taken

/-- The samples, unioned into what the exact match took. -/
def llmPass (d : ClauseDetector) (unmatched : List Paragraph) (remaining : List ClauseSpec)
    (taken : Taken) : Except NotIterable Taken :=
  if unmatched.isEmpty || remaining.isEmpty then .ok taken
  else do
    let samples ← (List.range headingSamples).mapM d.mapHeadings
    return samples.flatten.foldl (assignStep unmatched remaining) taken

def ordered (taken : Taken) (paragraphs : List Paragraph) : Taken :=
  let position (ref : String) : Nat :=
    (((paragraphs.zipIdx.filter (·.1.ref = ref)).getLast?).map (·.2)).getD 0
  taken.mergeSort fun a b => position a.2.1.ref ≤ position b.2.1.ref

def claimants (taken : Taken) (ref : String) : List String :=
  (taken.filter (·.2.1.ref = ref)).map (·.1)

def splitStep (d : ClauseDetector) (extent : List Paragraph) (clauses : List String)
    (split : List (String × List Paragraph)) (entry : ValueDict) :
    Except NotIterable (List (String × List Paragraph)) :=
  let clause := d.clauseOf entry
  if clauses.contains clause then
    (d.refsOf entry).map fun refs =>
      let chosen := refs.filterMap (byRef extent)
      if chosen.isEmpty then split
      else (split.filter (·.1 ≠ clause)) ++ [(clause, chosen)]
  else .ok split

def splitSection (d : ClauseDetector) (ref : String) (extent : List Paragraph)
    (clauses : List String) : Except NotIterable (List (String × List Paragraph)) :=
  match d.structured (.split ref) with
  | .error _ => .ok []
  | .ok data => do
    let es ← entries data "assignments"
    let split ← es.foldlM (d.splitStep extent clauses) []
    return if split.length < clauses.length then [] else split

/-- The section of a heading that several clauses claimed. -/
def sharedExtent (taken : Taken) (paragraphs : List Paragraph) (ref : String) : List Paragraph :=
  match byRef (taken.map (·.2.1)) ref with
  | none => []
  | some heading => extentFromHeading heading paragraphs

/-- The splits of the headings that several clauses claimed. -/
def splits (d : ClauseDetector) (taken : Taken) (paragraphs : List Paragraph) :
    Except NotIterable (List (String × List (String × List Paragraph))) :=
  let contested := ((taken.map (·.2.1.ref)).eraseDups).filter fun ref =>
    1 < (claimants taken ref).length
  contested.mapM fun ref =>
    (d.splitSection ref (sharedExtent taken paragraphs ref) (claimants taken ref)).map (ref, ·)

def extentOf (paragraphs : List Paragraph)
    (splits : List (String × List (String × List Paragraph)))
    (e : String × (Paragraph × String)) : DetectedClause :=
  let portion := ((splits.lookup e.2.1.ref).getD []).lookup e.1
  match portion with
  | some (p :: portion) =>
    { clause := e.1, paragraphs := p :: portion, method := e.2.2 ++ ":split" }
  | _ => { clause := e.1, paragraphs := extentFromHeading e.2.1 paragraphs, method := e.2.2 }

/-- `_extents`: heading matches as extents, splitting any shared section. -/
def extents (d : ClauseDetector) (taken : Taken) (paragraphs : List Paragraph) :
    Except NotIterable (List DetectedClause) := do
  let taken := ordered taken paragraphs
  let splits ← d.splits taken paragraphs
  return taken.map (extentOf paragraphs splits)

structure HeadingPass where
  detected : List DetectedClause := []
  exact : Nat := 0
  llm : Nat := 0

def headingPass (d : ClauseDetector) (paragraphs : List Paragraph) (clauses : List ClauseSpec) :
    Except NotIterable HeadingPass :=
  let headings := paragraphs.filter (·.isHeading)
  if headings.isEmpty then .ok {}
  else do
    let (exact, unmatched) := exactPass headings clauses
    let remaining := clauses.filter fun spec => !exact.holds spec.clause
    let taken ← d.llmPass unmatched remaining exact
    let detected ← d.extents taken paragraphs
    return { detected, exact := exact.length, llm := taken.length - exact.length }

/-! ## Pass B -/

/-- A chunk with less text than this is not worth a call. -/
def minChunkChars : Nat := 200

def body (window : List PageContent) : List Paragraph := window.flatMap (·.paragraphs)

def charsSent (window : List PageContent) : Nat :=
  (body window).foldl (fun n p => n + p.content.length) 0

def skipped (window : List PageContent) : Bool := charsSent window < minChunkChars

/-- One entry of a search: the first one with a ref of the window counts. -/
def foundStep (d : ClauseDetector) (body : List Paragraph) (pending : List ClauseSpec)
    (found : List (String × List String)) (entry : ValueDict) :
    Except NotIterable (List (String × List String)) :=
  let clause := d.clauseOf entry
  if pending.any (·.clause = clause) && !found.any (·.1 = clause) then
    (d.refsOf entry).map fun refs =>
      let refs := refs.filter fun ref => body.any (·.ref = ref)
      if refs.isEmpty then found else found ++ [(clause, refs)]
  else .ok found

/-- `_search_chunk`: clause → refs, of one window; a failed call finds nothing. -/
def searchChunk (d : ClauseDetector) (index : Nat) (body : List Paragraph)
    (pending : List ClauseSpec) : Except NotIterable (List (String × List String)) :=
  match d.structured (.search index) with
  | .error _ => .ok []
  | .ok data => do
    let es ← entries data "clauses"
    es.foldlM (d.foundStep body pending) []

abbrev Numbered := List PageContent × Nat

/-- The state of the chunk loop: the result so far, the outstanding clauses and the pages and
requests of the windows already reached. -/
structure ChunkPass where
  detected : List DetectedClause
  pending : List ClauseSpec
  chunkOutcomes : List ChunkOutcome := []
  seenPages : List Int := []
  searches : List Search := []

def claimed (detected : List DetectedClause) (clause : String) : Bool :=
  detected.any (·.clause = clause)

def startPage (window : List PageContent) : Int := (window.head?.map (·.pageNumber)).getD 0

def endPage (window : List PageContent) : Int := (window.getLast?.map (·.pageNumber)).getD 0

/-- One clause that a search found: the first occurrence in document order wins. -/
def claimStep (paragraphs : List Paragraph) (window : List PageContent)
    (s : List DetectedClause × List String) (e : String × List String) :
    List DetectedClause × List String :=
  if claimed s.1 e.1 then s
  else
    match e.2.filterMap (byRef paragraphs) with
    | [] => s
    | p :: rest =>
      let repaired := repairBoundary (p :: rest) (body window) paragraphs
      let clause : DetectedClause :=
        { clause := e.1
          paragraphs := repaired.1
          method := "chunk " ++ toString (startPage window) ++ "-" ++ toString (endPage window)
          boundaryRepaired := repaired.2 }
      (s.1 ++ [clause], s.2 ++ [e.1])

def recordWindow (paragraphs : List Paragraph) (s : ChunkPass)
    (w : Numbered × List (String × List String)) : ChunkPass :=
  let window := w.1.1
  let claims := w.2.foldl (claimStep paragraphs window) (s.detected, [])
  let pending := s.pending.filter fun spec => !claimed claims.1 spec.clause
  let outcome : ChunkOutcome :=
    { startPage := startPage window
      endPage := endPage window
      found := claims.2
      outstandingAfter := pending.length
      skipped := skipped window
      charsSent := charsSent window }
  { s with
    detected := claims.1
    pending
    chunkOutcomes := s.chunkOutcomes ++ [outcome] }

def searchWave (d : ClauseDetector) (pending : List ClauseSpec) (wave : List Numbered) :
    Except NotIterable (List (List (String × List String))) :=
  wave.mapM fun w =>
    if skipped w.1 then .ok [] else d.searchChunk w.2 (body w.1) pending

def runWave (d : ClauseDetector) (paragraphs : List Paragraph) (wave : List Numbered)
    (s : ChunkPass) : Except NotIterable ChunkPass := do
  let found ← d.searchWave s.pending wave
  let reached : ChunkPass :=
    { s with
      seenPages := s.seenPages ++ (wave.flatMap (·.1)).map (·.pageNumber)
      searches := s.searches ++ (wave.filter (!skipped ·.1)).map fun w =>
        { window := w.2, clauses := s.pending.map (·.clause) } }
  return (wave.zip found).foldl (recordWindow paragraphs) reached

def unread (seen : List Int) (later : List Numbered) : List Int :=
  ((((later.flatMap (·.1)).map (·.pageNumber)).filter fun n => !seen.contains n).eraseDups).mergeSort

def chunkLoop (d : ClauseDetector) (paragraphs : List Paragraph) (earlyStop : Bool) :
    List (List Numbered) → ChunkPass → Except NotIterable (ChunkPass × Bool × List Int)
  | [], s => .ok (s, s.pending.isEmpty && earlyStop, [])
  | wave :: waves, s =>
    if s.pending.isEmpty && earlyStop then
      .ok (s, true, unread s.seenPages (wave :: waves).flatten)
    else do
      let s ← d.runWave paragraphs wave s
      d.chunkLoop paragraphs earlyStop waves s

def chunkPass (d : ClauseDetector) (pages : List PageContent) (options : DetectOptions)
    (detected : List DetectedClause) (outstanding : List ClauseSpec) :
    Except NotIterable (ChunkPass × Bool × List Int) :=
  let waveSize := (max 1 options.concurrency).toNat
  let waves := Slices.slices waveSize waveSize (windows pages options).zipIdx
  d.chunkLoop (iterParagraphs pages) options.earlyStop waves { detected, pending := outstanding }

def bodyPass (d : ClauseDetector) (pages : List PageContent) (options : DetectOptions)
    (detected : List DetectedClause) (outstanding : List ClauseSpec) :
    Except NotIterable (ChunkPass × Bool × List Int) :=
  if outstanding.isEmpty then .ok ({ detected, pending := [] }, false, [])
  else d.chunkPass pages options detected outstanding

/-! ## The two passes -/

/-- The targets that are not located. -/
def missing (clauses : List ClauseSpec) (detected : List DetectedClause) : List ClauseSpec :=
  clauses.filter fun spec => !claimed detected spec.clause

/-- The result of both passes, after the completeness assertion. -/
def report (clauses : List ClauseSpec) (headed : HeadingPass)
    (pass : ChunkPass × Bool × List Int) : Except DetectError (ClauseDetection × List Search) :=
  let notFound := (missing clauses pass.1.detected).map (·.clause)
  if !notFound.isEmpty && !pass.2.2.isEmpty then .error (.assertion notFound pass.2.2)
  else
    .ok
      ({ detected := pass.1.detected
         notFound
         chunkOutcomes := pass.1.chunkOutcomes
         pagesNeverRead := pass.2.2
         earlyStopped := pass.2.1
         headingExact := headed.exact
         headingLlm := headed.llm
         totalTargets := clauses.length }, pass.1.searches)

/-- `detect`, with the requests of pass B. -/
def detect (d : ClauseDetector) (pages : List PageContent) (clauses : List ClauseSpec)
    (options : DetectOptions) : Except DetectError (ClauseDetection × List Search) :=
  if clauses.isEmpty then .ok ({ totalTargets := clauses.length }, [])
  else
    match d.headingPass (iterParagraphs pages) clauses with
    | .error e => .error (.raised e)
    | .ok headed =>
      match d.bodyPass pages options headed.detected (missing clauses headed.detected) with
      | .error e => .error (.raised e)
      | .ok pass => report clauses headed pass

end ClauseDetector

end Clear
