import Clear.Ai.Parsers.LayoutParser
import Clear.Lib.Forest
import Clear.Lib.OrderBy
import Mathlib.Data.List.SplitBy
import Mathlib.Data.Prod.Lex
import Mathlib.Data.String.Basic

/-!
# The canonical document

`app/ai/cdm/builder.py`. Every section gets a link to its parent from its number, from the parser, or
from the levels of the sections before it, and links that lead into a cycle are cleared
(`_repair_sections`, `_break_cycles`). Paragraphs split by a page break are merged, elements without
a section get the one that began last, and all are put in one reading order.

The nodes are those of `app/ai/cdm/models.py` that adapters emit and the builder orders. The metadata
of a document, its images, signatures, furniture and footnotes are passed on as they are and left
out, as are the references between clauses and the statistics.
-/

namespace Clear

namespace Document

/-- A logical section of the document. -/
structure Section where
  sectionId : String
  title : String
  level : Int := 1
  parentSection : Option String := none
  startPage : Int := 1
  endPage : Int := 1
  number : Option String := none
  order : Int := 0
  coordinates : Option Coordinates := none
  deriving DecidableEq

structure Paragraph where
  paragraphId : String
  text : String
  pageNumber : Int
  sectionId : Option String := none
  coordinates : Option Coordinates := none
  readingOrder : Int := 0
  isContinuation : Bool := false
  style : Option String := none
  deriving DecidableEq

structure TableCell where
  row : Int
  col : Int
  text : String := ""
  rowSpan : Int := 1
  colSpan : Int := 1
  isHeader : Bool := false
  coordinates : Option Coordinates := none
  deriving DecidableEq

structure Table where
  tableId : String
  pageNumber : Int
  rows : Int := 0
  columns : Int := 0
  cells : List TableCell := []
  caption : Option String := none
  sectionId : Option String := none
  coordinates : Option Coordinates := none
  readingOrder : Int := 0
  continuesFrom : Option String := none
  deriving DecidableEq

structure ListItem where
  text : String
  level : Int := 1
  marker : Option String := none
  coordinates : Option Coordinates := none
  deriving DecidableEq

structure DocumentList where
  listId : String
  pageNumber : Int
  ordered : Bool := false
  items : List ListItem := []
  sectionId : Option String := none
  coordinates : Option Coordinates := none
  readingOrder : Int := 0
  deriving DecidableEq

end Document

end Clear

namespace Clear

namespace SectionTree

open Document (Section)

def numberOf (s : Section) : Option (List String) :=
  let text := Text.strip (s.number.getD "")
  let body := if Text.endsWith "." text then String.ofList text.toList.dropLast else text
  let parts := Text.splitOn '.' body
  if parts.all fun part => part ≠ "" && part.toList.all Text.isDecimal then some parts else none

def byNumber (sections : List Section) (parts : List String) : Option String :=
  ((sections.filter fun s => numberOf s = some parts).getLast?).map (·.sectionId)

def levelOf (s : Section) : Int :=
  match numberOf s with
  | some parts => parts.length
  | none => s.level

structure Link where
  parent : Option String
  inferred : Nat := 0
  cleared : Nat := 0

namespace Link

def infer (l : Link) (candidate : String) : Link :=
  { l with
    parent := some candidate
    inferred := if l.parent ≠ some candidate then l.inferred + 1 else l.inferred }

def clear (l : Link) : Link := { l with parent := none, cleared := l.cleared + 1 }

def numbered (sections : List Section) (s : Section) (l : Link) : Link :=
  match numberOf s with
  | none => l
  | some parts =>
    if 1 < parts.length then
      match byNumber sections parts.dropLast with
      | some candidate => if candidate ≠ "" ∧ candidate ≠ s.sectionId then l.infer candidate else l
      | none => l
    else if l.parent.isSome then l.clear
    else l

def existing (sections : List Section) (l : Link) : Link :=
  match l.parent with
  | some parent => if parent ∈ sections.map (·.sectionId) then l else l.clear
  | none => l

def shallower (repaired : List Section) (level : Int) (l : Link) : Link :=
  if l.parent.isNone ∧ 1 < level then
    match repaired.reverse.find? (·.level < level) with
    | some previous => l.infer previous.sectionId
    | none => l
  else l

def notSelf (s : Section) (l : Link) : Link :=
  if l.parent = some s.sectionId then l.clear else l

end Link

/-- What the loop over the sections has made. -/
structure Repair where
  repaired : List Section := []
  inferred : Nat := 0
  cleared : Nat := 0

/-- One turn of the loop. -/
def Repair.step (sections : List Section) (r : Repair) (s : Section) : Repair :=
  let level := levelOf s
  let link := (((({ parent := s.parentSection } : Link).numbered sections s).existing sections)
    |>.shallower r.repaired level).notSelf s
  { repaired := r.repaired ++
      [{ s with parentSection := link.parent, level, order := r.repaired.length }]
    inferred := r.inferred + link.inferred
    cleared := r.cleared + link.cleared }

/-- The sections before cycles are broken. -/
def linked (sections : List Section) : Repair := sections.foldl (Repair.step sections) {}

def parents (sections : List Section) (sectionId : String) : Option String :=
  ((sections.map fun s => (s.sectionId, s.parentSection)).reverse.lookup sectionId).join

def breakCycles (sections : List Section) : List Section :=
  sections.map fun s =>
    if Forest.walk (parents sections) sections.length [s.sectionId] s.parentSection = some true then
      { s with parentSection := none }
    else s

def repairSections (sections : List Section) : List Section × Nat × Nat :=
  let r := linked sections
  (breakCycles r.repaired, r.inferred, r.cleared)

/-! ## What the repair is for -/

def SameSection (s t : Section) : Prop :=
  t = { s with parentSection := t.parentSection, level := t.level, order := t.order }

/-- The hierarchy is a forest that says what the numbers say, and only links on a cycle are lost. -/
structure IsRepaired (sections before after : List Section) : Prop where
  same : List.Forall₂ SameSection sections after
  forest : Forest.Acyclic (parents after)
  existing : ∀ s ∈ after, ∀ parent ∈ s.parentSection, ∃ t ∈ sections, t.sectionId = parent
  numbered : ∀ s ∈ after, ∀ parts part, numberOf s = some (parts ++ [part]) →
    (∃ t ∈ sections, numberOf t = some parts) →
      (∃ t ∈ sections, numberOf t = some parts ∧ s.parentSection = some t.sectionId) ∨
        Forest.OnCycle (parents before) s.sectionId
  roots : ∀ s ∈ after, ∀ part, numberOf s = some [part] → s.parentSection = none
  kept : ∀ s ∈ before, ∀ parent, parents before s.sectionId = some parent →
    ¬ Forest.OnCycle (parents before) s.sectionId → parents after s.sectionId = some parent

/-- The parser's link if it leads to another section, or what the levels say if it leads nowhere. -/
def settled (sections before : List Section) (s : Section) : Option String :=
  match s.parentSection.filter (· ∈ sections.map (·.sectionId)) with
  | some parent => if parent = s.sectionId then none else some parent
  | none =>
    if 1 < levelOf s then
      (before.reverse.find? fun t => levelOf t < levelOf s).map (·.sectionId)
    else none

/-- The link that the number, the parser or the levels give a section. -/
def given (sections before : List Section) (s : Section) : Option String :=
  match numberOf s with
  | none => settled sections before s
  | some parts =>
    if 1 < parts.length then
      ((byNumber sections parts.dropLast).filter (· ≠ "")).or (settled sections before s)
    else none

/-- The links of the sections that come after others. -/
def givenFrom (sections : List Section) : (before rest : List Section) →
    List (String × Option String)
  | _, [] => []
  | before, s :: rest =>
    (s.sectionId, given sections before s) :: givenFrom sections (before ++ [s]) rest

def givenParents (sections : List Section) (sectionId : String) : Option String :=
  ((givenFrom sections [] sections).lookup sectionId).join

def NoneBelowCycle (sections : List Section) : Prop :=
  ∀ s ∈ sections, Forest.Ends (givenParents sections) s.sectionId ∨
    Forest.OnCycle (givenParents sections) s.sectionId

/-- Where the empty identifier belongs to the section that a number extends, another link leads to
a section with that number. -/
def EmptyIdLinked (sections : List Section) : Prop :=
  ∀ s ∈ sections, ∀ parts part, numberOf s = some (parts ++ [part]) →
    byNumber sections parts = some "" →
      (∃ t ∈ sections, numberOf t = some parts ∧
        givenParents sections s.sectionId = some t.sectionId) ∨
      Forest.OnCycle (givenParents sections) s.sectionId

end SectionTree

namespace Builder

open Document

/-! ## Continuations -/

/-- `re` on the start of a fragment, and the case folding. -/
structure Signals where
  lower : String → String
  /-- `_REFERENCE_PATTERN.match`. -/
  isReference : String → Bool
  /-- A match of `^\d+(\.\d+)*\.?\s+[A-Z]`. -/
  isNumbered : String → Bool

def rstrip (s : String) : String :=
  String.ofList (s.toList.reverse.dropWhile Text.isSpace).reverse

def lstrip (s : String) : String := String.ofList (s.toList.dropWhile Text.isSpace)

def abbreviations : List String :=
  ["inc.", "ltd.", "llc.", "co.", "corp.", "no.", "nos.", "art.", "sec.", "cf.", "e.g.", "i.e.",
    "etc.", "vs.", "v."]

/-- `_SENTENCE_END` at the end of a stripped text: a mark, and a quote or bracket after it. -/
def endsWithMark (text : String) : Bool :=
  let marks := ['.', '!', '?', ':', ';']
  match text.toList.reverse with
  | [] => false
  | [c] => marks.contains c
  | c :: d :: _ => marks.contains c || (['\'', '"', ')', ']'].contains c && marks.contains d)

section

variable (signals : Signals)

def endsSentence (text : String) : Bool :=
  endsWithMark text && !abbreviations.any fun s => Text.endsWith s (signals.lower text)

/-- `_CONTINUATION_START.match`: its words begin with lower case letters, too. -/
def startsLower (text : String) : Bool :=
  text.toList.head?.any fun c => 'a' ≤ c && c ≤ 'z'

def differ (first second : Option String) : Bool :=
  first.any (· ≠ "") && second.any (· ≠ "") && first ≠ second

/-- Would these two fragments form one clause? -/
def isContinuation (first second : Paragraph) : Bool :=
  let text := rstrip first.text
  let start := Text.strip second.text
  second.pageNumber = first.pageNumber + 1 && text ≠ "" && start ≠ "" &&
    !endsSentence signals text && !(signals.isReference start || signals.isNumbered start) &&
    startsLower start && !differ first.sectionId second.sectionId

open Layout (minOf maxOf) in
/-- `Coordinates.merge` of the boxes of one page. It passes the checks of the model if they do. -/
def enclose (first : Coordinates) (samePage : List Coordinates) : Coordinates :=
  let left := minOf (samePage.map (·.x))
  let top := minOf (samePage.map (·.y))
  { first with
    x := left
    y := top
    width := maxOf (samePage.map fun box => box.x + box.width) - left
    height := maxOf (samePage.map fun box => box.y + box.height) - top }

/-- `Coordinates.group_by_page`: one merged box for each page. -/
def groupByPage (boxes : List Coordinates) : List Coordinates :=
  (Sql.distinctOn (·.pageNumber) boxes).map fun first =>
    enclose first (boxes.filter (·.pageNumber = first.pageNumber))

def fuse (current following : Paragraph) : Paragraph :=
  { current with
    text := rstrip current.text ++ " " ++ lstrip following.text
    coordinates :=
      (groupByPage (current.coordinates.toList ++ following.coordinates.toList)).head?
    isContinuation := true }

/-- The loops of `_merge_continuations`, with the paragraph that is assembled. -/
def mergeFrom (current : Paragraph) : List Paragraph → List Paragraph × Nat
  | [] => ([current], 0)
  | following :: rest =>
    if isContinuation signals current following then
      let r := mergeFrom (fuse current following) rest
      (r.1, r.2 + 1)
    else
      let r := mergeFrom following rest
      (current :: r.1, r.2)

def ordered (paragraphs : List Paragraph) : List Paragraph :=
  (Sql.OrderBy.asc fun p : Paragraph => toLex (p.pageNumber, p.readingOrder)).sort paragraphs

def mergeContinuations (paragraphs : List Paragraph) : List Paragraph × Nat :=
  if paragraphs.length < 2 then (paragraphs, 0)
  else
    match ordered paragraphs with
    | [] => ([], 0)
    | first :: rest =>
      let r := mergeFrom signals first rest
      (r.1.mapIdx fun position p => { p with readingOrder := position }, r.2)

end

/-! ## Sections -/

/-- The section that an element belongs to: its own, or the last one that began. -/
def ownerOf (sections : List Section) (sectionId : Option String) (page : Int) : Option String :=
  let began := ((Sql.OrderBy.asc fun s : Section => toLex (s.startPage, s.order)).sort
    sections).takeWhile (·.startPage ≤ page)
  if sectionId.any (· ≠ "") then sectionId else (began.getLast?.map (·.sectionId)).or sectionId

def assignSection (sections : List Section) (p : Paragraph) : Paragraph :=
  { p with sectionId := ownerOf sections p.sectionId p.pageNumber }

/-! ## Reading order -/

/-- What the reading order takes from a paragraph, a table or a list. -/
structure Element where
  blockType : Cdm.ContentBlockType
  elementId : String
  pageNumber : Int
  readingOrder : Int
  coordinates : Option Coordinates
  sectionId : Option String

def Element.ofParagraph (p : Paragraph) : Element :=
  ⟨.paragraph, p.paragraphId, p.pageNumber, p.readingOrder, p.coordinates, p.sectionId⟩

def Element.ofTable (t : Table) : Element :=
  ⟨.table, t.tableId, t.pageNumber, t.readingOrder, t.coordinates, t.sectionId⟩

def Element.ofList (l : DocumentList) : Element :=
  ⟨.list, l.listId, l.pageNumber, l.readingOrder, l.coordinates, l.sectionId⟩

structure ReadingOrderEntry where
  index : Nat
  blockId : String
  blockType : Cdm.ContentBlockType
  pageNumber : Int
  sectionId : Option String
  elementId : String

/-- What the candidates are sorted by. -/
def Element.key (e : Element) : Int ×ₗ Rat ×ₗ Rat ×ₗ Int ×ₗ String :=
  toLex (e.pageNumber, toLex ((e.coordinates.map (·.y)).getD e.readingOrder,
    toLex ((e.coordinates.map (·.x)).getD 0, toLex (e.readingOrder, e.elementId))))

def entry (index : Nat) (e : Element) : ReadingOrderEntry where
  index := index
  blockId := "ro-" ++ index.repr
  blockType := e.blockType
  pageNumber := e.pageNumber
  sectionId := e.sectionId.filter (· ≠ "")
  elementId := e.elementId

def buildReadingOrder (elements : List Element) : List ReadingOrderEntry :=
  ((Sql.OrderBy.asc Element.key).sort elements).mapIdx entry

/-! ## The builder -/

/-- A normalized document whose elements have identifiers of their own. -/
structure NormalizedDocument where
  sections : List Section := []
  paragraphs : List Paragraph := []
  tables : List Table := []
  lists : List DocumentList := []
  nodup : (paragraphs.map (·.paragraphId) ++ (tables.map (·.tableId) ++
    lists.map (·.listId))).Nodup := by decide

variable (signals : Signals) (d : NormalizedDocument)

namespace NormalizedDocument

/-- The sections that the elements are assigned to. -/
def repaired : List Section := (SectionTree.repairSections d.sections).1

/-- The canonical paragraphs. -/
def canonical : List Paragraph :=
  (mergeContinuations signals d.paragraphs).1.map (assignSection d.repaired)

/-- The tables and lists, with their sections. -/
def others : List Element :=
  (d.tables.map fun t =>
    .ofTable { t with sectionId := ownerOf d.repaired t.sectionId t.pageNumber }) ++
  d.lists.map fun l =>
    .ofList { l with sectionId := ownerOf d.repaired l.sectionId l.pageNumber }

/-- The elements of the canonical document. -/
def elements : List Element := (d.canonical signals).map .ofParagraph ++ d.others

def readingOrder : List ReadingOrderEntry := buildReadingOrder (d.elements signals)

end NormalizedDocument

end Builder

end Clear
