import Clear.Ai.Parsers.Layout
import Clear.Lib.Dict
import Mathlib.Data.List.Sort

/-!
# From layout payloads to a document

`LayoutParser._build` (`app/ai/parsers/layout.py`): one payload a page, mapped into the elements of a
`NormalizedDocument` (`app/ai/cdm/models.py`). One pass over a page plans its sections, another emits
the elements: items of a list are held back until the run ends, a table is emitted at the first
paragraph that its cells cover. The counter of the reading order is shared by all kinds of element.

The metadata of the document is left out. `placed` records for each number of the reading order which
element took it and the first paragraph of that element; the parser returns no such thing.
-/

namespace Clear

/-! ## The document model -/

namespace Cdm

inductive ContentBlockType where
  | paragraph | heading | table | list | image | header | footer | footnote | signature | caption
  | pageNumber | formula
  deriving DecidableEq, Repr

/-- One positioned element on a page, in reading order. -/
structure ContentBlock where
  blockId : String
  blockType : ContentBlockType
  order : Nat
  text : String := ""
  coordinates : Option Coordinates := none
  level : Option Nat := none
  sectionId : Option String := none

structure Page where
  pageNumber : Int
  width : Rat
  height : Rat
  rotation : Int := 0
  readingOrder : Nat := 0
  contentBlocks : List ContentBlock := []
  textCharCount : Nat := 0
  isScanned : Bool := false

structure Section where
  sectionId : String
  title : String
  level : Nat := 1
  startPage : Int := 1
  endPage : Int := 1
  number : Option String := none
  order : Nat := 0
  coordinates : Option Coordinates := none

structure Paragraph where
  paragraphId : String
  text : String
  pageNumber : Int
  sectionId : Option String := none
  coordinates : Option Coordinates := none
  readingOrder : Nat := 0

structure TableCell where
  row : Int
  col : Int
  text : String := ""
  rowSpan : Int := 1
  colSpan : Int := 1
  isHeader : Bool := false
  coordinates : Option Coordinates := none

structure Table where
  tableId : String
  pageNumber : Int
  rows : Int := 0
  columns : Int := 0
  cells : List TableCell := []
  caption : Option String := none
  sectionId : Option String := none
  coordinates : Option Coordinates := none
  readingOrder : Nat := 0

structure ListItem where
  text : String
  level : Nat := 1
  marker : Option String := none
  coordinates : Option Coordinates := none

structure DocumentList where
  listId : String
  pageNumber : Int
  ordered : Bool := false
  items : List ListItem := []
  sectionId : Option String := none
  coordinates : Option Coordinates := none
  readingOrder : Nat := 0

structure Signature where
  signatureId : String
  pageNumber : Int
  coordinates : Option Coordinates := none
  party : Option String := none
  rawText : Option String := none

structure HeaderFooter where
  text : String
  pageNumber : Int
  coordinates : Option Coordinates := none
  kind : String := "header"

structure QualityMetrics where
  ocrConfidence : Option Rat := none
  missingText : Bool := false
  emptyPages : List Int := []
  corruptedPages : List Int := []
  scannedPages : List Int := []
  coordinateCoverage : Rat := 1
  warnings : List String := []

/-- A parser adapter's output. -/
structure NormalizedDocument where
  pages : List Page
  sections : List Section
  paragraphs : List Paragraph
  tables : List Table
  lists : List DocumentList
  signatures : List Signature
  headers : List HeaderFooter
  footers : List HeaderFooter
  quality : QualityMetrics

/-- What takes a number of the reading order. A signature takes one but does not carry it. -/
inductive Element where
  | ofSection (s : Section)
  | ofParagraph (p : Paragraph)
  | ofTable (t : Table)
  | ofList (l : DocumentList)
  | ofSignature (s : Signature)

namespace Element

def order? : Element → Option Nat
  | ofSection s => some s.order
  | ofParagraph p => some p.readingOrder
  | ofTable t => some t.readingOrder
  | ofList l => some l.readingOrder
  | ofSignature _ => none

end Element

end Cdm

/-! ## Texts -/

namespace Layout

variable (std : Stdlib)

def furnitureRoles : List String := ["pageHeader", "pageFooter", "pageNumber"]

def headingRoles : List String := ["title", "sectionHeading"]

/-- The openings that make a paragraph a signature block. -/
def signatureHints : List String :=
  ["in witness whereof", "signed by", "signature", "for and on behalf of", "authorised signatory",
    "authorized signatory", "duly authorised", "/s/"]

def stripped (node : ValueDict) (key : String) : String :=
  Text.strip (((Value.get node key).or (.str "")).text std)

/-- How `re.IGNORECASE` reads a character, as far as it reads an ASCII letter. -/
def ignoreCase (c : Char) : Char :=
  if c.toNat = 0x212A then 'k'
  else if c.toNat = 0x130 || c.toNat = 0x131 then 'i'
  else if c.toNat = 0x17F then 's'
  else c.toLower

def isLetter (c : Char) : Bool := 'a' ≤ ignoreCase c && ignoreCase c ≤ 'z'

def isBullet (c : Char) : Bool := "-•·*●".toList.contains c

def shortWord (p : Char → Bool) (n : Nat) (chars : List Char) : Option (List Char) :=
  let word := chars.takeWhile p
  if 1 ≤ word.length && word.length ≤ n then some (chars.drop word.length) else none

/-- `[.)]`. -/
def closer : List Char → Option (List Char)
  | '.' :: rest => some rest
  | ')' :: rest => some rest
  | _ => none

def afterMarker : List Char → Option (List Char)
  | [] => none
  | c :: rest =>
    if isBullet c then some rest
    else if c = '(' then
      (shortWord (fun d => isLetter d || ('0' ≤ d && d ≤ '9')) 4
        (rest.dropWhile Text.isSpace)).bind fun tail =>
          match tail.dropWhile Text.isSpace with
          | ')' :: tail => some tail
          | _ => none
    else if isLetter c then (shortWord isLetter 2 (c :: rest)).bind closer
    else (shortWord Text.isDecimal 2 (c :: rest)).bind closer

def listMarker (text : String) : Option (String × String) :=
  let chars := text.toList.dropWhile Text.isSpace
  (afterMarker chars).bind fun tail =>
    match tail with
    | [] => none
    | c :: _ =>
      if Text.isSpace c then
        some (String.ofList (chars.take (chars.length - tail.length)),
          Text.strip (String.ofList tail))
      else none

example : listMarker "(iv)  Confidential" = some ("(iv)", "Confidential") := by decide

/-- `\d+(?:\.\d+)*` at the start of `chars`: what follows it. -/
def afterNumber : List Char → List Char
  | [] => []
  | c :: rest =>
    if Text.isDecimal c then afterNumber rest
    else if c = '.' && (rest.head?.map Text.isDecimal).getD false then afterNumber rest
    else c :: rest

def isRoman (c : Char) : Bool := "IVXLCDM".toList.contains c

def afterHeadingNumber : List Char → Option (List Char)
  | [] => none
  | c :: rest =>
    if Text.isDecimal c then some (afterNumber (c :: rest))
    else if isRoman c then some (rest.dropWhile isRoman)
    else if 'A' ≤ c && c ≤ 'Z' then some rest
    else none

/-- `_split_heading`: "2. Limitation of Liability" as its number and its title. A title of several
lines is not split. -/
def splitHeading (text : String) : Option String × String :=
  let chars := text.toList.dropWhile Text.isSpace
  match afterHeadingNumber chars with
  | none => (none, text)
  | some tail =>
    let closed := (closer tail).getD tail
    let title := closed.dropWhile Text.isSpace
    if title.length < closed.length && !title.isEmpty && !title.contains '\n' then
      let number := chars.take (chars.length - tail.length)
      (some (String.ofList number), Text.strip (String.ofList title))
    else (none, text)

example : splitHeading "11.2. Termination" = (some "11.2", "Termination") := by decide

def headingLevel (number : Option String) : Nat :=
  match number with
  | none => 1
  | some n => min ((n.toList.filter (· = '.')).length + 1) 6

/-- `_looks_like_signature`: an opening of an execution block, or a rule to sign on. -/
def looksLikeSignature (text : String) : Bool :=
  signatureHints.any (Text.contains · (std.lower text)) ||
    (8 ≤ text.length && text.toList.all fun c => c = '_' || c = '.' || Text.isSpace c)

/-- What follows the first opening that names a party. -/
def afterOpening (chars : List Char) : Option (List Char) :=
  chars.tails.findSome? fun tail =>
    ["for and on behalf of", "on behalf of", "signed for", "signed by"].findSome? fun opening =>
      if opening.toList.isPrefixOf (tail.map ignoreCase) then
        match tail.drop opening.length with
        | [] => none
        | c :: rest => if Text.isSpace c then some (rest.dropWhile Text.isSpace) else none
      else none

def signatureParty (text : String) : Option String :=
  (afterOpening text.toList).bind fun rest =>
    let party := Text.trim (" .,:;-_".toList.contains ·)
      (String.ofList (rest.takeWhile (· ≠ '\n')))
    if party = "" then none else some party

example : signatureParty "For and on behalf of Acme Ltd.\nDirector" = some "Acme Ltd" := by decide

/-! ## Tables -/

def referenced (reference : Value) : Except LayoutError (Option Nat) :=
  let chars := (reference.text std).toList
  let start := "/paragraphs/".toList
  if start.isPrefixOf chars then
    let index := chars.drop start.length
    -- `$` also matches before a newline at the end
    let digits := if index.getLast? = some '\n' then index.dropLast else index
    if digits.isEmpty || !digits.all Text.isDecimal then .ok none
    else
      match Text.toInt? (String.ofList digits) with
      | some n => .ok (some n.toNat)
      | none => .error .malformed
  else .ok none

/-- A table of a payload: its cells and the paragraphs that they cover
(`_cell_paragraph_indices`). -/
structure RawTable where
  raw : ValueDict
  cells : List ValueDict
  indices : List Nat

/-- A dict, which alone has `get`. -/
def asDict (v : Value) : Except LayoutError ValueDict :=
  match v with
  | .dict d => .ok d
  | _ => .error .malformed

def cellIndices (cell : ValueDict) : Except LayoutError (List Nat) := do
  let references ← iterOr (Value.get cell "elements")
  let indices ← references.mapM (referenced std)
  return indices.filterMap id

def readTable (v : Value) : Except LayoutError RawTable := do
  let raw ← asDict v
  let cells ← iterOr (Value.get raw "cells")
  let cells ← cells.mapM asDict
  let indices ← cells.mapM (cellIndices std)
  return { raw, cells, indices := indices.flatten }

def RawTable.anchor (table : RawTable) : Nat := (table.indices.min?).getD (2 ^ 30)

def firstDict (v : Value) : Except LayoutError (Option ValueDict) :=
  match v.or (.list []) with
  | .list (.dict d :: _) => .ok (some d)
  | .list _ | .str _ => .ok none
  | _ => .error .malformed

def polygonOf (node : ValueDict) : Except LayoutError (List Rat) :=
  match Value.get node "polygon" with
  | .list (x :: xs) => floats std (.list (x :: xs))
  | _ => do
    match ← firstDict (Value.get node "boundingRegions") with
    | some region => floats std (Value.get region "polygon")
    | none => return []

def captionOf (raw : ValueDict) : Option String :=
  let text := match Value.get raw "caption" with
    | .dict caption => stripped std caption "content"
    | .str caption => Text.strip caption
    | _ => ""
  if text = "" then none else some text

def rotation (angle : Value) : Int :=
  match (angle.or (.float 0)).toFloat std with
  | .ok x => Rounding.halfEven x
  | .error _ => 0

def union (boxes : List Coordinates) : Except LayoutError (Option Coordinates) :=
  match boxes with
  | [] => .ok none
  | first :: _ =>
    let x := minOf (boxes.map (·.x))
    let y := minOf (boxes.map (·.y))
    (checked
      { pageNumber := first.pageNumber
        x := Rounding.toDigits 2 x
        y := Rounding.toDigits 2 y
        width := Rounding.toDigits 2 (maxOf (boxes.map fun box => box.x + box.width) - x)
        height := Rounding.toDigits 2 (maxOf (boxes.map fun box => box.y + box.height) - y)
        pageWidth := first.pageWidth
        pageHeight := first.pageHeight }).map some

end Layout

/-! ## The parser -/

namespace LayoutParser

open Cdm Layout

/-- An element with the payload that it comes from and the index of its first paragraph there: the
anchor of a table, the first item of a list. -/
structure Placement where
  element : Element
  page : Nat
  first : Nat

structure Accumulator where
  order : Nat := 0
  pages : List Page := []
  paragraphs : List Cdm.Paragraph := []
  tables : List Table := []
  lists : List DocumentList := []
  sections : List Section := []
  signatures : List Signature := []
  headers : List HeaderFooter := []
  footers : List HeaderFooter := []
  emptyPages : List Int := []
  confidences : List Rat := []
  placed : List Placement := []

def Accumulator.push (acc : Accumulator) (page first : Nat) (e : Element) : Accumulator :=
  let counted : Accumulator := { acc with
    order := acc.order + 1
    placed := acc.placed ++ [{ element := e, page, first }] }
  match e with
  | .ofSection s => { counted with sections := acc.sections ++ [s] }
  | .ofParagraph p => { counted with paragraphs := acc.paragraphs ++ [p] }
  | .ofTable t => { counted with tables := acc.tables ++ [t] }
  | .ofList l => { counted with lists := acc.lists ++ [l] }
  | .ofSignature s => { counted with signatures := acc.signatures ++ [s] }

def elementId (pageNumber : Int) (kind : String) (count : Nat) : String :=
  "p" ++ toString pageNumber ++ "-" ++ kind ++ toString count

structure PageInput where
  index : Nat
  number : Int
  width : Rat
  height : Rat
  unit : String
  raws : List ValueDict
  tables : List RawTable

structure Block where
  blockType : ContentBlockType
  text : String
  coordinates : Option Coordinates
  level : Option Nat
  sectionId : Option String

structure Pending where
  item : ListItem
  first : Nat

/-- The state of the loop over a page's paragraphs. `tableAt` holds the tables that are still to be
emitted, by anchor. -/
structure PageState where
  acc : Accumulator
  tableAt : List (Nat × List (RawTable × Nat))
  pending : List Pending := []
  blocks : List Block := []

variable (std : Stdlib)

def contentOf (raw : ValueDict) : String := stripped std raw "content"

def roleOf (raw : ValueDict) : String := (Value.get raw "role").asStr?.getD ""

def isHeading (raw : ValueDict) : Bool :=
  headingRoles.contains (roleOf raw) && contentOf std raw ≠ ""

/-! ### Planning the sections -/

structure Plan where
  sectionAt : List (Option String) := []
  headingIds : List (Nat × String) := []
  current : Option String := none
  counter : Nat

def Plan.get (plan : Plan) (index : Nat) : Option String := (plan.sectionAt[index]?).join

def Plan.before (plan : Plan) : Nat → Option String
  | 0 => none
  | index + 1 => plan.get index

def planStep (pageNumber : Int) (plan : Plan) (p : ValueDict × Nat) : Plan :=
  if isHeading std p.1 then
    let id := elementId pageNumber "sec" plan.counter
    { sectionAt := plan.sectionAt ++ [some id]
      headingIds := plan.headingIds ++ [(p.2, id)]
      current := some id
      counter := plan.counter + 1 }
  else { plan with sectionAt := plan.sectionAt ++ [plan.current] }

/-- `_plan_sections`: which section each paragraph belongs to. A role that cannot stand in a set
raises. -/
def planSections (raws : List ValueDict) (pageNumber : Int) (sectionOffset : Nat) :
    Except LayoutError Plan :=
  if raws.all fun raw => (Value.get raw "role").hashable then
    .ok (raws.zipIdx.foldl (planStep std pageNumber) { counter := sectionOffset })
  else .error .malformed

/-! ### One paragraph -/

/-- What the loop makes of a paragraph. -/
inductive Kind where
  /-- A table cell covers it. -/
  | consumed
  | blank
  | furniture
  | heading
  | item (marker text : String)
  | body
  deriving DecidableEq

def PageInput.consumed (page : PageInput) : List Nat := page.tables.flatMap (·.indices)

def PageInput.kind (page : PageInput) (p : ValueDict × Nat) : Kind :=
  if page.consumed.contains p.2 then .consumed
  else if contentOf std p.1 = "" then .blank
  else if furnitureRoles.contains (roleOf p.1) then .furniture
  else if headingRoles.contains (roleOf p.1) then .heading
  else
    match listMarker (contentOf std p.1) with
    | some (marker, text) => .item marker text
    | none => .body

def PageInput.coordinates (page : PageInput) (raw : ValueDict) :
    Except LayoutError (Option Coordinates) := do
  let polygon ← polygonOf std raw
  Layout.coordinates polygon page.number page.width page.height page.unit

def isOrdered (marker : Option String) : Bool :=
  match (marker.getD "").toList with
  | [] => false
  | c :: _ => std.isAlpha c || Text.isDecimal c

/-- `flush_list`: close an accumulating run of list items into one list element. A single item
becomes a paragraph. -/
def flushList (page : PageInput) (sectionId : Option String) (s : PageState) :
    Except LayoutError PageState :=
  match s.pending with
  | [] => .ok s
  | [p] =>
    let paragraph : Cdm.Paragraph :=
      { paragraphId := elementId page.number "para" s.acc.paragraphs.length
        text := Text.strip (p.item.marker.getD "None" ++ " " ++ p.item.text)
        pageNumber := page.number
        sectionId
        coordinates := p.item.coordinates
        readingOrder := s.acc.order }
    .ok { s with acc := s.acc.push page.index p.first (.ofParagraph paragraph), pending := [] }
  | p :: rest => do
    let box ← union ((p :: rest).filterMap (·.item.coordinates))
    let list : DocumentList :=
      { listId := elementId page.number "list" s.acc.lists.length
        pageNumber := page.number
        ordered := isOrdered std p.item.marker
        items := (p :: rest).map (·.item)
        sectionId
        coordinates := box
        readingOrder := s.acc.order }
    return { s with acc := s.acc.push page.index p.first (.ofList list), pending := [] }

def tableCell (page : PageInput) (raw : ValueDict) : Except LayoutError TableCell := do
  let row ← Layout.int ((Value.get raw "rowIndex").or (.int 0))
  let col ← Layout.int ((Value.get raw "columnIndex").or (.int 0))
  let rowSpan ← Layout.int ((Value.get raw "rowSpan").or (.int 1))
  let colSpan ← Layout.int ((Value.get raw "columnSpan").or (.int 1))
  let coordinates ← page.coordinates std raw
  return {
    row
    col
    text := stripped std raw "content"
    rowSpan
    colSpan
    isHeader := ((Value.get raw "kind").or (.str "")).text std = "columnHeader"
    coordinates }

def table (page : PageInput) (raw : RawTable) (tableIndex order : Nat)
    (sectionId : Option String) : Except LayoutError (Option Table) := do
  let cells ← raw.cells.mapM (tableCell std page)
  match cells with
  | [] => return none
  | cell :: rest =>
    let lastRow := (rest.map (·.row)).foldl max cell.row
    let lastCol := (rest.map (·.col)).foldl max cell.col
    let rows ← Layout.int ((Value.get raw.raw "rowCount").or (.int (lastRow + 1)))
    let columns ← Layout.int ((Value.get raw.raw "columnCount").or (.int (lastCol + 1)))
    let coordinates ← page.coordinates std raw.raw
    return some
      { tableId := elementId page.number "table" tableIndex
        pageNumber := page.number
        rows
        columns
        cells := cell :: rest
        caption := captionOf std raw.raw
        sectionId
        coordinates
        readingOrder := order }

/-- One round of the loop of `emit_tables`. -/
def emitTable (page : PageInput) (anchor : Nat) (sectionId : Option String) (s : PageState)
    (raw : RawTable × Nat) : Except LayoutError PageState := do
  match ← table std page raw.1 raw.2 s.acc.order sectionId with
  | none => return s
  | some t =>
    let block : Block :=
      { blockType := .table
        text := ""
        coordinates := t.coordinates
        level := none
        sectionId }
    return { s with acc := s.acc.push page.index anchor (.ofTable t), blocks := s.blocks ++ [block] }

def emitTables (page : PageInput) (anchor : Nat) (sectionId : Option String) (s : PageState) :
    Except LayoutError PageState :=
  ((s.tableAt.lookup anchor).getD []).foldlM (emitTable std page anchor sectionId)
    { s with tableAt := s.tableAt.filter (·.1 ≠ anchor) }

def PageState.addFurniture (s : PageState) (page : PageInput) (text : String)
    (coordinates : Option Coordinates) : PageState :=
  let isFooter := coordinates.any fun box => page.height * (1 / 2) < box.y
  let entry : HeaderFooter :=
    { text
      pageNumber := page.number
      coordinates
      kind := if isFooter then "footer" else "header" }
  if isFooter then { s with acc := { s.acc with footers := s.acc.footers ++ [entry] } }
  else { s with acc := { s.acc with headers := s.acc.headers ++ [entry] } }

def PageState.addHeading (s : PageState) (page : PageInput) (index : Nat) (sectionId : String)
    (isTitle : Bool) (text : String) (coordinates : Option Coordinates) : PageState :=
  let (number, title) := splitHeading text
  let level := if isTitle then 1 else headingLevel number
  let opened : Section :=
    { sectionId
      title
      level
      startPage := page.number
      endPage := page.number
      number
      order := s.acc.order
      coordinates }
  let block : Block :=
    { blockType := .heading, text, coordinates, level := some level, sectionId := some sectionId }
  { s with acc := s.acc.push page.index index (.ofSection opened), blocks := s.blocks ++ [block] }

/-- A signature block or a plain paragraph, with its block. -/
def PageState.addBody (s : PageState) (page : PageInput) (index : Nat) (sectionId : Option String)
    (text : String) (coordinates : Option Coordinates) : PageState :=
  if looksLikeSignature std text then
    let signature : Signature :=
      { signatureId := elementId page.number "sig" s.acc.signatures.length
        pageNumber := page.number
        coordinates
        party := signatureParty text
        rawText := some text }
    let block : Block :=
      { blockType := .signature, text, coordinates, level := none, sectionId }
    { s with
      acc := s.acc.push page.index index (.ofSignature signature)
      blocks := s.blocks ++ [block] }
  else
    let paragraph : Cdm.Paragraph :=
      { paragraphId := elementId page.number "para" s.acc.paragraphs.length
        text
        pageNumber := page.number
        sectionId
        coordinates
        readingOrder := s.acc.order }
    let block : Block :=
      { blockType := .paragraph, text, coordinates, level := none, sectionId }
    { s with
      acc := s.acc.push page.index index (.ofParagraph paragraph)
      blocks := s.blocks ++ [block] }

/-- One round of the loop of `_build_page`. -/
def pageStep (page : PageInput) (plan : Plan) (s : PageState) (p : ValueDict × Nat) :
    Except LayoutError PageState := do
  let s ← emitTables std page p.2 (plan.get p.2) s
  let text := contentOf std p.1
  match page.kind std p with
  | .consumed | .blank => return s
  | .furniture =>
    let coordinates ← page.coordinates std p.1
    let s ← flushList std page (plan.get p.2) s
    return s.addFurniture page text coordinates
  | .heading =>
    let coordinates ← page.coordinates std p.1
    let s ← flushList std page (plan.before p.2) s
    match plan.headingIds.lookup p.2 with
    | none => .error .malformed
    | some id => return s.addHeading page p.2 id (roleOf p.1 = "title") text coordinates
  | .item marker rest =>
    let coordinates ← page.coordinates std p.1
    let item : ListItem := { text := rest, level := 1, marker := some marker, coordinates }
    return { s with pending := s.pending ++ [{ item, first := p.2 }] }
  | .body =>
    let coordinates ← page.coordinates std p.1
    let s ← flushList std page (plan.get p.2) s
    return s.addBody std page p.2 (plan.get p.2) text coordinates

/-! ### Pages -/

def PageInput.tableAt (page : PageInput) : List (Nat × List (RawTable × Nat)) :=
  Dict.groupBy (·.1.anchor) id page.tables.zipIdx

def buildPage (page : PageInput) (acc : Accumulator) : Except LayoutError PageState := do
  let plan ← planSections std page.raws page.number acc.sections.length
  let s ← page.raws.zipIdx.foldlM (pageStep std page plan) { acc, tableAt := page.tableAt }
  let s ← flushList std page (plan.before page.raws.length) s
  -- any table whose anchor fell outside the paragraph range
  ((s.tableAt.map (·.1)).insertionSort (· ≤ ·)).foldlM
    (fun s anchor => emitTables std page anchor (plan.before page.raws.length) s) s

def pageOf (payload : ValueDict) (fallback : Nat) : Except LayoutError ValueDict := do
  return (← firstDict (Value.get payload "pages")).getD [("pageNumber", .int fallback)]

def confidenceOf (word : Value) : Except LayoutError (Option Rat) := do
  let confidence ← getOf word "confidence"
  match confidence with
  | .int _ | .float _ | .bool _ => return some (← Layout.float std confidence)
  | _ => return none

def confidences (page : ValueDict) : Except LayoutError (List Rat) := do
  match (page.lookup "words").getD (.list []) |>.iter with
  | none => .error .malformed
  | some words => return (← words.mapM (confidenceOf std)).filterMap id

def pageNumber (page : ValueDict) (index : Nat) : Except LayoutError Int :=
  Layout.int ((Value.get page "pageNumber").or (.int (index + 1)))

def readPage (payload : ValueDict) (index : Nat) : Except LayoutError PageInput := do
  let page ← pageOf payload (index + 1)
  let number ← pageNumber page index
  let (width, height, unit) ← pageSize std page
  let raws ← (← iterOr (Value.get payload "paragraphs")).mapM asDict
  let tables ← (← iterOr (Value.get payload "tables")).mapM (readTable std)
  return { index, number, width, height, unit, raws, tables }

def numberBlock (page : PageInput) (b : Block × Nat) : ContentBlock :=
  { blockId := elementId page.number "b" b.2
    blockType := b.1.blockType
    order := b.2
    text := b.1.text
    coordinates := b.1.coordinates
    level := b.1.level
    sectionId := b.1.sectionId }

/-- One round of the loop of `_build`. -/
def addPage (acc : Accumulator) (p : ValueDict × Nat) : Except LayoutError Accumulator := do
  let pageData ← pageOf p.1 (p.2 + 1)
  let words ← confidences std pageData
  let page ← readPage std p.1 p.2
  let s ← buildPage std page { acc with confidences := acc.confidences ++ words }
  let content := ((Value.get p.1 "content").or (.str "")).text std
  if page.number < 1 then .error .validation
  else
    let added : Page :=
      { pageNumber := page.number
        width := page.width
        height := page.height
        rotation := rotation std (Value.get pageData "angle")
        readingOrder := acc.order
        contentBlocks := s.blocks.zipIdx.map (numberBlock page)
        textCharCount := content.length }
    return { s.acc with
      emptyPages := s.acc.emptyPages ++ if Text.isBlank content then [page.number] else []
      pages := s.acc.pages ++ [added] }

/-- `_coverage`: fraction of positioned elements that carry coordinates. -/
def coverage (acc : Accumulator) : Rat :=
  let boxes := acc.paragraphs.map (·.coordinates) ++ acc.tables.map (·.coordinates) ++
    acc.lists.map (·.coordinates) ++ acc.sections.map (·.coordinates)
  if boxes.isEmpty then 0
  else Rounding.toDigits 4 ((boxes.filter (·.isSome)).length / boxes.length)

def qualityOf (acc : Accumulator) : QualityMetrics :=
  let flat := "The layout service reported no headings, so section structure is flat."
  let empty := toString acc.emptyPages.length ++ " page(s) contained no extractable text: " ++
    ", ".intercalate ((acc.emptyPages.take 10).map toString)
  { ocrConfidence :=
      if acc.confidences.isEmpty then none
      else some (Rounding.toDigits 4 (acc.confidences.foldl (· + ·) 0 / acc.confidences.length))
    missingText := acc.emptyPages.length = acc.pages.length
    emptyPages := acc.emptyPages
    coordinateCoverage := coverage acc
    warnings := (if acc.sections.isEmpty then [flat] else []) ++
      if acc.emptyPages.isEmpty then [] else [empty] }

def build (payloads : List ValueDict) :
    Except LayoutError (NormalizedDocument × List Placement) := do
  let acc ← payloads.zipIdx.foldlM (addPage std) {}
  if acc.pages.isEmpty then .error .noPages
  else
    let document : NormalizedDocument :=
      { pages := acc.pages
        sections := acc.sections
        paragraphs := acc.paragraphs
        tables := acc.tables
        lists := acc.lists
        signatures := acc.signatures
        headers := acc.headers
        footers := acc.footers
        quality := qualityOf acc }
    return (document, acc.placed)

end LayoutParser

end Clear
