import Clear.Core.Stdlib
import Clear.Core.Uuid
import Clear.Lib.OrderBy
import Mathlib.Data.String.Basic

/-!
# The workbook of an export

`XlsxExporter` (`app/export/xlsx.py`) over the dataset of `app/export/base.py`. A sheet is written
line by line; the lines of the summary are those that its row counter passes. `write`, `write_string`
and the other calls of XlsxWriter are taken as documented: `store` is the cell that a call leaves.
Formats, widths and the autofilter are left out.
-/

namespace Clear

/-- What Python writes for values that are no JSON. -/
structure ExportTexts where
  std : Stdlib
  /-- `str` of a `datetime`: microseconds by its own clock, and the offset of its zone. -/
  strDatetime : Int → Option Int → String
  capitalize : String → String

inductive ExportValue where
  | value (v : Value)
  | date (d : Date)
  | datetime (wall : Int) (utcOffset : Option Int)

namespace ExportValue

def text (texts : ExportTexts) : ExportValue → String
  | value v => v.text texts.std
  | date d => texts.std.isoformat d
  | datetime wall utcOffset => texts.strDatetime wall utcOffset

def truthy : ExportValue → Bool
  | value v => v.truthy
  | _ => true

def isBlank : ExportValue → Bool
  | value v => v.isNull || v.isStr ""
  | _ => false

/-- An `int` or a `float`. -/
def number? : ExportValue → Option Rat
  | value v => v.num?
  | _ => none

end ExportValue

inductive ColumnKind where
  | text | number | integer | date | datetime | bool
  deriving DecidableEq, Repr

structure ExportColumn where
  key : String
  label : String
  kind : ColumnKind := .text
  deriving DecidableEq, Repr

structure ExportSheet where
  title : String
  columns : List ExportColumn
  rows : List (List (String × ExportValue))
  notes : List String := []

structure Minute where
  year : Fin 10000
  month : Fin 13
  day : Fin 32
  hour : Fin 24
  minute : Fin 60

structure ExportDataset where
  exportId : Uuid
  generatedAt : Minute
  generatedBy : String
  scopeLabel : String
  projectNames : List String
  filters : List (String × Value)
  sheets : List ExportSheet
  maskedNote : Option String := none

namespace Xlsx

/-! ## XlsxWriter -/

/-- A call that writes a cell. -/
inductive Write where
  /-- `write` of a text. -/
  | any (s : String)
  /-- `write_string`. -/
  | string (s : String)
  /-- `write_number`. -/
  | number (x : Rat)
  /-- `write_datetime` of a day. -/
  | date (d : Date)
  /-- `write_datetime` of a time. -/
  | moment (t : Int)
  /-- `write_blank`. -/
  | blank
  deriving DecidableEq

inductive Cell where
  | blank
  | text (s : String)
  | number (x : Rat)
  | date (d : Date)
  | moment (t : Int)
  | formula (s : String)
  deriving DecidableEq

def lastRow : Nat := 1048575

def longestText : Nat := 32767

def store (row : Nat) (w : Write) : Option Cell :=
  if lastRow < row then none
  else
    match w with
    | .any s =>
      if longestText < s.length then none
      else if s = "" then some .blank
      else if Text.startsWith "=" s then some (.formula s)
      else some (.text s)
    | .string s => if longestText < s.length then none else some (.text s)
    | .number x => some (.number x)
    | .date d => some (.date d)
    | .moment t => some (.moment t)
    | .blank => some .blank

/-- The calls for one row, by column. -/
abbrev Line := List (Nat × Write)

structure Worksheet where
  name : String
  cells : List ((Nat × Nat) × Cell)

abbrev Workbook := List Worksheet

def place (lines : List Line) : List ((Nat × Nat) × Cell) :=
  lines.zipIdx.flatMap fun l => l.1.filterMap fun e => (store l.2 e.2).map ((l.2, e.1), ·)

/-! ## The summary -/

def digits : (width : Nat) → Nat → List Char
  | 0, _ => []
  | width + 1, n => digits width (n / 10) ++ [Nat.digitChar (n % 10)]

/-- `strftime("%Y-%m-%d %H:%M UTC")`. -/
def stamp (t : Minute) : String :=
  String.ofList (digits 4 t.year ++ '-' :: (digits 2 t.month ++ '-' :: (digits 2 t.day ++
    ' ' :: (digits 2 t.hour ++ ':' :: (digits 2 t.minute ++ [' ', 'U', 'T', 'C'])))))

def pair (label value : String) : Line :=
  [(0, .any label), (1, .any (if value = "" then "—" else value))]

def rendered (texts : ExportTexts) : Value → String
  | .list l => ", ".intercalate (l.map (·.text texts.std))
  | v => v.text texts.std

def filterLabel (texts : ExportTexts) (key : String) : String :=
  texts.capitalize (String.ofList (key.toList.map fun c => if c = '_' then ' ' else c))

def filterLines (texts : ExportTexts) (filters : List (String × Value)) : List Line :=
  if filters = [] then [pair "" "None — every contract in scope"]
  else ((Sql.OrderBy.asc fun e : String × Value => e.1).sort filters).map fun e =>
    pair (filterLabel texts e.1) (rendered texts e.2)

/-- Withheld and truncated rows. -/
def notes (dataset : ExportDataset) : List String :=
  (dataset.sheets.flatMap (·.notes)) ++ (dataset.maskedNote.filter (· ≠ "")).toList

def noteLines (notes : List String) : List Line :=
  if notes = [] then []
  else [[], [(0, .any "Please note")]] ++ notes.map fun note => [(1, .any note)]

def summary (texts : ExportTexts) (dataset : ExportDataset) : List Line :=
  [[(0, .any "Contract Intelligence Platform export")], [],
    pair "Generated" (stamp dataset.generatedAt),
    pair "Requested by" dataset.generatedBy,
    pair "Scope" dataset.scopeLabel,
    pair "Projects" (", ".intercalate dataset.projectNames),
    pair "Export ID" dataset.exportId.str, [],
    [(0, .any "Filters applied")]] ++
  filterLines texts dataset.filters ++
  [[], [(0, .any "Contents")], [(0, .any "Sheet"), (1, .any "Rows")]] ++
  (dataset.sheets.map fun entry => [(0, .any entry.title), (1, .number entry.rows.length)]) ++
  noteLines (notes dataset)

/-! ## The sheets -/

def maxRowsPerSheet : Nat := 1048575

def truncationNote : String :=
  "Truncated at 1,048,575 rows — narrow the filters to export the rest."

def naive (wall : Int) (utcOffset : Option Int) : Int := wall - utcOffset.getD 0

def writeCell (texts : ExportTexts) (kind : ColumnKind) (value : Option ExportValue) : Write :=
  match value with
  | none => .blank
  | some v =>
    if v.isBlank then .blank
    else
      match kind with
      | .bool => .string (if v.truthy then "Yes" else "No")
      | .number | .integer =>
        match v.number? with
        | some x => .number x
        | none => .string (v.text texts)
      | .date =>
        match v with
        | .date d => .date d
        | .datetime wall utcOffset => .moment (naive wall utcOffset)
        | v => .string (v.text texts)
      | .datetime =>
        match v with
        | .datetime wall utcOffset => .moment (naive wall utcOffset)
        | v => .string (v.text texts)
      | .text => .string (v.text texts)

def header (columns : List ExportColumn) : Line :=
  columns.zipIdx.map fun c => (c.2, .any c.1.label)

def rowLine (texts : ExportTexts) (columns : List ExportColumn)
    (row : List (String × ExportValue)) : Line :=
  columns.zipIdx.map fun c => (c.2, writeCell texts c.1.kind (row.lookup c.1.key))

def sheetLines (texts : ExportTexts) (sheet : ExportSheet) : List Line :=
  header sheet.columns ::
    ((sheet.rows.take maxRowsPerSheet).map (rowLine texts sheet.columns) ++
      (if sheet.rows = [] then [[(0, .any "No rows matched this export.")]] else []) ++
      (if maxRowsPerSheet < sheet.rows.length then [[(0, .any truncationNote)]] else []))

def stripQuotes (s : String) : String := Text.trim (· = '\'') s

def safeSheetName (name : String) : String :=
  let cleaned := stripQuotes (String.ofList
    (name.toList.map fun c => if c ∈ [':', '\\', '/', '?', '*', '[', ']'] then '-' else c))
  Text.take 31 (if cleaned = "" then "Sheet" else cleaned)

/-- Whether `add_worksheet` accepts the names one after the other, given those there are. -/
def accepted (accepts : List String → String → Bool) : (used names : List String) → Bool
  | _, [] => true
  | used, name :: names => accepts used name && accepted accepts (used ++ [name]) names

/-- `render`, absent where a worksheet is refused. -/
def render (accepts : List String → String → Bool) (texts : ExportTexts)
    (dataset : ExportDataset) : Option Workbook :=
  let workbook := ⟨"Summary", place (summary texts dataset)⟩ ::
    dataset.sheets.map fun sheet => ⟨safeSheetName sheet.title, place (sheetLines texts sheet)⟩
  if accepted accepts [] (workbook.map (·.name)) then some workbook else none

end Xlsx

end Clear
