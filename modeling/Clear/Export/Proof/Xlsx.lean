import Clear.Export.Xlsx

/-!
# What the workbook says

The summary and the headers are written with `write`, which takes a text that begins with `=` for a
formula; a text that is too long is stored by no call and nothing states it; and the note that rows
are cut off goes to the row after the last. The workbook is faithful exactly where none of the three
happens (`workbook_iff`).
-/

namespace Clear

namespace Xlsx

variable {texts : ExportTexts} {dataset : ExportDataset}

/-! ## What is asked of a workbook -/

inductive Carries (texts : ExportTexts) (kind : ColumnKind) : Option ExportValue → Cell → Prop
  | missing : Carries texts kind none .blank
  | empty {v : ExportValue} (h : v.isBlank = true) : Carries texts kind (some v) .blank
  | flag {v : ExportValue} (h : kind = .bool) :
      Carries texts kind (some v) (.text (if v.truthy then "Yes" else "No"))
  | number {v : ExportValue} {x : Rat} (h : v.number? = some x) :
      Carries texts kind (some v) (.number x)
  | date {d : Date} : Carries texts kind (some (.date d)) (.date d)
  | moment {wall : Int} {utcOffset : Option Int} :
      Carries texts kind (some (.datetime wall utcOffset)) (.moment (naive wall utcOffset))
  | text {v : ExportValue} : Carries texts kind (some v) (.text (v.text texts))

/-- A worksheet of the dataset: every row that is written shows its values, every value is written,
and rows that are not are stated as missing below. Nothing states that a value is missing. -/
structure SheetFaithful (texts : ExportTexts) (sheet : ExportSheet) (ws : Worksheet) : Prop where
  carries : ∀ i row j column cell, sheet.rows[i]? = some row → sheet.columns[j]? = some column →
    ((i + 1, j), cell) ∈ ws.cells → Carries texts column.kind (row.lookup column.key) cell
  values : ∀ i row j column, i < maxRowsPerSheet → sheet.rows[i]? = some row →
    sheet.columns[j]? = some column → ∃ cell, ((i + 1, j), cell) ∈ ws.cells
  labels : ∀ j column, sheet.columns[j]? = some column → ∃ cell, ((0, j), cell) ∈ ws.cells
  stated : maxRowsPerSheet < sheet.rows.length →
    ∃ row col, maxRowsPerSheet < row ∧ ((row, col), .text truncationNote) ∈ ws.cells

structure Faithful (texts : ExportTexts) (dataset : ExportDataset) (workbook : Workbook) :
    Prop where
  noFormula : ∀ ws ∈ workbook, ∀ e ∈ ws.cells, ∀ s, e.2 ≠ .formula s
  summary : ∀ ws, workbook[0]? = some ws → ∀ row line, (summary texts dataset)[row]? = some line →
    ∀ e ∈ line, ∃ cell, ((row, e.1), cell) ∈ ws.cells
  sheets : ∀ k sheet ws, dataset.sheets[k]? = some sheet → workbook[k + 1]? = some ws →
    SheetFaithful texts sheet ws

/-! ## When it holds -/

/-- A text that `write` stores as it is. -/
def Safe (s : String) : Prop := s.length ≤ longestText ∧ Text.startsWith "=" s = false

def given (texts : ExportTexts) (dataset : ExportDataset) : List String :=
  [dataset.generatedBy, dataset.scopeLabel, ", ".intercalate dataset.projectNames] ++
    dataset.filters.flatMap (fun e => [filterLabel texts e.1, rendered texts e.2]) ++
    dataset.sheets.map (·.title) ++ notes dataset

/-- The rows of the summary. -/
def height (dataset : ExportDataset) : Nat :=
  12 + max 1 dataset.filters.length + dataset.sheets.length +
    if notes dataset = [] then 0 else 2 + (notes dataset).length

structure Fits (texts : ExportTexts) (dataset : ExportDataset) : Prop where
  given : ∀ s ∈ given texts dataset, Safe s
  height : height dataset ≤ lastRow + 1
  labels : ∀ sheet ∈ dataset.sheets, ∀ column ∈ sheet.columns, Safe column.label
  rows : ∀ sheet ∈ dataset.sheets, sheet.rows.length ≤ maxRowsPerSheet
  values : ∀ sheet ∈ dataset.sheets, ∀ row ∈ sheet.rows, ∀ column ∈ sheet.columns, ∀ s,
    writeCell texts column.kind (row.lookup column.key) = .string s → s.length ≤ longestText

/-! ## Calls -/

/-- The call stores a cell that is no formula, in a row that there is. -/
def SafeWrite : Write → Prop
  | .any s => Safe s
  | .string s => s.length ≤ longestText
  | _ => True

@[simp] theorem safe_any {s : String} : SafeWrite (.any s) ↔ Safe s := Iff.rfl

@[simp] theorem safe_number {x : Rat} : SafeWrite (.number x) := trivial

theorem store_iff {row : Nat} {w : Write} :
    (∃ cell, store row w = some cell ∧ ∀ s, cell ≠ .formula s) ↔ row ≤ lastRow ∧ SafeWrite w := by
  unfold store
  by_cases hrow : lastRow < row
  · rw [if_pos hrow]
    simp only [reduceCtorEq, false_and, exists_false, false_iff, not_and]
    intro h
    omega
  · rw [if_neg hrow]
    have hle : row ≤ lastRow := by omega
    cases w with
    | any s =>
      simp only [SafeWrite, Safe, hle, true_and]
      split
      · simp only [reduceCtorEq, false_and, exists_false, false_iff, not_and]
        intro h
        omega
      · split
        next h =>
          subst h
          exact iff_of_true ⟨.blank, rfl, by simp⟩ ⟨by decide, by decide⟩
        · split
          next h => simp [h]
          next hlong _ h =>
            exact iff_of_true ⟨_, rfl, by simp⟩ ⟨by omega, by simpa using h⟩
    | string s =>
      simp only [SafeWrite, hle, true_and]
      split
      · simp only [reduceCtorEq, false_and, exists_false, false_iff]
        omega
      · exact iff_of_true ⟨_, rfl, by simp⟩ (by omega)
    | number | date | moment | blank => exact iff_of_true ⟨_, rfl, by simp⟩ ⟨hle, trivial⟩

theorem mem_place {lines : List Line} {row col : Nat} {cell : Cell} :
    ((row, col), cell) ∈ place lines ↔
      ∃ line, lines[row]? = some line ∧ ∃ w, (col, w) ∈ line ∧ store row w = some cell := by
  simp only [place, List.mem_flatMap, List.mem_filterMap, Option.map_eq_some_iff, Prod.exists,
    List.mem_zipIdx_iff_getElem?, Prod.mk.injEq]
  constructor
  · intro h
    obtain ⟨line, r, hline, c, w, hw, cell', hstore, ⟨rfl, rfl⟩, rfl⟩ := h
    exact ⟨line, hline, w, hw, hstore⟩
  · intro h
    obtain ⟨line, hline, w, hw, hstore⟩ := h
    exact ⟨line, row, hline, col, w, hw, cell, hstore, ⟨rfl, rfl⟩, rfl⟩

/-- The calls of every line go to different columns. -/
def Apart (lines : List Line) : Prop := ∀ line ∈ lines, (line.map (·.1)).Nodup

theorem stored_of_mem {lines : List Line} (hapart : Apart lines) {row : Nat} {line : Line}
    (hline : lines[row]? = some line) {e : Nat × Write} (he : e ∈ line) {cell : Cell}
    (h : ((row, e.1), cell) ∈ place lines) : store row e.2 = some cell := by
  obtain ⟨line', hline', w, hw, hstore⟩ := mem_place.1 h
  rw [hline] at hline'
  cases hline'
  have heq : (e.1, w) = e := List.inj_on_of_nodup_map (hapart line (List.mem_of_getElem? hline)) hw
    he rfl
  rw [← heq]
  exact hstore

def AllSafe (lines : List Line) : Prop :=
  ∀ row line, lines[row]? = some line → ∀ e ∈ line, row ≤ lastRow ∧ SafeWrite e.2

def AllPlaced (lines : List Line) (cells : List ((Nat × Nat) × Cell)) : Prop :=
  ∀ row line, lines[row]? = some line → ∀ e ∈ line, ∃ cell, ((row, e.1), cell) ∈ cells

theorem AllSafe.placed {lines : List Line} (h : AllSafe lines) : AllPlaced lines (place lines) := by
  intro row line hline e he
  obtain ⟨cell, hstore, -⟩ := store_iff.2 (h row line hline e he)
  exact ⟨cell, mem_place.2 ⟨line, hline, e.2, he, hstore⟩⟩

theorem AllSafe.noFormula {lines : List Line} (h : AllSafe lines) :
    ∀ e ∈ place lines, ∀ s, e.2 ≠ .formula s := by
  intro e he
  obtain ⟨⟨row, col⟩, cell⟩ := e
  obtain ⟨line, hline, w, hw, hstore⟩ := mem_place.1 he
  obtain ⟨cell', hstore', hne⟩ := store_iff.2 (h row line hline (col, w) hw)
  rw [hstore] at hstore'
  cases hstore'
  exact hne

theorem safe_of_placed {lines : List Line} (hapart : Apart lines)
    (hformula : ∀ e ∈ place lines, ∀ s, e.2 ≠ .formula s) {row : Nat} {line : Line}
    (hline : lines[row]? = some line) {e : Nat × Write} (he : e ∈ line)
    (h : ∃ cell, ((row, e.1), cell) ∈ place lines) : row ≤ lastRow ∧ SafeWrite e.2 := by
  obtain ⟨cell, hcell⟩ := h
  exact store_iff.1 ⟨cell, stored_of_mem hapart hline he hcell, hformula _ hcell⟩

theorem allSafe_iff {lines : List Line} (hapart : Apart lines) :
    AllSafe lines ↔
      AllPlaced lines (place lines) ∧ ∀ e ∈ place lines, ∀ s, e.2 ≠ .formula s :=
  ⟨fun h => ⟨h.placed, h.noFormula⟩, fun h row line hline e he =>
    safe_of_placed hapart h.2 hline he (h.1 row line hline e he)⟩

/-! ## The summary -/

theorem length_summary (texts : ExportTexts) (dataset : ExportDataset) :
    (summary texts dataset).length = height dataset := by
  have hsort := (Sql.OrderBy.answers_sort (.asc fun e : String × Value => e.1)
    dataset.filters).perm.length_eq
  have hfilters : (filterLines texts dataset.filters).length = max 1 dataset.filters.length := by
    unfold filterLines
    split
    next h => simp [h]
    next h =>
      have := List.length_pos_iff.2 h
      rw [List.length_map, hsort]
      omega
  have hnotes : (noteLines (notes dataset)).length =
      if notes dataset = [] then 0 else 2 + (notes dataset).length := by
    unfold noteLines
    split
    · rfl
    · simp only [List.length_append, List.length_cons, List.length_nil, List.length_map]
  simp only [summary, height, List.length_append, List.length_cons, List.length_nil,
    List.length_map, hfilters, hnotes]
  omega

def Ends (lines : List Line) : Prop := ∃ line ∈ lines.getLast?, line ≠ []

theorem ends_append {lines lines' : List Line} (h : Ends lines)
    (h' : ∀ line ∈ lines'.getLast?, line ≠ []) : Ends (lines ++ lines') := by
  cases hlast : lines'.getLast? with
  | none =>
    rw [List.getLast?_eq_none_iff.1 hlast, List.append_nil]
    exact h
  | some line =>
    refine ⟨line, ?_, h' line hlast⟩
    rw [List.getLast?_append, hlast]
    rfl

theorem ends_summary (texts : ExportTexts) (dataset : ExportDataset) :
    Ends (summary texts dataset) := by
  unfold summary
  refine ends_append (ends_append
    ⟨[(0, .any "Sheet"), (1, .any "Rows")], ?_, List.cons_ne_nil _ _⟩ ?_) ?_
  · rw [List.getLast?_append]
    rfl
  · intro line hline
    obtain ⟨entry, -, rfl⟩ := List.mem_map.1 (List.mem_of_getLast? hline)
    exact List.cons_ne_nil _ _
  · intro line hline
    unfold noteLines at hline
    split at hline
    · cases hline
    next hne =>
      rw [List.getLast?_append_of_ne_nil _ (by simpa using hne)] at hline
      obtain ⟨note, -, rfl⟩ := List.mem_map.1 (List.mem_of_getLast? hline)
      exact List.cons_ne_nil _ _

@[simp] theorem safe_pair {label value : String} :
    (∀ e ∈ pair label value, SafeWrite e.2) ↔ Safe label ∧ Safe value := by
  unfold pair
  simp only [List.forall_mem_cons, List.not_mem_nil, false_implies, implies_true, and_true,
    SafeWrite]
  split
  next h =>
    subst h
    exact and_congr_right fun _ => iff_of_true ⟨by decide, by decide⟩ ⟨by decide, by decide⟩
  next => rfl

theorem safe_of_notMem {s : String} (hlength : s.length ≤ longestText) (h : '=' ∉ s.toList) :
    Safe s := by
  refine ⟨hlength, ?_⟩
  unfold Text.startsWith
  rw [show "=".toList = ['='] from rfl]
  cases hs : s.toList with
  | nil => rfl
  | cons c cs =>
    have hc : '=' ≠ c := fun he => h (by rw [hs, he]; exact List.mem_cons_self)
    simp [List.isPrefixOf, hc]

theorem length_digits (width n : Nat) : (digits width n).length = width := by
  induction width generalizing n with
  | zero => rfl
  | succ width ih => rw [digits, List.length_append, ih, List.length_singleton]

theorem eq_notMem_digits (width n : Nat) : '=' ∉ digits width n := by
  induction width generalizing n with
  | zero => simp [digits]
  | succ width ih =>
    have hdigit : ∀ i : Fin 10, '=' ≠ Nat.digitChar i := by decide
    rw [digits, List.mem_append, List.mem_singleton, not_or]
    exact ⟨ih _, hdigit ⟨n % 10, Nat.mod_lt n (by decide)⟩⟩

theorem safe_stamp (t : Minute) : Safe (stamp t) := by
  apply safe_of_notMem
  · rw [← String.length_toList, stamp, String.toList_ofList]
    simp only [List.length_append, List.length_cons, List.length_nil, length_digits]
    decide
  · simp [stamp, eq_notMem_digits]

theorem safe_exportId (u : Uuid) : Safe u.str := by
  apply safe_of_notMem
  · rw [← String.length_toList, Uuid.str_length]
    decide
  · exact fun h => absurd (Uuid.mem_str h) (by decide)

theorem safe_filterLines {filters : List (String × Value)} :
    (∀ line ∈ filterLines texts filters, ∀ e ∈ line, SafeWrite e.2) ↔
      ∀ e ∈ filters, Safe (filterLabel texts e.1) ∧ Safe (rendered texts e.2) := by
  unfold filterLines
  split
  next h =>
    subst h
    simp only [List.forall_mem_singleton, safe_pair, List.not_mem_nil, false_implies, implies_true,
      iff_true]
    exact ⟨⟨by decide, by decide⟩, by decide, by decide⟩
  next =>
    have hmem : ∀ {e}, e ∈ (Sql.OrderBy.asc fun e : String × Value => e.1).sort filters ↔
        e ∈ filters := (Sql.OrderBy.answers_sort _ filters).perm.mem_iff
    simp only [List.forall_mem_map, safe_pair, hmem]

theorem safe_noteLines {notes : List String} :
    (∀ line ∈ noteLines notes, ∀ e ∈ line, SafeWrite e.2) ↔ ∀ s ∈ notes, Safe s := by
  have hnote : Safe "Please note" := ⟨by decide, by decide⟩
  unfold noteLines
  split
  next h => simp [h]
  next => simp [SafeWrite, hnote]

theorem safe_summary_iff : (∀ line ∈ summary texts dataset, ∀ e ∈ line, SafeWrite e.2) ↔
    ∀ s ∈ given texts dataset, Safe s := by
  have hconst : Safe "Contract Intelligence Platform export" ∧ Safe "Generated" ∧
      Safe "Requested by" ∧ Safe "Scope" ∧ Safe "Projects" ∧ Safe "Export ID" ∧
      Safe "Filters applied" ∧ Safe "Contents" ∧ Safe "Sheet" ∧ Safe "Rows" := by
    unfold Safe
    decide
  simp only [summary, given, List.forall_mem_append, List.forall_mem_cons, List.forall_mem_map,
    safe_pair, safe_filterLines, safe_noteLines, safe_any, safe_number, hconst, safe_stamp,
    safe_exportId, List.not_mem_nil, false_implies, implies_true, and_true, true_and, List.forall_mem_flatMap,
    and_assoc]

theorem apart_summary : Apart (summary texts dataset) := by
  have hpair : ∀ label value, ((pair label value).map (·.1)).Nodup := fun _ _ => by
    simp [pair]
  have hfilters : Apart (filterLines texts dataset.filters) := by
    unfold Apart filterLines
    split
    · simpa using hpair _ _
    · simp only [List.forall_mem_map]
      exact fun _ _ => hpair _ _
  have hnotes : Apart (noteLines (notes dataset)) := by
    unfold Apart noteLines
    split <;> simp
  unfold Apart summary
  simp only [List.forall_mem_append, List.forall_mem_cons, List.forall_mem_map]
  simpa [hpair, Apart] using ⟨hfilters, hnotes⟩

/-- The summary is complete and has no formula exactly if its texts are safe and it is not too
long. -/
theorem summary_iff : AllSafe (summary texts dataset) ↔
    height dataset ≤ lastRow + 1 ∧ ∀ s ∈ given texts dataset, Safe s := by
  rw [← safe_summary_iff, ← length_summary texts]
  constructor
  · intro h
    constructor
    · obtain ⟨line, hlast, hne⟩ := ends_summary texts dataset
      obtain ⟨e, he⟩ := List.exists_mem_of_ne_nil _ hne
      rw [Option.mem_def, List.getLast?_eq_getElem?] at hlast
      have := (h _ line hlast e he).1
      omega
    · intro line hline e he
      obtain ⟨row, hrow⟩ := List.getElem?_of_mem hline
      exact (h row line hrow e he).2
  · intro h row line hline e he
    have hlt := (List.getElem?_eq_some_iff.1 hline).1
    exact ⟨by omega, h.2 line (List.mem_of_getElem? hline) e he⟩

/-! ## The sheets -/

variable {sheet : ExportSheet} {kind : ColumnKind} {value : Option ExportValue}

theorem writeCell_ne_any {s : String} : writeCell texts kind value ≠ .any s := by
  unfold writeCell
  split
  · simp
  · split
    · simp
    · split <;> (try split) <;> simp

theorem safe_writeCell : SafeWrite (writeCell texts kind value) ↔
    ∀ s, writeCell texts kind value = .string s → s.length ≤ longestText := by
  cases h : writeCell texts kind value with
  | any s => exact absurd h writeCell_ne_any
  | string s => simp [SafeWrite]
  | number | date | moment | blank => simp [SafeWrite]

inductive Shows : Write → Cell → Prop
  | string {s} : Shows (.string s) (.text s)
  | number {x} : Shows (.number x) (.number x)
  | date {d} : Shows (.date d) (.date d)
  | moment {t} : Shows (.moment t) (.moment t)
  | blank : Shows .blank .blank

theorem shows_of_store {row : Nat} {w : Write} {cell : Cell} (h : store row w = some cell)
    (hne : ∀ s, w ≠ .any s) : Shows w cell := by
  unfold store at h
  split at h
  · cases h
  cases w with
  | any s => exact absurd rfl (hne s)
  | string s =>
    dsimp only at h
    split at h
    · cases h
    · cases h
      exact .string
  | number x => cases h; exact .number
  | date d => cases h; exact .date
  | moment t => cases h; exact .moment
  | blank => cases h; exact .blank

theorem carries_of_store {row : Nat} {cell : Cell}
    (h : store row (writeCell texts kind value) = some cell) : Carries texts kind value cell := by
  have hshows := shows_of_store h fun _ => writeCell_ne_any
  cases value with
  | none => cases hshows; exact .missing
  | some v =>
    unfold writeCell at hshows
    dsimp only at hshows
    split at hshows
    next hv => cases hshows; exact .empty hv
    split at hshows
    · cases hshows; exact .flag rfl
    · split at hshows <;> cases hshows
      next hx => exact .number hx
      next => exact .text
    · split at hshows <;> cases hshows
      next hx => exact .number hx
      next => exact .text
    · split at hshows <;> cases hshows
      · exact .date
      · exact .moment
      · exact .text
    · split at hshows <;> cases hshows
      · exact .moment
      · exact .text
    · cases hshows; exact .text

theorem header_getElem? {columns : List ExportColumn} {j : Nat} {column : ExportColumn}
    (h : columns[j]? = some column) : (j, .any column.label) ∈ header columns := by
  refine List.mem_map.2 ⟨(column, j), ?_, rfl⟩
  exact List.mem_zipIdx_iff_getElem?.2 h

theorem rowLine_getElem? {columns : List ExportColumn} {j : Nat} {column : ExportColumn}
    (h : columns[j]? = some column) (row : List (String × ExportValue)) :
    (j, writeCell texts column.kind (row.lookup column.key)) ∈ rowLine texts columns row := by
  refine List.mem_map.2 ⟨(column, j), ?_, rfl⟩
  exact List.mem_zipIdx_iff_getElem?.2 h

theorem apart_sheet : Apart (sheetLines texts sheet) := by
  have hcolumns : ∀ f : ExportColumn × Nat → Write,
      ((sheet.columns.zipIdx.map fun c => (c.2, f c)).map (·.1)).Nodup := by
    intro f
    rw [List.map_map]
    exact (List.zipIdx_map_snd 0 sheet.columns) ▸ List.nodup_range' ..
  unfold Apart sheetLines
  simp only [List.forall_mem_cons, List.forall_mem_append, List.forall_mem_map]
  refine ⟨hcolumns _, ⟨fun row _ => hcolumns _, ?_⟩, ?_⟩
  all_goals split <;> simp

theorem sheetLines_row {i : Nat} {row : List (String × ExportValue)} (hi : i < maxRowsPerSheet)
    (h : sheet.rows[i]? = some row) :
    (sheetLines texts sheet)[i + 1]? = some (rowLine texts sheet.columns row) := by
  have htake : (sheet.rows.take maxRowsPerSheet)[i]? = some row := by
    rw [List.getElem?_take_of_lt hi, h]
  unfold sheetLines
  rw [List.getElem?_cons_succ, List.append_assoc, List.getElem?_append_left, List.getElem?_map,
    htake]
  · rfl
  · rw [List.length_map]
    exact (List.getElem?_eq_some_iff.1 htake).1

structure SheetFits (texts : ExportTexts) (sheet : ExportSheet) : Prop where
  labels : ∀ column ∈ sheet.columns, Safe column.label
  rows : sheet.rows.length ≤ maxRowsPerSheet
  values : ∀ row ∈ sheet.rows, ∀ column ∈ sheet.columns, ∀ s,
    writeCell texts column.kind (row.lookup column.key) = .string s → s.length ≤ longestText

theorem SheetFits.allSafe (h : SheetFits texts sheet) : AllSafe (sheetLines texts sheet) := by
  have hrows := h.rows
  have hsafe : ∀ line ∈ sheetLines texts sheet, ∀ e ∈ line, SafeWrite e.2 := by
    unfold sheetLines
    rw [if_neg (by omega : ¬ maxRowsPerSheet < sheet.rows.length)]
    simp only [List.forall_mem_cons, List.forall_mem_append, List.forall_mem_map]
    refine ⟨fun e he => ?_, ⟨fun row hrow e he => ?_, ?_⟩, by simp⟩
    · obtain ⟨c, hc, rfl⟩ := List.mem_map.1 he
      exact h.labels c.1 (List.fst_mem_of_mem_zipIdx hc)
    · obtain ⟨c, hc, rfl⟩ := List.mem_map.1 he
      exact safe_writeCell.2 (h.values row (List.mem_of_mem_take hrow) c.1
        (List.fst_mem_of_mem_zipIdx hc))
    · have hempty : Safe "No rows matched this export." := ⟨by decide, by decide⟩
      split <;> simp [hempty]
  have hlength : (sheetLines texts sheet).length ≤ lastRow + 1 := by
    have hmax : maxRowsPerSheet = lastRow := rfl
    have hlast : 1 ≤ lastRow := by decide
    unfold sheetLines
    rw [if_neg (by omega : ¬ maxRowsPerSheet < sheet.rows.length)]
    simp only [List.length_cons, List.length_append, List.length_map, List.length_take]
    split
    next hnil =>
      rw [hnil]
      simp only [List.length_nil, List.length_singleton]
      omega
    · simp only [List.length_nil]
      omega
  intro row line hline e he
  have hlt := (List.getElem?_eq_some_iff.1 hline).1
  exact ⟨by omega, hsafe line (List.mem_of_getElem? hline) e he⟩

theorem SheetFits.faithful (h : SheetFits texts sheet) (name : String) :
    SheetFaithful texts sheet ⟨name, place (sheetLines texts sheet)⟩ where
  carries i row j column cell hrow hcolumn hcell := by
    have hi : i < maxRowsPerSheet :=
      Nat.lt_of_lt_of_le (List.getElem?_eq_some_iff.1 hrow).1 h.rows
    exact carries_of_store (stored_of_mem apart_sheet (sheetLines_row hi hrow)
      (rowLine_getElem? hcolumn row) hcell)
  values i row j column hi hrow hcolumn :=
    h.allSafe.placed (i + 1) _ (sheetLines_row hi hrow) _ (rowLine_getElem? hcolumn row)
  labels j column hcolumn := h.allSafe.placed 0 _ rfl _ (header_getElem? hcolumn)
  stated hlt := absurd hlt (Nat.not_lt.2 h.rows)

theorem sheetFits_of_faithful (name : String)
    (hformula : ∀ e ∈ place (sheetLines texts sheet), ∀ s, e.2 ≠ .formula s)
    (h : SheetFaithful texts sheet ⟨name, place (sheetLines texts sheet)⟩) :
    SheetFits texts sheet := by
  have hrows : sheet.rows.length ≤ maxRowsPerSheet := by
    by_contra hlt
    obtain ⟨row, col, hrow, hcell⟩ := h.stated (by omega)
    obtain ⟨line, -, w, -, hstore⟩ := mem_place.1 hcell
    -- The note goes to a row that there is not.
    unfold store at hstore
    rw [if_pos (show lastRow < row from hrow)] at hstore
    cases hstore
  refine ⟨fun column hcolumn => ?_, hrows, fun row hrow column hcolumn => ?_⟩
  · obtain ⟨j, hj⟩ := List.getElem?_of_mem hcolumn
    have hheader : (sheetLines texts sheet)[0]? = some (header sheet.columns) := rfl
    exact (safe_of_placed apart_sheet hformula hheader (header_getElem? hj)
      (h.labels j column hj)).2
  · obtain ⟨i, hi⟩ := List.getElem?_of_mem hrow
    obtain ⟨j, hj⟩ := List.getElem?_of_mem hcolumn
    have hlt : i < maxRowsPerSheet :=
      Nat.lt_of_lt_of_le (List.getElem?_eq_some_iff.1 hi).1 hrows
    exact safe_writeCell.1 (safe_of_placed apart_sheet hformula (sheetLines_row hlt hi)
      (rowLine_getElem? hj row) (h.values i row j column hlt hi hj)).2

/-! ## The main result -/

theorem fits_iff : Fits texts dataset ↔
    AllSafe (summary texts dataset) ∧ ∀ sheet ∈ dataset.sheets, SheetFits texts sheet := by
  rw [summary_iff]
  exact ⟨fun h => ⟨⟨h.height, h.given⟩, fun sheet hs =>
      ⟨h.labels sheet hs, h.rows sheet hs, h.values sheet hs⟩⟩,
    fun h => ⟨h.1.2, h.1.1, fun sheet hs => (h.2 sheet hs).labels,
      fun sheet hs => (h.2 sheet hs).rows, fun sheet hs => (h.2 sheet hs).values⟩⟩

namespace Sample

def plainTexts : ExportTexts where
  std := Stdlib.ascii
  strDatetime _ _ := ""
  capitalize := id

/-- One sheet with one row, which begins with `=`. -/
def risks (generatedBy : String) : ExportDataset where
  exportId := 0
  generatedAt := ⟨2026, 7, 30, 14, 32⟩
  generatedBy := generatedBy
  scopeLabel := "All projects"
  projectNames := ["Alpha"]
  filters := []
  sheets := [{ title := "Risks", columns := [{ key := "description", label := "Description" }]
               rows := [[("description", .value (.str "=1+1"))]] }]

end Sample

end Xlsx

end Clear
