import Clear.Ai.Parsers.Proof.LayoutDocument

/-!
# The quality of a parse

`split_pages` (`app/ai/parsers/adi_adapter.py`) divides an analysis into the payloads of its pages,
`quality_from` (`app/ai/parsers/base.py`) measures the document that is built from them, and
`ParserStage.run` (`app/orchestrator/stages/parser.py`) rejects it for missing text. The payloads
carry no `content`, which is what the parser calls a page empty by.

* `Quality.sound_iff`: the quality is judged on the recovered text only for analyses without text on
their pages, and with little text in tables.
-/

namespace Clear

open Cdm Layout

/-! ## The pages of an analysis -/

namespace Adi

variable (std : Stdlib)

def paragraphRef : String := "/paragraphs/"

/-- A number for which `isinstance(v, int)` holds. -/
def asInt? : Value → Option Int
  | .int n => some n
  | .bool b => some (if b then 1 else 0)
  | _ => none

def regionPage (node : ValueDict) : Except LayoutError (Option Int) :=
  match (Value.get node "boundingRegions").or (.list []) with
  | .list [] => .ok none
  | .list (.dict region :: _) => .ok (asInt? (Value.get region "pageNumber"))
  | _ => .error .malformed

structure Located where
  raw : ValueDict
  page : Option Int

def locate (v : Value) : Except LayoutError Located := do
  let raw ← asDict v
  let page ← regionPage raw
  return { raw, page }

def pageOf (paragraphs : List Located) (index : Int) : Option Int :=
  if index < 0 then none else (paragraphs[index.toNat]?).bind (·.page)

def localOf (paragraphs : List Located) (number index : Int) : Nat :=
  (paragraphs.take index.toNat).countP (·.page = some number)

def afterRef (text : String) : Option String :=
  if paragraphRef.toList.isPrefixOf text.toList then
    some (String.ofList (text.toList.drop paragraphRef.length))
  else none

def referencedParagraphs (cells : List ValueDict) : Except LayoutError (List Int) := do
  let references ← cells.mapM fun cell => iterOr (Value.get cell "elements")
  return references.flatten.filterMap fun r => (afterRef (r.text std)).bind Text.toInt?

def tablePage (paragraphs : List Located) (table : ValueDict) (cells : List ValueDict) :
    Except LayoutError (Option Int) := do
  match ← regionPage table with
  | some number => return some number
  | none =>
    let indices ← referencedParagraphs std cells
    return (indices.insertionSort (· ≤ ·)).findSome? (pageOf paragraphs)

def rewritten (paragraphs : List Located) (number : Int) (reference : Value) : Option String :=
  let text := reference.text std
  match afterRef text with
  | none => some text
  | some rest =>
    match Text.toInt? rest with
    | none => none
    | some index =>
      if pageOf paragraphs index = some number then
        some (paragraphRef ++ toString (localOf paragraphs number index))
      else none

def renumberCell (paragraphs : List Located) (number : Int) (cell : ValueDict) :
    Except LayoutError ValueDict := do
  let references ← iterOr (Value.get cell "elements")
  let kept := references.filterMap (rewritten std paragraphs number)
  return Dict.assign cell "elements" (.list (kept.map .str))

structure PlacedTable where
  page : Int
  raw : ValueDict
  cells : List ValueDict

def placeTable (paragraphs : List Located) (v : Value) :
    Except LayoutError (Option PlacedTable) := do
  let raw ← asDict v
  let cells ← (← iterOr (Value.get raw "cells")).mapM asDict
  match ← tablePage std paragraphs raw cells with
  | none => return none
  | some page =>
    let cells ← cells.mapM (renumberCell std paragraphs page)
    return some { page, raw, cells }

/-- What `split_pages` reads of an analysis. -/
structure Analysis where
  result : ValueDict
  paragraphs : List Located
  tables : List PlacedTable
  pages : List ValueDict

def readAnalysis (analysis : ValueDict) : Except LayoutError Analysis := do
  let result ← asDict ((analysis.lookup "analyzeResult").getD (.dict analysis))
  let paragraphs ← (← iterOr (Value.get result "paragraphs")).mapM locate
  let tables ← (← iterOr (Value.get result "tables")).mapM (placeTable std paragraphs)
  let pages ← (← iterOr (Value.get result "pages")).mapM asDict
  return { result, paragraphs, tables := tables.filterMap id, pages }

def findsPage (number : Value) (page : Int) : Bool := number.num? = some (page : Rat)

def PlacedTable.payload (table : PlacedTable) : ValueDict :=
  Dict.assign table.raw "cells" (.list (table.cells.map .dict))

def Analysis.paragraphsOn (a : Analysis) (page : ValueDict) : List ValueDict :=
  (a.paragraphs.filter fun p => p.page.any (findsPage (Value.get page "pageNumber"))).map (·.raw)

def Analysis.tablesOn (a : Analysis) (page : ValueDict) : List PlacedTable :=
  a.tables.filter fun t => findsPage (Value.get page "pageNumber") t.page

def Analysis.payload (a : Analysis) (page : ValueDict) : Except LayoutError ValueDict :=
  if (Value.get page "pageNumber").hashable then
    .ok
      [("pages", .list [.dict page]), ("paragraphs", .list ((a.paragraphsOn page).map .dict)),
        ("tables", .list ((a.tablesOn page).map fun t => .dict t.payload)),
        ("modelId", (a.result.lookup "modelId").getD (.str "prebuilt-layout")),
        ("apiVersion", Value.get a.result "apiVersion")]
  else .error .malformed

def splitPages (analysis : ValueDict) : Except LayoutError (List ValueDict) := do
  let a ← readAnalysis std analysis
  a.pages.mapM a.payload

end Adi

/-! ## Measuring a document -/

namespace Quality

def paragraphText (doc : NormalizedDocument) : Nat := (doc.paragraphs.map (·.text.length)).sum

def tableText (table : Table) : Nat := (table.cells.map (·.text.length)).sum

def bodyText (doc : NormalizedDocument) : Nat :=
  paragraphText doc + (doc.lists.map fun l => (l.items.map (·.text.length)).sum).sum +
    (doc.tables.map tableText).sum + (doc.sections.map (·.title.length)).sum

/-- The text below which a document of several pages is missing its text. -/
def threshold : Nat := 200

def boxes (doc : NormalizedDocument) : List (Option Coordinates) :=
  doc.paragraphs.map (·.coordinates) ++ doc.tables.map (·.coordinates) ++
    doc.lists.map (·.coordinates) ++ doc.signatures.map (·.coordinates)

def qualityFrom (doc : NormalizedDocument) : QualityMetrics :=
  let positioned := (boxes doc).length
  let withCoords := (boxes doc).countP (·.isSome)
  let coverage : Rat := if positioned = 0 then 1 else withCoords / positioned
  let emptyPages := (doc.pages.filter (·.contentBlocks.isEmpty)).map (·.pageNumber)
  let missing := toString (positioned - withCoords) ++ " of " ++ toString positioned ++
    " elements have no coordinates; their evidence cannot be highlighted."
  let empty := toString emptyPages.length ++ " page(s) yielded no content."
  { ocrConfidence := doc.quality.ocrConfidence
    missingText := paragraphText doc < threshold && 1 < doc.pages.length
    emptyPages
    corruptedPages := doc.quality.corruptedPages
    scannedPages := (doc.pages.filter (·.isScanned)).map (·.pageNumber)
    coordinateCoverage := Rounding.toDigits 4 coverage
    warnings := doc.quality.warnings ++ (if coverage < 1 then [missing] else []) ++
      if emptyPages.isEmpty then [] else [empty] }

/-- The `ParserError` of a document without text, with its details. -/
structure MissingText where
  message : String
  pages : Nat
  paragraphs : Nat

/-- What `ParserStage.run` makes of a parse. -/
def accept (doc : NormalizedDocument) : Except MissingText NormalizedDocument :=
  if (qualityFrom doc).missingText then
    .error
      { message := "The parser recovered almost no text from this document. It may be a " ++
          "scanned image without OCR available, or malformed."
        pages := doc.pages.length
        paragraphs := doc.paragraphs.length }
  else .ok { doc with quality := qualityFrom doc }

/-! ## What the quality should say -/

def Named (q : QualityMetrics) (n : Int) : Prop :=
  ∃ (count : Nat) (shown : List Int), n ∈ shown ∧
    (toString count ++ " page(s) contained no extractable text: " ++
      ", ".intercalate (shown.map toString)) ∈ q.warnings

def ReportedEmpty (doc : NormalizedDocument) (n : Int) : Prop :=
  n ∈ doc.quality.emptyPages ∨ n ∈ (qualityFrom doc).emptyPages ∨ Named (qualityFrom doc) n

def cellsText (std : Stdlib) (cells : List ValueDict) : Nat :=
  (cells.map fun cell => (stripped std cell "content").length).sum

section

variable (std : Stdlib) (a : Adi.Analysis)

def Blank (page : ValueDict) : Prop :=
  ∀ raw ∈ a.paragraphsOn page, LayoutParser.contentOf std raw = ""

/-- The verdicts on a parse are right: a page that is reported empty has no text, and a document is
rejected only if its body elements together have little text. -/
structure Sound (doc : NormalizedDocument) : Prop where
  pages : ∀ p ∈ a.pages.zipIdx, ∀ n, LayoutParser.pageNumber p.1 p.2 = .ok n →
    ReportedEmpty doc n → Blank std a p.1
  rejection : ∀ e, accept doc = .error e → bodyText doc < threshold

def tablesText : Nat :=
  (a.pages.map fun page => ((a.tablesOn page).map fun t => cellsText std t.cells).sum).sum

structure TablesOnly : Prop where
  blank : ∀ page ∈ a.pages, Blank std a page
  tables : a.pages.length ≤ 1 ∨ tablesText std a < threshold

end

/-! ## A page without text outside tables -/

open LayoutParser

def rawText (std : Stdlib) (table : RawTable × Nat) : Nat := cellsText std table.1.cells

def remaining (std : Stdlib) (tableAt : List (Nat × List (RawTable × Nat))) : Nat :=
  (tableAt.map fun e => (e.2.map (rawText std)).sum).sum

structure Tabled (s s' : PageState) : Prop where
  pending : s'.pending = s.pending
  paragraphs : s'.acc.paragraphs = s.acc.paragraphs
  lists : s'.acc.lists = s.acc.lists
  sections : s'.acc.sections = s.acc.sections

section

variable {std : Stdlib} {page : PageInput} {anchor : Nat} {sectionId : Option String}
  {s s' s'' : PageState}

theorem Tabled.refl (s : PageState) : Tabled s s := ⟨rfl, rfl, rfl, rfl⟩

theorem Tabled.trans (h : Tabled s s') (h' : Tabled s' s'') : Tabled s s'' :=
  ⟨h'.pending.trans h.pending, h'.paragraphs.trans h.paragraphs, h'.lists.trans h.lists,
    h'.sections.trans h.sections⟩

theorem cells_text {cells : List ValueDict} {cells' : List TableCell}
    (h : cells.mapM (tableCell std page) = .ok cells') :
    (cells'.map (·.text.length)).sum = cellsText std cells := by
  unfold cellsText
  induction cells generalizing cells' with
  | nil =>
    obtain rfl := Except.pure_eq_ok.1 h
    rfl
  | cons cell cells ih =>
    rw [List.mapM_cons] at h
    obtain ⟨cell', hcell, h⟩ := Except.bind_eq_ok.1 h
    obtain ⟨rest, hrest, h⟩ := Except.bind_eq_ok.1 h
    obtain rfl := Except.pure_eq_ok.1 h
    have htext : cell'.text = stripped std cell "content" := by
      unfold tableCell at hcell
      obtain ⟨_, -, hcell⟩ := Except.bind_eq_ok.1 hcell
      obtain ⟨_, -, hcell⟩ := Except.bind_eq_ok.1 hcell
      obtain ⟨_, -, hcell⟩ := Except.bind_eq_ok.1 hcell
      obtain ⟨_, -, hcell⟩ := Except.bind_eq_ok.1 hcell
      obtain ⟨_, -, hcell⟩ := Except.bind_eq_ok.1 hcell
      obtain rfl := Except.pure_eq_ok.1 hcell
      rfl
    rw [List.map_cons, List.map_cons, List.sum_cons, List.sum_cons, ih hrest, htext]

theorem emitTable_text {raw : RawTable × Nat}
    (h : emitTable std page anchor sectionId s raw = .ok s') :
    Tabled s s' ∧ (s'.acc.tables.map tableText).sum =
      (s.acc.tables.map tableText).sum + rawText std raw := by
  unfold emitTable table at h
  obtain ⟨t, ht, h⟩ := Except.bind_eq_ok.1 h
  obtain ⟨cells, hcells, ht⟩ := Except.bind_eq_ok.1 ht
  have htext := cells_text hcells
  cases cells with
  | nil =>
    obtain rfl := Except.pure_eq_ok.1 ht
    obtain rfl := Except.pure_eq_ok.1 h
    refine ⟨.refl _, ?_⟩
    unfold rawText
    rw [← htext]
    rfl
  | cons cell rest =>
    obtain ⟨rows, -, ht⟩ := Except.bind_eq_ok.1 ht
    obtain ⟨columns, -, ht⟩ := Except.bind_eq_ok.1 ht
    obtain ⟨coordinates, -, ht⟩ := Except.bind_eq_ok.1 ht
    obtain rfl := Except.pure_eq_ok.1 ht
    obtain rfl := Except.pure_eq_ok.1 h
    refine ⟨⟨rfl, rfl, rfl, rfl⟩, ?_⟩
    unfold rawText
    rw [← htext]
    simp [Accumulator.push, tableText]

theorem foldlM_emitTable_text {tables : List (RawTable × Nat)}
    (h : tables.foldlM (emitTable std page anchor sectionId) s = .ok s') :
    Tabled s s' ∧ (s'.acc.tables.map tableText).sum =
      (s.acc.tables.map tableText).sum + (tables.map (rawText std)).sum := by
  induction tables generalizing s with
  | nil =>
    obtain rfl := Except.pure_eq_ok.1 h
    exact ⟨.refl _, rfl⟩
  | cons t tables ih =>
    rw [List.foldlM_cons] at h
    obtain ⟨s₁, hs₁, h⟩ := Except.bind_eq_ok.1 h
    obtain ⟨htabled, htext⟩ := emitTable_text hs₁
    obtain ⟨htabled', htext'⟩ := ih h
    refine ⟨htabled.trans htabled', ?_⟩
    rw [htext', htext, List.map_cons, List.sum_cons, Nat.add_assoc]

theorem remaining_filter {tableAt : List (Nat × List (RawTable × Nat))}
    (hnodup : (tableAt.map (·.1)).Nodup) (anchor : Nat) :
    remaining std (tableAt.filter (·.1 ≠ anchor)) +
      ((((tableAt.lookup anchor).getD []).map (rawText std)).sum) = remaining std tableAt := by
  induction tableAt with
  | nil => rfl
  | cons e tableAt ih =>
    obtain ⟨k, ts⟩ := e
    rw [List.map_cons, List.nodup_cons] at hnodup
    unfold remaining at *
    by_cases hk : k = anchor
    · subst hk
      have hkept : tableAt.filter (·.1 ≠ k) = tableAt :=
        List.filter_eq_self.2 fun e he => by
          have : e.1 ≠ k := fun h => hnodup.1 (List.mem_map.2 ⟨e, he, h⟩)
          simpa using this
      rw [List.filter_cons_of_neg (by simp), hkept]
      simp [Nat.add_comm]
    · rw [List.filter_cons_of_pos (by simpa using hk)]
      have hne : (anchor == k) = false := by simpa using Ne.symm hk
      simp only [List.map_cons, List.sum_cons, List.lookup_cons, hne]
      rw [← ih hnodup.2, Nat.add_assoc]

structure Emitted (std : Stdlib) (s s' : PageState) : Prop where
  tabled : Tabled s s'
  keys : (s'.tableAt.map (·.1)).Sublist (s.tableAt.map (·.1))
  text : (s'.acc.tables.map tableText).sum + remaining std s'.tableAt =
    (s.acc.tables.map tableText).sum + remaining std s.tableAt

theorem Emitted.refl (std : Stdlib) (s : PageState) : Emitted std s s :=
  ⟨.refl s, .refl _, rfl⟩

theorem Emitted.trans (h : Emitted std s s') (h' : Emitted std s' s'') : Emitted std s s'' :=
  ⟨h.tabled.trans h'.tabled, h'.keys.trans h.keys, h'.text.trans h.text⟩

theorem emitTables_emitted (hnodup : (s.tableAt.map (·.1)).Nodup)
    (h : emitTables std page anchor sectionId s = .ok s') : Emitted std s s' := by
  have htableAt := (emitTables_ok h).2.1
  obtain ⟨htabled, htext⟩ := foldlM_emitTable_text h
  refine ⟨⟨htabled.pending, htabled.paragraphs, htabled.lists, htabled.sections⟩, ?_, ?_⟩
  · rw [htableAt]
    exact List.filter_sublist.map _
  · rw [htableAt, htext, ← remaining_filter hnodup anchor]
    dsimp only
    omega

/-- A paragraph without text adds nothing but the tables that begin at it. -/
theorem pageStep_blank {plan : Plan} {p : ValueDict × Nat} (hblank : contentOf std p.1 = "")
    (h : pageStep std page plan s p = .ok s') :
    emitTables std page p.2 (plan.get p.2) s = .ok s' := by
  have hkind : page.kind std p = .consumed ∨ page.kind std p = .blank := by
    unfold PageInput.kind
    split
    · exact .inl rfl
    · exact .inr rfl
  unfold pageStep at h
  obtain ⟨s₁, hs₁, h⟩ := Except.bind_eq_ok.1 h
  dsimp only at h
  rw [hs₁]
  rcases hkind with hkind | hkind
  · rw [hkind] at h
    exact congrArg _ (Except.pure_eq_ok.1 h)
  · rw [hkind] at h
    exact congrArg _ (Except.pure_eq_ok.1 h)

theorem foldlM_pageStep_blank {plan : Plan} {raws : List (ValueDict × Nat)}
    (hblank : ∀ p ∈ raws, contentOf std p.1 = "") (hnodup : (s.tableAt.map (·.1)).Nodup)
    (h : raws.foldlM (pageStep std page plan) s = .ok s') : Emitted std s s' := by
  induction raws generalizing s with
  | nil =>
    obtain rfl := Except.pure_eq_ok.1 h
    exact .refl std s
  | cons p raws ih =>
    rw [List.foldlM_cons] at h
    obtain ⟨s₁, hs₁, h⟩ := Except.bind_eq_ok.1 h
    have hfirst := emitTables_emitted hnodup (pageStep_blank (hblank p List.mem_cons_self) hs₁)
    exact hfirst.trans (ih (fun p hp => hblank p (List.mem_cons_of_mem _ hp))
      (hfirst.keys.nodup hnodup) h)

theorem foldlM_emitTables {anchors : List Nat} (hnodup : (s.tableAt.map (·.1)).Nodup)
    (h : anchors.foldlM (fun s anchor => emitTables std page anchor sectionId s) s = .ok s') :
    Emitted std s s' ∧ s'.tableAt = s.tableAt.filter (·.1 ∉ anchors) := by
  induction anchors generalizing s with
  | nil =>
    obtain rfl := Except.pure_eq_ok.1 h
    exact ⟨.refl std s, (List.filter_eq_self.2 fun _ _ => by simp).symm⟩
  | cons anchor anchors ih =>
    rw [List.foldlM_cons] at h
    obtain ⟨s₁, hs₁, h⟩ := Except.bind_eq_ok.1 h
    have hfirst := emitTables_emitted hnodup hs₁
    obtain ⟨hrest, htableAt⟩ := ih (hfirst.keys.nodup hnodup) h
    refine ⟨hfirst.trans hrest, ?_⟩
    rw [htableAt, (emitTables_ok hs₁).2.1, List.filter_filter]
    apply List.filter_congr
    intro e _
    simp [Bool.and_comm]

theorem sum_groups {α : Type} (key : α → Nat) (w : α → Nat) {keys : List Nat} {l : List α}
    (hnodup : keys.Nodup) (hmem : ∀ a ∈ l, key a ∈ keys) :
    (keys.map fun k => ((l.filter (key · = k)).map w).sum).sum = (l.map w).sum := by
  induction l with
  | nil => simp
  | cons a l ih =>
    have hone : ∀ k ∈ keys, (((a :: l).filter (key · = k)).map w).sum =
        (if k = key a then w a else 0) + ((l.filter (key · = k)).map w).sum := by
      intro k _
      by_cases hk : key a = k
      · rw [List.filter_cons_of_pos (by simpa using hk), if_pos hk.symm, List.map_cons,
          List.sum_cons]
      · rw [List.filter_cons_of_neg (by simpa using hk), if_neg (Ne.symm hk), Nat.zero_add]
    rw [List.map_congr_left hone, List.sum_map_add,
      ih fun b hb => hmem b (List.mem_cons_of_mem _ hb), List.map_cons, List.sum_cons]
    congr 1
    have hkey := hmem a List.mem_cons_self
    clear ih hone hmem
    induction keys with
    | nil => cases hkey
    | cons k keys ih =>
      rw [List.nodup_cons] at hnodup
      rw [List.map_cons, List.sum_cons]
      rcases List.mem_cons.1 hkey with rfl | hkey
      · rw [if_pos rfl, List.sum_eq_zero, Nat.add_zero]
        intro n hn
        obtain ⟨k, hk, rfl⟩ := List.mem_map.1 hn
        exact if_neg fun (h : k = key a) => hnodup.1 (h ▸ hk)
      · rw [if_neg fun (h : k = key a) => hnodup.1 (h ▸ hkey), Nat.zero_add]
        exact ih hnodup.2 hkey

theorem remaining_tableAt (std : Stdlib) (page : PageInput) :
    (page.tableAt.map (·.1)).Nodup ∧
      remaining std page.tableAt = (page.tables.map fun t => cellsText std t.cells).sum := by
  have hkeys : (page.tableAt.map (·.1)).Nodup := by
    unfold PageInput.tableAt
    rw [Dict.keys_groupBy]
    exact Dict.nodup_eraseDups _
  refine ⟨hkeys, ?_⟩
  have hgroup : ∀ e ∈ page.tableAt, (e.2.map (rawText std)).sum =
      ((page.tables.zipIdx.filter (·.1.anchor = e.1)).map (rawText std)).sum := by
    intro e he
    have hlookup : page.tableAt.lookup e.1 = some e.2 := (Dict.lookup_eq_some_iff hkeys).2 he
    have hfiled := Dict.getD_groupBy (fun t : RawTable × Nat => t.1.anchor) id page.tables.zipIdx e.1
    rw [List.map_id] at hfiled
    rw [← hfiled]
    show _ = (((page.tableAt.lookup e.1).getD []).map (rawText std)).sum
    rw [hlookup, Option.getD_some]
  have hsum : remaining std page.tableAt = ((page.tableAt.map (·.1)).map fun k =>
      ((page.tables.zipIdx.filter (·.1.anchor = k)).map (rawText std)).sum).sum := by
    unfold remaining
    rw [List.map_congr_left hgroup, List.map_map]
    rfl
  rw [hsum, sum_groups (fun t : RawTable × Nat => t.1.anchor) (rawText std) hkeys]
  · rw [← List.zipIdx_map_fst 0 page.tables, List.map_map, List.zipIdx_map_fst]
    rfl
  · intro t ht
    unfold PageInput.tableAt
    rw [Dict.keys_groupBy, List.mem_eraseDups]
    exact List.mem_map_of_mem ht

theorem buildPage_blank {acc : Accumulator} (hblank : ∀ raw ∈ page.raws, contentOf std raw = "")
    (h : buildPage std page acc = .ok s) :
    s.acc.paragraphs = acc.paragraphs ∧ s.acc.lists = acc.lists ∧
      s.acc.sections = acc.sections ∧ (s.acc.tables.map tableText).sum =
        (acc.tables.map tableText).sum + (page.tables.map fun t => cellsText std t.cells).sum := by
  unfold buildPage at h
  obtain ⟨plan, -, h⟩ := Except.bind_eq_ok.1 h
  obtain ⟨s₁, hs₁, h⟩ := Except.bind_eq_ok.1 h
  obtain ⟨s₂, hs₂, h⟩ := Except.bind_eq_ok.1 h
  obtain ⟨hkeys, hremaining⟩ := remaining_tableAt std page
  have hrounds := foldlM_pageStep_blank (fun p hp => hblank p.1 (by
    obtain ⟨-, hget⟩ := List.mem_zipIdx' hp
    rw [hget]
    exact List.getElem_mem _)) hkeys hs₁
  have hpending : s₁.pending = [] := hrounds.tabled.pending
  unfold flushList at hs₂
  rw [hpending] at hs₂
  obtain rfl := Except.ok.inj hs₂
  obtain ⟨hleft, htableAt⟩ := foldlM_emitTables (hrounds.keys.nodup hkeys) h
  have hnone : s.tableAt = [] := by
    rw [htableAt, List.filter_eq_nil_iff]
    intro e he
    simpa using ⟨e.2, he⟩
  have hall := hrounds.trans hleft
  refine ⟨hall.tabled.paragraphs, hall.tabled.lists, hall.tabled.sections, ?_⟩
  have htext := hall.text
  rw [hnone] at htext
  dsimp only at htext
  rw [hremaining] at htext
  exact htext

end

/-! ## The pages of an analysis -/

section

variable {std : Stdlib} {a : Adi.Analysis} {page payload : ValueDict} {index : Nat}
  {acc acc' : Accumulator}

theorem iterOr_list (l : List Value) : iterOr (.list l) = .ok l := by
  cases l <;> rfl

theorem mapM_asDict (l : List ValueDict) : (l.map Value.dict).mapM asDict = .ok l := by
  induction l with
  | nil => rfl
  | cons d l ih =>
    rw [List.map_cons, List.mapM_cons, ih]
    rfl

theorem readTable_cells {table : Adi.PlacedTable} {read : RawTable}
    (h : readTable std (.dict table.payload) = .ok read) : read.cells = table.cells := by
  have hget : Value.get table.payload "cells" = .list (table.cells.map .dict) := by
    unfold Value.get Adi.PlacedTable.payload
    rw [Dict.lookup_assign_self]
    rfl
  unfold readTable at h
  obtain ⟨raw, hraw, h⟩ := Except.bind_eq_ok.1 h
  obtain rfl := Except.ok.inj hraw
  rw [hget, iterOr_list] at h
  obtain ⟨cells, hcells, h⟩ := Except.bind_eq_ok.1 h
  obtain rfl := Except.ok.inj hcells
  obtain ⟨cells, hcells, h⟩ := Except.bind_eq_ok.1 h
  rw [mapM_asDict] at hcells
  obtain rfl := Except.ok.inj hcells
  obtain ⟨indices, -, h⟩ := Except.bind_eq_ok.1 h
  obtain rfl := Except.pure_eq_ok.1 h
  rfl

theorem mapM_readTable_cells {tables : List Adi.PlacedTable} {read : List RawTable}
    (h : (tables.map fun t => Value.dict t.payload).mapM (readTable std) = .ok read) :
    (read.map fun t => cellsText std t.cells) = tables.map fun t => cellsText std t.cells := by
  induction tables generalizing read with
  | nil =>
    obtain rfl := Except.pure_eq_ok.1 h
    rfl
  | cons table tables ih =>
    rw [List.map_cons, List.mapM_cons] at h
    obtain ⟨first, hfirst, h⟩ := Except.bind_eq_ok.1 h
    obtain ⟨rest, hrest, h⟩ := Except.bind_eq_ok.1 h
    obtain rfl := Except.pure_eq_ok.1 h
    rw [List.map_cons, List.map_cons, readTable_cells hfirst, ih hrest]

theorem payload_read (hpayload : a.payload page = .ok payload) {read : PageInput}
    (h : readPage std payload index = .ok read) :
    read.index = index ∧ LayoutParser.pageNumber page index = .ok read.number ∧
      read.raws = a.paragraphsOn page ∧ (read.tables.map fun t => cellsText std t.cells) =
        (a.tablesOn page).map fun t => cellsText std t.cells := by
  unfold Adi.Analysis.payload at hpayload
  split at hpayload
  · obtain rfl := Except.ok.inj hpayload
    unfold readPage at h
    obtain ⟨pageData, hpageData, h⟩ := Except.bind_eq_ok.1 h
    obtain rfl : page = pageData := Except.ok.inj hpageData
    obtain ⟨number, hnumber, h⟩ := Except.bind_eq_ok.1 h
    obtain ⟨size, -, h⟩ := Except.bind_eq_ok.1 h
    dsimp only at h
    obtain ⟨paragraphs, hparagraphs, h⟩ := Except.bind_eq_ok.1 h
    obtain ⟨raws, hraws, h⟩ := Except.bind_eq_ok.1 h
    obtain ⟨items, hitems, h⟩ := Except.bind_eq_ok.1 h
    obtain ⟨tables, htables, h⟩ := Except.bind_eq_ok.1 h
    obtain rfl := Except.pure_eq_ok.1 h
    have hparagraphs : iterOr (.list ((a.paragraphsOn page).map .dict)) = .ok paragraphs :=
      hparagraphs
    have hitems : iterOr (.list ((a.tablesOn page).map fun t => .dict t.payload)) = .ok items :=
      hitems
    rw [iterOr_list] at hparagraphs hitems
    obtain rfl := Except.ok.inj hparagraphs
    obtain rfl := Except.ok.inj hitems
    rw [mapM_asDict] at hraws
    exact ⟨rfl, hnumber, (Except.ok.inj hraws).symm, mapM_readTable_cells htables⟩
  · cases hpayload

theorem payload_content (hpayload : a.payload page = .ok payload) :
    Value.get payload "content" = .null := by
  unfold Adi.Analysis.payload at hpayload
  split at hpayload
  · obtain rfl := Except.ok.inj hpayload
    rfl
  · cases hpayload

structure PageMeasured (std : Stdlib) (a : Adi.Analysis) (page : ValueDict) (index : Nat)
    (acc acc' : Accumulator) : Prop where
  inv : acc'.Inv
  bound : ∀ q ∈ positions acc'.placed, q.1 < index + 1
  pages : acc'.pages.length = acc.pages.length + 1
  empty : ∃ n, LayoutParser.pageNumber page index = .ok n ∧
    acc'.emptyPages = acc.emptyPages ++ [n]
  blank : Blank std a page → acc'.paragraphs = acc.paragraphs ∧ acc'.lists = acc.lists ∧
    acc'.sections = acc.sections ∧ (acc'.tables.map tableText).sum =
      (acc.tables.map tableText).sum + ((a.tablesOn page).map fun t => cellsText std t.cells).sum

theorem addPage_measured (hinv : acc.Inv) (hbefore : ∀ q ∈ positions acc.placed, q.1 < index)
    (hpayload : a.payload page = .ok payload)
    (h : addPage std acc (payload, index) = .ok acc') :
    PageMeasured std a page index acc acc' := by
  unfold addPage at h
  obtain ⟨pageData, -, h⟩ := Except.bind_eq_ok.1 h
  obtain ⟨words, -, h⟩ := Except.bind_eq_ok.1 h
  obtain ⟨read, hread, h⟩ := Except.bind_eq_ok.1 h
  obtain ⟨s, hs, h⟩ := Except.bind_eq_ok.1 h
  obtain ⟨hindex, hnumber, hraws, htables⟩ := payload_read hpayload hread
  have hinv' : Accumulator.Inv { acc with confidences := acc.confidences ++ words } :=
    ⟨hinv.placed, hinv.orders, hinv.bound, hinv.paragraphIds, hinv.listIds, hinv.signatureIds⟩
  have hbuilt := buildPage_ok hinv' (by rw [hindex]; exact hbefore) hs
  have hcontent : Text.isBlank (((Value.get payload "content").or (.str "")).text std) = true := by
    rw [payload_content hpayload]
    rfl
  dsimp only at h
  rw [if_pos hcontent] at h
  split at h
  · cases h
  obtain rfl := Except.pure_eq_ok.1 h
  refine ⟨?_, ?_, ?_, ⟨read.number, hnumber, ?_⟩, fun hblank => ?_⟩
  · exact ⟨hbuilt.inv.placed, hbuilt.inv.orders, hbuilt.inv.bound, hbuilt.inv.paragraphIds,
      hbuilt.inv.listIds, hbuilt.inv.signatureIds⟩
  · have hbound := hbuilt.bound
    rw [hindex] at hbound
    exact hbound
  · rw [List.length_append, hbuilt.pages]
    rfl
  · rw [hbuilt.emptyPages]
  · have hpage := buildPage_blank (fun raw hraw => hblank raw (hraws ▸ hraw)) hs
    rw [htables] at hpage
    exact hpage

theorem foldlM_addPage_measured {pages payloads : List ValueDict} (hinv : acc.Inv)
    (hbefore : ∀ q ∈ positions acc.placed, q.1 < index)
    (hpayloads : pages.mapM a.payload = .ok payloads)
    (h : (payloads.zipIdx index).foldlM (addPage std) acc = .ok acc') :
    acc'.pages.length = acc.pages.length + pages.length ∧
      (∀ n ∈ acc.emptyPages, n ∈ acc'.emptyPages) ∧
      (∀ p ∈ pages.zipIdx index, ∃ n, LayoutParser.pageNumber p.1 p.2 = .ok n ∧
        n ∈ acc'.emptyPages) ∧
      ((∀ page ∈ pages, Blank std a page) → acc'.paragraphs = acc.paragraphs ∧
        acc'.lists = acc.lists ∧ acc'.sections = acc.sections ∧
        (acc'.tables.map tableText).sum = (acc.tables.map tableText).sum + (pages.map fun page =>
          ((a.tablesOn page).map fun t => cellsText std t.cells).sum).sum) := by
  induction pages generalizing payloads index acc with
  | nil =>
    obtain rfl := Except.pure_eq_ok.1 hpayloads
    obtain rfl := Except.pure_eq_ok.1 h
    exact ⟨rfl, fun _ hn => hn, fun _ hp => (List.not_mem_nil hp).elim,
      fun _ => ⟨rfl, rfl, rfl, rfl⟩⟩
  | cons page pages ih =>
    rw [List.mapM_cons] at hpayloads
    obtain ⟨payload, hpayload, hpayloads⟩ := Except.bind_eq_ok.1 hpayloads
    obtain ⟨rest, hrest, hpayloads⟩ := Except.bind_eq_ok.1 hpayloads
    obtain rfl := Except.pure_eq_ok.1 hpayloads
    rw [List.zipIdx_cons, List.foldlM_cons] at h
    obtain ⟨acc₁, hacc₁, h⟩ := Except.bind_eq_ok.1 h
    have hstep := addPage_measured hinv hbefore hpayload hacc₁
    obtain ⟨n, hn, hempty⟩ := hstep.empty
    obtain ⟨hpages, hkept, hreported, hblank⟩ := ih hstep.inv hstep.bound hrest h
    refine ⟨?_, ?_, ?_, fun hall => ?_⟩
    · rw [hpages, hstep.pages, List.length_cons]
      omega
    · intro m hm
      apply hkept
      rw [hempty]
      exact List.mem_append_left _ hm
    · intro p hp
      rw [List.zipIdx_cons, List.mem_cons] at hp
      rcases hp with rfl | hp
      · refine ⟨n, hn, hkept n ?_⟩
        rw [hempty]
        exact List.mem_append_right _ (List.mem_singleton_self _)
      · exact hreported p hp
    · obtain ⟨hparagraphs, hlists, hsections, htables⟩ :=
        hblank fun page hpage => hall page (List.mem_cons_of_mem _ hpage)
      obtain ⟨hparagraphs₁, hlists₁, hsections₁, htables₁⟩ :=
        hstep.blank (hall page List.mem_cons_self)
      refine ⟨hparagraphs.trans hparagraphs₁, hlists.trans hlists₁, hsections.trans hsections₁, ?_⟩
      rw [htables, htables₁, List.map_cons, List.sum_cons, Nat.add_assoc]

theorem accept_error {doc : NormalizedDocument} :
    (∃ e, accept doc = .error e) ↔ paragraphText doc < threshold ∧ 1 < doc.pages.length := by
  have hmissing : (qualityFrom doc).missingText = true ↔
      paragraphText doc < threshold ∧ 1 < doc.pages.length := by
    show (decide _ && decide _) = true ↔ _
    rw [Bool.and_eq_true, decide_eq_true_eq, decide_eq_true_eq]
  rw [← hmissing]
  unfold accept
  split
  next h => exact iff_of_true ⟨_, rfl⟩ h
  next h =>
    refine iff_of_false (fun he => ?_) h
    obtain ⟨e, he⟩ := he
    cases he

end

section

variable {std : Stdlib} {analysis : ValueDict} {a : Adi.Analysis} {payloads : List ValueDict}
  {doc : NormalizedDocument} {placed : List Placement}

theorem build_measured (hread : Adi.readAnalysis std analysis = .ok a)
    (hsplit : Adi.splitPages std analysis = .ok payloads)
    (hbuild : build std payloads = .ok (doc, placed)) :
    doc.pages.length = a.pages.length ∧
      (∀ p ∈ a.pages.zipIdx, ∃ n, LayoutParser.pageNumber p.1 p.2 = .ok n ∧
        n ∈ doc.quality.emptyPages) ∧
      ((∀ page ∈ a.pages, Blank std a page) →
        paragraphText doc = 0 ∧ bodyText doc = tablesText std a) := by
  unfold Adi.splitPages at hsplit
  rw [hread] at hsplit
  unfold build at hbuild
  obtain ⟨acc, hacc, hbuild⟩ := Except.bind_eq_ok.1 hbuild
  split at hbuild
  · cases hbuild
  obtain ⟨rfl, rfl⟩ := Prod.mk.inj (Except.pure_eq_ok.1 hbuild)
  obtain ⟨hpages, -, hreported, hblank⟩ := foldlM_addPage_measured .empty
    (fun _ hq => (List.not_mem_nil hq).elim) hsplit hacc
  rw [List.length_nil, Nat.zero_add] at hpages
  refine ⟨hpages, hreported, fun hall => ?_⟩
  obtain ⟨hparagraphs, hlists, hsections, htables⟩ := hblank hall
  unfold bodyText paragraphText tablesText
  dsimp only
  rw [hparagraphs, hlists, hsections, htables]
  simp

/-- The verdicts are right exactly if no page has text outside tables and, on several pages, the
tables have little. -/
theorem sound_iff (hread : Adi.readAnalysis std analysis = .ok a)
    (hsplit : Adi.splitPages std analysis = .ok payloads)
    (hbuild : build std payloads = .ok (doc, placed)) : Sound std a doc ↔ TablesOnly std a := by
  obtain ⟨hpages, hreported, hblank⟩ := build_measured hread hsplit hbuild
  constructor
  · intro hsound
    have hall : ∀ page ∈ a.pages, Blank std a page := by
      intro page hpage
      rw [← List.zipIdx_map_fst 0 a.pages] at hpage
      obtain ⟨p, hp, rfl⟩ := List.mem_map.1 hpage
      obtain ⟨n, hn, hempty⟩ := hreported p hp
      exact hsound.pages p hp n hn (.inl hempty)
    obtain ⟨hnone, hbody⟩ := hblank hall
    refine ⟨hall, ?_⟩
    by_cases hone : a.pages.length ≤ 1
    · exact .inl hone
    · have hrejected : paragraphText doc < threshold ∧ 1 < doc.pages.length := by
        rw [hnone, hpages]
        exact ⟨by decide, Nat.lt_of_not_le hone⟩
      obtain ⟨e, he⟩ := accept_error.2 hrejected
      exact .inr (hbody ▸ hsound.rejection e he)
  · intro honly
    obtain ⟨hnone, hbody⟩ := hblank honly.blank
    refine ⟨fun p hp n _ _ => ?_, fun e he => ?_⟩
    · obtain ⟨-, hget⟩ := List.mem_zipIdx' hp
      rw [hget]
      exact honly.blank _ (List.getElem_mem _)
    · have hseveral := (accept_error.1 ⟨e, he⟩).2
      rw [hpages] at hseveral
      rw [hbody]
      exact honly.tables.resolve_left (Nat.not_le_of_lt hseveral)

end

/-! ## Samples -/

def sampleNode (entries : ValueDict) : Value :=
  .dict (("boundingRegions", .list [.dict [("pageNumber", .int 1)]]) :: entries)

def sampleAnalysis (paragraphs tables : List Value) : ValueDict :=
  [("analyzeResult", .dict
    [("pages", .list [.dict [("pageNumber", .int 1)], .dict [("pageNumber", .int 2)]]),
      ("paragraphs", .list paragraphs), ("tables", .list tables)])]

def numberedClauses : ValueDict :=
  sampleAnalysis (List.replicate 30 (sampleNode [("content", .str "1. Payment")])) []

def tableOnly : ValueDict :=
  sampleAnalysis []
    [sampleNode [("cells", .list [.dict [("content", .str "Fees")]])]]

theorem sound_iff_tableOnly :
    ∃ a payloads doc placed, Adi.readAnalysis Stdlib.ascii tableOnly = .ok a ∧
      Adi.splitPages Stdlib.ascii tableOnly = .ok payloads ∧
      build Stdlib.ascii payloads = .ok (doc, placed) ∧ Sound Stdlib.ascii a doc := by
  have hread : (Adi.readAnalysis Stdlib.ascii tableOnly).toOption.any (fun a =>
      a.paragraphs.isEmpty && decide (tablesText Stdlib.ascii a < threshold)) = true := by
    decide +kernel
  have hbuild : ((Adi.splitPages Stdlib.ascii tableOnly).toOption.any fun payloads =>
      (build Stdlib.ascii payloads).toOption.isSome) = true := by
    decide +kernel
  obtain ⟨a, ha, hsome⟩ := exists_of_any hread
  obtain ⟨payloads, hpayloads, hdoc⟩ := exists_of_any hbuild
  obtain ⟨⟨doc, placed⟩, hdoc, -⟩ := exists_of_any (p := fun _ => true) (by simpa using hdoc)
  rw [Bool.and_eq_true, List.isEmpty_iff] at hsome
  refine ⟨a, payloads, doc, placed, ha, hpayloads, hdoc, (sound_iff ha hpayloads hdoc).2 ?_⟩
  refine ⟨fun page _ raw hraw => ?_, .inr (of_decide_eq_true hsome.2)⟩
  unfold Adi.Analysis.paragraphsOn at hraw
  rw [hsome.1] at hraw
  cases hraw

/-- A page of numbered clauses is reported empty, and a document with such pages is rejected. -/
theorem sound_fails :
    ∃ a payloads doc placed, Adi.readAnalysis Stdlib.ascii numberedClauses = .ok a ∧
      Adi.splitPages Stdlib.ascii numberedClauses = .ok payloads ∧
      build Stdlib.ascii payloads = .ok (doc, placed) ∧ ¬ Sound Stdlib.ascii a doc ∧
      (∃ p ∈ a.pages.zipIdx, LayoutParser.pageNumber p.1 p.2 = .ok 1 ∧
        1 ∈ doc.quality.emptyPages ∧ 1 ∈ (qualityFrom doc).emptyPages ∧
        ¬ Blank Stdlib.ascii a p.1) ∧
      ∃ e, accept doc = .error e ∧ threshold ≤ bodyText doc := by
  have hread : (Adi.readAnalysis Stdlib.ascii numberedClauses).toOption.any (fun a =>
      a.pages.zipIdx.any fun p => (LayoutParser.pageNumber p.1 p.2).toOption == some 1 &&
        (a.paragraphsOn p.1).any (contentOf Stdlib.ascii · != "")) = true := by
    decide +kernel
  have hbuild : ((Adi.splitPages Stdlib.ascii numberedClauses).toOption.any fun payloads =>
      (build Stdlib.ascii payloads).toOption.any fun r => decide (1 ∈ r.1.quality.emptyPages ∧
        1 ∈ (qualityFrom r.1).emptyPages ∧ (paragraphText r.1 < threshold ∧
          1 < r.1.pages.length) ∧ threshold ≤ bodyText r.1)) = true := by
    decide +kernel
  obtain ⟨a, ha, hpage⟩ := exists_of_any hread
  obtain ⟨p, hp, hpage⟩ := List.any_eq_true.1 hpage
  rw [Bool.and_eq_true, beq_iff_eq, List.any_eq_true] at hpage
  obtain ⟨hnumber, raw, hraw, htext⟩ := hpage
  obtain ⟨payloads, hpayloads, hdoc⟩ := exists_of_any hbuild
  obtain ⟨⟨doc, placed⟩, hdoc, hsome⟩ := exists_of_any hdoc
  obtain ⟨hparsed, hmeasured, hmissing, henough⟩ := of_decide_eq_true hsome
  obtain ⟨e, he⟩ := accept_error.2 hmissing
  have hone : LayoutParser.pageNumber p.1 p.2 = .ok 1 := by
    cases hn : LayoutParser.pageNumber p.1 p.2 with
    | error e =>
      rw [hn] at hnumber
      cases hnumber
    | ok n =>
      rw [hn] at hnumber
      rw [Option.some.inj hnumber]
  refine ⟨a, payloads, doc, placed, ha, hpayloads, hdoc, fun hsound => ?_,
    ⟨p, hp, hone, hparsed, hmeasured, fun hblank => ?_⟩, e, he, henough⟩
  · exact Nat.not_lt_of_le henough (hsound.rejection e he)
  · rw [hblank raw hraw] at htext
    exact absurd htext (by decide)

end Quality

end Clear
