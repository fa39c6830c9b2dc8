import Clear.Ai.Parsers.LayoutParser
import Clear.Core.Proof.Text
import Clear.Lib.Except

/-!
# What one round of the layout parser emits

`Accumulator.Inv` ties the element lists to the placements: numbers of the reading order grow, ids
that are made with a count are new. `Emits` says what an operation on a page adds: ids of sections
and of tables, the section ids that its elements carry, and the positions of the numbered elements.
The plan of a page answers, for every paragraph, the last heading before it (`planSections_get`).
-/

namespace Clear

namespace LayoutParser

open Cdm Layout

/-! ## Ids -/

def Kinded (kind : String) : Prop :=
  (kind.toList.head?.any fun c => !c.isDigit && c != '-') = true

instance (kind : String) : Decidable (Kinded kind) := inferInstanceAs (Decidable (_ = true))

theorem elementId_inj {kind : String} (hkind : Kinded kind) {n n' : Int} {k k' : Nat}
    (h : elementId n kind k = elementId n' kind k') : n = n' ∧ k = k' := by
  obtain ⟨c, hhead, hc⟩ := (Option.any_eq_true _ _).1 hkind
  obtain ⟨rest, hkind⟩ := List.head?_eq_some_iff.1 hhead
  rw [Bool.and_eq_true, Bool.not_eq_true', bne_iff_ne] at hc
  obtain ⟨hdigit, hminus⟩ := hc
  have hchars := congrArg String.toList h
  unfold elementId at hchars
  simp only [String.toList_append, hkind, List.append_assoc, List.cons_append] at hchars
  rw [List.append_cancel_left_eq, ← List.append_assoc, ← List.append_assoc] at hchars
  have hfree : ∀ m : Int, c ∉ (toString m).toList ++ "-".toList := by
    intro m hmem
    rcases List.mem_append.1 hmem with hmem | hmem
    · exact Text.notMem_toString_int hdigit hminus m hmem
    · exact hminus (by simpa using hmem)
  obtain ⟨hnumber, hcount⟩ := Text.split_inj (hfree n) (hfree n') hchars
  rw [List.append_cancel_right_eq] at hnumber
  rw [List.append_cancel_left_eq] at hcount
  exact ⟨Text.toString_int_inj hnumber, Text.repr_inj hcount⟩

def Counted (kind : String) (ids : List String) : Prop :=
  ids.Nodup ∧ ∀ id ∈ ids, ∃ n k, k < ids.length ∧ id = elementId n kind k

theorem Counted.nil (kind : String) : Counted kind [] := ⟨List.nodup_nil, by simp⟩

theorem Counted.concat {kind : String} (hkind : Kinded kind) {ids : List String}
    (h : Counted kind ids) {id : String} (hid : ∃ n, id = elementId n kind ids.length) :
    Counted kind (ids ++ [id]) := by
  obtain ⟨n, hid⟩ := hid
  have hnew : id ∉ ids := by
    intro hmem
    obtain ⟨n', k, hk, heq⟩ := h.2 id hmem
    have := (elementId_inj hkind (hid.symm.trans heq)).2
    omega
  refine ⟨h.1.append (List.nodup_singleton _) (by simpa using hnew), fun id' hmem => ?_⟩
  rw [List.length_append, List.length_singleton]
  rcases List.mem_append.1 hmem with hmem | hmem
  · obtain ⟨n', k, hk, heq⟩ := h.2 id' hmem
    exact ⟨n', k, by omega, heq⟩
  · exact ⟨n, ids.length, by omega, (List.mem_singleton.1 hmem).trans hid⟩

end LayoutParser

namespace Cdm.Element

def section? : Element → Option Section
  | ofSection s => some s
  | _ => none

def paragraph? : Element → Option Cdm.Paragraph
  | ofParagraph p => some p
  | _ => none

def table? : Element → Option Table
  | ofTable t => some t
  | _ => none

def list? : Element → Option DocumentList
  | ofList l => some l
  | _ => none

def signature? : Element → Option Signature
  | ofSignature s => some s
  | _ => none

end Cdm.Element

namespace LayoutParser

open Cdm Layout

/-! ## The accumulator -/

structure Placed (sections : List Section) (paragraphs : List Cdm.Paragraph) (tables : List Table)
    (lists : List DocumentList) (signatures : List Signature) (placed : List Placement) :
    Prop where
  sections : sections = placed.filterMap (·.element.section?)
  paragraphs : paragraphs = placed.filterMap (·.element.paragraph?)
  tables : tables = placed.filterMap (·.element.table?)
  lists : lists = placed.filterMap (·.element.list?)
  signatures : signatures = placed.filterMap (·.element.signature?)

def orders (placed : List Placement) : List Nat := placed.filterMap (·.element.order?)

structure Accumulator.Inv (acc : Accumulator) : Prop where
  placed : Placed acc.sections acc.paragraphs acc.tables acc.lists acc.signatures acc.placed
  orders : (orders acc.placed).Pairwise (· < ·)
  bound : ∀ o ∈ LayoutParser.orders acc.placed, o < acc.order
  paragraphIds : Counted "para" (acc.paragraphs.map (·.paragraphId))
  listIds : Counted "list" (acc.lists.map (·.listId))
  signatureIds : Counted "sig" (acc.signatures.map (·.signatureId))

def Accumulator.Next (acc : Accumulator) : Element → Prop
  | .ofSection s => s.order = acc.order
  | .ofTable t => t.readingOrder = acc.order
  | .ofParagraph p =>
    p.readingOrder = acc.order ∧ ∃ n, p.paragraphId = elementId n "para" acc.paragraphs.length
  | .ofList l => l.readingOrder = acc.order ∧ ∃ n, l.listId = elementId n "list" acc.lists.length
  | .ofSignature s => ∃ n, s.signatureId = elementId n "sig" acc.signatures.length

theorem Accumulator.Inv.empty : ({} : Accumulator).Inv where
  placed := ⟨rfl, rfl, rfl, rfl, rfl⟩
  orders := .nil
  bound := fun _ h => by cases h
  paragraphIds := .nil _
  listIds := .nil _
  signatureIds := .nil _

theorem Accumulator.push_order (acc : Accumulator) (page first : Nat) (e : Element) :
    (acc.push page first e).order = acc.order + 1 := by
  cases e <;> rfl

theorem Accumulator.push_placed (acc : Accumulator) (page first : Nat) (e : Element) :
    (acc.push page first e).placed = acc.placed ++ [{ element := e, page, first }] := by
  cases e <;> rfl

theorem Accumulator.push_pages (acc : Accumulator) (page first : Nat) (e : Element) :
    (acc.push page first e).pages = acc.pages := by
  cases e <;> rfl

theorem Accumulator.push_emptyPages (acc : Accumulator) (page first : Nat) (e : Element) :
    (acc.push page first e).emptyPages = acc.emptyPages := by
  cases e <;> rfl

theorem Accumulator.Inv.push {acc : Accumulator} (h : acc.Inv) {e : Element} (he : acc.Next e)
    (page first : Nat) : (acc.push page first e).Inv := by
  have horder : ∀ o, e.order? = some o → o = acc.order := by
    intro o ho
    cases e with
    | ofSection s => exact (Option.some.inj ho).symm.trans he
    | ofParagraph p => exact (Option.some.inj ho).symm.trans he.1
    | ofTable t => exact (Option.some.inj ho).symm.trans he
    | ofList l => exact (Option.some.inj ho).symm.trans he.1
    | ofSignature s => cases ho
  have hnew : LayoutParser.orders (acc.push page first e).placed =
      LayoutParser.orders acc.placed ++ e.order?.toList := by
    unfold LayoutParser.orders
    rw [push_placed, List.filterMap_append]
    cases e <;> rfl
  refine ⟨?_, ?_, ?_, ?_, ?_, ?_⟩
  · obtain ⟨h₁, h₂, h₃, h₄, h₅⟩ := h.placed
    rw [push_placed]
    constructor <;> rw [List.filterMap_append]
    · rw [← h₁]
      cases e <;> simp [Accumulator.push, Element.section?]
    · rw [← h₂]
      cases e <;> simp [Accumulator.push, Element.paragraph?]
    · rw [← h₃]
      cases e <;> simp [Accumulator.push, Element.table?]
    · rw [← h₄]
      cases e <;> simp [Accumulator.push, Element.list?]
    · rw [← h₅]
      cases e <;> simp [Accumulator.push, Element.signature?]
  · rw [hnew, List.pairwise_append]
    refine ⟨h.orders, ?_, fun o ho o' ho' => ?_⟩
    · cases e.order? <;> simp
    · rw [Option.mem_toList] at ho'
      rw [horder o' ho']
      exact h.bound o ho
  · intro o ho
    rw [push_order]
    rw [hnew] at ho
    rcases List.mem_append.1 ho with ho | ho
    · exact Nat.lt_succ_of_lt (h.bound o ho)
    · rw [Option.mem_toList] at ho
      rw [horder o ho]
      exact Nat.lt_succ_self _
  · cases e with
    | ofParagraph p =>
      obtain ⟨-, n, hid⟩ := he
      show Counted "para" ((acc.paragraphs ++ [p]).map (·.paragraphId))
      rw [List.map_append]
      refine h.paragraphIds.concat (by decide) ⟨n, ?_⟩
      rw [List.length_map]
      exact hid
    | _ => exact h.paragraphIds
  · cases e with
    | ofList l =>
      obtain ⟨-, n, hid⟩ := he
      show Counted "list" ((acc.lists ++ [l]).map (·.listId))
      rw [List.map_append]
      refine h.listIds.concat (by decide) ⟨n, ?_⟩
      rw [List.length_map]
      exact hid
    | _ => exact h.listIds
  · cases e with
    | ofSignature s =>
      obtain ⟨n, hid⟩ := he
      show Counted "sig" ((acc.signatures ++ [s]).map (·.signatureId))
      rw [List.map_append]
      refine h.signatureIds.concat (by decide) ⟨n, ?_⟩
      rw [List.length_map]
      exact hid
    | _ => exact h.signatureIds

/-! ## What an operation emits -/

def sectionRef : Element → Option String
  | .ofSection _ | .ofSignature _ => none
  | .ofParagraph p => p.sectionId
  | .ofTable t => t.sectionId
  | .ofList l => l.sectionId

def Accumulator.refs (acc : Accumulator) : List String :=
  acc.paragraphs.filterMap (·.sectionId) ++ acc.lists.filterMap (·.sectionId) ++
    acc.tables.filterMap (·.sectionId) ++
    acc.pages.flatMap fun page => page.contentBlocks.filterMap (·.sectionId)

def PageState.refs (s : PageState) : List String := s.acc.refs ++ s.blocks.filterMap (·.sectionId)

/-- Where the elements that carry a number begin, in the order of their numbers: the payload and the
paragraph. -/
def positions (placed : List Placement) : List (Nat × Nat) :=
  (placed.filter (·.element.order?.isSome)).map fun p => (p.page, p.first)

/-- From `s` to `s'` sections and tables with these ids are added, elements and blocks that carry
these section ids, and elements that begin at these paragraphs of the page. -/
structure Emits (page : Nat) (s s' : PageState) (sections tables refs : List String)
    (firsts : List Nat) : Prop where
  inv : s.acc.Inv → s'.acc.Inv
  pages : s'.acc.pages = s.acc.pages
  emptyPages : s'.acc.emptyPages = s.acc.emptyPages
  sections : s'.acc.sections.map (·.sectionId) = s.acc.sections.map (·.sectionId) ++ sections
  tables : s'.acc.tables.map (·.tableId) = s.acc.tables.map (·.tableId) ++ tables
  refs : ∀ r, r ∈ s'.refs ↔ r ∈ s.refs ∨ r ∈ refs
  positions : positions s'.acc.placed = positions s.acc.placed ++ firsts.map (page, ·)

namespace Emits

variable {page : Nat} {s s' s'' : PageState}
  {sections sections' tables tables' refs refs' : List String} {firsts firsts' : List Nat}

theorem refl (page : Nat) (s : PageState) : Emits page s s [] [] [] [] where
  inv := id
  pages := rfl
  emptyPages := rfl
  sections := (List.append_nil _).symm
  tables := (List.append_nil _).symm
  refs := by simp
  positions := (List.append_nil _).symm

theorem trans (h : Emits page s s' sections tables refs firsts)
    (h' : Emits page s' s'' sections' tables' refs' firsts') :
    Emits page s s'' (sections ++ sections') (tables ++ tables') (refs ++ refs')
      (firsts ++ firsts') where
  inv := h'.inv ∘ h.inv
  pages := h'.pages.trans h.pages
  emptyPages := h'.emptyPages.trans h.emptyPages
  sections := by rw [h'.sections, h.sections, List.append_assoc]
  tables := by rw [h'.tables, h.tables, List.append_assoc]
  refs := fun r => by rw [h'.refs, h.refs, List.mem_append, or_assoc]
  positions := by rw [h'.positions, h.positions, List.map_append, List.append_assoc]

theorem weaken (h : Emits page s s' sections tables refs firsts)
    (hrefs : ∀ r, r ∈ refs ↔ r ∈ refs') : Emits page s s' sections tables refs' firsts :=
  { h with refs := fun r => by rw [h.refs, hrefs] }

end Emits

theorem Accumulator.mem_refs_push {acc : Accumulator} {page first : Nat} {e : Element}
    {r : String} : r ∈ (acc.push page first e).refs ↔ r ∈ acc.refs ∨ sectionRef e = some r := by
  unfold Accumulator.refs
  rw [push_pages]
  generalize (acc.pages.flatMap fun page => page.contentBlocks.filterMap (·.sectionId)) = blocks
  cases e <;>
    simp only [Accumulator.push, sectionRef, List.mem_append, List.mem_filterMap,
      List.mem_singleton, or_and_right, exists_or, exists_eq_left, reduceCtorEq, false_or,
      or_comm, or_left_comm, or_assoc]

theorem push_emits {page first : Nat} {s s' : PageState} (e : Element) {blocks : List Block}
    (hacc : s'.acc = s.acc.push page first e) (hblocks : s'.blocks = s.blocks ++ blocks)
    (he : s.acc.Next e) :
    Emits page s s' (e.section?.map (·.sectionId)).toList (e.table?.map (·.tableId)).toList
      ((sectionRef e).toList ++ blocks.filterMap (·.sectionId))
      (if e.order?.isSome then [first] else []) where
  inv := fun h => hacc ▸ h.push he page first
  pages := hacc ▸ s.acc.push_pages page first e
  emptyPages := hacc ▸ s.acc.push_emptyPages page first e
  sections := by
    rw [hacc]
    cases e <;> simp [Accumulator.push, Element.section?]
  tables := by
    rw [hacc]
    cases e <;> simp [Accumulator.push, Element.table?]
  refs := fun r => by
    unfold PageState.refs
    rw [hacc, hblocks, List.mem_append, List.mem_append, List.mem_append,
      Accumulator.mem_refs_push, List.filterMap_append, List.mem_append, Option.mem_toList]
    exact or_or_or_comm
  positions := by
    rw [hacc, Accumulator.push_placed, positions, List.filter_append, List.map_append]
    cases e <;> rfl

/-! ### The operations of a round -/

section

variable {std : Stdlib} {page : PageInput} {sectionId : Option String} {s s' : PageState}

theorem flushList_ok (h : flushList std page sectionId s = .ok s') :
    s'.pending = [] ∧ s'.tableAt = s.tableAt ∧
      Emits page.index s s' [] [] (if s.pending = [] then [] else sectionId.toList)
        (s.pending.head?.map (·.first)).toList := by
  unfold flushList at h
  cases hpending : s.pending with
  | nil =>
    rw [hpending] at h
    cases h
    exact ⟨hpending, rfl, .refl _ _⟩
  | cons p rest =>
    rw [hpending] at h
    cases rest with
    | nil =>
      cases h
      refine ⟨rfl, rfl, ?_⟩
      refine Emits.weaken (push_emits (.ofParagraph _) rfl (List.append_nil _).symm
        ⟨rfl, page.number, rfl⟩) fun r => ?_
      simp [sectionRef]
    | cons q rest =>
      obtain ⟨box, -, h⟩ := Except.bind_eq_ok.1 h
      obtain rfl := Except.pure_eq_ok.1 h
      refine ⟨rfl, rfl, ?_⟩
      refine Emits.weaken (push_emits (.ofList _) rfl (List.append_nil _).symm
        ⟨rfl, page.number, rfl⟩) fun r => ?_
      simp [sectionRef]

theorem addFurniture_emits (page : PageInput) (s : PageState) (text : String) (coordinates : Option Coordinates) :
    (s.addFurniture page text coordinates).pending = s.pending ∧
      (s.addFurniture page text coordinates).tableAt = s.tableAt ∧
      Emits page.index s (s.addFurniture page text coordinates) [] [] [] [] := by
  unfold PageState.addFurniture
  dsimp only
  split <;> refine ⟨rfl, rfl, fun h => ?_, rfl, rfl, (List.append_nil _).symm,
    (List.append_nil _).symm, fun r => ?_, (List.append_nil _).symm⟩
  · exact ⟨h.placed, h.orders, h.bound, h.paragraphIds, h.listIds, h.signatureIds⟩
  · exact (or_iff_left (List.not_mem_nil)).symm
  · exact ⟨h.placed, h.orders, h.bound, h.paragraphIds, h.listIds, h.signatureIds⟩
  · exact (or_iff_left (List.not_mem_nil)).symm

theorem addHeading_emits (page : PageInput) (s : PageState) (index : Nat) (id : String) (isTitle : Bool) (text : String)
    (coordinates : Option Coordinates) :
    (s.addHeading page index id isTitle text coordinates).pending = s.pending ∧
      (s.addHeading page index id isTitle text coordinates).tableAt = s.tableAt ∧
      Emits page.index s (s.addHeading page index id isTitle text coordinates) [id] [] [id]
        [index] := by
  let opened : Section :=
    { sectionId := id
      title := (splitHeading text).2
      level := if isTitle then 1 else headingLevel (splitHeading text).1
      startPage := page.number
      endPage := page.number
      number := (splitHeading text).1
      order := s.acc.order
      coordinates }
  have horder : s.acc.Next (.ofSection opened) := rfl
  exact ⟨rfl, rfl, Emits.weaken (push_emits (.ofSection opened) rfl rfl horder) fun _ => Iff.rfl⟩

theorem addBody_emits (std : Stdlib) (page : PageInput) (sectionId : Option String) (s : PageState)
    (index : Nat) (text : String) (coordinates : Option Coordinates) :
    (s.addBody std page index sectionId text coordinates).pending = s.pending ∧
      (s.addBody std page index sectionId text coordinates).tableAt = s.tableAt ∧
      Emits page.index s (s.addBody std page index sectionId text coordinates) [] []
        sectionId.toList (if looksLikeSignature std text then [] else [index]) := by
  unfold PageState.addBody
  split
  · refine ⟨rfl, rfl, Emits.weaken (push_emits (.ofSignature _) rfl rfl ⟨page.number, rfl⟩)
      fun r => ?_⟩
    cases sectionId <;> simp [sectionRef]
  · refine ⟨rfl, rfl, Emits.weaken (push_emits (.ofParagraph _) rfl rfl ⟨rfl, page.number, rfl⟩)
      fun r => ?_⟩
    cases sectionId <;> simp [sectionRef]

theorem table_ok {raw : RawTable} {tableIndex order : Nat} {t : Option Table}
    (h : table std page raw tableIndex order sectionId = .ok t) :
    (raw.cells = [] ∧ t = none) ∨ raw.cells ≠ [] ∧ ∃ t', t = some t' ∧
      t'.tableId = elementId page.number "table" tableIndex ∧ t'.sectionId = sectionId ∧
        t'.readingOrder = order := by
  unfold table at h
  obtain ⟨cells, hcells, h⟩ := Except.bind_eq_ok.1 h
  cases cells with
  | nil =>
    refine .inl ⟨?_, (Except.pure_eq_ok.1 h).symm⟩
    cases hraw : raw.cells with
    | nil => rfl
    | cons cell rest =>
      rw [hraw, List.mapM_cons] at hcells
      obtain ⟨_, -, hcells⟩ := Except.bind_eq_ok.1 hcells
      obtain ⟨_, -, hcells⟩ := Except.bind_eq_ok.1 hcells
      cases Except.pure_eq_ok.1 hcells
  | cons cell rest =>
    obtain ⟨rows, -, h⟩ := Except.bind_eq_ok.1 h
    obtain ⟨columns, -, h⟩ := Except.bind_eq_ok.1 h
    obtain ⟨coordinates, -, h⟩ := Except.bind_eq_ok.1 h
    refine .inr ⟨fun hraw => ?_, _, (Except.pure_eq_ok.1 h).symm, rfl, rfl, rfl⟩
    rw [hraw] at hcells
    cases Except.pure_eq_ok.1 hcells

theorem emitTable_ok {anchor : Nat} {raw : RawTable × Nat}
    (h : emitTable std page anchor sectionId s raw = .ok s') :
    s'.pending = s.pending ∧ s'.tableAt = s.tableAt ∧
      if raw.1.cells = [] then s' = s
      else Emits page.index s s' [] [elementId page.number "table" raw.2] sectionId.toList
        [anchor] := by
  unfold emitTable at h
  obtain ⟨t, ht, h⟩ := Except.bind_eq_ok.1 h
  rcases table_ok ht with ⟨hcells, rfl⟩ | ⟨hcells, t, rfl, hid, hsection, horder⟩
  · obtain rfl := Except.pure_eq_ok.1 h
    rw [if_pos hcells]
    exact ⟨rfl, rfl, rfl⟩
  · obtain rfl := Except.pure_eq_ok.1 h
    rw [if_neg hcells, ← hid]
    refine ⟨rfl, rfl, Emits.weaken (push_emits (.ofTable t) rfl rfl horder) fun r => ?_⟩
    cases sectionId <;> simp [sectionRef, hsection]

def withCells (tables : List (RawTable × Nat)) : List (RawTable × Nat) :=
  tables.filter fun t => !t.1.cells.isEmpty

theorem foldlM_emitTable_ok {anchor : Nat} {tables : List (RawTable × Nat)}
    (h : tables.foldlM (emitTable std page anchor sectionId) s = .ok s') :
    s'.pending = s.pending ∧ s'.tableAt = s.tableAt ∧
      Emits page.index s s' []
        ((withCells tables).map fun t => elementId page.number "table" t.2)
        (if withCells tables = [] then [] else sectionId.toList)
        ((withCells tables).map fun _ => anchor) := by
  induction tables generalizing s with
  | nil =>
    obtain rfl := Except.pure_eq_ok.1 h
    exact ⟨rfl, rfl, .refl _ _⟩
  | cons t tables ih =>
    rw [List.foldlM_cons] at h
    obtain ⟨s₁, hs₁, h⟩ := Except.bind_eq_ok.1 h
    obtain ⟨hpending, htableAt, hemits⟩ := emitTable_ok hs₁
    obtain ⟨hpending', htableAt', hemits'⟩ := ih h
    refine ⟨hpending'.trans hpending, htableAt'.trans htableAt, ?_⟩
    unfold withCells at *
    split at hemits
    next hcells =>
      subst hemits
      rw [List.filter_cons_of_neg (by simp [hcells])]
      exact hemits'
    next hcells =>
      rw [List.filter_cons_of_pos (by simpa using hcells), if_neg (List.cons_ne_nil _ _)]
      refine (hemits.trans hemits').weaken fun r => ?_
      rw [List.mem_append]
      split <;> simp

theorem emitTables_ok {anchor : Nat} (h : emitTables std page anchor sectionId s = .ok s') :
    s'.pending = s.pending ∧ s'.tableAt = s.tableAt.filter (·.1 ≠ anchor) ∧
      Emits page.index s s' []
        ((withCells ((s.tableAt.lookup anchor).getD [])).map fun t =>
          elementId page.number "table" t.2)
        (if withCells ((s.tableAt.lookup anchor).getD []) = [] then [] else sectionId.toList)
        ((withCells ((s.tableAt.lookup anchor).getD [])).map fun _ => anchor) := by
  obtain ⟨hpending, htableAt, hemits⟩ := foldlM_emitTable_ok h
  exact ⟨hpending, htableAt, ⟨hemits.inv, hemits.pages, hemits.emptyPages, hemits.sections,
    hemits.tables, hemits.refs, hemits.positions⟩⟩

end

/-! ## The plan -/

section

variable (std : Stdlib) (raws : List ValueDict)

/-- The paragraph is a heading of the plan, which does not ask whether a table covers it. -/
def headingAt (i : Nat) : Bool := raws[i]?.any (isHeading std)

def lastHeading : Nat → Option Nat
  | 0 => none
  | i + 1 => if headingAt std raws i then some i else lastHeading i

def headingId (pageNumber : Int) (offset i : Nat) : String :=
  elementId pageNumber "sec" (offset + (raws.take i).countP (isHeading std))

theorem headingAt_append {i : Nat} (hi : i < raws.length) (rest : List ValueDict) :
    headingAt std (raws ++ rest) i = headingAt std raws i := by
  unfold headingAt
  rw [List.getElem?_append_left hi]

theorem lastHeading_append {i : Nat} (hi : i ≤ raws.length) (rest : List ValueDict) :
    lastHeading std (raws ++ rest) i = lastHeading std raws i := by
  induction i with
  | zero => rfl
  | succ i ih =>
    unfold lastHeading
    rw [headingAt_append std raws (by omega), ih (by omega)]

theorem lastHeading_spec {i h : Nat} (hh : lastHeading std raws i = some h) :
    h < i ∧ headingAt std raws h = true := by
  induction i with
  | zero => cases hh
  | succ i ih =>
    unfold lastHeading at hh
    split at hh
    next hi =>
      cases hh
      exact ⟨Nat.lt_succ_self _, hi⟩
    next =>
      obtain ⟨hlt, hheading⟩ := ih hh
      exact ⟨Nat.lt_succ_of_lt hlt, hheading⟩

theorem headingAt_lt {i : Nat} (h : headingAt std raws i = true) : i < raws.length := by
  obtain ⟨raw, hraw, -⟩ := (Option.any_eq_true _ _).1 h
  exact (List.getElem?_eq_some_iff.1 hraw).1

theorem headingId_append {pageNumber : Int} {offset i : Nat} (hi : i ≤ raws.length)
    (rest : List ValueDict) :
    headingId std (raws ++ rest) pageNumber offset i = headingId std raws pageNumber offset i := by
  unfold headingId
  rw [List.take_append_of_le_length hi]

/-- Headings have different ids. -/
theorem headingId_inj {pageNumber pageNumber' : Int} {offset i j : Nat}
    (hi : headingAt std raws i = true) (hj : headingAt std raws j = true)
    (h : headingId std raws pageNumber offset i = headingId std raws pageNumber' offset j) :
    i = j := by
  have hcount := (elementId_inj (by decide) h).2
  have hlt : ∀ i j, headingAt std raws i = true → i < j →
      (raws.take i).countP (isHeading std) < (raws.take j).countP (isHeading std) := by
    intro i j hi hij
    obtain ⟨raw, hraw, hp⟩ := (Option.any_eq_true _ _).1 hi
    have htake : raws.take (i + 1) = raws.take i ++ [raw] := by
      rw [List.take_add_one, hraw]
      rfl
    have hsub : (raws.take (i + 1)).Sublist (raws.take j) := List.take_sublist_take_left hij
    have hle := hsub.countP_le (p := isHeading std)
    rw [htake, List.countP_append, List.countP_singleton, if_pos hp] at hle
    omega
  rcases Nat.lt_trichotomy i j with hij | rfl | hij
  · have := hlt i j hi hij
    omega
  · rfl
  · have := hlt j i hj hij
    omega

structure Planned (pageNumber : Int) (offset : Nat) (plan : Plan) : Prop where
  length : plan.sectionAt.length = raws.length
  sectionAt : ∀ i < raws.length, plan.sectionAt[i]? =
    some ((lastHeading std raws (i + 1)).map (headingId std raws pageNumber offset))
  current : plan.current =
    (lastHeading std raws raws.length).map (headingId std raws pageNumber offset)
  headings : ∀ i, headingAt std raws i = true →
    plan.headingIds.lookup i = some (headingId std raws pageNumber offset i)
  keys : ∀ e ∈ plan.headingIds, e.1 < raws.length
  counter : plan.counter = offset + raws.countP (isHeading std)

end

section

variable {std : Stdlib} {raws : List ValueDict} {pageNumber : Int} {offset : Nat} {plan : Plan}

theorem Planned.step (h : Planned std raws pageNumber offset plan) (raw : ValueDict) :
    Planned std (raws ++ [raw]) pageNumber offset
      (planStep std pageNumber plan (raw, raws.length)) := by
  have hlast : headingAt std (raws ++ [raw]) raws.length = isHeading std raw := by
    unfold headingAt
    rw [List.getElem?_append_right (Nat.le_refl _), Nat.sub_self]
    rfl
  have hnewId : headingId std (raws ++ [raw]) pageNumber offset raws.length =
      elementId pageNumber "sec" plan.counter := by
    rw [headingId_append std raws (Nat.le_refl _), headingId, List.take_length, h.counter]
  -- what the plan says of the paragraphs before the last one
  have hold : ∀ i, i ≤ raws.length →
      (lastHeading std (raws ++ [raw]) i).map (headingId std (raws ++ [raw]) pageNumber offset) =
        (lastHeading std raws i).map (headingId std raws pageNumber offset) := by
    intro i hi
    rw [lastHeading_append std raws hi]
    cases hh : lastHeading std raws i with
    | none => rfl
    | some k =>
      have hk := (lastHeading_spec std raws hh).1
      rw [Option.map_some, Option.map_some, headingId_append std raws (by omega)]
  have hnew : (lastHeading std (raws ++ [raw]) (raws.length + 1)).map
      (headingId std (raws ++ [raw]) pageNumber offset) =
        if isHeading std raw then some (elementId pageNumber "sec" plan.counter)
        else plan.current := by
    unfold lastHeading
    rw [hlast]
    split
    · rw [Option.map_some, hnewId]
    · rw [hold _ (Nat.le_refl _), h.current]
  have hlength : (raws ++ [raw]).length = raws.length + 1 := by simp
  have hsectionAt : ∀ x, (lastHeading std (raws ++ [raw]) (raws.length + 1)).map
      (headingId std (raws ++ [raw]) pageNumber offset) = x →
      ∀ i < (raws ++ [raw]).length, (plan.sectionAt ++ [x])[i]? =
        some ((lastHeading std (raws ++ [raw]) (i + 1)).map
          (headingId std (raws ++ [raw]) pageNumber offset)) := by
    intro x hx i hi
    rcases Nat.lt_or_ge i raws.length with hlt | hge
    · rw [List.getElem?_append_left (h.length ▸ hlt), h.sectionAt i hlt, hold _ (by omega)]
    · obtain rfl : i = raws.length := by omega
      rw [List.getElem?_append_right (h.length ▸ hge), h.length, Nat.sub_self, hx]
      rfl
  unfold planStep
  dsimp only
  split
  next hraw =>
    rw [if_pos hraw] at hnew
    refine ⟨by simp [h.length], hsectionAt _ hnew, ?_, ?_, ?_, ?_⟩
    · rw [hlength, hnew]
    · intro i hi
      have hlt := headingAt_lt std _ hi
      rw [hlength] at hlt
      rw [List.lookup_append]
      rcases Nat.lt_or_ge i raws.length with hlt | hge
      · rw [headingAt_append std raws hlt] at hi
        rw [h.headings i hi, headingId_append std raws (by omega)]
        rfl
      · obtain rfl : i = raws.length := by omega
        have hnone : plan.headingIds.lookup raws.length = none := by
          rw [List.lookup_eq_none_iff]
          intro e he
          have := h.keys e he
          rw [bne_iff_ne]
          omega
        rw [hnone, hnewId]
        simp
    · intro e he
      rw [hlength]
      rcases List.mem_append.1 he with he | he
      · exact Nat.lt_succ_of_lt (h.keys e he)
      · rw [List.mem_singleton.1 he]
        exact Nat.lt_succ_self _
    · rw [List.countP_append, List.countP_singleton, if_pos hraw, h.counter, Nat.add_assoc]
  next hraw =>
    rw [if_neg hraw] at hnew
    refine ⟨by simp [h.length], hsectionAt _ hnew, ?_, ?_, ?_, ?_⟩
    · rw [hlength, hnew]
    · intro i hi
      have hlt := headingAt_lt std _ hi
      rw [hlength] at hlt
      rcases Nat.lt_or_ge i raws.length with hlt | hge
      · rw [headingAt_append std raws hlt] at hi
        rw [h.headings i hi, headingId_append std raws (by omega)]
      · obtain rfl : i = raws.length := by omega
        exact absurd (hlast ▸ hi) hraw
    · intro e he
      rw [hlength]
      exact Nat.lt_succ_of_lt (h.keys e he)
    · rw [List.countP_append, List.countP_singleton, if_neg hraw, h.counter, Nat.add_zero]

theorem foldl_planStep (std : Stdlib) (raws : List ValueDict) (pageNumber : Int) (offset : Nat) :
    Planned std raws pageNumber offset
      (raws.zipIdx.foldl (planStep std pageNumber) { counter := offset }) := by
  induction raws using List.reverseRecOn with
  | nil =>
    exact ⟨rfl, fun i hi => absurd hi (Nat.not_lt_zero i), rfl,
      fun i hi => absurd (headingAt_lt std [] hi) (Nat.not_lt_zero i),
      fun e he => (by cases he), rfl⟩
  | append_singleton raws raw ih =>
    rw [List.zipIdx_append, List.foldl_append, Nat.zero_add]
    exact ih.step raw

theorem planSections_ok (h : planSections std raws pageNumber offset = .ok plan) :
    (∀ i ≤ raws.length, plan.before i =
      (lastHeading std raws i).map (headingId std raws pageNumber offset)) ∧
      (∀ i < raws.length, plan.get i =
        (lastHeading std raws (i + 1)).map (headingId std raws pageNumber offset)) ∧
      ∀ i, headingAt std raws i = true →
        plan.headingIds.lookup i = some (headingId std raws pageNumber offset i) := by
  unfold planSections at h
  split at h
  · obtain rfl := Except.ok.inj h
    have hplanned := foldl_planStep std raws pageNumber offset
    have hget : ∀ i < raws.length,
        (raws.zipIdx.foldl (planStep std pageNumber) { counter := offset }).get i =
          (lastHeading std raws (i + 1)).map (headingId std raws pageNumber offset) := by
      intro i hi
      rw [Plan.get, hplanned.sectionAt i hi]
      rfl
    refine ⟨fun i hi => ?_, hget, hplanned.headings⟩
    cases i with
    | zero => rfl
    | succ i => exact hget i hi
  · cases h

end

end LayoutParser

end Clear
