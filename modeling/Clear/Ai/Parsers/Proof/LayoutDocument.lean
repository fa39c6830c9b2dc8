import Clear.Ai.Parsers.Proof.LayoutPages

/-!
# When a layout parse is well formed

`Built` is what the loop over the payloads keeps: `spans` are the pages so far, each with the number
of sections before it. A parse is well formed exactly if on every page the headings that a table
covers open no section that is needed, and no table begins inside a run of list items
(`build_wellFormed_iff`).
-/

namespace Clear

namespace Cdm.NormalizedDocument

def sectionRefs (doc : NormalizedDocument) : List String :=
  doc.paragraphs.filterMap (·.sectionId) ++ doc.lists.filterMap (·.sectionId) ++
    doc.tables.filterMap (·.sectionId) ++
    doc.pages.flatMap fun page => page.contentBlocks.filterMap (·.sectionId)

def readingOrders (doc : NormalizedDocument) : List Nat :=
  doc.sections.map (·.order) ++ doc.paragraphs.map (·.readingOrder) ++
    doc.tables.map (·.readingOrder) ++ doc.lists.map (·.readingOrder)

end Cdm.NormalizedDocument

namespace LayoutParser

open Cdm Layout

structure WellFormed (doc : NormalizedDocument) (placed : List Placement) : Prop where
  elements : Placed doc.sections doc.paragraphs doc.tables doc.lists doc.signatures placed
  sectionIds : (doc.sections.map (·.sectionId)).Nodup
  paragraphIds : (doc.paragraphs.map (·.paragraphId)).Nodup
  tableIds : (doc.tables.map (·.tableId)).Nodup
  listIds : (doc.lists.map (·.listId)).Nodup
  signatureIds : (doc.signatures.map (·.signatureId)).Nodup
  blockIds : (doc.pages.flatMap fun page => page.contentBlocks.map (·.blockId)).Nodup
  refs : ∀ r ∈ doc.sectionRefs, r ∈ doc.sections.map (·.sectionId)
  orders : doc.readingOrders.Nodup
  follow : ∀ a ∈ placed, ∀ b ∈ placed, ∀ m n, a.element.order? = some m →
    b.element.order? = some n → Before (a.page, a.first) (b.page, b.first) → m < n

def readPages (std : Stdlib) (payloads : List ValueDict) : Except LayoutError (List PageInput) :=
  payloads.zipIdx.mapM fun p => readPage std p.1 p.2

/-! ## The loop over the payloads -/

/-- The state after the pages of `spans`. -/
structure Built (std : Stdlib) (spans : List (PageInput × Nat)) (acc : Accumulator) : Prop where
  inv : acc.Inv
  sections : acc.sections.map (·.sectionId) = spans.flatMap fun s => pageSections std s.1 s.2
  tables : (acc.tables.map (·.tableId)).Nodup ∧ ∀ id ∈ acc.tables.map (·.tableId),
    ∃ s ∈ spans, ∃ k, id = elementId s.1.number "table" k
  blocks : (acc.pages.flatMap fun page => page.contentBlocks.map (·.blockId)).Nodup ∧
    ∀ id ∈ acc.pages.flatMap fun page => page.contentBlocks.map (·.blockId),
      ∃ s ∈ spans, ∃ k, id = elementId s.1.number "b" k
  refs : ∀ r, r ∈ acc.refs ↔ ∃ s ∈ spans, PageRef std s.1 s.2 r
  bound : ∀ q ∈ positions acc.placed, q.1 < spans.length
  ordered : Ordered (positions acc.placed) ↔ ∀ s ∈ spans, RunsUnbroken std s.1

section

variable {std : Stdlib} {spans : List (PageInput × Nat)} {acc acc' : Accumulator}
  {page : PageInput} {payload : ValueDict}

theorem Built.empty (std : Stdlib) : Built std [] {} where
  inv := .empty
  sections := rfl
  tables := ⟨List.nodup_nil, fun _ h => (List.not_mem_nil h).elim⟩
  blocks := ⟨List.nodup_nil, fun _ h => (List.not_mem_nil h).elim⟩
  refs := fun r => by simp [Accumulator.refs]
  bound := fun _ h => (List.not_mem_nil h).elim
  ordered := iff_of_true .nil fun _ h => (List.not_mem_nil h).elim

theorem nodup_append_ids {kind : String} (hkind : Kinded kind) {old new : List String}
    (hnew : page.number ∉ spans.map (·.1.number))
    (hold : old.Nodup ∧ ∀ id ∈ old, ∃ s ∈ spans, ∃ k, id = elementId s.1.number kind k)
    (hnodup : new.Nodup) (hids : ∀ id ∈ new, ∃ k, id = elementId page.number kind k)
    (offset : Nat) :
    (old ++ new).Nodup ∧ ∀ id ∈ old ++ new,
      ∃ s ∈ spans ++ [(page, offset)], ∃ k, id = elementId s.1.number kind k := by
  refine ⟨hold.1.append hnodup fun id hmem hmem' => ?_, fun id hmem => ?_⟩
  · obtain ⟨s, hs, k, rfl⟩ := hold.2 id hmem
    obtain ⟨k', heq⟩ := hids _ hmem'
    exact hnew (List.mem_map.2 ⟨s, hs, (elementId_inj hkind heq).1⟩)
  · rcases List.mem_append.1 hmem with hmem | hmem
    · obtain ⟨s, hs, k, hid⟩ := hold.2 id hmem
      exact ⟨s, List.mem_append_left _ hs, k, hid⟩
    · obtain ⟨k, hid⟩ := hids id hmem
      exact ⟨_, List.mem_append_right _ (List.mem_singleton_self _), k, hid⟩

theorem blockIds_eq (page : PageInput) (blocks : List Block) :
    (blocks.zipIdx.map (numberBlock page)).map (·.blockId) =
      (List.range blocks.length).map (elementId page.number "b") := by
  rw [List.map_map, List.range_eq_range', ← List.zipIdx_map_snd 0 blocks, List.map_map]
  rfl

theorem blockRefs_eq (page : PageInput) (blocks : List Block) :
    (blocks.zipIdx.map (numberBlock page)).filterMap (·.sectionId) =
      blocks.filterMap (·.sectionId) := by
  rw [List.filterMap_map, ← List.zipIdx_map_fst 0 blocks, List.filterMap_map,
    List.zipIdx_map_fst]
  rfl

theorem readPage_index {index : Nat} (h : readPage std payload index = .ok page) :
    page.index = index := by
  unfold readPage at h
  obtain ⟨_, -, h⟩ := Except.bind_eq_ok.1 h
  obtain ⟨_, -, h⟩ := Except.bind_eq_ok.1 h
  obtain ⟨_, -, h⟩ := Except.bind_eq_ok.1 h
  obtain ⟨_, -, h⟩ := Except.bind_eq_ok.1 h
  obtain ⟨_, -, h⟩ := Except.bind_eq_ok.1 h
  obtain ⟨_, -, h⟩ := Except.bind_eq_ok.1 h
  obtain ⟨_, -, h⟩ := Except.bind_eq_ok.1 h
  obtain rfl := Except.pure_eq_ok.1 h
  rfl

theorem Built.addPage (hacc : Built std spans acc)
    (hread : readPage std payload spans.length = .ok page)
    (hnew : page.number ∉ spans.map (·.1.number))
    (h : addPage std acc (payload, spans.length) = .ok acc') :
    Built std (spans ++ [(page, acc.sections.length)]) acc' := by
  unfold LayoutParser.addPage at h
  obtain ⟨pageData, -, h⟩ := Except.bind_eq_ok.1 h
  obtain ⟨words, -, h⟩ := Except.bind_eq_ok.1 h
  obtain ⟨page', hpage', h⟩ := Except.bind_eq_ok.1 h
  obtain rfl := Except.ok.inj (hread.symm.trans hpage')
  obtain ⟨s, hs, h⟩ := Except.bind_eq_ok.1 h
  have hinv : Accumulator.Inv { acc with confidences := acc.confidences ++ words } :=
    ⟨hacc.inv.placed, hacc.inv.orders, hacc.inv.bound, hacc.inv.paragraphIds, hacc.inv.listIds,
      hacc.inv.signatureIds⟩
  have hindex : page.index = spans.length := readPage_index hread
  have hbuilt := buildPage_ok hinv (by rw [hindex]; exact hacc.bound) hs
  split at h
  · cases h
  obtain rfl := Except.pure_eq_ok.1 h
  have hpages : s.acc.pages = acc.pages := hbuilt.pages
  refine ⟨?_, ?_, ?_, ?_, ?_, ?_, ?_⟩
  · exact ⟨hbuilt.inv.placed, hbuilt.inv.orders, hbuilt.inv.bound, hbuilt.inv.paragraphIds,
      hbuilt.inv.listIds, hbuilt.inv.signatureIds⟩
  · rw [List.flatMap_append, ← hacc.sections]
    exact hbuilt.sections.trans (by simp)
  · obtain ⟨anchors, hnodup, htables⟩ := hbuilt.tables
    show (s.acc.tables.map (·.tableId)).Nodup ∧ ∀ id ∈ s.acc.tables.map (·.tableId), _
    rw [htables]
    refine nodup_append_ids (by decide) hnew hacc.tables (tableIds_nodup hnodup) ?_ _
    intro id hid
    obtain ⟨k, -, hid⟩ := List.mem_flatMap.1 hid
    obtain ⟨t, -, rfl⟩ := List.mem_map.1 hid
    exact ⟨t.2, rfl⟩
  · rw [List.flatMap_append, hpages, List.flatMap_singleton, blockIds_eq]
    refine nodup_append_ids (by decide) hnew hacc.blocks ?_ ?_ _
    · exact List.nodup_range.map fun i j h => (elementId_inj (by decide) h).2
    · intro id hid
      obtain ⟨k, -, rfl⟩ := List.mem_map.1 hid
      exact ⟨k, rfl⟩
  · intro r
    have hrefs := hbuilt.refs r
    have hold : r ∈ ({ acc with confidences := acc.confidences ++ words } : Accumulator).refs ↔
        r ∈ acc.refs := Iff.rfl
    rw [hold, hacc.refs] at hrefs
    simp only [List.mem_append, List.mem_singleton, or_and_right, exists_or, exists_eq_left]
    rw [← hrefs]
    unfold PageState.refs Accumulator.refs
    rw [List.flatMap_append, List.flatMap_singleton, blockRefs_eq]
    simp only [List.mem_append, or_assoc]
  · intro q hq
    have := hbuilt.bound q hq
    rw [List.length_append]
    rwa [hindex] at this
  · refine hbuilt.ordered.trans ?_
    rw [hacc.ordered]
    simp only [List.mem_append, List.mem_singleton, or_imp, forall_and, forall_eq]

theorem foldlM_addPage {payloads : List ValueDict} {pages : List PageInput}
    (hacc : Built std spans acc)
    (hread : (payloads.zipIdx spans.length).mapM (fun p => readPage std p.1 p.2) = .ok pages)
    (hnumbers : ((spans.map (·.1) ++ pages).map (·.number)).Nodup)
    (h : (payloads.zipIdx spans.length).foldlM (LayoutParser.addPage std) acc = .ok acc') :
    ∃ spans', spans'.map (·.1) = spans.map (·.1) ++ pages ∧ Built std spans' acc' := by
  induction payloads generalizing spans acc pages with
  | nil =>
    obtain rfl := Except.pure_eq_ok.1 h
    obtain rfl := Except.pure_eq_ok.1 hread
    exact ⟨spans, (List.append_nil _).symm, hacc⟩
  | cons payload payloads ih =>
    rw [List.zipIdx_cons, List.foldlM_cons] at h
    rw [List.zipIdx_cons, List.mapM_cons] at hread
    obtain ⟨acc₁, hacc₁, h⟩ := Except.bind_eq_ok.1 h
    obtain ⟨page, hpage, hread⟩ := Except.bind_eq_ok.1 hread
    obtain ⟨rest, hrest, hread⟩ := Except.bind_eq_ok.1 hread
    obtain rfl := Except.pure_eq_ok.1 hread
    have hnew : page.number ∉ spans.map (·.1.number) := by
      intro hmem
      rw [List.map_append, List.nodup_append] at hnumbers
      obtain ⟨s, hs, heq⟩ := List.mem_map.1 hmem
      exact hnumbers.2.2 _ (List.mem_map_of_mem (List.mem_map_of_mem hs)) _ List.mem_cons_self heq
    have hbuilt := hacc.addPage hpage hnew hacc₁
    have hlength : (spans ++ [(page, acc.sections.length)]).length = spans.length + 1 := by simp
    rw [← hlength] at hrest h
    obtain ⟨spans', hspans', hbuilt'⟩ := ih hbuilt hrest
      (by simpa [List.append_assoc] using hnumbers) h
    refine ⟨spans', ?_, hbuilt'⟩
    rw [hspans', List.map_append, List.append_assoc]
    rfl

end

/-! ## The document -/

section

variable {std : Stdlib} {spans : List (PageInput × Nat)} {page : PageInput} {offset : Nat}

theorem readingOrders_perm (placed : List Placement) :
    ((placed.filterMap (·.element.section?)).map (·.order) ++
      (placed.filterMap (·.element.paragraph?)).map (·.readingOrder) ++
      (placed.filterMap (·.element.table?)).map (·.readingOrder) ++
      (placed.filterMap (·.element.list?)).map (·.readingOrder)).Perm (orders placed) := by
  induction placed with
  | nil => exact .nil
  | cons p placed ih =>
    obtain ⟨e, page, first⟩ := p
    unfold orders at *
    cases e with
    | ofSection s => exact ih.cons _
    | ofParagraph p =>
      refine .trans ?_ (ih.cons p.readingOrder)
      exact (List.perm_middle.append_right _).append_right _
    | ofTable t =>
      refine .trans ?_ (ih.cons t.readingOrder)
      exact List.perm_middle.append_right _
    | ofList l =>
      refine .trans ?_ (ih.cons l.readingOrder)
      exact List.perm_middle
    | ofSignature s => exact ih

/-- Growing numbers follow the positions exactly if no position comes after a later one. -/
theorem ordered_iff {placed : List Placement} (horders : (orders placed).Pairwise (· < ·)) :
    Ordered (positions placed) ↔ ∀ a ∈ placed, ∀ b ∈ placed, ∀ m n,
      a.element.order? = some m → b.element.order? = some n →
        Before (a.page, a.first) (b.page, b.first) → m < n := by
  have hgrow : placed.Pairwise fun a b => ∀ m n, a.element.order? = some m →
      b.element.order? = some n → m < n :=
    (List.pairwise_filterMap.1 horders).imp fun h m n hm hn => h m hm n hn
  unfold Ordered positions
  rw [List.pairwise_map, List.pairwise_filter]
  constructor
  · intro hpos
    refine List.Pairwise.forall_of_forall_of_flip ?_ (hgrow.imp ?_) ((hgrow.and hpos).imp ?_)
    · intro a _ m n _ _ haa
      unfold Before at haa
      omega
    · exact fun h m n hm hn _ => h m n hm hn
    · intro a b h n m hn hm hba
      refine absurd hba (h.2 ?_ ?_)
      · rw [hm]
        rfl
      · rw [hn]
        rfl
  · intro hfollow
    refine hgrow.imp_of_mem fun ha hb h hsome hsome' hba => ?_
    obtain ⟨m, hm⟩ := Option.isSome_iff_exists.1 hsome
    obtain ⟨n, hn⟩ := Option.isSome_iff_exists.1 hsome'
    have := hfollow _ hb _ ha n m hn hm hba
    have := h m n hm hn
    omega

theorem kind_consumed {p : ValueDict × Nat} (h : page.kind std p ≠ .consumed) :
    p.2 ∉ page.consumed := by
  intro hmem
  apply h
  unfold PageInput.kind
  rw [if_pos (by simpa using hmem)]

theorem mem_pageSections {r : String} : r ∈ pageSections std page offset ↔
    ∃ i, kindAt std page i = some .heading ∧ r = headingId std page.raws page.number offset i := by
  unfold pageSections sectionsAt
  rw [List.mem_flatMap]
  constructor
  · rintro ⟨i, -, hr⟩
    split at hr
    next hi => exact ⟨i, hi, List.mem_singleton.1 hr⟩
    next => cases hr
  · rintro ⟨i, hi, hr⟩
    refine ⟨i, List.mem_range.2 (headingAt_lt std _ (headingAt_of_kind hi)), ?_⟩
    rw [if_pos hi]
    exact List.mem_singleton.2 hr

theorem pageRef_number {r : String} (h : PageRef std page offset r) :
    ∃ k, r = elementId page.number "sec" k := by
  have hbefore : ∀ i, sectionBefore std page offset i = some r →
      ∃ k, r = elementId page.number "sec" k := by
    intro i hi
    obtain ⟨j, -, rfl⟩ := Option.map_eq_some_iff.1 hi
    exact ⟨_, rfl⟩
  rcases h with ⟨i, -, ⟨b, -, hb⟩ | hr⟩ | ⟨-, hr⟩
  · exact hbefore b hb
  · unfold sectionsAt at hr
    split at hr
    · exact ⟨_, List.mem_singleton.1 hr⟩
    · cases hr
  · exact hbefore _ hr

theorem pageSections_nodup (std : Stdlib) (page : PageInput) (offset : Nat) :
    (pageSections std page offset).Nodup := by
  unfold pageSections
  rw [List.nodup_flatMap]
  refine ⟨fun i _ => ?_, List.nodup_range.imp fun hne r hr hr' => hne ?_⟩
  · unfold sectionsAt
    split <;> simp
  · unfold sectionsAt at hr hr'
    split at hr
    next hi =>
      split at hr'
      next hj =>
        rw [List.mem_singleton] at hr hr'
        exact headingId_inj std page.raws (headingAt_of_kind hi) (headingAt_of_kind hj)
          (hr.symm.trans hr')
      next => cases hr'
    next => cases hr

theorem pageRefs_iff (offset : Nat) : (∀ r, PageRef std page offset r → r ∈ pageSections std page offset) ↔
    SectionsKept std page := by
  -- the section before an index is emitted exactly if its heading is free
  have hkept : ∀ i, (∀ r, sectionBefore std page offset i = some r →
      r ∈ pageSections std page offset) ↔
        ∀ h, lastHeading std page.raws i = some h → h ∉ page.consumed := by
    intro i
    unfold sectionBefore
    constructor
    · intro hall h hh
      rw [hh] at hall
      obtain ⟨j, hj, heq⟩ := mem_pageSections.1 (hall _ rfl)
      obtain rfl := headingId_inj std page.raws (lastHeading_spec std _ hh).2
        (headingAt_of_kind hj) heq
      obtain ⟨raw, -, hkind⟩ := Option.map_eq_some_iff.1 hj
      exact kind_consumed (by rw [hkind]; exact Kind.noConfusion)
    · intro hall r hr
      obtain ⟨h, hh, rfl⟩ := Option.map_eq_some_iff.1 hr
      exact mem_pageSections.2
        ⟨h, kindAt_of_heading (lastHeading_spec std _ hh).2 (hall h hh), rfl⟩
  have hopened : ∀ i r, r ∈ sectionsAt std page offset i → r ∈ pageSections std page offset := by
    intro i r hr
    unfold sectionsAt at hr
    split at hr
    next hi => exact mem_pageSections.2 ⟨i, hi, List.mem_singleton.1 hr⟩
    next => cases hr
  unfold SectionsKept
  constructor
  · intro hall
    refine ⟨fun i hi b hb => (hkept b).1 fun r hr => ?_, fun hend => (hkept _).1 fun r hr => ?_⟩
    · exact hall r (.inl ⟨i, hi, .inl ⟨b, hb, hr⟩⟩)
    · exact hall r (.inr ⟨hend, hr⟩)
  · rintro ⟨hrounds, hend⟩ r (⟨i, hi, ⟨b, hb, hr⟩ | hr⟩ | ⟨hemits, hr⟩)
    · exact (hkept b).2 (hrounds i hi b hb) r hr
    · exact hopened i r hr
    · exact (hkept _).2 (hend hemits) r hr

variable (hnumbers : (spans.map (·.1.number)).Nodup)

include hnumbers

theorem sections_nodup : (spans.flatMap fun s => pageSections std s.1 s.2).Nodup := by
  rw [List.nodup_flatMap]
  refine ⟨fun s _ => pageSections_nodup std s.1 s.2, ?_⟩
  refine (List.pairwise_map.1 hnumbers).imp fun hne r hr hr' => hne ?_
  obtain ⟨i, -, rfl⟩ := mem_pageSections.1 hr
  obtain ⟨j, -, heq⟩ := mem_pageSections.1 hr'
  exact (elementId_inj (by decide) heq).1

/-- Pages with different numbers do not name sections of each other. -/
theorem refs_iff : (∀ s ∈ spans, ∀ r, PageRef std s.1 s.2 r →
    r ∈ spans.flatMap fun s => pageSections std s.1 s.2) ↔
      ∀ s ∈ spans, SectionsKept std s.1 := by
  apply forall₂_congr
  intro s hs
  rw [← pageRefs_iff s.2]
  apply forall₂_congr
  intro r hr
  rw [List.mem_flatMap]
  constructor
  · rintro ⟨s', hs', hr'⟩
    obtain ⟨k, rfl⟩ := pageRef_number hr
    obtain ⟨j, -, heq⟩ := mem_pageSections.1 hr'
    obtain rfl := List.inj_on_of_nodup_map hnumbers hs hs' (elementId_inj (by decide) heq).1
    exact hr'
  · exact fun hr' => ⟨s, hs, hr'⟩

omit hnumbers

/-- A parse of pages with distinct numbers is well formed exactly if on every page the headings that
a table covers open no section that is needed, and no table begins inside a run of list items. -/
theorem build_wellFormed_iff {payloads : List ValueDict} {pages : List PageInput}
    {doc : NormalizedDocument} {placed : List Placement}
    (hread : readPages std payloads = .ok pages) (hdistinct : (pages.map (·.number)).Nodup)
    (h : build std payloads = .ok (doc, placed)) :
    WellFormed doc placed ↔ ∀ page ∈ pages, SectionsKept std page ∧ RunsUnbroken std page := by
  unfold build at h
  obtain ⟨acc, hacc, h⟩ := Except.bind_eq_ok.1 h
  split at h
  · cases h
  obtain ⟨rfl, rfl⟩ := Prod.mk.inj (Except.pure_eq_ok.1 h)
  obtain ⟨spans, hspans, hbuilt⟩ := foldlM_addPage (.empty std) hread hdistinct hacc
  obtain rfl : spans.map (·.1) = pages := hspans
  rw [List.map_map] at hdistinct
  have hplaced := hbuilt.inv.placed
  have hrefs : (∀ r ∈ acc.refs, r ∈ acc.sections.map (·.sectionId)) ↔
      ∀ s ∈ spans, SectionsKept std s.1 := by
    rw [← refs_iff hdistinct, hbuilt.sections]
    constructor
    · exact fun hall s hs r hr => hall r ((hbuilt.refs r).2 ⟨s, hs, hr⟩)
    · intro hall r hr
      obtain ⟨s, hs, hr⟩ := (hbuilt.refs r).1 hr
      exact hall s hs r hr
  rw [List.forall_mem_map, forall₂_and, ← hrefs, ← hbuilt.ordered, ordered_iff hbuilt.inv.orders]
  constructor
  · exact fun hdoc => ⟨hdoc.refs, hdoc.follow⟩
  · rintro ⟨hsections, hfollow⟩
    exact
      { elements := hplaced
        sectionIds := by
          show (acc.sections.map (·.sectionId)).Nodup
          rw [hbuilt.sections]
          exact sections_nodup hdistinct
        paragraphIds := hbuilt.inv.paragraphIds.1
        tableIds := hbuilt.tables.1
        listIds := hbuilt.inv.listIds.1
        signatureIds := hbuilt.inv.signatureIds.1
        blockIds := hbuilt.blocks.1
        refs := hsections
        orders := by
          unfold NormalizedDocument.readingOrders
          dsimp only
          rw [hplaced.sections, hplaced.paragraphs, hplaced.tables, hplaced.lists]
          exact (readingOrders_perm _).nodup_iff.2 (hbuilt.inv.orders.imp Nat.ne_of_lt)
        follow := hfollow }

end

/-! ## Samples -/

def samplePage (number : Int) (paragraphs : List ValueDict) (cells : List String) : ValueDict :=
  let page : ValueDict := [("pageNumber", .int number), ("width", .int 8), ("height", .int 11)]
  let cell (reference : String) : Value := .dict [("elements", .list [.str reference])]
  [("pages", .list [.dict page]), ("paragraphs", .list (paragraphs.map .dict)),
    ("tables", .list (if cells.isEmpty then [] else [.dict [("cells", .list (cells.map cell))]]))]

def coveredHeading : List ValueDict :=
  [samplePage 1
    [[("content", .str "Fees"), ("role", .str "sectionHeading")], [("content", .str "Monthly")]]
    ["/paragraphs/0"]]

def brokenRun : List ValueDict :=
  [samplePage 1 [[("content", .str "- Fees")], [("content", .str "Total")]] ["/paragraphs/1"]]

def plainPages : List ValueDict :=
  [samplePage 1
      [[("content", .str "1. Fees"), ("role", .str "sectionHeading")],
        [("content", .str "(a) Monthly")], [("content", .str "(b) Yearly")]] [],
    samplePage 2 [[("content", .str "Signed by A")]] []]

theorem exists_of_any {ε α : Type} {x : Except ε α} {p : α → Bool}
    (h : x.toOption.any p = true) : ∃ a, x = .ok a ∧ p a = true := by
  cases x with
  | error e => cases h
  | ok a => exact ⟨a, rfl, h⟩

theorem build_wellFormed_iff_plainPages :
    ∃ doc placed, build Stdlib.ascii plainPages = .ok (doc, placed) ∧ WellFormed doc placed := by
  have hread : (readPages Stdlib.ascii plainPages).toOption.any (fun pages =>
      decide (pages.map (·.number)).Nodup && pages.all (·.tables.isEmpty)) = true := by
    decide +kernel
  have hbuild : (build Stdlib.ascii plainPages).toOption.any (fun _ => true) = true := by
    decide +kernel
  obtain ⟨pages, hpages, hsome⟩ := exists_of_any hread
  obtain ⟨⟨doc, placed⟩, hdoc, -⟩ := exists_of_any hbuild
  rw [Bool.and_eq_true, List.all_eq_true] at hsome
  refine ⟨doc, placed, hdoc, (build_wellFormed_iff hpages (of_decide_eq_true hsome.1) hdoc).2 ?_⟩
  intro page hpage
  have htables : page.tables = [] := List.isEmpty_iff.1 (hsome.2 page hpage)
  have hconsumed : page.consumed = [] := by
    unfold PageInput.consumed
    rw [htables]
    rfl
  unfold SectionsKept RunsUnbroken tablesAt withCells
  simp [hconsumed, htables]

/-- A heading in a cell opens a section that is not in the document; a table in a run of list items
comes before the run. -/
theorem wellFormed_fails :
    (∃ pages doc placed, readPages Stdlib.ascii coveredHeading = .ok pages ∧
      (pages.map (·.number)).Nodup ∧ build Stdlib.ascii coveredHeading = .ok (doc, placed) ∧
        ¬ ∀ r ∈ doc.sectionRefs, r ∈ doc.sections.map (·.sectionId)) ∧
    ∃ pages doc placed, readPages Stdlib.ascii brokenRun = .ok pages ∧
      (pages.map (·.number)).Nodup ∧ build Stdlib.ascii brokenRun = .ok (doc, placed) ∧
        ¬ WellFormed doc placed := by
  constructor
  · have hread : (readPages Stdlib.ascii coveredHeading).toOption.any (fun pages =>
        decide (pages.map (·.number)).Nodup) = true := by
      decide +kernel
    have hbuild : (build Stdlib.ascii coveredHeading).toOption.any (fun r =>
        r.1.sections.isEmpty && r.1.sectionRefs.contains "p1-sec0") = true := by
      decide +kernel
    obtain ⟨pages, hpages, hnodup⟩ := exists_of_any hread
    obtain ⟨⟨doc, placed⟩, hdoc, hsome⟩ := exists_of_any hbuild
    rw [Bool.and_eq_true, List.isEmpty_iff, List.contains_iff_mem] at hsome
    refine ⟨pages, doc, placed, hpages, of_decide_eq_true hnodup, hdoc, fun hrefs => ?_⟩
    have := hrefs _ hsome.2
    rw [hsome.1] at this
    exact List.not_mem_nil this
  · have hread : (readPages Stdlib.ascii brokenRun).toOption.any (fun pages =>
        decide (pages.map (·.number)).Nodup) = true := by
      decide +kernel
    have hbuild : (build Stdlib.ascii brokenRun).toOption.any (fun r =>
        r.2.any fun a => r.2.any fun b => decide (a.element.order? = some 1 ∧
          b.element.order? = some 0 ∧ a.page = b.page ∧ a.first < b.first)) = true := by
      decide +kernel
    obtain ⟨pages, hpages, hnodup⟩ := exists_of_any hread
    obtain ⟨⟨doc, placed⟩, hdoc, hsome⟩ := exists_of_any hbuild
    obtain ⟨a, ha, hsome⟩ := List.any_eq_true.1 hsome
    obtain ⟨b, hb, hsome⟩ := List.any_eq_true.1 hsome
    obtain ⟨hm, hn, hab⟩ := of_decide_eq_true hsome
    refine ⟨pages, doc, placed, hpages, of_decide_eq_true hnodup, hdoc, fun hdoc => ?_⟩
    have := hdoc.follow a ha b hb 1 0 hm hn (.inr hab)
    omega

end LayoutParser

end Clear
