import Clear.Ai.DocPipeline.Clauses
import Clear.Core.Proof.Text
import Clear.Lib.Except
import Clear.Lib.Keyed

/-!
# References and boxes

A paragraph's reference is its page number and its position on the page, and the page number is what
the payload says: the references of a document are unique exactly if no two payloads with text give
the same number (`refs_nodup_iff`).
-/

namespace Clear

/-! ## References -/

theorem Paragraph.ref_inj {p q : Paragraph} (h : p.ref = q.ref) :
    p.pageNumber = q.pageNumber ∧ p.index = q.index := by
  have hchars := congrArg String.toList h
  unfold ref at hchars
  simp only [String.toList_append, show ".".toList = ['.'] from rfl, List.append_assoc,
    List.singleton_append] at hchars
  obtain ⟨hpage, hindex⟩ := Text.split_inj (Text.notMem_toString_int (by decide) (by decide) _)
    (Text.notMem_toString_int (by decide) (by decide) _) hchars
  exact ⟨Text.toString_int_inj hpage, Text.repr_inj hindex⟩

theorem byRef_of_nodup {paragraphs : List Paragraph} (h : (paragraphs.map (·.ref)).Nodup)
    {p : Paragraph} (hp : p ∈ paragraphs) : byRef paragraphs p.ref = some p := by
  unfold byRef
  rw [Keyed.filter_of_mem h hp]
  rfl

namespace Source

open Layout

variable {std : Stdlib} {payload : ValueDict} {payloads : List ValueDict} {fallback : Nat}
  {page : PageContent} {pages : List PageContent}

def hasText (payload : ValueDict) : Bool :=
  match iterOr (Value.get payload "paragraphs") with
  | .ok raws => raws.any fun raw => (contentOf raw).toOption.any (· ≠ "")
  | .error _ => false

def textNumbers (payloads : List ValueDict) : List Int :=
  (payloads.zipIdx 1).filterMap fun p =>
    if hasText p.1 then (pageNumber p.1 p.2).toOption else none

def Counted (number : Int) (paragraphs : List Paragraph) : Prop :=
  (∀ p ∈ paragraphs, p.pageNumber = number) ∧
    paragraphs.map (·.index) = List.range' 1 paragraphs.length

theorem readParagraph_ok {number : Int} {size : Rat × Rat × String}
    {paragraphs paragraphs' : List Paragraph} {raw : Value}
    (h : readParagraph std number size paragraphs raw = .ok paragraphs') :
    (contentOf raw = .ok "" ∧ paragraphs' = paragraphs) ∨
      ∃ content p, contentOf raw = .ok content ∧ content ≠ "" ∧ p.pageNumber = number ∧
        p.index = paragraphs.length + 1 ∧ paragraphs' = paragraphs ++ [p] := by
  unfold readParagraph at h
  obtain ⟨content, hcontent, h⟩ := Except.bind_eq_ok.1 h
  split at h
  next hblank =>
    cases h
    exact .inl ⟨hblank ▸ hcontent, rfl⟩
  next htext =>
    obtain ⟨polygon, -, h⟩ := Except.bind_eq_ok.1 h
    obtain ⟨role, -, h⟩ := Except.bind_eq_ok.1 h
    cases h
    exact .inr ⟨content, _, hcontent, htext, rfl, rfl, rfl⟩

/-- What the loop of `_build_page` collects: one paragraph for each raw one that is not blank. -/
theorem foldlM_readParagraph {number : Int} {size : Rat × Rat × String} {raws : List Value}
    {paragraphs paragraphs' : List Paragraph} (hcounted : Counted number paragraphs)
    (h : raws.foldlM (readParagraph std number size) paragraphs = .ok paragraphs') :
    Counted number paragraphs' ∧
      (paragraphs' = [] ↔ paragraphs = [] ∧
        (raws.any fun raw => (contentOf raw).toOption.any (· ≠ "")) = false) := by
  induction raws generalizing paragraphs with
  | nil =>
    cases h
    exact ⟨hcounted, by simp⟩
  | cons raw raws ih =>
    rw [List.foldlM_cons] at h
    obtain ⟨mid, hmid, hrest⟩ := Except.bind_eq_ok.1 h
    rcases readParagraph_ok hmid with ⟨hblank, rfl⟩ | ⟨content, p, hcontent, hne, hnum, hidx, rfl⟩
    · obtain ⟨hc, hnil⟩ := ih hcounted hrest
      exact ⟨hc, by rw [hnil, List.any_cons, hblank]; simp [Except.toOption]⟩
    · have hmidCounted : Counted number (paragraphs ++ [p]) := by
        refine ⟨fun q hq => ?_, ?_⟩
        · rcases List.mem_append.1 hq with hq | hq
          · exact hcounted.1 q hq
          · rw [List.mem_singleton.1 hq, hnum]
        · rw [List.map_append, hcounted.2, List.map_singleton, hidx, List.length_append,
            List.length_singleton, List.range'_concat]
          simp [Nat.add_comm]
      obtain ⟨hc, hnil⟩ := ih hmidCounted hrest
      exact ⟨hc, by rw [hnil, List.any_cons, hcontent]; simp [Except.toOption, hne]⟩

theorem buildPage_ok (h : buildPage std payload fallback = .ok page) :
    pageNumber payload fallback = .ok page.pageNumber ∧
      Counted page.pageNumber page.paragraphs ∧
      (hasText payload = false ↔ page.paragraphs = []) := by
  unfold buildPage at h
  obtain ⟨number, hnumber, h⟩ := Except.bind_eq_ok.1 h
  obtain ⟨size, -, h⟩ := Except.bind_eq_ok.1 h
  obtain ⟨raws, hraws, h⟩ := Except.bind_eq_ok.1 h
  obtain ⟨paragraphs, hparagraphs, h⟩ := Except.bind_eq_ok.1 h
  cases h
  obtain ⟨hcounted, hnil⟩ := foldlM_readParagraph ⟨by simp, rfl⟩ hparagraphs
  refine ⟨hnumber, hcounted, ?_⟩
  unfold hasText
  rw [hraws]
  simp [hnil]

theorem mapM_buildPage {ps : List (ValueDict × Nat)}
    (h : (ps.mapM fun p => buildPage std p.1 p.2) = .ok pages) :
    (∀ page ∈ pages, Counted page.pageNumber page.paragraphs) ∧
      (ps.filterMap fun p => if hasText p.1 then (pageNumber p.1 p.2).toOption else none) =
        (pages.filter fun page => !page.paragraphs.isEmpty).map (·.pageNumber) := by
  induction ps generalizing pages with
  | nil =>
    cases h
    exact ⟨by simp, rfl⟩
  | cons p ps ih =>
    rw [List.mapM_cons] at h
    obtain ⟨page, hpage, h⟩ := Except.bind_eq_ok.1 h
    obtain ⟨rest, hrest, h⟩ := Except.bind_eq_ok.1 h
    cases h
    obtain ⟨hnumber, hcounted, hnil⟩ := buildPage_ok hpage
    obtain ⟨hall, hnumbers⟩ := ih hrest
    refine ⟨fun q hq => ?_, ?_⟩
    · rcases List.mem_cons.1 hq with rfl | hq
      · exact hcounted
      · exact hall q hq
    · rw [List.filterMap_cons, hnumbers]
      by_cases htext : hasText p.1 = true
      · have hne : page.paragraphs ≠ [] := fun hempty => by
          rw [hnil.2 hempty] at htext
          cases htext
        rw [if_pos htext, hnumber, List.filter_cons_of_pos (by simp [hne])]
        rfl
      · have hempty : page.paragraphs = [] := hnil.1 (by simpa using htext)
        rw [if_neg htext, List.filter_cons_of_neg (by simp [hempty])]

/-- Pages share a reference exactly if both have text and one number. -/
theorem disjoint_refs_iff {page page' : PageContent} (h : Counted page.pageNumber page.paragraphs)
    (h' : Counted page'.pageNumber page'.paragraphs) :
    List.Disjoint (page.paragraphs.map (·.ref)) (page'.paragraphs.map (·.ref)) ↔
      (page.paragraphs ≠ [] → page'.paragraphs ≠ [] → page.pageNumber ≠ page'.pageNumber) := by
  constructor
  · intro hdisjoint hne hne' heq
    obtain ⟨p, ps, hps⟩ := List.exists_cons_of_ne_nil hne
    obtain ⟨q, qs, hqs⟩ := List.exists_cons_of_ne_nil hne'
    have hp := h.1 p (by simp [hps])
    have hq := h'.1 q (by simp [hqs])
    have hpi := congrArg List.head? h.2
    have hqi := congrArg List.head? h'.2
    simp only [hps, hqs, List.map_cons, List.head?_cons, List.length_cons, List.range'_succ,
      Option.some.injEq] at hpi hqi
    have href : p.ref = q.ref := by
      unfold Paragraph.ref
      rw [hp, hq, hpi, hqi, heq]
    exact hdisjoint (List.mem_map_of_mem (hps ▸ List.mem_cons_self))
      (href ▸ List.mem_map_of_mem (hqs ▸ List.mem_cons_self))
  · intro hne ref hin hin'
    obtain ⟨p, hp, rfl⟩ := List.mem_map.1 hin
    obtain ⟨q, hq, href⟩ := List.mem_map.1 hin'
    refine hne (List.ne_nil_of_mem hp) (List.ne_nil_of_mem hq) ?_
    rw [← h.1 p hp, ← h'.1 q hq, (Paragraph.ref_inj href).1]

theorem Counted.nodup {number : Int} {paragraphs : List Paragraph}
    (h : Counted number paragraphs) : (paragraphs.map (·.ref)).Nodup := by
  have hindex : (paragraphs.map (·.index)).Nodup := by
    rw [h.2]
    exact List.nodup_range'
  exact List.pairwise_map.2 ((List.pairwise_map.1 hindex).imp fun hne href =>
    hne (Paragraph.ref_inj href).2)

def Sample.numbered (n : Int) (content : String) : ValueDict :=
  [("pages", .list [.dict [("pageNumber", .int n)]]),
    ("paragraphs", .list [.dict [("content", .str content)]])]

end Source

/-! ## Boxes -/

namespace Geometry

open Layout

variable {paragraphs : List Paragraph} {polygons : List (List Rat)}

theorem foldl_min_le (xs : List Rat) (a : Rat) :
    xs.foldl min a ≤ a ∧ ∀ x ∈ xs, xs.foldl min a ≤ x := by
  induction xs generalizing a with
  | nil => exact ⟨Rat.le_refl, by simp⟩
  | cons b xs ih =>
    obtain ⟨hacc, hrest⟩ := ih (min a b)
    refine ⟨hacc.trans (min_le_left a b), fun x hx => ?_⟩
    rcases List.mem_cons.1 hx with rfl | hx
    · exact hacc.trans (min_le_right a x)
    · exact hrest x hx

theorem le_foldl_max (xs : List Rat) (a : Rat) :
    a ≤ xs.foldl max a ∧ ∀ x ∈ xs, x ≤ xs.foldl max a := by
  induction xs generalizing a with
  | nil => exact ⟨Rat.le_refl, by simp⟩
  | cons b xs ih =>
    obtain ⟨hacc, hrest⟩ := ih (max a b)
    refine ⟨(le_max_left a b).trans hacc, fun x hx => ?_⟩
    rcases List.mem_cons.1 hx with rfl | hx
    · exact (le_max_right a x).trans hacc
    · exact hrest x hx

theorem minOf_le {xs : List Rat} {x : Rat} (h : x ∈ xs) : minOf xs ≤ x :=
  (foldl_min_le xs _).2 x h

theorem le_maxOf {xs : List Rat} {x : Rat} (h : x ∈ xs) : x ≤ maxOf xs := (le_foldl_max xs _).2 x h

def corners (left top right bottom : Rat) : List Rat :=
  [left, top, right, top, right, bottom, left, bottom]

def Covers (left top right bottom : Rat) (polygon : List Rat) : Prop :=
  (∀ x ∈ everyOther polygon, left ≤ x ∧ x ≤ right) ∧
    ∀ y ∈ everyOther (polygon.drop 1), top ≤ y ∧ y ≤ bottom

def Encloses (paragraphs : List Paragraph) (n : Int) (box : List Rat) : Prop :=
  ∃ left top right bottom, box = corners left top right bottom ∧
    ∀ p ∈ paragraphs, p.pageNumber = n → 8 ≤ p.polygon.length →
      Covers left top right bottom p.polygon

structure Aligned (paragraphs : List Paragraph) (pages : List Int) (polygon : List Rat) :
    Prop where
  sorted : pages.Pairwise (· < ·)
  located : ∀ n, n ∈ pages ↔ ∃ p ∈ paragraphs, p.polygon ≠ [] ∧ p.pageNumber = n
  length : polygon.length = 8 * pages.length
  box : ∀ i n, pages[i]? = some n → Encloses paragraphs n ((polygon.drop (8 * i)).take 8)

def Usable (paragraphs : List Paragraph) : Prop :=
  ∀ p ∈ paragraphs, p.polygon ≠ [] →
    ∃ q ∈ paragraphs, q.pageNumber = p.pageNumber ∧ 8 ≤ q.polygon.length

theorem mem_located {p : Paragraph} : p ∈ located paragraphs ↔ p ∈ paragraphs ∧ p.polygon ≠ [] := by
  unfold located
  rw [List.mem_filter]
  simp

theorem mem_sortedSet {numbers : List Int} {n : Int} : n ∈ sortedSet numbers ↔ n ∈ numbers := by
  unfold sortedSet
  rw [List.mem_insertionSort, List.mem_eraseDups]

theorem sortedSet_sorted (numbers : List Int) : (sortedSet numbers).Pairwise (· < ·) := by
  have hle : (sortedSet numbers).Pairwise (· ≤ ·) := List.pairwise_insertionSort _ _
  have hne : (sortedSet numbers).Nodup :=
    ((List.perm_insertionSort _ _).nodup_iff).2 (Dict.nodup_eraseDups _)
  exact (hle.and hne).imp fun h => lt_of_le_of_ne h.1 h.2

theorem everyOther_ne_nil {xs : List Rat} (h : xs ≠ []) : everyOther xs ≠ [] := by
  unfold everyOther
  split
  · exact h
  · exact List.cons_ne_nil _ _
  · exact List.cons_ne_nil _ _

theorem unionPolygon_eq (h : ∃ polygon ∈ polygons, 8 ≤ polygon.length) :
    ∃ left top right bottom, unionPolygon polygons = corners left top right bottom ∧
      ∀ polygon ∈ polygons, 8 ≤ polygon.length → Covers left top right bottom polygon := by
  have hmem : ∀ polygon ∈ polygons, 8 ≤ polygon.length →
      polygon ∈ polygons.filter fun polygon => 8 ≤ polygon.length := fun polygon hin hlen =>
    List.mem_filter.2 ⟨hin, decide_eq_true hlen⟩
  unfold unionPolygon
  generalize (polygons.filter fun polygon => 8 ≤ polygon.length) = usable at hmem
  obtain ⟨polygon, hin, hlen⟩ := h
  have hxs : (usable.flatMap everyOther).isEmpty = false := by
    rw [List.isEmpty_eq_false_iff, Ne, List.flatMap_eq_nil_iff]
    intro hall
    have hempty := hall polygon (hmem polygon hin hlen)
    refine everyOther_ne_nil (fun hnil => ?_) hempty
    rw [hnil] at hlen
    simp at hlen
  have hys : (usable.flatMap fun polygon => everyOther (polygon.drop 1)).isEmpty = false := by
    rw [List.isEmpty_eq_false_iff, Ne, List.flatMap_eq_nil_iff]
    intro hall
    have hempty := hall polygon (hmem polygon hin hlen)
    refine everyOther_ne_nil (fun hnil => ?_) hempty
    have hdrop := congrArg List.length hnil
    rw [List.length_drop, List.length_nil] at hdrop
    omega
  dsimp only
  rw [hxs, hys]
  refine ⟨_, _, _, _, rfl, fun q hq hqlen => ⟨fun x hx => ?_, fun y hy => ?_⟩⟩
  · have hx' : x ∈ usable.flatMap everyOther := List.mem_flatMap.2 ⟨q, hmem q hq hqlen, hx⟩
    exact ⟨minOf_le hx', le_maxOf hx'⟩
  · have hy' : y ∈ usable.flatMap fun polygon => everyOther (polygon.drop 1) :=
      List.mem_flatMap.2 ⟨q, hmem q hq hqlen, hy⟩
    exact ⟨minOf_le hy', le_maxOf hy'⟩

theorem perPageBoxes_eq (paragraphs : List Paragraph) :
    perPageBoxes paragraphs = (pagesWithGeometry paragraphs).flatMap fun n =>
      unionPolygon (((located paragraphs).filter (·.pageNumber = n)).map (·.polygon)) := by
  unfold perPageBoxes pagesWithGeometry sortedSet polygonsByPage
  simp only [Dict.keys_groupBy, Dict.getD_groupBy]

theorem flatMap_blocks {α β : Type} {k : Nat} {f : α → List β} {l : List α}
    (h : ∀ a ∈ l, (f a).length = k) :
    (l.flatMap f).length = k * l.length ∧
      ∀ i a, l[i]? = some a → ((l.flatMap f).drop (k * i)).take k = f a := by
  induction l with
  | nil => exact ⟨rfl, fun i a hi => by simp at hi⟩
  | cons b l ih =>
    have hb := h b List.mem_cons_self
    obtain ⟨hlen, hblock⟩ := ih fun a ha => h a (List.mem_cons_of_mem b ha)
    refine ⟨?_, fun i a hi => ?_⟩
    · rw [List.flatMap_cons, List.length_append, hb, hlen, List.length_cons, Nat.mul_succ,
        Nat.add_comm]
    · rw [List.flatMap_cons]
      cases i with
      | zero =>
        obtain rfl : b = a := by simpa using hi
        rw [Nat.mul_zero, List.drop_zero, ← hb, List.take_left]
      | succ i =>
        rw [List.getElem?_cons_succ] at hi
        rw [Nat.mul_succ, Nat.add_comm, ← List.drop_drop, ← hb, List.drop_left, hb]
        exact hblock i a hi

theorem aligned_boxes (h : Usable paragraphs) :
    Aligned paragraphs (pagesWithGeometry paragraphs) (perPageBoxes paragraphs) := by
  have hlocated : ∀ n, n ∈ pagesWithGeometry paragraphs ↔
      ∃ p ∈ paragraphs, p.polygon ≠ [] ∧ p.pageNumber = n := by
    intro n
    unfold pagesWithGeometry
    rw [mem_sortedSet, List.mem_map]
    constructor
    · intro ⟨p, hp, hn⟩
      exact ⟨p, (mem_located.1 hp).1, (mem_located.1 hp).2, hn⟩
    · intro ⟨p, hp, hne, hn⟩
      exact ⟨p, mem_located.2 ⟨hp, hne⟩, hn⟩
  have hbox : ∀ n ∈ pagesWithGeometry paragraphs, Encloses paragraphs n
      (unionPolygon (((located paragraphs).filter (·.pageNumber = n)).map (·.polygon))) := by
    intro n hn
    have hfiled : ∀ p ∈ paragraphs, p.pageNumber = n → 8 ≤ p.polygon.length →
        p.polygon ∈ ((located paragraphs).filter (·.pageNumber = n)).map (·.polygon) := by
      intro p hp hpn hlen
      have hne : p.polygon ≠ [] := fun hnil => by simp [hnil] at hlen
      exact List.mem_map_of_mem (List.mem_filter.2 ⟨mem_located.2 ⟨hp, hne⟩, decide_eq_true hpn⟩)
    obtain ⟨p, hp, hne, rfl⟩ := (hlocated n).1 hn
    obtain ⟨q, hq, hqn, hlen⟩ := h p hp hne
    obtain ⟨left, top, right, bottom, heq, hcovers⟩ :=
      unionPolygon_eq ⟨q.polygon, hfiled q hq hqn hlen, hlen⟩
    exact ⟨left, top, right, bottom, heq, fun p' hp' hpn hlen' =>
      hcovers p'.polygon (hfiled p' hp' hpn hlen') hlen'⟩
  obtain ⟨hlength, hblock⟩ := flatMap_blocks (k := 8) (l := pagesWithGeometry paragraphs)
    (f := fun n => unionPolygon (((located paragraphs).filter (·.pageNumber = n)).map (·.polygon)))
    fun n hn => by
      obtain ⟨left, top, right, bottom, heq, -⟩ := hbox n hn
      rw [heq]
      rfl
  rw [perPageBoxes_eq]
  refine ⟨sortedSet_sorted _, hlocated, hlength, fun i n hi => ?_⟩
  rw [hblock i n hi]
  exact hbox n (List.mem_of_getElem? hi)

theorem geometry_eq_nil (h : ∀ p ∈ paragraphs, p.polygon = []) :
    pagesWithGeometry paragraphs = [] ∧ perPageBoxes paragraphs = [] := by
  have hnone : located paragraphs = [] := by
    unfold located
    rw [List.filter_eq_nil_iff]
    intro p hp
    simp [h p hp]
  have hpages : pagesWithGeometry paragraphs = [] := by
    unfold pagesWithGeometry
    rw [hnone]
    rfl
  refine ⟨hpages, ?_⟩
  rw [perPageBoxes_eq, hpages, List.flatMap_nil]

end Geometry

open Geometry in
/-- A clause with geometry has one box for each of its pages; one without has no box, and its pages
are all that it touches. -/
theorem DetectedClause.geometry_aligned (c : DetectedClause) (h : Usable c.paragraphs) :
    ((∃ p ∈ c.paragraphs, p.polygon ≠ []) → Aligned c.paragraphs c.pageNumbers c.polygon) ∧
      ((∀ p ∈ c.paragraphs, p.polygon = []) →
        c.pageNumbers = sortedSet (c.paragraphs.map (·.pageNumber)) ∧ c.polygon = []) := by
  constructor
  · intro ⟨p, hp, hne⟩
    have haligned := aligned_boxes h
    have hin := (haligned.located p.pageNumber).2 ⟨p, hp, hne, rfl⟩
    unfold pageNumbers polygon
    rw [if_neg (by simpa using List.ne_nil_of_mem hin)]
    exact haligned
  · intro hnone
    obtain ⟨hpages, hboxes⟩ := geometry_eq_nil hnone
    refine ⟨?_, hboxes⟩
    unfold pageNumbers
    rw [hpages]
    rfl

namespace Geometry.Sample

def onPage (n : Int) (polygon : List Rat) : Paragraph :=
  { pageNumber := n, index := 1, role := none, content := "Term", polygon }

def clause (paragraphs : List Paragraph) : DetectedClause :=
  { clause := "Term", paragraphs, method := "llm" }

def spanning : DetectedClause :=
  clause [onPage 2 (corners 1 1 2 2), onPage 1 (corners 0 0 3 4)]

end Geometry.Sample

open Geometry in
theorem DetectedClause.geometry_aligned_spanning :
    Aligned Sample.spanning.paragraphs [1, 2]
      [0, 0, 3, 0, 3, 4, 0, 4, 1, 1, 2, 1, 2, 2, 1, 2] := by
  have husable : Usable Sample.spanning.paragraphs := fun p hp _ => ⟨p, hp, rfl, by
    rcases List.mem_cons.1 hp with rfl | hp
    · decide
    · rw [List.mem_singleton.1 hp]
      decide⟩
  have haligned := (DetectedClause.geometry_aligned Sample.spanning husable).1
    ⟨Sample.onPage 2 (corners 1 1 2 2), List.mem_cons_self, by decide⟩
  have hgeometry : Sample.spanning.pageNumbers = [1, 2] ∧ Sample.spanning.polygon =
      [0, 0, 3, 0, 3, 4, 0, 4, 1, 1, 2, 1, 2, 2, 1, 2] := by
    decide +kernel
  rw [hgeometry.1, hgeometry.2] at haligned
  exact haligned

open Geometry in
/-- A clause without geometry is listed on its page with no box; so is, on its second page, one
whose polygon there is too short for a box. -/
theorem DetectedClause.geometry_misaligned :
    ((Sample.clause [Sample.onPage 1 []]).pageNumbers = [1] ∧
      (Sample.clause [Sample.onPage 1 []]).polygon.length ≠ 8 * 1) ∧
    (Sample.clause [Sample.onPage 1 (corners 0 0 3 4), Sample.onPage 2 [1, 1]]).pageNumbers =
      [1, 2] ∧
    (Sample.clause [Sample.onPage 1 (corners 0 0 3 4), Sample.onPage 2 [1, 1]]).polygon.length ≠
      8 * 2 := by
  decide +kernel

end Clear
