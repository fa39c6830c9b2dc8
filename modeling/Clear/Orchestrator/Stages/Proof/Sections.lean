import Clear.Ai.DocPipeline.Proof.Source
import Clear.Orchestrator.Stages.Extraction

/-!
# Sections and their parts

An `Outline` is a section as it was cut: its heading, and the bodies of its parts. The outlines of a
document put its paragraphs back together in their order, and each part of each outline becomes one
chunk (`sectionChunks_lossless`).
-/

namespace Clear

namespace ExtractionStage

open Retrieval (estimateTokens)

variable {part : List Paragraph} {heading : Option Paragraph}

/-! ## Outlines -/

def cost (paragraphs : List Paragraph) : Nat :=
  (paragraphs.map fun p => estimateTokens p.content).sum

structure Outline where
  heading : Option Paragraph
  bodies : List (List Paragraph)

namespace Outline

def paragraphs (o : Outline) : List Paragraph := o.heading.toList ++ o.bodies.flatten

def parts (o : Outline) : List (List Paragraph) := o.bodies.map (o.heading.toList ++ ·)

/-- Only the heading is one, no part is empty, and the body of a part that was cut keeps the bound
unless it is a single paragraph. -/
structure WellCut (o : Outline) : Prop where
  heading : ∀ p ∈ o.heading, p.isHeading = true
  body : ∀ body ∈ o.bodies, ∀ p ∈ body, p.isHeading = false
  parts : ∀ part ∈ o.parts, part ≠ []
  bound : 1 < o.bodies.length → ∀ body ∈ o.bodies, 2 ≤ body.length → cost body ≤ maxSectionTokens

end Outline

def Headed (paragraphs : List Paragraph) : Prop :=
  paragraphs ≠ [] ∧ ∀ p ∈ paragraphs.tail, p.isHeading = false

/-- What the first loop of `_section_chunks` holds after the paragraphs `seen`. -/
structure Gathered (s : List (List Paragraph) × List Paragraph) (seen : List Paragraph) :
    Prop where
  all : s.1.flatten ++ s.2 = seen.filter fun p => !isDropped p
  closed : ∀ t ∈ s.1, Headed t
  current : s.2 ≠ [] → Headed s.2

theorem Gathered.headed {s : List (List Paragraph) × List Paragraph} {seen : List Paragraph}
    (h : Gathered s seen) (hne : s.2 ≠ []) : ∀ t ∈ s.1 ++ [s.2], Headed t := by
  intro t ht
  rcases List.mem_append.1 ht with ht | ht
  · exact h.closed t ht
  · rw [List.mem_singleton.1 ht]
    exact h.current hne

theorem Gathered.gather {s : List (List Paragraph) × List Paragraph} {seen : List Paragraph}
    (h : Gathered s seen) (p : Paragraph) : Gathered (gather s p) (seen ++ [p]) := by
  unfold ExtractionStage.gather
  cases hdropped : isDropped p with
  | true =>
    rw [if_pos rfl]
    exact ⟨by simpa [hdropped] using h.all, h.closed, h.current⟩
  | false =>
    rw [if_neg Bool.false_ne_true]
    have hall : s.1.flatten ++ s.2 ++ [p] = (seen ++ [p]).filter fun p => !isDropped p := by
      rw [h.all]
      simp [hdropped]
    by_cases hopens : p.isHeading && !s.2.isEmpty
    · rw [if_pos hopens]
      rw [Bool.and_eq_true] at hopens
      refine ⟨?_, h.headed (by simpa using hopens.2), fun _ => ⟨by simp, by simp⟩⟩
      rw [← hall]
      simp
    · rw [if_neg hopens]
      refine ⟨by rw [← hall, List.append_assoc], h.closed, fun hne => ⟨hne, fun q hq => ?_⟩⟩
      cases hs : s.2 with
      | nil =>
        rw [hs] at hq
        cases hq
      | cons first rest =>
        have hheading : p.isHeading = false := by simpa [hs] using hopens
        have htail := (h.current (by simp [hs])).2
        rw [hs] at hq htail
        rcases List.mem_append.1 hq with hq | hq
        · exact htail q hq
        · rw [List.mem_singleton.1 hq]
          exact hheading

theorem Gathered.foldl {s : List (List Paragraph) × List Paragraph} {seen : List Paragraph}
    (h : Gathered s seen) (rest : List Paragraph) :
    Gathered (rest.foldl ExtractionStage.gather s) (seen ++ rest) := by
  induction rest generalizing s seen with
  | nil => simpa using h
  | cons p rest ih => simpa using ih (h.gather p)

theorem sections_spec (paragraphs : List Paragraph) :
    (sections paragraphs).flatten = paragraphs.filter (fun p => !isDropped p) ∧
      ∀ s ∈ sections paragraphs, Headed s := by
  have hstart : Gathered ([], []) [] := ⟨rfl, by simp, by simp⟩
  have h := hstart.foldl paragraphs
  rw [List.nil_append] at h
  unfold sections
  dsimp only
  generalize paragraphs.foldl gather ([], []) = s at h
  by_cases hempty : s.2 = []
  · rw [hempty, List.isEmpty_nil, if_pos rfl, ← h.all, hempty, List.append_nil]
    exact ⟨rfl, h.closed⟩
  · rw [if_neg (by simpa using hempty), ← h.all]
    exact ⟨by simp, h.headed hempty⟩

/-! ## Cutting -/

def Fits (body : List Paragraph) : Prop :=
  body ≠ [] ∧ (2 ≤ body.length → cost body ≤ maxSectionTokens)

structure Splitting.Holds (heading : Option Paragraph) (s : Splitting) (seen : List Paragraph) :
    Prop where
  budget : s.budget = cost s.run
  run : s.run ≠ [] → Fits s.run
  parts : ∃ bodies : List (List Paragraph), s.parts = bodies.map (heading.toList ++ ·) ∧
    bodies.flatten ++ s.run = seen ∧ ∀ body ∈ bodies, Fits body

theorem Splitting.Holds.flush {s : Splitting} {seen : List Paragraph} (h : s.Holds heading seen)
    (hrun : s.run ≠ []) : (s.flush heading).Holds heading seen := by
  obtain ⟨bodies, hparts, hseen, hfits⟩ := h.parts
  refine ⟨rfl, by simp [Splitting.flush], bodies ++ [s.run], ?_, ?_, fun body hbody => ?_⟩
  · unfold Splitting.flush
    rw [hparts, List.map_append, List.map_singleton]
  · rw [← hseen]
    simp [Splitting.flush]
  · rcases List.mem_append.1 hbody with hbody | hbody
    · exact hfits body hbody
    · rw [List.mem_singleton.1 hbody]
      exact h.run hrun

theorem cost_append (run : List Paragraph) (p : Paragraph) :
    cost (run ++ [p]) = cost run + estimateTokens p.content := by
  unfold cost
  simp

theorem Splitting.Holds.push {s : Splitting} {seen : List Paragraph} {p : Paragraph}
    (h : s.Holds heading seen)
    (hroom : s.run = [] ∨ s.budget + estimateTokens p.content ≤ maxSectionTokens) :
    Splitting.Holds heading { s with
      run := s.run ++ [p], budget := s.budget + estimateTokens p.content } (seen ++ [p]) := by
  obtain ⟨bodies, hparts, hseen, hfits⟩ := h.parts
  refine ⟨?_, fun _ => ⟨by simp, fun hlen => ?_⟩, bodies, hparts, ?_, hfits⟩
  · show s.budget + estimateTokens p.content = cost (s.run ++ [p])
    rw [cost_append, h.budget]
  · show cost (s.run ++ [p]) ≤ maxSectionTokens
    rcases hroom with hempty | hroom
    · rw [hempty] at hlen
      simp at hlen
    · rw [cost_append, ← h.budget]
      exact hroom
  · rw [← hseen, List.append_assoc]

theorem Splitting.Holds.place {s : Splitting} {seen : List Paragraph} (h : s.Holds heading seen)
    (p : Paragraph) : (s.place heading p).Holds heading (seen ++ [p]) := by
  unfold Splitting.place
  dsimp only
  by_cases hfull : !s.run.isEmpty && maxSectionTokens < s.budget + estimateTokens p.content
  · rw [if_pos hfull]
    rw [Bool.and_eq_true] at hfull
    exact (h.flush (by simpa using hfull.1)).push (.inl rfl)
  · rw [if_neg hfull]
    refine h.push ?_
    by_cases hempty : s.run = []
    · exact .inl hempty
    · refine .inr (Nat.le_of_not_lt fun hlt => hfull ?_)
      rw [Bool.and_eq_true]
      exact ⟨by simpa using hempty, decide_eq_true hlt⟩

theorem Splitting.Holds.foldl {s : Splitting} {seen : List Paragraph} (h : s.Holds heading seen)
    (body : List Paragraph) :
    (body.foldl (Splitting.place heading) s).Holds heading (seen ++ body) := by
  induction body generalizing s seen with
  | nil => simpa using h
  | cons p body ih => simpa using ih (h.place p)

theorem headingOf_append_bodyOf (paragraphs : List Paragraph) :
    (headingOf paragraphs).toList ++ bodyOf paragraphs = paragraphs := by
  unfold bodyOf headingOf
  cases paragraphs with
  | nil => rfl
  | cons p rest =>
    cases hheading : p.isHeading <;> simp [Option.filter, hheading]

theorem isHeading_headingOf {paragraphs : List Paragraph} :
    ∀ p ∈ headingOf paragraphs, p.isHeading = true := by
  intro p hp
  exact (Option.mem_filter_iff.1 hp).2

theorem isHeading_bodyOf {paragraphs : List Paragraph} (h : Headed paragraphs) :
    ∀ p ∈ bodyOf paragraphs, p.isHeading = false := by
  obtain ⟨hne, htail⟩ := h
  unfold bodyOf headingOf
  cases paragraphs with
  | nil => exact absurd rfl hne
  | cons first rest =>
    intro p hp
    cases hheading : first.isHeading with
    | true =>
      simp only [List.head?_cons, Option.filter, hheading, if_true, Option.isSome_some,
        List.drop_one, List.tail_cons] at hp
      exact htail p hp
    | false =>
      simp only [List.head?_cons, Option.filter, hheading, Bool.false_eq_true, if_false,
        Option.isSome_none] at hp
      rcases List.mem_cons.1 hp with rfl | hp
      · exact hheading
      · exact htail p hp

theorem wellCut_whole {s : List Paragraph} (h : Headed s) :
    ∃ o : Outline, o.WellCut ∧ o.paragraphs = s ∧ o.parts = [s] := by
  have hsplit := headingOf_append_bodyOf s
  have hparts : [bodyOf s].map ((headingOf s).toList ++ ·) = [s] := by
    rw [List.map_singleton, hsplit]
  refine ⟨⟨headingOf s, [bodyOf s]⟩, ⟨isHeading_headingOf, ?_, ?_, ?_⟩, ?_, hparts⟩
  · intro body hbody
    rw [List.mem_singleton.1 hbody]
    exact isHeading_bodyOf h
  · intro part hpart
    unfold Outline.parts at hpart
    rw [hparts] at hpart
    rw [List.mem_singleton.1 hpart]
    exact h.1
  · intro hlen
    simp at hlen
  · unfold Outline.paragraphs
    rw [List.flatten_singleton, hsplit]

theorem splitOversized_spec {s : List Paragraph} (h : Headed s) :
    ∃ o : Outline, o.WellCut ∧ o.paragraphs = s ∧ o.parts = splitOversized s := by
  unfold splitOversized
  split
  · exact wellCut_whole h
  · dsimp only
    have hstart : Splitting.Holds (headingOf s) {} [] :=
      ⟨rfl, fun hne => absurd rfl hne, [], rfl, rfl, by simp⟩
    have hfold := hstart.foldl (bodyOf s)
    rw [List.nil_append] at hfold
    generalize (bodyOf s).foldl (Splitting.place (headingOf s)) {} = t at hfold
    have hlast : ∃ u : Splitting, (if t.run.isEmpty then t else t.flush (headingOf s)) = u ∧
        u.Holds (headingOf s) (bodyOf s) ∧ u.run = [] := by
      by_cases hrun : t.run = []
      · exact ⟨t, by rw [hrun]; rfl, hfold, hrun⟩
      · exact ⟨_, if_neg (by simpa using hrun), hfold.flush hrun, rfl⟩
    obtain ⟨u, hu, hholds, hrun⟩ := hlast
    obtain ⟨bodies, hparts, hseen, hfits⟩ := hholds.parts
    rw [hrun, List.append_nil] at hseen
    rw [hu, hparts]
    cases hbodies : bodies with
    | nil => exact wellCut_whole h
    | cons body rest =>
      rw [← hbodies, if_neg (by simp [hbodies])]
      refine ⟨⟨headingOf s, bodies⟩, ⟨isHeading_headingOf, ?_, ?_, ?_⟩, ?_, rfl⟩
      · intro body hbody p hp
        exact isHeading_bodyOf h p (hseen ▸ List.mem_flatten_of_mem hbody hp)
      · intro part hpart
        obtain ⟨body, hbody, rfl⟩ := List.mem_map.1 hpart
        exact List.append_ne_nil_of_right_ne_nil _ (hfits body hbody).1
      · exact fun _ body hbody => (hfits body hbody).2
      · unfold Outline.paragraphs
        rw [hseen, headingOf_append_bodyOf]

/-! ## Boxes -/

open Layout in
theorem exists_checked {box : Coordinates}
    (h : 1 ≤ box.pageNumber ∧ 0 ≤ box.width ∧ 0 ≤ box.height) : checked box = .ok box := by
  unfold checked
  rw [if_pos h]

open Layout in
theorem of_checked {box box' : Coordinates} (h : checked box = .ok box') :
    box' = box ∧ 1 ≤ box.pageNumber ∧ 0 ≤ box.width ∧ 0 ≤ box.height := by
  unfold checked at h
  split at h
  next hvalid =>
    cases h
    exact ⟨rfl, hvalid⟩
  next => cases h

open Layout Geometry in
theorem extent_nonneg {xs : List Rat} (h : xs ≠ []) : 0 ≤ maxOf xs - minOf xs := by
  obtain ⟨x, hx⟩ := List.exists_mem_of_ne_nil xs h
  exact sub_nonneg.2 ((minOf_le hx).trans (le_maxOf hx))

theorem toDigits_nonneg {x : Rat} (h : 0 ≤ x) : 0 ≤ Rounding.toDigits 2 x := by
  have hround : (0 : Int) ≤ Rounding.halfEven (x * 10 ^ 2) := Rounding.le_halfEven (by
    rw [Int.cast_zero]
    exact mul_nonneg h (by norm_num))
  unfold Rounding.toDigits
  exact div_nonneg (by exact_mod_cast hround) (by norm_num)

open Layout in
theorem exists_box {p : Paragraph} (h : 8 ≤ p.polygon.length → 1 ≤ p.pageNumber) :
    ∃ box, p.box = .ok box := by
  unfold Paragraph.box
  split
  · exact ⟨none, rfl⟩
  · unfold Layout.coordinates
    split
    next => exact ⟨none, rfl⟩
    next hlen =>
      have hlength : ((p.polygon.take 8).map (· * scale p.unit)).length = 8 := by
        rw [List.length_map, List.length_take]
        omega
      generalize (p.polygon.take 8).map (· * scale p.unit) = corners at hlength
      have hxs : everyOther corners ≠ [] :=
        Geometry.everyOther_ne_nil (List.ne_nil_of_length_pos (by omega))
      have hys : everyOther (corners.drop 1) ≠ [] :=
        Geometry.everyOther_ne_nil (List.ne_nil_of_length_pos (by rw [List.length_drop]; omega))
      dsimp only
      rw [exists_checked ⟨h (by omega), toDigits_nonneg (extent_nonneg hxs),
        toDigits_nonneg (extent_nonneg hys)⟩]
      exact ⟨_, rfl⟩

theorem valid_box {p : Paragraph} {box : Coordinates} (h : p.box = .ok (some box)) :
    1 ≤ box.pageNumber ∧ 0 ≤ box.width ∧ 0 ≤ box.height := by
  unfold Paragraph.box at h
  split at h
  next => cases h
  next =>
    unfold Layout.coordinates at h
    split at h
    next => cases h
    next =>
      obtain ⟨box', hbox', hsome⟩ := Except.map_eq_ok.1 h
      obtain ⟨heq, hvalid⟩ := of_checked hbox'
      rw [← Option.some.inj hsome, heq]
      exact hvalid

open Layout Geometry in
theorem exists_merge {boxes : List Coordinates}
    (h : ∀ box ∈ boxes, 1 ≤ box.pageNumber ∧ 0 ≤ box.width ∧ 0 ≤ box.height) :
    ∃ merged, Coordinates.merge boxes = .ok merged := by
  unfold Coordinates.merge
  cases boxes with
  | nil => exact ⟨none, rfl⟩
  | cons first rest =>
    obtain ⟨hpage, hwidth, hheight⟩ := h first List.mem_cons_self
    dsimp only
    have hin : first ∈ (first :: rest).filter (·.pageNumber = first.pageNumber) :=
      List.mem_filter.2 ⟨List.mem_cons_self, decide_eq_true rfl⟩
    generalize (first :: rest).filter (·.pageNumber = first.pageNumber) = samePage at hin
    have hx : minOf (samePage.map (·.x)) ≤ maxOf (samePage.map fun box => box.x + box.width) :=
      calc minOf (samePage.map (·.x)) ≤ first.x := minOf_le (List.mem_map_of_mem hin)
        _ ≤ first.x + first.width := le_add_of_nonneg_right hwidth
        _ ≤ maxOf (samePage.map fun box => box.x + box.width) :=
          le_maxOf (List.mem_map.2 ⟨first, hin, rfl⟩)
    have hy : minOf (samePage.map (·.y)) ≤ maxOf (samePage.map fun box => box.y + box.height) :=
      calc minOf (samePage.map (·.y)) ≤ first.y := minOf_le (List.mem_map_of_mem hin)
        _ ≤ first.y + first.height := le_add_of_nonneg_right hheight
        _ ≤ maxOf (samePage.map fun box => box.y + box.height) :=
          le_maxOf (List.mem_map.2 ⟨first, hin, rfl⟩)
    rw [exists_checked]
    · exact ⟨_, rfl⟩
    · exact ⟨hpage, sub_nonneg.2 hx, sub_nonneg.2 hy⟩

/-- The highlight rectangles of a section whose polygons are on pages from 1. -/
theorem exists_pageBoxes {paragraphs : List Paragraph}
    (h : ∀ p ∈ paragraphs, 8 ≤ p.polygon.length → 1 ≤ p.pageNumber) :
    ∃ boxes, pageBoxes paragraphs = .ok boxes := by
  obtain ⟨boxes, hboxes⟩ :=
    Except.exists_mapM (f := Paragraph.box) fun p hp => exists_box (h p hp)
  have hmerge : ∀ page ∈ ((Dict.groupBy (·.pageNumber) id (boxes.filterMap id)).map
      (·.1)).insertionSort (· ≤ ·), ∃ merged, Coordinates.merge
        (((Dict.groupBy (·.pageNumber) id (boxes.filterMap id)).lookup page).getD []) =
          .ok merged := by
    intro page _
    rw [Dict.getD_groupBy]
    refine exists_merge fun box hbox => ?_
    obtain ⟨box', hin, rfl⟩ := List.mem_map.1 hbox
    obtain ⟨some', hsome, heq⟩ := List.mem_filterMap.1 (List.mem_of_mem_filter hin)
    obtain ⟨p, -, hp⟩ := (Except.mem_of_mapM hboxes).1 hsome
    exact valid_box (hp.trans (congrArg Except.ok heq))
  obtain ⟨merged, hmerged⟩ := Except.exists_mapM hmerge
  exact ⟨merged.filterMap id, Except.bind_eq_ok.2 ⟨boxes, hboxes,
    Except.bind_eq_ok.2 ⟨merged, hmerged, rfl⟩⟩⟩

/-! ## Chunks -/

structure Chunkable (part : List Paragraph) : Prop where
  nonempty : part ≠ []
  text : ∀ p ∈ part, Text.isBlank p.content = false
  page : ∀ p ∈ part, 8 ≤ p.polygon.length → 1 ≤ p.pageNumber

/-- A chunk shows its part: the text of each paragraph in order, the title of the heading, and the
range from the first to the last of the pages. -/
structure Shows (part : List Paragraph) (c : CandidateChunk) : Prop where
  text : c.text = "\n".intercalate (part.map fun p => Text.strip p.content)
  title : c.sectionTitle = (headingOf part).map fun p => Text.strip p.content
  pages : ∃ first last, c.pageStart = some first ∧ c.pageEnd = some last ∧
    (∃ p ∈ part, p.pageNumber = first) ∧ (∃ p ∈ part, p.pageNumber = last) ∧
    ∀ p ∈ part, first ≤ p.pageNumber ∧ p.pageNumber ≤ last

theorem strip_ne_empty {s : String} (h : Text.isBlank s = false) : Text.strip s ≠ "" := by
  intro hempty
  have hchars := congrArg String.toList hempty
  unfold Text.strip Text.trim at hchars
  rw [String.toList_ofList, String.toList_empty, List.reverse_eq_nil_iff,
    List.dropWhile_eq_nil_iff] at hchars
  have hall : ∀ c ∈ s.toList, Text.isSpace c = true := by
    intro c hc
    rw [← List.takeWhile_append_dropWhile (p := Text.isSpace) (l := s.toList)] at hc
    rcases List.mem_append.1 hc with hc | hc
    · exact List.mem_takeWhile_imp hc
    · exact hchars c (List.mem_reverse.2 hc)
  unfold Text.isBlank at h
  rw [List.all_eq_true.2 hall] at h
  cases h

theorem textOf_eq (h : Chunkable part) :
    textOf part = "\n".intercalate (part.map fun p => Text.strip p.content) ∧ textOf part ≠ "" := by
  have hkept : (part.map fun p => Text.strip p.content).filter (· ≠ "") =
      part.map fun p => Text.strip p.content := by
    refine List.filter_eq_self.2 fun s hs => ?_
    obtain ⟨p, hp, rfl⟩ := List.mem_map.1 hs
    exact decide_eq_true (strip_ne_empty (h.text p hp))
  unfold textOf
  rw [hkept]
  refine ⟨rfl, fun hempty => ?_⟩
  obtain ⟨p, rest, hpart⟩ := List.exists_cons_of_ne_nil h.nonempty
  have hp := strip_ne_empty (h.text p (hpart ▸ List.mem_cons_self))
  rw [hpart, List.map_cons] at hempty
  cases rest with
  | nil => exact hp (by simpa using hempty)
  | cons q rest =>
    rw [List.map_cons, String.intercalate_cons_cons] at hempty
    have hchars := congrArg String.toList hempty
    simp only [String.toList_append, String.toList_empty, List.append_eq_nil_iff,
      String.toList_eq_nil_iff] at hchars
    exact hp hchars.1.1

theorem exists_range (h : part ≠ []) : ∃ first last, (part.map (·.pageNumber)).min? = some first ∧
    (part.map (·.pageNumber)).max? = some last ∧
    (∃ p ∈ part, p.pageNumber = first) ∧ (∃ p ∈ part, p.pageNumber = last) ∧
    ∀ p ∈ part, first ≤ p.pageNumber ∧ p.pageNumber ≤ last := by
  have hne : part.map (·.pageNumber) ≠ [] := by simpa using h
  obtain ⟨first, hfirst⟩ := Option.isSome_iff_exists.1 (List.isSome_min?_of_ne_nil hne)
  obtain ⟨last, hlast⟩ := Option.isSome_iff_exists.1 (List.isSome_max?_of_ne_nil hne)
  obtain ⟨hin, hle⟩ := List.min?_eq_some_iff.1 hfirst
  obtain ⟨hin', hge⟩ := List.max?_eq_some_iff.1 hlast
  exact ⟨first, last, hfirst, hlast, List.mem_map.1 hin, List.mem_map.1 hin', fun p hp =>
    ⟨hle _ (List.mem_map_of_mem hp), hge _ (List.mem_map_of_mem hp)⟩⟩

theorem exists_toChunk (h : Chunkable part) (readingOrder : Nat) (suffix : String) :
    ∃ c, toChunk part readingOrder suffix = .ok (some c) ∧ Shows part c ∧
      c.readingOrder = readingOrder ∧
      c.chunkId = (part.head?.elim "" Paragraph.ref) ++ suffix := by
  obtain ⟨p, rest, rfl⟩ := List.exists_cons_of_ne_nil h.nonempty
  obtain ⟨htext, hne⟩ := textOf_eq h
  obtain ⟨boxes, hboxes⟩ := exists_pageBoxes h.page
  obtain ⟨first, last, hfirst, hlast, hpages⟩ := exists_range h.nonempty
  unfold toChunk
  dsimp only
  rw [if_neg hne]
  exact ⟨_, Except.bind_eq_ok.2 ⟨boxes, hboxes, rfl⟩,
    ⟨htext, rfl, first, last, hfirst, hlast, hpages⟩, rfl, rfl⟩

def idOf (count : Nat) (numbered : List Paragraph × Nat) : String :=
  (numbered.1.head?.elim "" Paragraph.ref) ++
    if 1 < count then "-" ++ toString numbered.2 else ""

structure Follow (start : Nat) (labelled : List (List Paragraph × String))
    (chunks : List CandidateChunk) : Prop where
  shows : List.Forall₂ (fun l c => Shows l.1 c) labelled chunks
  ids : chunks.map (·.chunkId) = labelled.map (·.2)
  order : chunks.map (·.readingOrder) = (List.range' (start + 1) chunks.length).map Int.ofNat

theorem Follow.append {start : Nat} {l l' : List (List Paragraph × String)}
    {cs cs' : List CandidateChunk} (h : Follow start l cs)
    (h' : Follow (start + cs.length) l' cs') :
    Follow start (l ++ l') (cs ++ cs') := by
  refine ⟨List.rel_append h.shows h'.shows, ?_, ?_⟩
  · rw [List.map_append, List.map_append, h.ids, h'.ids]
  · rw [List.map_append, h.order, h'.order, List.length_append, ← List.range'_append_1,
      List.map_append, Nat.add_right_comm]

theorem foldlM_addPart (count : Nat) {numbered : List (List Paragraph × Nat)}
    (chunks : List CandidateChunk) (h : ∀ n ∈ numbered, Chunkable n.1) :
    ∃ new, numbered.foldlM (addPart count) chunks = .ok (chunks ++ new) ∧
      Follow chunks.length (numbered.map fun n => (n.1, idOf count n)) new := by
  induction numbered generalizing chunks with
  | nil => exact ⟨[], by rw [List.append_nil]; rfl, .nil, rfl, rfl⟩
  | cons n numbered ih =>
    obtain ⟨c, hc, hshows, horder, hid⟩ := exists_toChunk (h n List.mem_cons_self)
      (chunks.length + 1) (if 1 < count then "-" ++ toString n.2 else "")
    obtain ⟨new, hnew, hfollow⟩ :=
      ih (chunks ++ [c]) fun n' hn' => h n' (List.mem_cons_of_mem n hn')
    refine ⟨c :: new, ?_, ?_⟩
    · have hone : addPart count chunks n = .ok (chunks ++ [c]) := by
        unfold addPart
        exact Except.bind_eq_ok.2 ⟨some c, hc, rfl⟩
      rw [List.foldlM_cons, hone]
      show numbered.foldlM (addPart count) (chunks ++ [c]) = _
      rw [hnew, List.append_assoc]
      rfl
    · have hfirst : Follow chunks.length [(n.1, idOf count n)] [c] :=
        ⟨.cons hshows .nil, congrArg (· :: []) hid, congrArg (· :: []) horder⟩
      rw [List.length_append] at hfollow
      exact hfirst.append hfollow

def Outline.labelled (o : Outline) : List (List Paragraph × String) :=
  (o.parts.zipIdx 1).map fun n => (n.1, idOf o.parts.length n)

theorem Outline.map_fst_labelled (o : Outline) : o.labelled.map (·.1) = o.parts := by
  unfold Outline.labelled
  rw [List.map_map]
  exact List.zipIdx_map_fst 1 o.parts

theorem foldlM_addSection {sections : List (List Paragraph)} {outlines : List Outline}
    (chunks : List CandidateChunk)
    (hcut : List.Forall₂ (fun s o => o.parts = splitOversized s) sections outlines)
    (h : ∀ o ∈ outlines, ∀ part ∈ o.parts, Chunkable part) :
    ∃ new, sections.foldlM addSection chunks = .ok (chunks ++ new) ∧
      Follow chunks.length (outlines.flatMap Outline.labelled) new := by
  induction hcut generalizing chunks with
  | nil => exact ⟨[], by rw [List.append_nil]; rfl, .nil, rfl, rfl⟩
  | @cons s o sections outlines hparts hcut ih =>
    have hnumbered : ∀ n ∈ (splitOversized s).zipIdx 1, Chunkable n.1 := fun n hn =>
      h o List.mem_cons_self n.1 (hparts ▸ List.fst_mem_of_mem_zipIdx hn)
    obtain ⟨first, hfirst, hfollow⟩ := foldlM_addPart (splitOversized s).length chunks hnumbered
    obtain ⟨new, hnew, hrest⟩ := ih (chunks ++ first) fun o' ho' =>
      h o' (List.mem_cons_of_mem o ho')
    refine ⟨first ++ new, ?_, ?_⟩
    · rw [List.foldlM_cons]
      exact Except.bind_eq_ok.2 ⟨chunks ++ first, hfirst, by rw [hnew, List.append_assoc]⟩
    · rw [List.length_append] at hrest
      rw [List.flatMap_cons]
      refine Follow.append ?_ hrest
      unfold Outline.labelled
      rw [hparts]
      exact hfollow

/-! ## Ids -/

/-- The suffix of an id: nothing, or the number of the part. -/
def IsSuffix (s : String) : Prop := s = "" ∨ ∃ k : Nat, s = "-" ++ toString k

theorem IsSuffix.head {s : String} (h : IsSuffix s) :
    ∀ c, s.toList.head? = some c → c.isDigit = false := by
  intro c hc
  rcases h with rfl | ⟨k, rfl⟩
  · cases hc
  · rw [String.toList_append] at hc
    cases hc
    decide

theorem ref_append_inj {p q : Paragraph} {s t : String} (hs : IsSuffix s) (ht : IsSuffix t)
    (h : p.ref ++ s = q.ref ++ t) : p.ref = q.ref ∧ s = t := by
  have hchars := congrArg String.toList h
  unfold Paragraph.ref at hchars
  simp only [String.toList_append, show ".".toList = ['.'] from rfl, List.append_assoc,
    List.singleton_append] at hchars
  obtain ⟨hpage, hrest⟩ := Text.split_inj (Text.notMem_toString_int (by decide) (by decide) _)
    (Text.notMem_toString_int (by decide) (by decide) _) hchars
  have hrest' : Nat.toDigits 10 p.index ++ s.toList = Nat.toDigits 10 q.index ++ t.toList := by
    rw [← Nat.toList_repr, ← Nat.toList_repr]
    exact hrest
  have hindex := Text.toDigits_inj hs.head ht.head hrest'
  rw [hindex] at hrest'
  refine ⟨?_, String.toList_inj.1 (List.append_cancel_left hrest')⟩
  unfold Paragraph.ref
  rw [Text.toString_int_inj hpage, hindex]

theorem isSuffix (count k : Nat) : IsSuffix (if 1 < count then "-" ++ toString k else "") := by
  split
  · exact .inr ⟨k, rfl⟩
  · exact .inl rfl

theorem toString_append_inj {i j : Nat} (h : "-" ++ toString i = "-" ++ toString j) : i = j := by
  have hchars := congrArg String.toList h
  rw [String.toList_append, String.toList_append] at hchars
  exact Text.repr_inj (List.append_cancel_left hchars)

theorem nodup_ids {o : Outline} (h : o.WellCut) : (o.labelled.map (·.2)).Nodup := by
  unfold Outline.labelled
  rw [List.map_map]
  by_cases hcount : 1 < o.parts.length
  · have hnumbers : ((o.parts.zipIdx 1).map (·.2)).Nodup := by
      rw [List.zipIdx_map_snd]
      exact List.nodup_range'
    refine List.pairwise_map.2 (((List.pairwise_map.1 hnumbers).imp_of_mem ?_))
    intro n n' hn hn' hne hid
    obtain ⟨p, rest, hp⟩ := List.exists_cons_of_ne_nil (h.parts n.1 (List.fst_mem_of_mem_zipIdx hn))
    obtain ⟨q, rest', hq⟩ :=
      List.exists_cons_of_ne_nil (h.parts n'.1 (List.fst_mem_of_mem_zipIdx hn'))
    simp only [Function.comp, idOf, hp, hq, List.head?_cons, Option.elim_some, if_pos hcount]
      at hid
    exact hne (toString_append_inj (ref_append_inj (.inr ⟨_, rfl⟩) (.inr ⟨_, rfl⟩) hid).2)
  · have hlength : ((o.parts.zipIdx 1).map
        ((fun l : List Paragraph × String => l.2) ∘ fun n => (n.1, idOf o.parts.length n))).length ≤
          1 := by
      rw [List.length_map, List.length_zipIdx]
      omega
    exact List.nodup_iff_getElem?_ne_getElem?.2 fun i j hij hj => by omega

theorem exists_ref_of_id {o : Outline} (h : o.WellCut) {id : String}
    (hid : id ∈ o.labelled.map (·.2)) :
    ∃ p ∈ o.paragraphs, ∃ suffix, IsSuffix suffix ∧ id = p.ref ++ suffix := by
  obtain ⟨l, hl, rfl⟩ := List.mem_map.1 hid
  obtain ⟨n, hn, rfl⟩ := List.mem_map.1 hl
  have hpart := List.fst_mem_of_mem_zipIdx hn
  obtain ⟨p, rest, hp⟩ := List.exists_cons_of_ne_nil (h.parts n.1 hpart)
  obtain ⟨body, hbody, heq⟩ := List.mem_map.1 hpart
  refine ⟨p, ?_, _, isSuffix o.parts.length n.2, ?_⟩
  · have hin : p ∈ o.heading.toList ++ body := by
      rw [heq, hp]
      exact List.mem_cons_self
    unfold Outline.paragraphs
    rcases List.mem_append.1 hin with hin | hin
    · exact List.mem_append_left _ hin
    · exact List.mem_append_right _ (List.mem_flatten_of_mem hbody hin)
  · unfold idOf
    rw [hp]
    rfl

/-- With distinct references, the ids of all sections are distinct. -/
theorem nodup_flatMap_ids {outlines : List Outline} (hcut : ∀ o ∈ outlines, o.WellCut)
    (hrefs : ((outlines.flatMap Outline.paragraphs).map (·.ref)).Nodup) :
    ((outlines.flatMap Outline.labelled).map (·.2)).Nodup := by
  rw [List.map_flatMap, List.nodup_flatMap] at hrefs ⊢
  refine ⟨fun o ho => nodup_ids (hcut o ho), hrefs.2.imp_of_mem ?_⟩
  intro o o' ho ho' hdisjoint id hid hid'
  obtain ⟨p, hp, suffix, hsuffix, heq⟩ := exists_ref_of_id (hcut o ho) hid
  obtain ⟨q, hq, suffix', hsuffix', heq'⟩ := exists_ref_of_id (hcut o' ho') hid'
  have href := (ref_append_inj hsuffix hsuffix' (heq ▸ heq')).1
  exact hdisjoint (List.mem_map_of_mem hp) (href ▸ List.mem_map_of_mem hq)

/-! ## The document -/

theorem exists_outlines {sections : List (List Paragraph)} (h : ∀ s ∈ sections, Headed s) :
    ∃ outlines : List Outline, (∀ o ∈ outlines, o.WellCut) ∧
      outlines.flatMap Outline.paragraphs = sections.flatten ∧
      List.Forall₂ (fun s o => o.parts = splitOversized s) sections outlines := by
  induction sections with
  | nil => exact ⟨[], by simp, rfl, .nil⟩
  | cons s sections ih =>
    obtain ⟨o, hcut, hparagraphs, hparts⟩ := splitOversized_spec (h s List.mem_cons_self)
    obtain ⟨outlines, hall, hflat, hforall⟩ := ih fun t ht => h t (List.mem_cons_of_mem s ht)
    refine ⟨o :: outlines, fun o' ho' => ?_, ?_, .cons hparts hforall⟩
    · rcases List.mem_cons.1 ho' with rfl | ho'
      · exact hcut
      · exact hall o' ho'
    · rw [List.flatMap_cons, hparagraphs, hflat, List.flatten_cons]

theorem mem_parts {outlines : List Outline} {o : Outline} (ho : o ∈ outlines)
    (hpart : part ∈ o.parts) {p : Paragraph} (hp : p ∈ part) :
    p ∈ outlines.flatMap Outline.paragraphs := by
  obtain ⟨body, hbody, rfl⟩ := List.mem_map.1 hpart
  refine List.mem_flatMap.2 ⟨o, ho, ?_⟩
  unfold Outline.paragraphs
  rcases List.mem_append.1 hp with hp | hp
  · exact List.mem_append_left _ hp
  · exact List.mem_append_right _ (List.mem_flatten_of_mem hbody hp)

/-- Section chunks lose nothing and keep the order: the outlines put the kept paragraphs back
together, each part of each is shown by one chunk, ids are distinct, and chunks are numbered from
1. A polygon must be on a page from 1, which its box requires. -/
theorem sectionChunks_lossless (paragraphs : List Paragraph)
    (hrefs : (paragraphs.map (·.ref)).Nodup)
    (hpages : ∀ p ∈ paragraphs, 8 ≤ p.polygon.length → 1 ≤ p.pageNumber) :
    ∃ (outlines : List Outline) (chunks : List CandidateChunk),
      sectionChunks paragraphs = .ok chunks ∧
      outlines.flatMap Outline.paragraphs = paragraphs.filter (fun p => !isDropped p) ∧
      (∀ o ∈ outlines, o.WellCut) ∧
      List.Forall₂ Shows (outlines.flatMap Outline.parts) chunks ∧
      (chunks.map (·.chunkId)).Nodup ∧
      chunks.map (·.readingOrder) = (List.range' 1 chunks.length).map Int.ofNat := by
  obtain ⟨hflat, hheaded⟩ := sections_spec paragraphs
  obtain ⟨outlines, hcut, hparagraphs, hforall⟩ := exists_outlines hheaded
  rw [hflat] at hparagraphs
  have hchunkable : ∀ o ∈ outlines, ∀ part ∈ o.parts, Chunkable part := by
    intro o ho part hpart
    have hkept : ∀ p ∈ part, p ∈ paragraphs ∧ isDropped p = false := by
      intro p hp
      have hin := mem_parts ho hpart hp
      rw [hparagraphs, List.mem_filter] at hin
      exact ⟨hin.1, by simpa using hin.2⟩
    refine ⟨(hcut o ho).parts part hpart, fun p hp => ?_, fun p hp => hpages p (hkept p hp).1⟩
    have hdropped := (hkept p hp).2
    unfold isDropped at hdropped
    exact (Bool.or_eq_false_iff.1 hdropped).2
  obtain ⟨chunks, hchunks, hfollow⟩ := foldlM_addSection [] hforall hchunkable
  refine ⟨outlines, chunks, hchunks, hparagraphs, hcut, ?_, ?_, hfollow.order⟩
  · have hparts : outlines.flatMap Outline.parts =
        (outlines.flatMap Outline.labelled).map (·.1) := by
      rw [List.map_flatMap]
      exact congrArg (outlines.flatMap ·) (funext fun o => o.map_fst_labelled.symm)
    rw [hparts, List.forall₂_map_left_iff]
    exact hfollow.shows
  · rw [hfollow.ids]
    refine nodup_flatMap_ids hcut ?_
    rw [hparagraphs]
    exact hrefs.sublist (List.filter_sublist.map _)

namespace Sample

/-- A preamble, a heading, its text, and a running foot. -/
def agreement : List Paragraph :=
  [{ pageNumber := 1, index := 1, role := none, content := "This Agreement" },
    { pageNumber := 1, index := 2, role := some "sectionHeading", content := "1. Term" },
    { pageNumber := 1, index := 3, role := some "pageFooter", content := "Page 1" },
    { pageNumber := 2, index := 1, role := none, content := "Twelve months." }]

end Sample

theorem sectionChunks_lossless_agreement :
    ∃ (outlines : List Outline) (chunks : List CandidateChunk),
      sectionChunks Sample.agreement = .ok chunks ∧
      outlines.flatMap Outline.paragraphs =
        Sample.agreement.filter (fun p => !isDropped p) ∧
      List.Forall₂ Shows (outlines.flatMap Outline.parts) chunks := by
  have hrefs : (Sample.agreement.map (·.ref)).Nodup := by decide +kernel
  have hpages : ∀ p ∈ Sample.agreement, 8 ≤ p.polygon.length → 1 ≤ p.pageNumber := by
    decide +kernel
  obtain ⟨outlines, chunks, hok, hflat, -, hshows, -⟩ :=
    sectionChunks_lossless Sample.agreement hrefs hpages
  exact ⟨outlines, chunks, hok, hflat, hshows⟩

end ExtractionStage

end Clear
