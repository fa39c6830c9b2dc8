import Clear.Ai.Cdm.Builder
import Clear.Core.Proof.Text
import Mathlib.Data.List.Forall2

/-!
# Clauses over page breaks

The clauses of a document are the longest runs of paragraphs in which each continues the one before
it. The merge loop compares a fragment with the paragraph it has assembled, whose page is that of the
first fragment; a canonical paragraph has one box; and the paragraphs are numbered again while tables
and lists keep the parser's numbers. So the canonical document is faithful exactly if no clause has a
third fragment, no fused fragments have boxes on two pages, and the new numbers leave the clauses
where they were among the tables and lists (`faithful_iff`).
-/

namespace Clear

namespace Builder

open Document

/-! ## What is promised -/

/-- A paragraph is made of fragments: it has their words, the identity of the first, and a box on
every page where a fragment has one. -/
structure Made (fragments : List Paragraph) (p : Paragraph) : Prop where
  words : Text.split p.text = fragments.flatMap fun x => Text.split x.text
  first : (fragments.map fun x => (x.paragraphId, x.pageNumber)).head? =
    some (p.paragraphId, p.pageNumber)
  boxes : ∀ x ∈ fragments, ∀ box ∈ x.coordinates,
    ∃ box' ∈ p.coordinates, box'.pageNumber = box.pageNumber

/-- Where the parser put an element. -/
def Element.place (e : Element) : Int ×ₗ Int := toLex (e.pageNumber, e.readingOrder)

namespace NormalizedDocument

variable (signals : Signals) (d : NormalizedDocument)

/-- The fragments of each clause. -/
def clauses : List (List Paragraph) :=
  (ordered d.paragraphs).splitBy (isContinuation signals)

/-- The elements as the parser gave them. -/
def parsed : List Element :=
  d.paragraphs.map .ofParagraph ++ (d.tables.map .ofTable ++ d.lists.map .ofList)

structure IsFaithful : Prop where
  paragraphs : List.Forall₂ Made (d.clauses signals) (d.canonical signals)
  listed : ((d.readingOrder signals).map fun e => (e.blockType, e.elementId)).Perm
    ((d.elements signals).map fun e => (e.blockType, e.elementId))
  order : (∀ e ∈ d.parsed, e.coordinates = none) →
    (d.readingOrder signals).Pairwise fun a b => ∀ x ∈ d.parsed, ∀ y ∈ d.parsed,
      a.elementId = x.elementId → b.elementId = y.elementId → x.place ≤ y.place

/-- The position that a clause is given among the elements of its page. -/
def number (i : Nat) (x : Paragraph) : Int := if d.paragraphs.length < 2 then x.readingOrder else i

/-- The numbers of the clauses compare with those of tables and lists as the parser's do. -/
def Interleaves : Prop :=
  ∀ i clause x, (d.clauses signals)[i]? = some clause → clause.head? = some x → ∀ t ∈ d.others,
    t.pageNumber = x.pageNumber →
    (toLex (d.number i x, x.paragraphId) < toLex (t.readingOrder, t.elementId) →
      x.readingOrder ≤ t.readingOrder) ∧
    (toLex (t.readingOrder, t.elementId) < toLex (d.number i x, x.paragraphId) →
      t.readingOrder ≤ x.readingOrder)

end NormalizedDocument

/-- A clause of two fragments ends there, for the parser and for the loop, and has no boxes on
different pages. -/
structure Settled (signals : Signals) (l : List Paragraph) : Prop where
  ends : ∀ x y z, [x, y, z] <:+: l → isContinuation signals x y = true →
    isContinuation signals y z = false ∧ isContinuation signals (fuse x y) z = false
  boxes : ∀ x y, [x, y] <:+: l → isContinuation signals x y = true →
    ∀ box ∈ x.coordinates, ∀ box' ∈ y.coordinates, box.pageNumber = box'.pageNumber

/-! ## Words -/

theorem wordsFrom_cons (word l : List Char) (c : Char) :
    Text.wordsFrom word (c :: l) =
      if Text.isSpace c then
        if word.isEmpty then Text.wordsFrom [] l
        else String.ofList word.reverse :: Text.wordsFrom [] l
      else Text.wordsFrom (c :: word) l := by
  cases word <;> rfl

theorem wordsFrom_append_space (word l m : List Char) :
    Text.wordsFrom word (l ++ ' ' :: m) = Text.wordsFrom word l ++ Text.wordsFrom [] m := by
  have hspace : Text.isSpace ' ' = true := by decide
  induction l generalizing word with
  | nil => cases word <;> simp [Text.wordsFrom, hspace]
  | cons c l ih =>
    rw [List.cons_append, wordsFrom_cons, wordsFrom_cons]
    split
    · split
      · exact ih []
      · rw [ih [], List.cons_append]
    · exact ih (c :: word)

theorem wordsFrom_dropWhile (l : List Char) :
    Text.wordsFrom [] (l.dropWhile Text.isSpace) = Text.wordsFrom [] l := by
  induction l with
  | nil => rfl
  | cons c l ih =>
    by_cases hc : Text.isSpace c = true
    · rw [List.dropWhile_cons_of_pos hc, ih]
      simp [Text.wordsFrom, hc]
    · rw [List.dropWhile_cons_of_neg hc]

theorem wordsFrom_append_spaces {spaces : List Char} (h : ∀ c ∈ spaces, Text.isSpace c = true)
    (word l : List Char) : Text.wordsFrom word (l ++ spaces) = Text.wordsFrom word l := by
  have hspaces : ∀ word, Text.wordsFrom word spaces = Text.wordsFrom word [] := by
    induction spaces with
    | nil => exact fun _ => rfl
    | cons c spaces ih =>
      intro word
      have := ih (fun c hc => h c (List.mem_cons_of_mem _ hc)) []
      cases word <;> simp [Text.wordsFrom, h c List.mem_cons_self, this]
  induction l generalizing word with
  | nil => exact hspaces word
  | cons c l ih =>
    rw [List.cons_append, wordsFrom_cons, wordsFrom_cons, ih, ih]

theorem split_fuse (x y : Paragraph) :
    Text.split (fuse x y).text = Text.split x.text ++ Text.split y.text := by
  have hx : x.text.toList = (x.text.toList.reverse.dropWhile Text.isSpace).reverse ++
      (x.text.toList.reverse.takeWhile Text.isSpace).reverse := by
    rw [← List.reverse_append, List.takeWhile_append_dropWhile, List.reverse_reverse]
  have hspaces : ∀ c ∈ (x.text.toList.reverse.takeWhile Text.isSpace).reverse,
      Text.isSpace c = true := fun c hc => List.mem_takeWhile_imp (List.mem_reverse.1 hc)
  have htext : (fuse x y).text.toList =
      (x.text.toList.reverse.dropWhile Text.isSpace).reverse ++
        ' ' :: y.text.toList.dropWhile Text.isSpace := by
    simp [fuse, rstrip, lstrip]
  unfold Text.split
  rw [htext, wordsFrom_append_space, wordsFrom_dropWhile]
  conv_rhs => rw [hx, wordsFrom_append_spaces hspaces]

theorem wordsFrom_ne_nil {c : Char} {word : List Char} (l : List Char) :
    Text.wordsFrom (c :: word) l ≠ [] := by
  induction l generalizing c word with
  | nil => simp [Text.wordsFrom]
  | cons d l ih =>
    rw [wordsFrom_cons]
    split
    · simp
    · exact ih

theorem split_ne_nil {s : String} (h : Text.strip s ≠ "") : Text.split s ≠ [] := by
  have hspaces : ∀ l : List Char, Text.wordsFrom [] l = [] → l.dropWhile Text.isSpace = [] := by
    intro l hl
    induction l with
    | nil => rfl
    | cons c l ih =>
      by_cases hc : Text.isSpace c = true
      · rw [List.dropWhile_cons_of_pos hc]
        exact ih (by simpa [Text.wordsFrom, hc] using hl)
      · simp only [Text.wordsFrom, hc] at hl
        exact absurd hl (wordsFrom_ne_nil l)
  intro hs
  apply h
  unfold Text.strip Text.trim
  rw [hspaces _ hs]
  rfl

/-! ## The merge loop -/

variable {signals : Signals} {x y z : Paragraph} {rest : List Paragraph}

theorem of_isContinuation (h : isContinuation signals x y = true) :
    y.pageNumber = x.pageNumber + 1 ∧ Text.split y.text ≠ [] := by
  unfold isContinuation at h
  simp only [Bool.and_eq_true, decide_eq_true_eq] at h
  exact ⟨h.1.1.1.1.1.1, split_ne_nil h.1.1.1.1.2⟩

theorem mergeFrom_cons (h : isContinuation signals x y = false) :
    (mergeFrom signals x (y :: rest)).1 = x :: (mergeFrom signals y rest).1 := by
  rw [mergeFrom, if_neg (by simp [h])]

theorem mergeFrom_fuse (h : isContinuation signals x y = true) :
    (mergeFrom signals x (y :: rest)).1 = (mergeFrom signals (fuse x y) rest).1 := by
  rw [mergeFrom, if_pos h]

/-- The words that are assembled stay in front. -/
theorem words_mergeFrom (signals : Signals) (rest : List Paragraph) (x : Paragraph) :
    ∃ p ps, (mergeFrom signals x rest).1 = p :: ps ∧
      Text.split x.text <+: Text.split p.text := by
  induction rest generalizing x with
  | nil => exact ⟨x, [], rfl, List.prefix_rfl⟩
  | cons y rest ih =>
    cases h : isContinuation signals x y with
    | true =>
      obtain ⟨p, ps, hp, hwords⟩ := ih (fuse x y)
      rw [split_fuse] at hwords
      exact ⟨p, ps, (mergeFrom_fuse h).trans hp, (List.prefix_append _ _).trans hwords⟩
    | false => exact ⟨x, _, mergeFrom_cons h, List.prefix_rfl⟩

theorem splitBy_cons {α : Type} {r : α → α → Bool} {a b : α} (h : r a b = true) (l : List α) :
    ∃ g gs, (b :: l).splitBy r = (b :: g) :: gs ∧ (a :: b :: l).splitBy r = (a :: b :: g) :: gs := by
  obtain ⟨hflatten, hne, hchain, hgs⟩ := (List.splitBy_eq_iff (m := b :: l)).1 rfl
  cases hsplit : (b :: l).splitBy r with
  | nil => exact absurd hsplit (by simp)
  | cons g gs =>
    rw [hsplit] at hflatten hne hchain hgs
    cases g with
    | nil => exact absurd List.mem_cons_self hne
    | cons b' g =>
      obtain ⟨rfl, hl⟩ := List.cons.inj hflatten
      refine ⟨g, gs, rfl, List.splitBy_eq_iff.2 ⟨?_, ?_, ?_, ?_⟩⟩
      · rw [hl]
        rfl
      · simpa using hne
      · intro m hm
        rcases List.mem_cons.1 hm with rfl | hm
        · exact List.isChain_cons_cons.2 ⟨h, hchain _ List.mem_cons_self⟩
        · exact hchain m (List.mem_cons_of_mem _ hm)
      · rw [List.isChain_cons] at hgs ⊢
        refine ⟨fun g' hg' => ?_, hgs.2⟩
        obtain ⟨_, hb, hr⟩ := hgs.1 g' hg'
        exact ⟨List.cons_ne_nil _ _, hb, by simpa using hr⟩

theorem made_self (x : Paragraph) : Made [x] x :=
  ⟨by simp, rfl, fun x' hx' box hbox => by
    rw [List.mem_singleton.1 hx'] at hbox
    exact ⟨box, hbox, rfl⟩⟩

theorem made_fuse : Made [x, y] (fuse x y) ↔
    ∀ box ∈ x.coordinates, ∀ box' ∈ y.coordinates, box.pageNumber = box'.pageNumber := by
  have hfirst : ∀ a boxes, ((groupByPage (a :: boxes)).head?).map (·.pageNumber) =
      some a.pageNumber := by
    intro a boxes
    simp [groupByPage, Sql.distinctOn, enclose]
  constructor
  · intro h box hbox box' hbox'
    obtain ⟨c, hc, hpage⟩ := h.boxes y (by simp) box' hbox'
    rw [← hpage]
    have := hfirst box y.coordinates.toList
    unfold fuse at hc
    rw [Option.mem_def.1 hbox] at hc
    rw [show (groupByPage (box :: y.coordinates.toList)).head? = some c from hc] at this
    exact (Option.some.inj this).symm
  · intro h
    refine ⟨by simp [split_fuse], rfl, fun f hf box hbox => ?_⟩
    show ∃ box' ∈ (groupByPage (x.coordinates.toList ++ y.coordinates.toList)).head?, _
    have hpages : ∀ a boxes, x.coordinates.toList ++ y.coordinates.toList = a :: boxes →
        a.pageNumber = box.pageNumber →
        ∃ box' ∈ (groupByPage (x.coordinates.toList ++ y.coordinates.toList)).head?,
          box'.pageNumber = box.pageNumber := by
      intro a boxes heq hpage
      have := hfirst a boxes
      rw [← heq] at this
      obtain ⟨c, hc, hcpage⟩ := Option.map_eq_some_iff.1 this
      exact ⟨c, hc, hcpage.trans hpage⟩
    rw [Option.mem_def] at hbox
    cases hx : x.coordinates with
    | some a =>
      rw [← hx]
      refine hpages a y.coordinates.toList (by rw [hx]; rfl) ?_
      rcases List.mem_cons.1 hf with rfl | hf
      · rw [hx] at hbox
        rw [Option.some.inj hbox]
      · rw [List.mem_singleton.1 hf] at hbox
        exact h a hx box hbox
    | none =>
      rw [← hx]
      rcases List.mem_cons.1 hf with rfl | hf
      · rw [hx] at hbox
        cases hbox
      · rw [List.mem_singleton.1 hf] at hbox
        exact hpages box [] (by rw [hx, hbox]; rfl) rfl

theorem settled_single : Settled signals [x] := by
  refine ⟨fun a b c h => ?_, fun a b h => ?_⟩
  · exact absurd h.length_le (by simp)
  · exact absurd h.length_le (by simp)

theorem settled_cons : Settled signals (x :: y :: rest) ↔
    (isContinuation signals x y = true →
      (∀ z ∈ rest.head?, isContinuation signals y z = false ∧
        isContinuation signals (fuse x y) z = false) ∧
      ∀ box ∈ x.coordinates, ∀ box' ∈ y.coordinates, box.pageNumber = box'.pageNumber) ∧
    Settled signals (y :: rest) := by
  constructor
  · intro h
    refine ⟨fun hxy => ⟨fun z hz => ?_, ?_⟩, ?_, ?_⟩
    · obtain ⟨tail, rfl⟩ : ∃ tail, rest = z :: tail := by
        cases rest with
        | nil => exact nomatch hz
        | cons z' tail => exact ⟨tail, by rw [Option.some.inj (Option.mem_def.1 hz)]⟩
      exact h.ends x y z ⟨[], tail, rfl⟩ hxy
    · exact h.boxes x y ⟨[], rest, rfl⟩ hxy
    · exact fun a b c habc => h.ends a b c (List.infix_cons_iff.2 (.inr habc))
    · exact fun a b hab => h.boxes a b (List.infix_cons_iff.2 (.inr hab))
  · rintro ⟨hfirst, h⟩
    refine ⟨fun a b c habc hab => ?_, fun a b habx hab => ?_⟩
    · rcases List.infix_cons_iff.1 habc with hpre | habc
      · obtain ⟨hax, hbc⟩ := List.cons_prefix_cons.1 hpre
        obtain ⟨hby, tail, hrest⟩ := List.cons_prefix_cons.1 hbc
        subst hax hby hrest
        exact (hfirst hab).1 c rfl
      · exact h.ends a b c habc hab
    · rcases List.infix_cons_iff.1 habx with hpre | habx
      · obtain ⟨hax, hb⟩ := List.cons_prefix_cons.1 hpre
        obtain ⟨hby, -⟩ := List.cons_prefix_cons.1 hb
        subst hax hby
        exact (hfirst hab).2
      · exact h.boxes a b habx hab

/-- The paragraphs of the loop are those of the clauses exactly if the fragments are settled. -/
theorem merged_iff (x : Paragraph) (rest : List Paragraph) :
    List.Forall₂ Made ((x :: rest).splitBy (isContinuation signals)) (mergeFrom signals x rest).1 ↔
      Settled signals (x :: rest) := by
  induction h : rest.length using Nat.strong_induction_on generalizing x rest with
  | _ n ih =>
  cases rest with
  | nil => exact iff_of_true (.cons (made_self x) .nil) settled_single
  | cons y rest =>
    cases hxy : isContinuation signals x y with
    | false =>
      have hsplit := List.splitBy_append_cons (r := isContinuation signals) (l := [x]) (a := y) rest
        (fun x' hx' => by rw [← Option.some.inj (Option.mem_def.1 hx')]; exact hxy)
      rw [show x :: y :: rest = [x] ++ y :: rest from rfl, hsplit,
        List.splitBy_of_isChain (List.cons_ne_nil x []) (List.isChain_singleton x),
        mergeFrom_cons hxy, List.singleton_append, List.forall₂_cons,
        ih rest.length (by rw [← h]; exact Nat.lt_succ_self _) y rest rfl, List.singleton_append,
        settled_cons, hxy]
      simp [made_self]
    | true =>
      obtain ⟨hpage, hy⟩ := of_isContinuation hxy
      rw [mergeFrom_fuse hxy]
      cases rest with
      | nil =>
        have hsplit := List.splitBy_of_isChain (r := isContinuation signals) (l := [x, y])
          (List.cons_ne_nil _ _) (List.isChain_pair.2 hxy)
        rw [hsplit, settled_cons, mergeFrom, List.forall₂_cons, made_fuse]
        simp [hxy, settled_single]
      | cons z rest =>
        cases hyz : isContinuation signals y z with
        | true =>
          -- The third fragment is on the second page after the first, so the loop leaves it out.
          obtain ⟨hpage', hz⟩ := of_isContinuation hyz
          have hfused : isContinuation signals (fuse x y) z = false := by
            by_contra hne
            obtain ⟨hpage'', -⟩ := of_isContinuation (by simpa using hne)
            have : (fuse x y).pageNumber = x.pageNumber := rfl
            omega
          obtain ⟨g, gs, hg, hsplit⟩ := splitBy_cons hxy (z :: rest)
          obtain ⟨g', gs', hg', hsplit'⟩ := splitBy_cons hyz rest
          rw [hg] at hsplit'
          obtain ⟨hcons, -⟩ := List.cons.inj hsplit'
          obtain ⟨-, rfl⟩ := List.cons.inj hcons
          rw [hsplit, mergeFrom_cons hfused, List.forall₂_cons]
          refine iff_of_false (fun hmade => ?_) (fun hsettled => ?_)
          · have hwords := congrArg List.length hmade.1.words
            rw [split_fuse] at hwords
            simp only [List.flatMap_cons, List.length_append] at hwords
            exact hz (List.eq_nil_of_length_eq_zero (by omega))
          · have := (hsettled.ends x y z ⟨[], rest, rfl⟩ hxy).1
            rw [hyz] at this
            exact absurd this (by simp)
        | false =>
          have hsplit := List.splitBy_append_cons (r := isContinuation signals) (l := [x, y])
            (a := z) rest
            (fun y' hy' => by rw [← Option.some.inj (Option.mem_def.1 hy')]; exact hyz)
          rw [List.splitBy_of_isChain (List.cons_ne_nil _ _) (List.isChain_pair.2 hxy)] at hsplit
          rw [show x :: y :: z :: rest = [x, y] ++ z :: rest from rfl, hsplit,
            List.singleton_append, show [x, y] ++ z :: rest = x :: y :: z :: rest from rfl]
          cases hfused : isContinuation signals (fuse x y) z with
          | true =>
            obtain ⟨-, hz⟩ := of_isContinuation hfused
            obtain ⟨p, ps, hp, hwords⟩ := words_mergeFrom signals rest
              (fuse (fuse x y) z)
            rw [mergeFrom_fuse hfused, hp, List.forall₂_cons]
            refine iff_of_false (fun hmade => ?_) (fun hsettled => ?_)
            · rw [split_fuse, split_fuse, hmade.1.words] at hwords
              have := hwords.length_le
              simp only [List.flatMap_cons, List.flatMap_nil, List.append_nil, List.length_append]
                at this
              exact hz (List.eq_nil_of_length_eq_zero (by omega))
            · have := (hsettled.ends x y z ⟨[], rest, rfl⟩ hxy).2
              rw [hfused] at this
              exact absurd this (by simp)
          | false =>
            rw [mergeFrom_cons hfused, List.forall₂_cons, made_fuse,
              ih rest.length (by rw [← h]; simp only [List.length_cons]; omega) z rest rfl,
              settled_cons, settled_cons]
            simp [hxy, hyz, hfused]

/-! ## The canonical paragraphs -/

theorem made_assign {sections : List Section} {fragments : List Paragraph} {p : Paragraph} :
    Made fragments (assignSection sections p) ↔ Made fragments p :=
  ⟨fun h => ⟨h.words, h.first, h.boxes⟩, fun h => ⟨h.words, h.first, h.boxes⟩⟩

theorem made_mapIdx {clauses : List (List Paragraph)} {paragraphs : List Paragraph}
    {f : Nat → Paragraph → Paragraph}
    (h : ∀ i p fragments, Made fragments (f i p) ↔ Made fragments p) :
    List.Forall₂ Made clauses (paragraphs.mapIdx f) ↔ List.Forall₂ Made clauses paragraphs := by
  induction paragraphs generalizing clauses f with
  | nil => rfl
  | cons p paragraphs ih =>
    rw [List.mapIdx_cons]
    cases clauses with
    | nil => exact iff_of_false (fun h => nomatch h) (fun h => nomatch h)
    | cons clause clauses =>
      rw [List.forall₂_cons, List.forall₂_cons, h, ih fun i => h (i + 1)]

variable {d : NormalizedDocument}

theorem ordered_perm (paragraphs : List Paragraph) : (ordered paragraphs).Perm paragraphs :=
  (Sql.OrderBy.answers_sort _ _).perm

open NormalizedDocument

theorem canonical_iff :
    List.Forall₂ Made (d.clauses signals) (d.canonical signals) ↔
      Settled signals (ordered d.paragraphs) := by
  have hperm := ordered_perm d.paragraphs
  unfold canonical clauses
  rw [List.forall₂_map_right_iff]
  simp only [made_assign]
  unfold mergeContinuations
  split
  next hlt =>
    cases hd : d.paragraphs with
    | nil =>
      rw [hd] at hperm
      rw [hperm.eq_nil]
      refine iff_of_true .nil ⟨fun x y z h => ?_, fun x y h => ?_⟩
      · exact absurd h.length_le (by simp)
      · exact absurd h.length_le (by simp)
    | cons p tail =>
      rw [hd] at hperm hlt
      rw [List.length_cons] at hlt
      obtain rfl : tail = [] := List.eq_nil_of_length_eq_zero (by omega)
      rw [List.perm_singleton.1 hperm]
      exact iff_of_true (.cons (made_self p) .nil) settled_single
  next hlt =>
    cases ho : ordered d.paragraphs with
    | nil =>
      rw [ho] at hperm
      exact absurd hperm.length_eq (by simp only [List.length_nil]; omega)
    | cons first rest =>
      refine Iff.trans (made_mapIdx fun i p fragments => ?_) (merged_iff first rest)
      exact ⟨fun h => ⟨h.words, h.first, h.boxes⟩, fun h => ⟨h.words, h.first, h.boxes⟩⟩

/-! ## The order of the elements -/

theorem mergeFrom_coordinates (rest : List Paragraph) (h : x.coordinates = none)
    (hrest : ∀ y ∈ rest, y.coordinates = none) :
    ∀ p ∈ (mergeFrom signals x rest).1, p.coordinates = none := by
  induction rest generalizing x with
  | nil =>
    intro p hp
    rw [List.mem_singleton.1 hp]
    exact h
  | cons y rest ih =>
    have hy := hrest y List.mem_cons_self
    have hrest' : ∀ y ∈ rest, y.coordinates = none := fun z hz => hrest z (List.mem_cons_of_mem _ hz)
    cases hxy : isContinuation signals x y with
    | true =>
      rw [mergeFrom_fuse hxy]
      refine ih ?_ hrest'
      simp [fuse, h, hy, groupByPage, Sql.distinctOn]
    | false =>
      rw [mergeFrom_cons hxy]
      intro p hp
      rcases List.mem_cons.1 hp with rfl | hp
      · exact h
      · exact ih hy hrest' p hp

theorem canonical_coordinates (h : ∀ p ∈ d.paragraphs, p.coordinates = none) :
    ∀ p ∈ d.canonical signals, p.coordinates = none := by
  have hordered : ∀ p ∈ ordered d.paragraphs, p.coordinates = none :=
    fun p hp => h p ((ordered_perm _).mem_iff.1 hp)
  intro p hp
  obtain ⟨q, hq, rfl⟩ := List.mem_map.1 hp
  show q.coordinates = none
  unfold mergeContinuations at hq
  split at hq
  · exact h q hq
  · cases ho : ordered d.paragraphs with
    | nil => simp [ho] at hq
    | cons first rest =>
      rw [ho] at hq hordered
      obtain ⟨i, hi, rfl⟩ := List.mem_mapIdx.1 hq
      have hq' : ((mergeFrom signals first rest).1[i]).coordinates = none :=
        mergeFrom_coordinates rest (hordered _ List.mem_cons_self)
          (fun y hy => hordered y (List.mem_cons_of_mem _ hy)) _ (List.getElem_mem hi)
      exact hq'

theorem mem_paragraphs {clause : List Paragraph} (h : clause ∈ d.clauses signals)
    (hx : clause.head? = some x) : x ∈ d.paragraphs := by
  have hmem : x ∈ (d.clauses signals).flatten :=
    List.mem_flatten.2 ⟨clause, h, List.mem_of_mem_head? hx⟩
  unfold clauses at hmem
  rw [List.flatten_splitBy] at hmem
  exact (ordered_perm _).mem_iff.1 hmem

/-- A canonical paragraph has the identity of the first fragment of its clause, and its number. -/
theorem canonical_get (h : List.Forall₂ Made (d.clauses signals) (d.canonical signals)) {i : Nat}
    {p : Paragraph} (hp : (d.canonical signals)[i]? = some p) :
    ∃ clause x, (d.clauses signals)[i]? = some clause ∧ clause.head? = some x ∧
      x.paragraphId = p.paragraphId ∧ x.pageNumber = p.pageNumber ∧
      p.readingOrder = d.number i x := by
  obtain ⟨hi, hp'⟩ := List.getElem?_eq_some_iff.1 hp
  have hi' : i < (d.clauses signals).length := h.length_eq ▸ hi
  have hmade := h.get hi' hi
  rw [List.get_eq_getElem, List.get_eq_getElem] at hmade
  obtain ⟨x, hx, hpx⟩ : ∃ x, ((d.clauses signals)[i]).head? = some x ∧
      (x.paragraphId, x.pageNumber) = (p.paragraphId, p.pageNumber) := by
    have := hmade.first
    rw [List.head?_map, Option.map_eq_some_iff] at this
    obtain ⟨x, hx, hpx⟩ := this
    exact ⟨x, hx, by rw [hpx]; simp [hp']⟩
  obtain ⟨hid, hpage⟩ := Prod.mk.inj hpx
  refine ⟨_, x, List.getElem?_eq_getElem hi', hx, hid, hpage, ?_⟩
  unfold canonical at hp
  rw [List.getElem?_map, Option.map_eq_some_iff] at hp
  obtain ⟨q, hq, rfl⟩ := hp
  show q.readingOrder = _
  unfold NormalizedDocument.number
  unfold mergeContinuations at hq
  split at hq
  next hlt =>
    rw [if_pos hlt]
    have hqmem : q ∈ d.paragraphs := List.mem_of_getElem? hq
    have hxmem : x ∈ d.paragraphs := mem_paragraphs (List.getElem_mem hi') hx
    obtain ⟨a, ha⟩ : ∃ a, d.paragraphs = [a] := by
      rw [← List.length_eq_one_iff]
      have := List.length_pos_of_mem hqmem
      omega
    rw [ha, List.mem_singleton] at hqmem hxmem
    rw [hqmem, hxmem]
  next hlt =>
    rw [if_neg hlt]
    cases ho : ordered d.paragraphs with
    | nil => simp [ho] at hq
    | cons first rest =>
      rw [ho] at hq
      dsimp only at hq
      rw [List.getElem?_mapIdx, Option.map_eq_some_iff] at hq
      obtain ⟨_, -, rfl⟩ := hq
      rfl

/-- Without coordinates the elements of a page are sorted by their numbers, then by their ids. -/
theorem key_lt {a b : Element} (ha : a.coordinates = none) (hb : b.coordinates = none) :
    a.key < b.key ↔ a.pageNumber < b.pageNumber ∨ a.pageNumber = b.pageNumber ∧
      toLex (a.readingOrder, a.elementId) < toLex (b.readingOrder, b.elementId) := by
  unfold Element.key
  rw [ha, hb]
  simp only [Option.map_none, Option.getD_none, Prod.Lex.toLex_lt_toLex, Int.cast_lt, Int.cast_inj,
    lt_irrefl, false_or, true_and]
  constructor
  · rintro (h | ⟨h, h' | ⟨h', h''⟩⟩)
    · exact .inl h
    · exact .inr ⟨h, .inl h'⟩
    · exact .inr ⟨h, h''⟩
  · rintro (h | ⟨h, h' | ⟨h', h''⟩⟩)
    · exact .inl h
    · exact .inr ⟨h, .inl h'⟩
    · exact .inr ⟨h, .inr ⟨h', .inr ⟨h', h''⟩⟩⟩

theorem place_le {a b : Element} : a.place ≤ b.place ↔
    a.pageNumber < b.pageNumber ∨ a.pageNumber = b.pageNumber ∧ a.readingOrder ≤ b.readingOrder :=
  Prod.Lex.toLex_le_toLex

theorem parsed_nodup (d : NormalizedDocument) : (d.parsed.map (·.elementId)).Nodup := by
  unfold parsed
  rw [List.map_append, List.map_append, List.map_map, List.map_map, List.map_map]
  exact d.nodup

/-- Tables and lists are as the parser gave them, up to the section. -/
theorem exists_parsed {t : Element} (h : t ∈ d.others) :
    ∃ x ∈ d.parsed, x.elementId = t.elementId ∧ x.place = t.place ∧
      x.coordinates = t.coordinates := by
  unfold others at h
  unfold parsed
  rcases List.mem_append.1 h with h | h
  · obtain ⟨table, htable, rfl⟩ := List.mem_map.1 h
    exact ⟨.ofTable table, List.mem_append_right _ (List.mem_append_left _
      (List.mem_map_of_mem htable)), rfl, rfl, rfl⟩
  · obtain ⟨l, hl, rfl⟩ := List.mem_map.1 h
    exact ⟨.ofList l, List.mem_append_right _ (List.mem_append_right _
      (List.mem_map_of_mem hl)), rfl, rfl, rfl⟩

/-- The element of the parser behind an element of the canonical document: a table or list, or the
first fragment of a clause. -/
inductive Behind (signals : Signals) (d : NormalizedDocument) : Element → Element → Prop
  | other {t x : Element} (ht : t ∈ d.others) (hplace : x.place = t.place) : Behind signals d t x
  | clause {i : Nat} {clause : List Paragraph} {x : Paragraph} {e : Element}
      (hi : (d.clauses signals)[i]? = some clause) (hx : clause.head? = some x)
      (hid : x.paragraphId = e.elementId) (hpage : x.pageNumber = e.pageNumber)
      (hnumber : e.readingOrder = d.number i x) : Behind signals d e (.ofParagraph x)

theorem exists_behind (h : List.Forall₂ Made (d.clauses signals) (d.canonical signals))
    {e : Element} (he : e ∈ d.elements signals) :
    ∃ x ∈ d.parsed, e.elementId = x.elementId ∧ Behind signals d e x := by
  rcases List.mem_append.1 he with he | he
  · obtain ⟨p, hp, rfl⟩ := List.mem_map.1 he
    obtain ⟨i, hi⟩ := List.mem_iff_getElem?.1 hp
    obtain ⟨clause, x, hclause, hx, hid, hpage, hnumber⟩ := canonical_get h hi
    refine ⟨.ofParagraph x, ?_, hid.symm, .clause hclause hx hid hpage hnumber⟩
    unfold parsed
    exact List.mem_append_left _
      (List.mem_map_of_mem (mem_paragraphs (List.mem_of_getElem? hclause) hx))
  · obtain ⟨x, hx, hid, hplace, -⟩ := exists_parsed he
    exact ⟨x, hx, hid.symm, .other he hplace⟩

theorem map_mapIdx {α β γ : Type} {f : Nat → α → β} {g : β → γ} {h : α → γ}
    (hf : ∀ i a, g (f i a) = h a) (l : List α) : (l.mapIdx f).map g = l.map h := by
  induction l generalizing f with
  | nil => rfl
  | cons a l ih => rw [List.mapIdx_cons, List.map_cons, List.map_cons, hf, ih fun i => hf (i + 1)]

/-- What an entry takes from its element is in the order of the sorted elements. -/
theorem map_readingOrder {γ : Type} {g : ReadingOrderEntry → γ} {h : Element → γ}
    (elements : List Element) (hg : ∀ i e, g (entry i e) = h e) :
    (buildReadingOrder elements).map g = ((Sql.OrderBy.asc Element.key).sort elements).map h :=
  map_mapIdx hg _

theorem ids_canonical {clauses : List (List Paragraph)} {paragraphs : List Paragraph}
    (h : List.Forall₂ Made clauses paragraphs) :
    (paragraphs.map (·.paragraphId)).Sublist (clauses.flatten.map (·.paragraphId)) := by
  induction h with
  | nil => exact .refl _
  | @cons clause p clauses paragraphs hmade _ ih =>
    cases clause with
    | nil => exact nomatch hmade.first
    | cons x clause =>
      have hid : x.paragraphId = p.paragraphId := (Prod.mk.inj (Option.some.inj hmade.first)).1
      rw [List.map_cons, List.flatten_cons, List.cons_append, List.map_cons, hid, List.map_append]
      exact (ih.trans (List.sublist_append_right _ _)).cons_cons _

theorem keys_nodup (h : List.Forall₂ Made (d.clauses signals) (d.canonical signals)) :
    ((d.elements signals).map Element.key).Nodup := by
  have hsub := ids_canonical h
  unfold clauses at hsub
  rw [List.flatten_splitBy] at hsub
  have hids : ((d.elements signals).map (·.elementId)).Nodup := by
    have hperm := ((ordered_perm d.paragraphs).map (·.paragraphId)).append_right
      (d.tables.map (·.tableId) ++ d.lists.map (·.listId))
    have := (hsub.append_right (d.tables.map (·.tableId) ++ d.lists.map (·.listId))).nodup
      (hperm.nodup_iff.2 d.nodup)
    unfold elements others
    simp only [List.map_append, List.map_map]
    exact this
  refine List.Nodup.of_map (fun key => (ofLex (ofLex (ofLex (ofLex key).2).2).2).2) ?_
  rw [List.map_map]
  exact hids

/-- The first fragments of the clauses are in the order of the parser. -/
theorem clauses_sorted {i j : Nat} {clause clause' : List Paragraph}
    (hi : (d.clauses signals)[i]? = some clause) (hj : (d.clauses signals)[j]? = some clause')
    (hx : clause.head? = some x) (hy : clause'.head? = some y) (hij : i < j) :
    (Element.ofParagraph x).place ≤ (Element.ofParagraph y).place := by
  have hsorted : (ordered d.paragraphs).Pairwise fun x y =>
      (Element.ofParagraph x).place ≤ (Element.ofParagraph y).place :=
    (Sql.OrderBy.answers_sort _ _).sorted.imp fun h => by
      simp only [Sql.OrderBy.asc, decide_eq_true_eq] at h
      exact h
  have hflatten : (d.clauses signals).flatten = ordered d.paragraphs := List.flatten_splitBy _ _
  rw [← hflatten, List.pairwise_flatten] at hsorted
  obtain ⟨hi', rfl⟩ := List.getElem?_eq_some_iff.1 hi
  obtain ⟨hj', rfl⟩ := List.getElem?_eq_some_iff.1 hj
  exact List.pairwise_iff_getElem.1 hsorted.2 i j hi' hj' hij x (List.mem_of_mem_head? hx) y
    (List.mem_of_mem_head? hy)

theorem elements_coordinates (signals : Signals) (h : ∀ e ∈ d.parsed, e.coordinates = none) :
    ∀ e ∈ d.elements signals, e.coordinates = none := by
  intro e he
  rcases List.mem_append.1 he with he | he
  · obtain ⟨p, hp, rfl⟩ := List.mem_map.1 he
    refine canonical_coordinates (fun q hq => ?_) p hp
    exact h (.ofParagraph q) (List.mem_append_left _ (List.mem_map_of_mem hq))
  · obtain ⟨x, hx, -, -, hcoordinates⟩ := exists_parsed he
    rw [← hcoordinates]
    exact h x hx

/-- Elements in the order of the canonical numbers are in the order of the parser. -/
theorem place_of_key (hinterleaves : d.Interleaves signals) {a b x y : Element}
    (ha : a.coordinates = none) (hb : b.coordinates = none) (hab : a.key < b.key)
    (hax : Behind signals d a x) (hby : Behind signals d b y) : x.place ≤ y.place := by
  rw [key_lt ha hb] at hab
  cases hax with
  | other hat hxa =>
    cases hby with
    | other hbt hyb =>
      rw [hxa, hyb, place_le]
      rcases hab with hab | ⟨hpage, hab⟩
      · exact .inl hab
      · refine .inr ⟨hpage, ?_⟩
        rcases Prod.Lex.toLex_lt_toLex.1 hab with hlt | heq
        · exact hlt.le
        · exact heq.1.le
    | @clause i clause y b hi hy hid hpage hnumber =>
      rw [hxa, place_le]
      rcases hab with hab | ⟨hab, hlt⟩
      · exact .inl (hab.trans_eq hpage.symm)
      · refine .inr ⟨hab.trans hpage.symm, ?_⟩
        rw [hnumber, ← hid] at hlt
        exact (hinterleaves i clause y hi hy a hat (hab.trans hpage.symm)).2 hlt
  | @clause i clause x a hi hx hid hpage hnumber =>
    cases hby with
    | other hbt hyb =>
      rw [hyb, place_le]
      rcases hab with hab | ⟨hab, hlt⟩
      · exact .inl (hpage.trans_lt hab)
      · refine .inr ⟨hpage.trans hab, ?_⟩
        rw [hnumber, ← hid] at hlt
        exact (hinterleaves i clause x hi hx b hbt (hpage.trans hab).symm).1 hlt
    | @clause j clause' y b hj hy hid' hpage' hnumber' =>
      rcases hab with hab | ⟨hab, hlt⟩
      · rw [place_le]
        exact .inl ((hpage.trans_lt hab).trans_eq hpage'.symm)
      · have hnumbers : a.readingOrder ≤ b.readingOrder := by
          rcases Prod.Lex.toLex_lt_toLex.1 hlt with hlt | heq
          · exact hlt.le
          · exact heq.1.le
        rw [hnumber, hnumber'] at hnumbers
        unfold NormalizedDocument.number at hnumbers
        split at hnumbers
        · rw [place_le]
          exact .inr ⟨hpage.trans (hab.trans hpage'.symm), hnumbers⟩
        · rcases Nat.eq_or_lt_of_le (Int.ofNat_le.1 hnumbers) with rfl | hij
          · rw [hi] at hj
            cases hj
            rw [hx] at hy
            cases hy
            exact le_rfl
          · exact clauses_sorted hi hj hx hy hij

/-- Where the clauses are right, the reading order is that of the parser exactly if the numbers of
the clauses fit those of the tables and lists. -/
theorem order_iff (h : List.Forall₂ Made (d.clauses signals) (d.canonical signals))
    (hnone : ∀ e ∈ d.parsed, e.coordinates = none) :
    ((d.readingOrder signals).Pairwise fun a b => ∀ x ∈ d.parsed, ∀ y ∈ d.parsed,
      a.elementId = x.elementId → b.elementId = y.elementId → x.place ≤ y.place) ↔
      d.Interleaves signals := by
  have hcoordinates := elements_coordinates signals hnone
  have hunique : ∀ x ∈ d.parsed, ∀ y ∈ d.parsed, x.elementId = y.elementId → x = y :=
    fun x hx y hy hxy => List.inj_on_of_nodup_map (parsed_nodup d) hx hy hxy
  have hentries : (d.readingOrder signals).map (·.elementId) =
      ((Sql.OrderBy.asc Element.key).sort (d.elements signals)).map (·.elementId) :=
    map_readingOrder _ fun _ _ => rfl
  rw [← List.pairwise_map (f := ReadingOrderEntry.elementId) (R := fun s t => ∀ x ∈ d.parsed,
    ∀ y ∈ d.parsed, s = x.elementId → t = y.elementId → x.place ≤ y.place), hentries,
    List.pairwise_map, Sql.OrderBy.pairwise_sort_asc (keys_nodup h)]
  constructor
  · intro horder i clause x hi hx t ht hpage
    obtain ⟨y, hy, hyid, hyplace, -⟩ := exists_parsed ht
    have hxparsed : Element.ofParagraph x ∈ d.parsed :=
      List.mem_append_left _ (List.mem_map_of_mem (mem_paragraphs (List.mem_of_getElem? hi) hx))
    have hilt : i < (d.canonical signals).length :=
      h.length_eq ▸ (List.getElem?_eq_some_iff.1 hi).1
    obtain ⟨clause', x', hi', hx', hid, hpage', hnumber⟩ :=
      canonical_get h (List.getElem?_eq_getElem hilt)
    rw [hi] at hi'
    cases hi'
    rw [hx] at hx'
    cases hx'
    have he : Element.ofParagraph (d.canonical signals)[i] ∈ d.elements signals :=
      List.mem_append_left _ (List.mem_map_of_mem (List.getElem_mem hilt))
    have ht' : t ∈ d.elements signals := List.mem_append_right _ ht
    have hkeys := key_lt (hcoordinates _ he) (hcoordinates _ ht')
    have hkeys' := key_lt (hcoordinates _ ht') (hcoordinates _ he)
    have hread : (Element.ofParagraph (d.canonical signals)[i]).readingOrder = d.number i x :=
      hnumber
    have helement : (Element.ofParagraph (d.canonical signals)[i]).elementId = x.paragraphId :=
      hid.symm
    have hpages : (Element.ofParagraph (d.canonical signals)[i]).pageNumber = t.pageNumber :=
      hpage'.symm.trans hpage.symm
    rw [hread, helement] at hkeys hkeys'
    constructor
    · intro hlt
      have := horder _ he _ ht' (hkeys.2 (.inr ⟨hpages, hlt⟩)) _ hxparsed _ hy helement hyid.symm
      rw [hyplace, place_le] at this
      exact (this.resolve_left (hpage ▸ lt_irrefl _)).2
    · intro hlt
      have := horder _ ht' _ he (hkeys'.2 (.inr ⟨hpages.symm, hlt⟩)) _ hy _ hxparsed hyid.symm
        helement
      rw [hyplace, place_le] at this
      exact (this.resolve_left (hpage ▸ lt_irrefl _)).2
  · intro hinterleaves a ha b hb hab x hx y hy hax hby
    obtain ⟨x', hx', hax', hxbehind⟩ := exists_behind h ha
    obtain ⟨y', hy', hby', hybehind⟩ := exists_behind h hb
    rw [hunique x hx x' hx' (hax.symm.trans hax'), hunique y hy y' hy' (hby.symm.trans hby')]
    exact place_of_key hinterleaves (hcoordinates a ha) (hcoordinates b hb) hab hxbehind hybehind

/-- The canonical document is faithful exactly if the clauses are settled and, where nothing has
coordinates, the numbers of the clauses fit those of the tables and lists. -/
theorem faithful_iff (signals : Signals) (d : NormalizedDocument) :
    d.IsFaithful signals ↔ Settled signals (ordered d.paragraphs) ∧
      ((∀ e ∈ d.parsed, e.coordinates = none) → d.Interleaves signals) := by
  constructor
  · intro h
    refine ⟨canonical_iff.1 h.paragraphs, fun hnone => ?_⟩
    exact (order_iff h.paragraphs hnone).1 (h.order hnone)
  · intro h
    have hparagraphs := canonical_iff.2 h.1
    refine ⟨hparagraphs, ?_, fun hnone => (order_iff hparagraphs hnone).2 (h.2 hnone)⟩
    have hentries : (d.readingOrder signals).map (fun e => (e.blockType, e.elementId)) =
        ((Sql.OrderBy.asc Element.key).sort (d.elements signals)).map
          fun e => (e.blockType, e.elementId) :=
      map_readingOrder _ fun _ _ => rfl
    rw [hentries]
    exact (Sql.OrderBy.answers_sort _ _).perm.map _

/-- Without references and numbered clauses. -/
def Signals.plain : Signals := { lower := Text.lower, isReference _ := false, isNumbered _ := false }

def fragment (page : Int) (text : String) : Paragraph :=
  { paragraphId := text, text, pageNumber := page }

/-- A clause over three pages becomes two paragraphs. -/
theorem three_pages_fails :
    ¬ NormalizedDocument.IsFaithful .plain
      { paragraphs := [fragment 1 "The buyer", fragment 2 "shall pay", fragment 3 "the price."] } := by
  intro h
  have hsettled := canonical_iff.1 h.paragraphs
  have hinfix : [fragment 1 "The buyer", fragment 2 "shall pay", fragment 3 "the price."] <:+:
      ordered [fragment 1 "The buyer", fragment 2 "shall pay", fragment 3 "the price."] :=
    ⟨[], [], by decide +kernel⟩
  have hends := (hsettled.ends _ _ _ hinfix (by decide +kernel)).1
  exact absurd hends (by decide +kernel)

end Builder

end Clear
