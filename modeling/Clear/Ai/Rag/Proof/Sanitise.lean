import Clear.Ai.Rag.Proof.Evidence
import Mathlib.Data.List.Chain

/-!
# Sanitised passages

`sanitise_evidence` of `app/ai/rag/sanitise.py` takes a passage to its NFKC form before it removes
the invisible characters, so what they kept apart is left uncomposed: sanitising again changes the
passage exactly when a stretch between its delimiters is then no longer in NFKC (`closed_iff`). The
detector reads the NFKC form itself and misses the delimiters that hold a control character
(`agrees_iff`).

* `Nfkc`: what is documented of NFKC normalization.
-/

namespace Clear

namespace Sanitise

def Normal (nfkc : String → String) (l : List Char) : Prop :=
  nfkc (String.ofList l) = String.ofList l

/-- Starters that compose with nothing: white space and controls (those that are in NFKC), and the
brackets of the marker. -/
def isInert (c : Char) : Bool := Text.isSpace c || isControl c || c = '[' || c = ']'

/-- What the standard says of NFKC: it is stable, on ASCII it changes nothing, the texts in it are
closed under parts and under being joined by an inert character, and it introduces no invisible
character. -/
structure Nfkc (nfkc : String → String) : Prop where
  stable : ∀ text, Normal nfkc (nfkc text).toList
  ascii : ∀ l : List Char, (∀ c ∈ l, c.toNat < 128) → Normal nfkc l
  parts : ∀ xs ys, Normal nfkc (xs ++ ys) → Normal nfkc xs ∧ Normal nfkc ys
  join : ∀ (xs : List Char) (c : Char) (ys : List Char), isInert c = true →
    Normal nfkc xs → Normal nfkc [c] → Normal nfkc ys → Normal nfkc (xs ++ c :: ys)
  visible : ∀ text, ∀ c ∈ (nfkc text).toList, isInvisible c = true → c ∈ text.toList

variable {nfkc : String → String}

namespace Nfkc

variable (h : Nfkc nfkc)

include h

theorem nil : Normal nfkc [] := h.ascii [] nofun

theorem all_ascii {l : List Char} (hl : l.all (·.toNat < 128) = true) : Normal nfkc l :=
  h.ascii l fun c hc => by simpa using List.all_eq_true.1 hl c hc

theorem single {l : List Char} (hl : Normal nfkc l) {c : Char} (hc : c ∈ l) :
    Normal nfkc [c] := by
  obtain ⟨xs, ys, rfl⟩ := List.append_of_mem hc
  exact (h.parts [c] ys (h.parts xs (c :: ys) hl).2).1

theorem cut {c : Char} (hc : isInert c = true) (hsingle : Normal nfkc [c]) (xs ys : List Char) :
    Normal nfkc (xs ++ c :: ys) ↔ Normal nfkc xs ∧ Normal nfkc ys := by
  constructor
  · intro hl
    have hparts := h.parts xs (c :: ys) hl
    exact ⟨hparts.1, (h.parts [c] ys hparts.2).2⟩
  · exact fun hparts => h.join xs c ys hc hparts.1 hsingle hparts.2

theorem glue (xs ys : List Char) :
    Normal nfkc (xs ++ (redacted.toList ++ ys)) ↔ Normal nfkc xs ∧ Normal nfkc ys := by
  have hopen := h.cut (c := '[') rfl (h.all_ascii (by decide))
  have hclose := h.cut (c := ']') rfl (h.all_ascii (by decide))
  have hmarker : redacted.toList = '[' :: ("removed: markup".toList ++ [']']) := by decide
  rw [hmarker, List.cons_append, List.append_assoc, hopen, List.singleton_append, hclose]
  exact and_congr_right fun _ => and_iff_right (h.all_ascii (by decide))

theorem lead {before l : List Char}
    (hbefore : ∀ c ∈ before, isInert c = true ∧ Normal nfkc [c]) :
    Normal nfkc (before ++ l) ↔ Normal nfkc l := by
  induction before with
  | nil => exact Iff.rfl
  | cons c before ih =>
    obtain ⟨hc, hsingle⟩ := hbefore c List.mem_cons_self
    rw [List.cons_append, ← ih fun x hx => hbefore x (List.mem_cons_of_mem c hx)]
    exact (h.cut hc hsingle [] (before ++ l)).trans (and_iff_right h.nil)

theorem trail {l after : List Char} (hafter : ∀ c ∈ after, isInert c = true ∧ Normal nfkc [c]) :
    Normal nfkc (l ++ after) ↔ Normal nfkc l := by
  cases after with
  | nil => rw [List.append_nil]
  | cons c after =>
    obtain ⟨hc, hsingle⟩ := hafter c List.mem_cons_self
    have hrest := h.lead (l := []) fun x hx => hafter x (List.mem_cons_of_mem c hx)
    rw [List.append_nil] at hrest
    rw [h.cut hc hsingle]
    exact and_iff_left (hrest.2 h.nil)

theorem strip {l : List Char} (hsingle : ∀ c ∈ l, Normal nfkc [c]) :
    Normal nfkc (Text.strip (String.ofList l)).toList ↔ Normal nfkc l := by
  obtain ⟨before, after, heq, hbefore, hafter⟩ :=
    Text.exists_trim Text.isSpace (String.ofList l)
  have hinert : ∀ c, Text.isSpace c = true → isInert c = true := by
    intro c hc
    unfold isInert
    rw [hc]
    rfl
  rw [String.toList_ofList] at heq
  unfold Text.strip
  rw [heq] at hsingle
  conv => rhs; rw [heq]
  rw [h.lead fun c hc => ⟨hinert c (hbefore c hc), hsingle c (by simp [hc])⟩,
    h.trail fun c hc => ⟨hinert c (hafter c hc), hsingle c (by simp [hc])⟩]

theorem blanks {l : List Char} (hl : Normal nfkc l) : Normal nfkc (l.map blank) := by
  have hall : ∀ (l xs : List Char), Normal nfkc (xs ++ l) → Normal nfkc (xs ++ l.map blank) := by
    intro l
    induction l with
    | nil => exact fun xs hxs => hxs
    | cons c l ih =>
      intro xs hxs
      rw [List.map_cons]
      by_cases hc : isControl c = true
      · rw [show blank c = ' ' from if_pos hc]
        have hparts := h.parts _ _ hxs
        have hrest := ih [] (h.parts [c] l hparts.2).2
        exact (h.cut rfl (h.all_ascii (by decide)) xs _).2 ⟨hparts.1, hrest⟩
      · rw [show blank c = c from if_neg hc]
        have hrest := ih (xs ++ [c]) (by simpa using hxs)
        simpa using hrest
  exact hall l [] hl

end Nfkc

/-! ## The characters that are left -/

variable {text : String} {c : Char}

theorem mem_readable (hc : c ∈ readable nfkc text) :
    isInvisible c = false ∧ isControl c = false ∧ (c ∈ (nfkc text).toList ∨ c = ' ') := by
  unfold readable at hc
  obtain ⟨x, hx, rfl⟩ := List.mem_map.1 hc
  obtain ⟨hmem, hvisible⟩ := List.mem_filter.1 hx
  unfold blank
  split
  · exact ⟨by decide, by decide, .inr rfl⟩
  next hcontrol => exact ⟨by simpa using hvisible, by simpa using hcontrol, .inl hmem⟩

theorem mem_sanitised (hc : c ∈ (sanitiseEvidence nfkc text).toList) :
    c ∈ redacted.toList ∨ c ∈ readable nfkc text := by
  by_cases htext : text = ""
  · rw [htext] at hc
    cases hc
  · rw [sanitiseEvidence_eq nfkc htext] at hc
    have hreplaced := (Rag.strip_part _).subset hc
    rw [String.toList_ofList] at hreplaced
    exact Markup.Tag.mem_replaceFrom hreplaced

theorem readable_of_normal {l : List Char} (hnormal : Normal nfkc l)
    (hvisible : ∀ c ∈ l, isInvisible c = false) (hcontrol : ∀ c ∈ l, isControl c = false) :
    readable nfkc (String.ofList l) = l := by
  unfold readable
  rw [hnormal, String.toList_ofList, List.filter_eq_self.2 fun c hc => by simp [hvisible c hc]]
  refine (List.map_congr_left fun c hc => ?_).trans (List.map_id l)
  unfold blank
  rw [hcontrol c hc]
  rfl

/-! ## Closure -/

/-- Sanitising is a closure: nothing of what it removes is left, and it changes nothing again. -/
structure Closed (nfkc : String → String) (text : String) : Prop where
  delimiters : delimiters.count (sanitiseEvidence nfkc text).toList = 0
  visible : ∀ c ∈ (sanitiseEvidence nfkc text).toList, isInvisible c = false
  controls : ∀ c ∈ (sanitiseEvidence nfkc text).toList, isControl c = false
  again : sanitiseEvidence nfkc (sanitiseEvidence nfkc text) = sanitiseEvidence nfkc text

theorem sanitised_visible (hc : c ∈ (sanitiseEvidence nfkc text).toList) :
    isInvisible c = false ∧ isControl c = false := by
  rcases mem_sanitised hc with hc | hc
  · have hall : redacted.toList.all (fun x => !isInvisible x && !isControl x) = true := by decide
    simpa using List.all_eq_true.1 hall c hc
  · exact ⟨(mem_readable hc).1, (mem_readable hc).2.1⟩

theorem sanitised_count :
    delimiters.count (sanitiseEvidence nfkc text).toList = 0 := by
  by_cases htext : text = ""
  · rw [htext]
    rfl
  · rw [sanitiseEvidence_eq nfkc htext]
    have hle := Markup.Tag.count_infix_le (t := delimiters) (Rag.strip_part
      (String.ofList (delimiters.replace redacted.toList (readable nfkc text))))
    rw [String.toList_ofList, count_replaced] at hle
    exact Nat.le_zero.1 hle

def Composed (nfkc : String → String) (text : String) : Prop :=
  ∀ part ∈ delimiters.parts (readable nfkc text), Normal nfkc part

section

variable (h : Nfkc nfkc)

include h

theorem nfkc_empty : nfkc "" = "" := h.nil

theorem sanitised_eq (text : String) :
    sanitiseEvidence nfkc text =
      Text.strip (String.ofList (delimiters.replace redacted.toList (readable nfkc text))) := by
  by_cases htext : text = ""
  · unfold sanitiseEvidence readable
    rw [if_pos htext, htext, nfkc_empty h]
    decide
  · exact sanitiseEvidence_eq nfkc htext

theorem sanitised_normal (text : String) :
    Normal nfkc (sanitiseEvidence nfkc text).toList ↔ Composed nfkc text := by
  rw [sanitised_eq h, h.strip]
  · exact Markup.Tag.forall_parts_iff h.nil h.glue
  · intro c hc
    rcases Markup.Tag.mem_replaceFrom hc with hc | hc
    · exact h.single (h.all_ascii (by decide)) hc
    · rcases (mem_readable hc).2.2 with hc | rfl
      · exact h.single (h.stable text) hc
      · exact h.all_ascii (by decide)

theorem composed_of_visible (hvisible : ∀ c ∈ text.toList, isInvisible c = false) :
    Composed nfkc text := by
  have hreadable : Normal nfkc (readable nfkc text) := by
    unfold readable
    rw [List.filter_eq_self.2 fun c hc => ?_]
    · exact h.blanks (h.stable text)
    · by_contra hinvisible
      have hc' := h.visible text c hc (by simpa using hinvisible)
      rw [hvisible c hc'] at hinvisible
      exact hinvisible rfl
  intro part hpart
  obtain ⟨xs, ys, heq⟩ := Markup.Tag.infix_of_mem_parts hpart
  rw [← heq] at hreadable
  exact (h.parts xs part (h.parts _ _ hreadable).1).2

theorem again_iff (text : String) :
    sanitiseEvidence nfkc (sanitiseEvidence nfkc text) = sanitiseEvidence nfkc text ↔
      Composed nfkc text := by
  rw [← sanitised_normal h]
  constructor
  · intro hagain
    rw [← hagain, sanitised_normal h]
    exact composed_of_visible h fun c hc => (sanitised_visible hc).1
  · intro hnormal
    have hreadable := readable_of_normal hnormal (fun c hc => (sanitised_visible hc).1)
      fun c hc => (sanitised_visible hc).2
    rw [String.ofList_toList] at hreadable
    rw [sanitised_eq h (sanitiseEvidence nfkc text), hreadable,
      Markup.Tag.replace_of_count sanitised_count, String.ofList_toList, sanitised_eq h text]
    exact Text.trim_trim _ _

/-- **Sanitising is a closure** exactly on the texts that stay in NFKC without their invisible
characters. -/
theorem closed_iff (text : String) : Closed nfkc text ↔ Composed nfkc text := by
  refine ⟨fun hclosed => (again_iff h text).1 hclosed.again, fun hcomposed => ?_⟩
  exact ⟨sanitised_count, fun c hc => (sanitised_visible hc).1,
    fun c hc => (sanitised_visible hc).2, (again_iff h text).2 hcomposed⟩

end

/-! ### A letter and an accent -/

namespace Sample

def accent (c : Char) (l : List Char) : List Char :=
  if c = 'e' ∧ l.head? = some '\u0301' then '\u00e9' :: l.tail else c :: l

def compose : List Char → List Char
  | [] => []
  | c :: l => accent c (compose l)

def composed (text : String) : String := String.ofList (compose text.toList)

def Apart (c d : Char) : Prop := ¬ (c = 'e' ∧ d = '\u0301')

theorem compose_eq_self {l : List Char} : compose l = l ↔ l.IsChain Apart := by
  induction l with
  | nil => exact iff_of_true rfl .nil
  | cons c l ih =>
    unfold compose accent
    rw [List.isChain_cons, ← ih]
    constructor
    · intro heq
      split at heq
      next hcomposed =>
        have hhead : '\u00e9' = c := (List.cons.inj heq).1
        rw [hcomposed.1] at hhead
        exact absurd hhead (by decide)
      next hapart =>
        obtain ⟨-, hl⟩ := List.cons.inj heq
        rw [hl] at hapart
        exact ⟨fun d hd hboth => hapart ⟨hboth.1, by rw [← hboth.2]; exact hd⟩, hl⟩
    · intro ⟨happart, hl⟩
      rw [hl, if_neg fun hboth => happart _ hboth.2 ⟨hboth.1, rfl⟩]

theorem chain_compose (l : List Char) : (compose l).IsChain Apart := by
  induction l with
  | nil => exact .nil
  | cons c l ih =>
    unfold compose accent
    split
    · refine List.isChain_cons.2 ⟨fun d _ hboth => absurd hboth.1 (by decide), ?_⟩
      exact ih.tail
    next hapart =>
      exact List.isChain_cons.2 ⟨fun d hd hboth => hapart ⟨hboth.1, hboth.2 ▸ hd⟩, ih⟩

theorem mem_compose {l : List Char} {c : Char} (h : c ∈ compose l) : c ∈ l ∨ c = '\u00e9' := by
  induction l with
  | nil => exact .inl h
  | cons d l ih =>
    unfold compose accent at h
    split at h
    · rcases List.mem_cons.1 h with rfl | h
      · exact .inr rfl
      · exact (ih (List.mem_of_mem_tail h)).imp_left (List.mem_cons_of_mem d)
    · rcases List.mem_cons.1 h with rfl | h
      · exact .inl List.mem_cons_self
      · exact (ih h).imp_left (List.mem_cons_of_mem d)

theorem normal_iff {l : List Char} : Normal composed l ↔ l.IsChain Apart := by
  unfold Normal composed
  rw [String.toList_ofList, String.ofList_inj]
  exact compose_eq_self

theorem nfkc_composed : Nfkc composed where
  stable text := by
    rw [normal_iff]
    unfold composed
    rw [String.toList_ofList]
    exact chain_compose text.toList
  ascii l hl := by
    rw [normal_iff]
    refine List.Pairwise.isChain (List.pairwise_of_forall_mem_list fun c hc d hd hboth => ?_)
    have hascii := hl d hd
    rw [hboth.2] at hascii
    exact absurd hascii (by decide)
  parts xs ys h := by
    rw [normal_iff, List.isChain_append] at h
    exact ⟨normal_iff.2 h.1, normal_iff.2 h.2.1⟩
  join xs c ys hc hxs hsingle hys := by
    rw [normal_iff] at *
    refine List.isChain_append.2 ⟨hxs, List.isChain_cons.2 ⟨fun d _ hboth => ?_, hys⟩, ?_⟩
    · rw [hboth.1] at hc
      exact absurd hc (by decide)
    · intro x _ d hd hboth
      obtain rfl : c = d := by simpa using hd
      rw [hboth.2] at hc
      exact absurd hc (by decide)
  visible text c hc hinvisible := by
    unfold composed at hc
    rw [String.toList_ofList] at hc
    rcases mem_compose hc with hc | rfl
    · exact hc
    · exact absurd hinvisible (by decide)

end Sample

/-- A closing tag between two words. -/
theorem closed_tag : Closed Sample.composed "a</system>b" := by
  refine (closed_iff Sample.nfkc_composed _).2 ?_
  unfold Composed Normal
  decide +kernel

/-- An accent that a joiner kept from its letter composes with it when the passage is sanitised
again. -/
theorem recomposed : ¬ ∀ nfkc, Nfkc nfkc → ∀ text, Closed nfkc text := by
  intro h
  have hagain := (h Sample.composed Sample.nfkc_composed "e\u200d\u0301").again
  exact absurd hagain (by decide +kernel)

/-! ## The detector -/

/-- The detector reports a passage from which an invisible character is removed, or in which a
delimiter is replaced. -/
def Agrees (nfkc : String → String) (text : String) : Prop :=
  (∃ c ∈ (nfkc text).toList, isInvisible c = true) ∨ 0 < delimiters.count (readable nfkc text) →
    containsSuspiciousMarkup nfkc text = true

/-- A delimiter stands in the text that holds a control character, other than white space, where
white space could be. -/
def Veiled (l : List Char) : Prop :=
  ∃ body, '>' ∉ body ∧ core (body.map blank) ∈ names ∧
    (∃ c ∈ body, isControl c = true ∧ Text.isSpace c = false) ∧ '<' :: (body ++ ['>']) <:+: l

theorem isSpace_blank {c : Char} (h : isControl c = true → Text.isSpace c = true) :
    Text.isSpace (blank c) = Text.isSpace c := by
  unfold blank
  split
  next hc =>
    rw [h hc]
    rfl
  · rfl

theorem blank_eq {c d : Char} (hd : isControl d = false) (hblank : d ≠ ' ') :
    blank c = d ↔ c = d := by
  unfold blank
  split
  next hc =>
    refine iff_of_false hblank.symm fun heq => ?_
    rw [heq, hd] at hc
    cases hc
  · exact Iff.rfl

theorem dropWhile_blank {l : List Char} (h : ∀ c ∈ l, isControl c = true → Text.isSpace c = true) :
    (l.map blank).dropWhile Text.isSpace = (l.dropWhile Text.isSpace).map blank := by
  induction l with
  | nil => rfl
  | cons c l ih =>
    rw [List.map_cons, List.dropWhile_cons, List.dropWhile_cons,
      isSpace_blank (h c List.mem_cons_self), ih fun x hx => h x (List.mem_cons_of_mem c hx)]
    split
    · rfl
    · rfl

theorem core_blank {body : List Char}
    (h : ∀ c ∈ body, isControl c = true → Text.isSpace c = true)
    (hcore : core (body.map blank) ∈ names) : core body ∈ names := by
  have hslashed : slashed (body.map blank) = slashed body := by
    unfold slashed
    cases body with
    | nil => rfl
    | cons c body => simp [blank_eq (c := c) (d := '/') (by decide) (by decide)]
  have hchars : ∀ chars : List Char, chars ⊆ body →
      ((((chars.map blank).dropWhile Text.isSpace).reverse.dropWhile Text.isSpace).reverse.map
        fold) ∈ names →
      (((chars.dropWhile Text.isSpace).reverse.dropWhile Text.isSpace).reverse.map fold) ∈
        names := by
    intro chars hsub hmem
    have hstart : ∀ c ∈ chars, isControl c = true → Text.isSpace c = true :=
      fun c hc => h c (hsub hc)
    have hend : ∀ c ∈ (chars.dropWhile Text.isSpace).reverse, isControl c = true →
        Text.isSpace c = true := fun c hc =>
      hstart c ((List.dropWhile_suffix _).subset (List.mem_reverse.1 hc))
    rw [dropWhile_blank hstart, ← List.map_reverse, dropWhile_blank hend, ← List.map_reverse,
      List.map_map] at hmem
    rw [← List.map_congr_left (f := fold ∘ blank) fun c hc => ?_]
    · exact hmem
    -- a name holds no blank
    have hname : (fold ∘ blank) c ∈ _ := List.mem_map_of_mem hc
    have hblank : ∀ name ∈ names, ' ' ∉ name := by decide
    show fold (blank c) = fold c
    by_cases hcontrol : isControl c = true
    · have hspace : (fold ∘ blank) c = ' ' := by
        show fold (blank c) = ' '
        rw [show blank c = ' ' from if_pos hcontrol]
        decide
      rw [hspace] at hname
      exact absurd hname (hblank _ hmem)
    · rw [show blank c = c from if_neg hcontrol]
  unfold core at hcore ⊢
  rw [hslashed] at hcore
  split
  next hslash =>
    rw [if_pos hslash, ← List.map_tail] at hcore
    exact hchars body.tail (List.tail_suffix body).subset hcore
  next hslash =>
    rw [if_neg hslash] at hcore
    exact hchars body (List.Subset.refl body) hcore

theorem suspicious_iff :
    containsSuspiciousMarkup nfkc text = true ↔
      text ≠ "" ∧ (0 < delimiters.count (nfkc text).toList ∨
        ∃ c ∈ text.toList, isInvisible c = true) := by
  unfold containsSuspiciousMarkup
  split
  next htext => simp [htext]
  next htext => simp [htext]

theorem veiled_iff (hintact : ¬ 0 < delimiters.count (nfkc text).toList) :
    0 < delimiters.count ((nfkc text).toList.map blank) ↔ Veiled (nfkc text).toList := by
  rw [Markup.Tag.count_pos_iff]
  constructor
  · intro ⟨body', hlast, hbody', hpart⟩
    obtain ⟨tag, htag, heq⟩ := List.infix_map_iff.1 hpart
    obtain ⟨first, rest, rfl, hfirst, hrest⟩ := List.map_eq_cons_iff.1 heq.symm
    obtain ⟨body, ending, rfl, rfl, hending⟩ := List.map_eq_append_iff.1 hrest
    obtain ⟨last, rfl, hlast'⟩ := List.map_eq_singleton_iff.1 hending
    rw [blank_eq (by decide) (by decide)] at hfirst hlast'
    have hfirst' : first = '<' := hfirst
    have hlast'' : last = '>' := hlast'
    subst hfirst' hlast''
    have hbody : '>' ∉ body := fun hmem => hlast (List.mem_map.2 ⟨'>', hmem, by decide⟩)
    have hname : core (body.map blank) ∈ names := of_decide_eq_true hbody'
    refine ⟨body, hbody, hname, by_contra fun hnone => ?_, htag⟩
    have hspaces : ∀ c ∈ body, isControl c = true → Text.isSpace c = true := by
      intro c hc hcontrol
      by_contra hspace
      exact hnone ⟨c, hc, hcontrol, by simpa using hspace⟩
    exact hintact (Markup.Tag.count_pos_iff.2
      ⟨body, hbody, decide_eq_true (core_blank hspaces hname), htag⟩)
  · intro ⟨body, hlast, hbody, _, hpart⟩
    refine ⟨body.map blank, fun hmem => ?_, decide_eq_true hbody, ?_⟩
    · obtain ⟨c, hc, heq⟩ := List.mem_map.1 hmem
      rw [(blank_eq (d := '>') (by decide) (by decide)).1 heq] at hc
      exact hlast hc
    · have hmap := hpart.map blank
      rw [List.map_cons, List.map_append] at hmap
      exact hmap

section

variable (h : Nfkc nfkc)

include h

theorem readable_visible (hvisible : ¬ ∃ c ∈ text.toList, isInvisible c = true) :
    readable nfkc text = (nfkc text).toList.map blank := by
  unfold readable
  rw [List.filter_eq_self.2 fun c hc => ?_]
  by_contra hinvisible
  have hc' : isInvisible c = true := by simpa using hinvisible
  exact hvisible ⟨c, h.visible text c hc hc', hc'⟩

/-- **The detector agrees with the sanitiser** exactly where a veiled delimiter comes with an
intact one, or with an invisible character. -/
theorem agrees_iff (text : String) :
    Agrees nfkc text ↔ (Veiled (nfkc text).toList →
      (∃ c ∈ text.toList, isInvisible c = true) ∨ 0 < delimiters.count (nfkc text).toList) := by
  constructor
  · intro hagrees hveiled
    by_cases hvisible : ∃ c ∈ text.toList, isInvisible c = true
    · exact .inl hvisible
    · by_cases hintact : 0 < delimiters.count (nfkc text).toList
      · exact .inr hintact
      · have hreplaced := (veiled_iff hintact).2 hveiled
        rw [← readable_visible h hvisible] at hreplaced
        exact ((suspicious_iff.1 (hagrees (.inr hreplaced))).2).symm
  · intro hmissed hremoved
    have htext : text ≠ "" := by
      intro hempty
      rw [hempty] at hremoved
      unfold readable at hremoved
      rw [nfkc_empty h] at hremoved
      rcases hremoved with ⟨c, hc, -⟩ | hcount
      · cases hc
      · exact absurd hcount (by decide)
    refine suspicious_iff.2 ⟨htext, ?_⟩
    by_cases hvisible : ∃ c ∈ text.toList, isInvisible c = true
    · exact .inr hvisible
    · by_cases hintact : 0 < delimiters.count (nfkc text).toList
      · exact .inl hintact
      · rcases hremoved with ⟨c, hc, hinvisible⟩ | hreplaced
        · exact .inr ⟨c, h.visible text c hc hinvisible, hinvisible⟩
        · rw [readable_visible h hvisible, veiled_iff hintact] at hreplaced
          exact (hmissed hreplaced).symm

end

/-- A veiled delimiter, and a joiner. -/
theorem agrees_joiner : Agrees Sample.composed "<\x00system>\u200d" :=
  (agrees_iff Sample.nfkc_composed _).2 fun _ =>
    .inl ⟨'\u200d', by decide, by decide⟩

/-- The sanitiser takes a delimiter out that the detector does not report. -/
theorem veiled_missed : ¬ ∀ nfkc, Nfkc nfkc → ∀ text, Agrees nfkc text := by
  intro h
  have hreported := h Sample.composed Sample.nfkc_composed "<\x00system>" (.inr (by decide +kernel))
  exact absurd hreported (by decide +kernel)

end Sanitise

end Clear
