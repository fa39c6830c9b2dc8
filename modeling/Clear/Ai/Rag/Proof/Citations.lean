import Clear.Ai.Rag.Engine
import Mathlib.Data.List.Flatten

/-!
# Citations of a displayed answer

Labels that were not offered are removed from an answer in one pass. A bracket that opens before such
a group and closes after it can read as a label once the group is gone, and a number of more than
4300 digits is no integer to Python. Where an answer has neither (`Sound`), each label of the displayed
text is offered and is listed, and no other answer has this property (`resolvable_iff`).
-/

namespace Clear

namespace Rag

open Retrieval

/-! ## The pattern -/

def Short (n : Nat) : Prop := (Nat.toDigits 10 n).length ≤ 4300

/-- The numbers read so far have at most as many digits as Python accepts. -/
def Bounded (labels : List (Option Nat)) : Phase → Prop
  | .number value digits => (∀ n, some n ∈ labels → Short n) ∧ 0 < digits ∧ value < 10 ^ digits
  | .after label => (∀ n, some n ∈ labels → Short n) ∧ ∀ n ∈ label, Short n
  | _ => ∀ n, some n ∈ labels → Short n

theorem digit_le {c : Char} {d : Nat} (h : Text.digit? c = some d) : d ≤ 9 := by
  obtain ⟨first, hfirst, rfl⟩ := Option.map_eq_some_iff.1 h
  have := List.find?_some hfirst
  simp only [Bool.and_eq_true, decide_eq_true_eq] at this
  omega

theorem label_short {value digits n : Nat} (hdigits : 0 < digits) (hvalue : value < 10 ^ digits)
    (h : label? value digits = some n) : Short n := by
  obtain ⟨hle, hn⟩ := Option.ite_none_right_eq_some.1 h
  obtain rfl : value = n := Option.some.inj hn
  exact ((Nat.length_toDigits_le_iff (by decide) hdigits).2 hvalue).trans hle

theorem number_lt {value digits d : Nat} (hvalue : value < 10 ^ digits) (hd : d ≤ 9) :
    10 * value + d < 10 ^ (digits + 1) := by
  rw [Nat.pow_succ]
  omega

theorem number_lt_ten {d : Nat} (hd : d ≤ 9) : 0 < 1 ∧ d < 10 ^ 1 := by omega

def Goes (labels : List (Option Nat)) (phase : Phase) (c : Char) : Move → Prop
  | .stop => True
  | .close read => c ≠ '[' ∧ (Bounded labels phase → ∀ n, some n ∈ read → Short n)
  | .go labels' phase' => c ≠ '[' ∧ (Bounded labels phase → Bounded labels' phase')

theorem short_snoc {labels : List (Option Nat)} {label : Option Nat}
    (hlabels : ∀ n, some n ∈ labels → Short n) (hlabel : ∀ n ∈ label, Short n) :
    ∀ n, some n ∈ labels ++ [label] → Short n := by
  intro n hn
  rcases List.mem_append.1 hn with hn | hn
  · exact hlabels n hn
  · exact hlabel n (List.mem_singleton.1 hn).symm

theorem move_goes (labels : List (Option Nat)) (phase : Phase) (c : Char) :
    Goes labels phase c (move labels phase c) := by
  have hbracket : Text.digit? '[' = none ∧ Text.isSpace '[' = false := by decide
  have hspaced : Text.isSpace c = true → c ≠ '[' := by
    rintro hspace rfl
    cases hspace.symm.trans hbracket.2
  unfold move
  cases hd : Text.digit? c with
  | some d =>
    have hc : c ≠ '[' := by
      rintro rfl
      cases hd.symm.trans hbracket.1
    have hle := digit_le hd
    cases phase with
    | first => exact ⟨hc, fun h => ⟨h, number_lt_ten hle⟩⟩
    | comma => exact ⟨hc, fun h => ⟨h, number_lt_ten hle⟩⟩
    | number value digits => exact ⟨hc, fun h => ⟨h.1, Nat.succ_pos _, number_lt h.2.2 hle⟩⟩
    | after label => trivial
  | none =>
    cases phase with
    | first => trivial
    | comma =>
      dsimp only
      split
      next hspace => exact ⟨hspaced hspace, id⟩
      next => trivial
    | number value digits =>
      dsimp only
      split
      next hclose =>
        refine ⟨by rw [hclose]; decide, fun h => short_snoc h.1 fun n hn => ?_⟩
        exact label_short h.2.1 h.2.2 hn
      next =>
        split
        next hcomma =>
          refine ⟨by rw [hcomma]; decide, fun h => short_snoc h.1 fun n hn => ?_⟩
          exact label_short h.2.1 h.2.2 hn
        next =>
          split
          next hspace => exact ⟨hspaced hspace, fun h => ⟨h.1, fun n hn => label_short h.2.1 h.2.2 hn⟩⟩
          next => trivial
    | after label =>
      dsimp only
      split
      next hcomma => exact ⟨by rw [hcomma]; decide, fun h => short_snoc h.1 h.2⟩
      next =>
        split
        next hspace => exact ⟨hspaced hspace, id⟩
        next => trivial

theorem group_some {labels read : List (Option Nat)} {phase : Phase} {l rest : List Char}
    (h : group labels phase l = some (read, rest)) :
    (∃ body, l = body ++ rest ∧ '[' ∉ body ∧
      ∀ ys, group labels phase (body ++ ys) = some (read, ys)) ∧
      (Bounded labels phase → ∀ n, some n ∈ read → Short n) := by
  induction l generalizing labels phase with
  | nil => cases h
  | cons c l ih =>
    have hgoes := move_goes labels phase c
    unfold group at h
    cases hmove : move labels phase c with
    | stop =>
      rw [hmove] at h
      cases h
    | close read' =>
      rw [hmove] at h hgoes
      cases h
      refine ⟨⟨[c], rfl, by simpa using Ne.symm hgoes.1, fun ys => ?_⟩, hgoes.2⟩
      show group labels phase (c :: ys) = _
      unfold group
      rw [hmove]
    | go labels' phase' =>
      rw [hmove] at h hgoes
      obtain ⟨⟨body, rfl, hbody, hlocal⟩, hbound⟩ := ih h
      refine ⟨⟨c :: body, rfl, ?_, fun ys => ?_⟩, fun hb => hbound (hgoes.2 hb)⟩
      · rw [List.mem_cons, not_or]
        exact ⟨Ne.symm hgoes.1, hbody⟩
      · rw [List.cons_append]
        unfold group
        rw [hmove]
        exact hlocal ys

theorem opens_citation : Scan.Opens '[' matchAt := by
  intro l read rest h
  cases l with
  | nil => cases h
  | cons c l =>
    obtain ⟨rfl, h⟩ := Option.ite_none_right_eq_some.1 h
    obtain ⟨⟨body, rfl, hbody, hlocal⟩, -⟩ := group_some h
    exact ⟨body, rfl, hbody, hlocal⟩

theorem label_bound {l rest : List Char} {read : List (Option Nat)} {n : Nat}
    (h : matchAt l = some (read, rest)) (hn : some n ∈ read) : Short n := by
  cases l with
  | nil => cases h
  | cons c l =>
    obtain ⟨-, h⟩ := Option.ite_none_right_eq_some.1 h
    exact (group_some h).2 (fun _ hn => by cases hn) n hn

/-! ## Labels are read back -/

theorem digit_of_isDigit {c : Char} (h : c.isDigit = true) :
    Text.digit? c = some (c.toNat - '0'.toNat) := by
  simp only [Char.isDigit, Bool.and_eq_true, decide_eq_true_eq] at h
  have hle : 0x30 ≤ c.toNat ∧ c.toNat ≤ 0x30 + 9 := ⟨UInt32.le_iff_toNat_le.1 h.1,
    UInt32.le_iff_toNat_le.1 h.2⟩
  unfold Text.digit? Text.zeros
  rw [List.find?_cons_of_pos (by simpa using hle)]
  rfl

theorem group_digits (labels : List (Option Nat)) {ds : List Char} (hds : ∀ c ∈ ds, c.isDigit = true)
    (value digits : Nat) (rest : List Char) :
    group labels (.number value digits) (ds ++ ']' :: rest) =
      some (labels ++ [label? (Nat.ofDigitChars 10 ds value) (digits + ds.length)], rest) := by
  induction ds generalizing value digits with
  | nil =>
    have hclose : Text.digit? ']' = none := by decide
    show group _ _ (']' :: rest) = _
    unfold group move
    rw [hclose]
    simp
  | cons c ds ih =>
    have hd := digit_of_isDigit (hds c List.mem_cons_self)
    rw [List.cons_append]
    unfold group move
    rw [hd]
    dsimp only
    rw [ih (fun x hx => hds x (List.mem_cons_of_mem _ hx)), Nat.ofDigitChars_cons, List.length_cons,
      Nat.add_right_comm, Nat.add_assoc]

def readBack (label : Nat) : List (Option Nat) := [label? label (Nat.toDigits 10 label).length]

theorem readBack_short {label : Nat} (h : Short label) : readBack label = [some label] := by
  unfold readBack label?
  rw [if_pos (show (Nat.toDigits 10 label).length ≤ 4300 from h)]

theorem match_bracketed (label : Nat) :
    matchAt (bracketed label).toList = some (readBack label, []) := by
  have hchars : (bracketed label).toList = '[' :: (Nat.toDigits 10 label ++ [']']) := by
    unfold bracketed
    rw [String.toList_append, String.toList_append, Nat.toString_eq_ofList_toDigits]
    simp only [String.toList_ofList]
    rfl
  rw [hchars]
  show group [] .first (Nat.toDigits 10 label ++ [']']) = _
  have hdigits : ∀ c ∈ Nat.toDigits 10 label, c.isDigit = true := fun c hc =>
    Nat.isDigit_of_mem_toDigits (by decide) (by decide) hc
  have hvalue : Nat.ofDigitChars 10 (Nat.toDigits 10 label) 0 = label :=
    Nat.ofDigitChars_ten_toDigits
  unfold readBack
  cases hds : Nat.toDigits 10 label with
  | nil => exact absurd hds Nat.toDigits_ne_nil
  | cons c ds =>
    rw [hds] at hdigits hvalue
    have hd := digit_of_isDigit (hdigits c List.mem_cons_self)
    rw [List.cons_append]
    unfold group move
    rw [hd]
    dsimp only
    rw [group_digits [] (fun x hx => hdigits x (List.mem_cons_of_mem _ hx))]
    rw [Nat.ofDigitChars_cons, Nat.mul_zero, Nat.zero_add] at hvalue
    rw [hvalue, List.nil_append, List.length_cons, Nat.add_comm]

/-! ## The labels of a displayed text -/

section
variable {text : String} {valid invalid : List Nat}

theorem mem_bracketed {label : Option Nat} :
    label ∈ bracketedLabels text ↔
      ∃ labels ∈ Scan.found (Scan.scan matchAt text.toList), label ∈ labels := by
  unfold bracketedLabels
  exact List.mem_flatten

theorem mem_cited {n : Nat} : n ∈ citedLabels text ↔ some n ∈ bracketedLabels text := by
  unfold citedLabels
  simp

theorem mem_invalid {n : Nat} :
    n ∈ invalidLabels text valid ↔ n ∈ citedLabels text ∧ n ∉ valid := by
  unfold invalidLabels
  simp

theorem cited_short {n : Nat} (h : n ∈ citedLabels text) : Short n := by
  obtain ⟨labels, hlabels, hn⟩ := mem_bracketed.1 (mem_cited.1 h)
  obtain ⟨_, _, _, -, hm⟩ := (Scan.mem_found_iff opens_citation).1 hlabels
  exact label_bound hm hn

theorem mem_resolving {labels : List (Option Nat)} {n : Nat}
    (hlabels : labels ∈ Scan.found (Scan.scan matchAt text.toList)) :
    n ∈ resolving (invalidLabels text valid) labels ↔ some n ∈ labels ∧ n ∈ valid := by
  have hcited : some n ∈ labels → n ∈ citedLabels text := fun hn =>
    mem_cited.2 (mem_bracketed.2 ⟨labels, hlabels, hn⟩)
  unfold resolving
  rw [List.mem_filter, List.mem_filterMap]
  constructor
  · rintro ⟨⟨o, ho, rfl⟩, hn⟩
    refine ⟨ho, by_contra fun hvalid => ?_⟩
    exact of_decide_eq_true hn (mem_invalid.2 ⟨hcited ho, hvalid⟩)
  · rintro ⟨hn, hvalid⟩
    exact ⟨⟨some n, hn, rfl⟩, decide_eq_true fun h => (mem_invalid.1 h).2 hvalid⟩

def symbols (pieces : List (Char ⊕ List (Option Nat))) : List Char :=
  pieces.filterMap Sum.getLeft?

def Fabricated (valid : List Nat) (piece : Char ⊕ List (Option Nat)) : Prop :=
  ∀ labels, piece = .inr labels → ∀ n ∈ valid, some n ∉ labels

/-- Once the groups that hold no offered label are gone, the pieces between them can be read
together as a group. -/
def Interrupted (text : String) (valid : List Nat) (labels : List (Option Nat)) : Prop :=
  ∃ before mid after, Scan.scan matchAt text.toList = before ++ (mid ++ after) ∧
    (∀ piece ∈ mid, Fabricated valid piece) ∧ matchAt (symbols mid) = some (labels, [])

theorem vanishing_iff {piece : Char ⊕ List (Option Nat)}
    (h : piece ∈ Scan.scan matchAt text.toList) :
    Scan.Vanishing (resolving (invalidLabels text valid)) piece ↔ Fabricated valid piece := by
  cases piece with
  | inl c => exact iff_of_true trivial nofun
  | inr labels =>
    have hfound : labels ∈ Scan.found (Scan.scan matchAt text.toList) :=
      List.mem_filterMap.2 ⟨.inr labels, h, rfl⟩
    show resolving _ labels = [] ↔ _
    rw [List.eq_nil_iff_forall_not_mem]
    constructor
    · rintro hnone _ ⟨⟩ n hvalid hn
      exact hnone n ((mem_resolving hfound).2 ⟨hn, hvalid⟩)
    · intro hnone n hn
      obtain ⟨hn, hvalid⟩ := (mem_resolving hfound).1 hn
      exact hnone labels rfl n hvalid hn

theorem written_symbols {keep : List (Option Nat) → List Nat}
    {pieces : List (Char ⊕ List (Option Nat))} (h : ∀ p ∈ pieces, Scan.Vanishing keep p) :
    pieces.flatMap (Scan.rewrite (fun label => (bracketed label).toList) keep) = symbols pieces := by
  induction pieces with
  | nil => rfl
  | cons p pieces ih =>
    have hp := h p List.mem_cons_self
    rw [List.flatMap_cons, ih fun q hq => h q (List.mem_cons_of_mem _ hq)]
    cases p with
    | inl c => rfl
    | inr labels =>
      have hkeep : keep labels = [] := hp
      simp [Scan.rewrite, hkeep, symbols, List.filterMap_cons]

/-- **The labels of a text after the removal**: offered labels that it cited, and labels of groups
that were interrupted. -/
theorem mem_stripped {label : Option Nat} :
    label ∈ bracketedLabels (stripLabels text (invalidLabels text valid)) ↔
      (∃ n ∈ valid, label = some n ∧ n ∈ citedLabels text) ∨
        ∃ labels, Interrupted text valid labels ∧ label ∈ labels := by
  have hsub : ∀ labels, labels ∈ Scan.found (Scan.scan matchAt (Scan.sub
      (fun label => (bracketed label).toList) (resolving (invalidLabels text valid)) matchAt
        text.toList)) ↔ _ := fun labels => Scan.mem_found_sub opens_citation match_bracketed
  rw [mem_bracketed]
  unfold stripLabels
  rw [String.toList_ofList]
  constructor
  · rintro ⟨labels, hlabels, hlabel⟩
    rcases (hsub labels).1 hlabels with ⟨group, hgroup, n, hn, rfl⟩ |
      ⟨before, mid, after, hscan, hmid, hm⟩
    · obtain ⟨hn, hvalid⟩ := (mem_resolving hgroup).1 hn
      have hcited : n ∈ citedLabels text := mem_cited.2 (mem_bracketed.2 ⟨group, hgroup, hn⟩)
      rw [readBack_short (cited_short hcited)] at hlabel
      exact .inl ⟨n, hvalid, List.mem_singleton.1 hlabel, hcited⟩
    · refine .inr ⟨labels, ⟨before, mid, after, hscan, fun p hp => ?_, ?_⟩, hlabel⟩
      · refine (vanishing_iff ?_).1 (hmid p hp)
        rw [hscan]
        simp [hp]
      · rw [← written_symbols hmid]
        exact hm
  · rintro (⟨n, hvalid, rfl, hcited⟩ | ⟨labels, ⟨before, mid, after, hscan, hmid, hm⟩, hlabel⟩)
    · obtain ⟨group, hgroup, hn⟩ := mem_bracketed.1 (mem_cited.1 hcited)
      refine ⟨readBack n, (hsub _).2 (.inl ⟨group, hgroup, n, ?_, rfl⟩), ?_⟩
      · exact (mem_resolving hgroup).2 ⟨hn, hvalid⟩
      · rw [readBack_short (cited_short hcited)]
        exact List.mem_singleton_self _
    · have hvanish : ∀ p ∈ mid, Scan.Vanishing (resolving (invalidLabels text valid)) p := by
        intro p hp
        refine (vanishing_iff ?_).2 (hmid p hp)
        rw [hscan]
        simp [hp]
      refine ⟨labels, (hsub labels).2 (.inr ⟨before, mid, after, hscan, hvanish, ?_⟩), hlabel⟩
      rw [written_symbols hvanish]
      exact hm

theorem flatten_readBack {l : List Nat} (h : ∀ n ∈ l, Short n) :
    ((l.map readBack).flatten).filterMap id = l := by
  induction l with
  | nil => rfl
  | cons n l ih =>
    rw [List.map_cons, List.flatten_cons, readBack_short (h n List.mem_cons_self), List.singleton_append,
      List.filterMap_cons_some (by rfl), ih fun m hm => h m (List.mem_cons_of_mem _ hm)]

theorem resolving_cited :
    (Scan.found (Scan.scan matchAt text.toList)).flatMap (resolving (invalidLabels text valid)) =
      (citedLabels text).filter (· ∈ valid) := by
  have hgroups : ∀ groups : List (List (Option Nat)),
      groups.flatMap (resolving (invalidLabels text valid)) =
        (groups.flatten.filterMap id).filter (· ∉ invalidLabels text valid) := by
    intro groups
    induction groups with
    | nil => rfl
    | cons group groups ih =>
      rw [List.flatMap_cons, ih, List.flatten_cons, List.filterMap_append, List.filter_append]
      rfl
  rw [hgroups]
  refine List.filter_congr fun n hn => ?_
  have hcited : n ∈ citedLabels text := hn
  simp [mem_invalid, hcited]

theorem offered_sublist :
    ((citedLabels text).filter (· ∈ valid)).Sublist
      (citedLabels (stripLabels text (invalidLabels text valid))) := by
  have hsub : (((Scan.found (Scan.scan matchAt text.toList)).flatMap
      (resolving (invalidLabels text valid))).map readBack).Sublist _ :=
    Scan.found_sublist_rewrite opens_citation match_bracketed [] (Scan.scan matchAt text.toList)
  have hread := hsub.flatten.filterMap id
  rw [resolving_cited, flatten_readBack] at hread
  · unfold citedLabels bracketedLabels stripLabels at ⊢
    rw [String.toList_ofList]
    unfold citedLabels bracketedLabels at hread
    exact hread
  · exact fun n hn => cited_short (List.mem_of_mem_filter hn)

end

/-! ## Resolvable answers -/

variable {package : ContextPackage}

/-- What a validated answer promises of its labels: those of the displayed text are offered, the
citations are those it cites, offered ones are still there, and others are reported. -/
structure Resolvable (text : String) (package : ContextPackage) (answer : Answer) : Prop where
  offered : ∀ label ∈ bracketedLabels answer.text, ∃ n ∈ package.validLabels, label = some n
  citations : answer.citations = package.citations.filter (·.label ∈ citedLabels answer.text)
  kept : ((citedLabels (Text.strip text)).filter (· ∈ package.validLabels)).Sublist
    (citedLabels answer.text)
  flagged : ∀ label ∈ bracketedLabels (Text.strip text),
    (∀ n ∈ package.validLabels, label ≠ some n) →
      (∃ n ∈ answer.invalidCitations, label = some n) ∧ answer.needsReview = true

/-- Every label can be read; and if one was not offered, the groups that are interrupted by groups
without an offered label cite what is cited and offered anyway. -/
structure Sound (text : String) (valid : List Nat) : Prop where
  readable : none ∉ bracketedLabels text
  whole : (∃ n ∈ citedLabels text, n ∉ valid) → ∀ labels, Interrupted text valid labels →
    ∀ label ∈ labels, ∃ n ∈ valid, label = some n ∧ n ∈ citedLabels text

theorem validate_citations (std : Stdlib) (text : String) (package : ContextPackage) :
    (validate std text package).citations =
      package.citations.filter (·.label ∈ citedLabels (Text.strip text)) := by
  unfold validate
  dsimp only

theorem validate_review {std : Stdlib} {text : String}
    (h : invalidLabels (Text.strip text) package.validLabels ≠ []) :
    (validate std text package).needsReview = true := by
  unfold validate
  dsimp only
  rw [show (invalidLabels (Text.strip text) package.validLabels).isEmpty = false by simpa using h]
  rfl

theorem invalid_eq_nil {text : String} {valid : List Nat} :
    invalidLabels text valid = [] ↔ ∀ n ∈ citedLabels text, n ∈ valid := by
  rw [List.eq_nil_iff_forall_not_mem]
  simp [mem_invalid]

theorem mem_answerText {text : String} {label : Option Nat}
    (hreadable : none ∉ bracketedLabels (Text.strip text)) :
    label ∈ bracketedLabels (answerText text package) ↔
      (∃ n ∈ package.validLabels, label = some n ∧ n ∈ citedLabels (Text.strip text)) ∨
        ((∃ n ∈ citedLabels (Text.strip text), n ∉ package.validLabels) ∧
          ∃ labels, Interrupted (Text.strip text) package.validLabels labels ∧ label ∈ labels) := by
  unfold answerText
  dsimp only
  split
  next hnone =>
    have hvalid := invalid_eq_nil.1 (List.isEmpty_iff.1 hnone)
    constructor
    · intro hlabel
      cases label with
      | none => exact absurd hlabel hreadable
      | some n =>
        have hcited := mem_cited.2 hlabel
        exact .inl ⟨n, hvalid n hcited, rfl, hcited⟩
    · rintro (⟨n, -, rfl, hcited⟩ | ⟨⟨n, hcited, hn⟩, -⟩)
      · exact mem_cited.1 hcited
      · exact absurd (hvalid n hcited) hn
  next hsome =>
    rw [mem_stripped]
    have hinvalid : ∃ n ∈ citedLabels (Text.strip text), n ∉ package.validLabels := by
      by_contra hnone
      refine hsome (List.isEmpty_iff.2 (invalid_eq_nil.2 fun n hn => ?_))
      exact by_contra fun h => hnone ⟨n, hn, h⟩
    exact or_congr Iff.rfl ⟨fun h => ⟨hinvalid, h⟩, fun h => h.2⟩

theorem answerText_kept (text : String) (package : ContextPackage) :
    ((citedLabels (Text.strip text)).filter (· ∈ package.validLabels)).Sublist
      (citedLabels (answerText text package)) := by
  unfold answerText
  dsimp only
  split
  · exact List.filter_sublist
  · exact offered_sublist

theorem Sound.resolvable {std : Stdlib} {text : String}
    (h : Sound (Text.strip text) package.validLabels) :
    Resolvable text package (validate std text package) where
  offered label hlabel := by
    rw [validate_text, mem_answerText h.readable] at hlabel
    rcases hlabel with ⟨n, hvalid, rfl, -⟩ | ⟨hinvalid, labels, hinterrupted, hlabel⟩
    · exact ⟨n, hvalid, rfl⟩
    · obtain ⟨n, hvalid, rfl, -⟩ := h.whole hinvalid labels hinterrupted label hlabel
      exact ⟨n, hvalid, rfl⟩
  citations := by
    rw [validate_citations, validate_text]
    refine List.filter_congr fun citation hcitation => decide_eq_decide.2 ⟨fun hcited => ?_, ?_⟩
    · have hvalid : citation.label ∈ package.validLabels := List.mem_map_of_mem hcitation
      exact mem_cited.2 ((mem_answerText h.readable).2 (.inl ⟨_, hvalid, rfl, hcited⟩))
    · intro hcited
      rcases (mem_answerText h.readable).1 (mem_cited.1 hcited) with ⟨n, -, heq, hn⟩ |
        ⟨hinvalid, labels, hinterrupted, hlabel⟩
      · exact Option.some.inj heq ▸ hn
      · obtain ⟨n, -, heq, hn⟩ := h.whole hinvalid labels hinterrupted _ hlabel
        exact Option.some.inj heq ▸ hn
  kept := by
    rw [validate_text]
    exact answerText_kept text package
  flagged label hlabel hoffered := by
    cases label with
    | none => exact absurd hlabel h.readable
    | some n =>
      have hinvalid : n ∈ invalidLabels (Text.strip text) package.validLabels :=
        mem_invalid.2 ⟨mem_cited.2 hlabel, fun hvalid => hoffered n hvalid rfl⟩
      rw [validate_invalid]
      exact ⟨⟨n, hinvalid, rfl⟩, validate_review (List.ne_nil_of_mem hinvalid)⟩

/-- **The labels of an answer resolve** exactly when it is sound. -/
theorem resolvable_iff (std : Stdlib) (text : String) (package : ContextPackage) :
    Resolvable text package (validate std text package) ↔
      Sound (Text.strip text) package.validLabels := by
  refine ⟨fun h => ?_, Sound.resolvable⟩
  have hreadable : none ∉ bracketedLabels (Text.strip text) := by
    intro hnone
    obtain ⟨⟨n, -, heq⟩, -⟩ := h.flagged none hnone fun n _ => nofun
    cases heq
  refine ⟨hreadable, fun hinvalid labels hinterrupted label hlabel => ?_⟩
  have hdisplayed : label ∈ bracketedLabels (answerText text package) :=
    (mem_answerText hreadable).2 (.inr ⟨hinvalid, labels, hinterrupted, hlabel⟩)
  have hoffered := h.offered
  have hcitations := h.citations
  rw [validate_text] at hoffered hcitations
  rw [validate_citations] at hcitations
  obtain ⟨n, hvalid, rfl⟩ := hoffered label hdisplayed
  obtain ⟨citation, hcitation, rfl⟩ := List.mem_map.1 hvalid
  have hlisted : citation ∈ package.citations.filter (·.label ∈ citedLabels (Text.strip text)) := by
    rw [hcitations]
    exact List.mem_filter.2 ⟨hcitation, decide_eq_true (mem_cited.2 hdisplayed)⟩
  exact ⟨citation.label, hvalid, rfl, of_decide_eq_true (List.mem_filter.1 hlisted).2⟩

namespace Sample

def rent : ContextPackage where
  query := "What is the rent?"
  citations := [{ label := 1, contractId := 2, text := "The rent is due monthly." }]

def forged : String := "See [1] and [[9]2]."

theorem forged_text : answerText forged rent = "See [1] and [2]." := by decide +kernel

end Sample

/-- A label is put together from what stands around a group that was removed: label 2 was not
offered, nor is it reported. -/
theorem label_forged : ¬ ∀ (std : Stdlib) (text : String) (package : ContextPackage),
    Resolvable text package (validate std text package) := by
  intro h
  have hoffered := (h Stdlib.ascii Sample.forged Sample.rent).offered
  rw [validate_text, Sample.forged_text] at hoffered
  have hdisplayed : some 2 ∈ bracketedLabels "See [1] and [2]." := by decide +kernel
  obtain ⟨n, hvalid, heq⟩ := hoffered (some 2) hdisplayed
  cases heq
  exact absurd hvalid (by decide)

end Rag

end Clear
