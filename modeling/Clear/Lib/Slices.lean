import Mathlib.Data.List.Basic
import Mathlib.Data.List.MinMax

/-!
# Slices of a list

`for start in range(0, len(l), step): l[start : start + size]`, up to the first slice that reaches
the end. With the step equal to the size they partition the list (`flatten_slices`).
-/

namespace Slices

variable {α : Type}

def slicesFrom (size step : Nat) : Nat → List α → List (List α)
  | 0, _ => []
  | fuel + 1, l =>
    if l.isEmpty then []
    else if l.length ≤ size then [l.take size]
    else l.take size :: slicesFrom size step fuel (l.drop step)

def slices (size step : Nat) (l : List α) : List (List α) := slicesFrom size step l.length l

theorem mem_of_mem_slicesFrom {size step fuel : Nat} {l s : List α} {a : α}
    (hs : s ∈ slicesFrom size step fuel l) (ha : a ∈ s) : a ∈ l := by
  induction fuel generalizing l with
  | zero => cases hs
  | succ fuel ih =>
    unfold slicesFrom at hs
    split at hs
    · cases hs
    · split at hs
      · rw [List.mem_singleton] at hs
        subst hs
        exact List.mem_of_mem_take ha
      · rcases List.mem_cons.1 hs with rfl | hs
        · exact List.mem_of_mem_take ha
        · exact List.mem_of_mem_drop (ih hs)

theorem flatten_slicesFrom {size fuel : Nat} {l : List α} (hsize : 0 < size)
    (hfuel : l.length ≤ fuel) : (slicesFrom size size fuel l).flatten = l := by
  induction fuel generalizing l with
  | zero =>
    rw [List.eq_nil_of_length_eq_zero (Nat.le_zero.1 hfuel)]
    rfl
  | succ fuel ih =>
    unfold slicesFrom
    split
    next hempty => rw [List.isEmpty_iff.1 hempty, List.flatten_nil]
    next hne =>
      split
      next hlen => simp [List.take_of_length_le hlen]
      next hlen =>
        have hlen' : (l.drop size).length ≤ fuel := by
          rw [List.length_drop]
          omega
        rw [List.flatten_cons, ih hlen', List.take_append_drop]

theorem flatten_slices {size : Nat} (hsize : 0 < size) (l : List α) :
    (slices size size l).flatten = l :=
  flatten_slicesFrom hsize (Nat.le_refl _)

end Slices

/-!
## Longest listed prefixes

A table lists words. The prefixes of one text are prefixes of one another, so that of the words that
a text begins with one is the longest, and the first in the order of the table is the longest if no
longer one comes after it.
-/

namespace Prefixes

variable {ε α : Type} {word : ε → List α} {table : List ε} {x : List α} {e e' : ε}

/-- The text begins with the word of the entry, and with no longer one. -/
structure Longest (word : ε → List α) (table : List ε) (x : List α) (e : ε) : Prop where
  mem : e ∈ table
  isPrefix : word e <+: x
  le : ∀ e' ∈ table, word e' <+: x → (word e').length ≤ (word e).length

theorem Longest.prefix_word (h : Longest word table x e) (he' : e' ∈ table)
    (hpre : word e' <+: x) : word e' <+: word e :=
  List.prefix_of_prefix_length_le hpre h.isPrefix (h.le e' he' hpre)

theorem Longest.word_eq (h : Longest word table x e) (h' : Longest word table x e') :
    word e = word e' :=
  (h'.prefix_word h.mem h.isPrefix).eq_of_length_le (h.le e' h'.mem h'.isPrefix)

theorem longest_of_forall (he : e ∈ table) (hpre : word e <+: x)
    (hall : ∀ e' ∈ table, word e' <+: x → word e' <+: word e) : Longest word table x e :=
  ⟨he, hpre, fun e' he' h => (hall e' he' h).length_le⟩

variable [DecidableEq α]

theorem exists_longest (he : e ∈ table) (hpre : word e <+: x) :
    ∃ m, Longest word table x m := by
  have hmem : e ∈ table.filter fun e => (word e).isPrefixOf x := by
    rw [List.mem_filter, List.isPrefixOf_iff_prefix]
    exact ⟨he, hpre⟩
  obtain ⟨m, hm⟩ : ∃ m, (table.filter fun e => (word e).isPrefixOf x).argmax
      (fun e => (word e).length) = some m := by
    refine Option.ne_none_iff_exists'.1 fun hnone => ?_
    rw [List.argmax_eq_none.1 hnone] at hmem
    exact List.not_mem_nil hmem
  obtain ⟨hmem', hstarts⟩ := List.mem_filter.1 (List.argmax_mem hm)
  refine ⟨m, hmem', List.isPrefixOf_iff_prefix.1 hstarts, fun e' he' hpre' => ?_⟩
  refine List.le_of_mem_argmax (f := fun e => (word e).length) ?_ hm
  rw [List.mem_filter, List.isPrefixOf_iff_prefix]
  exact ⟨he', hpre'⟩

end Prefixes
