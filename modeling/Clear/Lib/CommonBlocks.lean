import Mathlib.Data.List.NodupEquivFin
import Mathlib.Data.Nat.Find

/-!
# Common blocks of two sequences

A difference algorithm answers an increasing sequence of common blocks of two lists. Such a sequence
spells a common subsequence of the length of its blocks (`Increasing.exists_sublist`), every common
subsequence is spelled by one (`exists_increasing`), and a longest one cannot be extended
(`exists_longest`).
-/

namespace CommonBlocks

structure Block where
  i : Nat
  j : Nat
  size : Nat
  deriving DecidableEq

variable {α : Type} {a b : List α}

def Block.Common (a b : List α) (x : Block) : Prop :=
  x.i + x.size ≤ a.length ∧ x.j + x.size ≤ b.length ∧
    (a.drop x.i).take x.size = (b.drop x.j).take x.size

def Block.Before (x y : Block) : Prop := x.i + x.size ≤ y.i ∧ x.j + x.size ≤ y.j

structure Increasing (a b : List α) (blocks : List Block) : Prop where
  common : ∀ x ∈ blocks, x.Common a b
  ordered : blocks.Pairwise Block.Before

def Maximal (a b : List α) (blocks : List Block) : Prop :=
  Increasing a b blocks ∧ ∀ pre post x, blocks = pre ++ post → 0 < x.size →
    ¬ Increasing a b (pre ++ x :: post)

def total (blocks : List Block) : Nat := blocks.foldl (fun n x => n + x.size) 0

theorem foldl_total (blocks : List Block) (n : Nat) :
    blocks.foldl (fun n x => n + x.size) n = n + total blocks := by
  unfold total
  induction blocks generalizing n with
  | nil => simp
  | cons x blocks ih =>
    rw [List.foldl_cons, List.foldl_cons, ih, ih (0 + x.size)]
    omega

theorem total_cons (x : Block) (blocks : List Block) : total (x :: blocks) = x.size + total blocks := by
  show blocks.foldl (fun n x => n + x.size) (0 + x.size) = _
  rw [foldl_total]
  omega

theorem total_append (l l' : List Block) : total (l ++ l') = total l + total l' := by
  induction l with
  | nil =>
    show total l' = 0 + total l'
    omega
  | cons x l ih =>
    rw [List.cons_append, total_cons, total_cons, ih]
    omega

theorem slices_sublist (start size : Block → Nat) {blocks : List Block} {k : Nat}
    (hstart : ∀ x ∈ blocks, k ≤ start x)
    (hordered : blocks.Pairwise fun x y => start x + size x ≤ start y) :
    (blocks.flatMap fun x => (a.drop (start x)).take (size x)).Sublist (a.drop k) := by
  induction blocks generalizing k with
  | nil => exact List.nil_sublist _
  | cons x blocks ih =>
    obtain ⟨hfirst, hrest⟩ := List.pairwise_cons.1 hordered
    have hlater := ih hfirst hrest
    have hjoin : ((a.drop (start x)).take (size x) ++ (a.drop (start x + size x))).Sublist
        (a.drop k) := by
      rw [← List.drop_drop, List.take_append_drop]
      exact List.drop_sublist_drop_left a (hstart x List.mem_cons_self)
    rw [List.flatMap_cons]
    exact (hlater.append_left _).trans hjoin

theorem length_slices {blocks : List Block} (h : ∀ x ∈ blocks, x.i + x.size ≤ a.length) :
    (blocks.flatMap fun x => (a.drop x.i).take x.size).length = total blocks := by
  induction blocks with
  | nil => rfl
  | cons x blocks ih =>
    have hx := h x List.mem_cons_self
    rw [List.flatMap_cons, List.length_append, total_cons,
      ih fun y hy => h y (List.mem_cons_of_mem _ hy), List.length_take, List.length_drop]
    omega

theorem Increasing.exists_sublist {blocks : List Block} (h : Increasing a b blocks) :
    ∃ s : List α, s.Sublist a ∧ s.Sublist b ∧ s.length = total blocks := by
  refine ⟨blocks.flatMap fun x => (a.drop x.i).take x.size, ?_, ?_,
    length_slices fun x hx => (h.common x hx).1⟩
  · have hsub := slices_sublist (a := a) Block.i Block.size (k := 0) (fun _ _ => Nat.zero_le _)
      (h.ordered.imp fun hbefore => hbefore.1)
    rwa [List.drop_zero] at hsub
  · have hsub := slices_sublist (a := b) Block.j Block.size (k := 0) (fun _ _ => Nat.zero_le _)
      (h.ordered.imp fun hbefore => hbefore.2)
    rw [List.drop_zero] at hsub
    have hsame : (blocks.flatMap fun x => (a.drop x.i).take x.size) =
        blocks.flatMap fun x => (b.drop x.j).take x.size :=
      List.flatMap_congr fun x hx => (h.common x hx).2.2
    rwa [hsame]

theorem exists_increasing {s : List α} (ha : s.Sublist a) (hb : s.Sublist b) :
    ∃ blocks, Increasing a b blocks ∧ total blocks = s.length := by
  obtain ⟨f, hf⟩ := List.sublist_iff_exists_fin_orderEmbedding_get_eq.1 ha
  obtain ⟨g, hg⟩ := List.sublist_iff_exists_fin_orderEmbedding_get_eq.1 hb
  let block (k : Fin s.length) : Block := { i := f k, j := g k, size := 1 }
  refine ⟨(List.finRange s.length).map block, ⟨?_, ?_⟩, ?_⟩
  · intro x hx
    obtain ⟨k, -, rfl⟩ := List.mem_map.1 hx
    refine ⟨(f k).isLt, (g k).isLt, ?_⟩
    show (a.drop (f k)).take 1 = (b.drop (g k)).take 1
    rw [List.drop_eq_getElem_cons (f k).isLt, List.drop_eq_getElem_cons (g k).isLt]
    have hsame : a.get (f k) = b.get (g k) := (hf k).symm.trans (hg k)
    exact congrArg (fun v => [v]) hsame
  · rw [List.pairwise_map]
    refine (List.pairwise_lt_finRange s.length).imp fun {k l} hkl => ?_
    have hfkl : f k < f l := f.lt_iff_lt.2 hkl
    have hgkl : g k < g l := g.lt_iff_lt.2 hkl
    exact ⟨hfkl, hgkl⟩
  · have htotal : ∀ l : List (Fin s.length), total (l.map block) = l.length := by
      intro l
      induction l with
      | nil => rfl
      | cons k l ih =>
        rw [List.map_cons, total_cons, ih, List.length_cons]
        show 1 + l.length = _
        omega
    rw [htotal, List.length_finRange]

theorem exists_longest (a b : List α) :
    ∃ blocks, Maximal a b blocks ∧ ∀ blocks', Increasing a b blocks' → total blocks' ≤ total blocks := by
  classical
  let P (n : Nat) : Prop := ∃ blocks, Increasing a b blocks ∧ total blocks = n
  have hbound : ∀ {n}, P n → n ≤ a.length := by
    rintro n ⟨blocks, hblocks, rfl⟩
    obtain ⟨s, hs, -, hlength⟩ := hblocks.exists_sublist
    rw [← hlength]
    exact hs.length_le
  have hzero : P 0 := ⟨[], ⟨by simp, List.Pairwise.nil⟩, rfl⟩
  obtain ⟨blocks, hblocks, htotal⟩ : P (Nat.findGreatest P a.length) :=
    Nat.findGreatest_spec (Nat.zero_le _) hzero
  have hlongest : ∀ blocks', Increasing a b blocks' → total blocks' ≤ total blocks := by
    intro blocks' hblocks'
    have hP : P (total blocks') := ⟨blocks', hblocks', rfl⟩
    rw [htotal]
    exact Nat.le_findGreatest (hbound hP) hP
  refine ⟨blocks, ⟨hblocks, fun pre post x hsplit hsize hlonger => ?_⟩, hlongest⟩
  have hle := hlongest _ hlonger
  rw [hsplit, total_append, total_append, total_cons] at hle
  omega

end CommonBlocks
