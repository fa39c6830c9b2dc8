import Clear.Lib.OrderBy
import Mathlib.Data.List.Perm.Basic

/-!
# Paging

`ORDER BY … LIMIT size OFFSET i * size`, one query for each page: every page is a slice of an
answer of its own, and the answers may differ in the order of rows that tie. The pages cover the
rows, whatever the answers are, exactly if no page ends between rows that tie and are shown
differently (`covers_iff`).

* `Answers.take_of_tied`: what comes before a position among tied rows,
* `TiesTogether.perm_slice`: then every answer has the same rows on a page,
* `exists_swapped`: otherwise two answers differ at the end of a page only.
-/

namespace Sql

variable {α β : Type} {o : OrderBy α} {rows out out' : List α} {x y : α} {size : Nat}

def slice (size i : Nat) (l : List α) : List α := (l.drop (i * size)).take size

def pages (size total : Nat) : Nat := (total + size - 1) / size

def before (o : OrderBy α) (rows : List α) (x : α) : Nat := rows.countP fun y => !o.le x y

def upTo (o : OrderBy α) (rows : List α) (x : α) : Nat := rows.countP fun y => o.le y x

def TiesTogether (o : OrderBy α) (rows : List α) (f : α → β) (size : Nat) : Prop :=
  ∀ x ∈ rows, ∀ y ∈ rows, o.le x y = true → o.le y x = true → f x ≠ f y →
    before o rows x / size = (upTo o rows x - 1) / size

def Covers (o : OrderBy α) (rows : List α) (f : α → β) (size : Nat) : Prop :=
  ∀ answers : Nat → List α, (∀ i, Answers o rows (answers i)) →
    ((List.range (pages size rows.length)).flatMap fun i =>
      (slice size i (answers i)).map f).Perm (rows.map f)

/-! ## Where the rows of an answer stand -/

/-- In a sorted list the elements of a lower set come first. -/
theorem take_countP {p : α → Bool} (hsorted : out.Pairwise fun a b => o.le a b = true)
    (hlower : ∀ a b, o.le a b = true → p b = true → p a = true) :
    out.take (out.countP p) = out.filter p := by
  induction out with
  | nil => rfl
  | cons a out ih =>
    obtain ⟨hle, hrest⟩ := List.pairwise_cons.1 hsorted
    by_cases ha : p a = true
    · rw [List.countP_cons_of_pos ha, List.take_succ_cons, ih hrest, List.filter_cons_of_pos ha]
    · have hnone : ∀ b ∈ a :: out, ¬ p b = true := by
        intro b hb
        rcases List.mem_cons.1 hb with rfl | hb
        · exact ha
        · exact fun hpb => ha (hlower a b (hle b hb) hpb)
      rw [List.countP_eq_zero.2 hnone, List.filter_eq_nil_iff.2 hnone, List.take_zero]

theorem Answers.take_before (h : Answers o rows out) (x : α) :
    out.take (before o rows x) = out.filter fun y => !o.le x y := by
  unfold before
  rw [← h.perm.countP_eq]
  refine take_countP h.sorted fun a b hab hb => ?_
  rw [Bool.not_eq_true', Bool.eq_false_iff] at hb ⊢
  exact fun hxa => hb (o.trans _ _ _ hxa hab)

theorem Answers.take_upTo (h : Answers o rows out) (x : α) :
    out.take (upTo o rows x) = out.filter fun y => o.le y x := by
  unfold upTo
  rw [← h.perm.countP_eq]
  exact take_countP h.sorted fun a b hab hb => o.trans _ _ _ hab hb

/-- Nothing of a lower set is left where it is taken. -/
theorem not_of_mem_drop {p : α → Bool} {n : Nat} (htake : out.take n = out.filter p)
    (hy : y ∈ out.drop n) : ¬ p y = true := by
  have hsplit := congrArg (List.filter p) (List.take_append_drop n out)
  rw [List.filter_append, htake, List.filter_filter] at hsplit
  simp only [Bool.and_self] at hsplit
  exact List.filter_eq_nil_iff.1 (List.append_right_eq_self.1 hsplit) y hy

theorem Answers.take_of_tied (h : Answers o rows out) {m : Nat} (hm : before o rows x ≤ m)
    (hm' : m ≤ upTo o rows x) : ∃ rest, out.take m = (out.filter fun y => !o.le x y) ++ rest ∧
      rest.length = m - before o rows x ∧
        ∀ y ∈ rest, y ∈ rows ∧ o.le x y = true ∧ o.le y x = true := by
  have hmem : ∀ y ∈ (out.take m).drop (before o rows x),
      y ∈ rows ∧ o.le x y = true ∧ o.le y x = true := by
    intro y hy
    have htake := List.mem_of_mem_drop hy
    refine ⟨h.perm.mem_iff.1 (List.mem_of_mem_take htake), ?_, ?_⟩
    · rw [List.drop_take] at hy
      have hnot := not_of_mem_drop (h.take_before x) (List.mem_of_mem_take hy)
      simpa using hnot
    · have hupTo : y ∈ out.take (upTo o rows x) := List.take_subset_take_left out hm' htake
      rw [h.take_upTo] at hupTo
      exact (List.mem_filter.1 hupTo).2
  refine ⟨_, ?_, ?_, hmem⟩
  · have hsplit := List.take_append_drop (before o rows x) (out.take m)
    rw [List.take_take, Nat.min_eq_left hm, h.take_before] at hsplit
    exact hsplit.symm
  · have hlength : upTo o rows x ≤ out.length := by
      rw [h.perm.length_eq]
      exact List.countP_le_length
    rw [List.length_drop, List.length_take]
    omega

theorem Answers.position (h : Answers o rows out) {m : Nat} (hx : out[m]? = some x) :
    before o rows x ≤ m ∧ m < upTo o rows x := by
  have hmem : ∀ n, n ≤ m → x ∈ out.drop n := by
    intro n hn
    refine List.mem_of_getElem? (i := m - n) ?_
    rw [List.getElem?_drop, Nat.add_sub_cancel' hn, hx]
  constructor
  · by_contra hlt
    have htake : x ∈ out.take (before o rows x) := by
      refine List.mem_of_getElem? (i := m) ?_
      rw [List.getElem?_take_of_lt (by omega), hx]
    rw [h.take_before] at htake
    have hnot := (List.mem_filter.1 htake).2
    simp [o.refl x] at hnot
  · by_contra hge
    exact not_of_mem_drop (h.take_upTo x) (hmem _ (by omega)) (o.refl x)

theorem before_lt_upTo (hx : x ∈ rows) : before o rows x < upTo o rows x := by
  have h := o.answers_sort rows
  obtain ⟨m, hm⟩ := List.mem_iff_getElem?.1 (h.perm.mem_iff.2 hx)
  have hposition := h.position hm
  omega

/-! ## Pages of tied rows that are together -/

theorem div_lt_of_split {a b k : Nat} (hs : 0 < size) (ha : a < k * size) (hb : k * size ≤ b) :
    a / size < b / size :=
  lt_of_lt_of_le ((Nat.div_lt_iff_lt_mul hs).2 ha) ((Nat.le_div_iff_mul_le hs).2 hb)

theorem map_eq_replicate {f : α → β} {l : List α} {b : β} (h : ∀ y ∈ l, f y = b) :
    l.map f = List.replicate l.length b := by
  rw [← List.map_const']
  exact List.map_congr_left h

/-- Up to the end of a page two answers show the same. -/
theorem TiesTogether.perm_take {f : α → β} (hties : TiesTogether o rows f size) (hs : 0 < size)
    (h : Answers o rows out) (h' : Answers o rows out') (k : Nat) :
    ((out.take (k * size)).map f).Perm ((out'.take (k * size)).map f) := by
  cases hx : out[k * size]? with
  | none =>
    have hlength := List.getElem?_eq_none_iff.1 hx
    rw [List.take_of_length_le hlength, List.take_of_length_le
      (by rwa [h'.perm.length_eq, ← h.perm.length_eq])]
    exact (h.perm.trans h'.perm.symm).map f
  | some x =>
    obtain ⟨hbefore, hupTo⟩ := h.position hx
    obtain ⟨rest, hrest, hlength, htied⟩ := h.take_of_tied hbefore hupTo.le
    obtain ⟨rest', hrest', hlength', htied'⟩ := h'.take_of_tied hbefore hupTo.le
    have hxrows : x ∈ rows := h.perm.mem_iff.1 (List.mem_of_getElem? hx)
    have hsame : rest.map f = rest'.map f := by
      by_cases hstart : before o rows x = k * size
      · rw [List.length_eq_zero_iff.1 (by omega : rest.length = 0),
          List.length_eq_zero_iff.1 (by omega : rest'.length = 0)]
      · -- the page ends among tied rows, which are all shown alike
        have halike : ∀ y, y ∈ rows ∧ o.le x y = true ∧ o.le y x = true → f y = f x := by
          intro y hy
          by_contra hne
          have hdiv := hties x hxrows y hy.1 hy.2.1 hy.2.2 (Ne.symm hne)
          have hfirst : before o rows x < k * size := by omega
          have hlast : k * size ≤ upTo o rows x - 1 := by omega
          exact absurd hdiv (div_lt_of_split hs hfirst hlast).ne
        rw [map_eq_replicate fun y hy => halike y (htied y hy),
          map_eq_replicate fun y hy => halike y (htied' y hy), hlength, hlength']
    rw [hrest, hrest', List.map_append, List.map_append, hsame]
    exact (((h.perm.trans h'.perm.symm).filter _).map f).append_right _

theorem take_succ_slice (i : Nat) (l : List α) :
    l.take ((i + 1) * size) = l.take (i * size) ++ slice size i l := by
  rw [Nat.succ_mul, List.take_add]
  rfl

theorem TiesTogether.perm_slice {f : α → β} (hties : TiesTogether o rows f size) (hs : 0 < size)
    (h : Answers o rows out) (h' : Answers o rows out') (i : Nat) :
    ((slice size i out).map f).Perm ((slice size i out').map f) := by
  have hnext := hties.perm_take hs h h' (i + 1)
  rw [take_succ_slice, take_succ_slice, List.map_append, List.map_append] at hnext
  have hleft := (hties.perm_take hs h' h i).append_right ((slice size i out').map f)
  exact (List.perm_append_left_iff _).1 (hnext.trans hleft)

theorem flatMap_slice (size : Nat) (l : List α) (k : Nat) :
    ((List.range k).flatMap fun i => slice size i l) = l.take (k * size) := by
  induction k with
  | zero => simp
  | succ k ih =>
    rw [List.range_succ, List.flatMap_append, ih, List.flatMap_singleton, take_succ_slice]

theorem length_le_pages (hs : 0 < size) (n : Nat) : n ≤ pages size n * size := by
  unfold pages
  have hmod := Nat.div_add_mod (n + size - 1) size
  have hlt := Nat.mod_lt (n + size - 1) hs
  rw [Nat.mul_comm] at hmod
  omega

theorem flatMap_pages (f : α → β) (hs : 0 < size) (l : List α) :
    ((List.range (pages size l.length)).flatMap fun i => (slice size i l).map f) = l.map f := by
  have hall := flatMap_slice size l (pages size l.length)
  rw [List.take_of_length_le (length_le_pages hs _)] at hall
  rw [← List.map_flatMap, hall]

/-! ## Rows that tie across the end of a page -/

/-- Rows that tie with each other can be given in any order. -/
theorem Answers.perm_tied {front tied tied' back : List α}
    (h : Answers o rows (front ++ (tied ++ back))) (hperm : tied'.Perm tied)
    (hle : ∀ a ∈ tied, ∀ b ∈ tied, o.le a b = true) :
    Answers o rows (front ++ (tied' ++ back)) := by
  refine ⟨((hperm.append_right back).append_left front).trans h.perm, ?_⟩
  obtain ⟨hfront, hrest, hcross⟩ := List.pairwise_append.1 h.sorted
  obtain ⟨-, hback, hcross'⟩ := List.pairwise_append.1 hrest
  refine List.pairwise_append.2 ⟨hfront, List.pairwise_append.2 ⟨?_, hback, ?_⟩, ?_⟩
  · exact List.pairwise_of_forall_mem_list fun a ha b hb =>
      hle a (hperm.mem_iff.1 ha) b (hperm.mem_iff.1 hb)
  · exact fun a ha => hcross' a (hperm.mem_iff.1 ha)
  · intro a ha b hb
    refine hcross a ha b ?_
    rw [List.mem_append] at hb ⊢
    exact hb.imp_left hperm.mem_iff.1

theorem perm_place (x y : α) (l : List α) (n : Nat) :
    (l.take n ++ x :: y :: l.drop n).Perm (x :: y :: l) := by
  refine List.perm_middle.trans (List.Perm.cons x (List.perm_middle.trans ?_))
  rw [List.take_append_drop]

/-- Two different rows that tie can stand at any place among the tied rows, in both orders. -/
theorem exists_swapped (hx : x ∈ rows) (hy : y ∈ rows) (hne : x ≠ y) (hxy : o.le x y = true)
    (hyx : o.le y x = true) {m : Nat} (hm : before o rows x ≤ m)
    (hm' : m + 1 < upTo o rows x) : ∃ front back, front.length = m ∧
      Answers o rows (front ++ x :: y :: back) ∧ Answers o rows (front ++ y :: x :: back) := by
  have h := o.answers_sort rows
  obtain ⟨tied, htake, hlength, htied⟩ := h.take_of_tied (x := x) (by omega) le_rfl
  have hsplit := List.take_append_drop (upTo o rows x) (o.sort rows)
  rw [htake, List.append_assoc] at hsplit
  have hmem : ∀ z ∈ rows, o.le x z = true → o.le z x = true → z ∈ tied := by
    intro z hz hxz hzx
    have hz' : z ∈ (o.sort rows).take (upTo o rows x) := by
      rw [h.take_upTo]
      exact List.mem_filter.2 ⟨h.perm.mem_iff.2 hz, hzx⟩
    rw [htake, List.mem_append] at hz'
    refine hz'.resolve_left fun hstrict => ?_
    have hnot := (List.mem_filter.1 hstrict).2
    simp [hxz] at hnot
  obtain ⟨l, l', htiedx⟩ := List.append_of_mem (hmem x hx (o.refl x) (o.refl x))
  have hymem : y ∈ l ++ l' := by
    have hy' := hmem y hy hxy hyx
    rw [htiedx] at hy'
    simpa [Ne.symm hne] using hy'
  obtain ⟨l₁, l₂, hties⟩ := List.append_of_mem hymem
  have hperm : (x :: y :: (l₁ ++ l₂)).Perm tied := by
    rw [htiedx]
    refine List.Perm.trans ?_ List.perm_middle.symm
    rw [hties]
    exact List.perm_middle.symm.cons x
  have hfront : ((o.sort rows).filter fun z => !o.le x z).length = before o rows x := by
    unfold before
    rw [← List.countP_eq_length_filter, h.perm.countP_eq]
  have hcount : (l₁ ++ l₂).length + 2 = tied.length := hperm.length_eq
  have hle : ∀ a ∈ tied, ∀ b ∈ tied, o.le a b = true := fun a ha b hb =>
    o.trans _ _ _ (htied a ha).2.2 (htied b hb).2.1
  rw [← hsplit] at h
  refine ⟨((o.sort rows).filter fun z => !o.le x z) ++ (l₁ ++ l₂).take (m - before o rows x),
    (l₁ ++ l₂).drop (m - before o rows x) ++ (o.sort rows).drop (upTo o rows x), ?_, ?_, ?_⟩
  · rw [List.length_append, hfront, List.length_take]
    omega
  · have hplaced := h.perm_tied ((perm_place x y (l₁ ++ l₂) (m - before o rows x)).trans hperm) hle
    simpa using hplaced
  · have hswap : (y :: x :: (l₁ ++ l₂)).Perm tied := (List.Perm.swap x y _).trans hperm
    have hplaced := h.perm_tied ((perm_place y x (l₁ ++ l₂) (m - before o rows x)).trans hswap) hle
    simpa using hplaced

theorem tiesTogether_of_length_le {f : α → β} (h : rows.length ≤ size) :
    TiesTogether o rows f size := by
  intro x hx _ _ _ _ _
  have hlt := before_lt_upTo (o := o) hx
  have hcount : upTo o rows x ≤ rows.length := List.countP_le_length
  rw [Nat.div_eq_of_lt (by omega), Nat.div_eq_of_lt (by omega)]

/-! ## Coverage -/

/-- Two families of pages that differ in one page only and show the same together show the same on
that page. -/
theorem perm_of_flatMap {g g' : Nat → List β} {l : List Nat} {i : Nat} (hnodup : l.Nodup)
    (hi : i ∈ l) (hne : ∀ j, j ≠ i → g j = g' j) (h : (l.flatMap g).Perm (l.flatMap g')) :
    (g i).Perm (g' i) := by
  obtain ⟨l₁, l₂, rfl⟩ := List.append_of_mem hi
  obtain ⟨-, hcons, hdisjoint⟩ := List.nodup_append.1 hnodup
  have hfirst : l₁.flatMap g = l₁.flatMap g' := List.flatMap_congr fun j hj =>
    hne j (hdisjoint j hj i List.mem_cons_self)
  have hlast : l₂.flatMap g = l₂.flatMap g' := List.flatMap_congr fun j hj =>
    hne j fun heq => (List.nodup_cons.1 hcons).1 (heq ▸ hj)
  rw [List.flatMap_append, List.flatMap_append, List.flatMap_cons, List.flatMap_cons, hfirst,
    hlast, List.perm_append_left_iff, List.perm_append_right_iff] at h
  exact h

/-- The last row of a page. -/
theorem slice_append {front back : List α} {i : Nat} (hfront : front.length + 1 = (i + 1) * size)
    (hs : 0 < size) : slice size i (front ++ x :: back) = front.drop (i * size) ++ [x] := by
  rw [Nat.succ_mul] at hfront
  unfold slice
  rw [List.drop_append_of_le_length (by omega), List.take_append, List.take_of_length_le
    (by rw [List.length_drop]; omega), List.length_drop,
    show size - (front.length - i * size) = 1 by omega]
  rfl

theorem covers_iff (f : α → β) (hs : 0 < size) :
    Covers o rows f size ↔ TiesTogether o rows f size := by
  constructor
  · intro h x hx y hy hxy hyx hne
    by_contra hsplit
    have hpos := before_lt_upTo (o := o) hx
    have hle : before o rows x / size ≤ (upTo o rows x - 1) / size :=
      Nat.div_le_div_right (by omega)
    -- the first page that has a row tied with `x` ends among such rows
    let i := before o rows x / size
    have hbefore : before o rows x < (i + 1) * size := by
      rw [Nat.mul_comm]
      exact Nat.lt_mul_div_succ _ hs
    have hupTo : (i + 1) * size ≤ upTo o rows x - 1 :=
      (Nat.le_div_iff_mul_le hs).1 (lt_of_le_of_ne hle hsplit)
    obtain ⟨front, back, hfront, hxy, hyx⟩ := exists_swapped hx hy (fun heq => hne (heq ▸ rfl))
      hxy hyx (show before o rows x ≤ (i + 1) * size - 1 by omega) (by omega)
    have hlength : front.length + 1 = (i + 1) * size := by omega
    have hpage : i ∈ List.range (pages size rows.length) := by
      have hcount : upTo o rows x ≤ rows.length := List.countP_le_length
      have hi : (i + 1) * size ≤ rows.length + size - 1 := by omega
      rw [List.mem_range]
      exact (Nat.le_div_iff_mul_le hs).2 hi
    have hsame := h (fun _ => front ++ x :: y :: back) fun _ => hxy
    have hother := h (fun j => if j = i then front ++ y :: x :: back else front ++ x :: y :: back)
      fun j => by split; exacts [hyx, hxy]
    have hshown := perm_of_flatMap List.nodup_range hpage (fun j hj => by simp [hj])
      (hsame.trans hother.symm)
    rw [if_pos rfl, slice_append hlength hs, slice_append hlength hs, List.map_append,
      List.map_append, List.perm_append_left_iff] at hshown
    exact hne (List.singleton_perm_singleton.1 hshown)
  · intro hties answers hanswers
    have hstable := o.answers_sort rows
    have hpages := flatMap_pages f hs (o.sort rows)
    rw [hstable.perm.length_eq] at hpages
    refine (List.Perm.flatMap_left _ fun i _ =>
      hties.perm_slice hs (hanswers i) hstable i).trans ?_
    rw [hpages]
    exact hstable.perm.map f

end Sql
