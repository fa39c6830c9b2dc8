import Mathlib.Data.List.Basic
import Mathlib.Data.List.Pairwise
import Mathlib.Data.List.Sort
import Mathlib.Logic.Function.Basic
import Mathlib.Order.WithBot

/-!
# `ORDER BY`

What a SQL `SELECT … ORDER BY` promises: a permutation of the selected rows, sorted by the clause;
rows that tie come in any order. An `OrderBy` is a clause (a total preorder by construction), an
`Engine` picks one admissible answer for every clause and every list of rows.

* `exists_head_iff`: the rows that `ORDER BY … LIMIT 1` can return,
* `exists_last_iff`: the rows that can come last among those satisfying a predicate,
* `foldl_update`: a dict built by assigning every row under its key holds the last row of each key,
* `distinctOn`, `distinctOn_find`: `DISTINCT ON` keeps the first row of each key.
-/

namespace Sql

variable {α β κ : Type}

structure OrderBy (α : Type) where
  le : α → α → Bool
  trans : ∀ a b c, le a b → le b c → le a c
  total : ∀ a b, le a b || le b a

namespace OrderBy

theorem refl (o : OrderBy α) (a : α) : o.le a a = true := by simpa using o.total a a

def asc [LinearOrder β] (key : α → β) : OrderBy α where
  le a b := key a ≤ key b
  trans a b c := by simpa using fun h h' => le_trans h h'
  total a b := by simpa using le_total (key a) (key b)

def desc [LinearOrder β] (key : α → β) : OrderBy α where
  le a b := key b ≤ key a
  trans a b c := by simpa using fun h h' => le_trans h' h
  total a b := by simpa using le_total (key b) (key a)

def descNullsLast [LinearOrder β] (key : α → Option β) : OrderBy α :=
  @desc α (WithBot β) _ key

def ascNullsLast [LinearOrder β] (key : α → Option β) : OrderBy α :=
  @asc α (WithTop β) _ key

def comap (key : α → β) (o : OrderBy β) : OrderBy α where
  le a b := o.le (key a) (key b)
  trans _ _ _ := o.trans _ _ _
  total _ _ := o.total _ _

def nullsLast (o : OrderBy α) : OrderBy (Option α) where
  le
    | _, none => true
    | none, some _ => false
    | some a, some b => o.le a b
  trans a b c := by
    cases a <;> cases b <;> cases c <;> simp
    exact o.trans _ _ _
  total a b := by
    cases a <;> cases b <;> simp
    simpa using o.total _ _

def reverse (o : OrderBy α) : OrderBy α where
  le a b := o.le b a
  trans _ _ _ h h' := o.trans _ _ _ h' h
  total a b := o.total b a

def unordered : OrderBy α where
  le _ _ := true
  trans _ _ _ _ _ := rfl
  total _ _ := rfl

def thenBy (o o' : OrderBy α) : OrderBy α where
  le a b := o.le a b && (!o.le b a || o'.le a b)
  trans a b c := by
    simp only [Bool.and_eq_true, Bool.or_eq_true, Bool.not_eq_true']
    rintro ⟨h1, h2⟩ ⟨h3, h4⟩
    refine ⟨o.trans _ _ _ h1 h3, ?_⟩
    rcases h2 with h2 | h2
    · left
      by_contra hca
      rw [Bool.not_eq_false] at hca
      simp [o.trans _ _ _ h3 hca] at h2
    · rcases h4 with h4 | h4
      · left
        by_contra hca
        rw [Bool.not_eq_false] at hca
        simp [o.trans _ _ _ hca h1] at h4
      · exact .inr (o'.trans _ _ _ h2 h4)
  total a b := by
    have h := o.total a b
    have h' := o'.total a b
    revert h h'
    cases o.le a b <;> cases o.le b a <;> simp

@[simp] theorem asc_le [LinearOrder β] {key : α → β} {a b : α} :
    (asc key).le a b = true ↔ key a ≤ key b := by simp [asc]

@[simp] theorem desc_le [LinearOrder β] {key : α → β} {a b : α} :
    (desc key).le a b = true ↔ key b ≤ key a := by simp [desc]

theorem thenBy_le {o o' : OrderBy α} {a b : α} :
    (o.thenBy o').le a b = true ↔ o.le a b = true ∧ (o.le b a = true → o'.le a b = true) := by
  simp only [thenBy, Bool.and_eq_true, Bool.or_eq_true, Bool.not_eq_true']
  cases o.le b a <;> simp

/-- The clause sorts by the negation of its strict part. -/
theorem le_of_not_le {o : OrderBy α} {a b : α} (h : ¬ o.le a b = true) : o.le b a = true := by
  have := o.total a b
  simp_all

end OrderBy

/-! ## Answers -/

structure Answers (o : OrderBy α) (rows out : List α) : Prop where
  perm : out.Perm rows
  sorted : out.Pairwise fun a b => o.le a b = true

def OrderBy.sort (o : OrderBy α) (rows : List α) : List α :=
  rows.insertionSort fun a b => o.le a b = true

theorem OrderBy.answers_sort (o : OrderBy α) (rows : List α) : Answers o rows (o.sort rows) := by
  have : Std.Total fun a b => o.le a b = true := ⟨fun a b => by simpa using o.total a b⟩
  have : IsTrans α fun a b => o.le a b = true := ⟨o.trans⟩
  exact ⟨List.perm_insertionSort _ _, List.pairwise_insertionSort _ _⟩

theorem OrderBy.pairwise_sort_asc [LinearOrder β] {key : α → β} {rows : List α}
    (h : (rows.map key).Nodup) {Q : α → α → Prop} :
    ((asc key).sort rows).Pairwise Q ↔ ∀ a ∈ rows, ∀ b ∈ rows, key a < key b → Q a b := by
  obtain ⟨hperm, hsorted⟩ := OrderBy.answers_sort (asc key) rows
  have hle : ((asc key).sort rows).Pairwise fun a b => key a ≤ key b :=
    hsorted.imp fun hab => by simpa [asc] using hab
  have hne : ((asc key).sort rows).Pairwise fun a b => key a ≠ key b :=
    List.pairwise_map.1 ((hperm.map key).nodup_iff.2 h)
  have hlt := hle.and hne
  constructor
  · intro hQ a ha b hb hab
    have hsym : ((asc key).sort rows).Pairwise fun a b =>
        (key a < key b → Q a b) ∧ (key b < key a → Q b a) :=
      (hQ.and hlt).imp fun hab =>
        ⟨fun _ => hab.1, fun hba => absurd hba (not_lt.2 hab.2.1)⟩
    have : Std.Symm fun a b => (key a < key b → Q a b) ∧ (key b < key a → Q b a) :=
      ⟨fun _ _ hab => ⟨hab.2, hab.1⟩⟩
    exact (hsym.forall (hperm.mem_iff.2 ha) (hperm.mem_iff.2 hb)
      (fun heq => absurd hab (heq ▸ lt_irrefl _))).1 hab
  · intro hQ
    exact hlt.imp_of_mem fun ha hb hab =>
      hQ _ (hperm.mem_iff.1 ha) _ (hperm.mem_iff.1 hb) (lt_of_le_of_ne hab.1 hab.2)

structure Engine (α : Type) where
  select : OrderBy α → List α → List α
  answers : ∀ o rows, Answers o rows (select o rows)

namespace Engine

def stable : Engine α where
  select o rows := o.sort rows
  answers := OrderBy.answers_sort

open Classical in
noncomputable def answering {o : OrderBy α} {rows out : List α} (h : Answers o rows out) :
    Engine α where
  select o' rows' := if o' = o ∧ rows' = rows then out else o'.sort rows'
  answers o' rows' := by
    split
    · rename_i he
      obtain ⟨rfl, rfl⟩ := he
      exact h
    · exact o'.answers_sort rows'

theorem answering_select {o : OrderBy α} {rows out : List α} (h : Answers o rows out) :
    (answering h).select o rows = out := by simp [answering]

theorem mem_select (e : Engine α) {o : OrderBy α} {rows : List α} {x : α} :
    x ∈ e.select o rows ↔ x ∈ rows := (e.answers o rows).perm.mem_iff

end Engine

/-! ## `LIMIT 1` -/

theorem Answers.head_le {o : OrderBy α} {rows out : List α} {x : α} (h : Answers o rows out)
    (hx : out.head? = some x) : x ∈ rows ∧ ∀ y ∈ rows, o.le x y = true := by
  obtain ⟨tl, rfl⟩ : ∃ tl, out = x :: tl := by
    cases out with
    | nil => simp at hx
    | cons a tl => exact ⟨tl, by simpa using hx⟩
  refine ⟨h.perm.mem_iff.1 (by simp), fun y hy => ?_⟩
  rcases List.mem_cons.1 (h.perm.mem_iff.2 hy) with rfl | hy
  · exact o.refl y
  · exact List.rel_of_pairwise_cons h.sorted hy

theorem Answers.head_none {o : OrderBy α} {rows out : List α} (h : Answers o rows out) :
    out.head? = none ↔ rows = [] := by
  rw [List.head?_eq_none_iff, ← List.length_eq_zero_iff, h.perm.length_eq,
    List.length_eq_zero_iff]

/-- The rows that `ORDER BY o LIMIT 1` can return are the least ones. -/
theorem exists_head_iff {o : OrderBy α} {rows : List α} {x : α} :
    (∃ e : Engine α, (e.select o rows).head? = some x) ↔
      x ∈ rows ∧ ∀ y ∈ rows, o.le x y = true := by
  constructor
  · rintro ⟨e, he⟩
    exact (e.answers o rows).head_le he
  · rintro ⟨hx, hle⟩
    obtain ⟨l₁, l₂, rfl⟩ := List.append_of_mem hx
    have hrest := o.answers_sort (l₁ ++ l₂)
    have h : Answers o (l₁ ++ x :: l₂) (x :: o.sort (l₁ ++ l₂)) := by
      refine ⟨(hrest.perm.cons x).trans List.perm_middle.symm, ?_⟩
      refine List.pairwise_cons.2 ⟨fun y hy => hle y ?_, hrest.sorted⟩
      have := hrest.perm.mem_iff.1 hy
      simp only [List.mem_append, List.mem_cons] at this ⊢
      tauto
    exact ⟨.answering h, by simp [Engine.answering_select]⟩

/-! ## The last row of a kind -/

theorem Answers.last_le {o : OrderBy α} {rows out : List α} {p : α → Bool} {x : α}
    (h : Answers o rows out) (hx : (out.filter p).getLast? = some x) :
    x ∈ rows ∧ p x = true ∧ ∀ y ∈ rows, p y = true → o.le y x = true := by
  obtain ⟨init, hinit⟩ : ∃ init, out.filter p = init ++ [x] :=
    ⟨_, (List.dropLast_append_getLast? x hx).symm⟩
  have hmem : x ∈ out.filter p := by simp [hinit]
  obtain ⟨hxo, hpx⟩ := List.mem_filter.1 hmem
  refine ⟨h.perm.mem_iff.1 hxo, hpx, fun y hy hpy => ?_⟩
  have hsorted : (init ++ [x]).Pairwise fun a b => o.le a b = true :=
    hinit ▸ h.sorted.sublist List.filter_sublist
  have hy' : y ∈ init ++ [x] := hinit ▸ List.mem_filter.2 ⟨h.perm.mem_iff.2 hy, hpy⟩
  rcases List.mem_append.1 hy' with hy' | hy'
  · exact (List.pairwise_append.1 hsorted).2.2 y hy' x (by simp)
  · rw [List.mem_singleton.1 hy']
    exact o.refl x

/-- The rows of kind `p` that can come last are the greatest ones of that kind. -/
theorem exists_last_iff {o : OrderBy α} {rows : List α} {p : α → Bool} {x : α} :
    (∃ e : Engine α, ((e.select o rows).filter p).getLast? = some x) ↔
      x ∈ rows ∧ p x = true ∧ ∀ y ∈ rows, p y = true → o.le y x = true := by
  constructor
  · rintro ⟨e, he⟩
    exact (e.answers o rows).last_le he
  · rintro ⟨hx, hpx, hle⟩
    obtain ⟨l₁, l₂, rfl⟩ := List.append_of_mem hx
    -- The rows not above `x`, then `x`, then the rows above it, none of which is of kind `p`.
    let below := (l₁ ++ l₂).filter fun y => o.le y x
    let above := (l₁ ++ l₂).filter fun y => !o.le y x
    have hb := o.answers_sort below
    have ha := o.answers_sort above
    have hbx : ∀ y ∈ o.sort below, o.le y x = true := fun y hy =>
      (List.mem_filter.1 (hb.perm.mem_iff.1 hy)).2
    have hax : ∀ y ∈ o.sort above, ¬ o.le y x = true := fun y hy => by
      simpa using (List.mem_filter.1 (ha.perm.mem_iff.1 hy)).2
    have h : Answers o (l₁ ++ x :: l₂)
        (o.sort below ++ x :: o.sort above) := by
      refine ⟨?_, ?_⟩
      · have hsplit : (below ++ above).Perm (l₁ ++ l₂) := List.filter_append_perm _ _
        exact List.perm_middle.trans (((hb.perm.append ha.perm).trans hsplit).cons x |>.trans
          List.perm_middle.symm)
      · refine List.pairwise_append.2 ⟨hb.sorted, List.pairwise_cons.2 ⟨fun y hy => ?_,
          ha.sorted⟩, fun a hxa b hxb => ?_⟩
        · exact OrderBy.le_of_not_le (hax y hy)
        · rcases List.mem_cons.1 hxb with rfl | hxb
          · exact hbx a hxa
          · exact o.trans _ _ _ (hbx a hxa) (OrderBy.le_of_not_le (hax b hxb))
    refine ⟨.answering h, ?_⟩
    have hnone : (o.sort above).filter p = [] := by
      rw [List.filter_eq_nil_iff]
      intro y hy hpy
      have hmem : y ∈ l₁ ++ l₂ := (List.mem_filter.1 (ha.perm.mem_iff.1 hy)).1
      refine hax y hy (hle y ?_ hpy)
      simp only [List.mem_append, List.mem_cons] at hmem ⊢
      tauto
    simp [Engine.answering_select, List.filter_append, hpx, hnone]

/-! ## A dict filled row by row -/

theorem foldl_update [DecidableEq κ] (key : α → κ) (rows : List α) (m : κ → Option α) (k : κ) :
    rows.foldl (fun m r => Function.update m (key r) (some r)) m k =
      ((rows.filter fun r => key r = k).getLast?).or (m k) := by
  induction rows generalizing m with
  | nil => simp
  | cons r rows ih =>
    rw [List.foldl_cons, ih]
    by_cases h : key r = k
    · subst h
      rw [List.filter_cons_of_pos (by simp), Function.update_self, List.getLast?_cons]
      cases (rows.filter fun r' => key r' = key r).getLast? <;> simp
    · rw [List.filter_cons_of_neg (by simpa using h), Function.update_of_ne (Ne.symm h)]

/-! ## The first row of each key -/

def distinctOn [DecidableEq κ] (key : α → κ) : List α → List α
  | [] => []
  | r :: rows => r :: (distinctOn key rows).filter (key · ≠ key r)

theorem distinctOn_find [DecidableEq κ] (key : α → κ) (rows : List α) (k : κ) :
    (distinctOn key rows).find? (key · = k) = rows.find? (key · = k) := by
  induction rows with
  | nil => rfl
  | cons r rows ih =>
    by_cases hr : key r = k
    · simp [distinctOn, hr]
    · rw [distinctOn, List.find?_cons_of_neg (by simpa using hr),
        List.find?_cons_of_neg (by simpa using hr), ← ih, List.find?_filter]
      congr 1
      funext a
      by_cases ha : key a = k
      · simp [ha, Ne.symm hr]
      · simp [ha]

theorem map_distinctOn [DecidableEq κ] (key : α → κ) (rows : List α) :
    ((distinctOn key rows).map key).Nodup ∧
      ∀ k, k ∈ (distinctOn key rows).map key ↔ k ∈ rows.map key := by
  induction rows with
  | nil => exact ⟨List.nodup_nil, fun _ => Iff.rfl⟩
  | cons r rows ih =>
    have hrest : ∀ k, k ∈ ((distinctOn key rows).filter (key · ≠ key r)).map key ↔
        k ∈ rows.map key ∧ k ≠ key r := by
      intro k
      rw [← ih.2 k]
      simp only [List.mem_map, List.mem_filter, decide_eq_true_eq]
      constructor
      · rintro ⟨a, ⟨ha, hne⟩, rfl⟩
        exact ⟨⟨a, ha, rfl⟩, hne⟩
      · rintro ⟨⟨a, ha, rfl⟩, hne⟩
        exact ⟨a, ⟨ha, hne⟩, rfl⟩
    rw [distinctOn, List.map_cons, List.nodup_cons]
    refine ⟨⟨fun h => ((hrest _).1 h).2 rfl, ih.1.sublist (List.filter_sublist.map key)⟩, ?_⟩
    intro k
    rw [List.map_cons, List.mem_cons, List.mem_cons, hrest]
    tauto

theorem distinctOn_eq_self [DecidableEq κ] {key : α → κ} {rows : List α}
    (h : (rows.map key).Nodup) : distinctOn key rows = rows := by
  induction rows with
  | nil => rfl
  | cons r rows ih =>
    rw [List.map_cons, List.nodup_cons] at h
    rw [distinctOn, ih h.2, List.filter_eq_self.2]
    intro a ha
    have hne : key a ≠ key r := fun heq => h.1 (heq ▸ List.mem_map_of_mem ha)
    simpa using hne

/-- The first row of a kind is a least one of that kind. -/
theorem Answers.find_le {o : OrderBy α} {rows out : List α} {p : α → Bool} {x : α}
    (h : Answers o rows out) (hx : out.find? p = some x) :
    x ∈ rows ∧ p x = true ∧ ∀ y ∈ rows, p y = true → o.le x y = true := by
  have hp : p x = true := List.find?_some hx
  obtain ⟨-, before, after, rfl, hbefore⟩ := List.find?_eq_some_iff_append.1 hx
  refine ⟨h.perm.mem_iff.1 (by simp), hp, fun y hy hpy => ?_⟩
  rcases List.mem_append.1 (h.perm.mem_iff.2 hy) with hy | hy
  · have hnot := hbefore y hy
    simp [hpy] at hnot
  · rcases List.mem_cons.1 hy with rfl | hy
    · exact o.refl y
    · exact List.rel_of_pairwise_cons (List.pairwise_append.1 h.sorted).2.1 hy

end Sql

/-!
## Stable sorting

Sorting by a total preorder keeps the elements that tie in their order, so it commutes with
dropping elements (`filter_mergeSort`).
-/

namespace List

variable {α : Type} {le : α → α → Bool}

/-- A list is cut in one place into the elements that satisfy `p` and those that do not. -/
theorem append_cancel_of_split {p : α → Bool} {xs ys xs' ys' : List α} (h : xs ++ ys = xs' ++ ys')
    (hxs : ∀ x ∈ xs, p x = true) (hys : ∀ y ∈ ys, p y = false) (hxs' : ∀ x ∈ xs', p x = true)
    (hys' : ∀ y ∈ ys', p y = false) : xs = xs' ∧ ys = ys' := by
  have htake : ∀ {xs ys : List α}, (∀ x ∈ xs, p x = true) → (∀ y ∈ ys, p y = false) →
      (xs ++ ys).takeWhile p = xs := by
    intro xs ys hx hy
    rw [takeWhile_append_of_pos hx]
    cases ys with
    | nil => simp
    | cons y ys => rw [takeWhile_cons_of_neg (by simp [hy y mem_cons_self]), append_nil]
  have heq : xs = xs' := by rw [← htake hxs hys, h, htake hxs' hys']
  subst heq
  exact ⟨rfl, append_cancel_left h⟩

/-- Inserting the first element into the sorted rest: before the elements that are not below it. -/
theorem mergeSort_cons_split (trans : ∀ a b c, le a b → le b c → le a c)
    (total : ∀ a b, le a b || le b a) (a : α) (l : List α) :
    ∃ l₁ l₂, mergeSort (a :: l) le = l₁ ++ a :: l₂ ∧ mergeSort l le = l₁ ++ l₂ ∧
      (∀ b ∈ l₁, (!le a b) = true) ∧ ∀ b ∈ l₂, (!le a b) = false := by
  obtain ⟨l₁, l₂, h₁, h₂, hlt⟩ := mergeSort_cons trans total a l
  refine ⟨l₁, l₂, h₁, h₂, hlt, fun b hb => ?_⟩
  have hsorted := pairwise_mergeSort trans total (a :: l)
  rw [h₁] at hsorted
  have hle := rel_of_pairwise_cons (pairwise_append.1 hsorted).2.1 hb
  simp [hle]

theorem filter_mergeSort (trans : ∀ a b c, le a b → le b c → le a c)
    (total : ∀ a b, le a b || le b a) (p : α → Bool) (l : List α) :
    (l.mergeSort le).filter p = (l.filter p).mergeSort le := by
  induction l with
  | nil => simp
  | cons a l ih =>
    obtain ⟨l₁, l₂, h₁, h₂, hlt, hge⟩ := mergeSort_cons_split trans total a l
    rw [h₁, filter_append]
    rw [h₂, filter_append] at ih
    by_cases hp : p a = true
    · obtain ⟨m₁, m₂, hm₁, hm₂, hmlt, hmge⟩ := mergeSort_cons_split trans total a (l.filter p)
      rw [filter_cons_of_pos hp, filter_cons_of_pos hp, hm₁]
      obtain ⟨rfl, rfl⟩ := append_cancel_of_split (ih.trans hm₂)
        (fun b hb => hlt b (mem_of_mem_filter hb)) (fun b hb => hge b (mem_of_mem_filter hb))
        hmlt hmge
      rfl
    · rw [filter_cons_of_neg hp, filter_cons_of_neg hp, ih]

end List
