import Mathlib.Data.List.Dedup
import Mathlib.Data.Finset.Card
import Mathlib.Data.Finset.Dedup

/-!
# Removing the rows of a key

Rows that refer to a parent by a key, in a database that marks a deleted parent and keeps the rows.
`removal key k` is the table without the rows of `k`. A query that joins to the unmarked parents
cannot tell the two apart (`join_mark`); one that only reads the table can exactly if it reads a row
of `k` (`filter_removal_iff`, `count_removal_iff`, `distinct_removal_iff`).
-/

namespace Removal

variable {α β κ : Type} [DecidableEq κ]

def removal (key : α → κ) (k : κ) (rows : List α) : List α := rows.filter (key · ≠ k)

theorem mem_removal {key : α → κ} {k : κ} {rows : List α} {a : α} :
    a ∈ removal key k rows ↔ a ∈ rows ∧ key a ≠ k := by
  unfold removal
  simp

theorem filter_removal (key : α → κ) (k : κ) (p : α → Bool) (rows : List α) :
    (removal key k rows).filter p = removal key k (rows.filter p) := by
  unfold removal
  exact List.filter_comm p (fun a => decide (key a ≠ k)) rows

theorem find_removal {key : α → κ} {k k' : κ} (h : k' ≠ k) (rows : List α) :
    (removal key k rows).find? (key · = k') = rows.find? (key · = k') := by
  unfold removal
  rw [List.find?_filter]
  congr 1
  funext a
  by_cases ha : key a = k'
  · simp [ha, h]
  · simp [ha]

/-! ## Parents -/

/-- Marking the parents of a key instead of removing them makes no difference to a query that skips
what is marked. -/
theorem filter_mark (key : β → κ) {k : κ} (mark : β → β) {p : β → Bool}
    (hmark : ∀ b, p (mark b) = false) (parents : List β) :
    (parents.map fun b => if key b = k then mark b else b).filter p =
      (removal key k parents).filter p := by
  induction parents with
  | nil => rfl
  | cons b parents ih =>
    unfold removal at ih ⊢
    by_cases h : key b = k
    · rw [List.map_cons, if_pos h, List.filter_cons_of_neg (by simp [hmark]), ih,
        List.filter_cons_of_neg (by simpa using h)]
    · rw [List.map_cons, if_neg h, List.filter_cons_of_pos (p := fun b => decide (key b ≠ k))
        (by simpa using h), List.filter_cons, List.filter_cons, ih]

def join (ref : α → κ) (key : β → κ) (p : β → Bool) (rows : List α) (parents : List β) :
    List (α × β) :=
  rows.flatMap fun a => ((parents.filter p).filter (key · = ref a)).map (a, ·)

theorem join_mark (ref : α → κ) (key : β → κ) {k : κ} (mark : β → β) {p : β → Bool}
    (hmark : ∀ b, p (mark b) = false) (rows : List α) (parents : List β) :
    join ref key p rows (parents.map fun b => if key b = k then mark b else b) =
      join ref key p (removal ref k rows) (removal key k parents) := by
  unfold join
  rw [filter_mark key mark hmark]
  induction rows with
  | nil => rfl
  | cons a rows ih =>
    unfold removal at ih ⊢
    rw [List.flatMap_cons, ih]
    by_cases h : ref a = k
    · -- No parent of the key is left.
      have hnone : ((parents.filter (key · ≠ k)).filter p).filter (key · = ref a) = [] := by
        rw [List.filter_eq_nil_iff]
        intro b hb
        have hne := (List.mem_filter.1 (List.mem_filter.1 hb).1).2
        rw [h]
        simpa using hne
      rw [hnone, List.filter_cons_of_neg (by simpa using h)]
      rfl
    · rw [List.filter_cons_of_pos (by simpa using h), List.flatMap_cons]

/-! ## Queries on the table alone -/

theorem filter_removal_iff {key : α → κ} {k : κ} {p : α → Bool} {rows : List α} :
    rows.filter p = (removal key k rows).filter p ↔ ∀ a ∈ rows, key a = k → p a = false := by
  constructor
  · intro h a ha hkey
    by_contra hp
    have hmem : a ∈ rows.filter p := List.mem_filter.2 ⟨ha, by simpa using hp⟩
    rw [h] at hmem
    exact (mem_removal.1 (List.mem_filter.1 hmem).1).2 hkey
  · intro h
    unfold removal
    rw [List.filter_filter]
    refine List.filter_congr fun a ha => ?_
    by_cases hkey : key a = k
    · simp [hkey, h a ha hkey]
    · simp [hkey]

theorem count_removal_iff {key : α → κ} {k : κ} {p : α → Bool} {rows : List α} :
    (rows.filter p).length = ((removal key k rows).filter p).length ↔
      ∀ a ∈ rows, key a = k → p a = false := by
  rw [← filter_removal_iff]
  refine ⟨fun h => ?_, fun h => by rw [h]⟩
  have hsub : ((removal key k rows).filter p).Sublist (rows.filter p) :=
    List.Sublist.filter p List.filter_sublist
  exact (hsub.eq_of_length h.symm).symm

theorem distinct_removal_iff {key : α → κ} {k : κ} {rows : List α} :
    (rows.map key).dedup.length = ((removal key k rows).map key).dedup.length ↔
      ∀ a ∈ rows, key a ≠ k := by
  have hcard : ∀ l : List κ, l.dedup.length = l.toFinset.card := fun l => rfl
  have herase : ((removal key k rows).map key).toFinset = (rows.map key).toFinset.erase k := by
    ext k'
    simp only [List.mem_toFinset, List.mem_map, mem_removal, Finset.mem_erase]
    constructor
    · rintro ⟨a, ⟨ha, hne⟩, rfl⟩
      exact ⟨hne, a, ha, rfl⟩
    · rintro ⟨hne, a, ha, rfl⟩
      exact ⟨a, ⟨ha, hne⟩, rfl⟩
  rw [hcard, hcard, herase]
  constructor
  · intro h a ha hkey
    have hmem : k ∈ (rows.map key).toFinset :=
      List.mem_toFinset.2 (List.mem_map.2 ⟨a, ha, hkey⟩)
    have := Finset.card_erase_lt_of_mem hmem
    omega
  · intro h
    rw [Finset.erase_eq_of_notMem]
    intro hmem
    obtain ⟨a, ha, hkey⟩ := List.mem_map.1 (List.mem_toFinset.1 hmem)
    exact h a ha hkey

end Removal
