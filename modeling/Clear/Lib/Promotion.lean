import Mathlib.Data.List.Induction
import Mathlib.Data.List.Nodup
import Mathlib.Data.List.Pairwise
import Mathlib.Data.List.Perm.Basic

/-!
# Promotion

The first elements of an order of a list are put in front, and the other elements of the list stay
behind them as they are. The result rearranges the list (`promote_perm`), and keeps to the order if
and only if the elements that stay behind do (`pairwise_promote_iff`). Lists of positions stand for
lists of the elements there.
-/

namespace Promotion

variable {α : Type} [DecidableEq α]

def promote (head l : List α) : List α := head ++ l.filter (· ∉ head)

variable {order head l : List α} {k : Nat} {a : α}

theorem mem_behind_iff (hl : l.Nodup) (horder : order.Perm l) :
    a ∈ l.filter (· ∉ order.take k) ↔ a ∈ order.drop k := by
  have hnodup : order.Nodup := horder.nodup_iff.2 hl
  rw [← List.take_append_drop k order, List.nodup_append] at hnodup
  rw [List.mem_filter, decide_eq_true_eq, ← horder.mem_iff]
  constructor
  · intro ⟨hmem, hnot⟩
    rw [← List.take_append_drop k order, List.mem_append] at hmem
    exact hmem.resolve_left hnot
  · exact fun hmem => ⟨List.mem_of_mem_drop hmem, fun htake => hnodup.2.2 a htake a hmem rfl⟩

theorem behind_perm (hl : l.Nodup) (horder : order.Perm l) :
    (l.filter (· ∉ order.take k)).Perm (order.drop k) := by
  rw [List.perm_ext_iff_of_nodup (hl.filter _)
    ((horder.nodup_iff.2 hl).sublist (List.drop_sublist k order))]
  exact fun a => mem_behind_iff hl horder

theorem promote_perm (hl : l.Nodup) (horder : order.Perm l) :
    (promote (order.take k) l).Perm l := by
  have h : (promote (order.take k) l).Perm (order.take k ++ order.drop k) :=
    (behind_perm hl horder).append_left _
  rw [List.take_append_drop] at h
  exact h.trans horder

/-- The result keeps to a relation that the order keeps to if and only if what stays behind does. -/
theorem pairwise_promote_iff {R : α → α → Prop} (hl : l.Nodup) (horder : order.Perm l)
    (hR : order.Pairwise R) :
    (promote (order.take k) l).Pairwise R ↔ (l.filter (· ∉ order.take k)).Pairwise R := by
  rw [← List.take_append_drop k order, List.pairwise_append] at hR
  unfold promote
  rw [List.pairwise_append]
  exact ⟨fun h => h.2.1,
    fun h => ⟨hR.1, h, fun a ha b hb => hR.2.2 a ha b ((mem_behind_iff hl horder).1 hb)⟩⟩

theorem filter_notMem_left {l₁ l₂ : List α} (h : (l₁ ++ l₂).Nodup) :
    (l₁ ++ l₂).filter (· ∉ l₁) = l₂ := by
  rw [List.nodup_append] at h
  have hfirst : l₁.filter (· ∉ l₁) = [] := by
    rw [List.filter_eq_nil_iff]
    exact fun a ha hnot => of_decide_eq_true hnot ha
  have hlast : l₂.filter (· ∉ l₁) = l₂ := by
    rw [List.filter_eq_self]
    exact fun a ha => decide_eq_true fun ha' => h.2.2 a ha' a ha rfl
  rw [List.filter_append, hfirst, hlast, List.nil_append]

/-- Elements that the order has last, as the list has them, stay as they are. -/
theorem filter_promote {u : α → Bool} (hl : l.Nodup) (hhead : ∀ a ∈ head, u a = false) :
    (promote ((head ++ l.filter u).take k) l).filter u = l.filter u := by
  have hfirst : ((head ++ l.filter u).take k).filter u = (l.filter u).take (k - head.length) := by
    have hnone : (head.take k).filter u = [] := by
      rw [List.filter_eq_nil_iff]
      intro a ha
      rw [hhead a (List.mem_of_mem_take ha)]
      exact Bool.false_ne_true
    have hall : ((l.filter u).take (k - head.length)).filter u =
        (l.filter u).take (k - head.length) := by
      rw [List.filter_eq_self]
      exact fun a ha => (List.mem_filter.1 (List.mem_of_mem_take ha)).2
    rw [List.take_append, List.filter_append, hnone, hall, List.nil_append]
  have hbehind : (l.filter (· ∉ (head ++ l.filter u).take k)).filter u =
      (l.filter u).drop (k - head.length) := by
    have hsame : (l.filter (· ∉ (head ++ l.filter u).take k)).filter u =
        (l.filter u).filter (· ∉ (l.filter u).take (k - head.length)) := by
      rw [List.filter_filter, List.filter_filter]
      refine List.filter_congr fun a _ => ?_
      by_cases hu : u a = true
      · have hnot : a ∉ head.take k := by
          intro ha
          rw [hhead a (List.mem_of_mem_take ha)] at hu
          exact Bool.false_ne_true hu
        simp [hu, List.take_append, hnot]
      · simp [hu]
    have hnodup := hl.filter u
    rw [hsame]
    generalize l.filter u = rest at hnodup
    rw [← List.take_append_drop (k - head.length) rest] at hnodup
    have hrest := filter_notMem_left hnodup
    rwa [List.take_append_drop] at hrest
  unfold promote
  rw [List.filter_append, hfirst, hbehind, List.take_append_drop]

/-! ## Positions -/

section Positions

variable {β ι : Type}

/-- A relation holds along an ascending list if and only if it holds of any two ascending elements.
-/
theorem pairwise_iff_of_ascending {R : Nat → Nat → Prop} {l : List Nat}
    (hl : l.Pairwise (· < ·)) : l.Pairwise R ↔ ∀ i ∈ l, ∀ j ∈ l, i < j → R i j := by
  constructor
  · intro h i hi j hj hlt
    have hsymm : Std.Symm fun i j : Nat => (i < j → R i j) ∧ (j < i → R j i) :=
      ⟨fun _ _ h => ⟨h.2, h.1⟩⟩
    have hboth : l.Pairwise fun i j => (i < j → R i j) ∧ (j < i → R j i) :=
      (h.and hl).imp fun hR => ⟨fun _ => hR.1, fun hlt => absurd hR.2 (Nat.lt_asymm hlt)⟩
    exact (hboth.forall hi hj (Nat.ne_of_lt hlt)).1 hlt
  · intro h
    exact hl.imp_of_mem fun hi hj hlt => h _ hi _ hj hlt

/-- The elements at some positions, in the order of the list. -/
theorem map_filter_zipIdx (l : List β) (p : Nat → Bool) :
    (l.zipIdx.filter fun hit => p hit.2).map (·.1) =
      ((List.range l.length).filter p).filterMap (l[·]?) := by
  induction l using List.reverseRecOn with
  | nil => rfl
  | append_singleton l a ih =>
    have hfront : ((List.range l.length).filter p).filterMap ((l ++ [a])[·]?) =
        ((List.range l.length).filter p).filterMap (l[·]?) := by
      refine List.filterMap_congr fun i hi => ?_
      have hlt : i < l.length := List.mem_range.1 (List.mem_filter.1 hi).1
      show (l ++ [a])[i]? = l[i]?
      rw [List.getElem?_append_left hlt]
    rw [List.zipIdx_append, List.filter_append, List.map_append, ih, List.length_append,
      List.length_singleton, List.range_succ, List.filter_append, List.filterMap_append, hfront]
    by_cases hp : p l.length = true
    · simp [hp]
    · simp [hp]

theorem filterMap_range (l : List β) : (List.range l.length).filterMap (l[·]?) = l := by
  have h := map_filter_zipIdx l fun _ => true
  rw [List.filter_true, List.filter_true, List.zipIdx_map_fst] at h
  exact h.symm

theorem take_filterMap {f : ι → Option β} {l : List ι} (hl : ∀ i ∈ l, (f i).isSome = true)
    (k : Nat) : (l.filterMap f).take k = (l.take k).filterMap f := by
  induction l generalizing k with
  | nil => simp
  | cons i l ih =>
    obtain ⟨b, hb⟩ := Option.isSome_iff_exists.1 (hl i List.mem_cons_self)
    have hrest : ∀ i ∈ l, (f i).isSome = true := fun j hj => hl j (List.mem_cons_of_mem i hj)
    cases k with
    | zero => rfl
    | succ k => rw [List.filterMap_cons_some hb, List.take_succ_cons, List.take_succ_cons,
        List.filterMap_cons_some hb, ih hrest]

theorem filter_filterMap_eq {f : ι → Option β} {q : β → Bool} {u : ι → Bool} {l : List ι}
    (h : ∀ i ∈ l, ∀ b, f i = some b → q b = u i) :
    (l.filterMap f).filter q = (l.filter u).filterMap f := by
  rw [List.filter_filterMap, List.filterMap_filter]
  refine List.filterMap_congr fun i hi => ?_
  cases hf : f i with
  | none => simp
  | some b => simp [Option.filter, h i hi b hf]

end Positions

end Promotion
