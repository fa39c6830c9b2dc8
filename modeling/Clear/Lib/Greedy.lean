import Mathlib.Algebra.BigOperators.Group.List.Basic
import Mathlib.Algebra.Ring.Nat
import Mathlib.Data.List.Nodup

/-!
# Selection under a budget

Elements with weights are taken from the front of a list until one does not fit (`fill`). What is
left of the budget goes to others that are found by the keys of the elements, one for each key, where
they fit (`fetch`).
-/

namespace Greedy

variable {α β κ : Type}

/-- The elements from the front, until `limit` are taken or one does not fit into the budget. -/
def fill (weight : α → Nat) (limit budget : Nat) : (count spent : Nat) → List α → List α
  | _, _, [] => []
  | count, spent, a :: l =>
    if limit ≤ count ∨ budget < spent + weight a then []
    else a :: fill weight limit budget (count + 1) (spent + weight a) l

def fetch [DecidableEq κ] (key : α → Option κ) (find : κ → Option β) (weight : β → Nat)
    (budget : Nat) : (seen : List κ) → (spent : Nat) → List α → List β
  | _, _, [] => []
  | seen, spent, a :: l =>
    match (key a).filter (· ∉ seen) with
    | none => fetch key find weight budget seen spent l
    | some k =>
      match (find k).filter fun b => spent + weight b ≤ budget with
      | none => fetch key find weight budget seen spent l
      | some b => b :: fetch key find weight budget (k :: seen) (spent + weight b) l

section Fill

variable {weight : α → Nat} {limit budget : Nat}

theorem fill_prefix (l : List α) (count spent : Nat) :
    fill weight limit budget count spent l <+: l := by
  induction l generalizing count spent with
  | nil => exact List.prefix_refl _
  | cons a l ih =>
    unfold fill
    split
    · exact List.nil_prefix
    · exact List.cons_prefix_cons.2 ⟨rfl, ih _ _⟩

theorem length_fill_le (l : List α) {count : Nat} (spent : Nat) (h : count ≤ limit) :
    count + (fill weight limit budget count spent l).length ≤ limit := by
  induction l generalizing count spent with
  | nil => exact h
  | cons a l ih =>
    unfold fill
    split
    · exact h
    next hroom =>
      rw [not_or, Nat.not_le] at hroom
      have hcount : count + 1 ≤ limit := hroom.1
      have hrest := ih (spent + weight a) hcount
      rw [List.length_cons]
      omega

theorem sum_fill_le (l : List α) (count : Nat) {spent : Nat} (h : spent ≤ budget) :
    spent + ((fill weight limit budget count spent l).map weight).sum ≤ budget := by
  induction l generalizing count spent with
  | nil => exact h
  | cons a l ih =>
    unfold fill
    split
    · exact h
    next hroom =>
      rw [not_or, Nat.not_lt] at hroom
      have hrest := ih (count + 1) hroom.2
      rw [List.map_cons, List.sum_cons]
      omega

/-- Nothing is taken when there is nothing, or when the first element does not fit. -/
theorem fill_eq_nil_iff {l : List α} (hlimit : 1 ≤ limit) :
    fill weight limit budget 0 0 l = [] ↔ ∀ a ∈ l.head?, budget < weight a := by
  cases l with
  | nil => simp [fill]
  | cons a l =>
    rw [fill, Nat.zero_add]
    by_cases h : budget < weight a
    · simp [h]
    · have hroom : ¬ limit ≤ 0 := by omega
      simp [h, hroom]

end Fill

section Fetch

variable [DecidableEq κ] {key : α → Option κ} {find : κ → Option β} {weight : β → Nat}
  {budget : Nat}

theorem sum_fetch_le (l : List α) (seen : List κ) {spent : Nat} (h : spent ≤ budget) :
    spent + ((fetch key find weight budget seen spent l).map weight).sum ≤ budget := by
  induction l generalizing seen spent with
  | nil => exact h
  | cons a l ih =>
    unfold fetch
    split
    · exact ih seen h
    next k _ =>
      split
      · exact ih seen h
      next hb =>
        have hroom := (Option.filter_eq_some_iff.1 hb).2
        rw [decide_eq_true_eq] at hroom
        have hrest := ih (k :: seen) hroom
        rw [List.map_cons, List.sum_cons]
        omega

theorem nodup_fetch {id : β → κ} (hid : ∀ k b, find k = some b → id b = k) (l : List α)
    (seen : List κ) (spent : Nat) :
    ((fetch key find weight budget seen spent l).map id).Nodup ∧
      ∀ b ∈ fetch key find weight budget seen spent l, id b ∉ seen ∧ ∃ k, find k = some b := by
  induction l generalizing seen spent with
  | nil => exact ⟨List.nodup_nil, fun _ hb => absurd hb List.not_mem_nil⟩
  | cons a l ih =>
    unfold fetch
    split
    · exact ih seen spent
    next k hk =>
      split
      · exact ih seen spent
      next b hb =>
        have hnew : k ∉ seen := by simpa using (Option.filter_eq_some_iff.1 hk).2
        have hfind := (Option.filter_eq_some_iff.1 hb).1
        have hkey := hid k b hfind
        obtain ⟨hnodup, hmem⟩ := ih (k :: seen) (spent + weight b)
        refine ⟨?_, fun c hc => ?_⟩
        · rw [List.map_cons, List.nodup_cons, hkey]
          refine ⟨fun h => ?_, hnodup⟩
          obtain ⟨c, hc, hck⟩ := List.mem_map.1 h
          exact (hmem c hc).1 (hck ▸ List.mem_cons_self)
        · rcases List.mem_cons.1 hc with rfl | hc
          · rw [hkey]
            exact ⟨hnew, k, hfind⟩
          · obtain ⟨hseen, hfound⟩ := hmem c hc
            exact ⟨fun h => hseen (List.mem_cons_of_mem _ h), hfound⟩

end Fetch

end Greedy
