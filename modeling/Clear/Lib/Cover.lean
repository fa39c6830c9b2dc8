import Mathlib.Data.List.Dedup
import Mathlib.Data.List.Perm.Subperm

/-!
# Covering a list of values

Items carry keys. A wanted value is covered when some item carries it, and each covered value is
counted once. All wanted values are covered, as often as they are listed, exactly when the list has
no duplicates and each has its item (`count_eq_length_iff`).
-/

namespace Cover

variable {α β : Type} [DecidableEq β] {keys : α → List β} {wanted : List β} {items : List α}

def found (keys : α → List β) (wanted : List β) (items : List α) : List β :=
  ((items.flatMap keys).filter fun key => wanted.contains key).dedup

theorem mem_found {key : β} :
    key ∈ found keys wanted items ↔ key ∈ wanted ∧ ∃ item ∈ items, key ∈ keys item := by
  unfold found
  rw [List.mem_dedup, List.mem_filter, List.mem_flatMap, List.contains_iff_mem, and_comm]

theorem nodup_found : (found keys wanted items).Nodup := List.nodup_dedup _

theorem count_le : (found keys wanted items).length ≤ wanted.length :=
  (List.subperm_of_subset nodup_found fun _ h => (mem_found.1 h).1).length_le

/-- More items cover at least as much. -/
theorem count_mono {items' : List α} (h : items ⊆ items') :
    (found keys wanted items).length ≤ (found keys wanted items').length := by
  refine (List.subperm_of_subset nodup_found fun key hkey => ?_).length_le
  obtain ⟨hwanted, item, hitem, hin⟩ := mem_found.1 hkey
  exact mem_found.2 ⟨hwanted, item, h hitem, hin⟩

theorem count_pos_iff :
    0 < (found keys wanted items).length ↔ ∃ item ∈ items, ∃ key ∈ keys item, key ∈ wanted := by
  rw [List.length_pos_iff_exists_mem]
  constructor
  · intro ⟨key, hkey⟩
    obtain ⟨hwanted, item, hitem, hin⟩ := mem_found.1 hkey
    exact ⟨item, hitem, key, hin, hwanted⟩
  · intro ⟨item, hitem, key, hin, hwanted⟩
    exact ⟨key, mem_found.2 ⟨hwanted, item, hitem, hin⟩⟩

theorem count_eq_length_iff : (found keys wanted items).length = wanted.length ↔
    wanted.Nodup ∧ ∀ key ∈ wanted, ∃ item ∈ items, key ∈ keys item := by
  have hsub : List.Subperm (found keys wanted items) wanted :=
    List.subperm_of_subset nodup_found fun _ h => (mem_found.1 h).1
  constructor
  · intro h
    have hperm := List.Subperm.perm_of_length_le hsub (Nat.le_of_eq h.symm)
    exact ⟨hperm.nodup_iff.1 nodup_found, fun key hkey => (mem_found.1 (hperm.mem_iff.2 hkey)).2⟩
  · intro ⟨hnodup, hall⟩
    refine Nat.le_antisymm count_le (List.subperm_of_subset hnodup fun key hkey => ?_).length_le
    exact mem_found.2 ⟨hkey, hall key hkey⟩

end Cover
