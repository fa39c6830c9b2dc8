import Mathlib.Data.List.Nodup

/-!
# Rows under unique keys

A table is a list of rows, a unique constraint is `(rows.map key).Nodup`. Appending a row with a
fresh key, writing columns outside the key and deleting rows keep the constraint, and rows are
determined by their key.
-/

namespace Keyed

variable {α κ : Type} {key : α → κ} {rows : List α}

def Fresh (key : α → κ) (rows : List α) (a : α) : Prop := key a ∉ rows.map key

instance [DecidableEq κ] (key : α → κ) (rows : List α) (a : α) : Decidable (Fresh key rows a) :=
  inferInstanceAs (Decidable (key a ∉ rows.map key))

theorem concat {a : α} (h : (rows.map key).Nodup) (ha : Fresh key rows a) :
    ((rows ++ [a]).map key).Nodup := by
  rw [List.map_append]
  exact h.append (List.nodup_singleton _) (by simpa [Fresh] using ha)

theorem update {f : α → α} (h : (rows.map key).Nodup) (hf : ∀ a, key (f a) = key a) :
    ((rows.map f).map key).Nodup := by
  rw [List.map_map, show key ∘ f = key from funext hf]
  exact h

theorem filter_update_sublist_of_mem {f : α → α} {p : α → Bool} (hf : ∀ a, key (f a) = key a)
    (hp : ∀ a ∈ rows, p (f a) = true → p a = true) :
    (((rows.map f).filter p).map key).Sublist ((rows.filter p).map key) := by
  induction rows with
  | nil => exact List.Sublist.refl _
  | cons a rows ih =>
    have hrest := ih fun b hb => hp b (List.mem_cons_of_mem a hb)
    rw [List.map_cons, List.filter_cons, List.filter_cons]
    by_cases hfa : p (f a) = true
    · rw [if_pos hfa, if_pos (hp a List.mem_cons_self hfa), List.map_cons, List.map_cons, hf]
      exact hrest.cons_cons (key a)
    · rw [if_neg hfa]
      split
      · exact hrest.cons (key a)
      · exact hrest

theorem filter_update_sublist {f : α → α} {p : α → Bool} (hf : ∀ a, key (f a) = key a)
    (hp : ∀ a, p (f a) = true → p a = true) (rows : List α) :
    (((rows.map f).filter p).map key).Sublist ((rows.filter p).map key) :=
  filter_update_sublist_of_mem hf fun a _ => hp a

theorem inj {a b : α} (h : (rows.map key).Nodup) (ha : a ∈ rows) (hb : b ∈ rows)
    (hk : key a = key b) : a = b :=
  List.inj_on_of_nodup_map h ha hb hk

theorem find_of_mem [DecidableEq κ] {a : α} (h : (rows.map key).Nodup) (ha : a ∈ rows) :
    rows.find? (key · = key a) = some a := by
  cases hfind : rows.find? (key · = key a) with
  | none => simpa using List.find?_eq_none.1 hfind a ha
  | some b =>
    have hb : key b = key a := by simpa using List.find?_some hfind
    rw [inj h (List.mem_of_find?_eq_some hfind) ha hb]

theorem find_eq_some_iff {p : α → Bool} {k : κ} {a : α} (h : (rows.map key).Nodup)
    (hp : ∀ b, p b = true → key b = k) :
    rows.find? p = some a ↔ a ∈ rows ∧ p a = true := by
  constructor
  · exact fun hfind => ⟨List.mem_of_find?_eq_some hfind, List.find?_some hfind⟩
  · intro ⟨ha, hpa⟩
    cases hfind : rows.find? p with
    | none => exact absurd hpa (by simpa using List.find?_eq_none.1 hfind a ha)
    | some b =>
      have hkey : key b = key a := (hp b (List.find?_some hfind)).trans (hp a hpa).symm
      rw [inj h (List.mem_of_find?_eq_some hfind) ha hkey]

theorem sublist_iff {selected : List α} (h : (rows.map key).Nodup)
    (hsub : ∀ a ∈ selected, a ∈ rows) :
    selected.Sublist rows ↔ (selected.map key).Sublist (rows.map key) := by
  refine ⟨List.Sublist.map key, fun hkeys => ?_⟩
  obtain ⟨sub, hsublist, hmap⟩ := List.sublist_map_iff.1 hkeys
  suffices heq : selected = sub from heq ▸ hsublist
  have hsub' : ∀ a ∈ sub, a ∈ rows := fun a ha => hsublist.subset ha
  clear hkeys hsublist
  induction selected generalizing sub with
  | nil => exact (List.map_eq_nil_iff.1 hmap.symm).symm
  | cons a selected ih =>
    obtain ⟨b, rest, rfl, hkey, hrest⟩ := List.map_eq_cons_iff.1 hmap.symm
    rw [inj h (hsub a List.mem_cons_self) (hsub' b List.mem_cons_self) hkey.symm,
      ih (fun c hc => hsub c (List.mem_cons_of_mem a hc)) rest hrest.symm
        fun c hc => hsub' c (List.mem_cons_of_mem b hc)]

theorem filter_of_mem [DecidableEq κ] {a : α} (h : (rows.map key).Nodup) (ha : a ∈ rows) :
    rows.filter (key · = key a) = [a] := by
  induction rows with
  | nil => cases ha
  | cons b rows ih =>
    rw [List.map_cons, List.nodup_cons] at h
    rcases List.mem_cons.1 ha with rfl | ha
    · have hrest : rows.filter (key · = key a) = [] := by
        rw [List.filter_eq_nil_iff]
        intro c hc hk
        exact h.1 (of_decide_eq_true hk ▸ List.mem_map_of_mem hc)
      rw [List.filter_cons_of_pos (by simp), hrest]
    · have hne : ¬ key b = key a := fun hk => h.1 (hk ▸ List.mem_map_of_mem ha)
      rw [List.filter_cons_of_neg (by simpa using hne), ih h.2 ha]

theorem filter_eq_nil_or_singleton [DecidableEq κ] (h : (rows.map key).Nodup) (k : κ) :
    rows.filter (key · = k) = [] ∨ ∃ a, rows.filter (key · = k) = [a] := by
  by_cases hk : ∃ a ∈ rows, key a = k
  · obtain ⟨a, ha, rfl⟩ := hk
    exact .inr ⟨a, filter_of_mem h ha⟩
  · refine .inl (List.filter_eq_nil_iff.2 fun a ha hka => hk ⟨a, ha, of_decide_eq_true hka⟩)

theorem join_nodup {β ι : Type} [DecidableEq ι] {ref : α → ι} {other : β → ι} {others : List β}
    (h : (rows.map key).Nodup) (h' : (others.map other).Nodup) :
    ((rows.flatMap fun a => (others.filter (other · = ref a)).map (a, ·)).map
      fun row => key row.1).Nodup := by
  refine h.sublist ?_
  clear h
  induction rows with
  | nil => exact List.Sublist.refl _
  | cons a rows ih =>
    rw [List.flatMap_cons, List.map_append, List.map_cons]
    rcases filter_eq_nil_or_singleton h' (ref a) with hnone | ⟨b, hone⟩
    · rw [hnone]
      exact ih.cons (key a)
    · rw [hone]
      exact ih.cons_cons (key a)

end Keyed

/-!
## Updating rows by key

A list of items, at most one for each key, is written over a table: every item updates the row of its
key, if there is one. Row by row, a row is updated by the item of its key (`foldl_update_eq`), and
the order of the items does not matter.
-/

namespace Upsert

variable {α β κ : Type} [DecidableEq κ] {key : α → κ} {itemKey : β → κ} {upd : β → α → α}

def row (key : α → κ) (itemKey : β → κ) (upd : β → α → α) (items : List β) (a : α) : α :=
  match items.find? (itemKey · = key a) with
  | some b => upd b a
  | none => a

theorem row_of_mem {items : List β} {a : α} {b : β} (h : (items.map itemKey).Nodup) (hb : b ∈ items)
    (hk : itemKey b = key a) : row key itemKey upd items a = upd b a := by
  unfold row
  rw [← hk, Keyed.find_of_mem h hb]

theorem row_of_not_mem {items : List β} {a : α} (h : key a ∉ items.map itemKey) :
    row key itemKey upd items a = a := by
  unfold row
  have hnone : items.find? (itemKey · = key a) = none := by
    rw [List.find?_eq_none]
    intro b hb hk
    exact h (of_decide_eq_true hk ▸ List.mem_map_of_mem hb)
  rw [hnone]

theorem foldl_update_eq (hupd : ∀ b a, key (upd b a) = key a) {items : List β}
    (h : (items.map itemKey).Nodup) (rows : List α) :
    items.foldl (fun rows b => rows.map fun a => if key a = itemKey b then upd b a else a) rows =
      rows.map (row key itemKey upd items) := by
  induction items generalizing rows with
  | nil => exact (List.map_id rows).symm
  | cons b items ih =>
    have hrest := h
    rw [List.map_cons, List.nodup_cons] at hrest
    rw [List.foldl_cons, ih hrest.2, List.map_map]
    refine List.map_congr_left fun a _ => ?_
    rw [Function.comp_apply]
    by_cases hk : key a = itemKey b
    · rw [if_pos hk, row_of_not_mem (by rw [hupd, hk]; exact hrest.1),
        row_of_mem h List.mem_cons_self hk.symm]
    · rw [if_neg hk]
      unfold row
      rw [List.find?_cons_of_neg (by simpa using Ne.symm hk)]

end Upsert
