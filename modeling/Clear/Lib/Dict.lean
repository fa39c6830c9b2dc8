import Mathlib.Data.List.Induction

/-!
# Dictionaries as association lists

A dict that is only read is a list of pairs, read by `List.lookup`. The lemmas say what a dict
comprehension holds under a key, and what a loop leaves there that files one item after another
(`Fills`).
-/

namespace Dict

variable {α β κ : Type} [DecidableEq κ]

theorem lookup_map (key : α → κ) (val : α → β) (l : List α) (k : κ) :
    (l.map fun a => (key a, val a)).lookup k = (l.find? (key · = k)).map val := by
  induction l with
  | nil => rfl
  | cons a l ih =>
    rw [List.map_cons, List.lookup_cons]
    by_cases h : key a = k
    · subst h
      simp
    · rw [show (k == key a) = false by simpa using Ne.symm h,
        List.find?_cons_of_neg (by simpa using h)]
      exact ih

theorem lookup_filter (p : κ → Bool) (d : List (κ × β)) (k : κ) :
    (d.filter fun e => p e.1).lookup k = if p k then d.lookup k else none := by
  induction d with
  | nil => simp
  | cons e d ih =>
    obtain ⟨k', v⟩ := e
    by_cases hk : k = k'
    · subst hk
      by_cases hp : p k = true
      · simp [hp]
      · rw [List.filter_cons_of_neg (by simpa using hp), ih]
        simp [hp]
    · have hne : (k == k') = false := by simpa using hk
      rw [List.lookup_cons, hne]
      by_cases hp : p k' = true
      · rw [List.filter_cons_of_pos (by simpa using hp), List.lookup_cons, hne]
        exact ih
      · rw [List.filter_cons_of_neg (by simpa using hp)]
        exact ih

theorem lookup_filterMap (g : κ → Option β) (l : List κ) (k : κ) :
    (l.filterMap fun a => (g a).map (a, ·)).lookup k = if k ∈ l then g k else none := by
  induction l with
  | nil => simp
  | cons a l ih =>
    by_cases hk : k = a
    · subst hk
      cases hg : g k with
      | none =>
        simp only [List.filterMap_cons, hg, Option.map_none, ih]
        split <;> simp
      | some v => simp [hg]
    · have hne : (k == a) = false := by simpa using hk
      have hmem : k ∈ a :: l ↔ k ∈ l := by simp [hk]
      simp only [hmem]
      cases hg : g a with
      | none => simpa [List.filterMap_cons, hg] using ih
      | some v =>
        rw [List.filterMap_cons, hg, Option.map_some, List.lookup_cons, hne]
        exact ih

theorem mem_of_lookup {ι : Type} [BEq ι] [LawfulBEq ι] {d : List (ι × β)} {k : ι} {v : β}
    (h : d.lookup k = some v) : (k, v) ∈ d := by
  induction d with
  | nil => cases h
  | cons e d ih =>
    obtain ⟨k', v'⟩ := e
    rw [List.lookup_cons] at h
    cases hk : k == k' with
    | true =>
      rw [hk] at h
      cases h
      rw [eq_of_beq hk]
      exact List.mem_cons_self
    | false =>
      rw [hk] at h
      exact List.mem_cons_of_mem _ (ih h)

theorem lookup_eq_some_iff {ι : Type} [BEq ι] [LawfulBEq ι] {d : List (ι × β)}
    (h : (d.map (·.1)).Nodup) {k : ι} {v : β} : d.lookup k = some v ↔ (k, v) ∈ d := by
  refine ⟨mem_of_lookup, fun hmem => ?_⟩
  induction d with
  | nil => cases hmem
  | cons e d ih =>
    rw [List.map_cons, List.nodup_cons] at h
    rw [List.lookup_cons]
    rcases List.mem_cons.1 hmem with rfl | hmem
    · simp
    · have hne : (k == e.1) = false := by
        simpa using fun heq : k = e.1 => h.1 (heq ▸ List.mem_map_of_mem hmem)
      rw [hne]
      exact ih h.2 hmem

/-! ## Building a dict -/

def assign (d : List (κ × β)) (k : κ) (v : β) : List (κ × β) :=
  if k ∈ d.map (·.1) then d.map fun e => if e.1 = k then (k, v) else e else d ++ [(k, v)]

def ofItems (items : List (κ × β)) : List (κ × β) :=
  items.foldl (fun d e => assign d e.1 e.2) []

theorem lookup_assign_ne [BEq κ] [LawfulBEq κ] {d : List (κ × β)} {j k : κ} {v : β} (h : k ≠ j) :
    (assign d j v).lookup k = d.lookup k := by
  have hne : (k == j) = false := by simpa using h
  unfold assign
  split
  · clear * - h hne
    induction d with
    | nil => rfl
    | cons e d ih =>
      rw [List.map_cons]
      by_cases he : e.1 = j
      · rw [if_pos he, List.lookup_cons, List.lookup_cons, ih, he, hne]
      · rw [if_neg he, List.lookup_cons, List.lookup_cons, ih]
  · rw [List.lookup_append, List.lookup_cons, hne, List.lookup_nil, Option.or_none]

theorem lookup_assign_self [BEq κ] [LawfulBEq κ] (d : List (κ × β)) (k : κ) (v : β) :
    (assign d k v).lookup k = some v := by
  unfold assign
  split
  next h =>
    induction d with
    | nil => cases h
    | cons e d ih =>
      rw [List.map_cons, List.lookup_cons]
      by_cases he : e.1 = k
      · rw [if_pos he]
        simp
      · rw [if_neg he, show (k == e.1) = false by simpa using Ne.symm he]
        refine ih ?_
        rw [List.map_cons, List.mem_cons] at h
        exact h.resolve_left (Ne.symm he)
  next h =>
    have hnone : d.lookup k = none := by
      rw [List.lookup_eq_none_iff]
      intro e he
      simpa using fun heq : k = e.1 => h (heq ▸ List.mem_map_of_mem he)
    rw [List.lookup_append, hnone]
    simp

theorem mem_assign {d : List (κ × β)} {k : κ} {v : β} {e : κ × β} (h : e ∈ assign d k v) :
    e ∈ d ∨ e = (k, v) := by
  unfold assign at h
  split at h
  · obtain ⟨e', he', rfl⟩ := List.mem_map.1 h
    split
    · exact .inr rfl
    · exact .inl he'
  · exact (List.mem_append.1 h).imp_right List.mem_singleton.1

theorem mem_ofItems {items : List (κ × β)} {e : κ × β} (h : e ∈ ofItems items) : e ∈ items := by
  have hfold : ∀ (todo d : List (κ × β)), e ∈ todo.foldl (fun d e => assign d e.1 e.2) d →
      e ∈ d ∨ e ∈ todo := by
    intro todo
    induction todo with
    | nil => exact fun d h => .inl h
    | cons a todo ih =>
      intro d h
      rcases ih _ h with h | h
      · rcases mem_assign h with h | rfl
        · exact .inl h
        · exact .inr List.mem_cons_self
      · exact .inr (List.mem_cons_of_mem a h)
  exact (hfold items [] h).resolve_left (by simp)

theorem length_ofItems_le (items : List (κ × β)) : (ofItems items).length ≤ items.length := by
  have hfold : ∀ (todo d : List (κ × β)),
      (todo.foldl (fun d e => assign d e.1 e.2) d).length ≤ d.length + todo.length := by
    intro todo
    induction todo with
    | nil => exact fun d => Nat.le_refl _
    | cons a todo ih =>
      intro d
      have hassign : (assign d a.1 a.2).length ≤ d.length + 1 := by
        unfold assign
        split <;> simp
      have := ih (assign d a.1 a.2)
      rw [List.foldl_cons, List.length_cons]
      omega
  exact Nat.le_trans (hfold items []) (by simp)

theorem ofItems_of_nodup {items : List (κ × β)} (h : (items.map (·.1)).Nodup) :
    ofItems items = items := by
  have hfold : ∀ (todo d : List (κ × β)), ((d ++ todo).map (·.1)).Nodup →
      todo.foldl (fun d e => assign d e.1 e.2) d = d ++ todo := by
    intro todo
    induction todo with
    | nil => exact fun d _ => (List.append_nil d).symm
    | cons a todo ih =>
      intro d hnodup
      have hnew : a.1 ∉ d.map (·.1) := by
        rw [List.map_append, List.nodup_append] at hnodup
        exact fun hmem => hnodup.2.2 _ hmem _ (by simp) rfl
      rw [List.foldl_cons, assign, if_neg hnew, ih _ (by rwa [List.append_assoc]),
        List.append_assoc]
      rfl
  exact hfold items [] h

/-- A key that every item gives the same value. -/
theorem lookup_ofItems [BEq κ] [LawfulBEq κ] {items : List (κ × β)} {k : κ} {v : β}
    (hmem : (k, v) ∈ items) (hall : ∀ e ∈ items, e.1 = k → e.2 = v) :
    (ofItems items).lookup k = some v := by
  have hfold : ∀ (todo d : List (κ × β)), (∀ e ∈ todo, e.1 = k → e.2 = v) →
      d.lookup k = some v ∨ (k, v) ∈ todo →
      (todo.foldl (fun d e => assign d e.1 e.2) d).lookup k = some v := by
    intro todo
    induction todo with
    | nil => exact fun d _ h => h.resolve_right (List.not_mem_nil)
    | cons e todo ih =>
      intro d hall h
      refine ih _ (fun x hx => hall x (List.mem_cons_of_mem e hx)) ?_
      by_cases hk : e.1 = k
      · left
        show (assign d e.1 e.2).lookup k = some v
        rw [hk, hall e List.mem_cons_self hk]
        exact lookup_assign_self d k v
      · rcases h with h | h
        · left
          show (assign d e.1 e.2).lookup k = some v
          rw [lookup_assign_ne (Ne.symm hk), h]
        · rcases List.mem_cons.1 h with heq | h
          · exact absurd (congrArg Prod.fst heq).symm hk
          · exact .inr h
  exact hfold items [] hall (.inr hmem)

/-! ## Keys -/

/-- `d.setdefault(k, v)`: the first value of a key stays. -/
def setDefault (d : List (κ × β)) (k : κ) (v : β) : List (κ × β) :=
  if k ∈ d.map (·.1) then d else d ++ [(k, v)]

theorem lookup_isSome_iff {d : List (κ × β)} {k : κ} :
    (d.lookup k).isSome = true ↔ k ∈ d.map (·.1) := by
  induction d with
  | nil => simp
  | cons e d ih =>
    rw [List.lookup_cons, List.map_cons, List.mem_cons]
    by_cases hk : k = e.1
    · simp [hk]
    · have hne : (k == e.1) = false := by simpa using hk
      rw [hne]
      exact ih.trans (or_iff_right hk).symm

theorem lookup_setDefault {d : List (κ × β)} {j k : κ} {v : β} :
    (setDefault d j v).lookup k = (d.lookup k).or (if k = j then some v else none) := by
  unfold setDefault
  split
  next h =>
    by_cases hk : k = j
    · obtain ⟨w, hw⟩ := Option.isSome_iff_exists.1 (lookup_isSome_iff.2 (hk ▸ h))
      simp [hw]
    · simp [hk]
  next h =>
    rw [List.lookup_append]
    by_cases hk : k = j
    · simp [hk]
    · have hne : (k == j) = false := by simpa using hk
      rw [List.lookup_cons, hne, if_neg hk, List.lookup_nil]

theorem mem_setDefault {d : List (κ × β)} {k : κ} {v : β} {e : κ × β}
    (h : e ∈ setDefault d k v) : e ∈ d ∨ e = (k, v) := by
  unfold setDefault at h
  split at h
  · exact .inl h
  · exact (List.mem_append.1 h).imp_right List.mem_singleton.1

omit [DecidableEq κ] in
theorem nodup_append_key {d : List (κ × β)} {k : κ} {v : β} (h : (d.map (·.1)).Nodup)
    (hk : k ∉ d.map (·.1)) : ((d ++ [(k, v)]).map (·.1)).Nodup := by
  rw [List.map_append, List.nodup_append]
  refine ⟨h, by simp, fun a ha b hb heq => hk ?_⟩
  obtain rfl : b = k := by simpa using hb
  exact heq ▸ ha

theorem nodup_setDefault {d : List (κ × β)} {k : κ} {v : β} (h : (d.map (·.1)).Nodup) :
    ((setDefault d k v).map (·.1)).Nodup := by
  unfold setDefault
  split
  · exact h
  next hk => exact nodup_append_key h hk

theorem keys_assign {d : List (κ × β)} {k : κ} {v : β} :
    (assign d k v).map (·.1) = if k ∈ d.map (·.1) then d.map (·.1) else d.map (·.1) ++ [k] := by
  unfold assign
  split
  · rw [List.map_map]
    refine List.map_congr_left fun e _ => ?_
    by_cases he : e.1 = k
    · simp [he]
    · simp [he]
  · rw [List.map_append, List.map_cons, List.map_nil]

theorem nodup_assign {d : List (κ × β)} {k : κ} {v : β} (h : (d.map (·.1)).Nodup) :
    ((assign d k v).map (·.1)).Nodup := by
  by_cases hk : k ∈ d.map (·.1)
  · rw [keys_assign, if_pos hk]
    exact h
  · unfold assign
    rw [if_neg hk]
    exact nodup_append_key h hk

end Dict

namespace Dict

variable {α β κ : Type}

/-! ## Filling a dict -/

section Fills

variable [BEq κ]

/-- A step of a loop that files each `a` under `key a`, as `value` of what is filed there and `a`.
-/
structure Fills (key : α → κ) (value : Option β → α → β) (f : List (κ × β) → α → List (κ × β)) :
    Prop where
  self : ∀ d a, (f d a).lookup (key a) = some (value (d.lookup (key a)) a)
  other : ∀ d a k, k ≠ key a → (f d a).lookup k = d.lookup k
  keys_old : ∀ d a, key a ∈ d.map (·.1) → (f d a).map (·.1) = d.map (·.1)
  keys_new : ∀ d a, key a ∉ d.map (·.1) → (f d a).map (·.1) = d.map (·.1) ++ [key a]

variable {key : α → κ} {value : Option β → α → β} {f : List (κ × β) → α → List (κ × β)}

theorem Fills.of_cases [DecidableEq κ] [LawfulBEq κ]
    (h : ∀ d a, f d a = assign d (key a) (value (d.lookup (key a)) a) ∨
      f d a = d ∧ d.lookup (key a) = some (value (d.lookup (key a)) a)) :
    Fills key value f where
  self := by
    intro d a
    rcases h d a with h | ⟨h, hsame⟩
    · rw [h]
      exact lookup_assign_self d (key a) _
    · rw [h]
      exact hsame
  other := by
    intro d a k hk
    rcases h d a with h | ⟨h, -⟩
    · rw [h]
      exact lookup_assign_ne hk
    · rw [h]
  keys_old := by
    intro d a hkey
    rcases h d a with h | ⟨h, -⟩
    · rw [h, keys_assign, if_pos hkey]
    · rw [h]
  keys_new := by
    intro d a hkey
    rcases h d a with h | ⟨-, hsame⟩
    · rw [h, keys_assign, if_neg hkey]
    · exact absurd (List.mem_map_of_mem (mem_of_lookup hsame)) hkey

theorem Fills.lookup_foldl [DecidableEq κ] (hf : Fills key value f) (l : List α)
    (d : List (κ × β)) (k : κ) :
    (l.foldl f d).lookup k =
      (l.filter (key · = k)).foldl (fun old a => some (value old a)) (d.lookup k) := by
  induction l generalizing d with
  | nil => rfl
  | cons a l ih =>
    rw [List.foldl_cons, ih]
    by_cases hk : key a = k
    · subst hk
      rw [List.filter_cons_of_pos (by simp), List.foldl_cons, hf.self]
    · rw [List.filter_cons_of_neg (by simpa using hk), hf.other _ _ _ (Ne.symm hk)]

theorem Fills.lookup [DecidableEq κ] (hf : Fills key value f) (l : List α) (k : κ) :
    (l.foldl f []).lookup k =
      (l.filter (key · = k)).foldl (fun old a => some (value old a)) none :=
  hf.lookup_foldl l [] k

theorem Fills.keys_foldl [LawfulBEq κ] (hf : Fills key value f) (l : List α) :
    (l.foldl f []).map (·.1) = (l.map key).eraseDups := by
  induction l using List.reverseRecOn with
  | nil => rfl
  | append_singleton l a ih =>
    rw [List.foldl_append, List.foldl_cons, List.foldl_nil, List.map_append,
      List.eraseDups_append, ← ih]
    by_cases ha : key a ∈ l.map key
    · rw [hf.keys_old _ _ (by rwa [ih, List.mem_eraseDups])]
      simp [List.removeAll, List.mem_map.1 ha]
    · rw [hf.keys_new _ _ (by rwa [ih, List.mem_eraseDups])]
      congr 1
      have hnew : [key a].removeAll (l.map key) = [key a] :=
        List.filter_eq_self.2 fun k hk => by
          rw [List.mem_singleton.1 hk]
          simpa using ha
      exact (congrArg List.eraseDups hnew).symm

theorem Fills.nodup_foldl (hf : Fills key value f) (l : List α) :
    ((l.foldl f []).map (·.1)).Nodup := by
  have hfold : ∀ d : List (κ × β), (d.map (·.1)).Nodup → ((l.foldl f d).map (·.1)).Nodup := by
    induction l with
    | nil => exact fun d h => h
    | cons a l ih =>
      intro d h
      refine ih _ ?_
      by_cases ha : key a ∈ d.map (·.1)
      · rw [hf.keys_old _ _ ha]
        exact h
      · rw [hf.keys_new _ _ ha, List.nodup_append]
        refine ⟨h, by simp, fun k hk k' hk' heq => ha ?_⟩
        rw [List.mem_singleton.1 hk'] at heq
        exact heq ▸ hk
  exact hfold [] List.nodup_nil

theorem Fills.mem_keys [LawfulBEq κ] (hf : Fills key value f) {l : List α} {k : κ} :
    k ∈ (l.foldl f []).map (·.1) ↔ k ∈ l.map key := by
  rw [hf.keys_foldl, List.mem_eraseDups]

def push [DecidableEq κ] (d : List (κ × List β)) (k : κ) (v : β) : List (κ × List β) :=
  assign d k ((d.lookup k).getD [] ++ [v])

/-- The dict that files `val a` under `key a`, for every `a` in order. -/
def groupBy [DecidableEq κ] (key : α → κ) (val : α → β) (l : List α) : List (κ × List β) :=
  l.foldl (fun d a => push d (key a) (val a)) []

theorem fills_push [DecidableEq κ] [LawfulBEq κ] (key : α → κ) (val : α → β) :
    Fills key (fun old a => old.getD [] ++ [val a]) fun d a => push d (key a) (val a) :=
  .of_cases fun _ _ => .inl rfl

theorem keys_groupBy [DecidableEq κ] [LawfulBEq κ] (key : α → κ) (val : α → β) (l : List α) :
    (groupBy key val l).map (·.1) = (l.map key).eraseDups :=
  (fills_push key val).keys_foldl l

theorem getD_groupBy [DecidableEq κ] [LawfulBEq κ] (key : α → κ) (val : α → β) (l : List α)
    (k : κ) :
    ((groupBy key val l).lookup k).getD [] = (l.filter (key · = k)).map val := by
  have hfold : ∀ (l : List α) (old : Option (List β)),
      (l.foldl (fun old a => some (old.getD [] ++ [val a])) old).getD [] =
        old.getD [] ++ l.map val := by
    intro l
    induction l with
    | nil => simp
    | cons a l ih =>
      intro old
      rw [List.foldl_cons, ih]
      simp
  unfold groupBy
  rw [(fills_push key val).lookup, hfold]
  rfl

end Fills

/-- Repetitions removed, every element is left once. -/
theorem nodup_eraseDups [DecidableEq κ] (l : List κ) : l.eraseDups.Nodup := by
  have hkeys := (fills_push id id).nodup_foldl l
  rwa [(fills_push id id).keys_foldl, List.map_id] at hkeys

/-- The values of a dict are what it holds under its keys. -/
theorem map_snd_eq [BEq κ] [LawfulBEq κ] {d : List (κ × β)} (h : (d.map (·.1)).Nodup) :
    d.map (·.2) = (d.map (·.1)).filterMap (d.lookup ·) := by
  have hsub : ∀ d' : List (κ × β), (∀ e ∈ d', e ∈ d) →
      d'.map (·.2) = (d'.map (·.1)).filterMap (d.lookup ·) := by
    intro d' hmem
    induction d' with
    | nil => rfl
    | cons e d' ih =>
      have hvalue : d.lookup e.1 = some e.2 :=
        (lookup_eq_some_iff h).2 (hmem e List.mem_cons_self)
      rw [List.map_cons, List.map_cons, List.filterMap_cons, hvalue,
        ih fun e' he' => hmem e' (List.mem_cons_of_mem e he')]
  exact hsub d fun _ he => he

/-! ## Updates -/

section Update

variable [DecidableEq κ]

theorem lookup_update [BEq κ] [LawfulBEq κ] (items d : List (κ × β)) (k : κ) :
    (items.foldl (fun d e => assign d e.1 e.2) d).lookup k =
      ((ofItems items).lookup k).or (d.lookup k) := by
  unfold ofItems
  induction items using List.reverseRecOn with
  | nil => rfl
  | append_singleton items e ih =>
    simp only [List.foldl_append, List.foldl_cons, List.foldl_nil]
    by_cases hk : k = e.1
    · subst hk
      rw [lookup_assign_self, lookup_assign_self, Option.some_or]
    · rw [lookup_assign_ne hk, lookup_assign_ne hk, ih]

theorem lookup_ofItems_append [BEq κ] [LawfulBEq κ] (items items' : List (κ × β)) (k : κ) :
    (ofItems (items ++ items')).lookup k =
      ((ofItems items').lookup k).or ((ofItems items).lookup k) := by
  rw [show ofItems (items ++ items') =
    items'.foldl (fun d e => assign d e.1 e.2) (ofItems items) from List.foldl_append, lookup_update]

theorem nodup_update {items d : List (κ × β)} (h : (d.map (·.1)).Nodup) :
    ((items.foldl (fun d e => assign d e.1 e.2) d).map (·.1)).Nodup := by
  induction items generalizing d with
  | nil => exact h
  | cons e items ih => exact ih (nodup_assign h)

end Update

theorem lookup_filterMap_entries [BEq κ] [LawfulBEq κ] (g : κ → β → Option α) {d : List (κ × β)}
    (h : (d.map (·.1)).Nodup) (k : κ) :
    (d.filterMap fun e => (g e.1 e.2).map (e.1, ·)).lookup k = (d.lookup k).bind (g k) := by
  induction d with
  | nil => rfl
  | cons e d ih =>
    obtain ⟨k', v⟩ := e
    rw [List.map_cons, List.nodup_cons] at h
    have hrest := ih h.2
    rw [List.lookup_cons]
    cases hk : k == k' with
    | true =>
      obtain rfl := eq_of_beq hk
      -- no later entry has the key
      have hnone : d.lookup k = none := by
        rw [List.lookup_eq_none_iff]
        intro e he
        have hne : k ≠ e.1 := fun heq => h.1 (heq ▸ List.mem_map_of_mem (f := (·.1)) he)
        simpa using hne
      rw [hnone] at hrest
      cases hg : g k v with
      | none => simpa [hg] using hrest
      | some w => simp [hg]
    | false =>
      cases hg : g k' v with
      | none => simpa [hg] using hrest
      | some w =>
        rw [List.filterMap_cons, hg, Option.map_some, List.lookup_cons, hk]
        exact hrest

theorem nodup_filterMap_entries (g : κ → β → Option α) {d : List (κ × β)}
    (h : (d.map (·.1)).Nodup) :
    ((d.filterMap fun e => (g e.1 e.2).map (e.1, ·)).map (·.1)).Nodup := by
  have hsub : ((d.filterMap fun e => (g e.1 e.2).map (e.1, ·)).map (·.1)).Sublist (d.map (·.1)) := by
    clear h
    induction d with
    | nil => exact List.Sublist.refl _
    | cons e d ih =>
      cases hg : g e.1 e.2 with
      | none =>
        rw [List.filterMap_cons, hg]
        exact ih.cons _
      | some w =>
        rw [List.filterMap_cons, hg]
        exact ih.cons_cons _
  exact h.sublist hsub

end Dict
