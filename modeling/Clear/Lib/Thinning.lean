import Mathlib.Data.List.Count
import Mathlib.Data.List.Induction
import Mathlib.Data.List.Perm.Basic

/-!
# Greedy thinning

A list is read from the front, and an element that clashes with one already kept is left out. What
is kept does not clash (`pairwise_thin`). A coarser relation keeps the same elements as a finer one
if and only if what the finer one keeps is free of clashes (`thin_eq_iff`).
-/

namespace Thinning

variable {α β : Type}

def step (clash : α → α → Bool) (kept : List α) (a : α) : List α :=
  if kept.any (clash a) then kept else kept ++ [a]

def thin (clash : α → α → Bool) (l : List α) : List α := l.foldl (step clash) []

variable {clash fine : α → α → Bool} {l l₁ l₂ : List α} {a b : α}

theorem thin_concat : thin clash (l ++ [a]) = step clash (thin clash l) a := by
  unfold thin
  rw [List.foldl_append, List.foldl_cons, List.foldl_nil]

theorem thin_concat_of_clash (hb : b ∈ thin clash l) (h : clash a b = true) :
    thin clash (l ++ [a]) = thin clash l := by
  rw [thin_concat, step, if_pos (List.any_eq_true.2 ⟨b, hb, h⟩)]

theorem thin_concat_of_not (h : ∀ b ∈ thin clash l, clash a b = false) :
    thin clash (l ++ [a]) = thin clash l ++ [a] := by
  rw [thin_concat, step, if_neg]
  rw [List.any_eq_true]
  intro ⟨b, hb, hclash⟩
  rw [h b hb] at hclash
  cases hclash

/-- An element is kept at its turn, or clashes with one that is kept before it. -/
theorem thin_concat_cases (clash : α → α → Bool) (l : List α) (a : α) :
    (thin clash (l ++ [a]) = thin clash l ++ [a] ∧ ∀ b ∈ thin clash l, clash a b = false) ∨
      thin clash (l ++ [a]) = thin clash l ∧ ∃ b ∈ thin clash l, clash a b = true := by
  by_cases h : ∃ b ∈ thin clash l, clash a b = true
  · obtain ⟨b, hb, hclash⟩ := h
    exact .inr ⟨thin_concat_of_clash hb hclash, b, hb, hclash⟩
  · have hnone : ∀ b ∈ thin clash l, clash a b = false :=
      fun b hb => Bool.eq_false_iff.2 fun hclash => h ⟨b, hb, hclash⟩
    exact .inl ⟨thin_concat_of_not hnone, hnone⟩

/-- What is kept stays kept. -/
theorem thin_isPrefix (clash : α → α → Bool) (l₁ l₂ : List α) :
    thin clash l₁ <+: thin clash (l₁ ++ l₂) := by
  induction l₂ using List.reverseRecOn with
  | nil => exact (List.append_nil l₁).symm ▸ List.prefix_rfl
  | append_singleton l₂ a ih =>
    rw [← List.append_assoc]
    rcases thin_concat_cases clash (l₁ ++ l₂) a with ⟨h, -⟩ | ⟨h, -⟩
    · rw [h]
      exact ih.trans (List.prefix_append _ _)
    · rw [h]
      exact ih

theorem thin_sublist (clash : α → α → Bool) (l : List α) : (thin clash l).Sublist l := by
  induction l using List.reverseRecOn with
  | nil => exact List.Sublist.refl _
  | append_singleton l a ih =>
    rcases thin_concat_cases clash l a with ⟨h, -⟩ | ⟨h, -⟩
    · rw [h]
      exact ih.append (List.Sublist.refl _)
    · rw [h]
      exact ih.trans (List.sublist_append_left _ _)

theorem pairwise_thin (clash : α → α → Bool) (l : List α) :
    (thin clash l).Pairwise fun b a => clash a b = false := by
  induction l using List.reverseRecOn with
  | nil => exact List.Pairwise.nil
  | append_singleton l a ih =>
    rcases thin_concat_cases clash l a with ⟨h, hnone⟩ | ⟨h, -⟩
    · rw [h, List.pairwise_append]
      refine ⟨ih, List.pairwise_singleton _ _, fun b hb c hc => ?_⟩
      rw [List.mem_singleton.1 hc]
      exact hnone b hb
    · rw [h]
      exact ih

/-- A property that an element shares with every one it clashes with survives. -/
theorem exists_mem_thin {P : α → Prop} (h : ∀ a b, clash a b = true → P a → P b) (ha : a ∈ l)
    (hP : P a) : ∃ b ∈ thin clash l, P b := by
  obtain ⟨l₁, l₂, rfl⟩ := List.append_of_mem ha
  have hkept := thin_isPrefix clash (l₁ ++ [a]) l₂
  rw [List.append_assoc, List.singleton_append] at hkept
  rcases thin_concat_cases clash l₁ a with ⟨hturn, -⟩ | ⟨hturn, b, hb, hclash⟩
  · rw [hturn] at hkept
    exact ⟨a, hkept.subset (by simp), hP⟩
  · rw [hturn] at hkept
    exact ⟨b, hkept.subset hb, h a b hclash hP⟩

/-- Thinning the images is thinning by what the images clash in. -/
theorem thin_map (f : β → α) (l : List β) :
    thin clash (l.map f) = (thin (fun a b => clash (f a) (f b)) l).map f := by
  induction l using List.reverseRecOn with
  | nil => rfl
  | append_singleton l a ih =>
    rw [List.map_append, List.map_cons, List.map_nil, thin_concat, thin_concat, ih]
    unfold step
    rw [List.any_map]
    split
    next h => exact (congrArg (List.map f) (if_pos h)).symm
    next h =>
      refine Eq.trans ?_ (congrArg (List.map f) (if_neg h)).symm
      rw [List.map_append, List.map_cons, List.map_nil]

/-! ## Two relations -/

/-- The finer relation keeps what the coarser one keeps, where that leaves no clash. -/
theorem thin_eq_of_pairwise (hfine : ∀ a b, fine a b = true → clash a b = true)
    (h : (thin fine l).Pairwise fun b a => clash a b = false) : thin clash l = thin fine l := by
  induction l using List.reverseRecOn with
  | nil => rfl
  | append_singleton l a ih =>
    have heq := ih (h.sublist (thin_isPrefix fine l [a]).sublist)
    rcases thin_concat_cases fine l a with ⟨hturn, -⟩ | ⟨hturn, b, hb, hclash⟩
    · rw [hturn] at h ⊢
      rw [thin_concat_of_not, heq]
      rw [heq]
      exact fun b hb => (List.pairwise_append.1 h).2.2 b hb a (List.mem_singleton_self a)
    · rw [hturn, ← heq]
      exact thin_concat_of_clash (heq ▸ hb) (hfine a b hclash)

theorem thin_eq_iff (hfine : ∀ a b, fine a b = true → clash a b = true) :
    thin clash l = thin fine l ↔ (thin fine l).Pairwise fun b a => clash a b = false :=
  ⟨fun h => h ▸ pairwise_thin clash l, thin_eq_of_pairwise hfine⟩

/-- Both relations keep the same elements if and only if what the coarser one leaves out clashes in
the finer one with an element that is kept before it. -/
theorem thin_eq_iff_dropped (hfine : ∀ a b, fine a b = true → clash a b = true) :
    thin clash l = thin fine l ↔ ∀ l₁ a l₂, l = l₁ ++ a :: l₂ →
      thin clash (l₁ ++ [a]) = thin clash l₁ ++ [a] ∨ ∃ b ∈ thin clash l₁, fine a b = true := by
  constructor
  · intro h l₁ a l₂ hsplit
    have hapart := (thin_eq_iff hfine).1 h
    have hl : l = l₁ ++ [a] ++ l₂ := by rw [hsplit, List.append_assoc, List.singleton_append]
    have hturns : ∀ l' l'', l = l' ++ l'' → thin clash l' = thin fine l' := fun l' l'' hl' =>
      thin_eq_of_pairwise hfine (hapart.sublist (hl' ▸ (thin_isPrefix fine l' l'').sublist))
    have hbefore := hturns l₁ (a :: l₂) hsplit
    rcases thin_concat_cases fine l₁ a with ⟨hturn, -⟩ | ⟨-, b, hb, hclash⟩
    · left
      rw [hturns (l₁ ++ [a]) l₂ hl, hturn, hbefore]
    · exact .inr ⟨b, hbefore ▸ hb, hclash⟩
  · intro h
    induction l using List.reverseRecOn with
    | nil => rfl
    | append_singleton l a ih =>
      have heq := ih fun l₁ b l₂ hsplit => h l₁ b (l₂ ++ [a]) (by simp [hsplit])
      rcases h l a [] rfl with hturn | ⟨b, hb, hclash⟩
      · rcases thin_concat_cases clash l a with ⟨-, hnone⟩ | ⟨hdrop, -⟩
        · rw [hturn, thin_concat_of_not, heq]
          intro b hb
          exact Bool.eq_false_iff.2 fun hclash =>
            Bool.eq_false_iff.1 (hnone b (heq ▸ hb)) (hfine a b hclash)
        · rw [hdrop] at hturn
          simpa using congrArg List.length hturn
      · rw [thin_concat_of_clash hb (hfine a b hclash),
          thin_concat_of_clash (heq ▸ hb) hclash, heq]

end Thinning

/-!
## First come, first kept

Pairs join a list in turn, and a pair whose key is there already is dropped. The list is then the
same for every order of the newcomers, up to its own order, when the newcomers of a new key carry
one value (`join_perm`); otherwise the one that comes first decides (`filter_join_cons`).
-/

namespace FirstCome

variable {κ γ : Type} [DecidableEq κ]

def push (l : List (κ × γ)) (e : κ × γ) : List (κ × γ) :=
  if l.any (·.1 = e.1) then l else l ++ [e]

def join (l m : List (κ × γ)) : List (κ × γ) := m.foldl push l

/-- The newcomers of a new key carry one value. -/
def Agree (l m : List (κ × γ)) : Prop :=
  ∀ e ∈ m, ∀ e' ∈ m, e.1 = e'.1 → e.1 ∉ l.map Prod.fst → e = e'

theorem push_of_mem {l : List (κ × γ)} {e : κ × γ} (h : e.1 ∈ l.map Prod.fst) : push l e = l := by
  obtain ⟨e', he', hkey⟩ := List.mem_map.1 h
  unfold push
  rw [if_pos (List.any_eq_true.2 ⟨e', he', by simpa using hkey⟩)]

theorem push_of_not_mem {l : List (κ × γ)} {e : κ × γ} (h : e.1 ∉ l.map Prod.fst) :
    push l e = l ++ [e] := by
  unfold push
  rw [if_neg]
  intro hany
  obtain ⟨e', he', hkey⟩ := List.any_eq_true.1 hany
  exact h (List.mem_map.2 ⟨e', he', by simpa using hkey⟩)

/-- The pairs of one key: those that were there, or the first newcomer. -/
theorem filter_join (l m : List (κ × γ)) (k : κ) :
    (join l m).filter (·.1 = k) =
      if k ∈ l.map Prod.fst then l.filter (·.1 = k) else (m.find? (·.1 = k)).toList := by
  induction m generalizing l with
  | nil =>
    split
    · rfl
    next h =>
      rw [join, List.foldl_nil, List.filter_eq_nil_iff.2]
      · rfl
      · intro e he hkey
        exact h (List.mem_map.2 ⟨e, he, by simpa using hkey⟩)
  | cons e m ih =>
    rw [join, List.foldl_cons]
    show (join (push l e) m).filter (·.1 = k) = _
    rw [ih]
    by_cases hmem : e.1 ∈ l.map Prod.fst
    · rw [push_of_mem hmem]
      by_cases hkey : e.1 = k
      · subst hkey
        rw [if_pos hmem, if_pos hmem]
      · rw [List.find?_cons_of_neg (by simpa using hkey)]
    · rw [push_of_not_mem hmem]
      by_cases hkey : e.1 = k
      · subst hkey
        rw [if_pos (by simp), if_neg hmem, List.filter_append, List.filter_eq_nil_iff.2]
        · simp
        · intro e' he' hkey
          exact hmem (List.mem_map.2 ⟨e', he', by simpa using hkey⟩)
      · rw [List.find?_cons_of_neg (by simpa using hkey), List.map_append, List.filter_append]
        have hother : [e].filter (·.1 = k) = [] := by simp [hkey]
        rw [hother, List.append_nil]
        congr 1
        simp [Ne.symm hkey]

/-- Two lists that agree key by key are permutations of one another. -/
theorem perm_of_filter {l l' : List (κ × γ)}
    (h : ∀ k, (l.filter (·.1 = k)).Perm (l'.filter (·.1 = k))) : l.Perm l' := by
  classical
  rw [List.perm_iff_count]
  intro e
  have hcount : ∀ l : List (κ × γ), l.count e = (l.filter (·.1 = e.1)).count e := by
    intro l
    exact (List.count_filter (by simp)).symm
  rw [hcount l, hcount l', (h e.1).count_eq]

/-- The order of the newcomers does not matter when those of a new key carry one value. -/
theorem join_perm {l l' m m' : List (κ × γ)} (hl : l.Perm l') (hm : m.Perm m') (h : Agree l m) :
    (join l m).Perm (join l' m') := by
  apply perm_of_filter
  intro k
  rw [filter_join, filter_join]
  have hkeys : k ∈ l.map Prod.fst ↔ k ∈ l'.map Prod.fst := (hl.map Prod.fst).mem_iff
  by_cases hk : k ∈ l.map Prod.fst
  · rw [if_pos hk, if_pos (hkeys.1 hk)]
    exact hl.filter _
  · rw [if_neg hk, if_neg (mt hkeys.2 hk)]
    suffices hfind : m.find? (·.1 = k) = m'.find? (·.1 = k) by rw [hfind]
    cases hfound : m.find? (·.1 = k) with
    | none =>
      rw [List.find?_eq_none] at hfound
      exact (List.find?_eq_none.2 fun e he => hfound e (hm.mem_iff.2 he)).symm
    | some e =>
      have hkey : e.1 = k := by simpa using List.find?_some hfound
      have he := List.mem_of_find?_eq_some hfound
      obtain ⟨e', hfound'⟩ : ∃ e', m'.find? (·.1 = k) = some e' := by
        rw [← Option.isSome_iff_exists, List.find?_isSome]
        exact ⟨e, hm.mem_iff.1 he, by simpa using hkey⟩
      have hkey' : e'.1 = k := by simpa using List.find?_some hfound'
      have he' := hm.mem_iff.2 (List.mem_of_find?_eq_some hfound')
      rw [hfound', h e he e' he' (hkey.trans hkey'.symm) (hkey ▸ hk)]

/-- A newcomer of a new key that comes first is kept. -/
theorem filter_join_cons {l m : List (κ × γ)} {e : κ × γ} (h : e.1 ∉ l.map Prod.fst) :
    (join l (e :: m)).filter (·.1 = e.1) = [e] := by
  rw [filter_join, if_neg h, List.find?_cons_of_pos (by simp)]
  rfl

end FirstCome
