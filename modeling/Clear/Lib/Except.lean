/-!
# Fallible computations that succeed

A `do` block in `Except` succeeds exactly when each of its steps does; the lemmas take a block
apart at its first step.
-/

namespace Except

variable {ε α β : Type}

theorem bind_eq_ok {x : Except ε α} {f : α → Except ε β} {b : β} :
    (x >>= f) = .ok b ↔ ∃ a, x = .ok a ∧ f a = .ok b := by
  cases x with
  | error e =>
    constructor
    · intro h
      cases h
    · rintro ⟨a, h, -⟩
      cases h
  | ok a =>
    constructor
    · exact fun h => ⟨a, rfl, h⟩
    · rintro ⟨a', h, hf⟩
      cases h
      exact hf

theorem map_eq_ok {x : Except ε α} {f : α → β} {b : β} :
    x.map f = .ok b ↔ ∃ a, x = .ok a ∧ f a = b := by
  cases x <;> simp [Except.map]

theorem pure_eq_ok {a b : α} : (pure a : Except ε α) = .ok b ↔ a = b := by
  simp [pure, Except.pure]

theorem toOption_eq_some {x : Except ε α} {a : α} : x.toOption = some a ↔ x = .ok a := by
  cases x <;> simp [Except.toOption]

/-- A traversal that succeeds collects what the elements yield. -/
theorem mem_of_mapM {f : α → Except ε β} {l : List α} {l' : List β} (h : l.mapM f = .ok l')
    {b : β} : b ∈ l' ↔ ∃ a ∈ l, f a = .ok b := by
  induction l generalizing l' with
  | nil =>
    obtain rfl : [] = l' := by simpa [pure, Except.pure] using h
    simp
  | cons a l ih =>
    rw [List.mapM_cons] at h
    obtain ⟨b₀, hb₀, h⟩ := bind_eq_ok.1 h
    obtain ⟨bs, hbs, h⟩ := bind_eq_ok.1 h
    obtain rfl := pure_eq_ok.1 h
    rw [List.mem_cons, ih hbs]
    constructor
    · intro hb
      rcases hb with rfl | ⟨a', ha', hfa⟩
      · exact ⟨a, List.mem_cons_self, hb₀⟩
      · exact ⟨a', List.mem_cons_of_mem _ ha', hfa⟩
    · rintro ⟨a', ha', hfa⟩
      rcases List.mem_cons.1 ha' with rfl | ha'
      · rw [hb₀] at hfa
        exact .inl (Except.ok.inj hfa).symm
      · exact .inr ⟨a', ha', hfa⟩

/-- Each element of a traversal that succeeds does. -/
theorem ok_of_mapM {f : α → Except ε β} {l : List α} {l' : List β} (h : l.mapM f = .ok l') {a : α}
    (ha : a ∈ l) : ∃ b, f a = .ok b := by
  induction l generalizing l' with
  | nil => cases ha
  | cons x l ih =>
    rw [List.mapM_cons] at h
    obtain ⟨b₀, hb₀, h⟩ := bind_eq_ok.1 h
    obtain ⟨bs, hbs, -⟩ := bind_eq_ok.1 h
    rcases List.mem_cons.1 ha with rfl | ha
    · exact ⟨b₀, hb₀⟩
    · exact ih hbs ha

/-- A traversal relates what the elements yield as the elements are related. -/
theorem pairwise_mapM {f : α → Except ε β} {R : α → α → Prop} {S : β → β → Prop}
    (hf : ∀ a a' b b', R a a' → f a = .ok b → f a' = .ok b' → S b b') {l : List α} {l' : List β}
    (hl : l.Pairwise R) (h : l.mapM f = .ok l') : l'.Pairwise S := by
  induction l generalizing l' with
  | nil =>
    obtain rfl : [] = l' := by simpa [pure, Except.pure] using h
    exact .nil
  | cons a l ih =>
    rw [List.mapM_cons] at h
    obtain ⟨b, hb, h⟩ := bind_eq_ok.1 h
    obtain ⟨bs, hbs, h⟩ := bind_eq_ok.1 h
    obtain rfl := pure_eq_ok.1 h
    rw [List.pairwise_cons] at hl ⊢
    refine ⟨fun b' hb' => ?_, ih hl.2 hbs⟩
    obtain ⟨a', ha', hfa'⟩ := (mem_of_mapM hbs).1 hb'
    exact hf a a' b b' (hl.1 a' ha') hb hfa'

/-- A traversal succeeds if each of its elements does. -/
theorem exists_mapM {f : α → Except ε β} {l : List α} (h : ∀ a ∈ l, ∃ b, f a = .ok b) :
    ∃ l', l.mapM f = .ok l' := by
  induction l with
  | nil => exact ⟨[], rfl⟩
  | cons a l ih =>
    obtain ⟨b, hb⟩ := h a List.mem_cons_self
    obtain ⟨bs, hbs⟩ := ih fun a' ha' => h a' (List.mem_cons_of_mem _ ha')
    exact ⟨b :: bs, by rw [List.mapM_cons, hb, hbs]; rfl⟩

theorem exists_mapM_iff {f : α → Except ε β} {l : List α} :
    (∃ l', l.mapM f = .ok l') ↔ ∀ a ∈ l, ∃ b, f a = .ok b :=
  ⟨fun ⟨_, h⟩ _ ha => ok_of_mapM h ha, exists_mapM⟩

/-- A fold succeeds if each of its steps does, from any state. -/
theorem exists_foldlM {f : β → α → Except ε β} {l : List α} (b : β)
    (h : ∀ b, ∀ a ∈ l, ∃ b', f b a = .ok b') : ∃ b', l.foldlM f b = .ok b' := by
  induction l generalizing b with
  | nil => exact ⟨b, rfl⟩
  | cons a l ih =>
    obtain ⟨b', hb'⟩ := h b a List.mem_cons_self
    obtain ⟨b'', hb''⟩ := ih b' fun b a' ha' => h b a' (List.mem_cons_of_mem _ ha')
    exact ⟨b'', by rw [List.foldlM_cons, hb']; exact hb''⟩

/-- A fold whose steps succeed or fail whatever the state succeeds exactly when each step does. -/
theorem foldlM_ok_iff {f : β → α → Except ε β} {P : α → Prop}
    (h : ∀ b a, (∃ b', f b a = .ok b') ↔ P a) (l : List α) (b : β) :
    (∃ b', l.foldlM f b = .ok b') ↔ ∀ a ∈ l, P a := by
  induction l generalizing b with
  | nil => simp [pure, Except.pure]
  | cons a l ih =>
    rw [List.foldlM_cons, List.forall_mem_cons]
    constructor
    · rintro ⟨b', hfold⟩
      obtain ⟨b₁, h₁, hfold⟩ := bind_eq_ok.1 hfold
      exact ⟨(h b a).1 ⟨b₁, h₁⟩, (ih b₁).1 ⟨b', hfold⟩⟩
    · rintro ⟨ha, hl⟩
      obtain ⟨b₁, h₁⟩ := (h b a).2 ha
      obtain ⟨b', hfold⟩ := (ih b₁).2 hl
      exact ⟨b', bind_eq_ok.2 ⟨b₁, h₁, hfold⟩⟩

theorem exists_map_ok {x : Except ε α} {f : α → β} :
    (∃ b, x.map f = .ok b) ↔ ∃ a, x = .ok a := by
  cases x <;> simp [Except.map]

theorem exists_bind_ok {x : Except ε α} {f : α → Except ε β} (h : ∀ a, ∃ b, f a = .ok b) :
    (∃ b, (x >>= f) = .ok b) ↔ ∃ a, x = .ok a := by
  constructor
  · rintro ⟨b, hb⟩
    obtain ⟨a, ha, -⟩ := bind_eq_ok.1 hb
    exact ⟨a, ha⟩
  · rintro ⟨a, ha⟩
    obtain ⟨b, hb⟩ := h a
    exact ⟨b, bind_eq_ok.2 ⟨a, ha, hb⟩⟩

theorem foldlM_invariant {f : β → α → Except ε β} {l : List α} {b b' : β} (P : β → Prop)
    (step : ∀ b b', ∀ a ∈ l, P b → f b a = .ok b' → P b') (hb : P b)
    (h : l.foldlM f b = .ok b') : P b' := by
  induction l generalizing b with
  | nil =>
    obtain rfl : b = b' := by simpa [pure, Except.pure] using h
    exact hb
  | cons a l ih =>
    rw [List.foldlM_cons] at h
    obtain ⟨b₁, h₁, h⟩ := bind_eq_ok.1 h
    exact ih (fun b b' a' ha' => step b b' a' (List.mem_cons_of_mem _ ha'))
      (step b b₁ a List.mem_cons_self hb h₁) h

end Except
