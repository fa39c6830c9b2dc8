import Mathlib.Data.List.Basic

/-!
# State machines and their runs

A `Machine` is a set of initial states and a partial step function. `Run G` are its runs whose
steps all meet the guard `G` (a condition on the state before a step and its action); a machine's
unconditional runs are those of the guard `anyStep`.

* `Run.preserves`, `Invariant.reach`: the invariant rules,
* `ReachIf.map`: the simulation rule,
* `run_of_exec`, `run_of_execIf`: a trace evaluated by `exec` or `execIf` is a run,
* `along_iff_meets`: a property holds along a trace exactly when every step meets a guard, for a
  guard that preserves an invariant and whose violation breaks the property.
-/

/-- Initial states and a partial step function. -/
structure Machine (σ α : Type) where
  init : σ → Prop
  step : σ → α → Option σ

namespace Machine

variable {σ α : Type} (M : Machine σ α)

def anyStep : σ → α → Prop := fun _ _ => True

inductive Run (G : σ → α → Prop) : σ → σ → Prop
  | refl (s : σ) : Run G s s
  | tail {s t u : σ} {a : α} : Run G s t → G t a → M.step t a = some u → Run G s u

def ReachIf (G : σ → α → Prop) (s : σ) : Prop := ∃ s₀, M.init s₀ ∧ M.Run G s₀ s

/-- Reachable states. -/
abbrev Reach (s : σ) : Prop := M.ReachIf anyStep s

variable {M} {G G' : σ → α → Prop} {I P : σ → Prop}

namespace Run

theorem single {s t : σ} {a : α} (hG : G s a) (h : M.step s a = some t) : M.Run G s t :=
  .tail (.refl s) hG h

theorem trans {s t u : σ} (h₁ : M.Run G s t) (h₂ : M.Run G t u) : M.Run G s u := by
  induction h₂ with
  | refl => exact h₁
  | tail _ hG hs ih => exact .tail ih hG hs

theorem mono {s t : σ} (h : M.Run G s t) (hG : ∀ s a, G s a → G' s a) : M.Run G' s t := by
  induction h with
  | refl => exact .refl _
  | tail _ hg hs ih => exact .tail ih (hG _ _ hg) hs

theorem preserves {s t : σ} (h : M.Run G s t)
    (hstep : ∀ s a t, I s → G s a → M.step s a = some t → I t) (hI : I s) : I t := by
  induction h with
  | refl => exact hI
  | tail _ hG hs ih => exact hstep _ _ _ ih hG hs

theorem stable {s t : σ} (h : M.Run G s t)
    (hI : ∀ s a t, I s → G s a → M.step s a = some t → I t)
    (hP : ∀ s a t, I s → P s → G s a → M.step s a = some t → P t) (hs : I s) (hp : P s) :
    P t := by
  have := h.preserves (I := fun s => I s ∧ P s)
    (fun s a t h hG hst => ⟨hI s a t h.1 hG hst, hP s a t h.1 h.2 hG hst⟩) ⟨hs, hp⟩
  exact this.2

end Run

/-! ## Invariants -/

/-- `I` holds initially and every guarded step preserves it. -/
structure Invariant (M : Machine σ α) (G : σ → α → Prop) (I : σ → Prop) : Prop where
  init : ∀ s, M.init s → I s
  step : ∀ s a t, I s → G s a → M.step s a = some t → I t

theorem Invariant.reach (h : M.Invariant G I) {s : σ} (hs : M.ReachIf G s) : I s := by
  obtain ⟨s₀, h₀, hr⟩ := hs
  exact hr.preserves h.step (h.init s₀ h₀)

theorem ReachIf.run {s t : σ} (hs : M.ReachIf G s) (h : M.Run G s t) : M.ReachIf G t := by
  obtain ⟨s₀, h₀, hr⟩ := hs
  exact ⟨s₀, h₀, hr.trans h⟩

theorem ReachIf.mono {s : σ} (hs : M.ReachIf G s) (hG : ∀ s a, G s a → G' s a) :
    M.ReachIf G' s := by
  obtain ⟨s₀, h₀, hr⟩ := hs
  exact ⟨s₀, h₀, hr.mono hG⟩

/-- A machine whose guarded steps are guarded steps of another machine, or change nothing there,
reaches what that machine reaches. -/
theorem ReachIf.map {τ β : Type} {N : Machine τ β} {H : τ → β → Prop} {f : σ → τ} {s : σ}
    (hs : M.ReachIf G s) (hI : M.Invariant G I) (hinit : ∀ s, M.init s → N.init (f s))
    (hstep : ∀ s a t, I s → G s a → M.step s a = some t →
      f t = f s ∨ ∃ b, H (f s) b ∧ N.step (f s) b = some (f t)) : N.ReachIf H (f s) := by
  obtain ⟨s₀, h₀, hr⟩ := hs
  refine ⟨f s₀, hinit s₀ h₀, ?_⟩
  have hboth : I s ∧ N.Run H (f s₀) (f s) := by
    induction hr with
    | refl => exact ⟨hI.init _ h₀, .refl _⟩
    | @tail t u a _ hG hs ih =>
      refine ⟨hI.step _ _ _ ih.1 hG hs, ?_⟩
      rcases hstep t a u ih.1 hG hs with heq | ⟨b, hH, hb⟩
      · exact heq ▸ ih.2
      · exact .tail ih.2 hH hb
  exact hboth.2

/-! ## Traces -/

/-- Execute the actions in order. -/
def exec (M : Machine σ α) (s : σ) : List α → Option σ
  | [] => some s
  | a :: as => (M.step s a).bind fun t => M.exec t as

theorem run_of_exec {s t : σ} {as : List α} (h : M.exec s as = some t) :
    M.Run anyStep s t := by
  induction as generalizing s with
  | nil =>
    obtain rfl : s = t := by simpa [exec] using h
    exact .refl _
  | cons a as ih =>
    obtain ⟨u, hu, h⟩ := Option.bind_eq_some_iff.1 h
    exact (Run.single trivial hu).trans (ih h)

theorem reach_of_exec {s t : σ} {as : List α} (hs : M.init s) (h : M.exec s as = some t) :
    M.Reach t := ⟨s, hs, run_of_exec h⟩

/-- Execute the actions in order as long as they meet the guard. -/
def execIf (M : Machine σ α) (G : σ → α → Prop) [∀ s a, Decidable (G s a)] (s : σ) :
    List α → Option σ
  | [] => some s
  | a :: as => if G s a then (M.step s a).bind fun t => M.execIf G t as else none

theorem run_of_execIf [∀ s a, Decidable (G s a)] {s t : σ} {as : List α}
    (h : M.execIf G s as = some t) : M.Run G s t := by
  induction as generalizing s with
  | nil =>
    obtain rfl : s = t := by simpa [execIf] using h
    exact .refl _
  | cons a as ih =>
    obtain ⟨hG, h⟩ := Option.ite_none_right_eq_some.1 h
    obtain ⟨u, hu, h⟩ := Option.bind_eq_some_iff.1 h
    exact (Run.single hG hu).trans (ih h)

/-- `P` holds in every state visited while the actions are executed. -/
def Along (M : Machine σ α) (P : σ → Prop) (s : σ) : List α → Prop
  | [] => P s
  | a :: as => P s ∧ ∀ t, M.step s a = some t → M.Along P t as

def Meets (M : Machine σ α) (G : σ → α → Prop) (s : σ) : List α → Prop
  | [] => True
  | a :: as => ∀ t, M.step s a = some t → G s a ∧ M.Meets G t as

theorem Along.here {s : σ} {as : List α} (h : M.Along P s as) : P s := by
  cases as with
  | nil => exact h
  | cons a as => exact h.1

theorem along_iff_meets {s : σ} {as : List α} (hP : ∀ s, I s → P s)
    (hkeep : ∀ s a t, I s → G s a → M.step s a = some t → I t)
    (hbreak : ∀ s a t, I s → ¬ G s a → M.step s a = some t → ¬ P t) (hs : I s) :
    M.Along P s as ↔ M.Meets G s as := by
  induction as generalizing s with
  | nil => exact iff_of_true (hP s hs) trivial
  | cons a as ih =>
    simp only [Along, Meets, hP s hs, true_and]
    refine forall₂_congr fun t ht => ?_
    by_cases hG : G s a
    · simp only [hG, true_and]
      exact ih (hkeep s a t hs hG ht)
    · simp only [hG, false_and, iff_false]
      exact fun h => hbreak s a t hs hG ht h.here

end Machine
