import Clear.Lib.Machine
import Mathlib.Logic.Function.Basic

/-!
# Pools of machines

A pool runs copies of one machine, which take their steps in any order. The copies fall into groups,
a copy is idle or busy, and some steps wake an idle copy up.

* `member`: a copy reaches what the machine reaches,
* `idle_or_idle`: if a copy is woken up only while the others of its group are idle, no two copies of
  a group are ever busy at a time.
-/

namespace Pool

variable {ι κ σ α : Type} [DecidableEq ι] {M : Machine σ α} {s : ι → σ}

def step (M : Machine σ α) (s : ι → σ) (a : ι × α) : Option (ι → σ) :=
  (M.step (s a.1) a.2).map (Function.update s a.1)

def machine (ι : Type) [DecidableEq ι] (M : Machine σ α) : Machine (ι → σ) (ι × α) where
  init s := ∀ i, M.init (s i)
  step := step M

theorem step_eq_some {t : ι → σ} {a : ι × α} (h : step M s a = some t) :
    ∃ u, M.step (s a.1) a.2 = some u ∧ t a.1 = u ∧ ∀ i, i ≠ a.1 → t i = s i := by
  obtain ⟨u, hu, rfl⟩ := Option.map_eq_some_iff.1 h
  exact ⟨u, hu, Function.update_self .., fun i hi => Function.update_of_ne hi ..⟩

theorem member {G : ι → σ → α → Prop}
    (hs : (machine ι M).ReachIf (fun s a => G a.1 (s a.1) a.2) s) (i : ι) :
    M.ReachIf (G i) (s i) := by
  refine Machine.Invariant.reach (I := fun s : ι → σ => ∀ i, M.ReachIf (G i) (s i)) ⟨?_, ?_⟩ hs i
  · exact fun s h i => ⟨s i, h i, .refl _⟩
  · intro s a t ih hG h i
    obtain ⟨u, hu, ht, hother⟩ := step_eq_some h
    by_cases hi : i = a.1
    · subst hi
      rw [ht]
      exact (ih a.1).run (.single hG hu)
    · rw [hother i hi]
      exact ih i

/-! ## One busy copy to a group -/

structure Resting (M : Machine σ α) (idle : σ → Prop) (wakes : σ → α → Prop) : Prop where
  init : ∀ s, M.init s → idle s
  step : ∀ s a t, idle s → ¬ wakes s a → M.step s a = some t → idle t

def Alone (group : ι → κ) (idle : σ → Prop) (wakes : σ → α → Prop) (s : ι → σ) (a : ι × α) : Prop :=
  wakes (s a.1) a.2 → ∀ j, j ≠ a.1 → group j = group a.1 → idle (s j)

theorem idle_or_idle {group : ι → κ} {idle : σ → Prop} {wakes : σ → α → Prop}
    (hrest : Resting M idle wakes) (hs : (machine ι M).ReachIf (Alone group idle wakes) s) {i j : ι}
    (hij : i ≠ j) (hgroup : group i = group j) : idle (s i) ∨ idle (s j) := by
  refine Machine.Invariant.reach
    (I := fun s : ι → σ => ∀ i j, i ≠ j → group i = group j → idle (s i) ∨ idle (s j))
    ⟨?_, ?_⟩ hs i j hij hgroup
  · exact fun s h i j _ _ => .inl (hrest.init _ (h i))
  · intro s a t ih halone h
    obtain ⟨u, hu, ht, hother⟩ := step_eq_some h
    -- The copy that steps against another one of its group.
    have hsteps : ∀ j, j ≠ a.1 → group j = group a.1 → idle (t a.1) ∨ idle (t j) := by
      intro j hj hgroup
      rw [hother j hj, ht]
      by_cases hwakes : wakes (s a.1) a.2
      · exact .inr (halone hwakes j hj hgroup)
      · refine (ih a.1 j (Ne.symm hj) hgroup.symm).imp_left fun hidle => ?_
        exact hrest.step _ _ _ hidle hwakes hu
    intro i j hij hgroup
    by_cases hi : i = a.1
    · subst hi
      exact hsteps j (Ne.symm hij) hgroup.symm
    · by_cases hj : j = a.1
      · subst hj
        exact (hsteps i hij hgroup).symm
      · rw [hother i hi, hother j hj]
        exact ih i j hij hgroup

end Pool
