import Mathlib.Data.List.Basic

/-!
# Retries

A loop that makes one attempt after the other on a state: it ends with the first success, with a
failure that asks for no other attempt, or when no retry is left. `Ran` says how a loop ran; what
holds of loops is proved by induction on it.
-/

namespace Retry

variable {σ α ε : Type}

/-- At most `left` retries after the first attempt. -/
def run (attempt : σ → Except ε α × σ) (again : ε → σ → Bool) : (left : Nat) → σ → Except ε α × σ
  | 0, s => attempt s
  | left + 1, s =>
    match attempt s with
    | (.error e, s') => if again e s' then run attempt again left s' else (.error e, s')
    | (.ok a, s') => (.ok a, s')

variable {attempt : σ → Except ε α × σ} {again : ε → σ → Bool} {left : Nat} {s : σ}
  {r : Except ε α × σ}

inductive Ran (attempt : σ → Except ε α × σ) (again : ε → σ → Bool) :
    Nat → σ → Except ε α × σ → Prop
  | stop {left : Nat} {s : σ}
      (h : ∀ e, (attempt s).1 = .error e → left = 0 ∨ again e (attempt s).2 = false) :
      Ran attempt again left s (attempt s)
  | again {left : Nat} {s s' : σ} {e : ε} {r : Except ε α × σ} (h : attempt s = (.error e, s'))
      (hagain : again e s' = true)
      (hr : Ran attempt again left s' r) : Ran attempt again (left + 1) s r

theorem ran_run (left : Nat) (s : σ) : Ran attempt again left s (run attempt again left s) := by
  induction left generalizing s with
  | zero => exact .stop fun _ _ => .inl rfl
  | succ left ih =>
    have hstop : (∀ e, (attempt s).1 = .error e → again e (attempt s).2 = false) →
        Ran attempt again (left + 1) s (attempt s) := fun h => .stop fun e he => .inr (h e he)
    unfold run
    cases h : attempt s with
    | mk result s' =>
      rw [h] at hstop
      cases result with
      | ok a => exact hstop fun e he => nomatch he
      | error e =>
        dsimp only
        split
        next hagain => exact .again h hagain (ih s')
        next hagain =>
          refine hstop fun e' he' => ?_
          cases he'
          simpa using hagain

theorem run_of_again {path : Nat → σ} {n left : Nat} (hn : n ≤ left)
    (hagain : ∀ i < n, ∃ e, attempt (path i) = (.error e, path (i + 1)) ∧
      again e (path (i + 1)) = true)
    (hstop : n < left → ∀ e, (attempt (path n)).1 = .error e → again e (attempt (path n)).2 = false) :
    run attempt again left (path 0) = attempt (path n) := by
  induction n generalizing path left with
  | zero =>
    cases left with
    | zero => rfl
    | succ left =>
      have hstop := hstop (Nat.succ_pos left)
      unfold run
      cases h : attempt (path 0) with
      | mk result s' =>
        rw [h] at hstop
        cases result with
        | ok a => rfl
        | error e =>
          dsimp only
          rw [hstop e rfl, if_neg Bool.false_ne_true]
  | succ n ih =>
    obtain ⟨left, rfl⟩ : ∃ m, left = m + 1 := ⟨left - 1, by omega⟩
    obtain ⟨e, hattempt, he⟩ := hagain 0 (Nat.succ_pos n)
    unfold run
    rw [hattempt]
    dsimp only
    rw [if_pos he]
    exact ih (by omega) (fun i hi => hagain (i + 1) (by omega)) (fun h => hstop (by omega))

end Retry
