import Mathlib.Data.List.Basic
import Mathlib.Data.List.Perm.Subperm

/-!
# Parent links

Nodes with at most one parent each. A node is on a cycle, or its ancestors end, or they lead into a
cycle that it is not on. `leadsIntoCycle` follows the links of a node until they end or repeat; it
never needs more steps than there are nodes (`isSome_leadsIntoCycle`), and says whether they end
(`leadsIntoCycle_iff`). Links of nodes whose ancestors end form a forest (`acyclic_of_ends`).
-/

namespace Forest

variable {κ : Type} {parent parent' : κ → Option κ} {a b c : κ}

/-- The ancestor `n` links above a node. -/
def up (parent : κ → Option κ) : Nat → κ → Option κ
  | 0, a => some a
  | n + 1, a => (parent a).bind (up parent n)

def Ends (parent : κ → Option κ) (a : κ) : Prop := ∃ n, up parent n a = none

def OnCycle (parent : κ → Option κ) (a : κ) : Prop := ∃ n, 0 < n ∧ up parent n a = some a

def Acyclic (parent : κ → Option κ) : Prop := ∀ a, ¬ OnCycle parent a

@[simp] theorem up_zero : up parent 0 a = some a := rfl

theorem up_one : up parent 1 a = parent a := by
  cases h : parent a <;> simp [up, h]

theorem up_add (m n : Nat) (a : κ) : up parent (m + n) a = (up parent m a).bind (up parent n) := by
  induction m generalizing a with
  | zero => simp
  | succ m ih =>
    rw [Nat.succ_add, up, up, Option.bind_assoc]
    congr 1
    funext b
    exact ih b

theorem up_succ (n : Nat) (a : κ) : up parent (n + 1) a = (up parent n a).bind parent := by
  rw [up_add]
  congr 1
  funext b
  exact up_one

/-- Once the ancestors have ended there are none above. -/
theorem up_none {m n : Nat} (h : up parent m a = none) (hle : m ≤ n) : up parent n a = none := by
  rw [show n = m + (n - m) by omega, up_add, h]
  rfl

theorem ends_of_none (h : parent a = none) : Ends parent a := ⟨1, by rw [up_one, h]⟩

/-- The ancestors of a node end if those of one of them do. -/
theorem ends_iff_up {n : Nat} (h : up parent n a = some b) : Ends parent a ↔ Ends parent b := by
  constructor
  · intro hends
    obtain ⟨m, hm⟩ := hends
    have hmore := up_none hm (Nat.le_add_left m n)
    rw [up_add, h] at hmore
    exact ⟨m, hmore⟩
  · intro hends
    obtain ⟨m, hm⟩ := hends
    exact ⟨n + m, by rw [up_add, h]; exact hm⟩

theorem ends_iff_parent (h : parent a = some b) : Ends parent a ↔ Ends parent b :=
  ends_iff_up (n := 1) (by rw [up_one, h])

/-- A cycle can be gone around any number of times. -/
theorem up_mul {n : Nat} (h : up parent n a = some a) (k : Nat) : up parent (k * n) a = some a := by
  induction k with
  | zero => rw [Nat.zero_mul, up_zero]
  | succ k ih =>
    rw [Nat.succ_mul, up_add, ih]
    exact h

theorem not_ends_of_onCycle (h : OnCycle parent a) : ¬ Ends parent a := by
  intro hends
  obtain ⟨n, hpos, hn⟩ := h
  obtain ⟨m, hm⟩ := hends
  have hmore := up_none hm (Nat.le_mul_of_pos_right m hpos)
  rw [up_mul hn m] at hmore
  cases hmore

/-- Links that are kept only where the ancestors end form a forest. -/
theorem acyclic_of_ends (h : ∀ a b, parent' a = some b → parent a = some b ∧ Ends parent a) :
    Acyclic parent' := by
  intro a hcycle
  obtain ⟨n, hpos, hn⟩ := hcycle
  have hsame : ∀ k b, up parent' k a = some b → up parent k a = some b := by
    intro k
    induction k with
    | zero => exact fun b hb => hb
    | succ k ih =>
      intro b hb
      rw [up_succ] at hb ⊢
      obtain ⟨c, hc, hcb⟩ := Option.bind_eq_some_iff.1 hb
      rw [ih c hc]
      exact (h c b hcb).1
  obtain ⟨b, hb⟩ : ∃ b, parent' a = some b := by
    rw [show n = 1 + (n - 1) by omega, up_add, up_one] at hn
    obtain ⟨b, hb, -⟩ := Option.bind_eq_some_iff.1 hn
    exact ⟨b, hb⟩
  exact not_ends_of_onCycle ⟨n, hpos, hsame n a hn⟩ (h a b hb).2

/-! ## Following the links -/

section Walk

variable [DecidableEq κ]

/-- Whether the links from `cursor` come back to a node that was seen; absent where the fuel runs
out. -/
def walk (parent : κ → Option κ) : (fuel : Nat) → (seen : List κ) → (cursor : Option κ) →
    Option Bool
  | _, _, none => some false
  | 0, _, some _ => none
  | fuel + 1, seen, some c =>
    if c ∈ seen then some true else walk parent fuel (c :: seen) (parent c)

theorem ends_of_walk {fuel : Nat} {seen : List κ} {cursor : Option κ}
    (h : walk parent fuel seen cursor = some false) : ∀ c ∈ cursor, Ends parent c := by
  induction fuel generalizing seen cursor with
  | zero =>
    cases cursor with
    | none => simp
    | some c => simp [walk] at h
  | succ fuel ih =>
    cases cursor with
    | none => simp
    | some c =>
      unfold walk at h
      split at h
      next => cases h
      next =>
        intro c' hc'
        obtain rfl : c = c' := Option.some_inj.1 hc'
        cases hparent : parent c with
        | none => exact ends_of_none hparent
        | some b => exact (ends_iff_parent hparent).2 (ih h b hparent)

theorem not_ends_of_walk {fuel : Nat} {seen : List κ} {cursor : Option κ}
    (hseen : ∀ x ∈ seen, ∃ n, 0 < n ∧ up parent n x = cursor)
    (h : walk parent fuel seen cursor = some true) : ∀ x ∈ seen, ¬ Ends parent x := by
  induction fuel generalizing seen cursor with
  | zero => cases cursor <;> simp [walk] at h
  | succ fuel ih =>
    cases cursor with
    | none => simp [walk] at h
    | some c =>
      unfold walk at h
      split at h
      next hc =>
        intro x hx
        obtain ⟨n, -, hn⟩ := hseen x hx
        rw [ends_iff_up hn]
        exact not_ends_of_onCycle (hseen c hc)
      next =>
        intro x hx
        refine ih (fun y hy => ?_) h x (List.mem_cons_of_mem c hx)
        rcases List.mem_cons.1 hy with rfl | hy
        · exact ⟨1, by omega, up_one⟩
        · obtain ⟨n, -, hn⟩ := hseen y hy
          exact ⟨n + 1, by omega, by rw [up_succ, hn]; rfl⟩

/-- Every step of a walk sees a new node. -/
theorem isSome_walk {nodes seen : List κ} {fuel : Nat} {cursor : Option κ}
    (hnodes : ∀ a, a ∉ nodes → parent a = none) (hnodup : seen.Nodup)
    (hsub : ∀ x ∈ seen, x ∈ nodes) (hfuel : nodes.length < seen.length + fuel) :
    (walk parent fuel seen cursor).isSome = true := by
  induction fuel generalizing seen cursor with
  | zero =>
    have hle := (List.subperm_of_subset hnodup hsub).length_le
    omega
  | succ fuel ih =>
    cases cursor with
    | none => rfl
    | some c =>
      unfold walk
      split
      next => rfl
      next hc =>
        by_cases hmem : c ∈ nodes
        · refine ih (List.nodup_cons.2 ⟨hc, hnodup⟩) (fun x hx => ?_) ?_
          · rcases List.mem_cons.1 hx with rfl | hx
            · exact hmem
            · exact hsub x hx
          · rw [List.length_cons]
            omega
        · rw [hnodes c hmem]
          cases fuel <;> rfl

/-- The links above a node come back to one that was seen. -/
def leadsIntoCycle (parent : κ → Option κ) (fuel : Nat) (a : κ) : Option Bool :=
  walk parent fuel [a] (parent a)

theorem leadsIntoCycle_iff {nodes : List κ} {fuel : Nat}
    (hnodes : ∀ a, a ∉ nodes → parent a = none) (ha : a ∈ nodes) (hfuel : nodes.length ≤ fuel) :
    (leadsIntoCycle parent fuel a = some true ↔ ¬ Ends parent a) ∧
      (leadsIntoCycle parent fuel a).isSome = true := by
  have hsome : (leadsIntoCycle parent fuel a).isSome = true := by
    refine isSome_walk hnodes (by simp) (by simpa using ha) ?_
    rw [List.length_singleton]
    omega
  refine ⟨⟨fun h => ?_, fun h => ?_⟩, hsome⟩
  · refine not_ends_of_walk (fun x hx => ?_) h a List.mem_cons_self
    obtain rfl := List.mem_singleton.1 hx
    exact ⟨1, by omega, up_one⟩
  · cases hwalk : leadsIntoCycle parent fuel a with
    | none => simp [hwalk] at hsome
    | some found =>
      cases found with
      | true => rfl
      | false =>
        refine absurd ?_ h
        cases hparent : parent a with
        | none => exact ends_of_none hparent
        | some b => exact (ends_iff_parent hparent).2 (ends_of_walk hwalk b hparent)

end Walk

end Forest
