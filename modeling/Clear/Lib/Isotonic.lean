import Mathlib.Algebra.BigOperators.Ring.List
import Mathlib.Algebra.Order.BigOperators.Group.List
import Mathlib.Algebra.Order.Field.Basic
import Mathlib.Data.List.Infix
import Mathlib.Tactic.FieldSimp
import Mathlib.Tactic.Linarith
import Mathlib.Tactic.LinearCombination
import Mathlib.Tactic.Positivity
import Mathlib.Tactic.Ring

/-!
# Pools of a sequence

A sequence is cut into parts. A part is tight when every beginning of it has a larger mean than the
rest, a partition is pooled when its parts are tight and their means do not decrease. `excess μ` sums
the values above a level `μ`.

* `Pooled.lowest`: where a pooled partition is cut, the excess over the beginnings of the sequence is
least, for any level between the means of the parts beside the cut.
* `exists_cut`: it is least nowhere else.
* `Tight.least`: within a tight part the mean is the least squares fit of the values among those that
do not decrease.
-/

namespace Clear

namespace Isotonic

variable {α K : Type}

/-! ## Means -/

section

variable [Field K] (y : α → K)

def excess (μ : K) (l : List α) : K := (l.map fun a => y a - μ).sum

def mean (l : List α) : K := (l.map y).sum / l.length

variable {y} {μ : K} {u v : List α}

@[simp] theorem excess_nil (μ : K) : excess y μ ([] : List α) = 0 := rfl

@[simp] theorem excess_cons (μ : K) (a : α) (l : List α) :
    excess y μ (a :: l) = y a - μ + excess y μ l := rfl

theorem excess_append (μ : K) (u v : List α) :
    excess y μ (u ++ v) = excess y μ u + excess y μ v := by
  unfold excess
  rw [List.map_append, List.sum_append]

theorem excess_perm (h : u.Perm v) : excess y μ u = excess y μ v := (h.map _).sum_eq

theorem excess_eq (μ : K) (l : List α) : excess y μ l = (l.map y).sum - μ * l.length := by
  induction l with
  | nil => simp
  | cons a l ih =>
    rw [excess_cons, ih, List.map_cons, List.sum_cons, List.length_cons]
    push_cast
    ring

theorem mean_perm (h : u.Perm v) : mean y u = mean y v := by
  unfold mean
  rw [(h.map y).sum_eq, h.length_eq]

end

section

variable [Field K] [LinearOrder K] [IsStrictOrderedRing K] {y : α → K} {μ ν : K}
  {l u v p q : List α}

theorem length_pos (h : l ≠ []) : (0 : K) < l.length :=
  Nat.cast_pos.2 (List.length_pos_iff.2 h)

theorem excess_eq_mul (h : l ≠ []) : excess y μ l = (mean y l - μ) * l.length := by
  have := (length_pos (K := K) h).ne'
  unfold mean
  rw [excess_eq]
  field_simp

theorem excess_mean (h : l ≠ []) : excess y (mean y l) l = 0 := by
  rw [excess_eq_mul h, sub_self, zero_mul]

theorem le_mean_iff (h : l ≠ []) : μ ≤ mean y l ↔ 0 ≤ excess y μ l := by
  rw [excess_eq_mul h, mul_nonneg_iff_of_pos_right (length_pos h), sub_nonneg]

theorem lt_mean_iff (h : l ≠ []) : μ < mean y l ↔ 0 < excess y μ l := by
  rw [excess_eq_mul h, mul_pos_iff_of_pos_right (length_pos h), sub_pos]

theorem mean_le_iff (h : l ≠ []) : mean y l ≤ μ ↔ excess y μ l ≤ 0 := by
  rw [← not_lt, lt_mean_iff h, not_lt]

theorem mean_lt_iff (h : l ≠ []) : mean y l < μ ↔ excess y μ l < 0 := by
  rw [← not_le, le_mean_iff h, not_le]

theorem excess_anti (h : μ ≤ ν) (l : List α) : excess y ν l ≤ excess y μ l := by
  rw [excess_eq, excess_eq]
  have := mul_le_mul_of_nonneg_right h (Nat.cast_nonneg (α := K) l.length)
  linarith

theorem excess_nonneg (h : ∀ a ∈ l, μ ≤ y a) : 0 ≤ excess y μ l := by
  induction l with
  | nil => exact le_rfl
  | cons a l ih =>
    have := h a List.mem_cons_self
    have := ih fun b hb => h b (List.mem_cons_of_mem _ hb)
    rw [excess_cons]
    linarith

theorem excess_nonpos (h : ∀ a ∈ l, y a ≤ μ) : excess y μ l ≤ 0 := by
  induction l with
  | nil => exact le_rfl
  | cons a l ih =>
    have := h a List.mem_cons_self
    have := ih fun b hb => h b (List.mem_cons_of_mem _ hb)
    rw [excess_cons]
    linarith

/-! ## Tight parts -/

variable (y) in
/-- A part whose beginnings have larger means than the rest. -/
def Tight (p : List α) : Prop :=
  p ≠ [] ∧ ∀ u v, p = u ++ v → u ≠ [] → v ≠ [] → mean y v < mean y u

omit [IsStrictOrderedRing K] in
theorem tight_singleton (a : α) : Tight y [a] := by
  refine ⟨List.cons_ne_nil _ _, fun u v h hu hv => ?_⟩
  have hlength := congrArg List.length h
  have := List.length_pos_iff.2 hu
  have := List.length_pos_iff.2 hv
  rw [List.length_append, List.length_singleton] at hlength
  omega

theorem Tight.split (h : Tight y (u ++ v)) (hu : u ≠ []) (hv : v ≠ []) :
    mean y (u ++ v) < mean y u ∧ mean y v < mean y (u ++ v) := by
  have hlt := h.2 u v rfl hu hv
  have hsum : excess y (mean y (u ++ v)) u + excess y (mean y (u ++ v)) v = 0 := by
    rw [← excess_append, excess_mean h.1]
  rw [lt_mean_iff hu, mean_lt_iff hv]
  generalize mean y (u ++ v) = m at hsum
  rcases lt_trichotomy (excess y m u) 0 with hneg | hzero | hpos
  · have h₁ := (mean_lt_iff hu).2 hneg
    have h₂ := (lt_mean_iff hv).2 (show 0 < excess y m v by linarith)
    exact absurd (hlt.trans h₁) (not_lt.2 h₂.le)
  · have h₁ := (mean_le_iff hu).2 hzero.le
    have h₂ := (le_mean_iff hv).2 (show 0 ≤ excess y m v by linarith)
    exact absurd (hlt.trans_le h₁) (not_lt.2 h₂)
  · exact ⟨hpos, by linarith⟩

theorem Tight.excess_left (h : Tight y (u ++ v)) (hμ : μ ≤ mean y (u ++ v)) :
    0 ≤ excess y μ u := by
  by_cases hu : u = []
  · rw [hu, excess_nil]
  by_cases hv : v = []
  · rw [hv, List.append_nil] at hμ
    exact (le_mean_iff hu).1 hμ
  · exact (le_mean_iff hu).1 (hμ.trans (h.split hu hv).1.le)

theorem Tight.excess_right (h : Tight y (u ++ v)) (hμ : mean y (u ++ v) ≤ μ) :
    excess y μ v ≤ 0 := by
  by_cases hv : v = []
  · rw [hv, excess_nil]
  by_cases hu : u = []
  · rw [hu, List.nil_append] at hμ
    exact (mean_le_iff hv).1 hμ
  · exact (mean_le_iff hv).1 ((h.split hu hv).2.le.trans hμ)

/-- A violating pair is pooled. -/
theorem Tight.append (hp : Tight y p) (hq : Tight y q) (h : mean y q < mean y p) :
    Tight y (p ++ q) := by
  have hne : p ++ q ≠ [] := List.append_ne_nil_of_left_ne_nil hp.1 q
  have hsum : excess y (mean y (p ++ q)) (p ++ q) = 0 := excess_mean hne
  generalize mean y (p ++ q) = m at hsum
  -- the level of both lies between their means
  have hmeans : m < mean y p ∧ mean y q < m := by
    rw [excess_append] at hsum
    rw [lt_mean_iff hp.1, mean_lt_iff hq.1]
    by_contra hnot
    have hneg : excess y m p ≤ 0 := by
      by_contra hpos
      exact hnot ⟨not_le.1 hpos, by linarith⟩
    have h₁ := (mean_le_iff hp.1).2 hneg
    have h₂ := (le_mean_iff hq.1).2 (show 0 ≤ excess y m q by linarith)
    exact absurd (h.trans_le h₁) (not_lt.2 h₂)
  refine ⟨hne, fun u v huv hu hv => ?_⟩
  rw [huv, excess_append] at hsum
  have hpos : 0 < excess y m u := by
    rcases List.append_eq_append_iff.1 huv with ⟨w, rfl, rfl⟩ | ⟨w, rfl, rfl⟩
    · by_cases hw : w = []
      · rw [hw, List.append_nil]
        exact (lt_mean_iff hp.1).1 hmeans.1
      · have := (mean_lt_iff hv).1 ((hq.split hw hv).2.trans hmeans.2)
        linarith
    · by_cases hw : w = []
      · rw [hw, List.append_nil] at hmeans
        exact (lt_mean_iff hu).1 hmeans.1
      · exact (lt_mean_iff hu).1 (hmeans.1.trans (hp.split hu hw).1)
  exact ((mean_lt_iff hv).2 (show excess y m v < 0 by linarith)).trans ((lt_mean_iff hu).2 hpos)

/-! ## Pooled partitions -/

variable (y) in
structure Pooled (parts : List (List α)) : Prop where
  tight : ∀ p ∈ parts, Tight y p
  means : parts.Pairwise fun p q => mean y p ≤ mean y q

variable (y) in
/-- The excess over the beginnings of a sequence is least at this one. -/
def Lowest (μ : K) (l u : List α) : Prop :=
  u <+: l ∧ ∀ w, w <+: l → excess y μ u ≤ excess y μ w

variable {parts A B : List (List α)}

omit [IsStrictOrderedRing K] in
theorem Pooled.left (h : Pooled y (A ++ B)) : Pooled y A :=
  ⟨fun p hp => h.tight p (List.mem_append_left _ hp), (List.pairwise_append.1 h.means).1⟩

omit [IsStrictOrderedRing K] in
theorem Pooled.right (h : Pooled y (A ++ B)) : Pooled y B :=
  ⟨fun p hp => h.tight p (List.mem_append_right _ hp), (List.pairwise_append.1 h.means).2.1⟩

theorem Pooled.excess_take (h : Pooled y parts) (hμ : ∀ p ∈ parts, μ ≤ mean y p)
    (hl : parts.flatten = u ++ v) : 0 ≤ excess y μ u := by
  induction parts generalizing u with
  | nil =>
    rw [List.flatten_nil, List.nil_eq, List.append_eq_nil_iff] at hl
    rw [hl.1, excess_nil]
  | cons p parts ih =>
    have hp := h.tight p List.mem_cons_self
    have hmean := hμ p List.mem_cons_self
    rw [List.flatten_cons] at hl
    rcases List.append_eq_append_iff.1 hl with ⟨w, rfl, hw⟩ | ⟨w, rfl, -⟩
    · have hrest := ih (Pooled.right (A := [p]) h)
        (fun q hq => hμ q (List.mem_cons_of_mem _ hq)) hw
      have := (le_mean_iff hp.1).1 hmean
      rw [excess_append]
      linarith
    · exact hp.excess_left hmean

theorem Pooled.excess_drop (h : Pooled y parts) (hμ : ∀ p ∈ parts, mean y p ≤ μ)
    (hl : parts.flatten = u ++ v) : excess y μ v ≤ 0 := by
  induction parts generalizing u v with
  | nil =>
    rw [List.flatten_nil, List.nil_eq, List.append_eq_nil_iff] at hl
    rw [hl.2, excess_nil]
  | cons p parts ih =>
    have hp := h.tight p List.mem_cons_self
    have hmean := hμ p List.mem_cons_self
    rw [List.flatten_cons] at hl
    rcases List.append_eq_append_iff.1 hl with ⟨w, -, hw⟩ | ⟨w, rfl, rfl⟩
    · exact ih (Pooled.right (A := [p]) h) (fun q hq => hμ q (List.mem_cons_of_mem _ hq)) hw
    · have hrest := ih (u := []) (v := parts.flatten) (Pooled.right (A := [u ++ w]) h)
        (fun q hq => hμ q (List.mem_cons_of_mem _ hq)) rfl
      have := hp.excess_right hmean
      rw [excess_append]
      linarith

/-- Where a pooled partition is cut, the excess is least. -/
theorem Pooled.lowest (h : Pooled y (A ++ B)) (hA : ∀ p ∈ A, mean y p ≤ μ)
    (hB : ∀ p ∈ B, μ ≤ mean y p) : Lowest y μ (A ++ B).flatten A.flatten := by
  rw [List.flatten_append]
  refine ⟨List.prefix_append _ _, fun w hw => ?_⟩
  obtain ⟨v, hv⟩ := hw
  rcases List.append_eq_append_iff.1 hv with ⟨s, hs, -⟩ | ⟨s, rfl, hs⟩
  · have := h.left.excess_drop hA hs
    rw [hs, excess_append]
    linarith
  · have := h.right.excess_take hB hs
    rw [excess_append]
    linarith

/-- The excess is least nowhere but where the partition is cut. -/
theorem exists_cut (h : ∀ p ∈ parts, Tight y p) (hu : Lowest y μ parts.flatten u) :
    ∃ A B, parts = A ++ B ∧ A.flatten = u := by
  obtain ⟨⟨v, hl⟩, hlow⟩ := hu
  -- the parts before the beginning ends, and the one it ends in
  have hsplit : (∃ A B, parts = A ++ B ∧ A.flatten = u) ∨ ∃ A p q B, parts = A ++ (p ++ q) :: B ∧
      p ≠ [] ∧ q ≠ [] ∧ u = A.flatten ++ p := by
    clear h hlow
    induction parts generalizing u with
    | nil =>
      rw [List.flatten_nil, List.append_eq_nil_iff] at hl
      exact .inl ⟨[], [], rfl, hl.1.symm⟩
    | cons part parts ih =>
      rw [List.flatten_cons] at hl
      rcases List.append_eq_append_iff.1 hl with ⟨q, rfl, hq⟩ | ⟨w, rfl, hw⟩
      · by_cases hu : u = []
        · exact .inl ⟨[], _, rfl, hu.symm⟩
        by_cases hq : q = []
        · exact .inl ⟨[u ++ q], parts, rfl, by simp [hq]⟩
        · exact .inr ⟨[], u, q, parts, rfl, hu, hq, rfl⟩
      · rcases ih hw.symm with ⟨A, B, rfl, rfl⟩ | ⟨A, p, q, B, rfl, hp, hq, rfl⟩
        · exact .inl ⟨part :: A, B, rfl, rfl⟩
        · exact .inr ⟨part :: A, p, q, B, rfl, hp, hq, (List.append_assoc _ _ _).symm⟩
  rcases hsplit with hcut | ⟨A, p, q, B, rfl, hp, hq, rfl⟩
  · exact hcut
  · have htight := h (p ++ q) (by simp)
    have hbefore := hlow A.flatten (by simp)
    have hafter := hlow (A.flatten ++ (p ++ q)) (by simp)
    rw [excess_append] at hbefore hafter
    rw [excess_append, excess_append] at hafter
    have h₁ := (mean_le_iff hp).2 (show excess y μ p ≤ 0 by linarith)
    have h₂ := (le_mean_iff hq).2 (show 0 ≤ excess y μ q by linarith)
    exact absurd (htight.2 p q rfl hp hq) (not_lt.2 (h₁.trans h₂))

/-! ## Least squares -/

/-- Values that do not decrease, weighted by terms whose partial sums are not negative. -/
theorem sum_mul_le {e z : α → K} {Z : K} (hz : l.Pairwise fun a b => z a ≤ z b)
    (he : ∀ u v, l = u ++ v → 0 ≤ (u.map e).sum) (hZ : ∀ a ∈ l, z a ≤ Z) :
    (l.map fun a => e a * z a).sum ≤ Z * (l.map e).sum := by
  induction l using List.reverseRecOn generalizing Z with
  | nil => simp
  | append_singleton l a ih =>
    obtain ⟨hz, -, hlast⟩ := List.pairwise_append.1 hz
    have hbound : ∀ b ∈ l, z b ≤ z a := fun b hb => hlast b hb a (List.mem_singleton_self a)
    have hle := ih hz (fun u v huv => he u (v ++ [a]) (by rw [huv, List.append_assoc])) hbound
    have htotal := he (l ++ [a]) [] (List.append_nil _).symm
    have ha := hZ a (List.mem_append_right _ (List.mem_singleton_self a))
    have hscale := mul_le_mul_of_nonneg_right ha htotal
    simp only [List.map_append, List.sum_append, List.map_cons, List.map_nil, List.sum_cons,
      List.sum_nil, add_zero] at hscale ⊢
    linarith

theorem Tight.least {z : α → K} (h : Tight y p) (hz : p.Pairwise fun a b => z a ≤ z b) :
    (p.map fun a => (y a - mean y p) ^ 2).sum ≤ (p.map fun a => (y a - z a) ^ 2).sum := by
  have hzero : excess y (mean y p) p = 0 := excess_mean h.1
  have hpartial : ∀ u v, p = u ++ v → 0 ≤ (u.map fun a => y a - mean y p).sum := by
    intro u v huv
    subst huv
    exact h.excess_left le_rfl
  obtain ⟨Z, hZ⟩ : ∃ Z, ∀ a ∈ p, z a ≤ Z := by
    rcases List.eq_nil_or_concat p with hp | ⟨q, last, hp⟩
    · exact absurd hp h.1
    · rw [List.concat_eq_append] at hp
      rw [hp] at hz ⊢
      refine ⟨z last, fun a ha => ?_⟩
      rcases List.mem_append.1 ha with ha | ha
      · exact (List.pairwise_append.1 hz).2.2 a ha last (List.mem_singleton_self last)
      · rw [List.mem_singleton.1 ha]
  have hweighted := sum_mul_le hz hpartial hZ
  unfold excess at hzero
  rw [hzero, mul_zero] at hweighted
  generalize mean y p = m at *
  have hpoint : ∀ a ∈ p, (y a - m) ^ 2 + (2 * m * (y a - m) + -2 * ((y a - m) * z a)) ≤
      (y a - z a) ^ 2 := by
    intro a _
    have := sq_nonneg (m - z a)
    linarith
  have hsum := List.sum_le_sum hpoint
  rw [List.sum_map_add, List.sum_map_add, List.sum_map_mul_left, List.sum_map_mul_left, hzero]
    at hsum
  linarith

end

end Isotonic

end Clear
