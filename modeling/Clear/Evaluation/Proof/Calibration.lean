import Clear.Evaluation.Calibration

/-!
# When a calibrator is the isotonic regression

A fit cuts the ordered samples where the excess over a level is least. Samples with one confidence are
in the order in which they came, so the excess over the incorrect ones among them says whether they
can be cut apart.

* `TiesPooled.calibrates`: no order of the samples is cut at a confidence of correct and incorrect
samples, so the blocks are those of the samples as a whole.
* `Calibrates.tiesPooled`: a fit with the right total has the same mean at all samples of a
confidence; were the excess least before the correct ones, the order with the correct ones first would
have other thresholds.
-/

namespace Clear

namespace Calibration

open Isotonic

/-! ## Ties -/

section

variable {l u v w : List Sample} {c d t μ : Rat}

theorem split_at {α : Type} {key : α → Rat} {l : List α}
    (h : l.Pairwise fun a b => key a ≤ key b) (c : Rat) :
    l = l.filter (key · < c) ++ (l.filter (key · = c) ++ l.filter (c < key ·)) := by
  induction l with
  | nil => rfl
  | cons s l ih =>
    obtain ⟨hfirst, hrest⟩ := List.pairwise_cons.1 h
    have hrest := ih hrest
    rcases lt_trichotomy (key s) c with hlt | heq | hgt
    · rw [List.filter_cons_of_pos (by simpa using hlt),
        List.filter_cons_of_neg (by simpa using hlt.ne),
        List.filter_cons_of_neg (by simpa using hlt.le), List.cons_append, ← hrest]
    · have hnone : l.filter (key · < c) = [] :=
        List.filter_eq_nil_iff.2 fun a ha => by simpa [← heq] using hfirst a ha
      rw [hnone, List.nil_append] at hrest
      rw [List.filter_cons_of_neg (by simp [heq]), List.filter_cons_of_pos (by simp [heq]),
        List.filter_cons_of_neg (by simp [heq]), hnone, List.nil_append, List.cons_append, ← hrest]
    · have hnone : l.filter (key · < c) = [] :=
        List.filter_eq_nil_iff.2 fun a ha => by simpa using hgt.le.trans (hfirst a ha)
      have hnone' : l.filter (key · = c) = [] :=
        List.filter_eq_nil_iff.2 fun a ha => by simpa using (hgt.trans_le (hfirst a ha)).ne'
      rw [hnone, hnone', List.nil_append, List.nil_append] at hrest
      rw [List.filter_cons_of_neg (by simpa using hgt.le),
        List.filter_cons_of_neg (by simpa using hgt.ne'),
        List.filter_cons_of_pos (by simpa using hgt), hnone, hnone', List.nil_append,
        List.nil_append, ← hrest]

theorem Ascending.split (h : Ascending l) (c : Rat) :
    l = l.filter (·.1 < c) ++ (l.filter (·.1 = c) ++ l.filter (c < ·.1)) := split_at h c

theorem filter_isPrefix {R : Sample → Sample → Prop} {f : Sample → Bool} (h : l.Pairwise R)
    (hf : ∀ a b : Sample, R a b → f b = true → f a = true) : l.filter f <+: l := by
  induction l with
  | nil => exact List.nil_prefix
  | cons s l ih =>
    obtain ⟨hfirst, hrest⟩ := List.pairwise_cons.1 h
    by_cases hs : f s = true
    · rw [List.filter_cons_of_pos hs]
      exact List.prefix_cons_inj s |>.2 (ih hrest)
    · have hnone : l.filter f = [] :=
        List.filter_eq_nil_iff.2 fun a ha hfa => hs (hf s a (hfirst a ha) hfa)
      rw [List.filter_cons_of_neg hs, hnone]
      exact List.nil_prefix

theorem below_isPrefix (h : Ascending l) (c : Rat) : l.filter (·.1 < c) <+: l :=
  filter_isPrefix h fun a b hab hb => by
    simpa using hab.trans_lt (by simpa using hb)

theorem through_isPrefix (h : Ascending l) (c : Rat) : l.filter (·.1 ≤ c) <+: l :=
  filter_isPrefix h fun a b hab hb => by
    simpa using hab.trans (by simpa using hb)

/-- The samples below `c` and the incorrect ones at `c`. -/
def low (c : Rat) (s : Sample) : Bool := s.1 < c || s.1 = c && !s.2

theorem excess_filter_add {f g k : Sample → Bool} (hk : ∀ s, k s = (f s || g s))
    (hfg : ∀ s, f s = true → g s = false) (μ : Rat) (l : List Sample) :
    excess label μ (l.filter f) + excess label μ (l.filter g) = excess label μ (l.filter k) := by
  induction l with
  | nil => simp
  | cons s l ih =>
    cases hf : f s with
    | true =>
      rw [List.filter_cons_of_pos hf, List.filter_cons_of_neg (by simp [hfg s hf]),
        List.filter_cons_of_pos (by simp [hk, hf]), excess_cons, excess_cons, ← ih]
      ring
    | false =>
      cases hg : g s with
      | true =>
        rw [List.filter_cons_of_neg (by simp [hf]), List.filter_cons_of_pos hg,
          List.filter_cons_of_pos (by simp [hk, hg]), excess_cons, excess_cons, ← ih]
        ring
      | false =>
        rw [List.filter_cons_of_neg (by simp [hf]), List.filter_cons_of_neg (by simp [hg]),
          List.filter_cons_of_neg (by simp [hk, hf, hg]), ih]

theorem excess_filter_low_le (h₁ : μ ≤ 1) (hu : ∀ s ∈ u, s.1 ≤ c) :
    excess label μ (u.filter (low c)) ≤ excess label μ u := by
  induction u with
  | nil => exact le_rfl
  | cons s u ih =>
    have hrest := ih fun a ha => hu a (List.mem_cons_of_mem _ ha)
    cases hs : low c s with
    | true =>
      rw [List.filter_cons_of_pos hs, excess_cons, excess_cons]
      linarith
    | false =>
      have hcorrect : label s = 1 := by
        have hle := hu s List.mem_cons_self
        unfold low at hs
        unfold label
        rw [if_pos]
        grind
      rw [List.filter_cons_of_neg (by simp [hs]), excess_cons, hcorrect]
      linarith

theorem excess_low_le (h₀ : 0 ≤ μ) (h₁ : μ ≤ 1) (hu : ∀ s ∈ u, s.1 ≤ c) (hv : ∀ s ∈ v, c ≤ s.1) :
    excess label μ ((u ++ v).filter (low c)) ≤ excess label μ u := by
  rw [List.filter_append, excess_append]
  have hleft := excess_filter_low_le h₁ hu
  have hright : excess label μ (v.filter (low c)) ≤ 0 := by
    apply excess_nonpos
    intro s hs
    obtain ⟨hs, hlow⟩ := List.mem_filter.1 hs
    have hge := hv s hs
    have hwrong : label s = 0 := by
      unfold low at hlow
      unfold label
      rw [if_neg]
      grind
    rw [hwrong]
    exact h₀
  linarith

theorem excess_upTo {lo : Rat} (hlo : lo ≤ c) (μ : Rat) (l : List Sample) :
    excess label μ (l.filter (·.1 < lo)) + excess label μ (upTo lo c l) =
      excess label μ (l.filter (low c)) := by
  refine excess_filter_add (fun s => ?_) (fun s hs => ?_) μ l
  · unfold low
    grind
  · grind

theorem excess_fromOn {hi : Rat} (hhi : c ≤ hi) (μ : Rat) (l : List Sample) :
    excess label μ (l.filter (low c)) + excess label μ (fromOn c hi l) =
      excess label μ (l.filter (·.1 ≤ hi)) := by
  refine excess_filter_add (fun s => ?_) (fun s hs => ?_) μ l
  · unfold low
    grind
  · unfold low at hs
    grind

theorem upTo_ne_nil {lo : Rat} (hlo : lo ≤ c) (hwrong : (c, false) ∈ l) : upTo lo c l ≠ [] :=
  List.ne_nil_of_mem (List.mem_filter.2 ⟨hwrong, by simpa using hlo⟩)

theorem fromOn_ne_nil {hi : Rat} (hhi : c ≤ hi) (hcorrect : (c, true) ∈ l) :
    fromOn c hi l ≠ [] :=
  List.ne_nil_of_mem (List.mem_filter.2 ⟨hcorrect, by simpa using hhi⟩)

theorem TiesPooled.lt_low (h : TiesPooled l) (hcorrect : (c, true) ∈ l) (hwrong : (c, false) ∈ l)
    (hbelow : ∀ d, t ≤ excess label μ (l.filter (·.1 < d)))
    (hthrough : ∀ d, t ≤ excess label μ (l.filter (·.1 ≤ d))) :
    t < excess label μ (l.filter (low c)) := by
  obtain ⟨lo, hlo, hi, hhi, hrate⟩ := h c hcorrect hwrong
  have hleft := excess_upTo hlo μ l
  have hright := excess_fromOn hhi μ l
  by_contra hnot
  have h₁ := hbelow lo
  have h₂ := hthrough hi
  have hX : rate (upTo lo c l) ≤ μ := (mean_le_iff (upTo_ne_nil hlo hwrong)).2 (by linarith)
  have hY : μ ≤ rate (fromOn c hi l) := (le_mean_iff (fromOn_ne_nil hhi hcorrect)).2 (by linarith)
  exact absurd hrate (not_lt.2 (hX.trans hY))

/-- The excess over all beginnings is bounded by that over the samples below, and up to, a
confidence. -/
theorem TiesPooled.le_excess (h : TiesPooled l) (hasc : Ascending l) (h₀ : 0 ≤ μ) (h₁ : μ ≤ 1)
    (hbelow : ∀ d, t ≤ excess label μ (l.filter (·.1 < d)))
    (hthrough : ∀ d, t ≤ excess label μ (l.filter (·.1 ≤ d))) (hw : w <+: l) :
    t ≤ excess label μ w := by
  have hlow : ∀ c, t ≤ excess label μ (l.filter (low c)) := by
    intro c
    by_cases hwrong : (c, false) ∈ l
    · by_cases hcorrect : (c, true) ∈ l
      · exact (h.lt_low hcorrect hwrong hbelow hthrough).le
      · have hsame : l.filter (low c) = l.filter (·.1 ≤ c) := by
          apply List.filter_congr
          intro s hs
          unfold low
          grind
        rw [hsame]
        exact hthrough c
    · have hsame : l.filter (low c) = l.filter (·.1 < c) := by
        apply List.filter_congr
        intro s hs
        unfold low
        grind
      rw [hsame]
      exact hbelow c
  obtain ⟨v, rfl⟩ := hw
  rcases List.eq_nil_or_concat w with rfl | ⟨q, last, rfl⟩
  · have hstart := excess_low_le (u := []) (v := v) (c := start v) h₀ h₁
      (fun _ hs => (List.not_mem_nil hs).elim) (fun s hs => start_le hasc hs)
    exact (hlow (start v)).trans hstart
  · rw [List.concat_eq_append] at *
    obtain ⟨hq, -, hqv⟩ := List.pairwise_append.1 hasc
    refine (hlow last.1).trans (excess_low_le h₀ h₁ (fun s hs => ?_) fun s hs => ?_)
    · rcases List.mem_append.1 hs with hs | hs
      · exact (List.pairwise_append.1 hq).2.2 s hs last (List.mem_singleton_self last)
      · rw [List.mem_singleton.1 hs]
    · exact hqv last (by simp) s hs

theorem lowest_bounds (hu : Lowest label μ l u) (hasc : Ascending l) :
    (∀ d, excess label μ u ≤ excess label μ (l.filter (·.1 < d))) ∧
      ∀ d, excess label μ u ≤ excess label μ (l.filter (·.1 ≤ d)) :=
  ⟨fun d => hu.2 _ (below_isPrefix hasc d), fun d => hu.2 _ (through_isPrefix hasc d)⟩

/-- No cut lies at a tie of correct and incorrect samples. -/
theorem TiesPooled.untied (h : TiesPooled (u ++ v)) (hasc : Ascending (u ++ v)) (h₀ : 0 ≤ μ)
    (h₁ : μ ≤ 1) (hlowest : Lowest label μ (u ++ v) u) (hu : ∀ s ∈ u, s.1 ≤ c)
    (hv : ∀ s ∈ v, c ≤ s.1) (hcorrect : (c, true) ∈ u ++ v) (hwrong : (c, false) ∈ u ++ v) :
    False := by
  obtain ⟨hbelow, hthrough⟩ := lowest_bounds hlowest hasc
  have := h.lt_low hcorrect hwrong hbelow hthrough
  exact absurd (excess_low_le h₀ h₁ hu hv) (not_le.2 this)

/-- At a cut there are not both correct and incorrect samples: those with its confidence are equal. -/
theorem TiesPooled.same (h : TiesPooled (u ++ v)) (hasc : Ascending (u ++ v)) (h₀ : 0 ≤ μ)
    (h₁ : μ ≤ 1) (hlowest : Lowest label μ (u ++ v) u) (hu : ∀ s ∈ u, s.1 ≤ c)
    (hv : ∀ s ∈ v, c ≤ s.1) {s s' : Sample} (hs : s ∈ u ++ v) (hs' : s' ∈ u ++ v) (hc : s.1 = c)
    (hc' : s'.1 = c) : s = s' := by
  obtain ⟨x, b⟩ := s
  obtain ⟨x', b'⟩ := s'
  obtain rfl : x = c := hc
  obtain rfl : x' = x := hc'
  cases b with
  | true =>
    cases b' with
    | true => rfl
    | false => exact (h.untied hasc h₀ h₁ hlowest hu hv hs hs').elim
  | false =>
    cases b' with
    | true => exact (h.untied hasc h₀ h₁ hlowest hu hv hs' hs).elim
    | false => rfl

/-- Another order of the samples has the excess least at a beginning with the same samples. -/
theorem TiesPooled.transfer {l' : List Sample} (h : TiesPooled l) (h' : TiesPooled l')
    (hperm : l.Perm l') (hasc : Ascending l) (hasc' : Ascending l') (h₀ : 0 ≤ μ) (h₁ : μ ≤ 1)
    (hu : Lowest label μ l u) : ∃ u', u.Perm u' ∧ Lowest label μ l' u' := by
  obtain ⟨hbelow, hthrough⟩ := lowest_bounds hu hasc
  have hleast : ∀ w, w <+: l' → excess label μ u ≤ excess label μ w := fun w hw =>
    h'.le_excess hasc' h₀ h₁ (fun d => by rw [← excess_perm (hperm.filter _)]; exact hbelow d)
      (fun d => by rw [← excess_perm (hperm.filter _)]; exact hthrough d) hw
  suffices hexists : ∃ u', u.Perm u' ∧ u' <+: l' by
    obtain ⟨u', hperm', hstart⟩ := hexists
    refine ⟨u', hperm', hstart, fun w hw => ?_⟩
    rw [← excess_perm hperm']
    exact hleast w hw
  obtain ⟨v, rfl⟩ := hu.1
  rcases List.eq_nil_or_concat u with rfl | ⟨q, last, hlast⟩
  · exact ⟨[], .nil, List.nil_prefix⟩
  rw [List.concat_eq_append] at hlast
  obtain ⟨hascu, -, hcross⟩ := List.pairwise_append.1 hasc
  have hlastu : last ∈ u := hlast ▸ List.mem_append_right _ (List.mem_singleton_self last)
  have hleu : ∀ s ∈ u, s.1 ≤ last.1 := by
    intro s hs
    rw [hlast] at hs hascu
    rcases List.mem_append.1 hs with hs | hs
    · exact (List.pairwise_append.1 hascu).2.2 s hs last (List.mem_singleton_self last)
    · rw [List.mem_singleton.1 hs]
  have hgev : ∀ s ∈ v, last.1 ≤ s.1 := fun s hs => hcross last hlastu s hs
  -- the samples at the last confidence are equal
  have hequal : ∀ s ∈ u ++ v, s.1 = last.1 → s = last := fun s hs hc =>
    h.same hasc h₀ h₁ hu hleu hgev hs (List.mem_append_left _ hlastu) hc rfl
  have htie : ∀ k : List Sample, (∀ s ∈ k, s ∈ u ++ v) →
      k.filter (·.1 = last.1) = List.replicate (k.filter (·.1 = last.1)).length last :=
    fun k hk => List.eq_replicate_of_mem fun s hs => by
      obtain ⟨hs, hc⟩ := List.mem_filter.1 hs
      exact hequal s (hk s hs) (of_decide_eq_true hc)
  refine ⟨l'.filter (·.1 < last.1) ++ u.filter (·.1 = last.1), ?_, ?_⟩
  · have habove : u.filter (last.1 < ·.1) = [] :=
      List.filter_eq_nil_iff.2 fun s hs => by simpa using hleu s hs
    have hbelowv : v.filter (·.1 < last.1) = [] :=
      List.filter_eq_nil_iff.2 fun s hs => by simpa using hgev s hs
    have hsplit := Ascending.split hascu last.1
    rw [habove, List.append_nil] at hsplit
    have hbelowu : (u.filter (·.1 < last.1)).Perm (l'.filter (·.1 < last.1)) := by
      have := hperm.filter (·.1 < last.1)
      rwa [List.filter_append, hbelowv, List.append_nil] at this
    have := hbelowu.append_right (u.filter (·.1 = last.1))
    rwa [← hsplit] at this
  · have htie' := htie l' fun s hs => hperm.mem_iff.2 hs
    have hcount : (u.filter (·.1 = last.1)).length ≤ (l'.filter (·.1 = last.1)).length := by
      rw [← (hperm.filter _).length_eq, List.filter_append, List.length_append]
      exact Nat.le_add_right _ _
    obtain ⟨n, hn⟩ := Nat.exists_eq_add_of_le hcount
    have hsplit := hasc'.split last.1
    rw [htie', hn, List.replicate_add, List.append_assoc] at hsplit
    rw [htie u fun s hs => List.mem_append_left _ hs]
    refine ⟨List.replicate n last ++ l'.filter (last.1 < ·.1), ?_⟩
    rw [List.append_assoc]
    exact hsplit.symm

end

/-! ## The blocks do not depend on the order -/

section

variable {p q : List Sample} {parts parts' A B : List (List Sample)}

theorem exists_level (h : Pooled label (A ++ B)) : ∃ μ : Rat, 0 ≤ μ ∧ μ ≤ 1 ∧
    (∀ p ∈ A, Isotonic.mean label p ≤ μ) ∧ ∀ p ∈ B, μ ≤ Isotonic.mean label p := by
  rcases List.eq_nil_or_concat A with rfl | ⟨A, p, rfl⟩
  · exact ⟨0, le_rfl, zero_le_one, fun _ hp => (List.not_mem_nil hp).elim,
      fun p hp => (mean_bounds (h.tight p hp).1).1⟩
  · rw [List.concat_eq_append] at *
    have hp := mean_bounds (h.tight p (by simp)).1
    obtain ⟨hA, -, hcross⟩ := List.pairwise_append.1 h.means
    refine ⟨Isotonic.mean label p, hp.1, hp.2, fun q hq => ?_, hcross p (by simp)⟩
    rcases List.mem_append.1 hq with hq | hq
    · exact (List.pairwise_append.1 hA).2.2 q hq p (List.mem_singleton_self p)
    · rw [List.mem_singleton.1 hq]

theorem start_perm (hperm : p.Perm q) (hp : Ascending p) (hq : Ascending q) :
    start p = start q := by
  by_cases hnil : p = []
  · subst hnil
    rw [hperm.nil_eq]
  · have hnil' : q ≠ [] := fun h => hnil (by rw [h] at hperm; exact hperm.eq_nil)
    obtain ⟨s, hs, hstart⟩ := exists_start hnil
    obtain ⟨s', hs', hstart'⟩ := exists_start hnil'
    apply le_antisymm
    · rw [← hstart']
      exact start_le hp (hperm.mem_iff.2 hs')
    · rw [← hstart]
      exact start_le hq (hperm.mem_iff.1 hs)

theorem Block.of_perm (hperm : p.Perm q) (hp : Ascending p) (hq : Ascending q) :
    Block.of p = Block.of q := by
  unfold Block.of
  rw [(hperm.map label).sum_eq, hperm.length_eq, start_perm hperm hp hq]

/-- Partitions with the same samples before each cut have the same blocks. -/
theorem blocks_eq (hne : ∀ p ∈ parts, p ≠ []) (hne' : ∀ p ∈ parts', p ≠ [])
    (hasc : Ascending parts.flatten) (hasc' : Ascending parts'.flatten)
    (hcuts : ∀ A B, parts = A ++ B → ∃ A' B', parts' = A' ++ B' ∧ A.flatten.Perm A'.flatten)
    (hcuts' : ∀ A B, parts' = A ++ B → ∃ A' B', parts = A' ++ B' ∧ A.flatten.Perm A'.flatten) :
    parts.map Block.of = parts'.map Block.of := by
  induction parts generalizing parts' with
  | nil =>
    obtain ⟨A, B, hnil, hperm⟩ := hcuts' parts' [] (List.append_nil _).symm
    rw [(List.append_eq_nil_iff.1 hnil.symm).1] at hperm
    cases parts' with
    | nil => rfl
    | cons p' parts' =>
      have hp' := hperm.eq_nil
      rw [List.flatten_cons, List.append_eq_nil_iff] at hp'
      exact absurd hp'.1 (hne' p' List.mem_cons_self)
  | cons p parts ih =>
    have hp := hne p List.mem_cons_self
    obtain ⟨A', B', hA', hperm⟩ := hcuts [p] parts rfl
    rw [List.flatten_singleton] at hperm
    cases A' with
    | nil => exact absurd hperm.eq_nil hp
    | cons p' A' =>
      obtain rfl : parts' = p' :: (A' ++ B') := hA'
      have hp' := hne' p' List.mem_cons_self
      -- the first parts have the same samples
      obtain ⟨A, B, hA, hperm'⟩ := hcuts' [p'] (A' ++ B') rfl
      rw [List.flatten_singleton] at hperm'
      have hfirst : p.Perm p' := by
        cases A with
        | nil => exact absurd hperm'.eq_nil hp'
        | cons o A =>
          obtain ⟨rfl, -⟩ := List.cons.inj hA
          have h₁ := hperm.length_eq
          have h₂ := hperm'.length_eq
          rw [List.flatten_cons, List.length_append] at h₁ h₂
          have hnil : A'.flatten = [] := List.length_eq_zero_iff.1 (by omega)
          rwa [List.flatten_cons, hnil, List.append_nil] at hperm
      rw [List.flatten_cons] at hasc hasc'
      obtain ⟨hascp, hascrest, -⟩ := List.pairwise_append.1 hasc
      obtain ⟨hascp', hascrest', -⟩ := List.pairwise_append.1 hasc'
      rw [List.map_cons, List.map_cons, Block.of_perm hfirst hascp hascp']
      congr 1
      have hrest : ∀ (o o' : List Sample) (C C' : List (List Sample)), o.Perm o' → o' ≠ [] →
          (∀ A B, o :: C = A ++ B → ∃ A' B', o' :: C' = A' ++ B' ∧ A.flatten.Perm A'.flatten) →
          ∀ A B, C = A ++ B → ∃ A' B', C' = A' ++ B' ∧ A.flatten.Perm A'.flatten := by
        intro o o' C C' ho ho' hcut A B hC
        obtain ⟨A₁, B₁, hA₁, hperm₁⟩ := hcut (o :: A) B (by rw [hC]; rfl)
        rw [List.flatten_cons] at hperm₁
        cases A₁ with
        | nil =>
          have hnil := List.append_eq_nil_iff.1 hperm₁.eq_nil
          rw [hnil.1] at ho
          exact absurd ho.nil_eq.symm ho'
        | cons o₁ A₁ =>
          obtain ⟨rfl, hC'⟩ := List.cons.inj hA₁
          refine ⟨A₁, B₁, hC', ?_⟩
          rw [List.flatten_cons] at hperm₁
          exact (List.perm_append_left_iff o').1 ((ho.symm.append_right _).trans hperm₁)
      exact ih (fun p hp => hne p (List.mem_cons_of_mem _ hp))
        (fun p hp => hne' p (List.mem_cons_of_mem _ hp)) hascrest hascrest'
        (hrest p p' parts (A' ++ B') hfirst hp' hcuts)
        (hrest p' p (A' ++ B') parts hfirst.symm hp hcuts')

theorem TiesPooled.cuts (h : TiesPooled parts.flatten) (h' : TiesPooled parts'.flatten)
    (hpooled : Pooled label parts) (hpooled' : Pooled label parts')
    (hasc : Ascending parts.flatten) (hasc' : Ascending parts'.flatten)
    (hperm : parts.flatten.Perm parts'.flatten) (A B : List (List Sample))
    (hcut : parts = A ++ B) : ∃ A' B', parts' = A' ++ B' ∧ A.flatten.Perm A'.flatten := by
  subst hcut
  obtain ⟨μ, h₀, h₁, hA, hB⟩ := exists_level hpooled
  obtain ⟨u', hu', hlowest⟩ :=
    h.transfer h' hperm hasc hasc' h₀ h₁ (hpooled.lowest hA hB)
  obtain ⟨A', B', hA', rfl⟩ := exists_cut hpooled'.tight hlowest
  exact ⟨A', B', hA', hu'⟩

theorem TiesPooled.perm {l l' : List Sample} (h : TiesPooled l) (hperm : l.Perm l') :
    TiesPooled l' := by
  intro c hcorrect hwrong
  obtain ⟨lo, hlo, hi, hhi, hrate⟩ := h c (hperm.mem_iff.2 hcorrect) (hperm.mem_iff.2 hwrong)
  refine ⟨lo, hlo, hi, hhi, ?_⟩
  unfold rate upTo fromOn at *
  rwa [mean_perm (hperm.symm.filter _), mean_perm (hperm.symm.filter _)]

theorem TiesPooled.fit_eq {samples samples' : List Sample} (h : TiesPooled samples)
    (hperm : samples'.Perm samples) : fit samples' = fit samples := by
  obtain ⟨parts, hpooled, hflatten, hfit⟩ := fit_ok samples
  obtain ⟨parts', hpooled', hflatten', hfit'⟩ := fit_ok samples'
  have hasc := ordered_ascending samples
  have hasc' := ordered_ascending samples'
  have hties := h.perm (ordered_perm samples).symm
  have hties' := h.perm (hperm.symm.trans (ordered_perm samples').symm)
  have hsame : (ordered samples').Perm (ordered samples) :=
    (ordered_perm samples').trans (hperm.trans (ordered_perm samples).symm)
  rw [← hflatten] at hasc hties hsame
  rw [← hflatten'] at hasc' hties' hsame
  rw [hfit, hfit', blocks_eq (fun p hp => (hpooled'.tight p hp).1)
    (fun p hp => (hpooled.tight p hp).1) hasc' hasc
    (hties'.cuts hties hpooled' hpooled hasc' hasc hsame)
    (hties.cuts hties' hpooled hpooled' hasc hasc' hsame.symm)]

end

/-! ## The predictions of a fit -/

section

variable {p q : List Sample} {parts A B : List (List Sample)} {s s' : Sample}

/-- Parts that share a confidence have the same mean. -/
theorem TiesPooled.mean_eq (h : TiesPooled (A ++ p :: q :: B).flatten)
    (hpooled : Pooled label (A ++ p :: q :: B)) (hasc : Ascending (A ++ p :: q :: B).flatten)
    (hs : s ∈ p) (hs' : s' ∈ q) (hc : s.1 = s'.1) :
    Isotonic.mean label q = Isotonic.mean label p := by
  have hparts : A ++ p :: q :: B = (A ++ [p]) ++ q :: B := by simp
  have hp := hpooled.tight p (by simp)
  have hq := hpooled.tight q (by simp)
  have hle : Isotonic.mean label p ≤ Isotonic.mean label q :=
    (List.pairwise_cons.1 hpooled.right.means).1 q List.mem_cons_self
  have hascp : Ascending p := hasc.sublist (List.sublist_flatten_of_mem (by simp))
  have hascq : Ascending q := hasc.sublist (List.sublist_flatten_of_mem (by simp))
  rw [hparts] at h hpooled hasc
  obtain ⟨μ, h₀, h₁, hA, hB⟩ := exists_level hpooled
  have hlowest := hpooled.lowest hA hB
  rw [List.flatten_append] at h hasc hlowest
  have hsu : s ∈ (A ++ [p]).flatten := List.mem_flatten.2 ⟨p, by simp, hs⟩
  have hsv : s' ∈ (q :: B).flatten := List.mem_flatten.2 ⟨q, List.mem_cons_self, hs'⟩
  have hcross := (List.pairwise_append.1 hasc).2.2
  have hu : ∀ a ∈ (A ++ [p]).flatten, a.1 ≤ s.1 := fun a ha => hc ▸ hcross a ha s' hsv
  have hv : ∀ a ∈ (q :: B).flatten, s.1 ≤ a.1 := fun a ha => hcross s hsu a ha
  have hsame : ∀ a, a ∈ (A ++ [p]).flatten ++ (q :: B).flatten → a.1 = s.1 → label a = label s :=
    fun a ha hac => by
      rw [h.same hasc h₀ h₁ hlowest hu hv ha (List.mem_append_left _ hsu) hac rfl]
  have hbounds := mean_bounds hp.1
  have hbounds' := mean_bounds hq.1
  cases hb : s.2 with
  | true =>
    -- the end of the first part is correct
    obtain ⟨p₁, p₂, rfl⟩ := List.append_of_mem hs
    have hend : 1 ≤ Isotonic.mean label (s :: p₂) := by
      rw [le_mean_iff (List.cons_ne_nil _ _)]
      apply excess_nonneg
      intro a ha
      have hmem : a ∈ (A ++ [p₁ ++ s :: p₂]).flatten := List.mem_flatten.2
        ⟨p₁ ++ s :: p₂, by simp, List.mem_append_right _ ha⟩
      have hge : s.1 ≤ a.1 := start_le (List.pairwise_append.1 hascp).2.1 ha
      rw [hsame a (List.mem_append_left _ hmem) (le_antisymm (hu a hmem) hge), label, if_pos hb]
    have := (mean_le_iff (List.cons_ne_nil _ _)).2 (hp.excess_right le_rfl)
    linarith
  | false =>
    obtain ⟨q₁, q₂, rfl⟩ := List.append_of_mem hs'
    have hbegin : Isotonic.mean label (q₁ ++ [s']) ≤ 0 := by
      rw [mean_le_iff (by simp)]
      apply excess_nonpos
      intro a ha
      have hmem : a ∈ ((q₁ ++ s' :: q₂) :: B).flatten := List.mem_flatten.2
        ⟨_, List.mem_cons_self, by
          rcases List.mem_append.1 ha with ha | ha
          · exact List.mem_append_left _ ha
          · rw [List.mem_singleton.1 ha]
            exact hs'⟩
      have hle' : a.1 ≤ s'.1 := by
        rcases List.mem_append.1 ha with ha | ha
        · exact (List.pairwise_append.1 hascq).2.2 a ha s' List.mem_cons_self
        · rw [List.mem_singleton.1 ha]
      have hac : a.1 = s.1 := le_antisymm (hc ▸ hle') (hv a hmem)
      rw [hsame a (List.mem_append_right _ hmem) hac, label, if_neg (by simp [hb])]
    rw [List.append_cons] at hq hle hbounds' ⊢
    have := (le_mean_iff (by simp)).2 (hq.excess_left le_rfl)
    linarith

theorem TiesPooled.later (h : TiesPooled (A ++ p :: B).flatten)
    (hpooled : Pooled label (A ++ p :: B)) (hasc : Ascending (A ++ p :: B).flatten) (hs : s ∈ p)
    (hq : q ∈ B) (hstart : start q ≤ s.1) :
    Isotonic.mean label q = Isotonic.mean label p := by
  induction B generalizing A p s with
  | nil => cases hq
  | cons o B ih =>
    have hne : o ≠ [] := (hpooled.tight o (by simp)).1
    obtain ⟨s', hs', hstart'⟩ := exists_start hne
    have hascB : Ascending (p ++ (o ++ B.flatten)) := by
      rw [List.flatten_append] at hasc
      exact (List.pairwise_append.1 hasc).2.1
    obtain ⟨-, hasco, hcross⟩ := List.pairwise_append.1 hascB
    have hge : s.1 ≤ s'.1 := hcross s hs s' (List.mem_append_left _ hs')
    have hle : start o ≤ start q := by
      rcases List.mem_cons.1 hq with rfl | hq
      · exact le_rfl
      · obtain ⟨a, ha, hstarta⟩ := exists_start (hpooled.tight q (by simp [hq])).1
        rw [← hstart', ← hstarta]
        exact (List.pairwise_append.1 hasco).2.2 s' hs' a (List.mem_flatten.2 ⟨q, hq, ha⟩)
    have hc : s.1 = s'.1 := le_antisymm hge (hstart' ▸ hle.trans hstart)
    have hfirst := h.mean_eq hpooled hasc hs hs' hc
    rcases List.mem_cons.1 hq with rfl | hq
    · exact hfirst
    · rw [← hfirst]
      have hparts : A ++ p :: o :: B = (A ++ [p]) ++ o :: B := by simp
      rw [hparts] at h hpooled hasc
      exact ih h hpooled hasc hs' hq (hc ▸ hstart)

theorem predict_part (hpooled : Pooled label (A ++ p :: B))
    (hasc : Ascending (A ++ p :: B).flatten) (hs : s ∈ p) :
    (Calibrator.ofBlocks ((A ++ p :: B).map Block.of)).predict s.1 =
      scan s.1 (Isotonic.mean label p) (B.map point) := by
  have hstarts : ∀ o ∈ A ++ [p], start o ≤ s.1 := by
    intro o ho
    rcases List.mem_append.1 ho with ho | ho
    · obtain ⟨a, ha, hstart⟩ := exists_start (hpooled.tight o (by simp [ho])).1
      rw [← hstart]
      rw [List.flatten_append] at hasc
      exact (List.pairwise_append.1 hasc).2.2 a (List.mem_flatten.2 ⟨o, ho, ha⟩) s
        (List.mem_flatten.2 ⟨p, List.mem_cons_self, hs⟩)
    · rw [List.mem_singleton.1 ho]
      exact start_le (hasc.sublist (List.sublist_flatten_of_mem (by simp))) hs
  obtain ⟨first, rest, hparts⟩ := List.exists_cons_of_ne_nil
    (show A ++ p :: B ≠ [] from List.append_ne_nil_of_right_ne_nil _ (List.cons_ne_nil _ _))
  rw [hparts, predict_ofBlocks, ← hparts, List.map_append, List.map_cons]
  refine scan_append (fun a ha => ?_) (hstarts p (by simp))
  obtain ⟨o, ho, rfl⟩ := List.mem_map.1 ha
  exact hstarts o (List.mem_append_left _ ho)

theorem TiesPooled.predict_eq (h : TiesPooled parts.flatten) (hpooled : Pooled label parts)
    (hasc : Ascending parts.flatten) (hp : p ∈ parts) (hs : s ∈ p) :
    (Calibrator.ofBlocks (parts.map Block.of)).predict s.1 = Isotonic.mean label p := by
  obtain ⟨A, B, rfl⟩ := List.append_of_mem hp
  rw [predict_part hpooled hasc hs]
  apply scan_const
  intro e he hreached
  obtain ⟨q, hq, rfl⟩ := List.mem_map.1 he
  exact h.later hpooled hasc hs hq hreached

end

/-! ## When a fit is the isotonic regression -/

section

variable {samples : List Sample} {parts : List (List Sample)} {x y : Rat}

theorem sum_flatten (f : Sample → Rat) (parts : List (List Sample)) :
    (parts.flatten.map f).sum = (parts.map fun p => (p.map f).sum).sum := by
  rw [List.map_flatten, List.sum_flatten, List.map_map]
  rfl

theorem sum_label (samples : List Sample) :
    (samples.map label).sum = (samples.filter (·.2)).length := by
  induction samples with
  | nil => rfl
  | cons s samples ih =>
    rw [List.map_cons, List.sum_cons, ih]
    unfold label
    cases hs : s.2 with
    | true =>
      rw [if_pos rfl, List.filter_cons_of_pos hs, List.length_cons]
      push_cast
      ring
    | false => rw [if_neg (by decide), List.filter_cons_of_neg (by simp [hs]), zero_add]

theorem sum_mean {p : List Sample} (hp : p ≠ []) :
    (p.map fun _ => Isotonic.mean label p).sum = (p.map label).sum := by
  have := (length_pos (K := Rat) hp).ne'
  rw [List.map_const', List.sum_replicate, nsmul_eq_mul]
  unfold Isotonic.mean
  field_simp

theorem predict_bounds (hpooled : Pooled label parts) (hne : parts ≠ []) (hxy : x ≤ y) :
    (Calibrator.ofBlocks (parts.map Block.of)).predict x ≤
        (Calibrator.ofBlocks (parts.map Block.of)).predict y ∧
      0 ≤ (Calibrator.ofBlocks (parts.map Block.of)).predict x ∧
      (Calibrator.ofBlocks (parts.map Block.of)).predict x ≤ 1 := by
  obtain ⟨first, rest, rfl⟩ := List.exists_cons_of_ne_nil hne
  rw [predict_ofBlocks, predict_ofBlocks]
  have hmeans : (Isotonic.mean label first :: ((first :: rest).map point).map (·.2)).Pairwise
      (· ≤ ·) := by
    have hpoints : ((first :: rest).map point).map (·.2) =
        (first :: rest).map (Isotonic.mean label) := by
      rw [List.map_map]
      rfl
    have hsorted : ((first :: rest).map (Isotonic.mean label)).Pairwise (· ≤ ·) :=
      List.pairwise_map.2 hpooled.means
    rw [hpoints]
    refine List.pairwise_cons.2 ⟨fun m hm => ?_, hsorted⟩
    rw [List.map_cons] at hsorted hm
    rcases List.mem_cons.1 hm with rfl | hm
    · exact le_rfl
    · exact (List.pairwise_cons.1 hsorted).1 m hm
  refine ⟨scan_mono hmeans hxy, ?_⟩
  rcases scan_mem (x := x) (r := Isotonic.mean label first) with h | ⟨e, he, h⟩
  · rw [h]
    exact mean_bounds (hpooled.tight first List.mem_cons_self).1
  · obtain ⟨p, hp, rfl⟩ := List.mem_map.1 he
    rw [h]
    exact mean_bounds (hpooled.tight p hp).1

theorem TiesPooled.calibrates (h : TiesPooled samples) (hne : samples ≠ []) :
    Calibrates samples := by
  obtain ⟨parts, hpooled, hflatten, hfit⟩ := fit_ok samples
  have hasc := ordered_ascending samples
  have hperm := ordered_perm samples
  have hties := h.perm hperm.symm
  rw [← hflatten] at hasc hperm hties
  have hparts : parts ≠ [] := by
    rintro rfl
    exact hne hperm.nil_eq.symm
  have hpredict : ∀ p ∈ parts, ∀ s ∈ p, (fit samples).predict s.1 = Isotonic.mean label p := by
    intro p hp s hs
    rw [hfit]
    exact hties.predict_eq hpooled hasc hp hs
  have hsum : ∀ f : Sample → Rat,
      (samples.map f).sum = (parts.map fun p => (p.map f).sum).sum := fun f => by
    rw [← (hperm.map f).sum_eq, sum_flatten]
  refine ⟨fun samples' hperm' => h.fit_eq hperm', fun x y hxy => ?_, fun x => ?_, fun g hg => ?_,
    ?_⟩
  · rw [hfit]
    exact (predict_bounds hpooled hparts hxy).1
  · rw [hfit]
    exact (predict_bounds hpooled hparts le_rfl).2
  · rw [hsum, hsum]
    apply List.sum_le_sum
    intro p hp
    have hascp : Ascending p := hasc.sublist (List.sublist_flatten_of_mem hp)
    have hmean : (p.map fun s => (label s - (fit samples).predict s.1) ^ 2) =
        p.map fun s => (label s - Isotonic.mean label p) ^ 2 :=
      List.map_congr_left fun s hs => by rw [hpredict p hp s hs]
    have hg : p.Pairwise fun a b => g a.1 ≤ g b.1 := hascp.imp fun hab => hg _ _ hab
    rw [hmean]
    have hleast := Tight.least (z := fun s => g s.1) (hpooled.tight p hp) hg
    exact hleast
  · rw [← sum_label, hsum, hsum]
    congr 1
    apply List.map_congr_left
    intro p hp
    rw [List.map_congr_left (hpredict p hp)]
    exact sum_mean (hpooled.tight p hp).1

end

/-! ## When it is not -/

def WrongFirst (a b : Sample) : Prop := a.1 < b.1 ∨ (a.1 = b.1 ∧ (b.2 = false → a.2 = false))

def RightFirst (a b : Sample) : Prop := a.1 < b.1 ∨ (a.1 = b.1 ∧ (b.2 = true → a.2 = true))

instance : DecidableRel WrongFirst := fun _ _ => inferInstanceAs (Decidable (_ ∨ _))

instance : DecidableRel RightFirst := fun _ _ => inferInstanceAs (Decidable (_ ∨ _))

instance : Std.Total WrongFirst := ⟨fun a b => by
  unfold WrongFirst
  grind⟩

instance : IsTrans Sample WrongFirst := ⟨fun a b c => by
  unfold WrongFirst
  grind⟩

instance : Std.Total RightFirst := ⟨fun a b => by
  unfold RightFirst
  grind⟩

instance : IsTrans Sample RightFirst := ⟨fun a b c => by
  unfold RightFirst
  grind⟩

section

variable {samples l : List Sample} {parts : List (List Sample)} {c m : Rat}

theorem eq_of_sum_le {α : Type} {f g : α → Rat} {l : List α} (h : ∀ a ∈ l, g a ≤ f a)
    (hsum : (l.map f).sum ≤ (l.map g).sum) : ∀ a ∈ l, f a = g a := by
  induction l with
  | nil => exact fun _ ha => (List.not_mem_nil ha).elim
  | cons b l ih =>
    have hrest := fun a ha => h a (List.mem_cons_of_mem b ha)
    have hle := List.sum_le_sum hrest
    have hb := h b List.mem_cons_self
    rw [List.map_cons, List.map_cons, List.sum_cons, List.sum_cons] at hsum
    intro a ha
    rcases List.mem_cons.1 ha with rfl | ha
    · linarith
    · exact ih hrest (by linarith) a ha

theorem fit_sorted (hasc : Ascending l) : ∃ parts, Pooled label parts ∧ parts.flatten = l ∧
    fit l = Calibrator.ofBlocks (parts.map Block.of) := by
  have hordered : ordered l = l := hasc.insertionSort_eq
  have hfit := fit_ok l
  rwa [hordered] at hfit

theorem Calibrates.predict_eq (h : Calibrates samples) (hperm : l.Perm samples)
    (hpooled : Pooled label parts) (hflatten : parts.flatten = l) (hasc : Ascending l)
    (hfit : fit l = Calibrator.ofBlocks (parts.map Block.of)) :
    ∀ p ∈ parts, ∀ s ∈ p, (fit samples).predict s.1 = Isotonic.mean label p := by
  subst hflatten
  have hle : ∀ p ∈ parts, ∀ s ∈ p, Isotonic.mean label p ≤ (fit samples).predict s.1 := by
    intro p hp s hs
    rw [← h.orderFree _ hperm, hfit]
    obtain ⟨A, B, rfl⟩ := List.append_of_mem hp
    rw [predict_part hpooled hasc hs]
    have hsorted : ((p :: B).map (Isotonic.mean label)).Pairwise (· ≤ ·) :=
      List.pairwise_map.2 hpooled.right.means
    have hpoints : (B.map point).map (·.2) = B.map (Isotonic.mean label) := by
      rw [List.map_map]
      rfl
    apply le_scan
    rwa [hpoints]
  have htotal : (parts.map fun p => (p.map fun s => (fit samples).predict s.1).sum).sum =
      (parts.map fun p => (p.map fun _ => Isotonic.mean label p).sum).sum := by
    rw [← sum_flatten, (hperm.map _).sum_eq, h.total, ← sum_label, ← (hperm.map label).sum_eq,
      sum_flatten]
    congr 1
    apply List.map_congr_left
    intro p hp
    exact (sum_mean (hpooled.tight p hp).1).symm
  have hparts := eq_of_sum_le (fun p hp => List.sum_le_sum (hle p hp)) htotal.le
  exact fun p hp => eq_of_sum_le (hle p hp) (hparts p hp).le

theorem excess_flatten (hpooled : Pooled label parts)
    (hmean : ∀ p ∈ parts, Isotonic.mean label p = m) :
    excess label m parts.flatten = 0 := by
  apply le_antisymm
  · exact hpooled.excess_drop (u := []) (fun p hp => (hmean p hp).le) rfl
  · exact hpooled.excess_take (v := []) (fun p hp => (hmean p hp).ge) (List.append_nil _).symm

/-- The samples whose parts have one mean: the excess is the same below and up to them, least there,
and they hold the confidence `c`. -/
theorem exists_level_set (hpooled : Pooled label parts) (hflatten : parts.flatten = l)
    (hasc : Ascending l)
    (hconst : ∀ p ∈ parts, ∀ q ∈ parts, ∀ s ∈ p, ∀ s' ∈ q, s.1 = s'.1 →
      Isotonic.mean label p = Isotonic.mean label q)
    {p : List Sample} (hp : p ∈ parts) {s : Sample} (hs : s ∈ p) :
    ∃ lo ≤ s.1, ∃ hi ≥ s.1,
      excess label (Isotonic.mean label p) (l.filter (·.1 < lo)) =
        excess label (Isotonic.mean label p) (l.filter (·.1 ≤ hi)) ∧
      Lowest label (Isotonic.mean label p) l (l.filter (·.1 < lo)) := by
  subst hflatten
  generalize hm : Isotonic.mean label p = m
  have hsplit := split_at hpooled.means m
  generalize hA : parts.filter (Isotonic.mean label · < m) = A at hsplit
  generalize hM : parts.filter (Isotonic.mean label · = m) = M at hsplit
  generalize hB : parts.filter (m < Isotonic.mean label ·) = B at hsplit
  have hAm : ∀ q ∈ A, Isotonic.mean label q < m := fun q hq => by
    rw [← hA] at hq
    exact of_decide_eq_true (List.mem_filter.1 hq).2
  have hMm : ∀ q ∈ M, Isotonic.mean label q = m := fun q hq => by
    rw [← hM] at hq
    exact of_decide_eq_true (List.mem_filter.1 hq).2
  have hBm : ∀ q ∈ B, m < Isotonic.mean label q := fun q hq => by
    rw [← hB] at hq
    exact of_decide_eq_true (List.mem_filter.1 hq).2
  have hpM : p ∈ M := by
    rw [← hM]
    exact List.mem_filter.2 ⟨hp, decide_eq_true hm⟩
  have hsM : s ∈ M.flatten := List.mem_flatten.2 ⟨p, hpM, hs⟩
  have hflat : parts.flatten = A.flatten ++ (M.flatten ++ B.flatten) := by
    rw [hsplit, List.flatten_append, List.flatten_append]
  rw [hflat] at hasc ⊢
  obtain ⟨-, hascMB, hcrossA⟩ := List.pairwise_append.1 hasc
  obtain ⟨hascM, -, hcrossB⟩ := List.pairwise_append.1 hascMB
  have hneM : M.flatten ≠ [] := List.ne_nil_of_mem hsM
  -- the first and the last sample of the level
  obtain ⟨first, hfirst, hfirstStart⟩ := exists_start hneM
  obtain ⟨last, hlast, hlastMax⟩ : ∃ last ∈ M.flatten, ∀ a ∈ M.flatten, a.1 ≤ last.1 := by
    rcases List.eq_nil_or_concat M.flatten with hnil | ⟨k, last, hk⟩
    · exact absurd hnil hneM
    · rw [List.concat_eq_append] at hk
      rw [hk] at hascM ⊢
      refine ⟨last, by simp, fun a ha => ?_⟩
      rcases List.mem_append.1 ha with ha | ha
      · exact (List.pairwise_append.1 hascM).2.2 a ha last (List.mem_singleton_self last)
      · rw [List.mem_singleton.1 ha]
  have hmem : ∀ {C : List (List Sample)} {a : Sample}, a ∈ C.flatten → (∀ q ∈ C, q ∈ parts) →
      ∃ q ∈ C, q ∈ parts ∧ a ∈ q := by
    intro C a ha hC
    obtain ⟨q, hq, haq⟩ := List.mem_flatten.1 ha
    exact ⟨q, hq, hC q hq, haq⟩
  have hAparts : ∀ q ∈ A, q ∈ parts := fun q hq => (List.mem_filter.1 (hA ▸ hq)).1
  have hMparts : ∀ q ∈ M, q ∈ parts := fun q hq => (List.mem_filter.1 (hM ▸ hq)).1
  have hBparts : ∀ q ∈ B, q ∈ parts := fun q hq => (List.mem_filter.1 (hB ▸ hq)).1
  have hbelow : ∀ a ∈ A.flatten, a.1 < first.1 := by
    intro a ha
    refine lt_of_le_of_ne (hcrossA a ha first (List.mem_append_left _ hfirst)) fun heq => ?_
    obtain ⟨q, hq, hqp, haq⟩ := hmem ha hAparts
    obtain ⟨q', hq', hqp', haq'⟩ := hmem hfirst hMparts
    have := hconst q hqp q' hqp' a haq first haq' heq
    rw [hMm q' hq'] at this
    exact (hAm q hq).ne this
  have habove : ∀ a ∈ B.flatten, last.1 < a.1 := by
    intro a ha
    refine lt_of_le_of_ne (hcrossB last hlast a ha) fun heq => ?_
    obtain ⟨q, hq, hqp, haq⟩ := hmem ha hBparts
    obtain ⟨q', hq', hqp', haq'⟩ := hmem hlast hMparts
    have := hconst q' hqp' q hqp last haq' a haq heq
    rw [hMm q' hq'] at this
    exact (hBm q hq).ne this
  have hfirstMin : ∀ a ∈ M.flatten, first.1 ≤ a.1 := fun a ha => by
    rw [hfirstStart]
    exact start_le hascM ha
  have hAle : ∀ a ∈ A.flatten, a.1 ≤ last.1 := fun a ha =>
    (hbelow a ha).le.trans (hfirstMin last hlast)
  have hlo : (A.flatten ++ (M.flatten ++ B.flatten)).filter (·.1 < first.1) = A.flatten := by
    rw [List.filter_append, List.filter_append,
      List.filter_eq_self.2 fun a ha => by simpa using hbelow a ha,
      List.filter_eq_nil_iff.2 fun a ha => by simpa using hfirstMin a ha,
      List.filter_eq_nil_iff.2 fun a ha => by
        simpa using (hfirstMin last hlast).trans (habove a ha).le, List.append_nil, List.append_nil]
  have hhi : (A.flatten ++ (M.flatten ++ B.flatten)).filter (·.1 ≤ last.1) =
      A.flatten ++ M.flatten := by
    rw [List.filter_append, List.filter_append,
      List.filter_eq_self.2 fun a ha => by simpa using hAle a ha,
      List.filter_eq_self.2 fun a ha => by simpa using hlastMax a ha,
      List.filter_eq_nil_iff.2 fun a ha => by simpa using habove a ha, List.append_nil]
  rw [hsplit] at hpooled
  refine ⟨first.1, hfirstMin s hsM, last.1, hlastMax s hsM, ?_, ?_⟩
  · rw [hlo, hhi, excess_append, excess_flatten hpooled.right.left hMm, add_zero]
  · rw [hlo, ← List.flatten_append, ← List.flatten_append]
    refine hpooled.lowest (fun q hq => (hAm q hq).le) fun q hq => ?_
    rcases List.mem_append.1 hq with hq | hq
    · exact (hMm q hq).ge
    · exact (hBm q hq).le

/-- With the correct samples first, no part begins at a confidence whose samples are cut where the
incorrect samples come first. -/
theorem not_start_of_rightFirst (hpooled : Pooled label parts) (hflatten : parts.flatten = l)
    (hsorted : l.Pairwise RightFirst) (hwrong : (c, false) ∈ l) (hm : 0 < m)
    (hm₁ : m ≤ 1) {lo hi : Rat} (hlo : lo ≤ c) (hhi : c ≤ hi)
    (hends : excess label m (l.filter (·.1 < lo)) = excess label m (l.filter (·.1 ≤ hi)))
    (htie : excess label m (l.filter (low c)) = excess label m (l.filter (·.1 < lo))) :
    c ∉ parts.map start := by
  intro hc
  obtain ⟨q, hq, hstart⟩ := List.mem_map.1 hc
  obtain ⟨A, B, rfl⟩ := List.append_of_mem hq
  obtain ⟨μ, h₀, h₁, hA, hB⟩ := exists_level hpooled
  have hlowest := hpooled.lowest hA hB
  obtain ⟨first, q, rfl⟩ := List.exists_cons_of_ne_nil (hpooled.tight q hq).1
  have hfirst : first.1 = c := hstart
  rw [hflatten] at hlowest
  rw [List.flatten_append, List.flatten_cons, List.cons_append] at hflatten
  generalize A.flatten = u at hflatten hlowest
  generalize q ++ B.flatten = v at hflatten
  subst hflatten
  obtain ⟨-, hsortedv, hcross⟩ := List.pairwise_append.1 hsorted
  have hle : ∀ {a b : Sample}, RightFirst a b → a.1 ≤ b.1 := by
    unfold RightFirst
    grind
  have hu : ∀ s ∈ u, s.1 ≤ c := fun s hs =>
    hfirst ▸ hle (hcross s hs first List.mem_cons_self)
  have hv : ∀ s ∈ first :: v, c ≤ s.1 := by
    intro s hs
    rcases List.mem_cons.1 hs with rfl | hs
    · exact hfirst.ge
    · exact hfirst ▸ hle ((List.pairwise_cons.1 hsortedv).1 s hs)
  -- an incorrect sample at the confidence is left
  have hleft : (c, false) ∈ first :: v := by
    rcases List.mem_append.1 hwrong with hmem | hmem
    · have horder := hcross _ hmem first List.mem_cons_self
      unfold RightFirst at horder
      have hbad : first = (c, false) := by
        obtain ⟨x, b⟩ := first
        grind
      rw [hbad]
      exact List.mem_cons_self
    · exact hmem
  have hrest : excess label m ((first :: v).filter (low c)) < 0 := by
    have hne : (first :: v).filter (low c) ≠ [] :=
      List.ne_nil_of_mem (List.mem_filter.2 ⟨hleft, by simp [low]⟩)
    have hzero : Isotonic.mean label ((first :: v).filter (low c)) ≤ 0 := by
      rw [mean_le_iff hne]
      apply excess_nonpos
      intro s hs
      obtain ⟨hs, hlow⟩ := List.mem_filter.1 hs
      have := hv s hs
      unfold low at hlow
      unfold label
      rw [if_neg (by grind)]
    exact (mean_lt_iff hne).1 (hzero.trans_lt hm)
  have hbegin := excess_filter_low_le hm₁ hu
  rw [List.filter_append, excess_append] at htie
  have hasc : Ascending (u ++ first :: v) := hsorted.imp hle
  have hnone : (first :: v).filter (·.1 < lo) = [] :=
    List.filter_eq_nil_iff.2 fun s hs => by simpa using hlo.trans (hv s hs)
  have hall : u.filter (·.1 ≤ hi) = u :=
    List.filter_eq_self.2 fun s hs => by simpa using (hu s hs).trans hhi
  have hbelow := hlowest.2 _ (below_isPrefix hasc lo)
  have hthrough := hlowest.2 _ (through_isPrefix hasc hi)
  rw [List.filter_append, hnone, List.append_nil] at hbelow hends htie
  rw [List.filter_append, hall, excess_append] at hthrough hends
  -- the rest of the beginning, and what follows it, lie on both sides of the level
  obtain ⟨z, hz⟩ := below_isPrefix (List.pairwise_append.1 hasc).1 lo
  generalize u.filter (·.1 < lo) = b at hz hbelow hends htie
  generalize (first :: v).filter (·.1 ≤ hi) = w at hthrough hends
  have hzm : excess label m u = excess label m b + excess label m z := by
    rw [← hz, excess_append]
  have hzμ : excess label μ u = excess label μ b + excess label μ z := by
    rw [← hz, excess_append]
  rcases le_total μ m with hle | hle
  · have := excess_anti hle (y := label) z
    linarith
  · have := excess_anti hle (y := label) w
    linarith

theorem Calibrates.tiesPooled (h : Calibrates samples) : TiesPooled samples := by
  intro c hcorrect hwrong
  have hperm : (samples.insertionSort WrongFirst).Perm samples := List.perm_insertionSort _ _
  have hsorted := List.pairwise_insertionSort WrongFirst samples
  generalize samples.insertionSort WrongFirst = l at hperm hsorted
  have hasc : Ascending l := hsorted.imp (by unfold WrongFirst; grind)
  obtain ⟨parts, hpooled, hflatten, hfit⟩ := fit_sorted hasc
  have hpredict := h.predict_eq hperm hpooled hflatten hasc hfit
  have hconst : ∀ p ∈ parts, ∀ q ∈ parts, ∀ s ∈ p, ∀ s' ∈ q, s.1 = s'.1 →
      Isotonic.mean label p = Isotonic.mean label q := by
    intro p hp q hq s hs s' hs' hc
    rw [← hpredict p hp s hs, ← hpredict q hq s' hs', hc]
  have hcorrect' := hperm.mem_iff.2 hcorrect
  have hwrong' := hperm.mem_iff.2 hwrong
  obtain ⟨p, hp, hsp⟩ := List.mem_flatten.1 (hflatten ▸ hcorrect')
  obtain ⟨lo, hlo, hi, hhi, hends, hlowest⟩ := exists_level_set hpooled hflatten hasc hconst hp hsp
  have htight := hpooled.tight p hp
  have hm : 0 < Isotonic.mean label p := by
    rw [lt_mean_iff htight.1]
    obtain ⟨p₁, p₂, rfl⟩ := List.append_of_mem hsp
    have h₁ := excess_nonneg (l := p₁) fun s _ => label_nonneg s
    have h₂ := excess_nonneg (l := p₂) fun s _ => label_nonneg s
    have hone : label (c, true) = 1 := rfl
    rw [excess_append, excess_cons, hone]
    linarith
  have hm₁ := (mean_bounds htight.1).2
  generalize Isotonic.mean label p = m at *
  have hstart : l.filter (low c) <+: l := filter_isPrefix hsorted fun a b hab hb => by
    unfold low at *
    unfold WrongFirst at hab
    grind
  have hX := excess_upTo hlo m l
  have hY := excess_fromOn hhi m l
  rcases (hlowest.2 _ hstart).lt_or_eq with hlt | heq
  · refine ⟨lo, hlo, hi, hhi, ?_⟩
    have hfrom : rate (fromOn c hi l) < m :=
      (mean_lt_iff (fromOn_ne_nil hhi hcorrect')).2 (by linarith)
    have hupTo : m < rate (upTo lo c l) :=
      (lt_mean_iff (upTo_ne_nil hlo hwrong')).2 (by linarith)
    have hrates : rate (fromOn c hi samples) = rate (fromOn c hi l) ∧
        rate (upTo lo c samples) = rate (upTo lo c l) :=
      ⟨mean_perm (hperm.symm.filter _), mean_perm (hperm.symm.filter _)⟩
    rw [hrates.1, hrates.2]
    exact hfrom.trans hupTo
  · -- the incorrect samples end a part, and the correct ones begin the next
    exfalso
    have hleast : Lowest label m parts.flatten (l.filter (low c)) := by
      rw [hflatten]
      exact ⟨hstart, fun w hw => heq ▸ hlowest.2 w hw⟩
    obtain ⟨A, B, rfl, hA⟩ := exists_cut hpooled.tight hleast
    have hl : A.flatten ++ B.flatten = l := by rw [← List.flatten_append, hflatten]
    have hnotlow : B.flatten.filter (low c) = [] := by
      have hself : A.flatten.filter (low c) = A.flatten :=
        List.filter_eq_self.2 fun s hs => by
          rw [hA] at hs
          exact (List.mem_filter.1 hs).2
      have hfilter := congrArg (List.filter (low c)) hl
      rw [List.filter_append, ← hA, hself] at hfilter
      simpa using hfilter
    have hB : (c, true) ∈ B.flatten := by
      rw [← hl, hA] at hcorrect'
      rcases List.mem_append.1 hcorrect' with hmem | hmem
      · have := (List.mem_filter.1 hmem).2
        unfold low at this
        simp at this
      · exact hmem
    have hascB : Ascending B.flatten := (List.pairwise_append.1 (hl ▸ hasc)).2.1
    have hstartB : start B.flatten = c := by
      apply le_antisymm (start_le hascB hB)
      obtain ⟨s, hs, hstart⟩ := exists_start (List.ne_nil_of_mem hB)
      have := List.filter_eq_nil_iff.1 hnotlow s hs
      unfold low at this
      rw [← hstart]
      grind
    cases B with
    | nil => cases hB
    | cons q B =>
      obtain ⟨first, q, rfl⟩ := List.exists_cons_of_ne_nil (hpooled.tight q (by simp)).1
      have hmem : c ∈ (A ++ (first :: q) :: B).map start :=
        List.mem_map.2 ⟨first :: q, by simp, hstartB⟩
      have hperm' : (samples.insertionSort RightFirst).Perm samples := List.perm_insertionSort _ _
      have hsorted' := List.pairwise_insertionSort RightFirst samples
      generalize samples.insertionSort RightFirst = l' at hperm' hsorted'
      have hasc' : Ascending l' := hsorted'.imp (by unfold RightFirst; grind)
      obtain ⟨parts', hpooled', hflatten', hfit'⟩ := fit_sorted hasc'
      have hsame : ∀ f, excess label m (l'.filter f) = excess label m (l.filter f) := fun f =>
        excess_perm ((hperm'.trans hperm.symm).filter f)
      have hthresholds : (A ++ (first :: q) :: B).map start = parts'.map start := by
        have hfits := (h.orderFree l hperm).trans (h.orderFree l' hperm').symm
        rw [hfit, hfit'] at hfits
        have := congrArg Calibrator.thresholds hfits
        unfold Calibrator.ofBlocks at this
        dsimp only at this
        rw [List.map_map, List.map_map] at this
        exact this
      refine not_start_of_rightFirst hpooled' hflatten' hsorted' (hperm'.mem_iff.2 hwrong) hm hm₁
        hlo hhi ?_ ?_ (hthresholds ▸ hmem)
      · rw [hsame, hsame, hends]
      · rw [hsame, hsame, heq]

/-- The fit is the isotonic regression of its samples exactly if every tie of correct and incorrect
samples lies inside a pool. -/
theorem calibrates_iff (hne : samples ≠ []) : Calibrates samples ↔ TiesPooled samples :=
  ⟨fun h => h.tiesPooled, fun h => h.calibrates hne⟩

end

def pooledTie : List Sample :=
  [(1 / 4, true), (1 / 4, true), (1 / 2, false), (1 / 2, true), (3 / 4, false)]

theorem calibrates_iff_pooledTie : Calibrates pooledTie := by
  refine (calibrates_iff (by decide)).2 fun c hcorrect hwrong => ?_
  have hc : c = 1 / 2 := by
    unfold pooledTie at hcorrect hwrong
    simp only [List.mem_cons, Prod.mk.injEq, reduceCtorEq, and_false, and_true, List.not_mem_nil,
      or_false, false_or] at hcorrect hwrong
    rcases hwrong with rfl | rfl
    · rfl
    · norm_num at hcorrect
  subst hc
  refine ⟨1 / 4, by norm_num, 3 / 4, by norm_num, ?_⟩
  decide +kernel

/-- Two samples with one confidence: the fit depends on their order, and the predictions add up to
two although one sample is correct. -/
theorem calibrates_fails :
    ¬ Calibrates [(1 / 2, false), (1 / 2, true)] ∧
      fit [(1 / 2, false), (1 / 2, true)] ≠ fit [(1 / 2, true), (1 / 2, false)] ∧
      ((fit [(1 / 2, false), (1 / 2, true)]).predict (1 / 2) +
        (fit [(1 / 2, false), (1 / 2, true)]).predict (1 / 2) = 2) := by
  have hwrong : Block.mean ⟨0, 1, 1 / 2⟩ = 0 := by decide +kernel
  have hright : Block.mean ⟨1, 1, 1 / 2⟩ = 1 := by decide +kernel
  have hpass : pass false [] [⟨0, 1, 1 / 2⟩, ⟨1, 1, 1 / 2⟩] =
      ([⟨0, 1, 1 / 2⟩, ⟨1, 1, 1 / 2⟩], false) := by
    rw [pass, hwrong, hright, if_neg (by decide), pass]
    rfl
  have hfit : fit [(1 / 2, false), (1 / 2, true)] = ⟨[1 / 2, 1 / 2], [0, 1], rfl⟩ := by
    have hblocks : (ordered [(1 / 2, false), (1 / 2, true)]).map Block.single =
        [⟨0, 1, 1 / 2⟩, ⟨1, 1, 1 / 2⟩] := by
      decide +kernel
    unfold fit
    rw [hblocks, pool, hpass, if_neg (by decide)]
    simp only [Calibrator.ofBlocks, List.map_cons, List.map_nil, hwrong, hright]
  have hpass' : pass false [] [⟨1, 1, 1 / 2⟩, ⟨0, 1, 1 / 2⟩] = ([⟨1, 2, 1 / 2⟩], true) := by
    rw [pass, hwrong, hright, if_pos (by decide), pass]
    decide +kernel
  have hfit' : (fit [(1 / 2, true), (1 / 2, false)]).thresholds = [1 / 2] := by
    have hblocks : (ordered [(1 / 2, true), (1 / 2, false)]).map Block.single =
        [⟨1, 1, 1 / 2⟩, ⟨0, 1, 1 / 2⟩] := by
      decide +kernel
    unfold fit
    rw [hblocks, pool, hpass', if_pos rfl, pool, pass, if_neg (by decide)]
    rfl
  have htotal : (fit [(1 / 2, false), (1 / 2, true)]).predict (1 / 2) +
      (fit [(1 / 2, false), (1 / 2, true)]).predict (1 / 2) = 2 := by
    rw [hfit]
    decide +kernel
  refine ⟨fun h => ?_, fun h => ?_, htotal⟩
  · have hsum := h.total
    rw [List.map_cons, List.map_cons, List.map_nil, List.sum_cons, List.sum_cons, List.sum_nil,
      add_zero, htotal] at hsum
    exact absurd hsum (by decide +kernel)
  · have hthresholds := congrArg Calibrator.thresholds h
    rw [hfit, hfit'] at hthresholds
    cases hthresholds

end Calibration

end Clear
