import Clear.Lib.Isotonic
import Mathlib.Algebra.Order.Ring.Rat
import Mathlib.Data.List.Sort

/-!
# Isotonic calibration

`IsotonicCalibrator` (`app/evaluation/metrics/calibration.py`): a monotonic step function that is
fitted by pooling adjacent violators. Confidences are exact rationals. Samples with the same
confidence begin as blocks of their own. A fit is a pooled partition of the ordered samples
(`fit_ok`).
-/

namespace Clear

namespace Calibration

/-! ## The calibrator -/

/-- A judged sample: its confidence, and whether it was correct. -/
abbrev Sample := Rat × Bool

/-- `IsotonicCalibrator`: breakpoints, and the calibrated value from each one onwards. -/
structure Calibrator where
  thresholds : List Rat
  values : List Rat
  aligned : thresholds.length = values.length

/-- The loop of `predict`. -/
def scan (confidence : Rat) : Rat → List (Rat × Rat) → Rat
  | result, [] => result
  | result, (threshold, value) :: rest =>
    if threshold ≤ confidence then scan confidence value rest else result

def Calibrator.predict (c : Calibrator) (confidence : Rat) : Rat :=
  match c.values with
  | [] => confidence
  | first :: _ => scan confidence first (c.thresholds.zip c.values)

structure Block where
  sum : Rat
  weight : Rat
  x : Rat
  deriving DecidableEq

def Block.mean (b : Block) : Rat := b.sum / b.weight

def label (s : Sample) : Rat := if s.2 then 1 else 0

def Block.single (s : Sample) : Block := { sum := label s, weight := 1, x := s.1 }

def Block.merge (left right : Block) : Block :=
  { sum := left.sum + right.sum, weight := left.weight + right.weight, x := min left.x right.x }

/-- The inner loop. `before` holds the blocks before the index, the last one first; a merge steps
back by one block. -/
def pass (merged : Bool) (before : List Block) : List Block → List Block × Bool
  | [] => (before.reverse, merged)
  | [last] => (before.reverse ++ [last], merged)
  | left :: right :: rest =>
    if right.mean < left.mean then
      match before with
      | [] => pass true [] (left.merge right :: rest)
      | previous :: before => pass true before (previous :: left.merge right :: rest)
    else pass merged (left :: before) (right :: rest)
  termination_by rest => before.length + 2 * rest.length

theorem length_pass (merged : Bool) (before rest : List Block) :
    (pass merged before rest).1.length ≤ before.length + rest.length ∧
      ((pass merged before rest).2 = true → merged = true ∨
        (pass merged before rest).1.length < before.length + rest.length) := by
  fun_induction pass merged before rest with
  | case1 merged before => simp
  | case2 merged before last => simp
  | case3 merged left right rest hlt ih =>
    simp only [List.length_nil, List.length_cons] at *
    exact ⟨by omega, fun _ => .inr (by omega)⟩
  | case4 merged left right rest hlt previous before ih =>
    simp only [List.length_cons] at *
    exact ⟨by omega, fun _ => .inr (by omega)⟩
  | case5 merged before left right rest hlt ih =>
    simp only [List.length_cons] at *
    refine ⟨by omega, fun h => ?_⟩
    rcases ih.2 h with h | h
    · exact .inl h
    · exact .inr (by omega)

/-- The outer loop: a pass, until none merges. -/
def pool (blocks : List Block) : List Block :=
  if (pass false [] blocks).2 then pool (pass false [] blocks).1 else (pass false [] blocks).1
  termination_by blocks.length
  decreasing_by
    have := (length_pass false [] blocks).2
    simp_all

def Calibrator.ofBlocks (blocks : List Block) : Calibrator where
  thresholds := blocks.map (·.x)
  values := blocks.map (·.mean)
  aligned := by simp

/-- `sorted(samples, key=lambda pair: pair[0])`. -/
def ordered (samples : List Sample) : List Sample := samples.insertionSort fun a b => a.1 ≤ b.1

def fit (samples : List Sample) : Calibrator :=
  Calibrator.ofBlocks (pool ((ordered samples).map Block.single))

/-! ## What a fit should be -/

def rate (samples : List Sample) : Rat := Isotonic.mean label samples

structure Calibrates (samples : List Sample) : Prop where
  orderFree : ∀ samples', samples'.Perm samples → fit samples' = fit samples
  monotone : ∀ x y, x ≤ y → (fit samples).predict x ≤ (fit samples).predict y
  bounded : ∀ x, 0 ≤ (fit samples).predict x ∧ (fit samples).predict x ≤ 1
  least : ∀ g : Rat → Rat, (∀ x y, x ≤ y → g x ≤ g y) →
    (samples.map fun s => (label s - (fit samples).predict s.1) ^ 2).sum ≤
      (samples.map fun s => (label s - g s.1) ^ 2).sum
  total : (samples.map fun s => (fit samples).predict s.1).sum = (samples.filter (·.2)).length

def upTo (lo c : Rat) (samples : List Sample) : List Sample :=
  samples.filter fun s => lo ≤ s.1 && (s.1 < c || s.1 = c && !s.2)

def fromOn (c hi : Rat) (samples : List Sample) : List Sample :=
  samples.filter fun s => s.1 ≤ hi && (c < s.1 || s.1 = c && s.2)

/-- Where correct and incorrect samples have the same confidence, the samples just below and the
incorrect ones have a higher rate than the correct ones and the samples just above. -/
def TiesPooled (samples : List Sample) : Prop :=
  ∀ c, (c, true) ∈ samples → (c, false) ∈ samples → ∃ lo ≤ c, ∃ hi ≥ c,
    rate (fromOn c hi samples) < rate (upTo lo c samples)

/-! ## The blocks of a fit -/

open Isotonic

def start (part : List Sample) : Rat := (part.head?.map (·.1)).getD 0

def Block.of (part : List Sample) : Block :=
  { sum := (part.map label).sum, weight := part.length, x := start part }

/-- Confidences do not decrease. -/
abbrev Ascending (samples : List Sample) : Prop := samples.Pairwise fun a b => a.1 ≤ b.1

theorem Block.of_append {p q : List Sample} (hp : p ≠ []) (hq : q ≠ [])
    (hasc : Ascending (p ++ q)) : Block.of (p ++ q) = (Block.of p).merge (Block.of q) := by
  obtain ⟨a, p, rfl⟩ := List.exists_cons_of_ne_nil hp
  obtain ⟨b, q, rfl⟩ := List.exists_cons_of_ne_nil hq
  have hle : a.1 ≤ b.1 := (List.pairwise_append.1 hasc).2.2 a List.mem_cons_self b List.mem_cons_self
  unfold Block.of Block.merge start
  simp only [List.cons_append, List.map_cons, List.map_append, List.sum_cons, List.sum_append,
    List.length_cons, List.length_append, List.head?_cons, Option.map_some, Option.getD_some,
    min_eq_left hle, Block.mk.injEq, and_true]
  constructor
  · ring
  · push_cast
    ring

/-- The blocks before the index, the last one first, and the rest are those of tight parts; means do
not decrease up to the index. -/
theorem pass_ok (merged : Bool) (b r : List (List Sample)) {before rest : List Block}
    (hbefore : before = b.map Block.of) (hrest : rest = r.map Block.of)
    (htight : ∀ p ∈ b.reverse ++ r, Tight label p)
    (hmeans : (b.reverse ++ r.take 1).Pairwise fun p q =>
      Isotonic.mean label p ≤ Isotonic.mean label q)
    (hasc : Ascending (b.reverse ++ r).flatten) :
    ∃ parts, (pass merged before rest).1 = parts.map Block.of ∧ Pooled label parts ∧
      parts.flatten = (b.reverse ++ r).flatten := by
  fun_induction pass merged before rest generalizing b r with
  | case1 merged before =>
    obtain rfl := List.map_eq_nil_iff.1 hrest.symm
    rw [List.append_nil] at *
    rw [List.take_nil, List.append_nil] at hmeans
    exact ⟨b.reverse, by rw [hbefore, List.map_reverse], ⟨htight, hmeans⟩, rfl⟩
  | case2 merged before last =>
    obtain ⟨p, rest, rfl, rfl, hnil⟩ := List.map_eq_cons_iff.1 hrest.symm
    obtain rfl := List.map_eq_nil_iff.1 hnil
    exact ⟨b.reverse ++ [p], by simp [hbefore], ⟨htight, hmeans⟩, rfl⟩
  | case3 merged left right rest hlt ih =>
    obtain rfl := List.map_eq_nil_iff.1 hbefore.symm
    obtain ⟨p, _, rfl, rfl, htail⟩ := List.map_eq_cons_iff.1 hrest.symm
    obtain ⟨q, rest, rfl, rfl, rfl⟩ := List.map_eq_cons_iff.1 htail
    have hp := htight p (by simp)
    have hq := htight q (by simp)
    have hpq : Ascending (p ++ q) := by
      refine hasc.sublist ?_
      simp [← List.append_assoc]
    obtain ⟨parts, hparts, hpooled, hflatten⟩ := ih [] ((p ++ q) :: rest) rfl
      (by rw [List.map_cons, Block.of_append hp.1 hq.1 hpq])
      (by
        intro part hpart
        rcases List.mem_cons.1 hpart with rfl | hpart
        · exact hp.append hq hlt
        · exact htight part (by simp [hpart]))
      (by simp) (by simpa using hasc)
    exact ⟨parts, hparts, hpooled, by simpa using hflatten⟩
  | case4 merged left right rest hlt previous before ih =>
    obtain ⟨o, b, rfl, rfl, rfl⟩ := List.map_eq_cons_iff.1 hbefore.symm
    obtain ⟨p, _, rfl, rfl, htail⟩ := List.map_eq_cons_iff.1 hrest.symm
    obtain ⟨q, rest, rfl, rfl, rfl⟩ := List.map_eq_cons_iff.1 htail
    have hp := htight p (by simp)
    have hq := htight q (by simp)
    have hpq : Ascending (p ++ q) := by
      refine hasc.sublist ?_
      simp [← List.append_assoc]
    obtain ⟨parts, hparts, hpooled, hflatten⟩ := ih b (o :: (p ++ q) :: rest) rfl
      (by rw [List.map_cons, List.map_cons, Block.of_append hp.1 hq.1 hpq])
      (by
        intro part hpart
        rcases List.mem_append.1 hpart with hpart | hpart
        · exact htight part (by simp [List.mem_reverse.1 hpart])
        rcases List.mem_cons.1 hpart with rfl | hpart
        · exact htight part (by simp)
        rcases List.mem_cons.1 hpart with rfl | hpart
        · exact hp.append hq hlt
        · exact htight part (by simp [hpart]))
      (by
        refine hmeans.sublist ?_
        simp)
      (by simpa using hasc)
    exact ⟨parts, hparts, hpooled, by simpa using hflatten⟩
  | case5 merged before left right rest hlt ih =>
    obtain ⟨p, _, rfl, rfl, htail⟩ := List.map_eq_cons_iff.1 hrest.symm
    obtain ⟨q, rest, rfl, rfl, rfl⟩ := List.map_eq_cons_iff.1 htail
    have hle : Isotonic.mean label p ≤ Isotonic.mean label q := not_lt.1 hlt
    obtain ⟨parts, hparts, hpooled, hflatten⟩ := ih (p :: b) (q :: rest)
      (by rw [hbefore, List.map_cons]) rfl (by simpa using htight)
      (by
        rw [List.reverse_cons, List.take_succ_cons, List.take_zero]
        rw [List.take_succ_cons, List.take_zero] at hmeans
        refine List.pairwise_append.2 ⟨hmeans, List.pairwise_singleton _ _, fun o ho q' hq' => ?_⟩
        rw [List.mem_singleton.1 hq']
        rcases List.mem_append.1 ho with ho | ho
        · exact ((List.pairwise_append.1 hmeans).2.2 o ho p (List.mem_singleton_self p)).trans hle
        · rw [List.mem_singleton.1 ho]
          exact hle)
      (by simpa using hasc)
    exact ⟨parts, hparts, hpooled, by simpa using hflatten⟩

theorem pool_ok (parts : List (List Sample)) (htight : ∀ p ∈ parts, Tight label p)
    (hasc : Ascending parts.flatten) : ∃ pooled, pool (parts.map Block.of) = pooled.map Block.of ∧
      Pooled label pooled ∧ pooled.flatten = parts.flatten := by
  generalize hblocks : parts.map Block.of = blocks
  induction blocks using pool.induct generalizing parts with
  | case1 blocks hmerged ih =>
    obtain ⟨once, honce, hpooled, hflatten⟩ := pass_ok false [] parts rfl hblocks.symm
      htight (by cases parts <;> simp) hasc
    rw [List.reverse_nil, List.nil_append] at hflatten
    rw [pool, if_pos hmerged, ← hflatten]
    exact ih once hpooled.tight (hflatten ▸ hasc) honce.symm
  | case2 blocks hdone =>
    obtain ⟨once, honce, hpooled, hflatten⟩ := pass_ok false [] parts rfl hblocks.symm
      htight (by cases parts <;> simp) hasc
    rw [pool, if_neg hdone]
    exact ⟨once, honce, hpooled, hflatten⟩

theorem flatten_singletons (l : List Sample) : (l.map fun s => [s]).flatten = l := by
  induction l with
  | nil => rfl
  | cons s l ih => rw [List.map_cons, List.flatten_cons, ih]; rfl

theorem ordered_ascending (samples : List Sample) : Ascending (ordered samples) :=
  List.pairwise_insertionSort _ _

theorem ordered_perm (samples : List Sample) : (ordered samples).Perm samples :=
  List.perm_insertionSort _ _

theorem fit_ok (samples : List Sample) : ∃ parts, Pooled label parts ∧
    parts.flatten = ordered samples ∧ fit samples = Calibrator.ofBlocks (parts.map Block.of) := by
  have hsingle : (ordered samples).map Block.single =
      ((ordered samples).map fun s => [s]).map Block.of := by
    rw [List.map_map]
    apply List.map_congr_left
    intro s _
    simp [Block.single, Block.of, start]
  obtain ⟨parts, hparts, hpooled, hflatten⟩ := pool_ok
    ((ordered samples).map fun s => [s])
    (by
      intro p hp
      obtain ⟨s, -, rfl⟩ := List.mem_map.1 hp
      exact tight_singleton s)
    (by rw [flatten_singletons]; exact ordered_ascending samples)
  refine ⟨parts, hpooled, hflatten.trans (flatten_singletons _), ?_⟩
  unfold fit
  rw [hsingle, hparts]

/-! ## Predictions -/

section

variable {x y r lo hi : Rat} {points A B : List (Rat × Rat)}

theorem le_scan (h : (r :: points.map (·.2)).Pairwise (· ≤ ·)) : r ≤ scan x r points := by
  induction points generalizing r with
  | nil => exact le_rfl
  | cons e points ih =>
    obtain ⟨t, v⟩ := e
    rw [List.map_cons, List.pairwise_cons] at h
    unfold scan
    split
    · exact (h.1 v List.mem_cons_self).trans (ih h.2)
    · exact le_rfl

theorem scan_mono (h : (r :: points.map (·.2)).Pairwise (· ≤ ·)) (hxy : x ≤ y) :
    scan x r points ≤ scan y r points := by
  induction points generalizing r with
  | nil => exact le_rfl
  | cons e points ih =>
    obtain ⟨t, v⟩ := e
    have hrest := (List.pairwise_cons.1 h).2
    by_cases ht : t ≤ x
    · rw [scan, scan, if_pos ht, if_pos (ht.trans hxy)]
      exact ih hrest
    · rw [scan, if_neg ht]
      exact le_scan h

theorem scan_mem : scan x r points = r ∨ ∃ e ∈ points, scan x r points = e.2 := by
  induction points generalizing r with
  | nil => exact .inl rfl
  | cons e points ih =>
    obtain ⟨t, v⟩ := e
    unfold scan
    split
    · rcases ih (r := v) with h | ⟨e, he, h⟩
      · exact .inr ⟨(t, v), List.mem_cons_self, h⟩
      · exact .inr ⟨e, List.mem_cons_of_mem _ he, h⟩
    · exact .inl rfl

theorem scan_append {e : Rat × Rat} (hA : ∀ a ∈ A, a.1 ≤ x) (he : e.1 ≤ x) :
    scan x r (A ++ e :: B) = scan x e.2 B := by
  induction A generalizing r with
  | nil => rw [List.nil_append, scan, if_pos he]
  | cons a A ih =>
    rw [List.cons_append, scan, if_pos (hA a List.mem_cons_self)]
    exact ih fun a ha => hA a (List.mem_cons_of_mem _ ha)

theorem scan_const (h : ∀ e ∈ points, e.1 ≤ x → e.2 = r) : scan x r points = r := by
  induction points with
  | nil => rfl
  | cons e points ih =>
    obtain ⟨t, v⟩ := e
    unfold scan
    split
    next ht =>
      obtain rfl : v = r := h (t, v) List.mem_cons_self ht
      exact ih fun e he => h e (List.mem_cons_of_mem _ he)
    next => rfl

end

section

variable {p q : List Sample} {parts A B : List (List Sample)} {s : Sample} {x : Rat}

def point (part : List Sample) : Rat × Rat := (start part, Isotonic.mean label part)

theorem predict_ofBlocks (part : List Sample) (rest : List (List Sample)) (x : Rat) :
    (Calibrator.ofBlocks ((part :: rest).map Block.of)).predict x =
      scan x (Isotonic.mean label part) ((part :: rest).map point) := by
  have hzip : (((part :: rest).map Block.of).map (·.x)).zip
      (((part :: rest).map Block.of).map (·.mean)) = (part :: rest).map point := by
    rw [List.zip_map', List.map_map]
    rfl
  rw [← hzip]
  rfl

theorem start_le (hasc : Ascending p) (hs : s ∈ p) : start p ≤ s.1 := by
  cases p with
  | nil => cases hs
  | cons a p =>
    rcases List.mem_cons.1 hs with rfl | hs
    · exact le_rfl
    · exact (List.pairwise_cons.1 hasc).1 s hs

theorem exists_start (hp : p ≠ []) : ∃ s ∈ p, s.1 = start p := by
  obtain ⟨a, p, rfl⟩ := List.exists_cons_of_ne_nil hp
  exact ⟨a, List.mem_cons_self, rfl⟩

theorem label_nonneg (s : Sample) : 0 ≤ label s := by
  unfold label
  split <;> norm_num

theorem label_le_one (s : Sample) : label s ≤ 1 := by
  unfold label
  split <;> norm_num

theorem mean_bounds (hp : p ≠ []) :
    0 ≤ Isotonic.mean label p ∧ Isotonic.mean label p ≤ 1 := by
  rw [le_mean_iff hp, mean_le_iff hp]
  exact ⟨excess_nonneg fun s _ => label_nonneg s, excess_nonpos fun s _ => label_le_one s⟩

end

end Calibration

end Clear
