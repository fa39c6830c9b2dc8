import Mathlib.Algebra.BigOperators.Group.List.Lemmas
import Mathlib.Algebra.Group.Nat.Defs
import Mathlib.Algebra.Order.BigOperators.GroupWithZero.List
import Mathlib.Algebra.Order.Floor.Defs
import Mathlib.Algebra.Order.Floor.Ring
import Mathlib.Algebra.Order.Ring.Rat
import Mathlib.Data.List.Basic
import Mathlib.Data.Rat.Floor
import Mathlib.Tactic.Linarith
import Mathlib.Tactic.Ring

/-!
# Rounding of exact numbers

`halfEven` is the nearest integer, and the even one of two that are equally near. It keeps integers
and the order, so it keeps integer bounds.
-/

namespace Rounding

/-- The nearest integer; halves go to the even neighbour. -/
def halfEven (x : Rat) : Int :=
  let rest := x - x.floor
  if rest < 1 / 2 ∨ (rest = 1 / 2 ∧ x.floor % 2 = 0) then x.floor else x.floor + 1

/-- The nearest number of that many decimal digits. -/
def toDigits (digits : Nat) (x : Rat) : Rat := halfEven (x * 10 ^ digits) / 10 ^ digits

theorem halfEven_intCast (n : Int) : halfEven n = n := by
  unfold halfEven
  rw [Rat.floor_intCast, sub_self]
  exact if_pos (.inl (by norm_num))

theorem floor_le_halfEven (x : Rat) : x.floor ≤ halfEven x := by
  unfold halfEven
  dsimp only
  split <;> omega

theorem halfEven_le_floor_add_one (x : Rat) : halfEven x ≤ x.floor + 1 := by
  unfold halfEven
  dsimp only
  split <;> omega

/-- Rounding keeps the order. -/
theorem halfEven_mono {x y : Rat} (h : x ≤ y) : halfEven x ≤ halfEven y := by
  rcases Int.lt_or_eq_of_le (Rat.floor_monotone h) with hlt | heq
  · have hx := halfEven_le_floor_add_one x
    have hy := floor_le_halfEven y
    omega
  · unfold halfEven
    rw [← heq]
    dsimp only
    split
    · split <;> omega
    next hx =>
      split
      next hy =>
        refine absurd ?_ hx
        rcases hy with hy | ⟨hy, heven⟩
        · exact .inl (by linarith)
        · rcases lt_or_eq_of_le (show x - x.floor ≤ 1 / 2 by linarith) with hlt | hhalf
          · exact .inl hlt
          · exact .inr ⟨hhalf, heven⟩
      · exact le_refl _

theorem halfEven_le {x : Rat} {n : Int} (h : x ≤ n) : halfEven x ≤ n :=
  halfEven_intCast n ▸ halfEven_mono h

theorem le_halfEven {x : Rat} {n : Int} (h : (n : Rat) ≤ x) : n ≤ halfEven x :=
  halfEven_intCast n ▸ halfEven_mono h

/-- A number of no digits after the point has none to lose. -/
theorem toDigits_intCast (digits : Nat) (n : Int) : toDigits digits n = n := by
  unfold toDigits
  have hscaled : (n : Rat) * 10 ^ digits = ((n * 10 ^ digits : Int) : Rat) := by push_cast; rfl
  rw [hscaled, halfEven_intCast]
  push_cast
  field_simp

theorem halfEven_eq_zero_iff {x : Rat} (hx : 0 ≤ x) : halfEven x = 0 ↔ x ≤ 1 / 2 := by
  have hfloor : 0 ≤ x.floor := Rat.le_floor_iff.2 (by simpa using hx)
  constructor
  · intro h
    have hle := floor_le_halfEven x
    have hzero : x.floor = 0 := by omega
    by_contra hlt
    unfold halfEven at h
    rw [hzero] at h
    dsimp only at h
    rw [Int.cast_zero, sub_zero, if_neg] at h
    · cases h
    · rintro (hless | ⟨heq, -⟩) <;> linarith
  · intro h
    have hzero : x.floor = 0 := by
      have hlt : x.floor < 1 := Rat.floor_lt_iff.2 (by push_cast; linarith)
      omega
    unfold halfEven
    rw [hzero]
    dsimp only
    rw [Int.cast_zero, sub_zero, if_pos]
    rcases lt_or_eq_of_le h with hlt | heq
    · exact .inl hlt
    · exact .inr ⟨heq, rfl⟩

theorem toDigits_eq_zero_iff {digits : Nat} {x : Rat} (hx : 0 ≤ x) :
    toDigits digits x = 0 ↔ x * 10 ^ digits ≤ 1 / 2 := by
  unfold toDigits
  rw [← halfEven_eq_zero_iff (by positivity), div_eq_zero_iff]
  simp

theorem abs_sub_halfEven_le (x : Rat) : |x - halfEven x| ≤ 1 / 2 := by
  have hlow : (x.floor : Rat) ≤ x := Rat.floor_le x
  have hhigh : x < x.floor + 1 := by exact_mod_cast Rat.lt_floor_add_one x
  unfold halfEven
  dsimp only
  split
  next h =>
    rw [abs_of_nonneg (by linarith)]
    rcases h with h | h <;> linarith
  next h =>
    have hhalf : 1 / 2 ≤ x - x.floor := not_lt.1 fun hlt => h (.inl hlt)
    push_cast
    rw [abs_of_nonpos (by linarith)]
    linarith

theorem abs_sub_toDigits_le (digits : Nat) (x : Rat) :
    |x - toDigits digits x| ≤ 1 / 2 / 10 ^ digits := by
  have hpow : (0 : Rat) < 10 ^ digits := by positivity
  have hscaled := abs_sub_halfEven_le (x * 10 ^ digits)
  have hshift : x - toDigits digits x = (x * 10 ^ digits - halfEven (x * 10 ^ digits)) /
      10 ^ digits := by
    unfold toDigits
    field_simp
  rw [hshift, abs_div, abs_of_pos hpow]
  exact div_le_div_of_nonneg_right hscaled hpow.le

theorem toDigits_nonneg {digits : Nat} {x : Rat} (hx : 0 ≤ x) : 0 ≤ toDigits digits x := by
  have hround : (0 : Int) ≤ halfEven (x * 10 ^ digits) :=
    le_halfEven (by push_cast; positivity)
  have hcast : (0 : Rat) ≤ halfEven (x * 10 ^ digits) := by exact_mod_cast hround
  unfold toDigits
  positivity

end Rounding

/-!
## Shares of what remains

Each of a list of shares takes its proportion of what the shares before it left. What is taken and
what is left make up the start (`sum_taken`); what is left does not depend on the order of the
shares (`rest_perm`), lies between zero and the start, and shrinks with every further share.
-/

namespace Headroom

def rest (start : Rat) (shares : List Rat) : Rat := shares.foldl (fun r s => r - r * s) start

/-- What each share takes. -/
def taken (start : Rat) : List Rat → List Rat
  | [] => []
  | s :: shares => start * s :: taken (start - start * s) shares

@[simp] theorem rest_nil (start : Rat) : rest start [] = start := rfl

@[simp] theorem rest_cons (start s : Rat) (shares : List Rat) :
    rest start (s :: shares) = rest (start - start * s) shares := rfl

theorem sum_taken (start : Rat) (shares : List Rat) :
    (taken start shares).sum = start - rest start shares := by
  induction shares generalizing start with
  | nil => simp [taken]
  | cons s shares ih =>
    rw [taken, List.sum_cons, ih, rest_cons]
    ring

/-- Every share leaves its complement. -/
theorem rest_eq_prod (start : Rat) (shares : List Rat) :
    rest start shares = start * (shares.map (1 - ·)).prod := by
  induction shares generalizing start with
  | nil => simp
  | cons s shares ih =>
    rw [rest_cons, ih, List.map_cons, List.prod_cons]
    ring

/-- The order of the shares does not matter to what remains. -/
theorem rest_perm (start : Rat) {shares shares' : List Rat} (h : shares.Perm shares') :
    rest start shares = rest start shares' := by
  rw [rest_eq_prod, rest_eq_prod, (h.map _).prod_eq]

theorem rest_nonneg {start : Rat} {shares : List Rat} (hstart : 0 ≤ start)
    (h : ∀ s ∈ shares, s ≤ 1) : 0 ≤ rest start shares := by
  rw [rest_eq_prod]
  refine mul_nonneg hstart (List.prod_nonneg fun x hx => ?_)
  obtain ⟨s, hs, rfl⟩ := List.mem_map.1 hx
  exact sub_nonneg.2 (h s hs)

theorem rest_le {start : Rat} {shares : List Rat} (hstart : 0 ≤ start)
    (h : ∀ s ∈ shares, 0 ≤ s ∧ s ≤ 1) : rest start shares ≤ start := by
  induction shares generalizing start with
  | nil => exact le_refl _
  | cons s shares ih =>
    obtain ⟨hs, hs'⟩ := h s List.mem_cons_self
    have hmul : start * s ≤ start * 1 := mul_le_mul_of_nonneg_left hs' hstart
    have hstep : rest (start - start * s) shares ≤ start - start * s :=
      ih (by linarith) fun t ht => h t (List.mem_cons_of_mem _ ht)
    have htaken := mul_nonneg hstart hs
    rw [rest_cons]
    linarith

/-- A further share leaves no more. -/
theorem rest_cons_le {start s : Rat} {shares : List Rat} (hstart : 0 ≤ start) (hs : 0 ≤ s)
    (h : ∀ t ∈ shares, t ≤ 1) : rest start (s :: shares) ≤ rest start shares := by
  have hrest := rest_nonneg hstart h
  have hstep : rest start (s :: shares) = rest start shares - s * rest start shares := by
    rw [rest_eq_prod, rest_eq_prod, List.map_cons, List.prod_cons]
    ring
  have htaken := mul_nonneg hs hrest
  rw [hstep]
  linarith

end Headroom

/-!
## Numbers of JavaScript

A JavaScript number is a double. Reading an integer rounds it to the nearest one (`toDouble`), and
printing an integer below 10²¹ shows as few significant digits as still name that double, padded with
zeros (`printed`). Both leave the integers below 2⁵³ alone (`printed_toDouble`).
-/

namespace Js

/-- The double nearest to a natural number, ties to even; overflow is left to `isFinite`. -/
def toDouble (n : Nat) : Nat :=
  let shift := Nat.log2 n + 1 - 53
  let unit := 2 ^ shift
  let q := n / unit
  let r := n % unit
  (if 2 * r < unit ∨ (2 * r = unit ∧ q % 2 = 0) then q else q + 1) * unit

def isFinite (d : Nat) : Bool := d < 2 ^ 1024

def shortAt (d j : Nat) : Option Nat :=
  let lo := d / 10 ^ j * 10 ^ j
  let hi := lo + 10 ^ j
  if toDouble lo = d then
    if toDouble hi = d ∧ hi - d < d - lo then some hi else some lo
  else if toDouble hi = d then some hi
  else none

/-- The decimal that `Number::toString` prints for an integer below 10²¹: one with as few significant
digits as possible. -/
def printed (d : Nat) : Nat := ((List.range 22).reverse.findSome? (shortAt d)).getD d

example : printed (2 ^ 60) = 1152921504606847000 := by decide +kernel

theorem toDouble_of_lt {n : Nat} (h : n < 2 ^ 53) : toDouble n = n := by
  have hlog : Nat.log2 n + 1 - 53 = 0 := by
    by_cases h0 : n = 0
    · subst h0
      decide
    · have := (Nat.log2_lt h0).2 h
      omega
  unfold toDouble
  rw [hlog]
  simp only [Nat.pow_zero, Nat.mod_one, Nat.div_one]
  simp

/-- Rounding does not lead below 2⁵³. -/
theorem le_toDouble {n : Nat} (h : 2 ^ 53 ≤ n) : 2 ^ 53 ≤ toDouble n := by
  have h0 : n ≠ 0 := by
    have : 0 < 2 ^ 53 := by decide
    omega
  have hlog : 53 ≤ Nat.log2 n := (Nat.le_log2 h0).2 h
  obtain ⟨k, hk⟩ := Nat.exists_eq_add_of_le hlog
  have hunit : Nat.log2 n + 1 - 53 = k + 1 := by omega
  have hself : 2 ^ 53 * 2 ^ k ≤ n := by
    rw [← Nat.pow_add, ← hk]
    exact Nat.log2_self_le h0
  -- The significand has 53 bits.
  have hq : 2 ^ 52 ≤ n / 2 ^ (k + 1) := by
    rw [Nat.le_div_iff_mul_le (Nat.two_pow_pos _)]
    calc 2 ^ 52 * 2 ^ (k + 1) = 2 ^ 53 * 2 ^ k := by
          rw [← Nat.pow_add, ← Nat.pow_add]
          exact congrArg (2 ^ ·) (by omega)
      _ ≤ n := hself
  have hbig : 2 ^ 53 ≤ n / 2 ^ (k + 1) * 2 ^ (k + 1) := by
    calc 2 ^ 53 = 2 ^ 52 * 2 ^ 1 := by decide
      _ ≤ n / 2 ^ (k + 1) * 2 ^ (k + 1) :=
        Nat.mul_le_mul hq (Nat.pow_le_pow_right (by decide) (by omega))
  unfold toDouble
  rw [hunit]
  dsimp only
  refine hbig.trans (Nat.mul_le_mul_right _ ?_)
  split <;> omega

theorem eq_of_toDouble {n d : Nat} (hd : d < 2 ^ 53) (h : toDouble n = d) : n = d := by
  by_cases hn : n < 2 ^ 53
  · rwa [toDouble_of_lt hn] at h
  · have := le_toDouble (Nat.le_of_not_lt hn)
    omega

theorem shortAt_of_lt {d j c : Nat} (hd : d < 2 ^ 53) (h : shortAt d j = some c) : c = d := by
  unfold shortAt at h
  dsimp only at h
  split at h
  next hlo =>
    split at h <;> cases h
    next hhi => exact eq_of_toDouble hd hhi.1
    next => exact eq_of_toDouble hd hlo
  next =>
    split at h <;> cases h
    next hhi => exact eq_of_toDouble hd hhi

theorem printed_toDouble {n : Nat} (h : n < 2 ^ 53) : printed (toDouble n) = n := by
  rw [toDouble_of_lt h]
  unfold printed
  cases hfind : (List.range 22).reverse.findSome? (shortAt n) with
  | none => rfl
  | some c =>
    obtain ⟨j, -, hj⟩ := List.exists_of_findSome?_eq_some hfind
    exact shortAt_of_lt h hj

end Js
