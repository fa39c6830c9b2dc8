import Mathlib.Algebra.Order.Ring.Rat
import Mathlib.Data.List.Sort

/-!
# Redis lists and sorted sets

The commands on a list, whose head is its left end, and on a sorted set, whose members are distinct.
-/

namespace RedisCommands

variable {α : Type}

/-! ## Lists -/

def lpush (a : α) (l : List α) : List α := a :: l

def rpush (a : α) (l : List α) : List α := l ++ [a]

def brpop (l : List α) : Option (α × List α) := l.getLast?.map fun a => (a, l.dropLast)

theorem brpop_eq_some {l rest : List α} {a : α} (h : brpop l = some (a, rest)) :
    l = rest ++ [a] := by
  obtain ⟨b, hb, hpair⟩ := Option.map_eq_some_iff.1 h
  cases hpair
  exact (List.dropLast_append_getLast? a hb).symm

/-! ## Sorted sets -/

/-- The members with their scores. -/
structure ZSet (α : Type) where
  entries : List (α × Rat)
  distinct : (entries.map Prod.fst).Nodup

namespace ZSet

def empty : ZSet α := ⟨[], List.nodup_nil⟩

def members (z : ZSet α) : List α := z.entries.map Prod.fst

variable [DecidableEq α]

def zrem (z : ZSet α) (a : α) : ZSet α where
  entries := z.entries.filter (·.1 ≠ a)
  distinct := z.distinct.sublist (List.filter_sublist.map _)

@[simp] theorem members_zrem (z : ZSet α) (a : α) :
    (z.zrem a).members = z.members.filter (· ≠ a) := by
  unfold members zrem
  rw [List.filter_map]
  rfl

def zadd (z : ZSet α) (a : α) (score : Rat) : ZSet α where
  entries := (a, score) :: (z.zrem a).entries
  distinct := by
    have ha : a ∉ (z.zrem a).members := by simp
    exact List.nodup_cons.2 ⟨ha, (z.zrem a).distinct⟩

theorem members_zadd {z : ZSet α} {a : α} (ha : a ∉ z.members) (score : Rat) :
    (z.zadd a score).members = a :: z.members := by
  show a :: (z.zrem a).members = _
  rw [members_zrem, List.filter_eq_self.2]
  intro b hb
  have hne : b ≠ a := fun heq => ha (heq ▸ hb)
  simpa using hne

def rangeByScore (lex : α → α → Bool) (z : ZSet α) (min max : Rat) (num : Nat) : List α :=
  (((z.entries.filter fun e => min ≤ e.2 && e.2 ≤ max).insertionSort fun a b =>
    a.2 < b.2 ∨ a.2 = b.2 ∧ lex a.1 b.1 = true).take num).map Prod.fst

variable {lex : α → α → Bool} {z : ZSet α} {min max : Rat} {num : Nat}

omit [DecidableEq α] in
theorem subperm_rangeByScore : (rangeByScore lex z min max num).Subperm z.members := by
  unfold rangeByScore members
  refine List.Subperm.trans ((List.take_sublist ..).map _).subperm ?_
  exact (((List.perm_insertionSort ..).map _).subperm).trans (List.filter_sublist.map _).subperm

omit [DecidableEq α] in
theorem mem_of_mem_range {a : α} (h : a ∈ rangeByScore lex z min max num) : a ∈ z.members :=
  subperm_rangeByScore.subset h

omit [DecidableEq α] in
theorem nodup_range : (rangeByScore lex z min max num).Nodup := by
  have hrange : (rangeByScore lex z min max num).Subperm z.members := subperm_rangeByScore
  obtain ⟨l, hperm, hsub⟩ := hrange
  exact hperm.nodup_iff.1 (z.distinct.sublist hsub)

end ZSet

end RedisCommands
