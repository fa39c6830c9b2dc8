import Clear.Core.Text
import Clear.Core.Value
import Clear.Lib.CommonBlocks
import Clear.Lib.Rounding

/-!
# What the standard library knows

The Unicode tables, the texts of values and the reading of numbers: parameters of the functions that
use them. Conversions to `float` are given here as far as they can raise.
-/

/-!
## The calendar

The days of `datetime.date`, by ordinal: `ofYmd?` is `date(year, month, day).toordinal()`, absent
where the constructor raises a `ValueError`.
-/

namespace Clear

namespace Date

def isLeap (year : Nat) : Bool := year % 4 = 0 && (year % 100 ≠ 0 || year % 400 = 0)

def daysInMonth (year month : Nat) : Nat :=
  if month = 2 then if isLeap year then 29 else 28
  else if month ∈ [4, 6, 9, 11] then 30
  else 31

def daysThrough (year : Nat) : (months : Nat) → Nat
  | 0 => 0
  | month + 1 => daysThrough year month + daysInMonth year (month + 1)

def daysBefore (year : Nat) : Nat :=
  (year - 1) * 365 + (year - 1) / 4 - (year - 1) / 100 + (year - 1) / 400

def maxOrdinal : Nat := 3652059

def InCalendar (d : Date) : Prop := 1 ≤ d ∧ d ≤ maxOrdinal

def ofYmd? (year month day : Nat) : Option Date :=
  if 1 ≤ year ∧ year ≤ 9999 ∧ 1 ≤ month ∧ month ≤ 12 ∧ 1 ≤ day ∧ day ≤ daysInMonth year month then
    some (daysBefore year + daysThrough year (month - 1) + day)
  else none

/-- `d + timedelta(days=days)`, absent where the `timedelta` or the sum raises an `OverflowError`. -/
def addDays? (d : Date) (days : Int) : Option Date :=
  if days.natAbs ≤ 999999999 ∧ 1 ≤ (d : Int) + days ∧ (d : Int) + days ≤ maxOrdinal then
    some ((d : Int) + days).toNat
  else none

theorem addDays?_eq_some {d last : Date} {days : Int} (h : d.addDays? days = some last) :
    (last : Int) = d + days := by
  unfold addDays? at h
  split at h
  · cases h
    omega
  · cases h

theorem addDays?_isSome {d : Date} {days : Int} : (d.addDays? days).isSome = true ↔
    days.natAbs ≤ 999999999 ∧ 1 ≤ (d : Int) + days ∧ (d : Int) + days ≤ maxOrdinal := by
  unfold addDays?
  split <;> simp_all

example : ofYmd? 9999 12 31 = some maxOrdinal := by decide

end Date

end Clear

namespace Clear

/-- The parts of the standard library that are not computed here. -/
structure Stdlib where
  lower : String → String
  upper : String → String
  isAlpha : Char → Bool
  /-- `str(v)` of a value that is no text. -/
  repr : Value → String
  isoformat : Date → String
  /-- The number that `float` reads from a text. -/
  parseFloat : String → Option Rat
  /-- `SequenceMatcher(None, a, b, autojunk=False).get_matching_blocks()`. -/
  matchingBlocks : List String → List String → List CommonBlocks.Block

def Stdlib.ascii : Stdlib where
  lower := Text.lower
  upper := id
  isAlpha := Char.isAlpha
  repr _ := ""
  isoformat _ := ""
  parseFloat _ := none
  matchingBlocks _ _ := []

/-- Why `float(v)` raises. -/
inductive FloatError where
  | typeError | valueError | overflowError
  deriving DecidableEq, Repr

namespace Value

/-- The first positive integer that rounds to infinity: halfway to `2 ^ 1024`. -/
def floatBound : Nat := 2 ^ 1024 - 2 ^ 970

def nearest (n : Int) : Rat := if 0 ≤ n then Js.toDouble n.natAbs else -(Js.toDouble n.natAbs : Rat)

def toFloat (std : Stdlib) : Value → Except FloatError Rat
  | bool b => .ok (if b then 1 else 0)
  | int n => if n.natAbs < floatBound then .ok (nearest n) else .error .overflowError
  | float x => .ok x
  | str s =>
    match std.parseFloat s with
    | some x => .ok x
    | none => .error .valueError
  | _ => .error .typeError

/-- `int(v)`, absent where it raises a `TypeError` or a `ValueError`. -/
def toInt? : Value → Option Int
  | bool b => some (if b then 1 else 0)
  | int n => some n
  | float x => some (x.num.tdiv x.den)
  | str s => Text.toInt? s
  | _ => none

def text (std : Stdlib) (v : Value) : String := v.toStr std.repr

def real? : Value → Option Rat
  | int n => some n
  | float x => some x
  | _ => none

end Value

end Clear
