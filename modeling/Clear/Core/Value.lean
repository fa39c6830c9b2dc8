import Mathlib.Data.List.Basic

/-!
# Python values of decoded JSON

What `json.loads` returns: the value of a clause attribute, of a field of a model response, of a
`jsonb` column. `truthy` is the truth value that `or`, `if` and `bool` read, `get` is `dict.get`.
-/

namespace Clear

/-- A day, by its proleptic Gregorian ordinal (`date.toordinal`). -/
abbrev Date := Nat

/-- A decoded JSON value. A `float` is an exact rational: not-a-number and the infinities are not
JSON. -/
inductive Value where
  | null
  | bool (b : Bool)
  | int (n : Int)
  | float (x : Rat)
  | str (s : String)
  | list (l : List Value)
  | dict (d : List (String × Value))

abbrev ValueDict := List (String × Value)

namespace Value

def truthy : Value → Bool
  | null => false
  | bool b => b
  | int n => n ≠ 0
  | float x => x ≠ 0
  | str s => s ≠ ""
  | list l => !l.isEmpty
  | dict d => !d.isEmpty

def or (v w : Value) : Value := if v.truthy then v else w

/-- `v is None`. -/
def isNull : Value → Bool
  | null => true
  | _ => false

def isFalse : Value → Bool
  | bool false => true
  | _ => false

def isTrue : Value → Bool
  | bool true => true
  | _ => false

def isStr (s : String) : Value → Bool
  | str t => t = s
  | _ => false

/-- Whether `v` can stand in a set: `hash` raises a `TypeError` for lists and dicts. -/
def hashable : Value → Bool
  | list _ | dict _ => false
  | _ => true

def get (d : ValueDict) (key : String) : Value := (d.lookup key).getD null

/-- `str(v)`, given the text of the values that are not texts. -/
def toStr (repr : Value → String) : Value → String
  | str s => s
  | v => repr v

/-- What `for x in v` yields: the items of a list, the characters of a text, the keys of a dict. The
other values are not iterable. -/
def iter : Value → Option (List Value)
  | list l => some l
  | str s => some (s.toList.map fun c => str (String.singleton c))
  | dict d => some (d.map fun e => str e.1)
  | _ => none

def asDict? : Value → Option ValueDict
  | dict d => some d
  | _ => none

/-- `v` when it is a text. -/
def asStr? : Value → Option String
  | str s => some s
  | _ => none

def ofStr? : Option String → Value
  | none => null
  | some s => str s

@[simp] theorem asStr?_ofStr? (s : Option String) : (ofStr? s).asStr? = s := by
  cases s <;> rfl

def ofInt? : Option Int → Value
  | none => null
  | some n => int n

def ofStrs (l : List String) : Value := list (l.map str)

theorem isNull_eq_true {v : Value} : v.isNull = true ↔ v = null := by
  cases v <;> simp [isNull]

theorem or_eq_null {v w : Value} : v.or w = null ↔ v.truthy = false ∧ w = null := by
  unfold or
  split
  next h =>
    constructor
    · intro hv
      subst hv
      exact absurd h (by simp [truthy])
    · intro hv
      exact absurd (h.symm.trans hv.1) (by simp)
  next h => simp [h]

/-! ## Equality -/

def num? : Value → Option Rat
  | bool b => some (if b then 1 else 0)
  | int n => some n
  | float x => some x
  | _ => none

mutual

/-- `v == w`. The entries of two dicts are compared in order, which is no part of `==`. -/
def eq : Value → Value → Bool
  | list l, list m => eqList l m
  | dict d, dict e => eqDict d e
  | str s, str t => s = t
  | null, null => true
  | v, w =>
    match v.num?, w.num? with
    | some x, some y => x = y
    | _, _ => false

def eqList : List Value → List Value → Bool
  | [], [] => true
  | v :: l, w :: m => eq v w && eqList l m
  | _, _ => false

def eqDict : ValueDict → ValueDict → Bool
  | [], [] => true
  | (j, v) :: d, (k, w) :: e => j = k && eq v w && eqDict d e
  | _, _ => false

end

mutual

def numbers : Value → List Value
  | int n => [int n]
  | float x => [float x]
  | list l => numbersList l
  | dict d => numbersDict d
  | _ => []

def numbersList : List Value → List Value
  | [] => []
  | v :: l => numbers v ++ numbersList l

def numbersDict : ValueDict → List Value
  | [] => []
  | (_, v) :: d => numbers v ++ numbersDict d

end

end Value

end Clear
