import Clear.Core.Stdlib

/-!
# Layout results

`LayoutParser` (`app/ai/parsers/layout.py`) maps the per-page results of the layout service into the
elements of a document. A payload is what `json.loads` returned. Coordinates are exact rationals.
-/

namespace Clear

/-- What leaves the mapping of a payload instead of a result. -/
inductive LayoutError where
  /-- The payload is not shaped as the service's are: an `AttributeError`, a `KeyError`, a
  `TypeError`, a `ValueError` or an `OverflowError`. -/
  | malformed
  /-- A model refused a value, such as a page number below 1. -/
  | validation
  /-- `ParserError`: there were no pages. -/
  | noPages
  deriving DecidableEq, Repr

structure Coordinates where
  pageNumber : Int
  x : Rat
  y : Rat
  width : Rat
  height : Rat
  pageWidth : Option Rat := none
  pageHeight : Option Rat := none
  deriving DecidableEq

namespace Layout

variable (std : Stdlib)

/-! ## Reading a payload -/

def getOf (v : Value) (key : String) : Except LayoutError Value :=
  match v with
  | .dict d => .ok (Value.get d key)
  | _ => .error .malformed

def iterOr (v : Value) : Except LayoutError (List Value) :=
  match (v.or (.list [])).iter with
  | some items => .ok items
  | none => .error .malformed

def float (v : Value) : Except LayoutError Rat := (v.toFloat std).mapError fun _ => .malformed

def int (v : Value) : Except LayoutError Int :=
  match v.toInt? with
  | some n => .ok n
  | none => .error .malformed

def floats (v : Value) : Except LayoutError (List Rat) :=
  match v with
  | .list l => l.mapM (float std)
  | _ => .ok []

/-! ## Geometry -/

def pointsPerInch : Rat := 72

def scale (unit : String) : Rat := if unit = "inch" ∨ unit = "inches" then pointsPerInch else 1

def pageSize (page : ValueDict) : Except LayoutError (Rat × Rat × String) := do
  let unit := std.lower (((Value.get page "unit").or (.str "inch")).text std)
  let width ← float std ((Value.get page "width").or (.float (17 / 2)))
  let height ← float std ((Value.get page "height").or (.float 11))
  return (Rounding.toDigits 2 (width * scale unit), Rounding.toDigits 2 (height * scale unit), unit)

/-- `values[0::2]`. -/
def everyOther : List Rat → List Rat
  | [] => []
  | [x] => [x]
  | x :: _ :: rest => x :: everyOther rest

def minOf (xs : List Rat) : Rat := xs.foldl min (xs.headD 0)

def maxOf (xs : List Rat) : Rat := xs.foldl max (xs.headD 0)

/-- `Coordinates(...)`, which refuses a page below 1 and a negative size. -/
def checked (box : Coordinates) : Except LayoutError Coordinates :=
  if 1 ≤ box.pageNumber ∧ 0 ≤ box.width ∧ 0 ≤ box.height then .ok box else .error .validation

/-- `_coordinates`: a four-corner polygon as a bounding box in points, if there is one. -/
def coordinates (polygon : List Rat) (pageNumber : Int) (pageWidth pageHeight : Rat)
    (unit : String) : Except LayoutError (Option Coordinates) :=
  if polygon.length < 8 then .ok none
  else
    let corners := (polygon.take 8).map (· * scale unit)
    let xs := everyOther corners
    let ys := everyOther (corners.drop 1)
    let x := minOf xs
    let y := minOf ys
    (checked
      { pageNumber
        x := Rounding.toDigits 2 x
        y := Rounding.toDigits 2 y
        width := Rounding.toDigits 2 (maxOf xs - x)
        height := Rounding.toDigits 2 (maxOf ys - y)
        pageWidth := some pageWidth
        pageHeight := some pageHeight }).map some

end Layout

open Layout (minOf maxOf checked) in
def Coordinates.merge (boxes : List Coordinates) : Except LayoutError (Option Coordinates) :=
  match boxes with
  | [] => .ok none
  | first :: _ =>
    let samePage := boxes.filter (·.pageNumber = first.pageNumber)
    let left := minOf (samePage.map (·.x))
    let top := minOf (samePage.map (·.y))
    let right := maxOf (samePage.map fun box => box.x + box.width)
    let bottom := maxOf (samePage.map fun box => box.y + box.height)
    (checked
      { pageNumber := first.pageNumber
        x := left
        y := top
        width := right - left
        height := bottom - top
        pageWidth := first.pageWidth
        pageHeight := first.pageHeight }).map some

end Clear
