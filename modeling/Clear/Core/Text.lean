import Mathlib.Data.List.Basic
import Mathlib.Data.List.TakeWhile

/-!
# Python text

The operations of `str` that the platform relies on, on the characters of a string: what counts as
white space, `strip` and `split`.
-/

namespace Clear

namespace Text

/-- `str.isspace` of one character. -/
def isSpace (c : Char) : Bool :=
  let n := c.toNat
  (0x09 ≤ n && n ≤ 0x0D) || (0x1C ≤ n && n ≤ 0x20) || n = 0x85 || n = 0xA0 || n = 0x1680 ||
    (0x2000 ≤ n && n ≤ 0x200A) || n = 0x2028 || n = 0x2029 || n = 0x202F || n = 0x205F ||
    n = 0x3000

/-- Drop the characters that satisfy `p` at both ends. -/
def trim (p : Char → Bool) (s : String) : String :=
  String.ofList ((s.toList.dropWhile p).reverse.dropWhile p).reverse

theorem dropWhile_eq_self {p : Char → Bool} {l : List Char}
    (h : ∀ c, l.head? = some c → p c = false) : l.dropWhile p = l := by
  cases l with
  | nil => rfl
  | cons c l => rw [List.dropWhile_cons_of_neg (by simp [h c rfl])]

theorem head_dropWhile {p : Char → Bool} {l : List Char} {c : Char}
    (h : (l.dropWhile p).head? = some c) : p c = false := by
  induction l with
  | nil => cases h
  | cons a l ih =>
    by_cases ha : p a = true
    · rw [List.dropWhile_cons_of_pos ha] at h
      exact ih h
    · rw [List.dropWhile_cons_of_neg ha] at h
      cases h
      simpa using ha

theorem trim_eq_self {p : Char → Bool} {s : String} (h : ∀ c ∈ s.toList, p c = false) :
    trim p s = s := by
  have hstart : s.toList.dropWhile p = s.toList :=
    dropWhile_eq_self fun c hc => h c (List.mem_of_mem_head? hc)
  have hend : s.toList.reverse.dropWhile p = s.toList.reverse :=
    dropWhile_eq_self fun c hc => h c (List.mem_reverse.1 (List.mem_of_mem_head? hc))
  unfold trim
  rw [hstart, hend, List.reverse_reverse, String.ofList_toList]

/-- What is cut off satisfies `p`. -/
theorem exists_trim (p : Char → Bool) (s : String) :
    ∃ before after, s.toList = before ++ ((trim p s).toList ++ after) ∧
      (∀ c ∈ before, p c = true) ∧ ∀ c ∈ after, p c = true := by
  have hstart := List.takeWhile_append_dropWhile (p := p) (l := s.toList)
  have hend := congrArg List.reverse
    (List.takeWhile_append_dropWhile (p := p) (l := (s.toList.dropWhile p).reverse))
  rw [List.reverse_append, List.reverse_reverse] at hend
  refine ⟨s.toList.takeWhile p, ((s.toList.dropWhile p).reverse.takeWhile p).reverse, ?_,
    fun c hc => List.mem_takeWhile_imp hc,
    fun c hc => List.mem_takeWhile_imp (List.mem_reverse.1 hc)⟩
  unfold trim
  rw [String.toList_ofList, hend, hstart]

theorem trim_trim (p : Char → Bool) (s : String) : trim p (trim p s) = trim p s := by
  have hstart : ∀ c, (((s.toList.dropWhile p).reverse.dropWhile p).reverse).head? = some c →
      p c = false := by
    intro c hc
    -- What is left after the second cut starts as what was left after the first.
    have hsuffix := List.dropWhile_suffix p (l := (s.toList.dropWhile p).reverse)
    have hstarts := (List.reverse_prefix.2 hsuffix)
    rw [List.reverse_reverse] at hstarts
    obtain ⟨rest, hrest⟩ := hstarts
    refine head_dropWhile (l := s.toList) ?_
    rw [← hrest, List.head?_append, hc]
    rfl
  have hend : ∀ c, ((s.toList.dropWhile p).reverse.dropWhile p).head? = some c → p c = false :=
    fun c hc => head_dropWhile hc
  unfold trim
  rw [String.toList_ofList, dropWhile_eq_self hstart, List.reverse_reverse, dropWhile_eq_self hend]

theorem length_trim_le (p : Char → Bool) (s : String) : (trim p s).length ≤ s.length := by
  unfold trim
  rw [String.length_ofList, List.length_reverse, ← String.length_toList]
  have hend := (List.dropWhile_suffix p (l := (s.toList.dropWhile p).reverse)).length_le
  have hstart := (List.dropWhile_suffix p (l := s.toList)).length_le
  rw [List.length_reverse] at hend
  exact Nat.le_trans hend hstart

def strip (s : String) : String := trim isSpace s

def isBlank (s : String) : Bool := s.toList.all isSpace

def wordsFrom : (word chars : List Char) → List String
  | [], [] => []
  | word, [] => [String.ofList word.reverse]
  | word, c :: chars =>
    if isSpace c then
      if word.isEmpty then wordsFrom [] chars
      else String.ofList word.reverse :: wordsFrom [] chars
    else wordsFrom (c :: word) chars

def split (s : String) : List String := wordsFrom [] s.toList

def take (n : Nat) (s : String) : String := String.ofList (s.toList.take n)

theorem take_of_length_le {n : Nat} {s : String} (h : s.length ≤ n) : take n s = s := by
  unfold take
  rw [List.take_of_length_le (by rwa [String.length_toList]), String.ofList_toList]

theorem length_take_le (n : Nat) (s : String) : (take n s).length ≤ n := by
  unfold take
  rw [String.length_ofList]
  exact List.length_take_le n _

example : split "  a b\n c " = ["a", "b", "c"] := by decide

def zeros : List Nat :=
  [0x30, 0x660, 0x6F0, 0x7C0, 0x966, 0x9E6, 0xA66, 0xAE6, 0xB66, 0xBE6, 0xC66, 0xCE6, 0xD66, 0xDE6,
    0xE50, 0xED0, 0xF20, 0x1040, 0x1090, 0x17E0, 0x1810, 0x1946, 0x19D0, 0x1A80, 0x1A90, 0x1B50,
    0x1BB0, 0x1C40, 0x1C50, 0xA620, 0xA8D0, 0xA900, 0xA9D0, 0xA9F0, 0xAA50, 0xABF0, 0xFF10,
    0x104A0, 0x10D30, 0x11066, 0x110F0, 0x11136, 0x111D0, 0x112F0, 0x11450, 0x114D0, 0x11650,
    0x116C0, 0x11730, 0x118E0, 0x11950, 0x11C50, 0x11D50, 0x11DA0, 0x16A60, 0x16AC0, 0x16B50,
    0x1D7CE, 0x1D7D8, 0x1D7E2, 0x1D7EC, 0x1D7F6, 0x1E140, 0x1E2F0, 0x1E950, 0x1FBF0]

def isDecimal (c : Char) : Bool := zeros.any fun first => first ≤ c.toNat && c.toNat ≤ first + 9

/-- `int(c)` of one character. -/
def digit? (c : Char) : Option Nat :=
  (zeros.find? fun first => first ≤ c.toNat && c.toNat ≤ first + 9).map (c.toNat - ·)

/-- The number of a run of digits, where an underscore may stand between two of them. -/
def digitsFrom : (value : Nat) → (afterDigit : Bool) → List Char → Option Nat
  | value, afterDigit, [] => if afterDigit then some value else none
  | value, afterDigit, c :: chars =>
    match digit? c with
    | some d => digitsFrom (value * 10 + d) true chars
    | none => if afterDigit && c == '_' then digitsFrom value false chars else none

/-- `int(s)`, absent where it raises a `ValueError`: more than 4300 digits are refused as well. -/
def toInt? (s : String) : Option Int :=
  let (negative, digits) :=
    match (strip s).toList with
    | '-' :: chars => (true, chars)
    | '+' :: chars => (false, chars)
    | chars => (false, chars)
  if 4300 < (digits.filter (· != '_')).length then none
  else (digitsFrom 0 false digits).map fun n => if negative then -(n : Int) else n

example : toInt? " -1_000 " = some (-1000) := by decide

/-- `str.lower` of one character, as far as it yields ASCII: the Kelvin sign and the dotted capital I
are the only letters outside ASCII whose lower case has an ASCII letter. -/
def lowerChar (c : Char) : List Char :=
  if c.toNat = 0x212A then ['k']
  else if c.toNat = 0x130 then ['i', Char.ofNat 0x307]
  else [c.toLower]

def lower (s : String) : String := String.ofList (s.toList.flatMap lowerChar)

def contains (sub s : String) : Bool := s.toList.tails.any (sub.toList.isPrefixOf ·)

/-- `f"{x:.0%}"`: the nearest percentage, a half to the even side. -/
def percent (x : Rat) : String :=
  let whole := (100 * x).floor
  let rest := 100 * x - whole
  let rounded :=
    if rest < 1 / 2 then whole
    else if 1 / 2 < rest then whole + 1
    else if whole % 2 = 0 then whole else whole + 1
  toString rounded ++ "%"

def startsWith (start s : String) : Bool := start.toList.isPrefixOf s.toList

def endsWith (stop s : String) : Bool := stop.toList.isSuffixOf s.toList

def partsFrom (sep : Char) : (part chars : List Char) → List String
  | part, [] => [String.ofList part.reverse]
  | part, c :: chars =>
    if c = sep then String.ofList part.reverse :: partsFrom sep [] chars
    else partsFrom sep (c :: part) chars

def splitOn (sep : Char) (s : String) : List String := partsFrom sep [] s.toList

/-- `s.rsplit(sep, 1)`: what stands before and after the last separator, if there is one. -/
def rsplit1 (sep : Char) (s : String) : Option (String × String) :=
  let tail := s.toList.reverse
  if sep ∈ tail then
    some (String.ofList ((tail.dropWhile (· ≠ sep)).drop 1).reverse,
      String.ofList (tail.takeWhile (· ≠ sep)).reverse)
  else none

def replaceRuns (keep : Char → Bool) (mark : Char) : (inRun : Bool) → List Char → List Char
  | _, [] => []
  | inRun, c :: chars =>
    if keep c then c :: replaceRuns keep mark false chars
    else if inRun then replaceRuns keep mark true chars
    else mark :: replaceRuns keep mark true chars

example : rsplit1 '.' "a.b.pdf" = some ("a.b", "pdf") := by decide

/-! ## Numbers in texts -/

/-- A text that starts with a number, and goes on with no digit, says which number it is. -/
theorem toDigits_inj {i j : Nat} {x y : List Char}
    (hx : ∀ c, x.head? = some c → c.isDigit = false)
    (hy : ∀ c, y.head? = some c → c.isDigit = false)
    (h : Nat.toDigits 10 i ++ x = Nat.toDigits 10 j ++ y) : i = j := by
  have hdigits : ∀ (n : Nat) (z : List Char), (∀ c, z.head? = some c → c.isDigit = false) →
      (Nat.toDigits 10 n ++ z).takeWhile Char.isDigit = Nat.toDigits 10 n := by
    intro n z hz
    rw [List.takeWhile_append_of_pos fun c hc =>
      Nat.isDigit_of_mem_toDigits (by decide) (by decide) hc]
    cases z with
    | nil => rw [List.takeWhile_nil, List.append_nil]
    | cons c z => rw [List.takeWhile_cons_of_neg (by simp [hz c rfl]), List.append_nil]
  have htake := congrArg (List.takeWhile Char.isDigit) h
  rw [hdigits i x hx, hdigits j y hy] at htake
  have hvalue := congrArg (Nat.ofDigitChars 10 · 0) htake
  exact (Nat.ofDigitChars_ten_toDigits.symm.trans hvalue).trans Nat.ofDigitChars_ten_toDigits

end Text

end Clear
