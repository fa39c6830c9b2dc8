import Mathlib.Algebra.Group.Nat.Defs
import Mathlib.Data.List.Basic

/-!
# Row identifiers

Primary keys are 128-bit UUIDs. `Uuid.str` is their canonical text (`str(uuid)`), which storage
keys and version payloads embed; distinct identifiers have distinct texts (`Uuid.str_inj`).
-/

namespace Clear

abbrev Uuid := BitVec 128

-- A name for the proof, which every membership test of a list of identifiers mentions.
instance instLawfulBEqUuid : LawfulBEq Uuid := inferInstance

/-- A point of the UTC clock. -/
abbrev Timestamp := Nat

namespace Uuid

def hexDigits : List Char :=
  ['0', '1', '2', '3', '4', '5', '6', '7', '8', '9', 'a', 'b', 'c', 'd', 'e', 'f']

def hex : Nat → Nat → List Char
  | 0, _ => []
  | w + 1, n => hex w (n / 16) ++ [hexDigits.getD (n % 16) '0']

/-- The canonical `8-4-4-4-12` grouping of 32 digits. -/
def group (h : List Char) : List Char :=
  h.take 8 ++ '-' :: ((h.drop 8).take 4 ++ '-' :: ((h.drop 12).take 4 ++
    '-' :: ((h.drop 16).take 4 ++ '-' :: h.drop 20)))

def str (u : Uuid) : String := String.ofList (group (hex 32 u.toNat))

/-! ## Reading an identifier -/

def hexValue? (c : Char) : Option Nat := hexDigits.idxOf? c.toLower

def ungroup (c : List Char) : List Char :=
  c.take 8 ++ ((c.drop 9).take 4 ++ ((c.drop 14).take 4 ++ ((c.drop 19).take 4 ++ c.drop 24)))

def unhex (n : Nat) : List Char → Option Nat
  | [] => some n
  | c :: digits => (hexValue? c).bind fun v => unhex (16 * n + v) digits

def parse? (s : String) : Option Uuid :=
  let digits := ungroup s.toList
  if digits.length = 32 ∧ group digits = s.toList then
    (unhex 0 digits).map (BitVec.ofNat 128)
  else none

/-! ## Distinct identifiers have distinct texts -/

theorem hexDigit_inj {a b : Nat} (ha : a < 16) (hb : b < 16)
    (h : hexDigits.getD a '0' = hexDigits.getD b '0') : a = b := by
  have : ∀ i : Fin 16, ∀ j : Fin 16,
      hexDigits.getD i '0' = hexDigits.getD j '0' → i = j := by decide
  simpa using this ⟨a, ha⟩ ⟨b, hb⟩ h

theorem hex_length (w n : Nat) : (hex w n).length = w := by
  induction w generalizing n with
  | zero => rfl
  | succ w ih => simp [hex, ih]

theorem hex_inj {w m n : Nat} (hm : m < 16 ^ w) (hn : n < 16 ^ w) (h : hex w m = hex w n) :
    m = n := by
  induction w generalizing m n with
  | zero => omega
  | succ w ih =>
    obtain ⟨hq, hr⟩ := List.append_inj h (by simp [hex_length])
    rw [Nat.pow_succ] at hm hn
    have hdiv := ih (by omega) (by omega) hq
    have hmod := hexDigit_inj (Nat.mod_lt m (by decide)) (Nat.mod_lt n (by decide))
      (List.singleton_inj.1 hr)
    omega

theorem group_inj {h k : List Char} (hh : h.length = 32) (hk : k.length = 32)
    (e : group h = group k) : h = k := by
  unfold group at e
  obtain ⟨e1, e⟩ := List.append_inj e (by simp [hh, hk])
  obtain ⟨e2, e⟩ := List.append_inj (List.cons.inj e).2 (by simp [hh, hk])
  obtain ⟨e3, e⟩ := List.append_inj (List.cons.inj e).2 (by simp [hh, hk])
  obtain ⟨e4, e⟩ := List.append_inj (List.cons.inj e).2 (by simp [hh, hk])
  have e5 := (List.cons.inj e).2
  have split : ∀ l : List Char, l.take 8 ++ ((l.drop 8).take 4 ++ ((l.drop 12).take 4 ++
      ((l.drop 16).take 4 ++ l.drop 20))) = l := by
    intro l
    rw [show l.drop 20 = (l.drop 16).drop 4 by simp, List.take_append_drop,
      show l.drop 16 = (l.drop 12).drop 4 by simp, List.take_append_drop,
      show l.drop 12 = (l.drop 8).drop 4 by simp, List.take_append_drop, List.take_append_drop]
  rw [← split h, ← split k, e1, e2, e3, e4, e5]

theorem str_inj {u v : Uuid} : u.str = v.str ↔ u = v := by
  refine ⟨fun h => ?_, congrArg _⟩
  have hg := group_inj (hex_length _ _) (hex_length _ _) (String.ofList_inj.1 h)
  have hlt : ∀ w : Uuid, w.toNat < 16 ^ 32 := fun w => w.isLt
  exact BitVec.eq_of_toNat_eq (hex_inj (hlt u) (hlt v) hg)

theorem mem_hex {w n : Nat} {c : Char} (h : c ∈ hex w n) : c ∈ hexDigits := by
  induction w generalizing n with
  | zero => cases h
  | succ w ih =>
    rcases List.mem_append.1 h with h | h
    · exact ih h
    · have hdigit : ∀ i : Fin 16, hexDigits.getD i '0' ∈ hexDigits := by decide
      rw [List.mem_singleton.1 h]
      exact hdigit ⟨n % 16, Nat.mod_lt n (by decide)⟩

theorem mem_str {u : Uuid} {c : Char} (h : c ∈ u.str.toList) : c ∈ '-' :: hexDigits := by
  unfold str group at h
  rw [String.toList_ofList] at h
  have hdigit : ∀ {c}, c ∈ hex 32 u.toNat → c ∈ '-' :: hexDigits :=
    fun hc => List.mem_cons_of_mem _ (mem_hex hc)
  simp only [List.mem_append, List.mem_cons] at h
  rcases h with h | rfl | h | rfl | h | rfl | h | rfl | h
  · exact hdigit (List.mem_of_mem_take h)
  · exact List.mem_cons_self
  · exact hdigit (List.mem_of_mem_drop (List.mem_of_mem_take h))
  · exact List.mem_cons_self
  · exact hdigit (List.mem_of_mem_drop (List.mem_of_mem_take h))
  · exact List.mem_cons_self
  · exact hdigit (List.mem_of_mem_drop (List.mem_of_mem_take h))
  · exact List.mem_cons_self
  · exact hdigit (List.mem_of_mem_drop h)

/-! ## An identifier reads back -/

theorem drop_part {n : Nat} {part rest : List Char} (c : Char) (h : part.length = n) :
    (part ++ c :: rest).drop (n + 1) = rest := by
  subst h
  simp

theorem ungroup_group {h : List Char} (hh : h.length = 32) : ungroup (group h) = h := by
  have hd9 : (group h).drop 9 = (h.drop 8).take 4 ++ '-' :: ((h.drop 12).take 4 ++
      '-' :: ((h.drop 16).take 4 ++ '-' :: h.drop 20)) := drop_part '-' (by simp [hh])
  have hd14 : (group h).drop 14 = (h.drop 12).take 4 ++
      '-' :: ((h.drop 16).take 4 ++ '-' :: h.drop 20) := by
    rw [show 14 = 9 + 5 by rfl, ← List.drop_drop, hd9]
    exact drop_part '-' (by simp [hh])
  have hd19 : (group h).drop 19 = (h.drop 16).take 4 ++ '-' :: h.drop 20 := by
    rw [show 19 = 14 + 5 by rfl, ← List.drop_drop, hd14]
    exact drop_part '-' (by simp [hh])
  have hd24 : (group h).drop 24 = h.drop 20 := by
    rw [show 24 = 19 + 5 by rfl, ← List.drop_drop, hd19]
    exact drop_part '-' (by simp [hh])
  have htake : ∀ (part rest : List Char) (n : Nat), part.length = n →
      (part ++ rest).take n = part := by
    intro part rest n hn
    subst hn
    exact List.take_left
  unfold ungroup
  rw [hd9, hd14, hd19, hd24, group, htake _ _ 8 (by simp [hh]), htake _ _ 4 (by simp [hh]),
    htake _ _ 4 (by simp [hh]), htake _ _ 4 (by simp [hh])]
  rw [show h.drop 20 = (h.drop 16).drop 4 by simp, List.take_append_drop,
    show h.drop 16 = (h.drop 12).drop 4 by simp, List.take_append_drop,
    show h.drop 12 = (h.drop 8).drop 4 by simp, List.take_append_drop, List.take_append_drop]

theorem hexValue_digit {i : Nat} (hi : i < 16) : hexValue? (hexDigits.getD i '0') = some i := by
  have : ∀ i : Fin 16, hexValue? (hexDigits.getD i '0') = some i.val := by decide
  exact this ⟨i, hi⟩

theorem unhex_append {m : Nat} (h k : List Char) :
    unhex m (h ++ k) = (unhex m h).bind fun n => unhex n k := by
  induction h generalizing m with
  | nil => rfl
  | cons c h ih =>
    simp only [List.cons_append, unhex]
    cases hexValue? c with
    | none => rfl
    | some v => exact ih

theorem unhex_hex (m w n : Nat) : unhex m (hex w n) = some (m * 16 ^ w + n % 16 ^ w) := by
  induction w generalizing n with
  | zero => simp [hex, unhex, Nat.mod_one]
  | succ w ih =>
    rw [hex, unhex_append, ih, Option.bind_some]
    simp only [unhex, hexValue_digit (Nat.mod_lt n (by decide : 0 < 16)), Option.bind_some]
    rw [Nat.pow_succ, Nat.mul_comm (16 ^ w) 16, Nat.mod_mul]
    congr 1
    rw [Nat.mul_add, ← Nat.mul_assoc, ← Nat.mul_assoc, Nat.mul_comm 16 m]
    omega

@[simp] theorem parse_str (u : Uuid) : parse? u.str = some u := by
  have hlen : (hex 32 u.toNat).length = 32 := hex_length _ _
  have hchars : u.str.toList = group (hex 32 u.toNat) := by
    unfold str
    rw [String.toList_ofList]
  unfold parse?
  rw [hchars, ungroup_group hlen]
  dsimp only
  have hlt : u.toNat < 16 ^ 32 := u.isLt
  rw [if_pos ⟨hlen, rfl⟩, unhex_hex, Option.map_some, Nat.zero_mul, Nat.zero_add,
    Nat.mod_eq_of_lt hlt, BitVec.ofNat_toNat, BitVec.setWidth_eq]

theorem str_length (u : Uuid) : u.str.toList.length = 36 := by
  simp [str, group, hex_length]

end Uuid

end Clear
