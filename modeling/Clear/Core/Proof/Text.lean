import Clear.Core.Text

/-!
# Parts, runs and ends of texts

How `split`, the replacement of runs and `strip` act on a text that is put together from two parts.
-/

namespace Clear

namespace Text

/-! ## Parts and runs -/

theorem partsFrom_of_notMem {sep : Char} {chars : List Char} (h : sep ∉ chars) (part : List Char) :
    partsFrom sep part chars = [String.ofList (part.reverse ++ chars)] := by
  induction chars generalizing part with
  | nil => rw [partsFrom, List.append_nil]
  | cons c chars ih =>
    obtain ⟨hc, hrest⟩ := not_or.1 (mt List.mem_cons.2 h)
    rw [partsFrom, if_neg (Ne.symm hc), ih hrest, List.reverse_cons, List.append_assoc]
    rfl

theorem partsFrom_append_cons {sep : Char} {s : List Char} (h : sep ∉ s) (part chars : List Char) :
    partsFrom sep part (s ++ sep :: chars) =
      String.ofList (part.reverse ++ s) :: partsFrom sep [] chars := by
  induction s generalizing part with
  | nil => rw [List.nil_append, partsFrom, if_pos rfl, List.append_nil]
  | cons c s ih =>
    obtain ⟨hc, hrest⟩ := not_or.1 (mt List.mem_cons.2 h)
    rw [List.cons_append, partsFrom, if_neg (Ne.symm hc), ih hrest, List.reverse_cons,
      List.append_assoc]
    rfl

theorem partsFrom_ne_nil (sep : Char) (part chars : List Char) : partsFrom sep part chars ≠ [] := by
  induction chars generalizing part with
  | nil => exact List.cons_ne_nil _ _
  | cons c chars ih =>
    rw [partsFrom]
    split
    · exact List.cons_ne_nil _ _
    · exact ih _

theorem mem_partsFrom {sep : Char} {part chars : List Char} {s : String}
    (h : s ∈ partsFrom sep part chars) (hpart : sep ∉ part) :
    sep ∉ s.toList ∧ ∀ c ∈ s.toList, c ∈ part ∨ c ∈ chars := by
  induction chars generalizing part with
  | nil =>
    rw [partsFrom, List.mem_singleton] at h
    rw [h, String.toList_ofList]
    exact ⟨by simpa using hpart, fun c hc => .inl (List.mem_reverse.1 hc)⟩
  | cons a chars ih =>
    rw [partsFrom] at h
    split at h
    next ha =>
      rcases List.mem_cons.1 h with rfl | h
      · rw [String.toList_ofList]
        exact ⟨by simpa using hpart, fun c hc => .inl (List.mem_reverse.1 hc)⟩
      · obtain ⟨hsep, hall⟩ := ih h (by simp)
        exact ⟨hsep, fun c hc => .inr (List.mem_cons_of_mem a ((hall c hc).resolve_left (by simp)))⟩
    next ha =>
      obtain ⟨hsep, hall⟩ := ih h fun hin => (List.mem_cons.1 hin).elim (Ne.symm ha) hpart
      refine ⟨hsep, fun c hc => ?_⟩
      rcases hall c hc with hin | hin
      · rcases List.mem_cons.1 hin with rfl | hin
        · exact .inr List.mem_cons_self
        · exact .inl hin
      · exact .inr (List.mem_cons_of_mem a hin)

theorem getLastD_partsFrom_append {sep : Char} {t : List Char} (h : sep ∉ t)
    (part chars : List Char) (d : String) :
    (partsFrom sep part (chars ++ t)).getLastD d =
      (partsFrom sep part chars).getLastD d ++ String.ofList t := by
  induction chars generalizing part d with
  | nil =>
    rw [List.nil_append, partsFrom_of_notMem h, partsFrom]
    exact String.ofList_append
  | cons c chars ih =>
    rw [List.cons_append, partsFrom, partsFrom]
    split
    · rw [List.getLastD_cons, List.getLastD_cons]
      exact ih [] _
    · exact ih _ d

theorem replaceRuns_append_cons {keep : Char → Bool} {mark c : Char} (hc : keep c = true)
    (inRun : Bool) (s t : List Char) :
    replaceRuns keep mark inRun (s ++ c :: t) =
      replaceRuns keep mark inRun s ++ c :: replaceRuns keep mark false t := by
  induction s generalizing inRun with
  | nil =>
    rw [List.nil_append, replaceRuns.eq_2, if_pos hc, replaceRuns.eq_1, List.nil_append]
  | cons a s ih =>
    rw [List.cons_append, replaceRuns, replaceRuns]
    split
    · rw [ih, List.cons_append]
    · split
      · exact ih true
      · rw [ih, List.cons_append]

theorem replaceRuns_eq_self {keep : Char → Bool} {mark : Char} {s : List Char}
    (h : ∀ c ∈ s, keep c = true) : replaceRuns keep mark false s = s := by
  induction s with
  | nil => rfl
  | cons a s ih =>
    rw [replaceRuns, if_pos (h a List.mem_cons_self), ih fun c hc => h c (List.mem_cons_of_mem a hc)]

theorem rsplit1_eq_some {sep : Char} {s before after : String}
    (h : rsplit1 sep s = some (before, after)) :
    s = before ++ String.ofList (sep :: after.toList) ∧ sep ∉ after.toList := by
  unfold rsplit1 at h
  dsimp only at h
  split at h
  next hmem =>
    cases h
    have hsplit := List.takeWhile_append_dropWhile (p := (· ≠ sep)) (l := s.toList.reverse)
    have hrest : (s.toList.reverse.dropWhile (· ≠ sep)) =
        sep :: (s.toList.reverse.dropWhile (· ≠ sep)).drop 1 := by
      cases hd : s.toList.reverse.dropWhile (· ≠ sep) with
      | nil =>
        have hall := List.dropWhile_eq_nil_iff.1 hd sep hmem
        simp at hall
      | cons c rest =>
        have hc := head_dropWhile (p := fun c => decide (c ≠ sep)) (l := s.toList.reverse) (c := c)
          (by rw [hd]; rfl)
        rw [show c = sep by simpa using hc]
        rfl
    refine ⟨String.toList_inj.1 ?_, ?_⟩
    · rw [hrest] at hsplit
      have hback := congrArg List.reverse hsplit
      simp only [List.reverse_append, List.reverse_cons, List.reverse_reverse,
        List.append_assoc] at hback
      rw [String.toList_append, String.toList_ofList, String.toList_ofList, String.toList_ofList]
      exact hback.symm
    · rw [String.toList_ofList, List.mem_reverse]
      intro hin
      simpa using List.mem_takeWhile_imp hin
  next => cases h

theorem rsplit1_append {sep : Char} {after : List Char} (h : sep ∉ after) (before : String) :
    rsplit1 sep (before ++ String.ofList (sep :: after)) = some (before, String.ofList after) := by
  have hchars : (before ++ String.ofList (sep :: after)).toList.reverse =
      after.reverse ++ sep :: before.toList.reverse := by
    rw [String.toList_append, String.toList_ofList, List.reverse_append, List.reverse_cons,
      List.append_assoc]
    rfl
  have hafter : ∀ c ∈ after.reverse, decide (c ≠ sep) = true := fun c hc =>
    decide_eq_true fun he => h (he ▸ List.mem_reverse.1 hc)
  unfold rsplit1
  dsimp only
  rw [hchars, if_pos (by simp), List.dropWhile_append_of_pos hafter,
    List.takeWhile_append_of_pos hafter, List.dropWhile_cons_of_neg (by simp),
    List.takeWhile_cons_of_neg (by simp), List.append_nil, List.reverse_reverse,
    List.drop_one, List.tail_cons, List.reverse_reverse, String.ofList_toList]

/-! ## Lower case -/

theorem toNat_toLower (c : Char) :
    c.toLower.toNat = if 65 ≤ c.toNat ∧ c.toNat ≤ 90 then c.toNat + 32 else c.toNat := by
  have hdiff : ('a'.val - 'A'.val).toNat = 32 := by decide
  unfold Char.toLower
  by_cases hup : c.val ≥ 'A'.val ∧ c.val ≤ 'Z'.val
  · rw [dif_pos hup, if_pos (show 65 ≤ c.toNat ∧ c.toNat ≤ 90 from hup)]
    have hhigh : c.val.toNat ≤ 90 := hup.2
    show (c.val + ('a'.val - 'A'.val)).toNat = c.val.toNat + 32
    rw [UInt32.toNat_add, hdiff]
    omega
  · rw [dif_neg hup, if_neg (show ¬ (65 ≤ c.toNat ∧ c.toNat ≤ 90) from hup)]

theorem lower_cons {c d : Char} {s t : List Char} (hd : d ≠ 'i' ∧ d ≠ 'k')
    (h : (c :: s).flatMap lowerChar = d :: t) : c.toLower = d ∧ s.flatMap lowerChar = t := by
  rw [List.flatMap_cons] at h
  unfold lowerChar at h
  split at h
  · exact absurd (List.cons.inj h).1.symm hd.2
  · split at h
    · exact absurd (List.cons.inj h).1.symm hd.1
    · exact List.cons.inj h

/-! ## Ends -/

/-- A text whose last character stays is cut at its start only. -/
theorem trim_ofList {p : Char → Bool} {s : List Char}
    (h : ∀ c, s.getLast? = some c → p c = false) :
    trim p (String.ofList s) = String.ofList (s.dropWhile p) := by
  have hend : ∀ c, (s.dropWhile p).reverse.head? = some c → p c = false := by
    intro c hc
    rw [List.head?_reverse] at hc
    obtain ⟨start, hstart⟩ := List.dropWhile_suffix p (l := s)
    refine h c ?_
    rw [← hstart, List.getLast?_append, hc]
    rfl
  unfold trim
  rw [String.toList_ofList, dropWhile_eq_self hend, List.reverse_reverse]

theorem mem_trim {p : Char → Bool} {s : String} {c : Char} (h : c ∈ (trim p s).toList) :
    c ∈ s.toList := by
  unfold trim at h
  rw [String.toList_ofList, List.mem_reverse] at h
  have hback := List.mem_reverse.1 ((List.dropWhile_suffix p).subset h)
  exact (List.dropWhile_suffix p).subset hback

theorem head_trim {p : Char → Bool} {s : String} {c : Char}
    (h : (trim p s).toList.head? = some c) : p c = false := by
  unfold trim at h
  rw [String.toList_ofList] at h
  obtain ⟨rest, hrest⟩ := List.reverse_prefix.2
    (List.dropWhile_suffix p (l := (s.toList.dropWhile p).reverse))
  rw [List.reverse_reverse] at hrest
  refine head_dropWhile (l := s.toList) ?_
  rw [← hrest, List.head?_append, h]
  rfl

/-! ## Separators and numbers -/

theorem split_inj {α : Type} {a : α} {x y r s : List α} (hx : a ∉ x) (hy : a ∉ y)
    (h : x ++ a :: r = y ++ a :: s) : x = y ∧ r = s := by
  induction x generalizing y with
  | nil =>
    cases y with
    | nil => exact ⟨rfl, (List.cons.inj h).2⟩
    | cons b y => exact absurd (List.cons.inj h).1 (List.ne_of_not_mem_cons hy)
  | cons b x ih =>
    cases y with
    | nil => exact absurd (List.cons.inj h).1.symm (List.ne_of_not_mem_cons hx)
    | cons c y =>
      obtain ⟨hbc, ht⟩ := List.cons.inj h
      obtain ⟨hxy, hr⟩ :=
        ih (List.not_mem_of_not_mem_cons hx) (List.not_mem_of_not_mem_cons hy) ht
      exact ⟨by rw [hbc, hxy], hr⟩

theorem repr_inj {m n : Nat} (h : m.repr.toList = n.repr.toList) : m = n := by
  have hnum := congrArg (fun ds => Nat.ofDigitChars 10 ds 0) h
  simpa [Nat.repr_eq_ofList_toDigits] using hnum

theorem notMem_repr {c : Char} (hc : c.isDigit = false) (n : Nat) : c ∉ n.repr.toList := by
  rw [Nat.toList_repr]
  intro h
  have hdigit := Nat.isDigit_of_mem_toDigits (by decide) (by decide) h
  rw [hc] at hdigit
  cases hdigit

theorem toList_toString_int (n : Int) : (toString n).toList =
    if n < 0 then '-' :: n.natAbs.repr.toList else n.natAbs.repr.toList := by
  cases n with
  | ofNat m => rfl
  | negSucc m =>
    rw [if_pos (Int.negSucc_lt_zero m)]
    show ("-" ++ (m + 1).repr).toList = _
    rw [String.toList_append]
    rfl

theorem notMem_toString_int {c : Char} (hc : c.isDigit = false) (hminus : c ≠ '-') (n : Int) :
    c ∉ (toString n).toList := by
  rw [toList_toString_int]
  split
  · exact fun h => (List.mem_cons.1 h).elim hminus (notMem_repr hc _)
  · exact notMem_repr hc _

theorem toString_int_inj {m n : Int} (h : (toString m).toList = (toString n).toList) : m = n := by
  have hminus : ∀ k : Nat, '-' ∉ k.repr.toList := notMem_repr (by decide)
  rw [toList_toString_int, toList_toString_int] at h
  split at h <;> split at h
  · have := repr_inj (List.cons.inj h).2
    omega
  · exact absurd (h ▸ List.mem_cons_self) (hminus n.natAbs)
  · exact absurd (h ▸ List.mem_cons_self) (hminus m.natAbs)
  · have := repr_inj h
    omega

end Text

end Clear
