import Mathlib.Data.List.Basic

/-!
# Occurrences of a tag

A tag starts with one symbol, ends with another and has a body in between that contains neither. Its
occurrences in a text are counted (`count`), and replaced by a marker (`replace`). A text can be cut
for counting before the first symbol of a tag, after the last one, and at any symbol that no tag
contains; replacing leaves no tag (`count_replaceFrom`), and what is between the tags (`parts`).
-/

namespace Markup

variable {α : Type} [DecidableEq α]

structure Tag (α : Type) where
  first : α
  last : α
  body : List α → Bool
  first_ne_last : first ≠ last
  first_not_mem : ∀ b, body b = true → first ∉ b

namespace Tag

variable (t : Tag α)

def starts : List α → Bool
  | [] => false
  | a :: l => a = t.first && t.last ∈ l && t.body (l.takeWhile (· ≠ t.last))

/-- The number of tags in a text. -/
def count : List α → Nat
  | [] => 0
  | a :: l => (if t.starts (a :: l) then 1 else 0) + count l

/-- `re.sub`: every tag is replaced by `marker`. The first `skip` symbols belong to a tag that is
already replaced. -/
def replaceFrom (marker : List α) : (skip : Nat) → List α → List α
  | _, [] => []
  | skip + 1, _ :: l => replaceFrom marker skip l
  | 0, a :: l =>
    if t.starts (a :: l) then
      marker ++ replaceFrom marker ((l.takeWhile (· ≠ t.last)).length + 1) l
    else a :: replaceFrom marker 0 l

def replace (marker l : List α) : List α := t.replaceFrom marker 0 l

/-- No tag contains the symbol. -/
structure Foreign (a : α) : Prop where
  ne_first : a ≠ t.first
  ne_last : a ≠ t.last
  not_mem : ∀ b, t.body b = true → a ∉ b

variable {t} {xs ys : List α} {a : α}

theorem takeWhile_last {b rest : List α} (h : t.last ∉ b) :
    (b ++ t.last :: rest).takeWhile (· ≠ t.last) = b := by
  rw [List.takeWhile_append_of_pos, List.takeWhile_cons_of_neg (by simp), List.append_nil]
  intro x hx
  simpa using fun heq : x = t.last => h (heq ▸ hx)

theorem starts_iff {l : List α} :
    t.starts l = true ↔
      ∃ b rest, l = t.first :: (b ++ t.last :: rest) ∧ t.last ∉ b ∧ t.body b = true := by
  cases l with
  | nil => simp [starts]
  | cons a l =>
    simp only [starts, Bool.and_eq_true, decide_eq_true_eq]
    constructor
    · rintro ⟨⟨rfl, hmem⟩, hbody⟩
      obtain ⟨b, rest, rfl, hlast⟩ := List.eq_append_cons_of_mem hmem
      rw [takeWhile_last hlast] at hbody
      exact ⟨b, rest, rfl, hlast, hbody⟩
    · rintro ⟨b, rest, heq, hlast, hbody⟩
      obtain ⟨rfl, rfl⟩ := List.cons.inj heq
      rw [takeWhile_last hlast]
      exact ⟨⟨rfl, by simp⟩, hbody⟩

theorem count_cons (a : α) (l : List α) :
    t.count (a :: l) = (if t.starts (a :: l) then 1 else 0) + t.count l := rfl

theorem count_cons_of_ne {l : List α} (h : a ≠ t.first) : t.count (a :: l) = t.count l := by
  rw [count_cons, if_neg, Nat.zero_add]
  simp [starts, h]

theorem count_tag {b : List α} (hlast : t.last ∉ b) (hbody : t.body b = true) (ys : List α) :
    t.count (t.first :: (b ++ t.last :: ys)) = 1 + t.count ys := by
  have hrest : ∀ b : List α, t.first ∉ b → t.count (b ++ t.last :: ys) = t.count ys := by
    intro b hb
    induction b with
    | nil => exact count_cons_of_ne t.first_ne_last.symm
    | cons x b ih =>
      rw [List.mem_cons, not_or] at hb
      rw [List.cons_append, count_cons_of_ne (Ne.symm hb.1), ih hb.2]
  rw [count_cons, if_pos (starts_iff.2 ⟨b, ys, rfl, hlast, hbody⟩),
    hrest b (t.first_not_mem b hbody)]

/-! ## Cutting a text -/

theorem starts_append_cons {s : α} (hs : s ≠ t.last) (hbody : ∀ b, t.body b = true → s ∉ b)
    (hxs : xs ≠ []) : t.starts (xs ++ s :: ys) = t.starts xs := by
  rw [Bool.eq_iff_iff, starts_iff, starts_iff]
  constructor
  · rintro ⟨b, rest, heq, hlast, hb⟩
    rcases List.append_eq_append_iff.1 (heq.trans (List.append_assoc (t.first :: b) [t.last] rest).symm)
      with ⟨m, hm, hrest⟩ | ⟨m, hm, hrest⟩
    · cases m with
      | nil => exact ⟨b, [], by simpa using hm.symm, hlast, hb⟩
      | cons x m =>
        -- the symbol would be in the tag, after its first symbol
        obtain ⟨rfl, -⟩ := List.cons.inj hrest
        obtain ⟨x, xs, rfl⟩ := List.exists_cons_of_ne_nil hxs
        have htail : b ++ [t.last] = xs ++ s :: m := (List.cons.inj hm).2
        have hmem : s ∈ b ++ [t.last] := by
          rw [htail]
          simp
        rcases List.mem_append.1 hmem with hmem | hmem
        · exact absurd hmem (hbody b hb)
        · exact absurd (List.mem_singleton.1 hmem) hs
    · exact ⟨b, m, by simpa using hm, hlast, hb⟩
  · rintro ⟨b, rest, rfl, hlast, hb⟩
    exact ⟨b, rest ++ s :: ys, by simp, hlast, hb⟩

/-- A text can be cut before the first symbol of a tag. -/
theorem count_append_first (xs ys : List α) :
    t.count (xs ++ t.first :: ys) = t.count xs + t.count (t.first :: ys) := by
  induction xs with
  | nil => exact (Nat.zero_add _).symm
  | cons a xs ih =>
    have hstarts : t.starts (a :: xs ++ t.first :: ys) = t.starts (a :: xs) :=
      starts_append_cons t.first_ne_last t.first_not_mem (List.cons_ne_nil a xs)
    rw [List.cons_append] at hstarts ⊢
    rw [count_cons, count_cons, ih, hstarts, Nat.add_assoc]

/-- A text can be cut at a symbol that no tag contains. -/
theorem count_append_foreign (ha : t.Foreign a) (xs ys : List α) :
    t.count (xs ++ a :: ys) = t.count xs + t.count ys := by
  induction xs with
  | nil => rw [List.nil_append, count_cons_of_ne ha.ne_first, count, Nat.zero_add]
  | cons x xs ih =>
    have hstarts : t.starts (x :: xs ++ a :: ys) = t.starts (x :: xs) :=
      starts_append_cons ha.ne_last ha.not_mem (List.cons_ne_nil x xs)
    rw [List.cons_append] at hstarts ⊢
    rw [count_cons, count_cons, ih, hstarts, Nat.add_assoc]

/-- A text can be cut after the last symbol of a tag. -/
theorem count_append_last (xs ys : List α) :
    t.count (xs ++ t.last :: ys) = t.count (xs ++ [t.last]) + t.count ys := by
  induction xs with
  | nil =>
    rw [List.nil_append, List.nil_append, count_cons_of_ne t.first_ne_last.symm,
      count_cons_of_ne t.first_ne_last.symm, count, Nat.zero_add]
  | cons a xs ih =>
    have hstarts : t.starts (a :: (xs ++ t.last :: ys)) = t.starts (a :: (xs ++ [t.last])) := by
      by_cases hmem : t.last ∈ xs
      · obtain ⟨b, rest, rfl, hlast⟩ := List.eq_append_cons_of_mem hmem
        simp only [starts, List.append_assoc, List.cons_append, takeWhile_last hlast]
        simp
      · simp only [starts, takeWhile_last hmem]
        simp
    rw [List.cons_append, List.cons_append, count_cons, count_cons, ih, hstarts, Nat.add_assoc]

/-- Nothing starts in a text without the first symbol. -/
theorem count_append_of_first_not_mem (h : t.first ∉ xs) : t.count (xs ++ ys) = t.count ys := by
  induction xs with
  | nil => rfl
  | cons a xs ih =>
    rw [List.mem_cons, not_or] at h
    rw [List.cons_append, count_cons_of_ne (Ne.symm h.1), ih h.2]

theorem count_of_first_not_mem (h : t.first ∉ xs) : t.count xs = 0 := by
  have hcount : t.count (xs ++ []) = t.count [] := count_append_of_first_not_mem h
  rwa [List.append_nil] at hcount

/-- Nothing ends in a text without the last symbol. -/
theorem starts_of_last_not_mem {l : List α} (h : t.last ∉ l.tail) : t.starts l = false := by
  cases l with
  | nil => rfl
  | cons a l =>
    have hlast : t.last ∉ l := h
    simp [starts, hlast]

/-- The tags of a part are tags of the text. -/
theorem starts_append {l : List α} (h : t.starts l = true) (ys : List α) :
    t.starts (l ++ ys) = true := by
  obtain ⟨b, rest, rfl, hlast, hb⟩ := starts_iff.1 h
  exact starts_iff.2 ⟨b, rest ++ ys, by simp, hlast, hb⟩

theorem count_le_append (xs ys : List α) : t.count xs + t.count ys ≤ t.count (xs ++ ys) := by
  induction xs with
  | nil => exact Nat.le_of_eq (Nat.zero_add _)
  | cons a xs ih =>
    rw [List.cons_append, count_cons, count_cons]
    by_cases hstarts : t.starts (a :: xs) = true
    · have happend := starts_append hstarts ys
      rw [List.cons_append] at happend
      rw [if_pos hstarts, if_pos happend]
      omega
    · rw [if_neg hstarts]
      omega

theorem count_infix_le {l : List α} (h : xs <:+: l) : t.count xs ≤ t.count l := by
  obtain ⟨pre, post, rfl⟩ := h
  have h₁ := count_le_append (t := t) (pre ++ xs) post
  have h₂ := count_le_append (t := t) pre xs
  omega

/-- What no tag can end in adds none. -/
theorem count_append_of_last_not_mem (h : t.last ∉ ys) : t.count (xs ++ ys) = t.count xs := by
  have hys : ∀ ys : List α, t.last ∉ ys → t.count ys = 0 := by
    intro ys
    induction ys with
    | nil => exact fun _ => rfl
    | cons y ys ih =>
      intro h
      rw [List.mem_cons, not_or] at h
      rw [count_cons, ih h.2, if_neg]
      rw [starts_of_last_not_mem h.2]
      simp
  induction xs with
  | nil => exact hys ys h
  | cons a xs ih =>
    rw [List.cons_append, count_cons, count_cons, ih]
    have hstarts : t.starts (a :: (xs ++ ys)) = t.starts (a :: xs) := by
      by_cases hmem : t.last ∈ xs
      · obtain ⟨b, rest, rfl, hlast⟩ := List.eq_append_cons_of_mem hmem
        simp only [starts, List.append_assoc, List.cons_append, takeWhile_last hlast]
        simp
      · have hmem' : t.last ∉ (a :: (xs ++ ys)).tail := by
          rw [List.tail_cons, List.mem_append, not_or]
          exact ⟨hmem, h⟩
        have hmem'' : t.last ∉ (a :: xs).tail := hmem
        rw [starts_of_last_not_mem hmem', starts_of_last_not_mem hmem'']
    rw [hstarts]

/-- A text without a symbol that every tag contains has no tag. -/
theorem count_of_required (ha : ∀ b, t.body b = true → a ∈ b) (h : a ∉ xs) : t.count xs = 0 := by
  induction xs with
  | nil => rfl
  | cons x xs ih =>
    rw [List.mem_cons, not_or] at h
    rw [count_cons, ih h.2, if_neg]
    intro hstarts
    obtain ⟨b, rest, heq, -, hb⟩ := starts_iff.1 hstarts
    obtain ⟨-, rfl⟩ := List.cons.inj heq
    exact h.2 (List.mem_append_left _ (ha b hb))

theorem count_mono {t' : Tag α} (hfirst : t.first = t'.first) (hlast : t.last = t'.last)
    (hbody : ∀ b, t.body b = true → t'.body b = true) (xs : List α) :
    t.count xs ≤ t'.count xs := by
  induction xs with
  | nil => exact Nat.le_refl _
  | cons a xs ih =>
    rw [count_cons, count_cons]
    by_cases hstarts : t.starts (a :: xs) = true
    · obtain ⟨b, rest, heq, hnot, hb⟩ := starts_iff.1 hstarts
      rw [hfirst, hlast] at heq
      rw [hlast] at hnot
      rw [if_pos hstarts, if_pos (starts_iff.2 ⟨b, rest, heq, hnot, hbody b hb⟩)]
      omega
    · rw [if_neg hstarts]
      omega

/-! ## Replacing -/

section

variable {marker : List α} {m : α}

/-- What comes before the first marker is copied. -/
theorem prefix_of_replace (hmarker : marker.head? = some m) {pre l : List α} (hm : m ∉ pre)
    (h : pre <+: t.replaceFrom marker 0 l) : pre <+: l := by
  induction l generalizing pre with
  | nil => exact h
  | cons a l ih =>
    unfold replaceFrom at h
    cases pre with
    | nil => exact List.nil_prefix
    | cons x pre =>
      split at h
      · obtain ⟨rest, hrest⟩ := h
        cases marker with
        | nil => cases hmarker
        | cons y marker =>
          obtain rfl : y = m := by simpa using hmarker
          obtain ⟨rfl, -⟩ := List.cons.inj hrest
          exact absurd List.mem_cons_self hm
      · rw [List.cons_prefix_cons] at h ⊢
        rw [List.mem_cons, not_or] at hm
        exact ⟨h.1, ih hm.2 h.2⟩

/-- Replacing leaves no tag, if the marker starts and ends with symbols that no tag contains. -/
theorem count_replaceFrom (hmarker : marker.head? = some m) (hm : t.Foreign m)
    (hfirst : t.first ∉ marker) (skip : Nat) (l : List α) :
    t.count (t.replaceFrom marker skip l) = 0 := by
  induction l generalizing skip with
  | nil => cases skip <;> rfl
  | cons a l ih =>
    cases skip with
    | succ skip => exact ih skip
    | zero =>
      unfold replaceFrom
      split
      · rw [count_append_of_first_not_mem hfirst]
        exact ih _
      next hstarts =>
        rw [count_cons, ih, if_neg]
        intro h
        obtain ⟨b, rest, heq, hlast, hb⟩ := starts_iff.1 h
        obtain ⟨rfl, hrest⟩ := List.cons.inj heq
        have hpre : b ++ [t.last] <+: l := by
          refine prefix_of_replace hmarker ?_ ⟨rest, by rw [hrest]; simp⟩
          rw [List.mem_append, List.mem_singleton, not_or]
          exact ⟨hm.not_mem b hb, hm.ne_last⟩
        obtain ⟨rest', rfl⟩ := hpre
        exact hstarts (starts_iff.2 ⟨b, rest', by simp, hlast, hb⟩)

/-! ## The parts between the tags -/

variable (t) in
/-- The parts that the replaced tags separate; the first `skip` symbols belong to a tag. -/
def partsFrom : (skip : Nat) → List α → List (List α)
  | _, [] => [[]]
  | skip + 1, _ :: l => partsFrom skip l
  | 0, a :: l =>
    if t.starts (a :: l) then [] :: partsFrom ((l.takeWhile (· ≠ t.last)).length + 1) l
    else (partsFrom 0 l).modifyHead (a :: ·)

variable (t) in
/-- `re.split`. -/
def parts (l : List α) : List (List α) := t.partsFrom 0 l

theorem partsFrom_ne_nil (skip : Nat) (l : List α) : t.partsFrom skip l ≠ [] := by
  induction l generalizing skip with
  | nil => cases skip <;> exact List.cons_ne_nil _ _
  | cons a l ih =>
    cases skip with
    | succ skip => exact ih skip
    | zero =>
      unfold partsFrom
      split
      · exact List.cons_ne_nil _ _
      · obtain ⟨p, ps, hparts⟩ := List.exists_cons_of_ne_nil (ih 0)
        rw [hparts]
        exact List.cons_ne_nil _ _

theorem replaceFrom_eq_intercalate (marker : List α) (skip : Nat) (l : List α) :
    t.replaceFrom marker skip l = marker.intercalate (t.partsFrom skip l) := by
  induction l generalizing skip with
  | nil => cases skip <;> rfl
  | cons a l ih =>
    cases skip with
    | succ skip => exact ih skip
    | zero =>
      unfold replaceFrom partsFrom
      split
      · rw [ih]
        obtain ⟨p, ps, hparts⟩ := List.exists_cons_of_ne_nil
          (partsFrom_ne_nil (t := t) ((l.takeWhile (· ≠ t.last)).length + 1) l)
        rw [hparts, List.intercalate_cons_cons, List.nil_append]
      · rw [ih]
        obtain ⟨p, ps, hparts⟩ := List.exists_cons_of_ne_nil (partsFrom_ne_nil (t := t) 0 l)
        rw [hparts]
        cases ps with
        | nil => simp
        | cons q ps => simp

theorem infix_of_mem_parts {l p : List α} (h : p ∈ t.parts l) : p <:+: l := by
  have hfrom : ∀ (l : List α) (skip : Nat), ∃ q qs, t.partsFrom skip l = q :: qs ∧
      q <+: l.drop skip ∧ ∀ p ∈ qs, p <:+: l := by
    intro l
    induction l with
    | nil => exact fun skip => ⟨[], [], by cases skip <;> rfl, List.nil_prefix, nofun⟩
    | cons a l ih =>
      intro skip
      cases skip with
      | succ skip =>
        obtain ⟨q, qs, hparts, hq, hqs⟩ := ih skip
        exact ⟨q, qs, hparts, hq, fun p hp => (hqs p hp).trans (List.suffix_cons a l).isInfix⟩
      | zero =>
        unfold partsFrom
        split
        · obtain ⟨q, qs, hparts, hq, hqs⟩ := ih ((l.takeWhile (· ≠ t.last)).length + 1)
          refine ⟨[], q :: qs, by rw [hparts], List.nil_prefix, fun p hp => ?_⟩
          rcases List.mem_cons.1 hp with rfl | hp
          · exact (hq.isInfix.trans (List.drop_suffix _ l).isInfix).trans
              (List.suffix_cons a l).isInfix
          · exact (hqs p hp).trans (List.suffix_cons a l).isInfix
        · obtain ⟨q, qs, hparts, hq, hqs⟩ := ih 0
          refine ⟨a :: q, qs, by rw [hparts]; rfl, List.cons_prefix_cons.2 ⟨rfl, hq⟩, fun p hp => ?_⟩
          exact (hqs p hp).trans (List.suffix_cons a l).isInfix
  obtain ⟨q, qs, hparts, hq, hqs⟩ := hfrom l 0
  unfold parts at h
  rw [hparts] at h
  rcases List.mem_cons.1 h with rfl | h
  · exact hq.isInfix
  · exact hqs p h

/-- A text without tags is one part. -/
theorem replace_of_count {l : List α} (h : t.count l = 0) : t.replace marker l = l := by
  unfold replace
  induction l with
  | nil => rfl
  | cons a l ih =>
    rw [count_cons] at h
    have hstarts : ¬ t.starts (a :: l) = true := by
      intro hstarts
      rw [if_pos hstarts] at h
      omega
    unfold replaceFrom
    rw [if_neg hstarts, ih (by omega)]

theorem mem_replaceFrom {x : α} {skip : Nat} {l : List α} (h : x ∈ t.replaceFrom marker skip l) :
    x ∈ marker ∨ x ∈ l := by
  induction l generalizing skip with
  | nil => cases skip <;> cases h
  | cons a l ih =>
    cases skip with
    | succ skip => exact (ih h).imp_right (List.mem_cons_of_mem a)
    | zero =>
      unfold replaceFrom at h
      split at h
      · rcases List.mem_append.1 h with h | h
        · exact .inl h
        · exact (ih h).imp_right (List.mem_cons_of_mem a)
      · rcases List.mem_cons.1 h with rfl | h
        · exact .inr List.mem_cons_self
        · exact (ih h).imp_right (List.mem_cons_of_mem a)

/-- A property that can be checked on both sides of the marker can be checked on the parts. -/
theorem forall_parts_iff {P : List α → Prop} (hnil : P [])
    (hglue : ∀ xs ys, P (xs ++ (marker ++ ys)) ↔ P xs ∧ P ys) {l : List α} :
    P (t.replace marker l) ↔ ∀ p ∈ t.parts l, P p := by
  have hall : ∀ ps : List (List α), P (marker.intercalate ps) ↔ ∀ p ∈ ps, P p := by
    intro ps
    induction ps with
    | nil => exact iff_of_true hnil nofun
    | cons p ps ih =>
      cases ps with
      | nil => simp
      | cons q ps =>
        rw [List.intercalate_cons_cons, List.append_assoc, hglue, ih]
        exact List.forall_mem_cons.symm
  unfold replace parts
  rw [replaceFrom_eq_intercalate, hall]

/-- A text has a tag when a tag stands somewhere in it. -/
theorem count_pos_iff {l : List α} :
    0 < t.count l ↔
      ∃ b, t.last ∉ b ∧ t.body b = true ∧ t.first :: (b ++ [t.last]) <:+: l := by
  constructor
  · intro h
    induction l with
    | nil => exact absurd h (Nat.lt_irrefl 0)
    | cons a l ih =>
      by_cases hstarts : t.starts (a :: l) = true
      · obtain ⟨b, rest, heq, hlast, hb⟩ := starts_iff.1 hstarts
        refine ⟨b, hlast, hb, ⟨[], rest, ?_⟩⟩
        rw [heq]
        simp
      · rw [count_cons, if_neg hstarts, Nat.zero_add] at h
        obtain ⟨b, hlast, hb, hpart⟩ := ih h
        exact ⟨b, hlast, hb, hpart.trans (List.suffix_cons a l).isInfix⟩
  · rintro ⟨b, hlast, hb, hpart⟩
    have hle := count_infix_le (t := t) hpart
    have hone := count_tag hlast hb []
    rw [hone] at hle
    omega

end

end Tag

end Markup
