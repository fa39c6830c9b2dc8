import Mathlib.Data.List.Basic

/-!
# Leftmost matches of a pattern

A pattern is read at the start of a text; a match starts with one symbol and contains it nowhere else.
`scan` finds the matches of a text from left to right, and `sub` rewrites each of them.

* `mem_found_iff`: the matches that are found are the factors of the text that the pattern matches,
* `scan_append`: a text can be cut before the symbol that opens a match,
* `mem_found_sub`: after matches were rewritten to matches, a match is one of these, or it was
  interrupted in the text by matches that were rewritten to nothing,
* `found_sublist_rewrite`: the matches written are found again.
-/

namespace Scan

variable {α β γ : Type}

def pieces (read : List α → Option (β × List α)) : (fuel : Nat) → List α → List (α ⊕ β)
  | 0, _ | _, [] => []
  | fuel + 1, a :: l =>
    match read (a :: l) with
    | some (b, rest) => .inr b :: pieces read fuel rest
    | none => .inl a :: pieces read fuel l

def scan (read : List α → Option (β × List α)) (l : List α) : List (α ⊕ β) :=
  pieces read l.length l

/-- The matches among the pieces. -/
def found (ps : List (α ⊕ β)) : List β := ps.filterMap Sum.getRight?

@[simp] theorem found_inl (a : α) (ps : List (α ⊕ β)) : found (.inl a :: ps) = found ps := rfl

@[simp] theorem found_inr (b : β) (ps : List (α ⊕ β)) : found (.inr b :: ps) = b :: found ps := rfl

@[simp] theorem found_append (ps qs : List (α ⊕ β)) : found (ps ++ qs) = found ps ++ found qs :=
  List.filterMap_append

/-- A match starts with `opens`, does not contain it again, and does not depend on what follows. -/
def Opens (opens : α) (read : List α → Option (β × List α)) : Prop :=
  ∀ l b rest, read l = some (b, rest) → ∃ body, l = opens :: (body ++ rest) ∧ opens ∉ body ∧
    ∀ ys, read (opens :: (body ++ ys)) = some (b, ys)

section
variable {opens : α} {read : List α → Option (β × List α)}

theorem pieces_eq_scan (h : Opens opens read) {fuel : Nat} {l : List α} (hl : l.length ≤ fuel) :
    pieces read fuel l = scan read l := by
  induction fuel using Nat.strongRecOn generalizing l with
  | ind fuel ih =>
    unfold scan
    cases l with
    | nil => cases fuel <;> rfl
    | cons a l =>
      cases fuel with
      | zero => cases hl
      | succ fuel =>
        rw [List.length_cons] at hl ⊢
        unfold pieces
        split
        next b rest hread =>
          obtain ⟨body, hbody, -⟩ := h _ _ _ hread
          have hrest : rest.length ≤ l.length := by
            have := congrArg List.length hbody
            simp only [List.length_cons, List.length_append] at this
            omega
          rw [ih fuel (by omega) (by omega), ih l.length (by omega) hrest]
        next => rw [ih fuel (by omega) (by omega)]; rfl

theorem scan_none {a : α} {l : List α} (h : read (a :: l) = none) :
    scan read (a :: l) = .inl a :: scan read l := by
  unfold scan
  simp only [List.length_cons, pieces, h]

theorem scan_some (hopens : Opens opens read) {a : α} {l rest : List α} {b : β}
    (h : read (a :: l) = some (b, rest)) : scan read (a :: l) = .inr b :: scan read rest := by
  obtain ⟨body, hbody, -⟩ := hopens _ _ _ h
  have hrest : rest.length ≤ l.length := by
    have := congrArg List.length hbody
    simp only [List.length_cons, List.length_append] at this
    omega
  rw [← pieces_eq_scan hopens hrest]
  unfold scan
  simp only [List.length_cons, pieces, h]

/-- What follows a match, or the end of the text, does not change how it is read. -/
theorem read_append (h : Opens opens read) {xs rest : List α} {b : β}
    (hread : read xs = some (b, rest)) (ys : List α) : read (xs ++ ys) = some (b, rest ++ ys) := by
  obtain ⟨body, rfl, -, hlocal⟩ := h _ _ _ hread
  rw [List.cons_append, List.append_assoc]
  exact hlocal (rest ++ ys)

/-- Nothing is read across the start of a match. -/
theorem read_append_none (h : Opens opens read) {a : α} {xs ys : List α}
    (hys : ys = [] ∨ ys.head? = some opens) (hread : read (a :: xs) = none) :
    read (a :: xs ++ ys) = none := by
  cases hboth : read (a :: xs ++ ys) with
  | none => rfl
  | some found =>
    obtain ⟨body, heq, hbody, hlocal⟩ := h _ found.1 found.2 hboth
    obtain rfl : a = opens := (List.cons.inj heq).1
    have htail : xs ++ ys = body ++ found.2 := (List.cons.inj heq).2
    rcases List.append_eq_append_iff.1 htail with ⟨m, rfl, hm⟩ | ⟨m, rfl, hm⟩
    · cases m with
      | nil =>
        rw [List.append_nil] at hlocal
        have := hlocal []
        rw [List.append_nil] at this
        cases hread.symm.trans this
      | cons x m =>
        rcases hys with rfl | hys
        · cases hm
        · rw [hm] at hys
          obtain rfl := Option.some.inj hys
          simp at hbody
    · cases hread.symm.trans (hlocal m)

/-- A text can be cut before the symbol that opens a match. -/
theorem scan_append (h : Opens opens read) (xs : List α) {ys : List α}
    (hys : ys = [] ∨ ys.head? = some opens) :
    scan read (xs ++ ys) = scan read xs ++ scan read ys := by
  induction hn : xs.length using Nat.strongRecOn generalizing xs with
  | ind n ih =>
    cases xs with
    | nil => rfl
    | cons a xs =>
      subst hn
      cases hread : read (a :: xs) with
      | none =>
        have hnone := read_append_none h hys hread
        rw [List.cons_append] at hnone ⊢
        rw [scan_none hnone, scan_none hread, ih xs.length (by simp) xs rfl,
          List.cons_append]
      | some found =>
        obtain ⟨b, rest⟩ := found
        obtain ⟨body, hbody, -⟩ := h _ _ _ hread
        have hrest : rest.length < (a :: xs).length := by
          have hlength := congrArg List.length hbody
          simp only [List.length_cons, List.length_append] at hlength ⊢
          omega
        have happend := read_append h hread ys
        rw [List.cons_append] at happend
        rw [List.cons_append, scan_some h happend, scan_some h hread, ih _ hrest rest rfl,
          List.cons_append]

theorem scan_match (h : Opens opens read) {m : List α} {b : β} (hm : read m = some (b, []))
    (ys : List α) : scan read (m ++ ys) = .inr b :: scan read ys := by
  obtain ⟨body, rfl, -⟩ := h _ _ _ hm
  have happend := read_append h hm ys
  rw [List.nil_append] at happend
  exact scan_some h happend

theorem head_of_match (h : Opens opens read) {m : List α} {b : β} (hm : read m = some (b, []))
    (ys : List α) : (m ++ ys).head? = some opens := by
  obtain ⟨body, rfl, -⟩ := h _ _ _ hm
  rfl

theorem mem_found_iff (h : Opens opens read) {l : List α} {b : β} :
    b ∈ found (scan read l) ↔ ∃ xs m ys, l = xs ++ (m ++ ys) ∧ read m = some (b, []) := by
  constructor
  · intro hb
    induction hn : l.length using Nat.strongRecOn generalizing l with
    | ind n ih =>
      subst hn
      cases l with
      | nil => cases hb
      | cons a l =>
        cases hread : read (a :: l) with
        | none =>
          rw [scan_none hread, found_inl] at hb
          obtain ⟨xs, m, ys, rfl, hm⟩ := ih l.length (by simp) hb rfl
          exact ⟨a :: xs, m, ys, rfl, hm⟩
        | some first =>
          obtain ⟨b', rest⟩ := first
          obtain ⟨body, hbody, -, hlocal⟩ := h _ _ _ hread
          rw [scan_some h hread, found_inr] at hb
          rcases List.mem_cons.1 hb with rfl | hb
          · refine ⟨[], opens :: (body ++ []), rest, by simpa using hbody, hlocal []⟩
          · have hlt : rest.length < (a :: l).length := by
              have hlength := congrArg List.length hbody
              simp only [List.length_cons, List.length_append] at hlength ⊢
              omega
            obtain ⟨xs, m, ys, rfl, hm⟩ := ih rest.length hlt hb rfl
            refine ⟨opens :: body ++ xs, m, ys, ?_, hm⟩
            rw [hbody]
            simp
  · rintro ⟨xs, m, ys, rfl, hm⟩
    rw [scan_append h xs (.inr (head_of_match h hm ys)), scan_match h hm]
    simp

end

/-! ## Rewriting matches -/

section
variable (write : γ → List α) (keep : β → List γ)

/-- What is written for a piece: for a match, what is kept of it. -/
def rewrite : α ⊕ β → List α
  | .inl a => [a]
  | .inr b => (keep b).flatMap write

def sub (read : List α → Option (β × List α)) (l : List α) : List α :=
  (scan read l).flatMap (rewrite write keep)

/-- Nothing is kept of the piece, unless it is a symbol. -/
def Vanishing (keep : β → List γ) : α ⊕ β → Prop
  | .inl _ => True
  | .inr b => keep b = []

variable {write keep} {opens : α} {read : List α → Option (β × List α)} {value : γ → β}

/-- **The matches written are found again**, whatever precedes them. -/
theorem found_sublist_rewrite (h : Opens opens read)
    (hwrite : ∀ g, read (write g) = some (value g, [])) (xs : List α) (ps : List (α ⊕ β)) :
    (((found ps).flatMap keep).map value).Sublist
      (found (scan read (xs ++ ps.flatMap (rewrite write keep)))) := by
  induction ps generalizing xs with
  | nil => exact List.nil_sublist _
  | cons p ps ih =>
    cases p with
    | inl a =>
      have := ih (xs ++ [a])
      rw [List.append_assoc] at this
      exact this
    | inr b =>
      rw [found_inr, List.flatMap_cons, List.flatMap_cons,
        show rewrite write keep (.inr b) = (keep b).flatMap write from rfl]
      generalize keep b = gs
      induction gs generalizing xs with
      | nil => exact ih xs
      | cons g gs ihg =>
        rw [List.flatMap_cons, List.append_assoc,
          scan_append h xs (.inr (head_of_match h (hwrite g) _)), scan_match h (hwrite g)]
        refine List.Sublist.trans ?_ (found_append _ _ ▸ List.sublist_append_right _ _)
        exact (ihg []).cons_cons (value g)

/-- A text that is written without the opening symbol comes from symbols and matches that vanish. -/
theorem exists_vanishing (h : Opens opens read)
    (hwrite : ∀ g, read (write g) = some (value g, [])) {body ys : List α} {ps : List (α ⊕ β)}
    (hbody : opens ∉ body) (heq : body ++ ys = ps.flatMap (rewrite write keep)) :
    ∃ mid rest, ps = mid ++ rest ∧ (∀ p ∈ mid, Vanishing keep p) ∧
      mid.flatMap (rewrite write keep) = body := by
  induction ps generalizing body with
  | nil =>
    obtain ⟨rfl, -⟩ := List.append_eq_nil_iff.1 heq
    exact ⟨[], [], rfl, nofun, rfl⟩
  | cons p ps ih =>
    cases body with
    | nil => exact ⟨[], p :: ps, rfl, nofun, rfl⟩
    | cons x body =>
      cases p with
      | inl a =>
        obtain ⟨rfl, htail⟩ := List.cons.inj heq
        rw [List.mem_cons, not_or] at hbody
        obtain ⟨mid, rest, rfl, hmid, rfl⟩ := ih hbody.2 htail
        refine ⟨.inl x :: mid, rest, rfl, fun p hp => ?_, rfl⟩
        rcases List.mem_cons.1 hp with rfl | hp
        · trivial
        · exact hmid p hp
      | inr b =>
        cases hkeep : keep b with
        | nil =>
          rw [List.flatMap_cons, show rewrite write keep (.inr b) = [] by simp [rewrite, hkeep],
            List.nil_append] at heq
          obtain ⟨mid, rest, rfl, hmid, hwritten⟩ := ih hbody heq
          refine ⟨.inr b :: mid, rest, rfl, fun p hp => ?_, ?_⟩
          · rcases List.mem_cons.1 hp with rfl | hp
            · exact hkeep
            · exact hmid p hp
          · rw [List.flatMap_cons, hwritten]
            simp [rewrite, hkeep]
        | cons g gs =>
          obtain ⟨rest, hrest, -⟩ := h _ _ _ (hwrite g)
          rw [List.flatMap_cons, show rewrite write keep (.inr b) = (g :: gs).flatMap write by
            simp [rewrite, hkeep], List.flatMap_cons, hrest] at heq
          obtain ⟨rfl, -⟩ := List.cons.inj heq
          simp at hbody

theorem match_in_writes (h : Opens opens read)
    (hwrite : ∀ g, read (write g) = some (value g, [])) {xs m ys rest : List α} {b : β}
    (hm : read m = some (b, [])) {gs : List γ}
    (heq : xs ++ (m ++ ys) = gs.flatMap write ++ rest) :
    (∃ g ∈ gs, b = value g) ∨ ∃ xs', xs' ++ (m ++ ys) = rest := by
  induction gs generalizing xs with
  | nil => exact .inr ⟨xs, heq⟩
  | cons g gs ih =>
    rw [List.flatMap_cons, List.append_assoc] at heq
    cases xs with
    | nil =>
      refine .inl ⟨g, List.mem_cons_self, ?_⟩
      have hleft := read_append h hm ys
      rw [show m ++ ys = _ from heq, read_append h (hwrite g) _] at hleft
      exact (Prod.mk.inj (Option.some.inj hleft)).1.symm
    | cons x xs =>
      have hlater : ∀ xs', xs' ++ (m ++ ys) = gs.flatMap write ++ rest →
          (∃ g' ∈ g :: gs, b = value g') ∨ ∃ xs', xs' ++ (m ++ ys) = rest := fun xs' h' =>
        (ih h').imp_left fun ⟨g', hg', hb⟩ => ⟨g', List.mem_cons_of_mem _ hg', hb⟩
      rcases List.append_eq_append_iff.1 heq with ⟨l, hl, htail⟩ | ⟨l, hl, htail⟩
      · cases l with
        | nil => exact hlater [] htail
        | cons z l =>
          -- the match would start inside the one that is written
          obtain ⟨body, hbody, hnot, -⟩ := h _ _ _ (hwrite g)
          have hz : z = opens := by
            have := head_of_match h hm ys
            rw [htail] at this
            exact Option.some.inj this
          rw [hl] at hbody
          have htail' := (List.cons.inj hbody).2
          rw [List.append_nil] at htail'
          refine absurd ?_ hnot
          rw [← htail', hz]
          simp
      · exact hlater l htail.symm

theorem match_in_rewrite (h : Opens opens read)
    (hwrite : ∀ g, read (write g) = some (value g, [])) {xs m ys : List α} {b : β}
    (hm : read m = some (b, [])) {ps : List (α ⊕ β)}
    (heq : xs ++ (m ++ ys) = ps.flatMap (rewrite write keep)) :
    (∃ b' ∈ found ps, ∃ g ∈ keep b', b = value g) ∨
      ∃ before mid after, ps = before ++ (mid ++ after) ∧ (∀ p ∈ mid, Vanishing keep p) ∧
        mid.flatMap (rewrite write keep) = m := by
  induction ps generalizing xs with
  | nil =>
    have := head_of_match h hm ys
    rw [(List.append_eq_nil_iff.1 heq).2] at this
    cases this
  | cons p ps ih =>
    have hlater : ∀ xs', xs' ++ (m ++ ys) = ps.flatMap (rewrite write keep) →
        (∃ b' ∈ found (p :: ps), ∃ g ∈ keep b', b = value g) ∨
          ∃ before mid after, p :: ps = before ++ (mid ++ after) ∧
            (∀ p ∈ mid, Vanishing keep p) ∧ mid.flatMap (rewrite write keep) = m := by
      intro xs' h'
      rcases ih h' with ⟨b', hb', hg⟩ | ⟨before, mid, after, rfl, hmid⟩
      · refine .inl ⟨b', ?_, hg⟩
        cases p with
        | inl a => exact hb'
        | inr b₀ => exact List.mem_cons_of_mem _ hb'
      · exact .inr ⟨p :: before, mid, after, rfl, hmid⟩
    cases p with
    | inl a =>
      cases xs with
      | nil =>
        obtain ⟨body, rfl, hbody, -⟩ := h _ _ _ hm
        rw [List.append_nil] at heq
        obtain ⟨rfl, htail⟩ := List.cons.inj heq
        obtain ⟨mid, rest, rfl, hmid, rfl⟩ := exists_vanishing h hwrite hbody htail
        refine .inr ⟨[], .inl opens :: mid, rest, rfl, fun p hp => ?_, by simp [rewrite]⟩
        rcases List.mem_cons.1 hp with rfl | hp
        · trivial
        · exact hmid p hp
      | cons x xs => exact hlater xs (List.cons.inj heq).2
    | inr b₀ =>
      rcases match_in_writes h hwrite hm heq with ⟨g, hg, hb⟩ | ⟨xs', h'⟩
      · exact .inl ⟨b₀, by simp, g, hg, hb⟩
      · exact hlater xs' h'

/-- **The matches of a rewritten text.** -/
theorem mem_found_sub (h : Opens opens read)
    (hwrite : ∀ g, read (write g) = some (value g, [])) {l : List α} {b : β} :
    b ∈ found (scan read (sub write keep read l)) ↔
      (∃ b' ∈ found (scan read l), ∃ g ∈ keep b', b = value g) ∨
        ∃ before mid after, scan read l = before ++ (mid ++ after) ∧
          (∀ p ∈ mid, Vanishing keep p) ∧
            read (mid.flatMap (rewrite write keep)) = some (b, []) := by
  constructor
  · intro hb
    obtain ⟨xs, m, ys, heq, hm⟩ := (mem_found_iff h).1 hb
    refine (match_in_rewrite h hwrite hm heq.symm).imp_right ?_
    rintro ⟨before, mid, after, hps, hmid, rfl⟩
    exact ⟨before, mid, after, hps, hmid, hm⟩
  · rintro (⟨b', hb', g, hg, rfl⟩ | ⟨before, mid, after, hps, -, hm⟩)
    · have hwritten : value g ∈ ((found (scan read l)).flatMap keep).map value :=
        List.mem_map_of_mem (List.mem_flatMap.2 ⟨b', hb', hg⟩)
      exact (found_sublist_rewrite h hwrite [] (scan read l)).subset hwritten
    · refine (mem_found_iff h).2 ⟨before.flatMap (rewrite write keep), _,
        after.flatMap (rewrite write keep), ?_, hm⟩
      unfold sub
      rw [hps, List.flatMap_append, List.flatMap_append]

end

end Scan
