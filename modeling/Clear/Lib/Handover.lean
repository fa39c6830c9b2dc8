import Clear.Lib.Machine
import Mathlib.Data.List.Nodup
import Mathlib.Logic.Function.Basic

/-!
# Handing items over in two steps

Movers take batches of items from a source. A mover copies the first item of its batch to the
destination and then drops it from the source. Items may also be delivered at once.

* `reach_kept`: whatever the movers do, an item is in the source or has been copied,
* `copies_le_one`: it is copied at most once if no two movers hold it at a time.
-/

namespace Handover

variable {α ι : Type} [DecidableEq α] [DecidableEq ι]

/-- `held` is what a mover has yet to move, and `copied` whether the first of it has been copied. -/
@[ext] structure State (α ι : Type) where
  known : List α
  source : List α
  copies : α → Nat
  held : ι → List α
  copied : ι → Bool

inductive Action (α ι : Type) where
  | deliver (a : α)
  | park (a : α)
  | grab (i : ι) (batch : List α)
  | copy (i : ι)
  | drop (i : ι)

def addCopy (copies : α → Nat) (a : α) : α → Nat := Function.update copies a (copies a + 1)

theorem addCopy_self (copies : α → Nat) (a : α) : addCopy copies a a = copies a + 1 :=
  Function.update_self ..

theorem addCopy_of_ne {copies : α → Nat} {a b : α} (h : b ≠ a) : addCopy copies a b = copies b :=
  Function.update_of_ne h ..

theorem le_addCopy (copies : α → Nat) (a b : α) : copies b ≤ addCopy copies a b := by
  by_cases h : b = a
  · subst h
    rw [addCopy_self]
    omega
  · exact Nat.le_of_eq (addCopy_of_ne h).symm

def step (s : State α ι) : Action α ι → Option (State α ι)
  | .deliver a =>
    if a ∈ s.known then none
    else some { s with known := a :: s.known, copies := addCopy s.copies a }
  | .park a =>
    if a ∈ s.known then none else some { s with known := a :: s.known, source := a :: s.source }
  | .grab i batch =>
    if s.held i = [] ∧ batch.Nodup ∧ ∀ a ∈ batch, a ∈ s.source then
      some { s with
        held := Function.update s.held i batch
        copied := Function.update s.copied i false }
    else none
  | .copy i =>
    match s.held i, s.copied i with
    | a :: _, false =>
      some { s with
        copies := addCopy s.copies a
        copied := Function.update s.copied i true }
    | _, _ => none
  | .drop i =>
    match s.held i, s.copied i with
    | a :: rest, true =>
      some { s with
        source := s.source.filter (· ≠ a)
        held := Function.update s.held i rest
        copied := Function.update s.copied i false }
    | _, _ => none

/-- Nothing is known, and nobody holds anything. -/
def empty : State α ι where
  known := []
  source := []
  copies _ := 0
  held _ := []
  copied _ := false

def machine : Machine (State α ι) (Action α ι) where
  init s := s = empty
  step := step

/-! ## What a step does -/

/-- The steps, with what each of them requires. -/
inductive Stepped (s : State α ι) : Action α ι → State α ι → Prop
  | deliver {a : α} (h : a ∉ s.known) :
      Stepped s (.deliver a) { s with known := a :: s.known, copies := addCopy s.copies a }
  | park {a : α} (h : a ∉ s.known) :
      Stepped s (.park a) { s with known := a :: s.known, source := a :: s.source }
  | grab {i : ι} {batch : List α} (hidle : s.held i = []) (hnodup : batch.Nodup)
      (hsource : ∀ a ∈ batch, a ∈ s.source) :
      Stepped s (.grab i batch)
        { s with
          held := Function.update s.held i batch
          copied := Function.update s.copied i false }
  | copy {i : ι} {a : α} {rest : List α} (hheld : s.held i = a :: rest)
      (hcopied : s.copied i = false) :
      Stepped s (.copy i)
        { s with
          copies := addCopy s.copies a
          copied := Function.update s.copied i true }
  | drop {i : ι} {a : α} {rest : List α} (hheld : s.held i = a :: rest)
      (hcopied : s.copied i = true) :
      Stepped s (.drop i)
        { s with
          source := s.source.filter (· ≠ a)
          held := Function.update s.held i rest
          copied := Function.update s.copied i false }

theorem stepped {s t : State α ι} {action : Action α ι} (h : step s action = some t) :
    Stepped s action t := by
  unfold step at h
  cases action with
  | deliver a =>
    dsimp only at h
    split at h
    · cases h
    · cases h
      exact .deliver ‹_›
  | park a =>
    dsimp only at h
    split at h
    · cases h
    · cases h
      exact .park ‹_›
  | grab i batch =>
    dsimp only at h
    split at h
    next hg =>
      cases h
      exact .grab hg.1 hg.2.1 hg.2.2
    · cases h
  | copy i =>
    dsimp only at h
    split at h
    next hheld hcopied =>
      cases h
      exact .copy hheld hcopied
    · cases h
  | drop i =>
    dsimp only at h
    split at h
    next hheld hcopied =>
      cases h
      exact .drop hheld hcopied
    · cases h

/-! ## Nothing is lost -/

structure Kept (s : State α ι) : Prop where
  somewhere : ∀ a ∈ s.known, a ∈ s.source ∨ 0 < s.copies a
  copied : ∀ i a rest, s.held i = a :: rest → s.copied i = true → 0 < s.copies a

theorem Kept.step {s t : State α ι} {action : Action α ι} (hs : Kept s)
    (h : Stepped s action t) : Kept t := by
  cases h with
  | @deliver a hfresh =>
    refine ⟨fun b hb => ?_, fun i b rest hheld hcopied => ?_⟩
    · rcases List.mem_cons.1 hb with rfl | hb
      · right
        show 0 < addCopy s.copies b b
        rw [addCopy_self]
        omega
      · exact (hs.somewhere b hb).imp_right (Nat.lt_of_lt_of_le · (le_addCopy ..))
    · exact Nat.lt_of_lt_of_le (hs.copied i b rest hheld hcopied) (le_addCopy ..)
  | @park a hfresh =>
    refine ⟨fun b hb => ?_, hs.copied⟩
    rcases List.mem_cons.1 hb with rfl | hb
    · exact .inl List.mem_cons_self
    · exact (hs.somewhere b hb).imp_left (List.mem_cons_of_mem _)
  | @grab i batch hidle hnodup hsource =>
    refine ⟨hs.somewhere, fun j b rest hheld hcopied => ?_⟩
    by_cases hj : j = i
    · subst hj
      simp at hcopied
    · exact hs.copied j b rest (by simpa [hj] using hheld) (by simpa [hj] using hcopied)
  | @copy i a rest hheld hnot =>
    refine ⟨fun b hb => ?_, fun j b rest' hheld' hcopied => ?_⟩
    · exact (hs.somewhere b hb).imp_right (Nat.lt_of_lt_of_le · (le_addCopy ..))
    · by_cases hj : j = i
      · subst hj
        obtain rfl : a = b := (List.cons.inj (hheld.symm.trans hheld')).1
        show 0 < addCopy s.copies a a
        rw [addCopy_self]
        omega
      · exact Nat.lt_of_lt_of_le
          (hs.copied j b rest' hheld' (by simpa [hj] using hcopied)) (le_addCopy ..)
  | @drop i a rest hheld hcopied =>
    refine ⟨fun b hb => ?_, fun j b rest' hheld' hcopied' => ?_⟩
    · by_cases hba : b = a
      · subst hba
        exact .inr (hs.copied i b rest hheld hcopied)
      · exact (hs.somewhere b hb).imp_left fun hmem =>
          List.mem_filter.2 ⟨hmem, by simpa using hba⟩
    · by_cases hj : j = i
      · subst hj
        simp at hcopied'
      · exact hs.copied j b rest' (by simpa [hj] using hheld') (by simpa [hj] using hcopied')

/-- **Nothing is lost**, however the movers interleave. -/
theorem reach_kept {s : State α ι} (hs : machine.Reach s) : Kept s :=
  Machine.Invariant.reach (G := Machine.anyStep)
    { init := fun s h => by
        cases h
        exact ⟨nofun, nofun⟩
      step := fun s a t hkept _ h => hkept.step (stepped h) } hs

/-! ## Nothing is copied twice -/

variable {s : State α ι}

/-- No two movers hold an item at a time. -/
def Exclusive (s : State α ι) : Action α ι → Prop
  | .grab _ batch => ∀ a ∈ batch, ∀ j, a ∉ s.held j
  | _ => True

/-- A mover has copied the item and is about to drop it. -/
def Moving (s : State α ι) (a : α) : Prop :=
  ∃ i rest, s.held i = a :: rest ∧ s.copied i = true

/-- Who holds what, and what has been copied of it. -/
structure Once (s : State α ι) : Prop where
  fresh : ∀ a, a ∉ s.known → a ∉ s.source ∧ s.copies a = 0
  held_source : ∀ i, ∀ a ∈ s.held i, a ∈ s.source
  held_nodup : ∀ i, (s.held i).Nodup
  held_once : ∀ i j a, a ∈ s.held i → a ∈ s.held j → i = j
  moving : ∀ a, Moving s a → s.copies a = 1
  waiting : ∀ a ∈ s.source, ¬ Moving s a → s.copies a = 0
  gone : ∀ a, a ∉ s.source → s.copies a ≤ 1

omit [DecidableEq α] [DecidableEq ι] in
theorem Once.copies_le (h : Once s) (a : α) : s.copies a ≤ 1 := by
  by_cases hsource : a ∈ s.source
  · by_cases hmoving : Moving s a
    · exact Nat.le_of_eq (h.moving a hmoving)
    · exact Nat.le_trans (Nat.le_of_eq (h.waiting a hsource hmoving)) (Nat.zero_le 1)
  · exact h.gone a hsource

omit [DecidableEq α] [DecidableEq ι] in
theorem Once.source_of_moving (h : Once s) {a : α} (hmoving : Moving s a) : a ∈ s.source := by
  obtain ⟨i, rest, hheld, -⟩ := hmoving
  exact h.held_source i a (hheld ▸ List.mem_cons_self)

omit [DecidableEq ι] in
theorem Once.deliver (h : Once s) {a : α} (ha : a ∉ s.known) :
    Once { s with known := a :: s.known, copies := addCopy s.copies a } := by
  obtain ⟨hsource, hzero⟩ := h.fresh a ha
  have hother {b : α} (hb : b ≠ a) : addCopy s.copies a b = s.copies b := addCopy_of_ne hb
  have hne {b : α} (hb : b ∈ s.source) : b ≠ a := fun heq => hsource (heq ▸ hb)
  refine ⟨fun b hb => ?_, h.held_source, h.held_nodup, h.held_once, fun b hb => ?_,
    fun b hb hnot => ?_, fun b hb => ?_⟩
  · rw [List.mem_cons, not_or] at hb
    exact ⟨(h.fresh b hb.2).1, (hother hb.1).trans (h.fresh b hb.2).2⟩
  · exact (hother (hne (h.source_of_moving hb))).trans (h.moving b hb)
  · exact (hother (hne hb)).trans (h.waiting b hb hnot)
  · by_cases hba : b = a
    · subst hba
      exact Nat.le_of_eq ((addCopy_self s.copies b).trans (congrArg (· + 1) hzero))
    · exact Nat.le_trans (Nat.le_of_eq (hother hba)) (h.gone b hb)

omit [DecidableEq α] [DecidableEq ι] in
theorem Once.park (h : Once s) {a : α} (ha : a ∉ s.known) :
    Once { s with known := a :: s.known, source := a :: s.source } := by
  obtain ⟨hsource, hzero⟩ := h.fresh a ha
  refine ⟨fun b hb => ?_, fun i b hb => List.mem_cons_of_mem _ (h.held_source i b hb), h.held_nodup,
    h.held_once, h.moving, fun b hb hnot => ?_, fun b hb => ?_⟩
  · rw [List.mem_cons, not_or] at hb
    exact ⟨List.not_mem_cons_of_ne_of_not_mem hb.1 (h.fresh b hb.2).1, (h.fresh b hb.2).2⟩
  · rcases List.mem_cons.1 hb with rfl | hb
    · exact hzero
    · exact h.waiting b hb hnot
  · exact h.gone b fun hmem => hb (List.mem_cons_of_mem _ hmem)

omit [DecidableEq α] in
theorem moving_grab {i : ι} {batch : List α} {a : α} (hidle : s.held i = []) :
    Moving { s with
        held := Function.update s.held i batch
        copied := Function.update s.copied i false } a ↔ Moving s a := by
  refine ⟨fun ⟨j, rest, hheld, hcopied⟩ => ?_, fun ⟨j, rest, hheld, hcopied⟩ => ?_⟩
  · by_cases hj : j = i
    · subst hj
      simp at hcopied
    · exact ⟨j, rest, by simpa [hj] using hheld, by simpa [hj] using hcopied⟩
  · have hj : j ≠ i := by
      rintro rfl
      rw [hidle] at hheld
      cases hheld
    exact ⟨j, rest, by simpa [hj] using hheld, by simpa [hj] using hcopied⟩

omit [DecidableEq α] in
theorem Once.grab (h : Once s) {i : ι} {batch : List α} (hidle : s.held i = [])
    (hnodup : batch.Nodup) (hsource : ∀ a ∈ batch, a ∈ s.source)
    (hexclusive : ∀ a ∈ batch, ∀ j, a ∉ s.held j) :
    Once { s with
      held := Function.update s.held i batch
      copied := Function.update s.copied i false } := by
  refine ⟨h.fresh, fun j b hb => ?_, fun j => ?_, fun j k b hj hk => ?_,
    fun b hb => h.moving b ((moving_grab hidle).1 hb),
    fun b hb hnot => h.waiting b hb fun hmoving => hnot ((moving_grab hidle).2 hmoving), h.gone⟩
  · by_cases hji : j = i
    · subst hji
      exact hsource b (by simpa using hb)
    · exact h.held_source j b (by simpa [hji] using hb)
  · by_cases hji : j = i
    · subst hji
      simpa using hnodup
    · simpa [hji] using h.held_nodup j
  · by_cases hji : j = i
    · subst hji
      by_cases hkj : k = j
      · exact hkj.symm
      · exact absurd (by simpa [hkj] using hk) (hexclusive b (by simpa using hj) k)
    · by_cases hki : k = i
      · subst hki
        exact absurd (by simpa [hji] using hj) (hexclusive b (by simpa using hk) j)
      · exact h.held_once j k b (by simpa [hji] using hj) (by simpa [hki] using hk)

/-- A copy is made by the one mover that holds the item. -/
theorem moving_copy {i : ι} {a b : α} {rest : List α} (hheld : s.held i = a :: rest) :
    Moving { s with
        copies := addCopy s.copies a
        copied := Function.update s.copied i true } b ↔ b = a ∨ Moving s b := by
  refine ⟨fun ⟨j, rest', hheld', hcopied⟩ => ?_, ?_⟩
  · by_cases hj : j = i
    · subst hj
      exact .inl (List.cons.inj (hheld'.symm.trans hheld)).1
    · exact .inr ⟨j, rest', hheld', by simpa [hj] using hcopied⟩
  · rintro (rfl | ⟨j, rest', hheld', hcopied⟩)
    · exact ⟨i, rest, hheld, by simp⟩
    · by_cases hj : j = i
      · subst hj
        exact ⟨j, rest', hheld', by simp⟩
      · exact ⟨j, rest', hheld', by simpa [hj] using hcopied⟩

theorem Once.copy (h : Once s) {i : ι} {a : α} {rest : List α} (hheld : s.held i = a :: rest)
    (hcopied : s.copied i = false) :
    Once { s with
      copies := addCopy s.copies a
      copied := Function.update s.copied i true } := by
  have hmem : a ∈ s.held i := hheld ▸ List.mem_cons_self
  have hsource := h.held_source i a hmem
  have hknown : a ∈ s.known := by
    by_contra hnot
    exact (h.fresh a hnot).1 hsource
  have hnot : ¬ Moving s a := by
    rintro ⟨j, rest', hheld', hcopied'⟩
    obtain rfl : i = j := h.held_once i j a hmem (hheld' ▸ List.mem_cons_self)
    rw [hcopied] at hcopied'
    cases hcopied'
  refine ⟨fun b hb => ?_, h.held_source, h.held_nodup, h.held_once, fun b hb => ?_,
    fun b hb hstill => ?_, fun b hb => ?_⟩
  · have hba : b ≠ a := fun heq => hb (heq ▸ hknown)
    exact ⟨(h.fresh b hb).1, (addCopy_of_ne hba).trans (h.fresh b hb).2⟩
  · show addCopy s.copies a b = 1
    by_cases hba : b = a
    · subst hba
      exact (addCopy_self s.copies b).trans (congrArg (· + 1) (h.waiting b hsource hnot))
    · rw [addCopy_of_ne hba]
      exact h.moving b (((moving_copy hheld).1 hb).resolve_left hba)
  · rw [moving_copy hheld, not_or] at hstill
    exact (addCopy_of_ne hstill.1).trans (h.waiting b hb hstill.2)
  · have hba : b ≠ a := fun heq => hb (heq ▸ hsource)
    exact Nat.le_trans (Nat.le_of_eq (addCopy_of_ne hba)) (h.gone b hb)

theorem Once.drop (h : Once s) {i : ι} {a : α} {rest : List α} (hheld : s.held i = a :: rest)
    (hcopied : s.copied i = true) :
    Once { s with
      source := s.source.filter (· ≠ a)
      held := Function.update s.held i rest
      copied := Function.update s.copied i false } := by
  have hmem : a ∈ s.held i := hheld ▸ List.mem_cons_self
  have hnodup := h.held_nodup i
  rw [hheld, List.nodup_cons] at hnodup
  have hsub {j : ι} {b : α} (hb : b ∈ Function.update s.held i rest j) : b ∈ s.held j := by
    by_cases hji : j = i
    · subst hji
      rw [hheld]
      exact List.mem_cons_of_mem _ (by simpa using hb)
    · simpa [hji] using hb
  have hne {j : ι} {b : α} (hb : b ∈ Function.update s.held i rest j) : b ≠ a := by
    rintro rfl
    by_cases hji : j = i
    · subst hji
      exact hnodup.1 (by simpa using hb)
    · exact hji (h.held_once j i b (hsub hb) hmem)
  have hmoving {b : α} (hb : b ≠ a) :
      Moving { s with
        source := s.source.filter (· ≠ a)
        held := Function.update s.held i rest
        copied := Function.update s.copied i false } b ↔ Moving s b := by
    refine ⟨fun ⟨j, rest', hheld', hcopied'⟩ => ?_, fun ⟨j, rest', hheld', hcopied'⟩ => ?_⟩
    · by_cases hji : j = i
      · subst hji
        simp at hcopied'
      · exact ⟨j, rest', by simpa [hji] using hheld', by simpa [hji] using hcopied'⟩
    · have hji : j ≠ i := by
        rintro rfl
        exact hb (List.cons.inj (hheld'.symm.trans hheld)).1
      exact ⟨j, rest', by simpa [hji] using hheld', by simpa [hji] using hcopied'⟩
  refine ⟨fun b hb => ?_, fun j b hb => ?_, fun j => ?_, fun j k b hj hk => ?_, fun b hb => ?_,
    fun b hb hstill => ?_, fun b hb => ?_⟩
  · exact ⟨fun hin => (h.fresh b hb).1 (List.mem_filter.1 hin).1, (h.fresh b hb).2⟩
  · exact List.mem_filter.2 ⟨h.held_source j b (hsub hb), by simpa using hne hb⟩
  · by_cases hji : j = i
    · subst hji
      simpa using hnodup.2
    · simpa [hji] using h.held_nodup j
  · exact h.held_once j k b (hsub hj) (hsub hk)
  · have hba : b ≠ a := by
      obtain ⟨j, rest', hheld', -⟩ := hb
      exact hne (hheld' ▸ List.mem_cons_self)
    exact h.moving b ((hmoving hba).1 hb)
  · obtain ⟨hin, hba⟩ := List.mem_filter.1 hb
    have hba : b ≠ a := by simpa using hba
    exact h.waiting b hin fun hm => hstill ((hmoving hba).2 hm)
  · by_cases hba : b = a
    · subst hba
      exact Nat.le_of_eq (h.moving b ⟨i, rest, hheld, hcopied⟩)
    · exact h.gone b fun hin => hb (List.mem_filter.2 ⟨hin, by simpa using hba⟩)

theorem Once.step {t : State α ι} {action : Action α ι} (hs : Once s) (hG : Exclusive s action)
    (h : Stepped s action t) : Once t := by
  cases h with
  | deliver hfresh => exact hs.deliver hfresh
  | park hfresh => exact hs.park hfresh
  | grab hidle hnodup hsource => exact hs.grab hidle hnodup hsource hG
  | copy hheld hcopied => exact hs.copy hheld hcopied
  | drop hheld hcopied => exact hs.drop hheld hcopied

omit [DecidableEq α] [DecidableEq ι] in
theorem once_empty : Once (empty : State α ι) where
  fresh _ _ := ⟨nofun, rfl⟩
  held_source _ _ := nofun
  held_nodup _ := List.nodup_nil
  held_once _ _ _ := nofun
  moving := fun _ ⟨_, _, hheld, _⟩ => nomatch hheld
  waiting _ _ _ := rfl
  gone _ _ := Nat.zero_le 1

/-- **Nothing is copied twice** as long as no two movers hold an item at a time. -/
theorem copies_le_one (hs : machine.ReachIf Exclusive s) (a : α) : s.copies a ≤ 1 :=
  (Machine.Invariant.reach (I := Once)
    { init := fun s h => by
        cases h
        exact once_empty
      step := fun s a t honce hG h => honce.step hG (stepped h) } hs).copies_le a

end Handover
