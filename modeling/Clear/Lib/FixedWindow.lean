import Mathlib.Data.List.Basic
import Mathlib.Logic.Function.Basic

/-!
# Counting in fixed windows

A counter of a key begins with the first arrival that finds none alive, lives for `width`, and counts
the arrivals of its key. `run` numbers each arrival in its counter; a limit admits the numbers up to
it.

* `counts_window`: the arrivals of the key that opens a window are numbered one by one,
* `exists_opener`: an arrival belongs to a counter that an earlier one, or itself, has opened,
* `bounded_iff`: no window admits more than the limit over all keys together exactly if every window
  holds no more arrivals than the limit, or arrivals of one key only.
-/

namespace FixedWindow

variable {κ ι : Type} [DecidableEq κ]

structure Counter where
  count : Nat
  expires : Nat
  deriving DecidableEq

abbrev Table (κ : Type) := κ → Option Counter

structure Arrival (κ ι : Type) where
  key : κ
  time : Nat
  what : ι

def live (t : Table κ) (key : κ) (now : Nat) : Option Counter := (t key).filter (now < ·.expires)

def counted (width : Nat) (t : Table κ) (a : Arrival κ ι) : Counter :=
  match live t a.key a.time with
  | none => { count := 1, expires := a.time + width }
  | some c => { c with count := c.count + 1 }

def hit (width : Nat) (t : Table κ) (a : Arrival κ ι) : Table κ :=
  Function.update t a.key (some (counted width t a))

structure Hit (κ ι : Type) where
  arrival : Arrival κ ι
  count : Nat

def run (width : Nat) (t : Table κ) : List (Arrival κ ι) → List (Hit κ ι)
  | [] => []
  | a :: as => ⟨a, (counted width t a).count⟩ :: run width (hit width t a) as

def window (width : Nat) (h : Hit κ ι) (rest : List (Hit κ ι)) : List (Hit κ ι) :=
  h :: rest.takeWhile (·.arrival.time < h.arrival.time + width)

def admitted (limit : Nat) (hits : List (Hit κ ι)) : Nat := hits.countP (·.count ≤ limit)

def Bounded (width limit : Nat) (hits : List (Hit κ ι)) : Prop :=
  ∀ pre h rest, hits = pre ++ h :: rest → h.count = 1 →
    admitted limit (window width h rest) ≤ limit

def Lone (width limit : Nat) (hits : List (Hit κ ι)) : Prop :=
  ∀ pre h rest, hits = pre ++ h :: rest → h.count = 1 →
    (window width h rest).length ≤ limit ∨ ∀ g ∈ window width h rest, g.arrival.key = h.arrival.key

/-- In the order of their times. -/
def Sorted (hits : List (Hit κ ι)) : Prop := hits.Pairwise (·.arrival.time ≤ ·.arrival.time)

variable {width limit : Nat} {t : Table κ} {as : List (Arrival κ ι)} {hits : List (Hit κ ι)}

theorem run_arrivals (width : Nat) (t : Table κ) (as : List (Arrival κ ι)) :
    (run width t as).map (·.arrival) = as := by
  induction as generalizing t with
  | nil => rfl
  | cons a as ih =>
    rw [run, List.map_cons, ih]

omit [DecidableEq κ] in
theorem counted_pos (width : Nat) (t : Table κ) (a : Arrival κ ι) :
    0 < (counted width t a).count := by
  unfold counted
  split <;> simp

theorem count_pos {h : Hit κ ι} (hmem : h ∈ run width t as) : 0 < h.count := by
  induction as generalizing t with
  | nil => cases hmem
  | cons a as ih =>
    rcases List.mem_cons.1 hmem with rfl | hmem
    · exact counted_pos width t a
    · exact ih hmem

theorem sorted_run (width : Nat) (t : Table κ) (h : as.Pairwise (·.time ≤ ·.time)) : Sorted (run width t as) := by
  unfold Sorted
  rw [← run_arrivals width t as, List.pairwise_map] at h
  exact h

/-! ## The numbers of a key -/

def numbers (key : κ) (hits : List (Hit κ ι)) : List Nat :=
  (hits.filter (·.arrival.key = key)).map (·.count)

theorem numbers_append (key : κ) (hits hits' : List (Hit κ ι)) :
    numbers key (hits ++ hits') = numbers key hits ++ numbers key hits' := by
  unfold numbers
  rw [List.filter_append, List.map_append]

theorem numbers_self (a : Arrival κ ι) (n : Nat) (hits : List (Hit κ ι)) :
    numbers a.key (⟨a, n⟩ :: hits) = n :: numbers a.key hits := by
  unfold numbers
  rw [List.filter_cons_of_pos (by simp), List.map_cons]

theorem numbers_other {key : κ} {a : Arrival κ ι} (hkey : a.key ≠ key) (n : Nat)
    (hits : List (Hit κ ι)) : numbers key (⟨a, n⟩ :: hits) = numbers key hits := by
  unfold numbers
  rw [List.filter_cons_of_neg (by simpa using hkey)]

omit [DecidableEq κ] in
theorem counted_of_live (width : Nat) {c : Counter} {a : Arrival κ ι} (h : t a.key = some c)
    (hlive : a.time < c.expires) : counted width t a = { c with count := c.count + 1 } := by
  have : live t a.key a.time = some c := by
    unfold live
    rw [h, Option.filter_some, if_pos (by simpa using hlive)]
  unfold counted
  rw [this]

theorem counts_window (width : Nat) (as : List (Arrival κ ι)) {key : κ} {c : Counter} (h : t key = some c) :
    ∃ n, numbers key ((run width t as).takeWhile (·.arrival.time < c.expires)) =
      List.range' (c.count + 1) n := by
  induction as generalizing t c with
  | nil => exact ⟨0, rfl⟩
  | cons a as ih =>
    rw [run]
    by_cases hlive : a.time < c.expires
    · rw [List.takeWhile_cons_of_pos (by simpa using hlive)]
      by_cases hkey : a.key = key
      · subst hkey
        have hcounted := counted_of_live width h hlive
        have hnext : hit width t a a.key = some { c with count := c.count + 1 } := by
          unfold hit
          rw [Function.update_self, hcounted]
        obtain ⟨n, hn⟩ := ih hnext
        refine ⟨n + 1, ?_⟩
        rw [numbers_self, hn, hcounted]
        rfl
      · have hnext : hit width t a key = some c := by
          unfold hit
          rw [Function.update_of_ne (Ne.symm hkey), h]
        obtain ⟨n, hn⟩ := ih hnext
        refine ⟨n, ?_⟩
        rw [numbers_other hkey, hn]
    · rw [List.takeWhile_cons_of_neg (by simpa using hlive)]
      exact ⟨0, rfl⟩

/-! ## Who has opened a counter -/

def Tracks (width : Nat) (t : Table κ) (hits : List (Hit κ ι)) : Prop :=
  ∀ key c, t key = some c → ∃ before opener later, hits = before ++ opener :: later ∧
    opener.arrival.key = key ∧ opener.count = 1 ∧ c.expires = opener.arrival.time + width ∧
    numbers key (opener :: later) = List.range' 1 c.count

theorem tracks_empty : Tracks width (fun _ => none : Table κ) ([] : List (Hit κ ι)) := by
  intro key c h
  cases h

theorem tracks_hit (h : Tracks width t hits) (a : Arrival κ ι) :
    Tracks width (hit width t a) (hits ++ [⟨a, (counted width t a).count⟩]) := by
  intro key c hc
  unfold hit at hc
  by_cases hkey : key = a.key
  · subst hkey
    rw [Function.update_self, Option.some.injEq] at hc
    subst hc
    unfold counted
    split
    next => exact ⟨hits, _, [], rfl, rfl, rfl, rfl, by rw [numbers_self]; rfl⟩
    next c hlive =>
      unfold live at hlive
      obtain ⟨before, opener, later, rfl, hopener, hone, hexpires, hnumbers⟩ :=
        h a.key c (Option.filter_eq_some_iff.1 hlive).1
      refine ⟨before, opener, later ++ [⟨a, c.count + 1⟩], by simp, hopener, hone, hexpires,
        ?_⟩
      rw [← List.cons_append, numbers_append, hnumbers, numbers_self, List.range'_concat]
      simp [numbers, Nat.add_comm]
  · rw [Function.update_of_ne hkey] at hc
    obtain ⟨before, opener, later, rfl, hopener, hone, hexpires, hnumbers⟩ := h key c hc
    refine ⟨before, opener, later ++ [⟨a, (counted width t a).count⟩], by simp, hopener, hone,
      hexpires, ?_⟩
    rw [← List.cons_append, numbers_append, hnumbers, numbers_other (Ne.symm hkey)]
    simp [numbers]

theorem run_split (ht : Tracks width t hits) {pre rest : List (Hit κ ι)} {h : Hit κ ι}
    (heq : run width t as = pre ++ h :: rest) :
    ∃ t₀ as', Tracks width t₀ (hits ++ pre) ∧ h.count = (counted width t₀ h.arrival).count ∧
      rest = run width (hit width t₀ h.arrival) as' := by
  induction as generalizing t hits pre with
  | nil => simp [run] at heq
  | cons a as ih =>
    rw [run] at heq
    cases pre with
    | nil =>
      obtain ⟨rfl, rfl⟩ := List.cons.inj heq
      exact ⟨t, as, by simpa using ht, rfl, rfl⟩
    | cons g pre =>
      obtain ⟨rfl, hrest⟩ := List.cons.inj heq
      obtain ⟨t₀, as', htracks, hcount, hrun⟩ := ih (tracks_hit ht a) hrest
      exact ⟨t₀, as', by simpa using htracks, hcount, hrun⟩

/-! ## Windows of a run -/

section

variable {pre rest : List (Hit κ ι)} {h : Hit κ ι}

/-- A hit, the hit that has opened its counter, and the numbers of its key between the two. -/
theorem exists_opener (hw : 0 < width)
    (heq : run width (fun _ => none) as = pre ++ h :: rest) :
    ∃ before opener later, pre ++ [h] = before ++ opener :: later ∧
      opener.arrival.key = h.arrival.key ∧ opener.count = 1 ∧
      h.arrival.time < opener.arrival.time + width ∧
      numbers h.arrival.key (opener :: later) = List.range' 1 h.count := by
  obtain ⟨t₀, as', htracks, hcount, -⟩ := run_split tracks_empty heq
  have hself : hit width t₀ h.arrival h.arrival.key = some (counted width t₀ h.arrival) := by
    unfold hit
    rw [Function.update_self]
  have halive : h.arrival.time < (counted width t₀ h.arrival).expires := by
    unfold counted
    split
    · exact Nat.lt_add_of_pos_right hw
    next c hlive =>
      unfold live at hlive
      simpa using (Option.filter_eq_some_iff.1 hlive).2
  obtain ⟨before, opener, later, hsplit, hkey, hone, hexpires, hnumbers⟩ :=
    tracks_hit htracks h.arrival h.arrival.key _ hself
  refine ⟨before, opener, later, ?_, hkey, hone, hexpires ▸ halive, ?_⟩
  · rw [← hsplit, ← hcount]
    rfl
  · rw [hnumbers, hcount]

theorem opens_window (heq : run width (fun _ => none) as = pre ++ h :: rest)
    (hone : h.count = 1) :
    ∃ n, numbers h.arrival.key (window width h rest) = List.range' 1 n := by
  obtain ⟨t₀, as', htracks, hcount, rfl⟩ := run_split tracks_empty heq
  have hcounted : counted width t₀ h.arrival =
      { count := 1, expires := h.arrival.time + width } := by
    unfold counted at hcount ⊢
    split at hcount
    · rfl
    next c hlive =>
      -- a counter that is alive has counted its opener
      unfold live at hlive
      obtain ⟨before, opener, later, -, hkey, -, -, hnumbers⟩ :=
        htracks h.arrival.key c (Option.filter_eq_some_iff.1 hlive).1
      have hzero : c.count = 0 := by
        have hsucc : h.count = c.count + 1 := hcount
        omega
      have hmem : opener.count ∈ numbers h.arrival.key (opener :: later) :=
        List.mem_map.2 ⟨opener, List.mem_filter.2 ⟨List.mem_cons_self, by simpa using hkey⟩, rfl⟩
      rw [hnumbers, hzero] at hmem
      cases hmem
  have hself : hit width t₀ h.arrival h.arrival.key =
      some { count := 1, expires := h.arrival.time + width } := by
    unfold hit
    rw [Function.update_self, hcounted]
  obtain ⟨n, hn⟩ := counts_window width as' hself
  refine ⟨n + 1, ?_⟩
  have hcons : numbers h.arrival.key (window width h (run width (hit width t₀ h.arrival) as')) =
      h.count :: numbers h.arrival.key
        ((run width (hit width t₀ h.arrival) as').takeWhile
          (·.arrival.time < h.arrival.time + width)) := numbers_self h.arrival h.count _
  rw [hcons, hone, hn]
  rfl

end

/-! ## Counting the admitted -/

theorem countP_range' (limit n : Nat) :
    (List.range' 1 n).countP (· ≤ limit) = min n limit := by
  induction n with
  | zero => simp
  | succ n ih =>
    rw [List.range'_concat, List.countP_append, ih, List.countP_singleton]
    split <;> simp at * <;> omega

theorem admitted_key (limit : Nat) {key : κ} {n : Nat} (h : numbers key hits = List.range' 1 n) :
    admitted limit (hits.filter (·.arrival.key = key)) = min n limit := by
  unfold admitted
  rw [← countP_range', ← h]
  unfold numbers
  rw [List.countP_map]
  rfl

theorem admitted_foreign {limit : Nat} {key : κ} {n : Nat} (h : numbers key hits = List.range' 1 n)
    {g : Hit κ ι} (hg : g ∈ hits) (hkey : g.arrival.key ≠ key) (hcount : g.count ≤ limit) :
    min n limit + 1 ≤ admitted limit hits := by
  have hsplit := List.countP_eq_countP_filter_add hits (·.count ≤ limit) (·.arrival.key = key)
  have hpos : 0 < (hits.filter fun x => !decide (x.arrival.key = key)).countP
      (·.count ≤ limit) := by
    refine List.countP_pos_iff.2 ⟨g, List.mem_filter.2 ⟨hg, by simpa using hkey⟩, ?_⟩
    simpa using hcount
  have hmine := admitted_key limit h
  unfold admitted at hmine ⊢
  rw [hsplit, hmine]
  omega

omit [DecidableEq κ] in
theorem admitted_sublist (limit : Nat) {hits' : List (Hit κ ι)} (h : hits.Sublist hits') :
    admitted limit hits ≤ admitted limit hits' := h.countP_le

/-! ## The bound over all keys -/

section

variable {pre rest : List (Hit κ ι)} {h : Hit κ ι}

omit [DecidableEq κ] in
theorem window_sublist (h : Hit κ ι) (rest : List (Hit κ ι)) :
    (window width h rest).Sublist (h :: rest) := (List.takeWhile_sublist _).cons_cons h

theorem foreign_admitted (hw : 0 < width) (hl : 0 < limit)
    (hs : as.Pairwise (·.time ≤ ·.time)) (hb : Bounded width limit (run width (fun _ => none) as))
    (heq : run width (fun _ => none) as = pre ++ h :: rest) (hone : h.count = 1)
    {x : Hit κ ι} (hx : x ∈ window width h rest) (hkey : x.arrival.key ≠ h.arrival.key) :
    x.count ≤ limit := by
  by_contra hrefused
  have hin : x ∈ rest.takeWhile (·.arrival.time < h.arrival.time + width) :=
    (List.mem_cons.1 hx).resolve_left fun heq => hkey (heq ▸ rfl)
  obtain ⟨r₁, r₂, hsplit⟩ := List.append_of_mem hin
  have hrest : rest = r₁ ++ x :: (r₂ ++
      rest.dropWhile (·.arrival.time < h.arrival.time + width)) := by
    have := List.takeWhile_append_dropWhile
      (p := fun g : Hit κ ι => decide (g.arrival.time < h.arrival.time + width)) (l := rest)
    rw [hsplit] at this
    simpa using this.symm
  generalize r₂ ++ rest.dropWhile (·.arrival.time < h.arrival.time + width) = later' at hrest
  have hfull : run width (fun _ => none) as = (pre ++ h :: r₁) ++ x :: later' := by
    rw [heq, hrest]
    simp
  obtain ⟨before, opener, later, hopener, hok, hoone, halive, hnumbers⟩ := exists_opener hw hfull
  have hmin : min x.count limit = limit := by omega
  have hlist : (pre ++ [h]) ++ (r₁ ++ [x]) = before ++ opener :: later := by
    rw [← hopener]
    simp
  have hwin : (h :: (r₁ ++ [x])).Sublist (window width h rest) := by
    unfold window
    rw [hsplit]
    refine List.Sublist.cons_cons h ?_
    exact ((List.sublist_append_left [x] r₂).append_left r₁ |>.trans (by simp))
  -- the counter of the hit was opened in the window, or it was alive when the window began
  have hinside : (opener :: later).Sublist (r₁ ++ [x]) → False := by
    intro hsub
    have hnum : numbers x.arrival.key (h :: opener :: later) = List.range' 1 x.count := by
      rw [← hnumbers]
      exact numbers_other (Ne.symm hkey) h.count _
    have hone' : h.count ≤ limit := by omega
    have hmore := admitted_foreign hnum List.mem_cons_self (Ne.symm hkey) hone'
    have hle := admitted_sublist limit ((hsub.cons_cons h).trans hwin)
    have := hb pre h rest heq hone
    omega
  rcases List.append_eq_append_iff.1 hlist with ⟨l, hbefore, hr⟩ | ⟨l, hpre, hlater⟩
  · exact hinside (hr ▸ List.sublist_append_right l _)
  · cases l with
    | nil => exact hinside (by rw [hlater]; simp)
    | cons o l =>
      obtain ⟨rfl, hl'⟩ := List.cons.inj hlater
      have hmem : h ∈ opener :: later := by
        have hlast : h ∈ opener :: l := by
          have := congrArg List.getLast? hpre
          simp only [List.getLast?_append, List.getLast?_singleton] at this
          exact List.mem_of_getLast? (by simpa using this.symm)
        rw [hl']
        exact List.mem_append_left (r₁ ++ [x]) hlast
      have hone' : h.count ≤ limit := by omega
      have hmore := admitted_foreign hnumbers hmem (Ne.symm hkey) hone'
      have hsuffix : run width (fun _ => none) as = before ++ opener :: (later ++ later') := by
        have hsplit : (pre ++ h :: r₁) ++ x :: later' = ((pre ++ h :: r₁) ++ [x]) ++ later' := by
          simp
        refine hfull.trans (hsplit.trans ((congrArg (· ++ later') hopener).trans ?_))
        exact List.append_assoc before (opener :: later) later'
      -- everything up to the hit is in the window of its opener
      have hbefore : ∀ g ∈ later, g.arrival.time < opener.arrival.time + width := by
        intro g hg
        have hsorted := sorted_run width (fun _ => none) hs
        unfold Sorted at hsorted
        have hend : later = l ++ r₁ ++ [x] := by rw [hl']; simp
        rw [hfull] at hsorted
        have hle : g.arrival.time ≤ x.arrival.time := by
          rw [hend] at hg
          rcases List.mem_append.1 hg with hg | hg
          · refine (List.pairwise_append.1 hsorted).2.2 g ?_ x List.mem_cons_self
            have hmem' : g ∈ (pre ++ [h]) ++ r₁ := by
              rw [hpre]
              rcases List.mem_append.1 hg with hg | hg <;> simp [hg]
            simpa using hmem'
          · have hgx : g = x := List.mem_singleton.1 hg
            exact Nat.le_of_eq (congrArg (fun hit => hit.arrival.time) hgx)
        omega
      have hprefix : (opener :: later).Sublist (window width opener (later ++ later')) := by
        unfold window
        rw [List.takeWhile_append_of_pos (by simpa using hbefore)]
        exact (List.sublist_append_left later _).cons_cons opener
      have hle := admitted_sublist limit hprefix
      have := hb before opener (later ++ later') hsuffix hoone
      omega

/-- **No window admits more than the limit exactly if every window holds no more arrivals than the
limit, or those of one key only.** -/
theorem bounded_iff (hw : 0 < width) (hl : 0 < limit) (hs : as.Pairwise (·.time ≤ ·.time)) :
    Bounded width limit (run width (fun _ => none) as) ↔
      Lone width limit (run width (fun _ => none) as) := by
  constructor
  · intro hb pre h rest heq hone
    by_contra hboth
    push Not at hboth
    obtain ⟨hmany, g, hg, hkey⟩ := hboth
    have hforeign := foreign_admitted hw hl hs hb heq hone hg hkey
    obtain ⟨n, hn⟩ := opens_window heq hone
    have hmore := admitted_foreign hn hg hkey hforeign
    have hbound := hb pre h rest heq hone
    -- so nothing is refused in the window
    have hall : ∀ x ∈ window width h rest, x.count ≤ limit := by
      intro x hx
      by_cases hxkey : x.arrival.key = h.arrival.key
      · have hmem : x.count ∈ numbers h.arrival.key (window width h rest) :=
          List.mem_map.2 ⟨x, List.mem_filter.2 ⟨hx, by simpa using hxkey⟩, rfl⟩
        rw [hn, List.mem_range'_1] at hmem
        omega
      · exact foreign_admitted hw hl hs hb heq hone hx hxkey
    have hlength : admitted limit (window width h rest) = (window width h rest).length :=
      List.countP_eq_length.2 fun x hx => by simpa using hall x hx
    omega
  · intro hlone pre h rest heq hone
    rcases hlone pre h rest heq hone with hfew | hsame
    · exact Nat.le_trans List.countP_le_length hfew
    · obtain ⟨n, hn⟩ := opens_window heq hone
      have hfilter : (window width h rest).filter (·.arrival.key = h.arrival.key) =
          window width h rest := List.filter_eq_self.2 fun g hg => by simpa using hsame g hg
      have := admitted_key limit hn
      rw [hfilter] at this
      omega

end

end FixedWindow
