import Clear.Ai.Parsers.Proof.LayoutParser

/-!
# What a page of the layout parser emits

Two conditions on a page: the headings that a table covers open no section that is needed
(`SectionsKept`), and no table begins inside a run of list items (`RunsUnbroken`). `Round` says what
one paragraph adds, `Reached` what the paragraphs before an index have added, `PageBuilt` what the
whole page adds: the order of the placements is kept exactly if no run is broken.
-/

namespace Clear

namespace LayoutParser

open Cdm Layout

/-! ## The conditions on a page -/

section

variable (std : Stdlib) (page : PageInput)

def tablesAt (i : Nat) : List (RawTable × Nat) :=
  withCells (page.tables.zipIdx.filter (·.1.anchor = i))

def kindAt (i : Nat) : Option Kind := page.raws[i]?.map fun raw => page.kind std (raw, i)

def openAfter (isOpen : Bool) : Option Kind → Bool
  | some (.item _ _) => true
  | some .furniture | some .heading | some .body => false
  | some .consumed | some .blank | none => isOpen

def listOpen : Nat → Bool
  | 0 => false
  | i + 1 => openAfter (listOpen i) (kindAt std page i)

def RunsUnbroken : Prop :=
  ∀ i < page.raws.length, tablesAt page i ≠ [] → listOpen std page i = false

/-- What a paragraph of a kind emits, an open run before it included, belongs to the last heading
before these indices. -/
def boundsOf (isOpen : Bool) (i : Nat) : Option Kind → List Nat
  | some .furniture => if isOpen then [i + 1] else []
  | some .heading => if isOpen then [i] else []
  | some .body => [i + 1]
  | some .consumed | some .blank | some (.item _ _) | none => []

def boundsAt (i : Nat) : List Nat :=
  (if tablesAt page i = [] then [] else [i + 1]) ++
    boundsOf (listOpen std page i) i (kindAt std page i)

def EmitsAtEnd : Prop :=
  listOpen std page page.raws.length = true ∨ ∃ i ≥ page.raws.length, tablesAt page i ≠ []

def SectionsKept : Prop :=
  (∀ i < page.raws.length, ∀ b ∈ boundsAt std page i, ∀ h,
    lastHeading std page.raws b = some h → h ∉ page.consumed) ∧
    (EmitsAtEnd std page → ∀ h,
      lastHeading std page.raws page.raws.length = some h → h ∉ page.consumed)

/-! ## One round -/

def sectionBefore (offset i : Nat) : Option String :=
  (lastHeading std page.raws i).map (headingId std page.raws page.number offset)

def sectionsAt (offset i : Nat) : List String :=
  if kindAt std page i = some .heading then [headingId std page.raws page.number offset i] else []

def tableIds (tables : List (RawTable × Nat)) : List String :=
  tables.map fun t => elementId page.number "table" t.2

end

/-- Where the elements of a page begin, an open run of list items included. -/
def PageState.queue (s : PageState) (page : Nat) : List (Nat × Nat) :=
  positions s.acc.placed ++ (s.pending.head?.map fun p => (page, p.first)).toList

section

variable {std : Stdlib} {page : PageInput} {plan : Plan} {offset i : Nat} {raw : ValueDict}
  {s s' : PageState}

theorem kindAt_of_get (hraw : page.raws[i]? = some raw) :
    kindAt std page i = some (page.kind std (raw, i)) := by
  unfold kindAt
  rw [hraw]
  rfl

theorem headingAt_of_kind (h : kindAt std page i = some .heading) :
    headingAt std page.raws i = true := by
  unfold kindAt at h
  obtain ⟨raw, hraw, h⟩ := Option.map_eq_some_iff.1 h
  unfold headingAt
  rw [hraw]
  unfold PageInput.kind at h
  split at h
  · cases h
  · split at h
    · cases h
    next hblank =>
      split at h
      · cases h
      · split at h
        next hrole =>
          show (headingRoles.contains _ && _) = true
          rw [hrole]
          simpa using hblank
        · split at h <;> cases h

theorem kindAt_of_heading (h : headingAt std page.raws i = true) (hfree : i ∉ page.consumed) :
    kindAt std page i = some .heading := by
  obtain ⟨raw, hraw, hheading⟩ := (Option.any_eq_true _ _).1 h
  rw [kindAt_of_get hraw]
  unfold isHeading at hheading
  rw [Bool.and_eq_true] at hheading
  have hrole : roleOf raw ∈ headingRoles := by simpa using hheading.1
  have hfurniture : ¬ furnitureRoles.contains (roleOf raw) = true := by
    have hall : headingRoles.all (fun role => !furnitureRoles.contains role) = true := by decide
    simpa using List.all_eq_true.1 hall _ hrole
  unfold PageInput.kind
  dsimp only
  rw [if_neg (by simpa using hfree), if_neg (by simpa using hheading.2), if_neg hfurniture,
    if_pos hheading.1]

/-- What one round does. The elements begin at the paragraph itself, except that a run that was open
begins at its first item. -/
structure Round (std : Stdlib) (page : PageInput) (offset i : Nat) (s s' : PageState) : Prop where
  tableAt : s'.tableAt = s.tableAt.filter (·.1 ≠ i)
  pending : s'.pending = [] ↔ listOpen std page (i + 1) = false
  first : ∀ p ∈ s'.pending, p ∈ s.pending ∨ p.first = i
  inv : s.acc.Inv → s'.acc.Inv
  pages : s'.acc.pages = s.acc.pages
  emptyPages : s'.acc.emptyPages = s.acc.emptyPages
  sections : s'.acc.sections.map (·.sectionId) =
    s.acc.sections.map (·.sectionId) ++ sectionsAt std page offset i
  tables : s'.acc.tables.map (·.tableId) =
    s.acc.tables.map (·.tableId) ++ tableIds page (tablesAt page i)
  refs : ∀ r, r ∈ s'.refs ↔ r ∈ s.refs ∨
    (∃ b ∈ boundsAt std page i, sectionBefore std page offset b = some r) ∨
      r ∈ sectionsAt std page offset i
  queue : ∃ own, (own = [] ∨ own = [(page.index, i)]) ∧
    s'.queue page.index = positions s.acc.placed ++
      (tablesAt page i).map (fun _ => (page.index, i)) ++
      (s.pending.head?.map fun p => (page.index, p.first)).toList ++ own

theorem Round.of_emits {s₁ : PageState} {refs : List String} {firsts : List Nat}
    (own : List (Nat × Nat)) (htableAt : s₁.tableAt = s.tableAt.filter (·.1 ≠ i))
    (htables : Emits page.index s s₁ [] (tableIds page (tablesAt page i))
      (if tablesAt page i = [] then [] else (sectionBefore std page offset (i + 1)).toList)
      ((tablesAt page i).map fun _ => i))
    (hemits : Emits page.index s₁ s' (sectionsAt std page offset i) [] refs firsts)
    (htableAt' : s'.tableAt = s₁.tableAt)
    (hpending' : s'.pending = [] ↔ listOpen std page (i + 1) = false)
    (hfirst : ∀ p ∈ s'.pending, p ∈ s.pending ∨ p.first = i)
    (hrefs : ∀ r, r ∈ refs ↔ (∃ b ∈ boundsOf (listOpen std page i) i (kindAt std page i),
      sectionBefore std page offset b = some r) ∨ r ∈ sectionsAt std page offset i)
    (hown : own = [] ∨ own = [(page.index, i)])
    (hqueue : firsts.map (page.index, ·) ++
        (s'.pending.head?.map fun p => (page.index, p.first)).toList =
      (s.pending.head?.map fun p => (page.index, p.first)).toList ++ own) :
    Round std page offset i s s' where
  tableAt := htableAt'.trans htableAt
  pending := hpending'
  first := hfirst
  inv := hemits.inv ∘ htables.inv
  pages := hemits.pages.trans htables.pages
  emptyPages := hemits.emptyPages.trans htables.emptyPages
  sections := by rw [hemits.sections, htables.sections, List.append_nil]
  tables := by rw [hemits.tables, htables.tables, List.append_nil]
  refs := fun r => by
    have hbounds : (∃ b ∈ boundsAt std page i, sectionBefore std page offset b = some r) ↔
        r ∈ (if tablesAt page i = [] then [] else (sectionBefore std page offset (i + 1)).toList) ∨
          ∃ b ∈ boundsOf (listOpen std page i) i (kindAt std page i),
            sectionBefore std page offset b = some r := by
      unfold boundsAt
      simp only [List.mem_append, or_and_right, exists_or]
      apply or_congr_left
      split <;> simp
    rw [hemits.refs, htables.refs, hrefs, hbounds, or_assoc, or_assoc]
  queue := by
    refine ⟨own, hown, ?_⟩
    unfold PageState.queue
    rw [hemits.positions, htables.positions, List.map_map, List.append_assoc, hqueue,
      ← List.append_assoc]
    rfl

/-- A round that closes an open run: `s₂` is the state after the run, `b` the bound of its section. -/
theorem Round.of_flush {s₁ s₂ : PageState} {b : Nat} {refs : List String} {firsts : List Nat}
    (hpending : s₁.pending = s.pending)
    (htableAt : s₁.tableAt = s.tableAt.filter (·.1 ≠ i))
    (htables : Emits page.index s s₁ [] (tableIds page (tablesAt page i))
      (if tablesAt page i = [] then [] else (sectionBefore std page offset (i + 1)).toList)
      ((tablesAt page i).map fun _ => i))
    (hopen : s.pending = [] ↔ listOpen std page i = false)
    (hflush : flushList std page (sectionBefore std page offset b) s₁ = .ok s₂)
    (hemits : Emits page.index s₂ s' (sectionsAt std page offset i) [] refs firsts)
    (hpending' : s'.pending = s₂.pending) (htableAt' : s'.tableAt = s₂.tableAt)
    (hclosed : listOpen std page (i + 1) = false)
    (hfirsts : firsts = [] ∨ firsts = [i])
    (hrefs : ∀ r, (listOpen std page i = true ∧ sectionBefore std page offset b = some r) ∨
      r ∈ refs ↔ (∃ b ∈ boundsOf (listOpen std page i) i (kindAt std page i),
        sectionBefore std page offset b = some r) ∨ r ∈ sectionsAt std page offset i) :
    Round std page offset i s s' := by
  obtain ⟨hpending₂, htableAt₂, hemits₂⟩ := flushList_ok hflush
  have hnil : s'.pending = [] := hpending'.trans hpending₂
  have hboth := hemits₂.trans hemits
  rw [List.nil_append, List.nil_append] at hboth
  refine .of_emits (firsts.map (page.index, ·)) htableAt htables hboth
    (htableAt'.trans htableAt₂) ?_ ?_ ?_ ?_ ?_
  · exact iff_of_true hnil hclosed
  · rw [hnil]
    exact fun p hp => (List.not_mem_nil hp).elim
  · intro r
    rw [← hrefs, List.mem_append, hpending]
    apply or_congr_left
    cases hb : listOpen std page i with
    | false => simp [hopen.2 hb]
    | true =>
      have hne : s.pending ≠ [] := fun h => by
        rw [hopen.1 h] at hb
        cases hb
      simp [hne]
  · rcases hfirsts with rfl | rfl
    · exact .inl rfl
    · exact .inr rfl
  · rw [hnil, hpending, List.map_append]
    cases s.pending.head? <;> simp

theorem emits_pending (s : PageState) (pending : List Pending) :
    Emits page.index s { s with pending } [] [] [] [] :=
  ⟨id, rfl, rfl, (List.append_nil _).symm, (List.append_nil _).symm,
    fun _ => (or_iff_left List.not_mem_nil).symm, (List.append_nil _).symm⟩

theorem pageStep_ok (hget : plan.get i = sectionBefore std page offset (i + 1))
    (hbefore : plan.before i = sectionBefore std page offset i)
    (hheading : headingAt std page.raws i = true →
      plan.headingIds.lookup i = some (headingId std page.raws page.number offset i))
    (hraw : page.raws[i]? = some raw)
    (htables : withCells ((s.tableAt.lookup i).getD []) = tablesAt page i)
    (hopen : s.pending = [] ↔ listOpen std page i = false)
    (h : pageStep std page plan s (raw, i) = .ok s') : Round std page offset i s s' := by
  unfold pageStep at h
  obtain ⟨s₁, hs₁, h⟩ := Except.bind_eq_ok.1 h
  obtain ⟨hpending₁, htableAt₁, hemits₁⟩ := emitTables_ok hs₁
  rw [htables, hget] at hemits₁
  dsimp only at h
  have hkind : kindAt std page i = some (page.kind std (raw, i)) := kindAt_of_get hraw
  have hnext : listOpen std page (i + 1) =
      openAfter (listOpen std page i) (kindAt std page i) := rfl
  -- a paragraph that emits nothing leaves the state after the tables
  have hidle : kindAt std page i ≠ some .heading → (∀ b, b ∉ boundsOf (listOpen std page i) i
      (kindAt std page i)) → listOpen std page (i + 1) = listOpen std page i →
      s' = s₁ → Round std page offset i s s' := by
    rintro hne hbounds hopen' rfl
    have hsections : sectionsAt std page offset i = [] := if_neg hne
    refine .of_emits [] htableAt₁ hemits₁ 
      (by rw [hsections]; exact .refl _ _) rfl ?_ ?_ ?_
      (.inl rfl) ?_
    · rw [hpending₁, hopen, hopen']
    · rw [hpending₁]
      exact fun p hp => .inl hp
    · intro r
      rw [hsections]
      simp [hbounds]
    · rw [hpending₁, List.append_nil]
      rfl
  cases hk : page.kind std (raw, i) with
  | consumed =>
    rw [hk] at h hkind
    exact hidle (by simp [hkind]) (by simp [hkind, boundsOf]) (by rw [hnext, hkind]; rfl)
      (Except.pure_eq_ok.1 h).symm
  | blank =>
    rw [hk] at h hkind
    exact hidle (by simp [hkind]) (by simp [hkind, boundsOf]) (by rw [hnext, hkind]; rfl)
      (Except.pure_eq_ok.1 h).symm
  | furniture =>
    rw [hk] at h hkind
    obtain ⟨coordinates, -, h⟩ := Except.bind_eq_ok.1 h
    obtain ⟨s₂, hs₂, h⟩ := Except.bind_eq_ok.1 h
    obtain rfl := Except.pure_eq_ok.1 h
    obtain ⟨hpending₃, htableAt₃, hemits₃⟩ :=
      addFurniture_emits page s₂ (contentOf std raw) coordinates
    have hsections : sectionsAt std page offset i = [] := if_neg (by simp [hkind])
    rw [hget] at hs₂
    refine .of_flush hpending₁ htableAt₁ hemits₁ hopen hs₂ 
      (by rw [hsections]; exact hemits₃) hpending₃ htableAt₃ (by rw [hnext, hkind]; rfl) (.inl rfl) fun r => ?_
    rw [hkind, hsections]
    cases listOpen std page i <;> simp [boundsOf]
  | heading =>
    rw [hk] at h hkind
    obtain ⟨coordinates, -, h⟩ := Except.bind_eq_ok.1 h
    obtain ⟨s₂, hs₂, h⟩ := Except.bind_eq_ok.1 h
    rw [hheading (headingAt_of_kind hkind)] at h
    obtain rfl := Except.pure_eq_ok.1 h
    obtain ⟨hpending₃, htableAt₃, hemits₃⟩ := addHeading_emits page s₂ i
      (headingId std page.raws page.number offset i) (roleOf raw = "title") (contentOf std raw)
      coordinates
    have hsections : sectionsAt std page offset i =
        [headingId std page.raws page.number offset i] := if_pos hkind
    rw [hbefore] at hs₂
    refine .of_flush hpending₁ htableAt₁ hemits₁ hopen hs₂ 
      (by rw [hsections]; exact hemits₃) hpending₃ htableAt₃ (by rw [hnext, hkind]; rfl) (.inr rfl) fun r => ?_
    rw [hkind, hsections]
    cases listOpen std page i <;> simp [boundsOf]
  | item marker text =>
    rw [hk] at h hkind
    obtain ⟨coordinates, -, h⟩ := Except.bind_eq_ok.1 h
    obtain rfl := Except.pure_eq_ok.1 h
    have hsections : sectionsAt std page offset i = [] := if_neg (by simp [hkind])
    have hclosed : listOpen std page (i + 1) = true := by
      rw [hnext, hkind]
      rfl
    -- the run begins here exactly if none was open
    refine .of_emits (if s.pending = [] then [(page.index, i)] else []) htableAt₁ hemits₁
      (by rw [hsections]; exact emits_pending s₁ _) rfl ?_ ?_ ?_ ?_ ?_
    · simp [hclosed]
    · rw [hpending₁]
      intro p hp
      rcases List.mem_append.1 hp with hp | hp
      · exact .inl hp
      · exact .inr (by rw [List.mem_singleton.1 hp])
    · simp [hkind, hsections, boundsOf]
    · split
      · exact .inr rfl
      · exact .inl rfl
    · rw [hpending₁]
      cases s.pending <;> simp
  | body =>
    rw [hk] at h hkind
    obtain ⟨coordinates, -, h⟩ := Except.bind_eq_ok.1 h
    obtain ⟨s₂, hs₂, h⟩ := Except.bind_eq_ok.1 h
    obtain rfl := Except.pure_eq_ok.1 h
    obtain ⟨hpending₃, htableAt₃, hemits₃⟩ := addBody_emits std page (plan.get i) s₂ i
      (contentOf std raw) coordinates
    have hsections : sectionsAt std page offset i = [] := if_neg (by simp [hkind])
    rw [hget] at hs₂
    refine .of_flush hpending₁ htableAt₁ hemits₁ hopen hs₂ (by rw [hsections]; exact hemits₃)
      hpending₃ htableAt₃ (by rw [hnext, hkind]; rfl) ?_ fun r => ?_
    · split
      · exact .inl rfl
      · exact .inr rfl
    · rw [hkind, hsections, hget]
      cases listOpen std page i <;> simp [boundsOf]

end

/-! ## The rounds of a page -/

def Before (a b : Nat × Nat) : Prop := a.1 < b.1 ∨ (a.1 = b.1 ∧ a.2 < b.2)

def Ordered (positions : List (Nat × Nat)) : Prop := positions.Pairwise fun a b => ¬ Before b a

theorem ordered_insert {before run own : List (Nat × Nat)} {n : Nat} {x : Nat × Nat}
    (hbefore : ∀ a ∈ before ++ run, Before a x) (hown : own = [] ∨ own = [x]) :
    Ordered (before ++ List.replicate n x ++ run ++ own) ↔
      Ordered (before ++ run) ∧ (n = 0 ∨ run = []) := by
  have hirrefl : ∀ a : Nat × Nat, ¬ Before a a := by
    intro a h
    unfold Before at h
    omega
  have hnot : ∀ a ∈ before ++ run, ¬ Before x a := by
    intro a ha h
    have := hbefore a ha
    unfold Before at h this
    omega
  have hown' : ∀ b ∈ own, b = x := by
    intro b hb
    rcases hown with rfl | rfl
    · cases hb
    · exact List.mem_singleton.1 hb
  have hownOrdered : own.Pairwise fun a b => ¬ Before b a := by
    rcases hown with rfl | rfl
    · exact .nil
    · exact List.pairwise_singleton _ _
  have hnew : (List.replicate n x).Pairwise fun a b => ¬ Before b a :=
    List.pairwise_replicate.2 (.inr (hirrefl x))
  unfold Ordered
  constructor
  · intro h
    refine ⟨h.sublist ?_, ?_⟩
    · exact (((List.sublist_append_left before _).append_right run)).trans
        (List.sublist_append_left _ own)
    · by_contra hboth
      rw [not_or] at hboth
      obtain ⟨a, ha⟩ := List.exists_mem_of_ne_nil _ hboth.2
      have hx : x ∈ List.replicate n x := List.mem_replicate.2 ⟨hboth.1, rfl⟩
      have hpair := (List.pairwise_append.1 (List.pairwise_append.1 h).1).2.2 x
        (List.mem_append_right _ hx) a ha
      exact hpair (hbefore a (List.mem_append_right _ ha))
  · rintro ⟨h, hor⟩
    have hall : ∀ a ∈ before ++ List.replicate n x ++ run, ¬ Before x a := by
      intro a ha
      rcases List.mem_append.1 ha with ha | ha
      · rcases List.mem_append.1 ha with ha | ha
        · exact hnot a (List.mem_append_left _ ha)
        · rw [(List.mem_replicate.1 ha).2]
          exact hirrefl x
      · exact hnot a (List.mem_append_right _ ha)
    refine List.pairwise_append.2 ⟨?_, hownOrdered, fun a ha b hb => hown' b hb ▸ hall a ha⟩
    rcases hor with rfl | rfl
    · rw [List.replicate_zero, List.append_nil]
      exact h
    · rw [List.append_nil] at h ⊢
      refine List.pairwise_append.2 ⟨h, hnew, fun a ha b hb => ?_⟩
      rw [(List.mem_replicate.1 hb).2]
      exact hnot a (List.mem_append_left _ ha)

section

variable {std : Stdlib} {page : PageInput} {plan : Plan} {offset i : Nat} {raw : ValueDict}
  {acc : Accumulator} {s s' : PageState}

structure Reached (std : Stdlib) (page : PageInput) (offset : Nat) (acc : Accumulator) (i : Nat)
    (s : PageState) : Prop where
  tableAt : s.tableAt = page.tableAt.filter (i ≤ ·.1)
  pending : s.pending = [] ↔ listOpen std page i = false
  first : ∀ p ∈ s.pending, p.first < i
  inv : s.acc.Inv
  pages : s.acc.pages = acc.pages
  emptyPages : s.acc.emptyPages = acc.emptyPages
  sections : s.acc.sections.map (·.sectionId) =
    acc.sections.map (·.sectionId) ++ (List.range i).flatMap (sectionsAt std page offset)
  tables : s.acc.tables.map (·.tableId) =
    acc.tables.map (·.tableId) ++ (List.range i).flatMap fun j => tableIds page (tablesAt page j)
  refs : ∀ r, r ∈ s.refs ↔ r ∈ acc.refs ∨ ∃ j < i,
    (∃ b ∈ boundsAt std page j, sectionBefore std page offset b = some r) ∨
      r ∈ sectionsAt std page offset j
  bound : ∀ q ∈ s.queue page.index, Before q (page.index, i)
  ordered : Ordered (s.queue page.index) ↔ Ordered (positions acc.placed) ∧
    ∀ j < i, tablesAt page j ≠ [] → listOpen std page j = false

theorem lookup_tableAt (htableAt : s.tableAt = page.tableAt.filter (i ≤ ·.1)) :
    withCells ((s.tableAt.lookup i).getD []) = tablesAt page i := by
  rw [htableAt, Dict.lookup_filter (fun k => decide (i ≤ k)), if_pos (by simp)]
  unfold PageInput.tableAt tablesAt
  rw [Dict.getD_groupBy, List.map_id]

theorem Round.reached (hs : Reached std page offset acc i s)
    (h : Round std page offset i s s') : Reached std page offset acc (i + 1) s' := by
  obtain ⟨own, hown, hqueue⟩ := h.queue
  rw [List.map_const'] at hqueue
  have hbound : ∀ q ∈ s.queue page.index, Before q (page.index, i) := hs.bound
  have hafter : ∀ q, Before q (page.index, i) ∨ q = (page.index, i) →
      Before q (page.index, i + 1) := by
    intro q hq
    unfold Before at *
    rcases hq with hq | rfl
    · omega
    · omega
  refine ⟨?_, h.pending, ?_, h.inv hs.inv, h.pages.trans hs.pages,
    h.emptyPages.trans hs.emptyPages, ?_, ?_, ?_, ?_, ?_⟩
  · rw [h.tableAt, hs.tableAt, List.filter_filter]
    apply List.filter_congr
    intro e _
    rw [Bool.eq_iff_iff]
    simp
    omega
  · intro p hp
    rcases h.first p hp with hp | hp
    · exact Nat.lt_succ_of_lt (hs.first p hp)
    · omega
  · rw [h.sections, hs.sections, List.range_succ, List.flatMap_append, List.append_assoc]
    simp
  · rw [h.tables, hs.tables, List.range_succ, List.flatMap_append, List.append_assoc]
    simp
  · intro r
    rw [h.refs, hs.refs, or_assoc]
    apply or_congr_right
    constructor
    · rintro (⟨j, hj, hr⟩ | hr)
      · exact ⟨j, Nat.lt_succ_of_lt hj, hr⟩
      · exact ⟨i, Nat.lt_succ_self i, hr⟩
    · rintro ⟨j, hj, hr⟩
      rcases Nat.lt_succ_iff_lt_or_eq.1 hj with hj | rfl
      · exact .inl ⟨j, hj, hr⟩
      · exact .inr hr
  · intro q hq
    rw [hqueue] at hq
    apply hafter
    rcases List.mem_append.1 hq with hq | hq
    · rcases List.mem_append.1 hq with hq | hq
      · rcases List.mem_append.1 hq with hq | hq
        · exact .inl (hbound q (List.mem_append_left _ hq))
        · exact .inr (List.mem_replicate.1 hq).2
      · exact .inl (hbound q (List.mem_append_right _ hq))
    · rcases hown with rfl | rfl
      · cases hq
      · exact .inr (List.mem_singleton.1 hq)
  · rw [hqueue, ordered_insert hbound hown]
    have hrun : (s.pending.head?.map fun p => (page.index, p.first)).toList = [] ↔
        listOpen std page i = false := by
      rw [← hs.pending]
      cases s.pending <;> simp
    rw [hrun, List.length_eq_zero_iff]
    show Ordered (s.queue page.index) ∧ _ ↔ _
    rw [hs.ordered, and_assoc]
    apply and_congr_right
    intro _
    constructor
    · rintro ⟨hall, hor⟩ j hj hne
      rcases Nat.lt_succ_iff_lt_or_eq.1 hj with hj | rfl
      · exact hall j hj hne
      · exact hor.resolve_left hne
    · intro hall
      refine ⟨fun j hj => hall j (Nat.lt_succ_of_lt hj), ?_⟩
      by_cases hne : tablesAt page i = []
      · exact .inl hne
      · exact .inr (hall i (Nat.lt_succ_self i) hne)

theorem foldlM_pageStep (hplan : planSections std page.raws page.number offset = .ok plan)
    {raws : List ValueDict} (hdrop : page.raws.drop i = raws)
    (hs : Reached std page offset acc i s)
    (h : (raws.zipIdx i).foldlM (pageStep std page plan) s = .ok s') :
    Reached std page offset acc (i + raws.length) s' := by
  obtain ⟨hbefore, hget, hheading⟩ := planSections_ok hplan
  induction raws generalizing i s with
  | nil =>
    obtain rfl := Except.pure_eq_ok.1 h
    exact hs
  | cons raw raws ih =>
    rw [List.zipIdx_cons, List.foldlM_cons] at h
    obtain ⟨s₁, hs₁, h⟩ := Except.bind_eq_ok.1 h
    have hraw : page.raws[i]? = some raw := by
      rw [← Nat.add_zero i, ← List.getElem?_drop, hdrop]
      rfl
    have hlt := (List.getElem?_eq_some_iff.1 hraw).1
    have hround := pageStep_ok (hget i hlt) (hbefore i (Nat.le_of_lt hlt)) (hheading i) hraw
      (lookup_tableAt hs.tableAt) hs.pending hs₁
    have hrest : page.raws.drop (i + 1) = raws := by
      rw [← List.drop_drop, hdrop]
      rfl
    have := ih hrest (hround.reached hs) h
    rwa [List.length_cons, Nat.add_comm raws.length 1, ← Nat.add_assoc]

theorem foldlM_leftover {sectionId : Option String} {anchors : List Nat} (hnodup : anchors.Nodup)
    (htables : ∀ k ∈ anchors, withCells ((s.tableAt.lookup k).getD []) = tablesAt page k)
    (h : anchors.foldlM (fun s anchor => emitTables std page anchor sectionId s) s = .ok s') :
    s'.pending = s.pending ∧ Emits page.index s s' []
      (anchors.flatMap fun k => tableIds page (tablesAt page k))
      (anchors.flatMap fun k => if tablesAt page k = [] then [] else sectionId.toList)
      (anchors.flatMap fun k => (tablesAt page k).map fun _ => k) := by
  induction anchors generalizing s with
  | nil =>
    obtain rfl := Except.pure_eq_ok.1 h
    exact ⟨rfl, .refl _ _⟩
  | cons k anchors ih =>
    rw [List.foldlM_cons] at h
    obtain ⟨s₁, hs₁, h⟩ := Except.bind_eq_ok.1 h
    obtain ⟨hpending, htableAt, hemits⟩ := emitTables_ok hs₁
    rw [htables k List.mem_cons_self] at hemits
    rw [List.nodup_cons] at hnodup
    obtain ⟨hpending', hemits'⟩ := ih hnodup.2 (fun k' hk' => by
      have hne : k' ≠ k := fun h => hnodup.1 (h ▸ hk')
      rw [htableAt, Dict.lookup_filter (fun key => decide (key ≠ k)), if_pos (by simpa using hne)]
      exact htables k' (List.mem_cons_of_mem _ hk')) h
    exact ⟨hpending'.trans hpending, hemits.trans hemits'⟩

theorem tableIds_nodup {anchors : List Nat} (hnodup : anchors.Nodup) :
    (anchors.flatMap fun k => tableIds page (tablesAt page k)).Nodup := by
  have hmem : ∀ k t, t ∈ tablesAt page k → t ∈ page.tables.zipIdx ∧ t.1.anchor = k := by
    intro k t ht
    have ht := (List.mem_filter.1 ht).1
    rw [List.mem_filter] at ht
    exact ⟨ht.1, of_decide_eq_true ht.2⟩
  have hinj : ∀ t ∈ page.tables.zipIdx, ∀ t' ∈ page.tables.zipIdx, t.2 = t'.2 → t = t' := by
    intro t ht t' ht' hidx
    obtain ⟨a, i⟩ := t
    obtain ⟨b, j⟩ := t'
    obtain rfl : i = j := hidx
    rw [List.mk_mem_zipIdx_iff_getElem?] at ht ht'
    rw [Option.some.inj (ht.symm.trans ht')]
  have hid : ∀ t t' : RawTable × Nat, elementId page.number "table" t.2 =
      elementId page.number "table" t'.2 → t.2 = t'.2 := fun t t' h =>
    (elementId_inj (by decide) h).2
  rw [List.nodup_flatMap]
  constructor
  · intro k _
    have hsub : ((tablesAt page k).map Prod.snd).Sublist (page.tables.zipIdx.map Prod.snd) :=
      (List.filter_sublist.trans List.filter_sublist).map _
    rw [List.zipIdx_map_snd] at hsub
    have hindices : ((tablesAt page k).map Prod.snd).Nodup := hsub.nodup List.nodup_range'
    unfold tableIds
    exact List.pairwise_map.2 ((List.pairwise_map.1 hindices).imp fun hne h => hne (hid _ _ h))
  · refine hnodup.imp fun hne id hk hk' => hne ?_
    obtain ⟨t, ht, rfl⟩ := List.mem_map.1 hk
    obtain ⟨t', ht', heq⟩ := List.mem_map.1 hk'
    obtain ⟨hz, rfl⟩ := hmem _ _ ht
    obtain ⟨hz', rfl⟩ := hmem _ _ ht'
    rw [hinj t hz t' hz' (hid _ _ heq.symm)]

def PageRef (std : Stdlib) (page : PageInput) (offset : Nat) (r : String) : Prop :=
  (∃ i < page.raws.length, (∃ b ∈ boundsAt std page i, sectionBefore std page offset b = some r) ∨
    r ∈ sectionsAt std page offset i) ∨
    (EmitsAtEnd std page ∧ sectionBefore std page offset page.raws.length = some r)

def pageSections (std : Stdlib) (page : PageInput) (offset : Nat) : List String :=
  (List.range page.raws.length).flatMap (sectionsAt std page offset)

structure PageBuilt (std : Stdlib) (page : PageInput) (acc : Accumulator) (s : PageState) :
    Prop where
  inv : s.acc.Inv
  pages : s.acc.pages = acc.pages
  emptyPages : s.acc.emptyPages = acc.emptyPages
  sections : s.acc.sections.map (·.sectionId) =
    acc.sections.map (·.sectionId) ++ pageSections std page acc.sections.length
  tables : ∃ anchors : List Nat, anchors.Nodup ∧ s.acc.tables.map (·.tableId) =
    acc.tables.map (·.tableId) ++ anchors.flatMap fun k => tableIds page (tablesAt page k)
  refs : ∀ r, r ∈ s.refs ↔ r ∈ acc.refs ∨ PageRef std page acc.sections.length r
  bound : ∀ q ∈ positions s.acc.placed, q.1 < page.index + 1
  ordered : Ordered (positions s.acc.placed) ↔
    Ordered (positions acc.placed) ∧ RunsUnbroken std page

theorem buildPage_ok (hinv : acc.Inv) (hbefore : ∀ q ∈ positions acc.placed, q.1 < page.index)
    (h : buildPage std page acc = .ok s) : PageBuilt std page acc s := by
  unfold buildPage at h
  obtain ⟨plan, hplan, h⟩ := Except.bind_eq_ok.1 h
  obtain ⟨s₁, hs₁, h⟩ := Except.bind_eq_ok.1 h
  obtain ⟨s₂, hs₂, h⟩ := Except.bind_eq_ok.1 h
  have hstart : Reached std page acc.sections.length acc 0 { acc, tableAt := page.tableAt } := by
    refine ⟨?_, ?_, fun p hp => (List.not_mem_nil hp).elim, hinv, rfl, rfl, (by simp), (by simp), ?_, ?_,
      ?_⟩
    · simp
    · exact iff_of_true rfl rfl
    · intro r
      simp [PageState.refs]
    · intro q hq
      have hq : q ∈ positions acc.placed ++ [] := hq
      rw [List.append_nil] at hq
      exact .inl (hbefore q hq)
    · show Ordered (positions acc.placed ++ []) ↔ _
      rw [List.append_nil]
      simp
  have hrun := foldlM_pageStep hplan (List.drop_zero) hstart hs₁
  rw [Nat.zero_add] at hrun
  have hplanned : plan.before page.raws.length =
      sectionBefore std page acc.sections.length page.raws.length :=
    (planSections_ok hplan).1 _ (Nat.le_refl _)
  rw [hplanned] at hs₂ h
  obtain ⟨hpending₂, htableAt₂, hemits₂⟩ := flushList_ok hs₂
  generalize hanchors : (s₂.tableAt.map (·.1)).insertionSort (· ≤ ·) = anchors at h
  have hperm : anchors.Perm ((page.tableAt.filter (page.raws.length ≤ ·.1)).map (·.1)) := by
    rw [← hanchors, htableAt₂, hrun.tableAt]
    exact List.perm_insertionSort _ _
  have hkeys : (page.tableAt.map (·.1)).Nodup := by
    unfold PageInput.tableAt
    rw [Dict.keys_groupBy]
    exact Dict.nodup_eraseDups _
  have hnodup : anchors.Nodup := hperm.nodup_iff.2 (hkeys.sublist (List.filter_sublist.map _))
  have hge : ∀ k ∈ anchors, page.raws.length ≤ k := by
    intro k hk
    obtain ⟨e, he, rfl⟩ := List.mem_map.1 (hperm.mem_iff.1 hk)
    simpa using (List.mem_filter.1 he).2
  obtain ⟨hpending, hemits⟩ := foldlM_leftover hnodup (fun k hk => by
    rw [htableAt₂, hrun.tableAt, Dict.lookup_filter (fun key => decide (page.raws.length ≤ key)),
      if_pos (by simpa using hge k hk)]
    unfold PageInput.tableAt tablesAt
    rw [Dict.getD_groupBy, List.map_id]) h
  have hkey : ∀ i, tablesAt page i ≠ [] → i ∈ page.tableAt.map (·.1) := by
    intro i hi
    obtain ⟨t, ht⟩ := List.exists_mem_of_ne_nil _ hi
    have ht := List.mem_filter.1 (List.mem_filter.1 ht).1
    unfold PageInput.tableAt
    rw [Dict.keys_groupBy, List.mem_eraseDups]
    exact List.mem_map.2 ⟨t, ht.1, of_decide_eq_true ht.2⟩
  have hmem : ∀ i ≥ page.raws.length, tablesAt page i ≠ [] → i ∈ anchors := by
    intro i hi hne
    obtain ⟨e, he, rfl⟩ := List.mem_map.1 (hkey i hne)
    exact hperm.mem_iff.2 (List.mem_map_of_mem (List.mem_filter.2 ⟨he, by simpa using hi⟩))
  have hall := hemits₂.trans hemits
  have hpositions : positions s.acc.placed = s₁.queue page.index ++
      anchors.flatMap fun k => (tablesAt page k).map fun _ => (page.index, k) := by
    rw [hall.positions, List.map_append, ← List.append_assoc, List.map_flatMap]
    congr 1
    · unfold PageState.queue
      cases s₁.pending.head? <;> rfl
    · simp
  have hleft : ∀ q ∈ anchors.flatMap fun k => (tablesAt page k).map fun _ => (page.index, k),
      q.1 = page.index ∧ page.raws.length ≤ q.2 := by
    intro q hq
    obtain ⟨k, hk, hq⟩ := List.mem_flatMap.1 hq
    obtain ⟨_, -, rfl⟩ := List.mem_map.1 hq
    exact ⟨rfl, hge k hk⟩
  have hsorted : anchors.Pairwise (· ≤ ·) := by
    rw [← hanchors]
    exact List.pairwise_insertionSort _ _
  refine ⟨hall.inv hrun.inv, hall.pages.trans hrun.pages,
    hall.emptyPages.trans hrun.emptyPages, ?_, ?_, ?_, ?_, ?_⟩
  · rw [hall.sections, hrun.sections, List.append_nil, List.append_nil]
    rfl
  · refine ⟨List.range page.raws.length ++ anchors, ?_, ?_⟩
    · refine List.nodup_range.append hnodup fun k hk hk' => ?_
      exact Nat.not_lt_of_le (hge k hk') (List.mem_range.1 hk)
    · rw [hall.tables, hrun.tables, List.nil_append, List.flatMap_append, List.append_assoc]
  · intro r
    rw [hall.refs, hrun.refs, List.mem_append, or_assoc]
    unfold PageRef EmitsAtEnd
    apply or_congr_right
    apply or_congr_right
    have hopen : r ∈ (if s₁.pending = [] then []
        else (sectionBefore std page acc.sections.length page.raws.length).toList) ↔
        listOpen std page page.raws.length = true ∧
          sectionBefore std page acc.sections.length page.raws.length = some r := by
      rw [← Bool.not_eq_false, ← hrun.pending]
      split <;> simp [*]
    rw [hopen, or_and_right]
    apply or_congr_right
    rw [List.mem_flatMap]
    constructor
    · rintro ⟨k, hk, hr⟩
      split at hr
      · cases hr
      next hne => exact ⟨⟨k, hge k hk, hne⟩, Option.mem_toList.1 hr⟩
    · rintro ⟨⟨k, hk, hne⟩, hr⟩
      refine ⟨k, hmem k hk hne, ?_⟩
      rw [if_neg hne]
      exact Option.mem_toList.2 hr
  · intro q hq
    rw [hpositions] at hq
    rcases List.mem_append.1 hq with hq | hq
    · have := hrun.bound q hq
      unfold Before at this
      omega
    · rw [(hleft q hq).1]
      exact Nat.lt_succ_self _
  · rw [hpositions]
    unfold RunsUnbroken
    rw [← hrun.ordered]
    unfold Ordered
    rw [List.pairwise_append]
    refine ⟨fun hs => hs.1, fun hs => ⟨hs, ?_, fun a ha b hb hba => ?_⟩⟩
    · rw [List.pairwise_flatMap]
      refine ⟨fun k _ => ?_, hsorted.imp fun hle a ha b hb hba => ?_⟩
      · refine List.pairwise_map.2 (List.pairwise_of_forall fun _ _ hba => ?_)
        unfold Before at hba
        omega
      · obtain ⟨_, -, rfl⟩ := List.mem_map.1 ha
        obtain ⟨_, -, rfl⟩ := List.mem_map.1 hb
        unfold Before at hba
        omega
    · have := hrun.bound a ha
      have := hleft b hb
      unfold Before at *
      omega

end

end LayoutParser

end Clear
