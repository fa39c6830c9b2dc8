import Clear.Ai.Cdm.Builder
import Clear.Core.Proof.Text

/-!
# The repaired hierarchy

The links that the loop decides are those that are given (`parents_linked`). A section keeps its
link exactly if its ancestors end (`mem_breakCycles`): the result is a forest, but a section below a
cycle loses its link as well (`repaired_iff`).
-/

namespace Clear

namespace SectionTree

open Document (Section)

variable {sections repaired before rest : List Section} {s t : Section} {a p : String}

/-! ## Numbers -/

theorem numberOf_ne_nil {parts : List String} (h : numberOf s = some parts) : parts ≠ [] := by
  unfold numberOf at h
  dsimp only at h
  obtain ⟨-, hparts⟩ := Option.ite_none_right_eq_some.1 h
  rw [← Option.some_inj.1 hparts]
  unfold Text.splitOn
  exact Text.partsFrom_ne_nil _ _ _

theorem exists_of_byNumber {parts : List String} (h : byNumber sections parts = some a) :
    ∃ t ∈ sections, numberOf t = some parts ∧ t.sectionId = a := by
  obtain ⟨t, ht, rfl⟩ := Option.map_eq_some_iff.1 h
  obtain ⟨hmem, hnumber⟩ := List.mem_filter.1 (List.mem_of_getLast? ht)
  exact ⟨t, hmem, by simpa using hnumber, rfl⟩

theorem byNumber_isSome {parts : List String} (h : ∃ t ∈ sections, numberOf t = some parts) :
    (byNumber sections parts).isSome = true := by
  obtain ⟨t, ht, hnumber⟩ := h
  unfold byNumber
  have hne : sections.filter (fun s => numberOf s = some parts) ≠ [] :=
    List.ne_nil_of_mem (List.mem_filter.2 ⟨ht, by simpa using hnumber⟩)
  rw [Option.isSome_map, List.getLast?_eq_some_getLast hne]
  rfl

theorem byNumber_ne (hids : (sections.map (·.sectionId)).Nodup) (hs : s ∈ sections)
    {parts : List String} (hnumber : numberOf s = some parts)
    (h : byNumber sections parts.dropLast = some a) : a ≠ s.sectionId := by
  intro heq
  obtain ⟨t, ht, hparts, hid⟩ := exists_of_byNumber h
  obtain rfl := List.inj_on_of_nodup_map hids ht hs (hid.trans heq)
  rw [hnumber, Option.some_inj] at hparts
  have hpos := List.length_pos_iff.2 (numberOf_ne_nil hnumber)
  have hlength : parts.length = parts.length - 1 := by
    conv_lhs => rw [hparts]
    exact List.length_dropLast
  omega

/-! ## The links that the loop decides -/

theorem levels_find {level : Int}
    (h : repaired.map (fun t => (t.sectionId, t.level)) =
      before.map fun t => (t.sectionId, levelOf t)) :
    (repaired.reverse.find? (·.level < level)).map (·.sectionId) =
      (before.reverse.find? fun t => levelOf t < level).map (·.sectionId) := by
  have hfind : ∀ l : List Section, ∀ f : Section → Int,
      (l.reverse.find? fun t => decide (f t < level)).map (·.sectionId) =
        ((l.map fun t => (t.sectionId, f t)).reverse.find? fun e => decide (e.2 < level)).map
          (·.1) := by
    intro l f
    rw [← List.map_reverse, List.find?_map, Option.map_map]
    rfl
  rw [hfind repaired (·.level), hfind before levelOf, h]

namespace Link

variable (l : Link) (repaired : List Section) (level : Int)

theorem existing_parent : (l.existing sections).parent =
    l.parent.filter (· ∈ sections.map (·.sectionId)) := by
  unfold existing
  cases hparent : l.parent with
  | none => simp [hparent]
  | some parent =>
    dsimp only
    rw [Option.filter_some]
    split
    next h => rw [hparent, if_pos (by simpa using h)]
    next h => rw [if_neg (by simpa using h)]; rfl

theorem shallower_parent : (l.shallower repaired level).parent =
    l.parent.or (if 1 < level then
      (repaired.reverse.find? (·.level < level)).map (·.sectionId) else none) := by
  unfold shallower
  cases hparent : l.parent with
  | some parent => simp [hparent]
  | none =>
    by_cases hlevel : 1 < level
    · rw [if_pos ⟨by simp, hlevel⟩, if_pos hlevel, Option.none_or]
      cases repaired.reverse.find? fun t => decide (t.level < level) with
      | none => exact hparent
      | some previous => rfl
    · rw [if_neg fun h => hlevel h.2, if_neg hlevel, hparent]
      rfl

theorem notSelf_parent : (l.notSelf s).parent = l.parent.filter (· ≠ s.sectionId) := by
  unfold notSelf
  cases hparent : l.parent with
  | none => simp [hparent]
  | some parent =>
    rw [Option.filter_some]
    by_cases h : parent = s.sectionId
    · rw [if_pos (by rw [h]), if_neg (by simpa using h)]
      rfl
    · rw [if_neg fun heq => h (Option.some_inj.1 heq), if_pos (by simpa using h), hparent]

end Link

theorem settled_eq (hlevels : (repaired.map fun t => (t.sectionId, t.level)) =
      before.map fun t => (t.sectionId, levelOf t))
    (hbefore : ∀ t ∈ before, t.sectionId ≠ s.sectionId) {l : Link}
    (hl : l.parent = s.parentSection) :
    (((l.existing sections).shallower repaired (levelOf s)).notSelf s).parent =
      settled sections before s := by
  rw [Link.notSelf_parent, Link.shallower_parent, Link.existing_parent, hl, levels_find hlevels]
  unfold settled
  cases s.parentSection.filter (· ∈ sections.map (·.sectionId)) with
  | some parent =>
    rw [Option.some_or, Option.filter_some]
    by_cases h : parent = s.sectionId <;> simp [h]
  | none =>
    dsimp only
    rw [Option.none_or]
    split
    next =>
      cases hfind : before.reverse.find? fun t => decide (levelOf t < levelOf s) with
      | none => rfl
      | some t =>
        have hne := hbefore t (List.mem_reverse.1 (List.mem_of_find?_eq_some hfind))
        simp [Option.filter_some, hne]
    next => rfl

theorem given_eq (hids : (sections.map (·.sectionId)).Nodup) (hs : s ∈ sections)
    (hlevels : (repaired.map fun t => (t.sectionId, t.level)) =
      before.map fun t => (t.sectionId, levelOf t))
    (hbefore : ∀ t ∈ before, t.sectionId ≠ s.sectionId) :
    ((((({ parent := s.parentSection } : Link).numbered sections s).existing sections)
      |>.shallower repaired (levelOf s)).notSelf s).parent = given sections before s := by
  unfold given Link.numbered
  cases hnumber : numberOf s with
  | none => exact settled_eq hlevels hbefore rfl
  | some parts =>
    dsimp only
    by_cases hlong : 1 < parts.length
    · rw [if_pos hlong, if_pos hlong]
      cases hcandidate : byNumber sections parts.dropLast with
      | none =>
        rw [Option.filter_none, Option.none_or]
        exact settled_eq hlevels hbefore rfl
      | some candidate =>
        dsimp only
        have hother := byNumber_ne hids hs hnumber hcandidate
        by_cases hempty : candidate = ""
        · rw [if_neg fun h => h.1 hempty, Option.filter_some, if_neg (by simpa using hempty),
            Option.none_or]
          exact settled_eq hlevels hbefore rfl
        · obtain ⟨t, ht, -, hid⟩ := exists_of_byNumber hcandidate
          have hmem : candidate ∈ sections.map (·.sectionId) := List.mem_map.2 ⟨t, ht, hid⟩
          have hinfer : (({ parent := s.parentSection } : Link).infer candidate).parent =
            some candidate := rfl
          rw [if_pos ⟨hempty, hother⟩, Link.notSelf_parent, Link.shallower_parent,
            Link.existing_parent, hinfer, Option.filter_some, if_pos (decide_eq_true hmem),
            Option.some_or, Option.filter_some, if_pos (decide_eq_true hother),
            Option.filter_some, if_pos (decide_eq_true hempty), Option.some_or]
    · rw [if_neg hlong, if_neg hlong, Link.notSelf_parent, Link.shallower_parent,
        Link.existing_parent]
      have hlevel : levelOf s = 1 := by
        have hpos := List.length_pos_iff.2 (numberOf_ne_nil hnumber)
        unfold levelOf
        rw [hnumber]
        dsimp only
        omega
      rw [hlevel]
      cases hparent : s.parentSection <;> simp [Link.clear]

theorem SameSection.placed (s : Section) (parent : Option String) (level order : Int) :
    SameSection s { s with parentSection := parent, level, order } := rfl

theorem foldl_step (hids : (sections.map (·.sectionId)).Nodup) (before : List Section)
    (r : Repair) (hsplit : before ++ rest = sections)
    (hlevels : (r.repaired.map fun t => (t.sectionId, t.level)) =
      before.map fun t => (t.sectionId, levelOf t)) :
    ∃ made, (rest.foldl (Repair.step sections) r).repaired = r.repaired ++ made ∧
      (made.map fun t => (t.sectionId, t.parentSection)) = givenFrom sections before rest ∧
      List.Forall₂ SameSection rest made := by
  induction rest generalizing before r with
  | nil => exact ⟨[], by simp, rfl, .nil⟩
  | cons s rest ih =>
    have hs : s ∈ sections := hsplit ▸ by simp
    have hbefore : ∀ t ∈ before, t.sectionId ≠ s.sectionId := by
      intro t ht heq
      rw [← hsplit, List.map_append, List.map_cons] at hids
      exact (List.nodup_append.1 hids).2.2 _ (List.mem_map_of_mem ht) _ List.mem_cons_self heq
    let first : Section :=
      { s with
        parentSection := given sections before s
        level := levelOf s
        order := r.repaired.length }
    have hstep : (r.step sections s).repaired = r.repaired ++ [first] := by
      unfold first
      rw [← given_eq hids hs hlevels hbefore]
      rfl
    obtain ⟨made, hmade, hlinks, hsame⟩ := ih (before ++ [s]) (r.step sections s)
      (by rw [List.append_assoc]; exact hsplit)
      (by rw [hstep, List.map_append, List.map_append, hlevels, List.map_singleton,
        List.map_singleton])
    refine ⟨first :: made, ?_, ?_, .cons ?_ hsame⟩
    · rw [List.foldl_cons, hmade, hstep, List.append_assoc, List.singleton_append]
    · rw [List.map_cons, hlinks, givenFrom]
    · exact .placed s _ _ _

theorem linked_spec (hids : (sections.map (·.sectionId)).Nodup) :
    ((linked sections).repaired.map fun t => (t.sectionId, t.parentSection)) =
        givenFrom sections [] sections ∧
      List.Forall₂ SameSection sections (linked sections).repaired := by
  obtain ⟨made, hmade, hlinks, hsame⟩ :=
    foldl_step hids [] {} (List.nil_append sections) (by simp)
  unfold linked
  rw [hmade, List.nil_append]
  exact ⟨hlinks, hsame⟩

theorem SameSection.facts (h : SameSection s t) :
    t.sectionId = s.sectionId ∧ numberOf t = numberOf s := by
  rw [h]
  exact ⟨rfl, rfl⟩

theorem ids_of_same (h : List.Forall₂ SameSection sections before) :
    before.map (·.sectionId) = sections.map (·.sectionId) := by
  induction h with
  | nil => rfl
  | cons hst _ ih => rw [List.map_cons, List.map_cons, ih, hst.facts.1]

/-! ## Links by identifier -/

theorem parents_eq_some (hids : (sections.map (·.sectionId)).Nodup) :
    parents sections a = some p ↔ ∃ s ∈ sections, s.sectionId = a ∧ s.parentSection = some p := by
  have hkeys : ((sections.map fun s => (s.sectionId, s.parentSection)).reverse.map (·.1)).Nodup := by
    rw [List.map_reverse, List.nodup_reverse, List.map_map]
    exact hids
  unfold parents
  rw [Option.join_eq_some_iff, Dict.lookup_eq_some_iff hkeys, List.mem_reverse, List.mem_map]
  simp

theorem parents_of_mem (hids : (sections.map (·.sectionId)).Nodup) (hs : s ∈ sections) :
    parents sections s.sectionId = s.parentSection := by
  refine Option.ext fun parent => ?_
  rw [parents_eq_some hids]
  constructor
  · intro h
    obtain ⟨t, ht, hid, hparent⟩ := h
    rwa [← List.inj_on_of_nodup_map hids ht hs hid]
  · exact fun h => ⟨s, hs, rfl, h⟩

theorem parents_linked (hids : (sections.map (·.sectionId)).Nodup) :
    parents (linked sections).repaired = givenParents sections := by
  obtain ⟨hlinks, hsame⟩ := linked_spec hids
  have hkeys : ((givenFrom sections [] sections).map (·.1)).Nodup := by
    rw [← hlinks, List.map_map]
    exact (ids_of_same hsame).symm ▸ hids
  have hreverse : ((givenFrom sections [] sections).reverse.map (·.1)).Nodup := by
    rwa [List.map_reverse, List.nodup_reverse]
  funext a
  unfold parents givenParents
  rw [hlinks]
  congr 1
  refine Option.ext fun parent => ?_
  rw [Dict.lookup_eq_some_iff hreverse, Dict.lookup_eq_some_iff hkeys, List.mem_reverse]

/-! ## Breaking cycles -/

theorem walk_iff (hids : (sections.map (·.sectionId)).Nodup) (hs : s ∈ sections) :
    Forest.walk (parents sections) sections.length [s.sectionId] s.parentSection = some true ↔
      ¬ Forest.Ends (parents sections) s.sectionId := by
  have hnodes : ∀ a, a ∉ sections.map (·.sectionId) → parents sections a = none := by
    intro a ha
    rw [Option.eq_none_iff_forall_ne_some]
    intro parent hparent
    obtain ⟨t, ht, hid, -⟩ := (parents_eq_some hids).1 hparent
    exact ha (List.mem_map.2 ⟨t, ht, hid⟩)
  have hwalk := (Forest.leadsIntoCycle_iff hnodes (List.mem_map_of_mem hs)
    (List.length_map _).le).1
  unfold Forest.leadsIntoCycle at hwalk
  rwa [parents_of_mem hids hs] at hwalk

theorem same_breakCycles (sections : List Section) :
    List.Forall₂ SameSection sections (breakCycles sections) := by
  unfold breakCycles
  rw [List.forall₂_map_right_iff]
  refine List.forall₂_same.2 fun s _ => ?_
  split
  · rfl
  · rfl

theorem parents_breakCycles (hids : (sections.map (·.sectionId)).Nodup) :
    parents (breakCycles sections) a = some p ↔
      parents sections a = some p ∧ Forest.Ends (parents sections) a := by
  have hids' : ((breakCycles sections).map (·.sectionId)).Nodup := by
    rwa [ids_of_same (same_breakCycles sections)]
  rw [parents_eq_some hids', parents_eq_some hids]
  unfold breakCycles
  constructor
  · intro h
    obtain ⟨t, ht, hid, hparent⟩ := h
    obtain ⟨s, hs, rfl⟩ := List.mem_map.1 ht
    split at hid
    next hwalk =>
      rw [if_pos hwalk] at hparent
      cases hparent
    next hwalk =>
      rw [if_neg hwalk] at hparent
      rw [walk_iff hids hs, not_not, hid] at hwalk
      exact ⟨⟨s, hs, hid, hparent⟩, hwalk⟩
  · intro h
    obtain ⟨⟨s, hs, rfl, hparent⟩, hends⟩ := h
    refine ⟨s, List.mem_map.2 ⟨s, hs, ?_⟩, rfl, hparent⟩
    rw [if_neg (by rwa [walk_iff hids hs, not_not])]

/-! ## What is given -/

theorem exists_of_same (h : List.Forall₂ SameSection sections before) (ht : t ∈ before) :
    ∃ s ∈ sections, SameSection s t := by
  induction h with
  | nil => cases ht
  | cons hst _ ih =>
    rcases List.mem_cons.1 ht with rfl | ht
    · exact ⟨_, List.mem_cons_self, hst⟩
    · obtain ⟨s, hs, hsame⟩ := ih ht
      exact ⟨s, List.mem_cons_of_mem _ hs, hsame⟩

theorem exists_same (h : List.Forall₂ SameSection sections before) (hs : s ∈ sections) :
    ∃ t ∈ before, SameSection s t := by
  induction h with
  | nil => cases hs
  | cons hst _ ih =>
    rcases List.mem_cons.1 hs with rfl | hs
    · exact ⟨_, List.mem_cons_self, hst⟩
    · obtain ⟨t, ht, hsame⟩ := ih hs
      exact ⟨t, List.mem_cons_of_mem _ ht, hsame⟩

theorem mem_givenFrom (sections before : List Section) (hs : s ∈ rest) : ∃ earlier, (∀ t ∈ earlier, t ∈ before ∨ t ∈ rest) ∧
    (s.sectionId, given sections earlier s) ∈ givenFrom sections before rest := by
  induction rest generalizing before with
  | nil => cases hs
  | cons r rest ih =>
    rcases List.mem_cons.1 hs with rfl | hs
    · exact ⟨before, fun t ht => .inl ht, List.mem_cons_self⟩
    · obtain ⟨earlier, hearlier, hmem⟩ := ih (before ++ [r]) hs
      refine ⟨earlier, fun t ht => ?_, List.mem_cons_of_mem _ hmem⟩
      have hor := hearlier t ht
      rw [List.mem_append, List.mem_singleton] at hor
      rw [List.mem_cons]
      tauto

theorem givenParents_of_mem (hids : (sections.map (·.sectionId)).Nodup) (hs : s ∈ sections) :
    ∃ earlier, (∀ t ∈ earlier, t ∈ sections) ∧
      givenParents sections s.sectionId = given sections earlier s := by
  obtain ⟨earlier, hearlier, hmem⟩ := mem_givenFrom sections [] hs
  have hkeys : ((givenFrom sections [] sections).map (·.1)).Nodup := by
    obtain ⟨hlinks, hsame⟩ := linked_spec hids
    rw [← hlinks, List.map_map]
    exact (ids_of_same hsame).symm ▸ hids
  refine ⟨earlier, fun t ht => (hearlier t ht).resolve_left (by simp), ?_⟩
  unfold givenParents
  rw [(Dict.lookup_eq_some_iff hkeys).2 hmem, Option.join_some]

theorem settled_exists (hbefore : ∀ t ∈ before, t ∈ sections)
    (h : settled sections before s = some p) : ∃ t ∈ sections, t.sectionId = p := by
  unfold settled at h
  cases hparent : s.parentSection.filter (· ∈ sections.map (·.sectionId)) with
  | some parent =>
    rw [hparent] at h
    dsimp only at h
    split at h
    next => cases h
    next =>
      cases h
      simpa using (Option.filter_eq_some_iff.1 hparent).2
  | none =>
    rw [hparent] at h
    dsimp only at h
    split at h
    next =>
      obtain ⟨t, ht, rfl⟩ := Option.map_eq_some_iff.1 h
      exact ⟨t, hbefore t (List.mem_reverse.1 (List.mem_of_find?_eq_some ht)), rfl⟩
    next => cases h

theorem given_exists (hbefore : ∀ t ∈ before, t ∈ sections)
    (h : given sections before s = some p) : ∃ t ∈ sections, t.sectionId = p := by
  unfold given at h
  cases hnumber : numberOf s with
  | none =>
    rw [hnumber] at h
    exact settled_exists hbefore h
  | some parts =>
    rw [hnumber] at h
    dsimp only at h
    split at h
    next =>
      cases hcandidate : (byNumber sections parts.dropLast).filter (· ≠ "") with
      | none =>
        rw [hcandidate, Option.none_or] at h
        exact settled_exists hbefore h
      | some candidate =>
        rw [hcandidate, Option.some_or] at h
        cases h
        obtain ⟨t, ht, -, hid⟩ := exists_of_byNumber (Option.filter_eq_some_iff.1 hcandidate).1
        exact ⟨t, ht, hid⟩
    next => cases h

/-- A number that extends another one gives the link, unless the identifier is empty. -/
theorem given_of_byNumber {parts : List String} {part candidate : String}
    (hnumber : numberOf s = some (parts ++ [part])) (hparts : parts ≠ [])
    (h : byNumber sections parts = some candidate) (hempty : candidate ≠ "") :
    given sections before s = some candidate := by
  have hlong : 1 < (parts ++ [part]).length := by
    have hpos := List.length_pos_iff.2 hparts
    rw [List.length_append, List.length_singleton]
    omega
  unfold given
  rw [hnumber]
  dsimp only
  rw [if_pos hlong, List.dropLast_concat, h, Option.filter_some,
    if_pos (decide_eq_true hempty), Option.some_or]

theorem given_of_root {part : String} (hnumber : numberOf s = some [part]) :
    given sections before s = none := by
  unfold given
  rw [hnumber]
  rfl

/-! ## The repaired hierarchy -/

theorem same_repairSections (hids : (sections.map (·.sectionId)).Nodup) :
    List.Forall₂ SameSection sections (repairSections sections).1 := by
  have hsame := (linked_spec hids).2
  unfold repairSections breakCycles
  rw [List.forall₂_map_right_iff]
  refine hsame.imp fun s t hst => ?_
  split
  · rw [hst]
    rfl
  · exact hst

theorem repaired_iff (hids : (sections.map (·.sectionId)).Nodup) :
    IsRepaired sections (linked sections).repaired (repairSections sections).1 ↔
      NoneBelowCycle sections ∧ EmptyIdLinked sections := by
  have hsame := same_repairSections hids
  have hidsBefore : ((linked sections).repaired.map (·.sectionId)).Nodup := by
    rwa [ids_of_same (linked_spec hids).2]
  have hidsAfter : ((repairSections sections).1.map (·.sectionId)).Nodup := by
    rwa [ids_of_same hsame]
  have hlinks := parents_linked hids
  have hafter : ∀ a p, parents (repairSections sections).1 a = some p ↔
      givenParents sections a = some p ∧ Forest.Ends (givenParents sections) a := by
    intro a p
    rw [← hlinks]
    exact parents_breakCycles hidsBefore
  constructor
  · intro h
    constructor
    · intro s hs
      cases hgiven : givenParents sections s.sectionId with
      | none => exact .inl (Forest.ends_of_none hgiven)
      | some parent =>
        by_cases hcycle : Forest.OnCycle (givenParents sections) s.sectionId
        · exact .inr hcycle
        · obtain ⟨t, ht, hst⟩ := exists_same (linked_spec hids).2 hs
          have hkept := h.kept t ht parent
          rw [hst.facts.1, hlinks] at hkept
          exact .inl ((hafter _ _).1 (hkept hgiven hcycle)).2
    · intro s hs parts part hnumber hempty
      obtain ⟨t, ht, hst⟩ := exists_same hsame hs
      obtain ⟨u, hu, hparts, -⟩ := exists_of_byNumber hempty
      have hnumbered := h.numbered t ht parts part (hst.facts.2.trans hnumber) ⟨u, hu, hparts⟩
      rw [hst.facts.1, hlinks] at hnumbered
      refine hnumbered.imp_left fun hparent => ?_
      obtain ⟨v, hv, hvparts, hparent⟩ := hparent
      have hlink := (parents_of_mem hidsAfter ht).trans hparent
      rw [hst.facts.1] at hlink
      exact ⟨v, hv, hvparts, ((hafter _ _).1 hlink).1⟩
  · intro h
    obtain ⟨hbelow, hempty⟩ := h
    refine ⟨hsame, ?_, ?_, ?_, ?_, ?_⟩
    · exact Forest.acyclic_of_ends fun a b hb => (hafter a b).1 hb
    · intro t ht parent hparent
      obtain ⟨s, hs, hst⟩ := exists_of_same hsame ht
      obtain ⟨earlier, hearlier, hgiven⟩ := givenParents_of_mem hids hs
      have hlink := (hafter _ _).1 ((parents_of_mem hidsAfter ht).trans hparent)
      rw [hst.facts.1, hgiven] at hlink
      exact given_exists hearlier hlink.1
    · intro t ht parts part hnumber hexists
      obtain ⟨s, hs, hst⟩ := exists_of_same hsame ht
      rw [hst.facts.2] at hnumber
      rw [hlinks, ← parents_of_mem hidsAfter ht, hst.facts.1]
      obtain ⟨candidate, hcandidate⟩ := Option.isSome_iff_exists.1 (byNumber_isSome hexists)
      have hgiven : (∃ u ∈ sections, numberOf u = some parts ∧
          givenParents sections s.sectionId = some u.sectionId) ∨
            Forest.OnCycle (givenParents sections) s.sectionId := by
        by_cases hid : candidate = ""
        · exact hempty s hs parts part hnumber (hid ▸ hcandidate)
        · obtain ⟨u, hu, hparts, huid⟩ := exists_of_byNumber hcandidate
          obtain ⟨earlier, -, hlink⟩ := givenParents_of_mem hids hs
          rw [given_of_byNumber hnumber (numberOf_ne_nil hparts) hcandidate hid] at hlink
          exact .inl ⟨u, hu, hparts, by rw [hlink, huid]⟩
      rcases hgiven with hgiven | hcycle
      · obtain ⟨u, hu, hparts, hlink⟩ := hgiven
        refine (hbelow s hs).imp_left fun hends => ?_
        exact ⟨u, hu, hparts, (hafter _ _).2 ⟨hlink, hends⟩⟩
      · exact .inr hcycle
    · intro t ht part hnumber
      obtain ⟨s, hs, hst⟩ := exists_of_same hsame ht
      obtain ⟨earlier, -, hlink⟩ := givenParents_of_mem hids hs
      rw [hst.facts.2] at hnumber
      rw [given_of_root hnumber] at hlink
      rw [← parents_of_mem hidsAfter ht, hst.facts.1, Option.eq_none_iff_forall_ne_some]
      intro parent hparent
      rw [hafter, hlink] at hparent
      cases hparent.1
    · intro t ht parent hparent hcycle
      obtain ⟨s, hs, hst⟩ := exists_of_same (linked_spec hids).2 ht
      rw [hst.facts.1, hlinks] at hparent hcycle
      rw [hst.facts.1]
      exact (hafter _ _).2 ⟨hparent, (hbelow s hs).resolve_right hcycle⟩

/-- A clause below its article, which the parser left unlinked. -/
def clauses : List Section :=
  [{ sectionId := "a", title := "Term", number := some "1." },
    { sectionId := "b", title := "Renewal", number := some "1.1" }]

theorem clauses_repaired :
    IsRepaired clauses (linked clauses).repaired (repairSections clauses).1 := by
  refine (repaired_iff (by decide)).2 ⟨fun s hs => .inl ?_, fun s _ parts _ _ hempty => ?_⟩
  · rcases List.mem_cons.1 hs with rfl | hs
    · exact ⟨1, by decide +kernel⟩
    · rw [List.mem_singleton.1 hs]
      exact ⟨2, by decide +kernel⟩
  · obtain ⟨t, ht, -, hid⟩ := exists_of_byNumber hempty
    have hnamed : ∀ t ∈ clauses, t.sectionId ≠ "" := by decide
    exact absurd hid (hnamed t ht)

/-- Two sections that the parser linked to each other, and one below them. -/
def twisted : List Section :=
  [{ sectionId := "a", title := "Fees", parentSection := some "b" },
    { sectionId := "b", title := "Payment", parentSection := some "c" },
    { sectionId := "c", title := "Invoices", parentSection := some "b" }]

/-- The section below the cycle loses its link. -/
theorem twisted_fails :
    ¬ IsRepaired twisted (linked twisted).repaired (repairSections twisted).1 := by
  intro h
  have hcycle : ∀ n, Forest.up (parents (linked twisted).repaired) n "b" ∈ [some "b", some "c"] ∧
      Forest.up (parents (linked twisted).repaired) n "c" ∈ [some "b", some "c"] := by
    intro n
    induction n with
    | zero => decide
    | succ n ih =>
      have hb : parents (linked twisted).repaired "b" = some "c" := by decide +kernel
      have hc : parents (linked twisted).repaired "c" = some "b" := by decide +kernel
      unfold Forest.up
      rw [hb, hc]
      exact ⟨ih.2, ih.1⟩
  have hlink : parents (linked twisted).repaired "a" = some "b" := by decide +kernel
  have hfirst : ∃ s ∈ (linked twisted).repaired, s.sectionId = "a" := by decide +kernel
  obtain ⟨s, hs, hid⟩ := hfirst
  have hkept := h.kept s hs "b"
  rw [hid] at hkept
  have hlost : parents (repairSections twisted).1 "a" = none := by decide +kernel
  rw [hkept hlink] at hlost
  · cases hlost
  · intro hon
    obtain ⟨n, hpos, hn⟩ := hon
    rw [show n = n - 1 + 1 by omega, Forest.up, hlink] at hn
    have hmem := (hcycle (n - 1)).1
    rw [show Forest.up (parents (linked twisted).repaired) (n - 1) "b" = some "a" from hn] at hmem
    revert hmem
    decide

end SectionTree

end Clear
