import Clear.Ai.DocPipeline.Proof.Detection
import Clear.Ai.DocPipeline.Proof.Source

/-!
# The paragraphs that a detected clause cites

A clause is the section of a heading or comes from the references that an answer lists
(`detected_origin`). References that the section or the window does not have are dropped, and the
others are taken as they stand: the clause cites distinct paragraphs in document order exactly if
the answer does (`detected_cites`).
-/

namespace Clear

/-! ## Paragraphs by reference -/

section

variable {paragraphs : List Paragraph}

theorem byRef_eq_some {ref : String} {p : Paragraph} (h : byRef paragraphs ref = some p) :
    p ∈ paragraphs ∧ p.ref = ref := by
  have hmem := List.mem_of_getLast? h
  rw [List.mem_filter] at hmem
  exact ⟨hmem.1, of_decide_eq_true hmem.2⟩

theorem byRef_eq_none {ref : String} (h : byRef paragraphs ref = none) :
    paragraphs.any (·.ref = ref) = false := by
  unfold byRef at h
  rw [List.getLast?_eq_none_iff, List.filter_eq_nil_iff] at h
  simpa using h

theorem map_ref_filterMap (refs : List String) :
    (refs.filterMap (byRef paragraphs)).map (·.ref) =
      refs.filter fun ref => paragraphs.any (·.ref = ref) := by
  induction refs with
  | nil => rfl
  | cons ref refs ih =>
    cases hp : byRef paragraphs ref with
    | none => rw [List.filterMap_cons_none hp, ih, List.filter_cons_of_neg (by
        rw [byRef_eq_none hp]; decide)]
    | some p =>
      obtain ⟨hmem, href⟩ := byRef_eq_some hp
      have hany : paragraphs.any (·.ref = ref) = true :=
        List.any_eq_true.2 ⟨p, hmem, by simpa using href⟩
      rw [List.filterMap_cons_some hp, List.map_cons, ih, href,
        List.filter_cons_of_pos (p := fun ref => paragraphs.any (·.ref = ref)) hany]

theorem mem_filterMap_byRef {refs : List String} {p : Paragraph}
    (h : p ∈ refs.filterMap (byRef paragraphs)) : p ∈ paragraphs := by
  obtain ⟨ref, -, hp⟩ := List.mem_filterMap.1 h
  exact (byRef_eq_some hp).1

/-! ## Sections and repaired boundaries -/

theorem split_at_idxOf {p : Paragraph} {start : Nat} (h : paragraphs.idxOf? p = some start) :
    paragraphs = paragraphs.take start ++ p :: paragraphs.drop (start + 1) := by
  obtain ⟨hlt, hget, -⟩ := List.idxOf?_eq_some_iff.1 h
  rw [← hget, List.getElem_cons_drop, List.take_append_drop]

theorem extentFromHeading_sublist {heading : Paragraph} (h : heading ∈ paragraphs) :
    (extentFromHeading heading paragraphs).Sublist paragraphs := by
  unfold extentFromHeading
  split
  · exact List.singleton_sublist.2 h
  next start hstart =>
    conv => rhs; rw [split_at_idxOf hstart]
    exact (((List.takeWhile_sublist _).cons_cons heading)).trans (List.sublist_append_right _ _)

theorem repairBoundary_cases (selected body : List Paragraph) :
    (repairBoundary selected body paragraphs).1 = selected ∨
      ∃ init last start more, selected = init ++ [last] ∧ paragraphs.idxOf? last = some start ∧
        List.Sublist more (paragraphs.drop (start + 1)) ∧
        (repairBoundary selected body paragraphs).1 = selected ++ more := by
  unfold repairBoundary
  split
  next last edge hlast _ =>
    split
    · exact .inl rfl
    · split
      · exact .inl rfl
      next start hstart =>
        obtain ⟨init, hinit⟩ := List.getLast?_eq_some_iff.1 hlast
        exact .inr ⟨init, last, start, _, hinit, hstart,
          ((List.takeWhile_sublist _).trans (List.take_sublist _ _)).trans
            (List.takeWhile_sublist _), rfl⟩
  · exact .inl rfl

theorem repairBoundary_extends (selected body : List Paragraph) :
    selected <+: (repairBoundary selected body paragraphs).1 := by
  rcases repairBoundary_cases selected body with h | ⟨_, _, _, more, -, -, -, h⟩
  · rw [h]
  · rw [h]
    exact List.prefix_append _ _

theorem repairBoundary_subset {selected body : List Paragraph}
    (hsub : ∀ p ∈ selected, p ∈ paragraphs) :
    ∀ p ∈ (repairBoundary selected body paragraphs).1, p ∈ paragraphs := by
  rcases repairBoundary_cases selected body with h | ⟨_, _, _, more, -, -, hmore, h⟩
  · rw [h]
    exact hsub
  · rw [h]
    intro p hp
    rcases List.mem_append.1 hp with hp | hp
    · exact hsub p hp
    · exact List.mem_of_mem_drop (hmore.subset hp)

/-- A repaired clause stands in document order exactly if it did before. -/
theorem repairBoundary_sublist {selected body : List Paragraph} (hnodup : paragraphs.Nodup) :
    (repairBoundary selected body paragraphs).1.Sublist paragraphs ↔
      selected.Sublist paragraphs := by
  rcases repairBoundary_cases selected body with
    h | ⟨init, last, start, more, rfl, hstart, hmore, h⟩
  · rw [h]
  · refine ⟨(repairBoundary_extends _ _).sublist.trans, fun hsel => ?_⟩
    rw [h, List.append_assoc]
    have hsplit := split_at_idxOf hstart
    generalize paragraphs.take start = before, paragraphs.drop (start + 1) = after at hsplit hmore
    subst hsplit
    rw [List.nodup_middle, List.nodup_cons] at hnodup
    -- the selected paragraphs before the last one stand before it in the document
    suffices hinit : init.Sublist before from hinit.append (hmore.cons_cons last)
    obtain ⟨r₁, r₂, hr, hinit, hlast⟩ := List.append_sublist_iff.1 hsel
    rw [List.singleton_sublist] at hlast
    rcases List.append_eq_append_iff.1 hr with ⟨mid, rfl, hmid⟩ | ⟨mid, rfl, hmid⟩
    · cases mid with
      | nil => rwa [List.append_nil] at hinit
      | cons p mid =>
        obtain ⟨rfl, rfl⟩ := List.cons.inj hmid
        exact absurd (List.mem_append_right _ (List.mem_append_right _ hlast)) hnodup.1
    · exact hinit.trans (List.sublist_append_left _ _)

end

namespace ClauseDetector

/-! ## Where a clause comes from -/

def FromHeading (pages : List PageContent) (c : DetectedClause) : Prop :=
  ∃ heading ∈ (iterParagraphs pages).filter (·.isHeading),
    c.paragraphs = extentFromHeading heading (iterParagraphs pages)

/-- An answer gives the clause an entry; `known` are the references that the entry lists, as it
lists them, without those that `scope` does not have. -/
def Lists (d : ClauseDetector) (call : ProviderCall) (key : String) (scope : List Paragraph)
    (c : String) (known : List String) : Prop :=
  ∃ data es, d.structured call = .ok data ∧ entries data key = .ok es ∧ ∃ entry ∈ es,
    d.clauseOf entry = c ∧ ∃ refs, d.refsOf entry = .ok refs ∧
      known = refs.filter fun ref => scope.any (·.ref = ref)

def FromAnswer (d : ClauseDetector) (pages : List PageContent) (options : DetectOptions)
    (c : DetectedClause) (known : List String) : Prop :=
  known <+: c.paragraphs.map (·.ref) ∧
    ((∃ heading ∈ (iterParagraphs pages).filter (·.isHeading),
      d.Lists (.split heading.ref) "assignments"
        (extentFromHeading heading (iterParagraphs pages)) c.clause known) ∨
    ∃ w ∈ numbered pages options, skipped w.1 = false ∧
      d.Lists (.search w.2) "clauses" (body w.1) c.clause known)

def Origin (d : ClauseDetector) (pages : List PageContent) (options : DetectOptions)
    (c : DetectedClause) : Prop :=
  FromHeading pages c ∨
    ∃ selected edge, (∀ p ∈ selected, p ∈ iterParagraphs pages) ∧
      c.paragraphs = (repairBoundary selected edge (iterParagraphs pages)).1 ∧
      d.FromAnswer pages options c (selected.map (·.ref))

/-! ## Sections -/

theorem exactPass_mem (headings : List Paragraph) (clauses : List ClauseSpec) :
    (∀ e ∈ (exactPass headings clauses).1, e.2.1 ∈ headings) ∧
      ∀ p ∈ (exactPass headings clauses).2, p ∈ headings := by
  apply List.foldlRecOn headings (exactStep (Heading.normalisedLookup clauses))
    (motive := fun s => (∀ e ∈ s.1, e.2.1 ∈ headings) ∧ ∀ p ∈ s.2, p ∈ headings)
  · exact ⟨fun _ h => (List.not_mem_nil h).elim, fun _ h => (List.not_mem_nil h).elim⟩
  · intro s hs heading hmem
    have hskip : ∀ p ∈ s.2 ++ [heading], p ∈ headings := by
      intro p hp
      rcases List.mem_append.1 hp with hp | hp
      · exact hs.2 p hp
      · rwa [List.mem_singleton.1 hp]
    unfold exactStep
    split
    · exact ⟨hs.1, hskip⟩
    · split
      · exact ⟨hs.1, hskip⟩
      · refine ⟨fun e he => ?_, hs.2⟩
        rcases List.mem_append.1 he with he | he
        · exact hs.1 e he
        · rwa [List.mem_singleton.1 he]

theorem llmPass_mem {d : ClauseDetector} {unmatched : List Paragraph}
    {remaining : List ClauseSpec} {taken taken' : Taken}
    (h : d.llmPass unmatched remaining taken = .ok taken') :
    ∀ e ∈ taken', e ∈ taken ∨ e.2.1 ∈ unmatched := by
  unfold llmPass at h
  split at h
  · cases h
    exact fun _ => .inl
  · obtain ⟨samples, -, h⟩ := Except.bind_eq_ok.1 h
    obtain rfl := Except.pure_eq_ok.1 h
    apply List.foldlRecOn samples.flatten (assignStep unmatched remaining)
      (motive := fun t => ∀ e ∈ t, e ∈ taken ∨ e.2.1 ∈ unmatched)
    · exact fun _ => .inl
    · intro t ht a _
      unfold assignStep
      split
      · exact ht
      next heading hheading =>
        split
        · intro e he
          rcases List.mem_append.1 he with he | he
          · exact ht e he
          · rw [List.mem_singleton.1 he]
            exact .inr (byRef_eq_some hheading).1
        · exact ht

theorem splitSection_mem {d : ClauseDetector} {ref : String} {extent : List Paragraph}
    {clauses : List String} {split : List (String × List Paragraph)}
    (h : d.splitSection ref extent clauses = .ok split) {e : String × List Paragraph}
    (he : e ∈ split) : (∀ p ∈ e.2, p ∈ extent) ∧
      d.Lists (.split ref) "assignments" extent e.1 (e.2.map (·.ref)) := by
  unfold splitSection at h
  split at h
  · cases h
    cases he
  next data hdata =>
    obtain ⟨es, hes, h⟩ := Except.bind_eq_ok.1 h
    obtain ⟨collected, hcollected, h⟩ := Except.bind_eq_ok.1 h
    obtain rfl := Except.pure_eq_ok.1 h
    have hmem : e ∈ collected := by
      split at he
      · cases he
      · exact he
    refine Except.foldlM_invariant (fun s : List (String × List Paragraph) => ∀ e ∈ s,
      (∀ p ∈ e.2, p ∈ extent) ∧ d.Lists (.split ref) "assignments" extent e.1
        (e.2.map (·.ref))) ?_ (fun e he => by cases he) hcollected e hmem
    intro s s' entry hentry hs hstep
    unfold splitStep at hstep
    dsimp only at hstep
    split at hstep
    · obtain ⟨refs, hrefs, hstep⟩ := Except.map_eq_ok.1 hstep
      split at hstep
      · exact hstep ▸ hs
      · subst hstep
        intro e he
        rcases List.mem_append.1 he with he | he
        · exact hs e (List.mem_filter.1 he).1
        · rw [List.mem_singleton.1 he]
          exact ⟨fun p => mem_filterMap_byRef, data, es, hdata, hes, entry, hentry, rfl, refs,
            hrefs, map_ref_filterMap refs⟩
    · cases hstep
      exact hs

section

variable {d : ClauseDetector} {pages : List PageContent} {options : DetectOptions}

theorem splits_mem {taken : Taken}
    (htaken : ∀ e ∈ taken, e.2.1 ∈ (iterParagraphs pages).filter (·.isHeading))
    {splits : List (String × List (String × List Paragraph))}
    (h : d.splits taken (iterParagraphs pages) = .ok splits) {ref : String}
    {split : List (String × List Paragraph)} (hsplit : (ref, split) ∈ splits)
    {e : String × List Paragraph} (he : e ∈ split) (hne : e.2 ≠ []) :
    ∃ heading ∈ (iterParagraphs pages).filter (·.isHeading),
      (∀ p ∈ e.2, p ∈ extentFromHeading heading (iterParagraphs pages)) ∧
        d.Lists (.split heading.ref) "assignments"
          (extentFromHeading heading (iterParagraphs pages)) e.1 (e.2.map (·.ref)) := by
  unfold ClauseDetector.splits at h
  obtain ⟨ref', -, hsection⟩ := (Except.mem_of_mapM h).1 hsplit
  obtain ⟨split', hsection, heq⟩ := Except.map_eq_ok.1 hsection
  cases heq
  obtain ⟨hextent, hlists⟩ := splitSection_mem hsection he
  unfold sharedExtent at hextent hlists
  split at hextent
  · -- no heading has the reference, so nothing can be assigned
    obtain ⟨p, hp⟩ := List.exists_mem_of_ne_nil _ hne
    cases hextent p hp
  next heading hheading =>
    obtain ⟨hmem, rfl⟩ := byRef_eq_some hheading
    obtain ⟨e', he', rfl⟩ := List.mem_map.1 hmem
    rw [hheading] at hlists
    exact ⟨e'.2.1, htaken e' he', hextent, hlists⟩

theorem extentOf_origin {taken : Taken}
    (htaken : ∀ e ∈ taken, e.2.1 ∈ (iterParagraphs pages).filter (·.isHeading))
    {splits : List (String × List (String × List Paragraph))}
    (h : d.splits taken (iterParagraphs pages) = .ok splits) {e : String × (Paragraph × String)}
    (he : e ∈ taken) :
    d.Origin pages options (extentOf (iterParagraphs pages) splits e) := by
  unfold extentOf
  dsimp only
  split
  next p portion hportion =>
    cases hsplit : splits.lookup e.2.1.ref with
    | none =>
      rw [hsplit] at hportion
      cases hportion
    | some split =>
      rw [hsplit, Option.getD_some] at hportion
      obtain ⟨heading, hheading, hextent, hlists⟩ := splits_mem htaken h
        (Dict.mem_of_lookup hsplit) (Dict.mem_of_lookup hportion) (List.cons_ne_nil _ _)
      refine .inr ⟨p :: portion, [], fun q hq => ?_, ?_, List.prefix_rfl,
        .inl ⟨heading, hheading, hlists⟩⟩
      · exact (extentFromHeading_sublist (List.mem_filter.1 hheading).1).subset (hextent q hq)
      · simp [repairBoundary]
  · exact .inl ⟨e.2.1, htaken e he, rfl⟩

theorem headingPass_origin {clauses : List ClauseSpec} {pass : HeadingPass}
    (h : d.headingPass (iterParagraphs pages) clauses = .ok pass) :
    ∀ c ∈ pass.detected, d.Origin pages options c := by
  unfold headingPass at h
  dsimp only at h
  split at h
  · cases h
    exact fun c hc => by cases hc
  · obtain ⟨taken, htaken, h⟩ := Except.bind_eq_ok.1 h
    obtain ⟨detected, hdetected, h⟩ := Except.bind_eq_ok.1 h
    obtain rfl := Except.pure_eq_ok.1 h
    obtain ⟨hexact, hunmatched⟩ :=
      exactPass_mem ((iterParagraphs pages).filter (·.isHeading)) clauses
    have hmem : ∀ e ∈ ordered taken (iterParagraphs pages),
        e.2.1 ∈ (iterParagraphs pages).filter (·.isHeading) := by
      intro e he
      have he : e ∈ taken := (List.mergeSort_perm _ _).mem_iff.1 he
      rcases llmPass_mem htaken e he with he | he
      · exact hexact e he
      · exact hunmatched _ he
    unfold extents at hdetected
    obtain ⟨splits, hsplits, hdetected⟩ := Except.bind_eq_ok.1 hdetected
    obtain rfl := Except.pure_eq_ok.1 hdetected
    intro c hc
    obtain ⟨e, he, rfl⟩ := List.mem_map.1 hc
    exact extentOf_origin hmem hsplits he

/-! ## Windows -/

theorem searchWindow_lists {pending : List ClauseSpec} {w : Numbered}
    {found : List (String × List String)} (h : d.searchWindow pending w = .ok found)
    {e : String × List String} (he : e ∈ found) :
    skipped w.1 = false ∧ d.Lists (.search w.2) "clauses" (body w.1) e.1 e.2 := by
  unfold searchWindow at h
  split at h
  · cases h
    cases he
  next hskip =>
    refine ⟨by simpa using hskip, ?_⟩
    unfold searchChunk at h
    split at h
    · cases h
      cases he
    next data hdata =>
      obtain ⟨es, hes, h⟩ := Except.bind_eq_ok.1 h
      refine Except.foldlM_invariant (fun s : List (String × List String) => ∀ e ∈ s,
        d.Lists (.search w.2) "clauses" (body w.1) e.1 e.2) ?_ (fun e he => by cases he) h e he
      intro s s' entry hentry hs hstep
      unfold foundStep at hstep
      dsimp only at hstep
      split at hstep
      · obtain ⟨refs, hrefs, hstep⟩ := Except.map_eq_ok.1 hstep
        split at hstep
        · exact hstep ▸ hs
        · subst hstep
          intro e he
          rcases List.mem_append.1 he with he | he
          · exact hs e he
          · rw [List.mem_singleton.1 he]
            exact ⟨data, es, hdata, hes, entry, hentry, rfl, refs, hrefs, rfl⟩
      · cases hstep
        exact hs

/-- The references of a window are references of the document. -/
theorem filterMap_byRef_lists {w : Numbered} (hw : w ∈ numbered pages options) {c : String}
    {known : List String} (h : d.Lists (.search w.2) "clauses" (body w.1) c known) :
    (known.filterMap (byRef (iterParagraphs pages))).map (·.ref) = known := by
  obtain ⟨data, es, -, -, entry, -, -, refs, -, rfl⟩ := h
  rw [map_ref_filterMap, List.filter_eq_self]
  intro ref href
  obtain ⟨p, hp, hpref⟩ := List.any_eq_true.1 (List.mem_filter.1 href).2
  exact List.any_eq_true.2 ⟨p, body_subset hw p hp, hpref⟩

theorem claimStep_origin {w : Numbered} (hw : w ∈ numbered pages options)
    (hskip : skipped w.1 = false) {e : String × List String}
    (he : d.Lists (.search w.2) "clauses" (body w.1) e.1 e.2)
    {s : List DetectedClause × List String} (hs : ∀ c ∈ s.1, d.Origin pages options c) :
    ∀ c ∈ (claimStep (iterParagraphs pages) w.1 s e).1, d.Origin pages options c := by
  have hrefs := filterMap_byRef_lists hw he
  unfold claimStep
  split
  · exact hs
  · split
    · exact hs
    next p rest hselected =>
      intro c hc
      rcases List.mem_append.1 hc with hc | hc
      · exact hs c hc
      · rw [List.mem_singleton.1 hc]
        rw [hselected] at hrefs
        refine .inr ⟨p :: rest, body w.1, fun q hq => ?_, rfl,
          (repairBoundary_extends _ _).map _, .inr ⟨w, hw, hskip, ?_⟩⟩
        · exact mem_filterMap_byRef (hselected ▸ hq)
        · rw [hrefs]
          exact he

theorem recordWindow_origin {w : Numbered} (hw : w ∈ numbered pages options)
    {pending : List ClauseSpec} {found : List (String × List String)}
    (hfound : d.searchWindow pending w = .ok found) {s : ChunkPass}
    (hs : ∀ c ∈ s.detected, d.Origin pages options c) :
    ∀ c ∈ (recordWindow (iterParagraphs pages) s (w, found)).detected,
      d.Origin pages options c := by
  show ∀ c ∈ (found.foldl (claimStep (iterParagraphs pages) w.1) (s.detected, [])).1, _
  apply List.foldlRecOn found (claimStep (iterParagraphs pages) w.1)
    (motive := fun t => ∀ c ∈ t.1, d.Origin pages options c)
  · exact hs
  · intro t ht e he
    obtain ⟨hskip, hlists⟩ := searchWindow_lists hfound he
    exact claimStep_origin hw hskip hlists ht

theorem foldl_recordWindow_origin {wave : List Numbered}
    (hwave : ∀ w ∈ wave, w ∈ numbered pages options) {pending : List ClauseSpec}
    {found : List (List (String × List String))}
    (hfound : wave.mapM (d.searchWindow pending) = .ok found) {s : ChunkPass}
    (hs : ∀ c ∈ s.detected, d.Origin pages options c) :
    ∀ c ∈ ((wave.zip found).foldl (recordWindow (iterParagraphs pages)) s).detected,
      d.Origin pages options c := by
  induction wave generalizing s found with
  | nil => exact hs
  | cons w wave ih =>
    rw [List.mapM_cons] at hfound
    obtain ⟨f, hf, hfound⟩ := Except.bind_eq_ok.1 hfound
    obtain ⟨fs, hfs, hfound⟩ := Except.bind_eq_ok.1 hfound
    obtain rfl := Except.pure_eq_ok.1 hfound
    exact ih (fun w' hw' => hwave w' (List.mem_cons_of_mem _ hw')) hfs
      (recordWindow_origin (hwave w List.mem_cons_self) hf hs)

theorem runWave_origin {wave : List Numbered} (hwave : ∀ w ∈ wave, w ∈ numbered pages options)
    {s s' : ChunkPass} (hs : ∀ c ∈ s.detected, d.Origin pages options c)
    (h : d.runWave (iterParagraphs pages) wave s = .ok s') :
    ∀ c ∈ s'.detected, d.Origin pages options c := by
  unfold runWave at h
  obtain ⟨found, hfound, h⟩ := Except.bind_eq_ok.1 h
  obtain rfl := Except.pure_eq_ok.1 h
  exact foldl_recordWindow_origin hwave hfound hs

theorem chunkLoop_origin {waves : List (List Numbered)}
    (hwaves : ∀ w ∈ waves.flatten, w ∈ numbered pages options) {earlyStop : Bool} {s : ChunkPass}
    {pass : ChunkPass × Bool × List Int} (hs : ∀ c ∈ s.detected, d.Origin pages options c)
    (h : d.chunkLoop (iterParagraphs pages) earlyStop waves s = .ok pass) :
    ∀ c ∈ pass.1.detected, d.Origin pages options c := by
  induction waves generalizing s with
  | nil =>
    cases h
    exact hs
  | cons wave waves ih =>
    unfold chunkLoop at h
    split at h
    · cases h
      exact hs
    · obtain ⟨s₁, hs₁, h⟩ := Except.bind_eq_ok.1 h
      rw [List.flatten_cons] at hwaves
      exact ih (fun w hw => hwaves w (List.mem_append_right _ hw))
        (runWave_origin (fun w hw => hwaves w (List.mem_append_left _ hw)) hs hs₁) h

/-! ## The report -/

theorem detected_origin {clauses : List ClauseSpec} {r : ClauseDetection} {searches : List Search}
    (h : d.detect pages clauses options = .ok (r, searches)) :
    ∀ c ∈ r.detected, d.Origin pages options c := by
  unfold detect at h
  split at h
  · cases h
    exact fun c hc => by cases hc
  · split at h
    · cases h
    next headed hheaded =>
      split at h
      · cases h
      next pass hpass =>
        have hdetected : r.detected = pass.1.detected := by
          unfold report at h
          dsimp only at h
          split at h
          · cases h
          · cases h
            rfl
        rw [hdetected]
        unfold bodyPass at hpass
        split at hpass
        · cases hpass
          exact headingPass_origin hheaded
        · unfold chunkPass at hpass
          exact chunkLoop_origin (fun w hw => flatten_waves pages options ▸ hw)
            (headingPass_origin hheaded) hpass

def Cites (pages : List PageContent) (c : DetectedClause) : Prop :=
  (c.paragraphs.map (·.ref)).Nodup ∧ c.paragraphs.Sublist (iterParagraphs pages)

/-- A detected clause lists paragraphs of the document only. Where references are unique, it lists
them once and in order if it is a section; if an answer gave its references, exactly if those that
are known stand once and in order in the answer. -/
theorem detected_cites {clauses : List ClauseSpec} {r : ClauseDetection} {searches : List Search}
    (h : d.detect pages clauses options = .ok (r, searches)) {c : DetectedClause}
    (hc : c ∈ r.detected) :
    (∀ p ∈ c.paragraphs, p ∈ iterParagraphs pages) ∧
      (((iterParagraphs pages).map (·.ref)).Nodup →
        (FromHeading pages c ∧ Cites pages c) ∨
          ∃ known, d.FromAnswer pages options c known ∧
            (Cites pages c ↔ known.Sublist ((iterParagraphs pages).map (·.ref)))) := by
  have hcites : ((iterParagraphs pages).map (·.ref)).Nodup →
      (Cites pages c ↔ c.paragraphs.Sublist (iterParagraphs pages)) := fun hrefs =>
    ⟨And.right, fun hsub => ⟨hrefs.sublist (hsub.map _), hsub⟩⟩
  rcases detected_origin h c hc with ⟨heading, hheading, hparagraphs⟩ |
    ⟨selected, edge, hselected, hparagraphs, hanswer⟩
  · have hsub : c.paragraphs.Sublist (iterParagraphs pages) :=
      hparagraphs ▸ extentFromHeading_sublist (List.mem_filter.1 hheading).1
    exact ⟨fun p hp => hsub.subset hp,
      fun hrefs => .inl ⟨⟨heading, hheading, hparagraphs⟩, (hcites hrefs).2 hsub⟩⟩
  · refine ⟨hparagraphs ▸ repairBoundary_subset hselected,
      fun hrefs => .inr ⟨selected.map (·.ref), hanswer, ?_⟩⟩
    rw [hcites hrefs, hparagraphs, repairBoundary_sublist hrefs.of_map,
      Keyed.sublist_iff hrefs hselected]

end

/-! ## Answers that are out of order -/

namespace Sample

def backwards : ValueDict :=
  [("clauses", .list [.dict [("clause", .str "Audit rights"),
    ("paragraph_refs", .list [.str "1.2", .str "1.1"])]])]

def reversed : ClauseDetector where
  repr := fun _ => ""
  headroom := 16000
  generateStructured := fun _ _ => .ok backwards

def twoParagraphs : List PageContent :=
  [{ pageNumber := 1
     paragraphs := [
       { pageNumber := 1, index := 1, role := none
         content := String.ofList (List.replicate 250 'x') },
       { pageNumber := 1, index := 2, role := none, content := "y" }] }]

/-- Two payloads that both call themselves page 1. -/
def samePage : List PageContent :=
  [{ pageNumber := 1
     paragraphs := [{ pageNumber := 1, index := 1, role := some "sectionHeading"
                      content := "Audit rights" }] },
   { pageNumber := 1
     paragraphs := [{ pageNumber := 1, index := 1, role := none, content := "x" }] }]

end Sample

theorem reversed_readable : Sample.reversed.Readable := by
  have hdata : ∀ call data, Sample.reversed.structured call = .ok data → data = Sample.backwards :=
    fun call data h => (Except.ok.inj h).symm
  refine ⟨fun sample data h => ?_, fun ref data h => ?_, fun i data h => ?_⟩
  · rw [hdata _ _ h]
    exact ⟨_, rfl⟩
  · rw [hdata _ _ h]
    exact ⟨_, rfl, fun entry hentry => by cases hentry⟩
  · rw [hdata _ _ h]
    refine ⟨_, rfl, fun entry hentry => ?_⟩
    obtain rfl := List.mem_singleton.1 hentry
    exact ⟨_, rfl⟩

theorem exists_detected {d : ClauseDetector} {pages : List PageContent}
    {clauses : List ClauseSpec} {options : DetectOptions} (hd : d.Readable) {spec : ClauseSpec}
    (hspec : spec ∈ clauses) (hlocated : d.Located pages clauses options spec.clause) :
    ∃ r searches, d.detect pages clauses options = .ok (r, searches) ∧
      ∃ c ∈ r.detected, c.clause = spec.clause := by
  rcases detect_cases d pages clauses options with ⟨e, he⟩ | ⟨r, searches, hr, -, hiff, -⟩
  · obtain ⟨out, hout⟩ := hd.detect pages clauses options
    rw [hout] at he
    cases he
  · have hclaimed := claimed_iff.1 ((hiff spec hspec).2 hlocated)
    obtain ⟨c, hc, hclause⟩ := List.mem_map.1 hclaimed
    exact ⟨r, searches, hr, c, hc, hclause⟩

/-- The answer lists the paragraphs backwards, and so does the clause. -/
theorem reversed_cites :
    ((iterParagraphs Sample.twoParagraphs).map (·.ref)).Nodup ∧
      ∃ r searches, Sample.reversed.detect Sample.twoParagraphs Sample.auditRights {} =
        .ok (r, searches) ∧ ∃ c ∈ r.detected, ¬ Cites Sample.twoParagraphs c := by
  have hwindow : (Sample.twoParagraphs, 0) ∈ numbered Sample.twoParagraphs {} :=
    List.mem_singleton_self _
  have hskip : skipped Sample.twoParagraphs = false := by
    have hchars : charsSent Sample.twoParagraphs = 250 + "y".length := by
      simp only [charsSent, body, Sample.twoParagraphs, List.flatMap_cons, List.flatMap_nil,
        List.append_nil, List.foldl_cons, List.foldl_nil, String.length_ofList,
        List.length_replicate, Nat.zero_add]
    unfold skipped minChunkChars
    rw [hchars, decide_eq_false_iff_not]
    omega
  have hreported : Sample.reversed.Reported (Sample.twoParagraphs, 0) "Audit rights" :=
    ⟨hskip, Sample.backwards, _, rfl, rfl, _, List.mem_singleton_self _, by decide, _, rfl,
      "1.1", by decide, by decide⟩
  have hspec : ({ clause := "Audit rights" } : ClauseSpec) ∈ Sample.auditRights :=
    List.mem_singleton_self _
  obtain ⟨r, searches, hr, c, hc, -⟩ :=
    exists_detected reversed_readable hspec (.inr ⟨_, hwindow, hreported⟩)
  refine ⟨by decide, r, searches, hr, c, hc, fun hcites => ?_⟩
  have hnone : (iterParagraphs Sample.twoParagraphs).filter (·.isHeading) = [] := by decide
  rcases detected_origin hr c hc with ⟨heading, hheading, -⟩ | ⟨selected, edge, -, -, hpre, h⟩
  · rw [hnone] at hheading
    cases hheading
  · rcases h with ⟨heading, hheading, -⟩ | ⟨w, hw, -, data, es, hdata, hes, entry, hentry, -,
      refs, hrefs, hknown⟩
    · rw [hnone] at hheading
      cases hheading
    · obtain rfl := List.mem_singleton.1 hw
      obtain rfl := Except.ok.inj hdata
      obtain rfl := Except.ok.inj hes
      obtain rfl := List.mem_singleton.1 hentry
      obtain rfl := Except.ok.inj hrefs
      have hknown : selected.map (·.ref) = ["1.2", "1.1"] := hknown.trans (by decide)
      rw [hknown] at hpre
      exact absurd (hpre.sublist.trans (hcites.2.map Paragraph.ref)) (by decide)

theorem samePage_cites :
    ∃ r searches, Sample.timeouts.detect Sample.samePage Sample.auditRights {} =
      .ok (r, searches) ∧ ∃ c ∈ r.detected, ¬ Cites Sample.samePage c := by
  have hmatched : Sample.timeouts.HeadingMatched (iterParagraphs Sample.samePage)
      Sample.auditRights "Audit rights" := .inl (by decide)
  have hspec : ({ clause := "Audit rights" } : ClauseSpec) ∈ Sample.auditRights :=
    List.mem_singleton_self _
  obtain ⟨r, searches, hr, c, hc, -⟩ :=
    exists_detected timeouts_readable hspec (.inl hmatched)
  refine ⟨r, searches, hr, c, hc, fun hcites => ?_⟩
  rcases detected_origin hr c hc with ⟨heading, hheading, hsection⟩ |
    ⟨selected, edge, -, -, -, ⟨_, _, _, _, hdata, -⟩ | ⟨_, _, _, _, _, hdata, -⟩⟩
  · obtain rfl := List.mem_singleton.1 hheading
    have hnodup := hcites.1
    rw [hsection] at hnodup
    exact absurd hnodup (by decide)
  · exact timeouts_fails _ _ hdata
  · exact timeouts_fails _ _ hdata

/-- An answer lists known references backwards, and so does its clause; where two paragraphs share a
reference, a section lists it twice. -/
theorem cites_fails :
    (((iterParagraphs Sample.twoParagraphs).map (·.ref)).Nodup ∧
      ∃ r searches, Sample.reversed.detect Sample.twoParagraphs Sample.auditRights {} =
        .ok (r, searches) ∧ ∃ c ∈ r.detected, ¬ Cites Sample.twoParagraphs c) ∧
      ∃ r searches, Sample.timeouts.detect Sample.samePage Sample.auditRights {} =
        .ok (r, searches) ∧ ∃ c ∈ r.detected, ¬ Cites Sample.samePage c :=
  ⟨reversed_cites, samePage_cites⟩

theorem detected_cites_reversed :
    ∃ c : DetectedClause, (∀ p ∈ c.paragraphs, p ∈ iterParagraphs Sample.twoParagraphs) ∧
      ((FromHeading Sample.twoParagraphs c ∧ Cites Sample.twoParagraphs c) ∨
        ∃ known, Sample.reversed.FromAnswer Sample.twoParagraphs {} c known ∧
          (Cites Sample.twoParagraphs c ↔
            known.Sublist ((iterParagraphs Sample.twoParagraphs).map (·.ref)))) := by
  obtain ⟨hrefs, r, searches, hr, c, hc, -⟩ := reversed_cites
  exact ⟨c, (detected_cites hr hc).1, (detected_cites hr hc).2 hrefs⟩

end ClauseDetector

end Clear
