import Clear.Ai.DocPipeline.Clauses
import Clear.Lib.Except
import Mathlib.Data.List.Nodup

/-!
# What the headings contribute

Pass A locates a clause when a heading matches its name exactly or a sample of the mapping call
assigns it to a heading that the exact match left (`HeadingMatched`), each clause once
(`headingPass_spec`).
-/

namespace Clear

namespace ClauseDetector

theorem taken_holds_iff {taken : Taken} {c : String} :
    taken.holds c = true ↔ c ∈ taken.map (·.1) := by
  simp [Taken.holds]

def Assigned (d : ClauseDetector) (unmatched : List Paragraph) (c : String) : Prop :=
  ∃ sample < headingSamples, ∃ data es, d.structured (.headings sample) = .ok data ∧
    entries data "matches" = .ok es ∧ ∃ entry ∈ es, ∃ ref heading,
      d.assignmentOf entry = some (ref, c) ∧ byRef unmatched ref = some heading

def HeadingMatched (d : ClauseDetector) (paragraphs : List Paragraph)
    (clauses : List ClauseSpec) (c : String) : Prop :=
  (exactPass (paragraphs.filter (·.isHeading)) clauses).1.holds c = true ∨
    ((∃ spec ∈ clauses, spec.clause = c) ∧
      d.Assigned (exactPass (paragraphs.filter (·.isHeading)) clauses).2 c)

/-! ## The exact match -/

theorem exactStep_nodup {lookup : List (String × String)} {s : Taken × List Paragraph}
    {heading : Paragraph} (h : (s.1.map (·.1)).Nodup) :
    ((exactStep lookup s heading).1.map (·.1)).Nodup := by
  unfold exactStep
  split
  · exact h
  · split
    · exact h
    next hc =>
      rw [taken_holds_iff] at hc
      rw [List.map_append]
      exact h.append (List.nodup_singleton _) (by simpa using hc)

theorem exactPass_nodup (headings : List Paragraph) (clauses : List ClauseSpec) :
    ((exactPass headings clauses).1.map (·.1)).Nodup := by
  unfold exactPass
  generalize Heading.normalisedLookup clauses = lookup
  suffices h : ∀ s : Taken × List Paragraph, (s.1.map (·.1)).Nodup →
      ((headings.foldl (exactStep lookup) s).1.map (·.1)).Nodup from h _ List.nodup_nil
  induction headings with
  | nil => exact fun _ => id
  | cons heading headings ih => exact fun s hs => ih _ (exactStep_nodup hs)

/-! ## The samples -/

/-- One pair gives its clause a heading, if it names one of both. -/
theorem assignStep_holds (unmatched : List Paragraph) (remaining : List ClauseSpec)
    {taken : Taken} (a : String × String) (hnodup : (taken.map (·.1)).Nodup) :
    ((assignStep unmatched remaining taken a).map (·.1)).Nodup ∧
      ∀ c, (assignStep unmatched remaining taken a).holds c = true ↔ taken.holds c = true ∨
        ((∃ spec ∈ remaining, spec.clause = c) ∧ a.2 = c ∧
          ∃ heading, byRef unmatched a.1 = some heading) := by
  unfold assignStep
  split
  next hnone =>
    refine ⟨hnodup, fun c => ⟨.inl, fun h => ?_⟩⟩
    rcases h with h | ⟨-, -, heading, hh⟩
    · exact h
    · rw [hnone] at hh
      cases hh
  next heading hsome =>
    split
    next hc =>
      rw [Bool.and_eq_true, Bool.not_eq_true', ← Bool.not_eq_true, taken_holds_iff] at hc
      obtain ⟨hrem, hfree⟩ := hc
      constructor
      · rw [List.map_append]
        exact hnodup.append (List.nodup_singleton _) (by simpa using hfree)
      · intro c
        rw [taken_holds_iff, taken_holds_iff, List.map_append, List.mem_append]
        apply or_congr_right
        constructor
        · intro h
          obtain rfl : c = a.2 := by simpa using h
          exact ⟨by simpa using hrem, rfl, heading, hsome⟩
        · intro h
          simp [h.2.1]
    next hc =>
      refine ⟨hnodup, fun c => ⟨.inl, fun h => ?_⟩⟩
      rcases h with h | ⟨⟨spec, hspec, hsc⟩, rfl, -⟩
      · exact h
      · by_contra hfree
        apply hc
        rw [Bool.and_eq_true]
        exact ⟨List.any_eq_true.2 ⟨spec, hspec, by simpa using hsc⟩, by simpa using hfree⟩

theorem foldl_assignStep (unmatched : List Paragraph) (remaining : List ClauseSpec)
    (assignments : List (String × String)) {taken : Taken} (hnodup : (taken.map (·.1)).Nodup) :
    ((assignments.foldl (assignStep unmatched remaining) taken).map (·.1)).Nodup ∧
      ∀ c, Taken.holds (assignments.foldl (assignStep unmatched remaining) taken) c = true ↔
        taken.holds c = true ∨ ((∃ spec ∈ remaining, spec.clause = c) ∧
          ∃ a ∈ assignments, a.2 = c ∧ ∃ heading, byRef unmatched a.1 = some heading) := by
  induction assignments generalizing taken with
  | nil => exact ⟨hnodup, fun c => by simp⟩
  | cons a assignments ih =>
    obtain ⟨hn, hstep⟩ := assignStep_holds unmatched remaining a hnodup
    obtain ⟨hnodup', hholds⟩ := ih hn
    refine ⟨hnodup', fun c => ?_⟩
    rw [List.foldl_cons, hholds, hstep]
    constructor
    · intro h
      rcases h with (h | ⟨hspec, h⟩) | ⟨hspec, a', ha', h⟩
      · exact .inl h
      · exact .inr ⟨hspec, a, List.mem_cons_self, h⟩
      · exact .inr ⟨hspec, a', List.mem_cons_of_mem _ ha', h⟩
    · intro h
      rcases h with h | ⟨hspec, a', ha', h⟩
      · exact .inl (.inl h)
      · rcases List.mem_cons.1 ha' with rfl | ha'
        · exact .inl (.inr ⟨hspec, h⟩)
        · exact .inr ⟨hspec, a', ha', h⟩

theorem mem_samples {d : ClauseDetector} {samples : List (List (String × String))}
    (h : (List.range headingSamples).mapM d.mapHeadings = .ok samples) {a : String × String} :
    a ∈ samples.flatten ↔ ∃ sample < headingSamples, ∃ data es,
      d.structured (.headings sample) = .ok data ∧ entries data "matches" = .ok es ∧
        ∃ entry ∈ es, d.assignmentOf entry = some a := by
  rw [List.mem_flatten]
  constructor
  · rintro ⟨pairs, hpairs, ha⟩
    obtain ⟨sample, hsample, hmap⟩ := (Except.mem_of_mapM h).1 hpairs
    unfold mapHeadings at hmap
    split at hmap
    · cases hmap
      cases ha
    next data hdata =>
      obtain ⟨es, hes, rfl⟩ := Except.map_eq_ok.1 hmap
      obtain ⟨entry, hentry, hassign⟩ := List.mem_filterMap.1 ha
      exact ⟨sample, List.mem_range.1 hsample, data, es, hdata, hes, entry, hentry, hassign⟩
  · rintro ⟨sample, hsample, data, es, hdata, hes, entry, hentry, hassign⟩
    refine ⟨es.filterMap d.assignmentOf, (Except.mem_of_mapM h).2
      ⟨sample, List.mem_range.2 hsample, ?_⟩, List.mem_filterMap.2 ⟨entry, hentry, hassign⟩⟩
    unfold mapHeadings
    rw [hdata]
    dsimp only
    rw [hes]
    rfl

theorem llmPass_holds {d : ClauseDetector} {unmatched : List Paragraph}
    {remaining : List ClauseSpec} {taken taken' : Taken} (hnodup : (taken.map (·.1)).Nodup)
    (h : d.llmPass unmatched remaining taken = .ok taken') :
    (taken'.map (·.1)).Nodup ∧ ∀ c, taken'.holds c = true ↔ taken.holds c = true ∨
      ((∃ spec ∈ remaining, spec.clause = c) ∧ d.Assigned unmatched c) := by
  unfold llmPass at h
  split at h
  next hempty =>
    -- without a free heading or a free clause no call is made
    cases h
    refine ⟨hnodup, fun c => ⟨.inl, fun h => ?_⟩⟩
    rcases h with h | ⟨⟨spec, hspec, -⟩, sample, -, data, es, -, -, entry, -, ref, heading, -, hh⟩
    · exact h
    · rw [Bool.or_eq_true, List.isEmpty_iff, List.isEmpty_iff] at hempty
      rcases hempty with hempty | hempty
      · rw [hempty] at hh
        cases hh
      · rw [hempty] at hspec
        cases hspec
  next =>
    obtain ⟨samples, hsamples, h⟩ := Except.bind_eq_ok.1 h
    obtain rfl := Except.pure_eq_ok.1 h
    obtain ⟨hn, hholds⟩ := foldl_assignStep unmatched remaining samples.flatten hnodup
    refine ⟨hn, fun c => (hholds c).trans (or_congr_right (and_congr_right fun _ => ?_))⟩
    constructor
    · rintro ⟨a, ha, rfl, heading, hh⟩
      obtain ⟨sample, hsample, data, es, hdata, hes, entry, hentry, hassign⟩ :=
        (mem_samples hsamples).1 ha
      exact ⟨sample, hsample, data, es, hdata, hes, entry, hentry, a.1, heading, hassign, hh⟩
    · rintro ⟨sample, hsample, data, es, hdata, hes, entry, hentry, ref, heading, hassign, hh⟩
      exact ⟨(ref, c), (mem_samples hsamples).2
        ⟨sample, hsample, data, es, hdata, hes, entry, hentry, hassign⟩, rfl, heading, hh⟩

/-! ## The extents -/

theorem extentOf_clause (paragraphs : List Paragraph)
    (splits : List (String × List (String × List Paragraph)))
    (e : String × (Paragraph × String)) : (extentOf paragraphs splits e).clause = e.1 := by
  unfold extentOf
  dsimp only
  split <;> rfl

theorem extents_perm {d : ClauseDetector} {taken : Taken} {paragraphs : List Paragraph}
    {detected : List DetectedClause} (h : d.extents taken paragraphs = .ok detected) :
    (detected.map (·.clause)).Perm (taken.map (·.1)) := by
  unfold extents at h
  obtain ⟨splits, -, h⟩ := Except.bind_eq_ok.1 h
  obtain rfl := Except.pure_eq_ok.1 h
  rw [List.map_map, show (fun c : DetectedClause => c.clause) ∘ extentOf paragraphs splits =
    fun e => e.1 from funext (extentOf_clause paragraphs splits)]
  exact (List.mergeSort_perm _ _).map _

theorem headingPass_spec {d : ClauseDetector} {paragraphs : List Paragraph}
    {clauses : List ClauseSpec} {pass : HeadingPass}
    (h : d.headingPass paragraphs clauses = .ok pass) :
    (pass.detected.map (·.clause)).Nodup ∧
      ∀ c, claimed pass.detected c = true ↔ d.HeadingMatched paragraphs clauses c := by
  unfold headingPass at h
  dsimp only at h
  split at h
  next hempty =>
    cases h
    refine ⟨List.nodup_nil, fun c => ?_⟩
    unfold HeadingMatched
    rw [List.isEmpty_iff.1 hempty]
    simp [claimed, exactPass, Taken.holds, Assigned, byRef]
  next =>
    obtain ⟨taken, htaken, h⟩ := Except.bind_eq_ok.1 h
    obtain ⟨detected, hdetected, h⟩ := Except.bind_eq_ok.1 h
    obtain rfl := Except.pure_eq_ok.1 h
    obtain ⟨hn, hholds⟩ := llmPass_holds (exactPass_nodup _ _) htaken
    have hperm := extents_perm hdetected
    refine ⟨hperm.nodup_iff.2 hn, fun c => ?_⟩
    have hmem : claimed detected c = true ↔ taken.holds c = true := by
      rw [taken_holds_iff, ← hperm.mem_iff]
      simp [claimed]
    rw [hmem, hholds]
    unfold HeadingMatched
    constructor
    · intro h
      rcases h with h | ⟨⟨spec, hspec, hc⟩, ha⟩
      · exact .inl h
      · exact .inr ⟨⟨spec, (List.mem_filter.1 hspec).1, hc⟩, ha⟩
    · intro h
      rcases h with h | ⟨⟨spec, hspec, rfl⟩, ha⟩
      · exact .inl h
      · cases hb : (exactPass (paragraphs.filter (·.isHeading)) clauses).1.holds spec.clause with
        | true => exact .inl rfl
        | false => exact .inr ⟨⟨spec, List.mem_filter.2 ⟨hspec, by simp [hb]⟩, rfl⟩, ha⟩

end ClauseDetector

end Clear
