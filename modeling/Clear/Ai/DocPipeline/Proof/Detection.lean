import Clear.Ai.DocPipeline.Proof.Headings
import Clear.Ai.DocPipeline.Proof.Search

/-!
# What `not_found` says about the document

A target clause is located when a heading matches it or the answer for some window reports it
(`Located`); `detect` reports the others as not found, and then every window was reached
(`detect_spec`), so the completeness assertion never fires (`detect_ne_assertion`). A window whose
call fails was reached too: the report is sound exactly when no such window is left under a clause
that was not located (`detect_sound_iff`).
-/

namespace Clear

namespace ClauseDetector

def numbered (pages : List PageContent) (options : DetectOptions) : List Numbered :=
  (windows pages options).zipIdx

def Located (d : ClauseDetector) (pages : List PageContent) (clauses : List ClauseSpec)
    (options : DetectOptions) (c : String) : Prop :=
  d.HeadingMatched (iterParagraphs pages) clauses c ∨
    ∃ w ∈ numbered pages options, d.Reported w c

/-! ## The windows -/

theorem body_subset {pages : List PageContent} {options : DetectOptions} {w : Numbered}
    (hw : w ∈ numbered pages options) : ∀ p ∈ body w.1, p ∈ iterParagraphs pages := by
  intro p hp
  obtain ⟨page, hpage, hp⟩ := List.mem_flatMap.1 hp
  have hwin : w.1 ∈ windows pages options := by
    obtain ⟨-, hw⟩ := List.mem_zipIdx' hw
    exact hw ▸ List.getElem_mem _
  exact List.mem_flatMap.2 ⟨page, Slices.mem_of_mem_slicesFrom hwin hpage, hp⟩

theorem flatten_waves (pages : List PageContent) (options : DetectOptions) :
    (Slices.slices (max 1 options.concurrency).toNat (max 1 options.concurrency).toNat
      (windows pages options).zipIdx).flatten = numbered pages options :=
  Slices.flatten_slices (by omega) _

/-! ## A run that returns -/

section

variable {d : ClauseDetector} {pages : List PageContent} {clauses : List ClauseSpec}
  {options : DetectOptions}

theorem mem_missing {detected : List DetectedClause} {spec : ClauseSpec} :
    spec ∈ missing clauses detected ↔ spec ∈ clauses ∧ claimed detected spec.clause = false := by
  rw [missing, List.mem_filter, Bool.not_eq_true']

/-- The state after both passes: the accounting holds, and unless every clause was located every
window was reached. -/
theorem pass_spec {headed : HeadingPass} {pass : ChunkPass × Bool × List Int}
    (hheaded : d.headingPass (iterParagraphs pages) clauses = .ok headed)
    (hpass : d.bodyPass pages options headed.detected (missing clauses headed.detected) =
      .ok pass) :
    (pass.1.detected.map (·.clause)).Nodup ∧
      (∀ spec ∈ clauses, claimed pass.1.detected spec.clause = true ↔
        d.Located pages clauses options spec.clause) ∧
      (missing clauses pass.1.detected ≠ [] → pass.2.2 = [] ∧
        ∀ w ∈ numbered pages options, skipped w.1 = false →
          ∃ q ∈ pass.1.searches, q.window = w.2 ∧
            ∀ spec ∈ missing clauses pass.1.detected, spec.clause ∈ q.clauses) := by
  obtain ⟨hnodup, hmatched⟩ := headingPass_spec hheaded
  generalize hout : missing clauses headed.detected = outstanding at hpass
  have hmem : ∀ spec, spec ∈ outstanding ↔
      spec ∈ clauses ∧ claimed headed.detected spec.clause = false := by
    intro spec
    rw [← hout, mem_missing]
  -- the accounting after the chunk pass, which is skipped when the headings matched every clause
  have hinv : ∃ reached, pass.1.Inv d outstanding headed.detected reached ∧
      Asked reached pass.1 ∧ ((reached = numbered pages options ∧ pass.2.2 = []) ∨
        (reached <+: numbered pages options ∧ pass.1.pending = [])) := by
    have hstart : ChunkPass.Inv d outstanding headed.detected []
        { detected := headed.detected, pending := outstanding } := by
      refine ⟨hnodup, ?_, fun c => by simp⟩
      rw [eq_comm, List.filter_eq_self]
      intro spec hspec
      simp [((hmem spec).1 hspec).2]
    have hasked : Asked [] { detected := headed.detected, pending := outstanding } :=
      fun w hw => by cases hw
    unfold bodyPass at hpass
    split at hpass
    next hempty =>
      cases hpass
      rw [List.isEmpty_iff.1 hempty] at hstart hasked ⊢
      exact ⟨[], hstart, hasked, .inr ⟨List.nil_prefix, rfl⟩⟩
    next =>
      unfold chunkPass at hpass
      have hflat := flatten_waves pages options
      obtain ⟨reached, hinv, ha, hend⟩ := chunkLoop_inv hstart hasked
        (fun w hw => body_subset (hflat ▸ hw)) hpass
      rw [List.nil_append, hflat] at hend
      exact ⟨reached, hinv, ha, hend⟩
  obtain ⟨reached, hinv, hasked, hend⟩ := hinv
  have hsub : ∀ w ∈ reached, w ∈ numbered pages options := by
    rcases hend with ⟨rfl, -⟩ | ⟨hpre, -⟩
    · exact fun _ => id
    · exact fun w hw => hpre.subset hw
  have hlocated : ∀ spec ∈ clauses, claimed pass.1.detected spec.clause = true ↔
      d.Located pages clauses options spec.clause := by
    intro spec hspec
    rw [hinv.located, hmatched]
    constructor
    · intro h
      rcases h with h | ⟨-, w, hw, hr⟩
      · exact .inl h
      · exact .inr ⟨w, hsub w hw, hr⟩
    · intro h
      rcases h with h | ⟨w, hw, hr⟩
      · exact .inl h
      · rw [← hmatched]
        cases hb : claimed headed.detected spec.clause with
        | true => exact .inl rfl
        | false =>
          have hspec' : spec ∈ outstanding := (hmem spec).2 ⟨hspec, hb⟩
          rcases hend with ⟨rfl, -⟩ | ⟨-, hdone⟩
          · exact .inr ⟨⟨spec, hspec', rfl⟩, w, hw, hr⟩
          · -- the loop stopped because nothing was outstanding any more
            have hcl : claimed pass.1.detected spec.clause = true := by
              by_contra hne
              have : spec ∈ pass.1.pending :=
                hinv.mem_pending.2 ⟨hspec', Bool.not_eq_true _ ▸ hne⟩
              rw [hdone] at this
              cases this
            have := (hinv.located _).1 hcl
            rwa [hb] at this
  refine ⟨hinv.nodup, hlocated, fun hne => ?_⟩
  have hpending : ∀ spec ∈ missing clauses pass.1.detected, spec ∈ pass.1.pending := by
    intro spec hspec
    obtain ⟨hspec, hb⟩ := mem_missing.1 hspec
    refine hinv.mem_pending.2 ⟨(hmem spec).2 ⟨hspec, ?_⟩, hb⟩
    by_contra hne
    rw [Bool.not_eq_false] at hne
    rw [(hinv.located _).2 (.inl hne)] at hb
    cases hb
  rcases hend with ⟨rfl, hpages⟩ | ⟨-, hdone⟩
  · refine ⟨hpages, fun w hw hskip => ?_⟩
    obtain ⟨q, hq, hwin, hclauses⟩ := hasked w hw hskip
    exact ⟨q, hq, hwin, fun spec hspec => hclauses spec (hpending spec hspec)⟩
  · obtain ⟨spec, hspec⟩ := List.exists_mem_of_ne_nil _ hne
    have := hpending spec hspec
    rw [hdone] at this
    cases this

/-- What a run that gets through both passes reports. -/
theorem report_spec (headed : HeadingPass) {pass : ChunkPass × Bool × List Int}
    (hmissing : missing clauses pass.1.detected ≠ [] → pass.2.2 = []) :
    ∃ r, report clauses headed pass = .ok (r, pass.1.searches) ∧ r.detected = pass.1.detected ∧
      r.notFound = (missing clauses pass.1.detected).map (·.clause) := by
  unfold report
  dsimp only
  rw [if_neg]
  · exact ⟨_, rfl, rfl, rfl⟩
  · intro h
    rw [Bool.and_eq_true, Bool.not_eq_true', Bool.not_eq_true', List.isEmpty_eq_false_iff,
      List.isEmpty_eq_false_iff, Ne, List.map_eq_nil_iff] at h
    exact h.2 (hmissing h.1)

/-- The outcomes of `detect`: an answer that cannot be read, or a report that detects the located
clauses, each once, and lists the other targets; if there are any, every window above the floor was
sent for them. -/
theorem detect_cases (d : ClauseDetector) (pages : List PageContent) (clauses : List ClauseSpec)
    (options : DetectOptions) :
    (∃ e, d.detect pages clauses options = .error (.raised e)) ∨
      ∃ r searches, d.detect pages clauses options = .ok (r, searches) ∧
        (r.detected.map (·.clause)).Nodup ∧
        (∀ spec ∈ clauses, claimed r.detected spec.clause = true ↔
          d.Located pages clauses options spec.clause) ∧
        r.notFound = (missing clauses r.detected).map (·.clause) ∧
        ∀ c ∈ r.notFound, ∀ w ∈ numbered pages options, skipped w.1 = false →
          ∃ q ∈ searches, q.window = w.2 ∧ c ∈ q.clauses := by
  unfold detect
  split
  next hempty =>
    rw [List.isEmpty_iff] at hempty
    subst hempty
    refine .inr ⟨_, _, rfl, List.nodup_nil, fun spec hspec => ?_, rfl, fun c hc => ?_⟩
    · cases hspec
    · cases hc
  next =>
    split
    next e _ => exact .inl ⟨e, rfl⟩
    next headed hheaded =>
      split
      next e _ => exact .inl ⟨e, rfl⟩
      next pass hpass =>
        obtain ⟨hnodup, hlocated, hmissing⟩ := pass_spec hheaded hpass
        obtain ⟨r, hr, hdetected, hnot⟩ := report_spec headed fun h => (hmissing h).1
        refine .inr ⟨r, _, hr, hdetected ▸ hnodup, hdetected ▸ hlocated, hdetected ▸ hnot,
          fun c hc w hw hskip => ?_⟩
        rw [hnot] at hc
        obtain ⟨spec, hspec, rfl⟩ := List.mem_map.1 hc
        obtain ⟨-, hasked⟩ := hmissing (List.ne_nil_of_mem hspec)
        obtain ⟨q, hq, hwin, hclauses⟩ := hasked w hw hskip
        exact ⟨q, hq, hwin, hclauses spec hspec⟩

end

/-! ## Answers that can be read -/

def ReadableRefs (d : ClauseDetector) (data : ValueDict) (key : String) : Prop :=
  ∃ es, entries data key = .ok es ∧ ∀ entry ∈ es, ∃ refs, d.refsOf entry = .ok refs

/-- No answer of the provider holds a scalar where `detect` iterates. -/
structure Readable (d : ClauseDetector) : Prop where
  headings : ∀ sample data, d.structured (.headings sample) = .ok data →
    ∃ es, entries data "matches" = .ok es
  splits : ∀ ref data, d.structured (.split ref) = .ok data → d.ReadableRefs data "assignments"
  searches : ∀ i data, d.structured (.search i) = .ok data → d.ReadableRefs data "clauses"

section

variable {d : ClauseDetector} (hd : d.Readable)
include hd

theorem Readable.splitSection (ref : String) (extent : List Paragraph) (clauses : List String) :
    ∃ split, d.splitSection ref extent clauses = .ok split := by
  unfold ClauseDetector.splitSection
  split
  · exact ⟨[], rfl⟩
  next data hdata =>
    obtain ⟨es, hes, hrefs⟩ := hd.splits _ _ hdata
    obtain ⟨split, hsplit⟩ := Except.exists_foldlM (f := d.splitStep extent clauses) (l := es) []
      fun split entry hentry => by
        obtain ⟨refs, hr⟩ := hrefs entry hentry
        unfold splitStep
        dsimp only
        split
        · exact ⟨_, by rw [hr]; rfl⟩
        · exact ⟨_, rfl⟩
    exact ⟨_, Except.bind_eq_ok.2 ⟨es, hes, Except.bind_eq_ok.2 ⟨split, hsplit, rfl⟩⟩⟩

theorem Readable.extents (taken : Taken) (paragraphs : List Paragraph) :
    ∃ detected, d.extents taken paragraphs = .ok detected := by
  have hsplits : ∀ taken, ∃ splits, d.splits taken paragraphs = .ok splits := by
    intro taken
    apply Except.exists_mapM
    intro ref _
    obtain ⟨split, hsplit⟩ := hd.splitSection ref (sharedExtent taken paragraphs ref)
      (claimants taken ref)
    exact ⟨(ref, split), Except.map_eq_ok.2 ⟨split, hsplit, rfl⟩⟩
  obtain ⟨splits, hsplits⟩ := hsplits (ordered taken paragraphs)
  exact ⟨_, Except.bind_eq_ok.2 ⟨splits, hsplits, rfl⟩⟩

theorem Readable.llmPass (unmatched : List Paragraph) (remaining : List ClauseSpec)
    (taken : Taken) : ∃ taken', d.llmPass unmatched remaining taken = .ok taken' := by
  unfold ClauseDetector.llmPass
  split
  · exact ⟨_, rfl⟩
  · have hsamples : ∃ samples, (List.range headingSamples).mapM d.mapHeadings = .ok samples := by
      apply Except.exists_mapM
      intro sample _
      unfold mapHeadings
      split
      · exact ⟨_, rfl⟩
      next data hdata =>
        obtain ⟨es, hes⟩ := hd.headings _ _ hdata
        exact ⟨_, Except.map_eq_ok.2 ⟨es, hes, rfl⟩⟩
    obtain ⟨samples, hsamples⟩ := hsamples
    exact ⟨_, Except.bind_eq_ok.2 ⟨samples, hsamples, rfl⟩⟩

theorem Readable.headingPass (paragraphs : List Paragraph) (clauses : List ClauseSpec) :
    ∃ pass, d.headingPass paragraphs clauses = .ok pass := by
  unfold ClauseDetector.headingPass
  dsimp only
  split
  · exact ⟨_, rfl⟩
  · obtain ⟨taken, htaken⟩ := hd.llmPass _ _ _
    obtain ⟨detected, hdetected⟩ := hd.extents taken paragraphs
    exact ⟨_, Except.bind_eq_ok.2 ⟨taken, htaken, Except.bind_eq_ok.2 ⟨detected, hdetected, rfl⟩⟩⟩

theorem Readable.searchWindow (pending : List ClauseSpec) (w : Numbered) :
    ∃ found, d.searchWindow pending w = .ok found := by
  unfold ClauseDetector.searchWindow
  split
  · exact ⟨_, rfl⟩
  · unfold searchChunk
    split
    · exact ⟨_, rfl⟩
    next data hdata =>
      obtain ⟨es, hes, hrefs⟩ := hd.searches _ _ hdata
      obtain ⟨found, hfound⟩ := Except.exists_foldlM (f := d.foundStep (body w.1) pending)
        (l := es) [] fun found entry hentry => by
          obtain ⟨refs, hr⟩ := hrefs entry hentry
          unfold foundStep
          dsimp only
          split
          · exact ⟨_, by rw [hr]; rfl⟩
          · exact ⟨_, rfl⟩
      exact ⟨found, Except.bind_eq_ok.2 ⟨es, hes, hfound⟩⟩

theorem Readable.chunkLoop (paragraphs : List Paragraph) (earlyStop : Bool)
    (waves : List (List Numbered)) (s : ChunkPass) :
    ∃ pass, d.chunkLoop paragraphs earlyStop waves s = .ok pass := by
  induction waves generalizing s with
  | nil => exact ⟨_, rfl⟩
  | cons wave waves ih =>
    unfold ClauseDetector.chunkLoop
    split
    · exact ⟨_, rfl⟩
    · obtain ⟨found, hfound⟩ := Except.exists_mapM (f := d.searchWindow s.pending) (l := wave)
        fun w _ => hd.searchWindow s.pending w
      have hwave : ∃ s', d.runWave paragraphs wave s = .ok s' :=
        ⟨_, Except.bind_eq_ok.2 ⟨found, hfound, rfl⟩⟩
      obtain ⟨s', hs'⟩ := hwave
      obtain ⟨pass, hpass⟩ := ih s'
      exact ⟨pass, Except.bind_eq_ok.2 ⟨s', hs', hpass⟩⟩

theorem Readable.detect (pages : List PageContent) (clauses : List ClauseSpec)
    (options : DetectOptions) : ∃ out, d.detect pages clauses options = .ok out := by
  rcases detect_cases d pages clauses options with ⟨e, he⟩ | ⟨r, searches, hr, -⟩
  · unfold ClauseDetector.detect at he
    obtain ⟨headed, hheaded⟩ := hd.headingPass (iterParagraphs pages) clauses
    have hbody : ∃ pass, d.bodyPass pages options headed.detected
        (missing clauses headed.detected) = .ok pass := by
      unfold bodyPass
      split
      · exact ⟨_, rfl⟩
      · exact hd.chunkLoop _ _ _ _
    obtain ⟨pass, hpass⟩ := hbody
    rw [hheaded] at he
    dsimp only at he
    rw [hpass] at he
    dsimp only at he
    split at he
    · cases he
    · unfold report at he
      dsimp only at he
      split at he <;> cases he
  · exact ⟨_, hr⟩

end

/-! ## The report -/

def Evaluated (d : ClauseDetector) (searches : List Search) (w : Numbered) (c : String) : Prop :=
  (∃ q ∈ searches, q.window = w.2 ∧ c ∈ q.clauses) ∧
    ∃ data, d.structured (.search w.2) = .ok data

def AccountedOnce (clauses : List ClauseSpec) (r : ClauseDetection) : Prop :=
  ∀ spec ∈ clauses, (r.detected.map (·.clause) ++ r.notFound).count spec.clause = 1

/-- A clause is reported as not found only after every window was evaluated for it or lies under the
floor. -/
def NotFoundSound (d : ClauseDetector) (pages : List PageContent) (options : DetectOptions)
    (r : ClauseDetection) (searches : List Search) : Prop :=
  ∀ c ∈ r.notFound, ∀ w ∈ numbered pages options,
    skipped w.1 = true ∨ d.Evaluated searches w c

def NoFailedWindow (d : ClauseDetector) (pages : List PageContent) (options : DetectOptions) :
    Prop :=
  ∀ w ∈ numbered pages options, skipped w.1 = true ∨ ∃ data, d.structured (.search w.2) = .ok data

/-- How often a target occurs in the report: once when it was detected, else as often as it is
listed. -/
theorem count_report {clauses : List ClauseSpec} {detected : List DetectedClause} {c : String}
    (hnodup : (detected.map (·.clause)).Nodup) :
    (detected.map (·.clause) ++ (missing clauses detected).map (·.clause)).count c =
      if claimed detected c then 1 else (clauses.map (·.clause)).count c := by
  rw [List.count_append]
  split
  next hc =>
    have hnot : c ∉ (missing clauses detected).map (·.clause) := by
      intro hmem
      obtain ⟨spec, hspec, rfl⟩ := List.mem_map.1 hmem
      rw [(mem_missing.1 hspec).2] at hc
      cases hc
    rw [List.count_eq_one_of_mem hnodup (claimed_iff.1 hc), List.count_eq_zero_of_not_mem hnot]
  next hc =>
    rw [List.count_eq_zero_of_not_mem fun hmem => hc (claimed_iff.2 hmem), Nat.zero_add]
    unfold missing
    induction clauses with
    | nil => rfl
    | cons spec clauses ih =>
      by_cases hs : spec.clause = c
      · rw [List.filter_cons_of_pos (by simpa [hs] using hc)]
        simp only [List.map_cons, List.count_cons, ih]
      · rw [List.map_cons, List.count_cons_of_ne hs, ← ih, List.filter_cons]
        split
        · rw [List.map_cons, List.count_cons_of_ne hs]
        · rfl

/-- The completeness assertion never fires and `detect` returns unless an answer cannot be read. What
it returns accounts for every target once and reports a clause as not found only after every window
was evaluated for it, exactly when every target is located, or is listed once and no window above
the floor has a failing call. -/
theorem detect_sound_iff (d : ClauseDetector) (pages : List PageContent)
    (clauses : List ClauseSpec) (options : DetectOptions) :
    (∀ notFound unread, d.detect pages clauses options ≠ .error (.assertion notFound unread)) ∧
      (d.Readable → ∃ out, d.detect pages clauses options = .ok out) ∧
      ∀ r searches, d.detect pages clauses options = .ok (r, searches) →
        ((AccountedOnce clauses r ∧ d.NotFoundSound pages options r searches) ↔
          ∀ spec ∈ clauses, d.Located pages clauses options spec.clause ∨
            ((clauses.map (·.clause)).count spec.clause = 1 ∧ d.NoFailedWindow pages options)) := by
  refine ⟨fun notFound unread h => ?_, fun hd => hd.detect pages clauses options,
    fun r searches h => ?_⟩
  · rcases detect_cases d pages clauses options with ⟨e, he⟩ | ⟨r, searches, hr, -⟩
    · rw [he] at h
      cases h
    · rw [hr] at h
      cases h
  · rcases detect_cases d pages clauses options with
      ⟨e, he⟩ | ⟨r', searches', hr, hnodup, hlocated, hnot, hasked⟩
    · rw [he] at h
      cases h
    · rw [h] at hr
      cases hr
      have hcount : ∀ c, (r.detected.map (·.clause) ++ r.notFound).count c =
          if claimed r.detected c then 1 else (clauses.map (·.clause)).count c := by
        intro c
        rw [hnot]
        exact count_report hnodup
      constructor
      · rintro ⟨hone, hsound⟩ spec hspec
        cases hc : claimed r.detected spec.clause with
        | true => exact .inl ((hlocated spec hspec).1 hc)
        | false =>
          have hspecCount := hone spec hspec
          rw [hcount, hc] at hspecCount
          refine .inr ⟨by simpa using hspecCount, fun w hw => ?_⟩
          have hmem : spec.clause ∈ r.notFound :=
            hnot ▸ List.mem_map_of_mem (mem_missing.2 ⟨hspec, hc⟩)
          rcases hsound _ hmem w hw with hskip | ⟨-, hok⟩
          · exact .inl hskip
          · exact .inr hok
      · intro hcond
        constructor
        · intro spec hspec
          rw [hcount]
          split
          · rfl
          next hc =>
            rcases hcond spec hspec with hloc | ⟨hone, -⟩
            · exact absurd ((hlocated spec hspec).2 hloc) hc
            · exact hone
        · intro c hmem w hw
          have hmem' := hmem
          rw [hnot] at hmem'
          obtain ⟨spec, hspec, rfl⟩ := List.mem_map.1 hmem'
          obtain ⟨hspec, hc⟩ := mem_missing.1 hspec
          rcases hcond spec hspec with hloc | ⟨-, hwindows⟩
          · rw [(hlocated spec hspec).2 hloc] at hc
            cases hc
          · rcases hwindows w hw with hskip | hok
            · exact .inl hskip
            · cases hskip : skipped w.1 with
              | true => exact .inl rfl
              | false => exact .inr ⟨hasked _ hmem w hw hskip, hok⟩

/-! ## A clause reported as absent from a page that no call read -/

namespace Sample

def timeouts : ClauseDetector where
  repr := fun _ => ""
  headroom := 16000
  generateStructured := fun _ _ => .error { schemaValidation := false, message := "timed out" }

def onePage : List PageContent :=
  [{ pageNumber := 1
     paragraphs := [{ pageNumber := 1, index := 1, role := none
                      content := String.ofList (List.replicate 250 'x') }] }]

def auditRights : List ClauseSpec := [{ clause := "Audit rights" }]

end Sample

theorem timeouts_fails (call : ProviderCall) (data : ValueDict) :
    Sample.timeouts.structured call ≠ .ok data := by
  intro h
  cases h

theorem timeouts_readable : Sample.timeouts.Readable :=
  ⟨fun _ _ h => absurd h (timeouts_fails _ _), fun _ _ h => absurd h (timeouts_fails _ _),
    fun _ _ h => absurd h (timeouts_fails _ _)⟩

/-- The only window's call fails, and the clause is reported as not found. -/
theorem failed_window_reported_absent :
    ∃ r searches, Sample.timeouts.detect Sample.onePage Sample.auditRights {} =
        .ok (r, searches) ∧ r.notFound = ["Audit rights"] ∧
      ¬ Sample.timeouts.NotFoundSound Sample.onePage {} r searches := by
  rcases detect_cases Sample.timeouts Sample.onePage Sample.auditRights {} with
    ⟨e, he⟩ | ⟨r, searches, hr, -, hlocated, hnot, -⟩
  · obtain ⟨out, hout⟩ := timeouts_readable.detect Sample.onePage Sample.auditRights {}
    rw [hout] at he
    cases he
  · have hfree : claimed r.detected "Audit rights" = false := by
      by_contra hc
      rw [Bool.not_eq_false, hlocated _ (List.mem_singleton_self _)] at hc
      rcases hc with (hexact | ⟨-, _, -, _, _, hdata, -⟩) | ⟨w, -, -, _, _, hdata, -⟩
      · cases hexact
      · exact timeouts_fails _ _ hdata
      · exact timeouts_fails _ _ hdata
    have hnot' : r.notFound = ["Audit rights"] := by
      rw [hnot, missing, Sample.auditRights, List.filter_cons_of_pos (by simp [hfree])]
      rfl
    have hchars : charsSent Sample.onePage = 250 := by
      simp only [charsSent, body, Sample.onePage, List.flatMap_cons, List.flatMap_nil,
        List.append_nil, List.foldl_cons, List.foldl_nil, String.length_ofList,
        List.length_replicate]
    have hwindow : (Sample.onePage, 0) ∈ numbered Sample.onePage {} := List.mem_singleton_self _
    refine ⟨r, searches, hr, hnot', fun hsound => ?_⟩
    rcases hsound "Audit rights" (by simp [hnot']) _ hwindow with hskip | ⟨-, data, hok⟩
    · unfold skipped at hskip
      rw [hchars] at hskip
      exact absurd hskip (by decide)
    · exact timeouts_fails _ _ hok

end ClauseDetector

end Clear
