import Clear.Ai.DocPipeline.Clauses
import Clear.Lib.Except
import Mathlib.Data.List.Nodup

/-!
# What the windows contribute

One search finds the clauses that its answer reports with a ref of the window (`Reported`); one
window of a wave claims those that are still free. `ChunkPass.Inv` is the accounting of the chunk
loop: which windows were reached, what was located in them and which requests cover the clauses that
are still outstanding. A wave keeps it (`runWave_inv`), and so does the loop (`chunkLoop_inv`).
-/

namespace Clear

namespace ClauseDetector

theorem claimed_iff {detected : List DetectedClause} {c : String} :
    claimed detected c = true ↔ c ∈ detected.map (·.clause) := by
  simp [claimed]

/-! ## One search -/

def Names (d : ClauseDetector) (body : List Paragraph) (c : String) (entry : ValueDict) : Prop :=
  d.clauseOf entry = c ∧
    ∃ refs, d.refsOf entry = .ok refs ∧ ∃ ref ∈ refs, body.any (·.ref = ref) = true

def Reported (d : ClauseDetector) (w : Numbered) (c : String) : Prop :=
  skipped w.1 = false ∧ ∃ data es, d.structured (.search w.2) = .ok data ∧
    entries data "clauses" = .ok es ∧ ∃ entry ∈ es, d.Names (body w.1) c entry

def Found (body : List Paragraph) (found : List (String × List String)) (c : String) : Prop :=
  ∃ refs, (c, refs) ∈ found ∧ ∃ ref ∈ refs, body.any (·.ref = ref) = true

theorem foundStep_found {d : ClauseDetector} {body : List Paragraph} {pending : List ClauseSpec}
    {found found' : List (String × List String)} {entry : ValueDict}
    (h : d.foundStep body pending found entry = .ok found') (c : String) :
    Found body found' c → Found body found c ∨
      ((∃ spec ∈ pending, spec.clause = c) ∧ d.Names body c entry) := by
  unfold foundStep at h
  dsimp only at h
  split at h
  next hc =>
    rw [Bool.and_eq_true] at hc
    obtain ⟨refs, hrefs, h⟩ := Except.map_eq_ok.1 h
    split at h
    · subst h
      exact .inl
    next hne =>
      subst h
      intro hf
      obtain ⟨rs, hmem, ref, href, hbody⟩ := hf
      rcases List.mem_append.1 hmem with hmem | hmem
      · exact .inl ⟨rs, hmem, ref, href, hbody⟩
      · obtain ⟨rfl, rfl⟩ : c = d.clauseOf entry ∧ rs = refs.filter fun ref =>
            body.any (·.ref = ref) := by simpa using hmem
        rw [List.mem_filter] at href
        exact .inr ⟨by simpa using hc.1, rfl, refs, hrefs, ref, href.1, href.2⟩
  next =>
    cases h
    exact .inl

theorem foundStep_mono {d : ClauseDetector} {body : List Paragraph} {pending : List ClauseSpec}
    {found found' : List (String × List String)} {entry : ValueDict}
    (h : d.foundStep body pending found entry = .ok found') {e : String × List String}
    (he : e ∈ found) : e ∈ found' := by
  unfold foundStep at h
  dsimp only at h
  split at h
  · obtain ⟨refs, -, h⟩ := Except.map_eq_ok.1 h
    split at h
    · exact h ▸ he
    · exact h ▸ List.mem_append_left _ he
  · cases h
    exact he

def Valid (body : List Paragraph) (found : List (String × List String)) : Prop :=
  ∀ e ∈ found, ∃ ref ∈ e.2, body.any (·.ref = ref) = true

theorem foundStep_valid {d : ClauseDetector} {body : List Paragraph} {pending : List ClauseSpec}
    {found found' : List (String × List String)} {entry : ValueDict}
    (h : d.foundStep body pending found entry = .ok found') (hv : Valid body found) :
    Valid body found' := by
  unfold foundStep at h
  dsimp only at h
  split at h
  · obtain ⟨refs, -, h⟩ := Except.map_eq_ok.1 h
    split at h
    · exact h ▸ hv
    next hne =>
      subst h
      intro e he
      rcases List.mem_append.1 he with he | he
      · exact hv e he
      · rw [List.mem_singleton] at he
        subst he
        obtain ⟨ref, href⟩ := List.exists_mem_of_ne_nil _ fun hnil => hne (List.isEmpty_iff.2 hnil)
        exact ⟨ref, href, (List.mem_filter.1 href).2⟩
  · cases h
    exact hv

theorem foundStep_names {d : ClauseDetector} {body : List Paragraph} {pending : List ClauseSpec}
    {found found' : List (String × List String)} {entry : ValueDict} {spec : ClauseSpec}
    (h : d.foundStep body pending found entry = .ok found') (hv : Valid body found)
    (hspec : spec ∈ pending) (hn : d.Names body spec.clause entry) :
    Found body found' spec.clause := by
  obtain ⟨hclause, refs, hrefs, ref, href, hbody⟩ := hn
  unfold foundStep at h
  dsimp only at h
  rw [hclause, hrefs] at h
  have hpending : pending.any (·.clause = spec.clause) = true :=
    List.any_eq_true.2 ⟨spec, hspec, by simp⟩
  cases hfound : found.any (·.1 = spec.clause) with
  | true =>
    rw [hpending, hfound] at h
    obtain rfl : found = found' := by simpa using h
    obtain ⟨e, he, hec⟩ := List.any_eq_true.1 hfound
    obtain ⟨ref', href', hbody'⟩ := hv e he
    have hkey : e.1 = spec.clause := by simpa using hec
    exact ⟨e.2, hkey ▸ he, ref', href', hbody'⟩
  | false =>
    rw [hpending, hfound] at h
    have hmem : ref ∈ refs.filter fun ref => body.any (·.ref = ref) :=
      List.mem_filter.2 ⟨href, hbody⟩
    have hne : (refs.filter fun ref => body.any (·.ref = ref)).isEmpty = false := by
      cases hf : refs.filter fun ref => body.any (·.ref = ref) with
      | nil => rw [hf] at hmem; cases hmem
      | cons => rfl
    obtain rfl : found ++ [(spec.clause, refs.filter fun ref => body.any (·.ref = ref))] =
        found' := by simpa [Except.map, hne] using h
    exact ⟨_, List.mem_append_right _ (List.mem_singleton_self _), ref, hmem, hbody⟩

/-- One search finds exactly the clauses it was asked for that its entries name. -/
theorem foldlM_foundStep {d : ClauseDetector} {body : List Paragraph} {pending : List ClauseSpec}
    {es : List ValueDict} {found found' : List (String × List String)}
    (h : es.foldlM (d.foundStep body pending) found = .ok found') (hv : Valid body found) :
    Valid body found' ∧ (∀ c, Found body found' c → Found body found c ∨
        ((∃ spec ∈ pending, spec.clause = c) ∧ ∃ entry ∈ es, d.Names body c entry)) ∧
      (∀ e ∈ found, e ∈ found') ∧
      ∀ spec ∈ pending, (∃ entry ∈ es, d.Names body spec.clause entry) →
        Found body found' spec.clause := by
  induction es generalizing found with
  | nil =>
    obtain rfl : found = found' := Except.ok.inj h
    exact ⟨hv, fun _ => .inl, fun _ => id, fun _ _ hex => by simp at hex⟩
  | cons entry es ih =>
    rw [List.foldlM_cons] at h
    obtain ⟨next, hnext, h⟩ := Except.bind_eq_ok.1 h
    obtain ⟨hvalid, hsound, hmono, hcomplete⟩ := ih h (foundStep_valid hnext hv)
    refine ⟨hvalid, fun c hc => ?_, fun e he => hmono e (foundStep_mono hnext he),
      fun spec hspec hex => ?_⟩
    · rcases hsound c hc with hc | ⟨hspec, entry', he, hn⟩
      · rcases foundStep_found hnext c hc with hc | ⟨hspec, hn⟩
        · exact .inl hc
        · exact .inr ⟨hspec, entry, List.mem_cons_self, hn⟩
      · exact .inr ⟨hspec, entry', List.mem_cons_of_mem _ he, hn⟩
    · obtain ⟨entry', he, hn⟩ := hex
      rcases List.mem_cons.1 he with rfl | he
      · obtain ⟨refs, hmem, hrefs⟩ := foundStep_names hnext hv hspec hn
        exact ⟨refs, hmono _ hmem, hrefs⟩
      · exact hcomplete spec hspec ⟨entry', he, hn⟩

def searchWindow (d : ClauseDetector) (pending : List ClauseSpec) (w : Numbered) :
    Except NotIterable (List (String × List String)) :=
  if skipped w.1 then .ok [] else d.searchChunk w.2 (body w.1) pending

theorem searchWindow_spec {d : ClauseDetector} {pending : List ClauseSpec} {w : Numbered}
    {found : List (String × List String)} (h : d.searchWindow pending w = .ok found) :
    Valid (body w.1) found ∧
      (∀ c, Found (body w.1) found c → (∃ spec ∈ pending, spec.clause = c) ∧ d.Reported w c) ∧
      ∀ spec ∈ pending, d.Reported w spec.clause → Found (body w.1) found spec.clause := by
  unfold searchWindow at h
  have hempty : Valid (body w.1) [] := fun e he => by cases he
  split at h
  next hskip =>
    cases h
    refine ⟨hempty, fun c hc => ?_, fun spec _ hr => ?_⟩
    · obtain ⟨refs, hmem, -⟩ := hc
      cases hmem
    · rw [hr.1] at hskip
      cases hskip
  next hskip =>
    rw [Bool.not_eq_true] at hskip
    unfold searchChunk at h
    split at h
    next e he =>
      cases h
      refine ⟨hempty, fun c hc => ?_, fun spec _ hr => ?_⟩
      · obtain ⟨refs, hmem, -⟩ := hc
        cases hmem
      · obtain ⟨-, data, es, hdata, -⟩ := hr
        rw [he] at hdata
        cases hdata
    next data hdata =>
      obtain ⟨es, hes, h⟩ := Except.bind_eq_ok.1 h
      obtain ⟨hvalid, hsound, -, hcomplete⟩ := foldlM_foundStep h hempty
      refine ⟨hvalid, fun c hc => ?_, fun spec hspec hr => ?_⟩
      · rcases hsound c hc with ⟨refs, hmem, -⟩ | ⟨hspec, hn⟩
        · cases hmem
        · exact ⟨hspec, hskip, data, es, hdata, hes, hn⟩
      · obtain ⟨-, data', es', hdata', hes', hn⟩ := hr
        obtain rfl : data' = data := Except.ok.inj (hdata'.symm.trans hdata)
        obtain rfl : es' = es := Except.ok.inj (hes'.symm.trans hes)
        exact hcomplete spec hspec hn

/-! ## One window -/

theorem byRef_isSome {paragraphs body : List Paragraph} {ref : String}
    (hsub : ∀ p ∈ body, p ∈ paragraphs) (h : body.any (·.ref = ref) = true) :
    ∃ p, byRef paragraphs ref = some p := by
  obtain ⟨p, hp, href⟩ := List.any_eq_true.1 h
  unfold byRef
  rw [← Option.ne_none_iff_exists', Ne, List.getLast?_eq_none_iff]
  exact List.ne_nil_of_mem (List.mem_filter.2 ⟨hsub p hp, href⟩)

theorem claimStep_claimed {paragraphs : List Paragraph} {window : List PageContent}
    {e : String × List String} {s : List DetectedClause × List String}
    (hsub : ∀ p ∈ body window, p ∈ paragraphs)
    (he : ∃ ref ∈ e.2, (body window).any (·.ref = ref) = true)
    (hnodup : (s.1.map (·.clause)).Nodup) :
    ((claimStep paragraphs window s e).1.map (·.clause)).Nodup ∧
      ∀ c, claimed (claimStep paragraphs window s e).1 c = true ↔
        claimed s.1 c = true ∨ c = e.1 := by
  unfold claimStep
  split
  next hc =>
    refine ⟨hnodup, fun c => ⟨.inl, fun h => ?_⟩⟩
    rcases h with h | rfl
    · exact h
    · exact hc
  next hc =>
    obtain ⟨ref, href, hbody⟩ := he
    obtain ⟨p, hp⟩ := byRef_isSome hsub hbody
    have hmem : p ∈ e.2.filterMap (byRef paragraphs) := List.mem_filterMap.2 ⟨ref, href, hp⟩
    split
    next hnil =>
      rw [hnil] at hmem
      cases hmem
    next =>
      rw [claimed_iff] at hc
      constructor
      · rw [List.map_append]
        exact hnodup.append (List.nodup_singleton _) (by simpa using hc)
      · intro c
        rw [claimed_iff, claimed_iff, List.map_append, List.mem_append]
        simp

theorem foldl_claimStep {paragraphs : List Paragraph} {window : List PageContent}
    {found : List (String × List String)} {s : List DetectedClause × List String}
    (hsub : ∀ p ∈ body window, p ∈ paragraphs) (hv : Valid (body window) found)
    (hnodup : (s.1.map (·.clause)).Nodup) :
    ((found.foldl (claimStep paragraphs window) s).1.map (·.clause)).Nodup ∧
      ∀ c, claimed (found.foldl (claimStep paragraphs window) s).1 c = true ↔
        claimed s.1 c = true ∨ Found (body window) found c := by
  induction found generalizing s with
  | nil =>
    refine ⟨hnodup, fun c => ⟨.inl, fun h => ?_⟩⟩
    rcases h with h | ⟨refs, hmem, -⟩
    · exact h
    · cases hmem
  | cons e found ih =>
    have he := hv e List.mem_cons_self
    have hstep := claimStep_claimed hsub he hnodup
    obtain ⟨hn, hc⟩ := ih (fun e' he' => hv e' (List.mem_cons_of_mem _ he')) hstep.1
    refine ⟨hn, fun c => ?_⟩
    rw [List.foldl_cons, hc, hstep.2]
    constructor
    · intro h
      rcases h with (h | rfl) | ⟨refs, h, hrefs⟩
      · exact .inl h
      · exact .inr ⟨e.2, List.mem_cons_self, he⟩
      · exact .inr ⟨refs, List.mem_cons_of_mem _ h, hrefs⟩
    · intro h
      rcases h with h | ⟨refs, h, hrefs⟩
      · exact .inl (.inl h)
      · rcases List.mem_cons.1 h with rfl | h
        · exact .inl (.inr rfl)
        · exact .inr ⟨refs, h, hrefs⟩

/-! ## The chunk loop -/

/-- The accounting of the chunk loop after the windows `reached`: `outstanding` are the clauses that
it was started for, `headed` what was located before. -/
structure ChunkPass.Inv (d : ClauseDetector) (outstanding : List ClauseSpec)
    (headed : List DetectedClause) (reached : List Numbered) (s : ChunkPass) : Prop where
  nodup : (s.detected.map (·.clause)).Nodup
  pending : s.pending = outstanding.filter fun spec => !claimed s.detected spec.clause
  located : ∀ c, claimed s.detected c = true ↔ claimed headed c = true ∨
    ((∃ spec ∈ outstanding, spec.clause = c) ∧ ∃ w ∈ reached, d.Reported w c)

section

variable {d : ClauseDetector} {outstanding : List ClauseSpec} {headed : List DetectedClause}
  {paragraphs : List Paragraph} {reached : List Numbered} {s : ChunkPass}

theorem ChunkPass.Inv.mem_pending (hi : s.Inv d outstanding headed reached) {spec : ClauseSpec} :
    spec ∈ s.pending ↔ spec ∈ outstanding ∧ claimed s.detected spec.clause = false := by
  rw [hi.pending, List.mem_filter, Bool.not_eq_true']

theorem recordWindow_inv {snapshot : List ClauseSpec} {w : Numbered}
    {found : List (String × List String)} (hi : s.Inv d outstanding headed reached)
    (hsub : ∀ p ∈ body w.1, p ∈ paragraphs) (hlow : ∀ spec ∈ s.pending, spec ∈ snapshot)
    (hhigh : ∀ spec ∈ snapshot, spec ∈ outstanding)
    (hfound : d.searchWindow snapshot w = .ok found) :
    (recordWindow paragraphs s (w, found)).Inv d outstanding headed (reached ++ [w]) := by
  obtain ⟨hvalid, hsound, hcomplete⟩ := searchWindow_spec hfound
  have hclaims := foldl_claimStep (s := (s.detected, [])) hsub hvalid hi.nodup
  have hcl : ∀ c, claimed (recordWindow paragraphs s (w, found)).detected c = true ↔
      claimed s.detected c = true ∨ Found (body w.1) found c := hclaims.2
  refine ⟨hclaims.1, ?_, fun c => ?_⟩
  · show s.pending.filter _ = _
    rw [hi.pending, List.filter_filter]
    apply List.filter_congr
    intro spec _
    -- a clause claimed before stays claimed
    cases hb : claimed s.detected spec.clause with
    | false => simp [recordWindow]
    | true =>
      have hs : claimed (recordWindow paragraphs s (w, found)).detected spec.clause = true :=
        (hcl _).2 (.inl hb)
      rw [hs]
      simp
  · rw [hcl, hi.located]
    constructor
    · intro h
      rcases h with (h | ⟨hspec, w', hw', hr⟩) | h
      · exact .inl h
      · exact .inr ⟨hspec, w', List.mem_append_left _ hw', hr⟩
      · obtain ⟨⟨spec, hspec, hc⟩, hr⟩ := hsound c h
        exact .inr ⟨⟨spec, hhigh spec hspec, hc⟩, w, by simp, hr⟩
    · intro h
      rcases h with h | ⟨⟨spec, hspec, rfl⟩, w', hw', hr⟩
      · exact .inl (.inl h)
      · rcases List.mem_append.1 hw' with hw' | hw'
        · exact .inl (.inr ⟨⟨spec, hspec, rfl⟩, w', hw', hr⟩)
        · rw [List.mem_singleton] at hw'
          subst hw'
          cases hb : claimed s.detected spec.clause with
          | true => exact .inl ((hi.located _).1 hb)
          | false => exact .inr (hcomplete spec (hlow spec (hi.mem_pending.2 ⟨hspec, hb⟩)) hr)

theorem recordWindow_pending {w : Numbered × List (String × List String)} {spec : ClauseSpec}
    (h : spec ∈ (recordWindow paragraphs s w).pending) : spec ∈ s.pending :=
  (List.mem_filter.1 h).1

theorem foldl_recordWindow_inv {snapshot : List ClauseSpec} {wave : List Numbered}
    {found : List (List (String × List String))} (hi : s.Inv d outstanding headed reached)
    (hsub : ∀ w ∈ wave, ∀ p ∈ body w.1, p ∈ paragraphs)
    (hlow : ∀ spec ∈ s.pending, spec ∈ snapshot) (hhigh : ∀ spec ∈ snapshot, spec ∈ outstanding)
    (hfound : wave.mapM (d.searchWindow snapshot) = .ok found) :
    ((wave.zip found).foldl (recordWindow paragraphs) s).Inv d outstanding headed
        (reached ++ wave) ∧
      ((wave.zip found).foldl (recordWindow paragraphs) s).searches = s.searches ∧
      ∀ spec ∈ ((wave.zip found).foldl (recordWindow paragraphs) s).pending, spec ∈ s.pending := by
  induction wave generalizing reached s found with
  | nil => exact ⟨by simpa using hi, rfl, fun _ => id⟩
  | cons w wave ih =>
    rw [List.mapM_cons] at hfound
    obtain ⟨f, hf, hfound⟩ := Except.bind_eq_ok.1 hfound
    obtain ⟨fs, hfs, hfound⟩ := Except.bind_eq_ok.1 hfound
    obtain rfl := Except.pure_eq_ok.1 hfound
    have hw := recordWindow_inv hi (hsub w List.mem_cons_self) hlow hhigh hf
    obtain ⟨hinv, hsearches, hpending⟩ := ih hw
      (fun w' hw' => hsub w' (List.mem_cons_of_mem _ hw'))
      (fun spec hspec => hlow spec (recordWindow_pending hspec)) hfs
    refine ⟨by simpa using hinv, hsearches, fun spec hspec => ?_⟩
    exact recordWindow_pending (hpending spec hspec)

def Asked (reached : List Numbered) (s : ChunkPass) : Prop :=
  ∀ w ∈ reached, skipped w.1 = false →
    ∃ q ∈ s.searches, q.window = w.2 ∧ ∀ spec ∈ s.pending, spec.clause ∈ q.clauses

theorem runWave_inv {wave : List Numbered} {s' : ChunkPass}
    (hi : s.Inv d outstanding headed reached) (ha : Asked reached s)
    (hsub : ∀ w ∈ wave, ∀ p ∈ body w.1, p ∈ paragraphs)
    (h : d.runWave paragraphs wave s = .ok s') :
    s'.Inv d outstanding headed (reached ++ wave) ∧ Asked (reached ++ wave) s' := by
  unfold runWave at h
  obtain ⟨found, hfound, h⟩ := Except.bind_eq_ok.1 h
  obtain rfl := Except.pure_eq_ok.1 h
  generalize hs₁ : ({ s with
      seenPages := s.seenPages ++ (wave.flatMap (·.1)).map (·.pageNumber)
      searches := s.searches ++ (wave.filter (!skipped ·.1)).map fun w =>
        { window := w.2, clauses := s.pending.map (·.clause) } } : ChunkPass) = s₁
  have hi₁ : s₁.Inv d outstanding headed reached := hs₁ ▸ ⟨hi.nodup, hi.pending, hi.located⟩
  have hpending₁ : s₁.pending = s.pending := hs₁ ▸ rfl
  have hsearches₁ : s₁.searches = s.searches ++ (wave.filter (!skipped ·.1)).map fun w =>
      { window := w.2, clauses := s.pending.map (·.clause) } := hs₁ ▸ rfl
  obtain ⟨hinv, hsearches, hpending⟩ := foldl_recordWindow_inv hi₁ hsub
    (fun spec hspec => hpending₁ ▸ hspec) (fun spec hspec => (hi.mem_pending.1 hspec).1) hfound
  refine ⟨hinv, fun w hw hskip => ?_⟩
  rw [hsearches, hsearches₁]
  rcases List.mem_append.1 hw with hw | hw
  · obtain ⟨q, hq, hwin, hclauses⟩ := ha w hw hskip
    exact ⟨q, List.mem_append_left _ hq, hwin,
      fun spec hspec => hclauses spec (hpending₁ ▸ hpending spec hspec)⟩
  · refine ⟨{ window := w.2, clauses := s.pending.map (·.clause) }, ?_, rfl, fun spec hspec => ?_⟩
    · exact List.mem_append_right _
        (List.mem_map.2 ⟨w, List.mem_filter.2 ⟨hw, by simp [hskip]⟩, rfl⟩)
    · exact List.mem_map_of_mem (hpending₁ ▸ hpending spec hspec)

theorem chunkLoop_inv {waves : List (List Numbered)} {earlyStop early : Bool} {s' : ChunkPass}
    {pages : List Int} (hi : s.Inv d outstanding headed reached) (ha : Asked reached s)
    (hsub : ∀ w ∈ waves.flatten, ∀ p ∈ body w.1, p ∈ paragraphs)
    (h : d.chunkLoop paragraphs earlyStop waves s = .ok (s', early, pages)) :
    ∃ reached', s'.Inv d outstanding headed reached' ∧ Asked reached' s' ∧
      ((reached' = reached ++ waves.flatten ∧ pages = []) ∨
        (reached' <+: reached ++ waves.flatten ∧ s'.pending = [])) := by
  induction waves generalizing reached s with
  | nil =>
    cases h
    exact ⟨reached, hi, ha, .inl ⟨by simp, rfl⟩⟩
  | cons wave waves ih =>
    unfold chunkLoop at h
    split at h
    next hstop =>
      cases h
      rw [Bool.and_eq_true, List.isEmpty_iff] at hstop
      exact ⟨reached, hi, ha, .inr ⟨List.prefix_append _ _, hstop.1⟩⟩
    next =>
      obtain ⟨s₁, hs₁, h⟩ := Except.bind_eq_ok.1 h
      have hw : ∀ w ∈ wave, ∀ p ∈ body w.1, p ∈ paragraphs := fun w hw =>
        hsub w (by simp [hw])
      obtain ⟨hi₁, ha₁⟩ := runWave_inv hi ha hw hs₁
      obtain ⟨reached', hinv, hasked, hend⟩ := ih hi₁ ha₁
        (fun w hw => hsub w (by rw [List.flatten_cons]; exact List.mem_append_right _ hw)) h
      refine ⟨reached', hinv, hasked, ?_⟩
      rwa [List.flatten_cons, ← List.append_assoc]

end

end ClauseDetector

end Clear
