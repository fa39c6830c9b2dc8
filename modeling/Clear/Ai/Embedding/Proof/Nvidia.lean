import Clear.Ai.Embedding.Nvidia
import Clear.Lib.Except
import Mathlib.Data.List.Perm.Subperm
import Mathlib.Data.List.Range

/-!
# Vectors in the order of the texts

A call of `embed_many` that answers has one vector for each text, and each is what the endpoint
reported under the index of the text in its window. A call that does not answer raises a
`ProviderError`, unless a reply escapes the checks: the body nests too deeply, an embedding or the
usage holds what `float`, `int` or `get` refuses, or a pause is too long to compute (`aligned_iff`).
-/

namespace Clear

namespace Nvidia

/-! ## What is promised -/

def IsProviderError : Raised → Prop
  | .app e => e.exception ∈
    ["ProviderError", "ProviderUnavailableError", "ProviderRateLimitError"]
  | .other _ => False

variable {ν : Type} (p : Provider ν)

def Reply.retryable : Reply ν → Bool
  | timeout | transportError _ => true
  | response r => r.status ∈ retryableStatus

/-- A reply with a JSON object. -/
def Reply.Answers (reply : Reply ν) (data : List (String × Decoded ν)) : Prop :=
  ∃ r, reply = .response r ∧ r.status < 400 ∧ r.body = .json (.dict data)

/-- An entry with an index among `n`, and what `float` makes of its embedding. -/
structure Indexed (n : Nat) (entry : Decoded ν) (i : Nat) (numbers : Except Raised (List ν)) :
    Prop where
  holds : ∃ d l, entry = .dict d ∧ index? n (get d "index") = some i ∧
    get d "embedding" = .list l ∧ l.mapM (toFloat p) = numbers

/-- An entry that reports a vector under an index. -/
def Reports (n : Nat) (entry : Decoded ν) (i : Nat) (vector : List ν) : Prop :=
  ∃ numbers, Indexed p n entry i (.ok numbers) ∧
    vector = finaliseFloats p numbers

variable (inputType : InputType)

/-- The vectors of the windows, in order. -/
inductive Aligned : List (List String) → Nat → List (List ν) → Prop
  | nil (sent : Nat) : Aligned [] sent []
  | cons {texts : List String} {windows : List (List String)} {sent last : Nat}
      {data : List (String × Decoded ν)} {vectors rest : List (List ν)}
      (hsent : sent ≤ last ∧ last ≤ sent + p.maxRetries)
      (hreply : (replies p inputType texts last).Answers data)
      (hlength : vectors.length = texts.length)
      (hreports : ∀ i vector, vectors[i]? = some vector →
        ∃ raw entry, get data "data" = .list raw ∧ entry ∈ raw ∧
          Reports p texts.length entry i vector)
      (hrest : Aligned windows (last + 1) rest) :
      Aligned (texts :: windows) sent (vectors ++ rest)

structure KeepsAlignment (texts : List String) : Prop where
  raises : ∀ e, (embedMany p inputType texts).1 = .error e →
    IsProviderError e
  aligned : ∀ vectors usage,
    (embedMany p inputType texts).1 = .ok (vectors, usage) →
      vectors.length = texts.length ∧ Aligned p inputType
        (Slices.slices p.batchSize p.batchSize texts) 0 vectors
  requests : ∀ window sent,
    (embedBatch p inputType window sent).2 ≤ sent + p.maxRetries + 1
  stops : ∀ window sent k, sent ≤ k →
    k + 1 < (embedBatch p inputType window sent).2 →
      (replies p inputType window k).retryable = true

/-! ## What escapes -/

def Reply.delay : Reply ν → Option ν
  | response r => retryAfterSeconds p r
  | _ => none

/-- The last request of a window: the retries before it have pauses that can be computed. -/
structure Decides (reply : Nat → Reply ν) (sent last : Nat) : Prop where
  ge : sent ≤ last
  le : last ≤ sent + p.maxRetries
  retried : ∀ k, sent ≤ k → k < last → (reply k).retryable = true ∧
    backoffOverflows (k - sent + 1) ((reply k).delay p) = false
  stops : last < sent + p.maxRetries → (reply last).retryable = true →
    backoffOverflows (last - sent + 1) ((reply last).delay p) = true

/-- All entries report vectors, each under a new index; `seen'` holds the indexes at the end. -/
inductive Fills (n : Nat) : List Nat → List (Decoded ν) → List Nat → Prop
  | nil (seen : List Nat) : Fills n seen [] seen
  | cons {seen seen' : List Nat} {entry : Decoded ν} {raw : List (Decoded ν)} {i : Nat}
      {numbers : List ν} (hentry : Indexed p n entry i (.ok numbers)) (hi : i ∉ seen)
      (hraw : Fills n (i :: seen) raw seen') : Fills n seen (entry :: raw) seen'

/-- The first entry that does not report a vector has a new index, and an embedding with something
that is no number. -/
inductive Defect (n : Nat) : List Nat → List (Decoded ν) → Prop
  | here {seen : List Nat} {entry : Decoded ν} {raw : List (Decoded ν)} {i : Nat} {e : Raised}
      (hentry : Indexed p n entry i (.error e)) (hi : i ∉ seen) : Defect n seen (entry :: raw)
  | later {seen : List Nat} {entry : Decoded ν} {raw : List (Decoded ν)} {i : Nat}
      {numbers : List ν} (hentry : Indexed p n entry i (.ok numbers)) (hi : i ∉ seen)
      (hraw : Defect n (i :: seen) raw) : Defect n seen (entry :: raw)

/-- One vector is reported for each of `n` texts. -/
def Complete (n : Nat) (data : List (String × Decoded ν)) : Prop :=
  ∃ raw seen, get data "data" = .list raw ∧ Fills p n [] raw seen ∧ seen.length = n

/-- A number of an embedding is malformed, or of the usage that comes with all the vectors. -/
def Malformed (n : Nat) (data : List (String × Decoded ν)) : Prop :=
  (∃ raw, get data "data" = .list raw ∧ Defect p n [] raw) ∨
    Complete p n data ∧ ∃ e, inputTokens p data = .error e

/-- A window is reached whose replies escape the checks. -/
inductive Escapes : List (List String) → Nat → Prop
  | pause {texts : List String} {windows : List (List String)} {sent last : Nat}
      (hlast : Decides p (replies p inputType texts) sent last)
      (hlt : last < sent + p.maxRetries)
      (hreply : (replies p inputType texts last).retryable = true) :
      Escapes (texts :: windows) sent
  | depth {texts : List String} {windows : List (List String)} {sent last : Nat} {r : Response ν}
      (hlast : Decides p (replies p inputType texts) sent last)
      (hreply : replies p inputType texts last = .response r)
      (hstatus : r.status < 400) (hbody : r.body = .tooDeep) : Escapes (texts :: windows) sent
  | malformed {texts : List String} {windows : List (List String)} {sent last : Nat}
      {data : List (String × Decoded ν)}
      (hlast : Decides p (replies p inputType texts) sent last)
      (hreply : (replies p inputType texts last).Answers data)
      (hdata : Malformed p texts.length data) : Escapes (texts :: windows) sent
  | later {texts : List String} {windows : List (List String)} {sent last : Nat}
      {data : List (String × Decoded ν)}
      (hlast : Decides p (replies p inputType texts) sent last)
      (hreply : (replies p inputType texts last).Answers data)
      (hdata : Complete p texts.length data ∧ ∃ tokens, inputTokens p data = .ok tokens)
      (hlater : Escapes windows (last + 1)) : Escapes (texts :: windows) sent

variable {p inputType}

/-! ## The entries of a response -/

theorem elim_error {α : Type} {o : Option α} {exception : String} {e : Raised}
    (h : o.elim (.error (.other exception)) .ok = (.error e : Except Raised α)) :
    ∃ exception, e = .other exception := by
  cases o with
  | none => exact ⟨exception, (Except.error.inj h).symm⟩
  | some x => exact nomatch h

theorem toFloat_error {v : Decoded ν} {e : Raised} (h : toFloat p v = .error e) :
    ∃ exception, e = .other exception := by
  cases v with
  | bool b => exact elim_error h
  | int n => exact elim_error h
  | str s => exact elim_error h
  | float x => exact nomatch h
  | null | list | dict => exact ⟨_, (Except.error.inj h).symm⟩

theorem numbers_error {l : List (Decoded ν)} {e : Raised}
    (h : l.mapM (toFloat p) = .error e) : ∃ exception, e = .other exception := by
  induction l with
  | nil => exact nomatch h
  | cons v l ih =>
    rw [List.mapM_cons] at h
    cases hv : toFloat p v with
    | error e' =>
      rw [hv] at h
      cases h
      exact toFloat_error hv
    | ok x =>
      rw [hv] at h
      cases hl : l.mapM (toFloat p) with
      | error e' =>
        rw [hl] at h
        cases h
        exact ih hl
      | ok numbers =>
        rw [hl] at h
        exact nomatch h

variable {n i : Nat} {entry : Decoded ν} {ordered : List (List ν)} {seen : List Nat}

theorem place_of_indexed {numbers : Except Raised (List ν)} (h : Indexed p n entry i numbers)
    (hi : i ∉ seen) : place p n (ordered, seen) entry =
      numbers.map fun numbers =>
        (ordered.set i (finaliseFloats p numbers), i :: seen) := by
  obtain ⟨d, l, rfl, hindex, hembedding, rfl⟩ := h.holds
  unfold place
  dsimp only
  rw [hindex, hembedding]
  dsimp only
  rw [if_neg hi]
  unfold finalise
  dsimp only
  cases l.mapM (toFloat p) <;> rfl

/-- An entry is refused, or it has a new index and an array. -/
theorem place_cases (entry : Decoded ν) (ordered : List (List ν)) (seen : List Nat) :
    (∃ e, place p n (ordered, seen) entry = .error e ∧ IsProviderError e) ∨
      ∃ i numbers, Indexed p n entry i numbers ∧ i ∉ seen := by
  unfold place
  split
  next d =>
    split
    next => exact .inl ⟨_, rfl, by simp [IsProviderError, providerError]⟩
    next i hindex =>
      split
      next => exact .inl ⟨_, rfl, by simp [IsProviderError, providerError]⟩
      next hi =>
        cases hembedding : get d "embedding" with
        | list l => exact .inr ⟨i, _, ⟨d, l, rfl, hindex, hembedding, rfl⟩, hi⟩
        | _ =>
          refine .inl ⟨_, rfl, ?_⟩
          simp [IsProviderError, providerError]
  next => exact .inl ⟨_, rfl, by simp [IsProviderError, providerError]⟩

theorem fold_of_fills {raw : List (Decoded ν)} {seen' : List Nat}
    (h : Fills p n seen raw seen') (ordered : List (List ν)) :
    ∃ ordered', raw.foldlM (place p n) (ordered, seen) = .ok (ordered', seen') := by
  induction h generalizing ordered with
  | nil seen => exact ⟨ordered, rfl⟩
  | cons hentry hi _ ih =>
    rw [List.foldlM_cons, place_of_indexed hentry hi]
    exact ih _

theorem fold_of_defect {raw : List (Decoded ν)} (h : Defect p n seen raw)
    (ordered : List (List ν)) :
    ∃ exception, raw.foldlM (place p n) (ordered, seen) =
      .error (.other exception) := by
  induction h generalizing ordered with
  | here hentry hi =>
    obtain ⟨d, l, -, -, -, hnumbers⟩ := hentry.holds
    obtain ⟨exception, rfl⟩ := numbers_error hnumbers
    rw [List.foldlM_cons, place_of_indexed hentry hi]
    exact ⟨exception, rfl⟩
  | later hentry hi _ ih =>
    rw [List.foldlM_cons, place_of_indexed hentry hi]
    exact ih _

theorem fold_cases (raw : List (Decoded ν)) (ordered : List (List ν)) (seen : List Nat) :
    (∃ e, raw.foldlM (place p n) (ordered, seen) = .error e ∧ IsProviderError e) ∨
      Defect p n seen raw ∨ ∃ seen', Fills p n seen raw seen' := by
  induction raw generalizing ordered seen with
  | nil => exact .inr (.inr ⟨seen, .nil seen⟩)
  | cons entry raw ih =>
    rcases place_cases entry ordered seen with
      ⟨e, he, hprovider⟩ | ⟨i, numbers, hentry, hi⟩
    · rw [List.foldlM_cons, he]
      exact .inl ⟨e, rfl, hprovider⟩
    · cases numbers with
      | error e => exact .inr (.inl (.here hentry hi))
      | ok numbers =>
        rw [List.foldlM_cons, place_of_indexed hentry hi]
        rcases ih (ordered.set i (finaliseFloats p numbers)) (i :: seen) with
          he | hdefect | ⟨seen', hfills⟩
        · exact .inl he
        · exact .inr (.inl (.later hentry hi hdefect))
        · exact .inr (.inr ⟨seen', .cons hentry hi hfills⟩)

/-! ## A response -/

/-- Indexes are distinct and in range, and the vectors under them are reported. -/
structure Held (p : Provider ν) (n : Nat) (raw : List (Decoded ν))
    (held : List (List ν) × List Nat) : Prop where
  length : held.1.length = n
  nodup : held.2.Nodup
  lt : ∀ i ∈ held.2, i < n
  reports : ∀ i ∈ held.2, ∀ vector, held.1[i]? = some vector →
    ∃ entry ∈ raw, Reports p n entry i vector

theorem index?_lt {v : Decoded ν} (h : index? n v = some i) : i < n := by
  unfold index? at h
  split at h
  · split at h
    · cases h
      omega
    · exact nomatch h
  · split at h
    · cases h
      assumption
    · exact nomatch h
  · exact nomatch h

theorem held_step {raw : List (Decoded ν)} {held held' : List (List ν) × List Nat}
    (hentry : entry ∈ raw) (h : Held p n raw held)
    (hplace : place p n held entry = .ok held') :
    Held p n raw held' := by
  obtain ⟨ordered, seen⟩ := held
  rcases place_cases entry ordered seen with
    ⟨e, he, -⟩ | ⟨i, numbers, hindexed, hi⟩
  · rw [he] at hplace
    exact nomatch hplace
  · rw [place_of_indexed hindexed hi] at hplace
    obtain ⟨numbers, rfl, rfl⟩ := Except.map_eq_ok.1 hplace
    obtain ⟨d, l, -, hindex, -⟩ := hindexed.holds
    have hlt := index?_lt hindex
    refine ⟨by simpa using h.length, List.nodup_cons.2 ⟨hi, h.nodup⟩, ?_, ?_⟩
    · intro j hj
      rcases List.mem_cons.1 hj with rfl | hj
      · exact hlt
      · exact h.lt j hj
    · intro j hj vector hvector
      by_cases hij : i = j
      · subst hij
        rw [List.getElem?_set_self (by rw [h.length]; exact hlt)] at hvector
        cases hvector
        exact ⟨entry, hentry, numbers, hindexed, rfl⟩
      · rw [List.getElem?_set_ne hij] at hvector
        refine h.reports j ?_ vector hvector
        exact (List.mem_cons.1 hj).resolve_left (Ne.symm hij)

theorem held_fold {raw : List (Decoded ν)} {held : List (List ν) × List Nat}
    (h : raw.foldlM (place p n) (List.replicate n [], []) = .ok held) :
    Held p n raw held :=
  Except.foldlM_invariant (Held p n raw)
    (fun _ _ _ hentry hheld hplace => held_step hentry hheld hplace)
    ⟨List.length_replicate, List.nodup_nil, fun _ hi => by simp at hi, fun _ hi => by simp at hi⟩ h

/-- As many indexes as there are texts are all of them. -/
theorem Held.mem {raw : List (Decoded ν)} {held : List (List ν) × List Nat}
    (h : Held p n raw held) (hn : held.2.length = n) (hi : i < n) : i ∈ held.2 := by
  have hsub : held.2 ⊆ List.range n := fun j hj => List.mem_range.2 (h.lt j hj)
  have hperm := (h.nodup.subperm hsub).perm_of_length_le (by simp [hn])
  exact hperm.mem_iff.2 (List.mem_range.2 hi)

variable {data : List (String × Decoded ν)}

theorem readBatch_of_fold {raw : List (Decoded ν)} (hraw : get data "data" = .list raw)
    (hfold : raw.foldlM (place p n) (List.replicate n [], []) =
      .ok (ordered, seen)) :
    readBatch p n data =
      if seen.length = n then (inputTokens p data).map fun tokens => (ordered, ⟨tokens, 1⟩)
      else
        .error (providerError ("The NVIDIA embeddings response was missing " ++
          (n - seen.length).repr ++ " of " ++ n.repr ++
          " vectors. A partial batch cannot be matched to its inputs by position.")) := by
  unfold readBatch
  rw [hraw]
  dsimp only
  rw [hfold]
  show (if seen.length ≠ n then _ else _) = _
  rw [ite_not]
  congr 1

theorem readBatch_of_complete (p : Provider ν) (h : Complete p n data) :
    (∃ e, inputTokens p data = .error e ∧ readBatch p n data = .error e) ∨
      ∃ tokens vectors, inputTokens p data = .ok tokens ∧
        readBatch p n data = .ok (vectors, ⟨tokens, 1⟩) ∧
        vectors.length = n ∧ ∀ i vector, vectors[i]? = some vector →
          ∃ raw entry, get data "data" = .list raw ∧ entry ∈ raw ∧
            Reports p n entry i vector := by
  obtain ⟨raw, seen, hraw, hfills, hn⟩ := h
  obtain ⟨ordered, hfold⟩ := fold_of_fills hfills (List.replicate n [])
  have hheld := held_fold hfold
  have hread : readBatch p n data =
      (inputTokens p data).map fun tokens => (ordered, ⟨tokens, 1⟩) := by
    rw [readBatch_of_fold hraw hfold, if_pos hn]
  rw [hread]
  cases inputTokens p data with
  | error e => exact .inl ⟨e, rfl, rfl⟩
  | ok tokens =>
    refine .inr ⟨tokens, ordered, rfl, rfl, hheld.length, fun i vector hvector => ?_⟩
    have hi : i < n := hheld.length ▸ (List.getElem?_eq_some_iff.1 hvector).1
    obtain ⟨entry, hentry, hreports⟩ := hheld.reports i (hheld.mem hn hi) vector hvector
    exact ⟨raw, entry, hraw, hentry, hreports⟩

theorem readBatch_cases (p : Provider ν) (n : Nat) (data : List (String × Decoded ν)) :
    (∃ e, readBatch p n data = .error e ∧ IsProviderError e) ∨
      (∃ raw, get data "data" = .list raw ∧ Defect p n [] raw) ∨ Complete p n data := by
  cases hraw : get data "data" with
  | list raw =>
    rcases fold_cases raw (List.replicate n []) [] with
      ⟨e, he, hprovider⟩ | hdefect | ⟨seen, hfills⟩
    · refine .inl ⟨e, ?_, hprovider⟩
      unfold readBatch
      rw [hraw]
      dsimp only
      rw [he]
      rfl
    · exact .inr (.inl ⟨raw, rfl, hdefect⟩)
    · by_cases hn : seen.length = n
      · exact .inr (.inr ⟨raw, seen, hraw, hfills, hn⟩)
      · obtain ⟨ordered, hfold⟩ := fold_of_fills hfills (List.replicate n [])
        refine .inl ⟨_, (readBatch_of_fold hraw hfold).trans (if_neg hn), ?_⟩
        simp [IsProviderError, providerError]
  | _ =>
    refine .inl ⟨_, by unfold readBatch; rw [hraw], ?_⟩
    simp [IsProviderError, providerError]

theorem inputTokens_error {e : Raised} (h : inputTokens p data = .error e) :
    ∃ exception, e = .other exception := by
  have hint : ∀ v : Decoded ν, toInt p v = .error e → ∃ exception, e = .other exception := by
    intro v hv
    cases v with
    | float x => exact elim_error hv
    | str s => exact elim_error hv
    | bool b => exact nomatch hv
    | int n => exact nomatch hv
    | null | list | dict => exact ⟨_, (Except.error.inj hv).symm⟩
  unfold inputTokens at h
  dsimp only at h
  split at h
  · split at h
    · exact hint _ h
    · exact ⟨_, (Except.error.inj h).symm⟩
  · exact nomatch h

/-- A malformed response raises something else than a `ProviderError`. -/
theorem readBatch_of_malformed (p : Provider ν) (h : Malformed p n data) :
    ∃ exception, readBatch p n data = .error (.other exception) := by
  rcases h with ⟨raw, hraw, hdefect⟩ | ⟨hcomplete, e, he⟩
  · obtain ⟨exception, hfold⟩ :=
      fold_of_defect hdefect (List.replicate n [])
    refine ⟨exception, ?_⟩
    unfold readBatch
    rw [hraw]
    dsimp only
    rw [hfold]
    rfl
  · obtain ⟨exception, rfl⟩ := inputTokens_error he
    rcases readBatch_of_complete p hcomplete with ⟨e', he', hread⟩ | ⟨tokens, vectors, htokens, -⟩
    · rw [he] at he'
      cases he'
      exact ⟨exception, hread⟩
    · rw [he] at htokens
      exact nomatch htokens

/-! ## The requests of a window -/

variable {reply : Nat → Reply ν} {sent last : Nat}

theorem translate_provider (p : Provider ν) (r : Response ν) :
    IsProviderError (translate p r) := by
  unfold translate
  dsimp only
  split_ifs <;> simp [IsProviderError, providerError, unavailable, rateLimited]

theorem attempt_answers (h : (reply last).Answers data) :
    attempt p reply sent last = (.ok data, last + 1) := by
  obtain ⟨r, hreply, hstatus, hbody⟩ := h
  unfold attempt
  rw [hreply]
  dsimp only
  rw [if_pos hstatus, hbody]

theorem attempt_depth {r : Response ν} (hreply : reply last = .response r) (hstatus : r.status < 400)
    (hbody : r.body = .tooDeep) :
    attempt p reply sent last =
      (.error (.raise (.other "RecursionError")), last + 1) := by
  unfold attempt
  rw [hreply]
  dsimp only
  rw [if_pos hstatus, hbody]

theorem attempt_retryable (p : Provider ν) (sent : Nat)
    (h : (reply last).retryable = true) :
    ∃ e, IsProviderError e ∧ attempt p reply sent last =
      (.error (pause p (last - sent + 1) e ((reply last).delay p)), last + 1) := by
  unfold attempt
  cases hreply : reply last with
  | timeout => exact ⟨_, by simp [IsProviderError, unavailable], rfl⟩
  | transportError text => exact ⟨_, by simp [IsProviderError, unavailable], rfl⟩
  | response r =>
    rw [hreply] at h
    have hmem : r.status ∈ retryableStatus := by simpa [Reply.retryable] using h
    have hstatus : ¬ r.status < 400 := by
      have hall : ∀ status ∈ retryableStatus, ¬ status < 400 := by decide
      exact hall _ hmem
    refine ⟨translate p r, translate_provider p r, ?_⟩
    dsimp only
    rw [if_neg hstatus, if_neg (not_not_intro hmem)]
    rfl

/-- What ends a window with something else than a JSON object. -/
theorem attempt_cases (p : Provider ν) (sent : Nat)
    (h : (reply last).retryable = false) :
    (∃ data, (reply last).Answers data) ∨
      (∃ r, reply last = .response r ∧ r.status < 400 ∧ r.body = .tooDeep) ∨
      ∃ e, IsProviderError e ∧
        attempt p reply sent last = (.error (.raise e), last + 1) := by
  unfold attempt
  cases hreply : reply last with
  | timeout | transportError text =>
    rw [hreply] at h
    exact nomatch h
  | response r =>
    rw [hreply] at h
    have hmem : r.status ∉ retryableStatus := by simpa [Reply.retryable] using h
    dsimp only
    by_cases hstatus : r.status < 400
    · rw [if_pos hstatus]
      cases hbody : r.body with
      | tooDeep => exact .inr (.inl ⟨r, rfl, hstatus, hbody⟩)
      | notJson => exact .inr (.inr ⟨_, by simp [IsProviderError, providerError], rfl⟩)
      | json v =>
        cases v with
        | dict data => exact .inl ⟨data, r, rfl, hstatus, hbody⟩
        | _ =>
          refine .inr (.inr ⟨_, ?_, rfl⟩)
          simp [IsProviderError, providerError]
    · rw [if_neg hstatus, if_pos hmem]
      exact .inr (.inr ⟨_, translate_provider p r, rfl⟩)

theorem exists_decides (p : Provider ν) (reply : Nat → Reply ν)
    (sent : Nat) : ∃ last, Decides p reply sent last := by
  have hleft : ∀ left ≤ p.maxRetries, (∃ last, Decides p reply sent last) ∨
      ∀ k, sent ≤ k → k < sent + left → (reply k).retryable = true ∧
        backoffOverflows (k - sent + 1) ((reply k).delay p) = false := by
    intro left
    induction left with
    | zero => exact fun _ => .inr fun k hk hlt => absurd hlt (by omega)
    | succ left ih =>
      intro hle
      rcases ih (by omega) with hlast | hretried
      · exact .inl hlast
      · by_cases hthis : (reply (sent + left)).retryable = true ∧
          backoffOverflows (sent + left - sent + 1) ((reply (sent + left)).delay p) = false
        · refine .inr fun k hk hlt => ?_
          by_cases hk' : k = sent + left
          · rw [hk']
            exact hthis
          · exact hretried k hk (by omega)
        · refine .inl ⟨sent + left, by omega, by omega, hretried, fun _ hreply => ?_⟩
          simpa [hreply] using hthis
  rcases hleft _ le_rfl with hlast | hretried
  · exact hlast
  · exact ⟨sent + p.maxRetries, by omega, le_rfl, hretried, fun hlt => absurd hlt (by omega)⟩

/-- The loop ends with the request that decides. -/
theorem postWithRetry_of_decides (h : Decides p reply sent last) :
    postWithRetry p reply sent =
      ((attempt p reply sent last).1.mapError Missed.error, last + 1) := by
  have hge := h.ge
  have hle := h.le
  have hsnd : (attempt p reply sent last).2 = last + 1 := rfl
  have hrun : Retry.run (attempt p reply sent) again p.maxRetries sent =
      attempt p reply sent (sent + (last - sent)) := by
    refine @Retry.run_of_again _ _ _ _ _ (fun i => sent + i) (last - sent) _ (by omega) ?_ ?_
    · intro i hi
      obtain ⟨hretryable, hpause⟩ := h.retried (sent + i) (by omega) (by omega)
      obtain ⟨e, -, he⟩ := attempt_retryable p sent hretryable
      refine ⟨_, he, ?_⟩
      unfold pause
      rw [hpause, Bool.and_false, if_neg Bool.false_ne_true]
      rfl
    · intro hlt e he
      have hlast : sent + (last - sent) = last := by omega
      rw [hlast] at he ⊢
      cases hretryable : (reply last).retryable with
      | true =>
        obtain ⟨e', -, he'⟩ := attempt_retryable p sent hretryable
        rw [he'] at he
        cases he
        unfold pause
        rw [h.stops (by omega) hretryable, Bool.and_true, if_pos (decide_eq_true (by omega))]
        rfl
      | false =>
        rcases attempt_cases p sent hretryable with
          ⟨data, hdata⟩ | ⟨r, hreply, hstatus, hbody⟩ | ⟨e', -, he'⟩
        · rw [attempt_answers hdata] at he
          exact nomatch he
        · rw [attempt_depth hreply hstatus hbody] at he
          cases he
          rfl
        · rw [he'] at he
          cases he
          rfl
  have hlast : sent + (last - sent) = last := by omega
  rw [hlast] at hrun
  unfold postWithRetry
  dsimp only
  rw [hrun, hsnd]

/-! ## A window -/

variable {texts : List String}

theorem embedBatch_of_decides
    (h : Decides p (replies p inputType texts) sent last) :
    embedBatch p inputType texts sent =
      (((attempt p (replies p inputType texts) sent last).1.mapError
        Missed.error).bind (readBatch p texts.length), last + 1) := by
  unfold embedBatch
  rw [postWithRetry_of_decides h]

/-- A window raises a `ProviderError`, escapes the checks, or leaves a vector for each text. -/
theorem embedBatch_cases (p : Provider ν) (inputType : InputType) (texts : List String) (sent : Nat) :
    ∃ last, Decides p (replies p inputType texts) sent last ∧
      ((∃ e, (embedBatch p inputType texts sent).1 = .error e ∧
          IsProviderError e) ∨
        (∀ windows, Escapes p inputType (texts :: windows) sent) ∨
        ∃ data tokens vectors, (replies p inputType texts last).Answers data ∧
          Complete p texts.length data ∧ inputTokens p data = .ok tokens ∧
          embedBatch p inputType texts sent =
            (.ok (vectors, ⟨tokens, 1⟩), last + 1) ∧
          vectors.length = texts.length ∧ ∀ i vector, vectors[i]? = some vector →
            ∃ raw entry, get data "data" = .list raw ∧ entry ∈ raw ∧
              Reports p texts.length entry i vector) := by
  obtain ⟨last, hlast⟩ := exists_decides p (replies p inputType texts) sent
  have hle := hlast.le
  refine ⟨last, hlast, ?_⟩
  rw [embedBatch_of_decides hlast]
  cases hretryable : (replies p inputType texts last).retryable with
  | true =>
    by_cases hlt : last < sent + p.maxRetries
    · exact .inr (.inl fun windows => .pause hlast hlt hretryable)
    · obtain ⟨e, hprovider, he⟩ := attempt_retryable p sent hretryable
      refine .inl ⟨e, ?_, hprovider⟩
      have := hlast.ge
      rw [he]
      unfold pause
      rw [decide_eq_false (by omega), Bool.false_and, if_neg Bool.false_ne_true]
      rfl
  | false =>
    rcases attempt_cases p sent hretryable with
      ⟨data, hdata⟩ | ⟨r, hreply, hstatus, hbody⟩ | ⟨e, hprovider, he⟩
    · rw [attempt_answers hdata]
      rcases readBatch_cases p texts.length data with ⟨e, he, hprovider⟩ | hdefect | hcomplete
      · exact .inl ⟨e, he, hprovider⟩
      · exact .inr (.inl fun windows => .malformed hlast hdata (.inl hdefect))
      · rcases readBatch_of_complete p hcomplete with
          ⟨e, he, -⟩ | ⟨tokens, vectors, htokens, hread, hlength, hreports⟩
        · exact .inr (.inl fun windows => .malformed hlast hdata (.inr ⟨hcomplete, e, he⟩))
        · refine .inr (.inr ⟨data, tokens, vectors, hdata, hcomplete, htokens, ?_, hlength, hreports⟩)
          exact congrArg (fun r => (r, last + 1)) hread
    · exact .inr (.inl fun windows => .depth hlast hreply hstatus hbody)
    · rw [he]
      exact .inl ⟨e, rfl, hprovider⟩

/-! ## A call -/

variable {windows : List (List String)}

theorem Aligned.length {vectors : List (List ν)}
    (h : Aligned p inputType windows sent vectors) :
    vectors.length = windows.flatten.length := by
  induction h with
  | nil => rfl
  | cons _ _ hlength _ _ ih =>
    rw [List.length_append, hlength, ih, List.flatten_cons, List.length_append]

theorem embedWindows_cases (p : Provider ν) (inputType : InputType)
    (windows : List (List String)) (sent : Nat) :
    (∃ e, (embedWindows p inputType windows sent).1 = .error e ∧
        IsProviderError e) ∨
      Escapes p inputType windows sent ∨
      ∃ vectors usage, (embedWindows p inputType windows sent).1 =
          .ok (vectors, usage) ∧ Aligned p inputType windows sent vectors := by
  induction windows generalizing sent with
  | nil => exact .inr (.inr ⟨[], {}, rfl, .nil sent⟩)
  | cons texts windows ih =>
    unfold embedWindows
    obtain ⟨last, hlast, ⟨e, he, hprovider⟩ | hescapes |
      ⟨data, tokens, vectors, hdata, hcomplete, htokens, hbatch, hlength, hreports⟩⟩ :=
      embedBatch_cases p inputType texts sent
    · cases hbatch : embedBatch p inputType texts sent with
      | mk result sent' =>
        rw [hbatch] at he
        dsimp only at he
        subst he
        exact .inl ⟨e, rfl, hprovider⟩
    · exact .inr (.inl (hescapes windows))
    · rw [hbatch]
      dsimp only
      rcases ih (last + 1) with ⟨e, he, hprovider⟩ | hescapes | ⟨rest, usage, hrest, haligned⟩
      · rw [he]
        exact .inl ⟨e, rfl, hprovider⟩
      · exact .inr (.inl (.later hlast hdata ⟨hcomplete, tokens, htokens⟩ hescapes))
      · rw [hrest]
        exact .inr (.inr ⟨_, _, rfl,
          .cons ⟨hlast.ge, hlast.le⟩ hdata hlength hreports haligned⟩)

theorem embedWindows_of_escapes
    (h : Escapes p inputType windows sent) :
    ∃ exception, (embedWindows p inputType windows sent).1 =
      .error (.other exception) := by
  induction h with
  | @pause texts windows sent last hlast hlt hreply =>
    obtain ⟨e, -, he⟩ := attempt_retryable p sent hreply
    have := hlast.ge
    unfold embedWindows
    rw [embedBatch_of_decides hlast, he]
    unfold pause
    rw [hlast.stops hlt hreply, Bool.and_true, if_pos (decide_eq_true (by omega))]
    exact ⟨_, rfl⟩
  | @depth texts windows sent last r hlast hreply hstatus hbody =>
    unfold embedWindows
    rw [embedBatch_of_decides hlast, attempt_depth hreply hstatus hbody]
    exact ⟨_, rfl⟩
  | @malformed texts windows sent last data hlast hreply hdata =>
    obtain ⟨exception, hread⟩ := readBatch_of_malformed p hdata
    have hbatch : embedBatch p inputType texts sent =
        (.error (.other exception), last + 1) := by
      rw [embedBatch_of_decides hlast, attempt_answers hreply]
      exact congrArg (fun r => (r, last + 1)) hread
    unfold embedWindows
    rw [hbatch]
    exact ⟨exception, rfl⟩
  | @later texts windows sent last data hlast hreply hdata hlater ih =>
    obtain ⟨exception, hrest⟩ := ih
    obtain ⟨hcomplete, tokens, htokens⟩ := hdata
    rcases readBatch_of_complete p hcomplete with ⟨e, he, -⟩ | ⟨tokens', vectors, -, hread, -⟩
    · rw [htokens] at he
      exact nomatch he
    · have hbatch : embedBatch p inputType texts sent =
          (.ok (vectors, ⟨tokens', 1⟩), last + 1) := by
        rw [embedBatch_of_decides hlast, attempt_answers hreply]
        exact congrArg (fun r => (r, last + 1)) hread
      unfold embedWindows
      rw [hbatch]
      dsimp only
      rw [hrest]
      exact ⟨exception, rfl⟩

theorem validate_cases (p : Provider ν) (vectors : List (List ν)) (expected : Nat) :
    (∃ e, validate p vectors expected = .error e ∧ IsProviderError e) ∨
      validate p vectors expected = .ok () := by
  unfold validate
  split
  · exact .inl ⟨_, rfl, by simp [IsProviderError, providerError]⟩
  · split
    · exact .inl ⟨_, rfl, by simp [IsProviderError, providerError]⟩
    · exact .inr rfl

theorem embedMany_of_ne_nil (p : Provider ν) (inputType : InputType) (h : texts ≠ []) :
    (embedMany p inputType texts).1 =
      (embedWindows p inputType
        (Slices.slices p.batchSize p.batchSize texts) 0).1.bind fun result =>
          (validate p result.1 texts.length).map fun _ => result := by
  unfold embedMany
  rw [if_neg (by simpa using h)]
  dsimp only
  generalize (embedWindows p inputType (Slices.slices p.batchSize p.batchSize texts) 0).1 = r
  cases r with
  | error e => rfl
  | ok result =>
    show (validate p result.1 texts.length >>= fun _ => pure result) = _
    cases hv : validate p result.1 texts.length <;> simp [Except.bind, hv] <;> rfl

/-- A call returns the vectors of the texts in their order, or raises a `ProviderError`, exactly if
none of the replies that it comes to escapes the checks. -/
theorem aligned_iff (p : Provider ν) (inputType : InputType) (texts : List String) :
    KeepsAlignment p inputType texts ↔
      ¬ Escapes p inputType (Slices.slices p.batchSize p.batchSize texts) 0 := by
  have hwindow : ∀ window sent, (embedBatch p inputType window sent).2 ≤
      sent + p.maxRetries + 1 ∧ ∀ k, sent ≤ k →
        k + 1 < (embedBatch p inputType window sent).2 →
        (replies p inputType window k).retryable = true := by
    intro window sent
    obtain ⟨last, hlast⟩ := exists_decides p (replies p inputType window) sent
    rw [embedBatch_of_decides hlast]
    exact ⟨by have := hlast.le; omega, fun k hk hlt => (hlast.retried k hk (by omega)).1⟩
  have hflatten := Slices.flatten_slices p.batchSize_pos texts
  by_cases hempty : texts = []
  · subst hempty
    have hslices : Slices.slices p.batchSize p.batchSize ([] : List String) = [] := rfl
    rw [hslices]
    constructor
    · intro _ hescapes
      cases hescapes
    · intro _
      refine ⟨fun e he => (nomatch he), fun vectors usage h => ?_,
        fun window sent => (hwindow window sent).1, fun window sent => (hwindow window sent).2⟩
      cases h
      exact ⟨rfl, hslices ▸ .nil 0⟩
  · have hmany := embedMany_of_ne_nil p inputType hempty
    constructor
    · intro h hescapes
      obtain ⟨exception, hwindows⟩ := embedWindows_of_escapes hescapes
      rw [hwindows] at hmany
      exact h.raises _ hmany
    · intro hescapes
      rcases embedWindows_cases p inputType (Slices.slices p.batchSize p.batchSize texts) 0 with
        ⟨e, he, hprovider⟩ | h | ⟨vectors, usage, hwindows, haligned⟩
      · rw [he] at hmany
        refine ⟨fun e' he' => ?_, fun vectors usage h => ?_,
          fun window sent => (hwindow window sent).1, fun window sent => (hwindow window sent).2⟩
        · cases hmany.symm.trans he'
          exact hprovider
        · exact nomatch hmany.symm.trans h
      · exact absurd h hescapes
      · rw [hwindows] at hmany
        refine ⟨fun e he => ?_, fun vectors' usage' h => ?_,
          fun window sent => (hwindow window sent).1, fun window sent => (hwindow window sent).2⟩
        · rw [hmany] at he
          rcases validate_cases p vectors texts.length with ⟨e', he', hprovider⟩ | hok
          · simp only [Except.bind, he', Except.map] at he
            cases he
            exact hprovider
          · simp only [Except.bind, hok, Except.map] at he
            exact nomatch he
        · rw [hmany] at h
          obtain ⟨_, -, hresult⟩ := Except.map_eq_ok.1 h
          cases hresult
          exact ⟨by rw [haligned.length, hflatten], haligned⟩

/-- Floats that are read from integers. -/
def ratFloats : Floats Rat where
  ofInt n := some n
  parse _ := none
  toInt x := some (x.num.tdiv x.den)
  isZero x := x = 0
  isNan _ := false
  isInf _ := false
  sum := List.foldl (· + ·) 0
  mul := (· * ·)
  div := (· / ·)
  sqrt x := x
  repr _ := ""

/-- An embedding with a null element raises a `TypeError`. -/
theorem null_fails :
    ¬ KeepsAlignment
      { ratFloats with
        client := fun _ _ => .response
          { status := 200
            body := .json (.dict [("data", .list [.dict [("index", .int 0),
              ("embedding", .list [.null])]])]) } } .passage ["Term"] := by
  intro h
  exact h.raises (.other "TypeError") rfl

end Nvidia

end Clear
