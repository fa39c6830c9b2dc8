import Clear.Ai.Retrieval.Proof.Fusion
import Clear.Ai.Retrieval.Proof.Scope
import Clear.Lib.Promotion

/-!
# Re-ranking only reorders

`rerankPrimary` promotes the passages that the reply scores best, and appends the others in the
order of retrieval. It keeps every passage; but a reply can make it raise, and passages past the cut
are not in the order of their scores (`reordered_iff`).
-/

namespace Clear

namespace Retrieval

open Promotion

/-! ## The reply -/

namespace Loaded

def isInfinite : Loaded → Bool
  | float (.infinite _) => true
  | _ => false

/-- An integer that rounds to infinity. -/
def tooLarge : Loaded → Bool
  | int n => Value.floatBound ≤ n.natAbs
  | _ => false

/-- The index of the entry is infinite, or its score is too large for a `float`. -/
def overflows : Loaded → Bool
  | dict d =>
    match d.lookup "index" with
    | some index =>
      index.isInfinite || index.toInt.isOk && (d.lookup "score").any tooLarge
    | none => false
  | _ => false

theorem toInt_overflow_iff {v : Loaded} :
    v.toInt = .error .overflowError ↔ v.isInfinite = true := by
  unfold toInt isInfinite
  split
  case h_6 s =>
    split <;> simp
  all_goals simp

theorem toDouble_overflow_iff (floatText : String → Option Double) {v : Loaded} :
    v.toDouble floatText = .error .overflowError ↔ v.tooLarge = true := by
  unfold toDouble tooLarge
  split
  case h_2 n =>
    split <;> simp <;> omega
  case h_4 s =>
    split <;> simp
  all_goals simp

end Loaded

def Evidence.unmarked (item : Evidence) : Evidence := { item with rank := 0, rerankScore := none }

namespace Reranker

variable {r : Reranker} {query : String} {evidence : List Evidence} {settings : RetrievalSettings}
  {plan : RetrievalPlan}

/-- The ranking that the model answers, if it is asked and answers one. -/
def entries (r : Reranker) (query : String) (evidence : List Evidence) : List Loaded :=
  if !r.enabled || evidence.length ≤ 1 then []
  else
    match (r.generateStructured query evidence).bind (·.lookup "ranking") with
    | some (.list entries) => entries
    | _ => []

/-- The index and the score that an entry gives, if it gives both and the index is one of `count`.
-/
def mention (floatText : String → Option Double) (count : Nat) (entry : Loaded) :
    Option (Nat × Rat) :=
  match readEntry floatText entry with
  | .ok (some (index, score)) =>
    if 0 ≤ index ∧ index < count then some (index.toNat, score) else none
  | _ => none

/-- The score of each index: the last one counts, the order is that of the first. -/
def scores (r : Reranker) (query : String) (evidence : List Evidence) : List (Nat × Rat) :=
  Dict.ofItems ((r.entries query evidence).filterMap (mention r.floatText evidence.length))

theorem uncaught_ok_iff {e : FloatError} :
    (∃ read, uncaught e = .ok read) ↔ e ≠ .overflowError := by
  unfold uncaught
  split
  · simp
  next h => simpa using h

theorem readEntry_ok_iff {floatText : String → Option Double} {entry : Loaded} :
    (∃ read, readEntry floatText entry = .ok read) ↔ entry.overflows = false := by
  unfold readEntry Loaded.overflows
  cases entry with
  | dict d =>
    dsimp only
    cases d.lookup "index" with
    | none => simp
    | some index =>
      dsimp only
      cases hindex : index.toInt with
      | error e =>
        dsimp only
        rw [uncaught_ok_iff]
        have hinfinite : e = .overflowError ↔ index.isInfinite = true := by
          rw [← Loaded.toInt_overflow_iff, hindex, Except.error.injEq]
        simp [hinfinite, Except.isOk, Except.toBool]
      | ok i =>
        have hfinite : index.isInfinite = false := by
          rw [← Bool.not_eq_true, ← Loaded.toInt_overflow_iff, hindex]
          exact nofun
        cases d.lookup "score" with
        | none => simp [hfinite]
        | some score =>
          dsimp only
          cases hscore : score.toDouble floatText with
          | error e =>
            dsimp only
            rw [uncaught_ok_iff]
            have hlarge : e = .overflowError ↔ score.tooLarge = true := by
              rw [← Loaded.toDouble_overflow_iff floatText, hscore,
                Except.error.injEq]
            simp [hfinite, hlarge, Except.isOk, Except.toBool]
          | ok x =>
            have hsmall : score.tooLarge = false := by
              rw [← Bool.not_eq_true, ← Loaded.toDouble_overflow_iff floatText,
                hscore]
              exact nofun
            simp [hfinite, hsmall]
  | _ => simp

theorem addEntry_eq {floatText : String → Option Double} {count : Nat} {entry : Loaded}
    (h : entry.overflows = false) (d : List (Nat × Rat)) :
    addEntry floatText count d entry =
      .ok ((mention floatText count entry).toList.foldl (fun d e => Dict.assign d e.1 e.2) d) := by
  obtain ⟨read, hread⟩ := readEntry_ok_iff.2 h
  unfold addEntry mention
  rw [hread]
  cases read with
  | none => rfl
  | some read =>
    show Except.ok (if 0 ≤ read.1 ∧ read.1 < count then Dict.assign d read.1.toNat read.2 else d) =
      .ok ((if 0 ≤ read.1 ∧ read.1 < count then some (read.1.toNat, read.2) else none).toList.foldl
        (fun d e => Dict.assign d e.1 e.2) d)
    split <;> rfl

theorem foldlM_addEntry_eq {floatText : String → Option Double} {count : Nat}
    {entries : List Loaded} (h : ∀ entry ∈ entries, entry.overflows = false)
    (d : List (Nat × Rat)) :
    entries.foldlM (addEntry floatText count) d =
      .ok ((entries.filterMap (mention floatText count)).foldl
        (fun d e => Dict.assign d e.1 e.2) d) := by
  induction entries generalizing d with
  | nil => rfl
  | cons entry entries ih =>
    rw [List.foldlM_cons, addEntry_eq (h entry List.mem_cons_self)]
    show entries.foldlM (addEntry floatText count) _ = _
    rw [ih fun e he => h e (List.mem_cons_of_mem entry he), List.filterMap_cons]
    cases mention floatText count entry with
    | none => rfl
    | some e => rfl

theorem foldlM_addEntry_ok_iff {floatText : String → Option Double} {count : Nat}
    {entries : List Loaded} (d : List (Nat × Rat)) :
    (∃ scores, entries.foldlM (addEntry floatText count) d = .ok scores) ↔
      ∀ entry ∈ entries, entry.overflows = false := by
  refine Except.foldlM_ok_iff (fun d entry => ?_) entries d
  unfold addEntry
  rw [Except.exists_map_ok]
  exact readEntry_ok_iff

/-! ## The new order -/

def best (r : Reranker) (query : String) (evidence : List Evidence) : List (Nat × Rat) :=
  byScore (·.2) (r.scores query evidence)

def unscored (r : Reranker) (query : String) (evidence : List Evidence) (i : Nat) : Bool :=
  ((r.scores query evidence).lookup i).isNone

def order (r : Reranker) (query : String) (evidence : List Evidence) : List Nat :=
  (r.best query evidence).map (·.1) ++
    (List.range evidence.length).filter (r.unscored query evidence)

/-- The passages as the call leaves them. -/
def marked (r : Reranker) (query : String) (evidence : List Evidence) : List Evidence :=
  mark (r.best query evidence) evidence

theorem mark_nil (evidence : List Evidence) : mark [] evidence = evidence := by
  unfold mark
  exact List.zipIdx_map_fst 0 evidence

theorem length_marked : (r.marked query evidence).length = evidence.length := by
  unfold marked mark
  rw [List.length_map, List.length_zipIdx]

theorem order_of_scores_nil (h : r.scores query evidence = []) :
    r.marked query evidence = evidence ∧
      (r.order query evidence).filterMap ((r.marked query evidence)[·]?) = evidence := by
  have hbest : r.best query evidence = [] := by
    unfold best
    rw [h]
    rfl
  have hmarked : r.marked query evidence = evidence := by
    unfold marked
    rw [hbest, mark_nil]
  have horder : r.order query evidence = List.range evidence.length := by
    unfold order unscored
    rw [hbest, h, List.map_nil, List.nil_append]
    exact List.filter_eq_self.2 fun _ _ => rfl
  rw [hmarked, horder]
  exact ⟨rfl, filterMap_range evidence⟩

theorem rerank_ok_iff {limit : Nat} : (∃ out, r.rerank query evidence limit = .ok out) ↔
    ∀ entry ∈ r.entries query evidence, entry.overflows = false := by
  unfold rerank entries
  split
  · simp
  · cases r.generateStructured query evidence with
    | none => simp
    | some data =>
      dsimp only
      rw [Except.exists_map_ok, Option.bind_some]
      unfold apply
      split
      next entry rest hlookup =>
        rw [hlookup, Except.exists_map_ok]
        exact foldlM_addEntry_ok_iff []
      next hother =>
        refine iff_of_true ⟨_, rfl⟩ ?_
        split
        next entries hlookup =>
          cases entries with
          | nil => simp
          | cons entry rest => exact absurd hlookup (hother entry rest)
        next => simp

/-- What the call answers. -/
theorem rerank_eq {limit : Nat}
    (h : ∀ entry ∈ r.entries query evidence, entry.overflows = false) :
    r.rerank query evidence limit =
      .ok (((r.order query evidence).filterMap ((r.marked query evidence)[·]?)).take limit,
        r.marked query evidence) := by
  have hplain (hentries : r.entries query evidence = []) :
      (Except.ok (evidence.take limit, evidence) : Except Raised _) =
        .ok (((r.order query evidence).filterMap ((r.marked query evidence)[·]?)).take limit,
          r.marked query evidence) := by
    have hscores : r.scores query evidence = [] := by
      unfold scores
      rw [hentries]
      rfl
    obtain ⟨hmarked, horder⟩ := order_of_scores_nil hscores
    rw [horder, hmarked]
  unfold rerank
  split
  next hoff =>
    refine hplain ?_
    unfold entries
    rw [if_pos hoff]
  next hon =>
    cases hreply : r.generateStructured query evidence with
    | none =>
      refine hplain ?_
      unfold entries
      rw [if_neg hon, hreply]
      rfl
    | some data =>
      dsimp only
      unfold apply
      split
      next entry rest hlookup =>
        have hentries : r.entries query evidence = entry :: rest := by
          unfold entries
          rw [if_neg hon, hreply, Option.bind_some, hlookup]
        rw [hentries] at h
        have hscores : r.scores query evidence =
            ((entry :: rest).filterMap (mention r.floatText evidence.length)).foldl
              (fun d e => Dict.assign d e.1 e.2) [] := by
          unfold scores
          rw [hentries]
          rfl
        rw [foldlM_addEntry_eq h, ← hscores]
        by_cases hnil : r.scores query evidence = []
        · obtain ⟨hmarked, horder⟩ := order_of_scores_nil hnil
          rw [horder, hmarked, hnil]
          rfl
        · have hempty : (r.scores query evidence).isEmpty = false := by simpa using hnil
          have hunscored := map_filter_zipIdx (r.marked query evidence) (r.unscored query evidence)
          rw [length_marked] at hunscored
          have horder : (r.order query evidence).filterMap ((r.marked query evidence)[·]?) =
              (r.best query evidence).filterMap (fun e => (r.marked query evidence)[e.1]?) ++
                ((r.marked query evidence).zipIdx.filter
                  fun hit => r.unscored query evidence hit.2).map (·.1) := by
            unfold order
            rw [List.filterMap_append, List.filterMap_map, hunscored]
            rfl
          rw [horder]
          show Except.map _ (Except.ok (if (r.scores query evidence).isEmpty = true then _
            else _)) = _
          rw [hempty]
          rfl
      next hother =>
        refine hplain ?_
        unfold entries
        rw [if_neg hon, hreply, Option.bind_some]
        split
        next entries hlookup =>
          cases entries with
          | nil => rfl
          | cons entry rest => exact absurd hlookup (hother entry rest)
        next => rfl

/-! ## The positions -/

theorem nodup_scores : ((r.scores query evidence).map (·.1)).Nodup := by
  have hfills : Dict.Fills (fun e : Nat × Rat => e.1) (fun _ e => e.2)
      fun d e => Dict.assign d e.1 e.2 := .of_cases fun _ _ => .inl rfl
  exact hfills.nodup_foldl _

theorem lt_of_mem_scores {e : Nat × Rat} (h : e ∈ r.scores query evidence) :
    e.1 < evidence.length := by
  obtain ⟨entry, -, hmention⟩ := List.mem_filterMap.1 (Dict.mem_ofItems h)
  unfold mention at hmention
  split at hmention
  next index score hread =>
    split at hmention
    next hindex =>
      obtain rfl := Option.some.inj hmention
      show index.toNat < evidence.length
      omega
    next => cases hmention
  next => cases hmention

theorem best_perm : (r.best query evidence).Perm (r.scores query evidence) :=
  byScore_perm _ _

theorem lookup_scores_iff {i : Nat} {x : Rat} :
    (r.scores query evidence).lookup i = some x ↔ (i, x) ∈ r.best query evidence := by
  rw [Dict.lookup_eq_some_iff nodup_scores, best_perm.mem_iff]

theorem unscored_iff {i : Nat} :
    r.unscored query evidence i = true ↔ i ∉ (r.best query evidence).map (·.1) := by
  rw [(best_perm.map _).mem_iff, ← Dict.lookup_isSome_iff]
  unfold unscored
  cases (r.scores query evidence).lookup i with
  | none => simp
  | some x => simp

theorem order_perm : (r.order query evidence).Perm (List.range evidence.length) := by
  have hnodup : ((r.best query evidence).map (·.1)).Nodup :=
    (best_perm.map _).nodup_iff.2 nodup_scores
  rw [List.perm_ext_iff_of_nodup ?_ List.nodup_range]
  · intro i
    unfold order
    rw [List.mem_append, List.mem_filter, unscored_iff, List.mem_range]
    constructor
    · rintro (hi | hi)
      · obtain ⟨e, he, rfl⟩ := List.mem_map.1 hi
        exact lt_of_mem_scores (best_perm.mem_iff.1 he)
      · exact hi.1
    · intro hi
      by_cases hscored : i ∈ (r.best query evidence).map (·.1)
      · exact .inl hscored
      · exact .inr ⟨hi, hscored⟩
  · unfold order
    rw [List.nodup_append]
    refine ⟨hnodup, List.nodup_range.filter _, fun i hi j hj heq => ?_⟩
    exact unscored_iff.1 (List.mem_filter.1 hj).2 (heq ▸ hi)

def Descends (r : Reranker) (query : String) (evidence : List Evidence) (i j : Nat) : Prop :=
  ∀ x y, (r.scores query evidence).lookup i = some x →
    (r.scores query evidence).lookup j = some y → y ≤ x

theorem pairwise_order : (r.order query evidence).Pairwise (r.Descends query evidence) := by
  unfold order
  rw [List.pairwise_append]
  refine ⟨?_, ?_, ?_⟩
  · rw [List.pairwise_map]
    refine (pairwise_byScore (·.2) (r.scores query evidence)).imp_of_mem ?_
    intro e e' he he' hle x y hx hy
    have hvalue : ∀ {e : Nat × Rat}, e ∈ byScore (·.2) (r.scores query evidence) →
        (r.scores query evidence).lookup e.1 = some e.2 := fun h => lookup_scores_iff.2 h
    rw [hvalue he] at hx
    rw [hvalue he'] at hy
    cases hx
    cases hy
    exact hle
  · refine List.pairwise_of_forall_mem_list fun i hi j hj x y hx _ => ?_
    have hnone := (List.mem_filter.1 hi).2
    unfold unscored at hnone
    rw [hx] at hnone
    cases hnone
  · intro i _ j hj x y _ hy
    have hnone := (List.mem_filter.1 hj).2
    unfold unscored at hnone
    rw [hy] at hnone
    cases hnone

theorem mem_drop_order_iff {limit i : Nat} {x : Rat}
    (hx : (r.scores query evidence).lookup i = some x) :
    i ∈ (r.order query evidence).drop limit ↔ (i, x) ∈ (r.best query evidence).drop limit := by
  have hscored : r.unscored query evidence i ≠ true := by
    unfold unscored
    simp [hx]
  unfold order
  rw [List.drop_append, List.mem_append, ← List.map_drop]
  constructor
  · rintro (hi | hi)
    · obtain ⟨e, he, rfl⟩ := List.mem_map.1 hi
      have hvalue := lookup_scores_iff.2 (List.mem_of_mem_drop he)
      rw [hx] at hvalue
      cases hvalue
      exact he
    · exact absurd (List.mem_filter.1 (List.mem_of_mem_drop hi)).2 hscored
  · exact fun he => .inl (List.mem_map_of_mem (f := (·.1)) he)

/-- The passages that the reply scores past the cut are retrieved in the order of their scores. -/
def BehindDescends (r : Reranker) (query : String) (evidence : List Evidence) (limit : Nat) :
    Prop :=
  ∀ e ∈ (r.best query evidence).drop limit, ∀ e' ∈ (r.best query evidence).drop limit,
    e.1 < e'.1 → e'.2 ≤ e.2

def answerOrder (r : Reranker) (query : String) (evidence : List Evidence) (limit : Nat) :
    List Nat :=
  promote ((r.order query evidence).take limit) (List.range evidence.length)

theorem pairwise_answerOrder_iff {limit : Nat} :
    (r.answerOrder query evidence limit).Pairwise (r.Descends query evidence) ↔
      r.BehindDescends query evidence limit := by
  unfold answerOrder
  rw [pairwise_promote_iff List.nodup_range order_perm pairwise_order,
    pairwise_iff_of_ascending (List.pairwise_lt_range.filter _)]
  have hmem : ∀ i, i ∈ (List.range evidence.length).filter
      (· ∉ (r.order query evidence).take limit) ↔ i ∈ (r.order query evidence).drop limit :=
    fun i => mem_behind_iff List.nodup_range order_perm
  constructor
  · intro h e he e' he' hlt
    have hx := lookup_scores_iff.2 (List.mem_of_mem_drop he)
    have hy := lookup_scores_iff.2 (List.mem_of_mem_drop he')
    exact h e.1 ((hmem _).2 ((mem_drop_order_iff hx).2 he)) e'.1
      ((hmem _).2 ((mem_drop_order_iff hy).2 he')) hlt e.2 e'.2 hx hy
  · intro h i hi j hj hlt x y hx hy
    exact h (i, x) ((mem_drop_order_iff hx).1 ((hmem i).1 hi)) (j, y)
      ((mem_drop_order_iff hy).1 ((hmem j).1 hj)) hlt

/-! ## The passages -/

/-- The call marks an item and leaves the rest of it alone; one without a score it leaves alone. -/
theorem exists_of_marked {i : Nat} {item : Evidence}
    (h : (r.marked query evidence)[i]? = some item) :
    ∃ source, evidence[i]? = some source ∧ item.unmarked = source.unmarked ∧
      (r.unscored query evidence i = true → item = source) ∧
      ∀ x, (r.scores query evidence).lookup i = some x → item.rerankScore = some x := by
  unfold marked mark at h
  rw [List.getElem?_map, List.getElem?_zipIdx, Option.map_map, Option.map_eq_some_iff] at h
  obtain ⟨source, hsource, rfl⟩ := h
  refine ⟨source, hsource, ?_⟩
  rw [Function.comp_apply]
  dsimp only
  split
  next scored score rank hfind =>
    have hindex : scored = i := by simpa using List.find?_some hfind
    have hscore : (r.scores query evidence).lookup i = some score := by
      rw [← hindex]
      exact lookup_scores_iff.2 (List.fst_mem_of_mem_zipIdx (List.mem_of_find?_eq_some hfind))
    refine ⟨rfl, fun hunscored => ?_, fun x hx => ?_⟩
    · unfold unscored at hunscored
      rw [hscore] at hunscored
      cases hunscored
    · rw [hscore] at hx
      exact hx
  next hnone =>
    refine ⟨rfl, fun _ => rfl, fun x hx => ?_⟩
    obtain ⟨rank, hrank⟩ : ∃ rank, ((i, x), rank) ∈ (r.best query evidence).zipIdx 1 := by
      have hmem := lookup_scores_iff.1 hx
      rw [← List.zipIdx_map_fst 1 (r.best query evidence)] at hmem
      obtain ⟨⟨e, rank⟩, he, heq⟩ := List.mem_map.1 hmem
      exact ⟨rank, heq ▸ he⟩
    have hfound := List.find?_eq_none.1 hnone ((i, x), rank) hrank
    simp at hfound

theorem unmarked_marked :
    (r.marked query evidence).map Evidence.unmarked = evidence.map Evidence.unmarked := by
  refine List.ext_getElem? fun i => ?_
  rw [List.getElem?_map, List.getElem?_map]
  cases hitem : (r.marked query evidence)[i]? with
  | none =>
    rw [List.getElem?_eq_none_iff, length_marked] at hitem
    rw [List.getElem?_eq_none hitem]
  | some item =>
    obtain ⟨source, hsource, hunmarked, -⟩ := exists_of_marked hitem
    rw [hsource, Option.map_some, Option.map_some, hunmarked]

theorem keys_marked : (r.marked query evidence).map (·.key) = evidence.map (·.key) := by
  have h : ((r.marked query evidence).map Evidence.unmarked).map (·.key) =
      (evidence.map Evidence.unmarked).map (·.key) := by rw [unmarked_marked]
  rw [List.map_map, List.map_map] at h
  exact h

theorem isSome_marked {i : Nat} (h : i < evidence.length) :
    ((r.marked query evidence)[i]?).isSome = true := by
  rw [List.getElem?_eq_getElem (by rwa [length_marked]), Option.isSome_some]

/-- What the cut leaves out goes back at the end. -/
theorem filter_marked (hkeys : (evidence.map (·.key)).Nodup) {taken : List Nat} :
    (r.marked query evidence).filter (fun item =>
        (taken.filterMap ((r.marked query evidence)[·]?)).all (·.key ≠ item.key)) =
      ((List.range evidence.length).filter (· ∉ taken)).filterMap
        ((r.marked query evidence)[·]?) := by
  have hall := filterMap_range (r.marked query evidence)
  rw [length_marked] at hall
  conv_lhs =>
    arg 2
    rw [← hall]
  refine filter_filterMap_eq fun i _ item hitem => ?_
  rw [Bool.eq_iff_iff, List.all_eq_true, decide_eq_true_eq]
  constructor
  · intro hall hi
    have hself := hall item (List.mem_filterMap.2 ⟨i, hi, hitem⟩)
    exact of_decide_eq_true hself rfl
  · intro hi other hother
    obtain ⟨j, hj, hjother⟩ := List.mem_filterMap.1 hother
    refine decide_eq_true fun hkey => hi ?_
    have hi' : ((r.marked query evidence).map (·.key))[i]? = some item.key := by
      rw [List.getElem?_map, hitem, Option.map_some]
    have hj' : ((r.marked query evidence).map (·.key))[j]? = some item.key := by
      rw [List.getElem?_map, hjother, Option.map_some, hkey]
    rw [keys_marked] at hi' hj'
    obtain ⟨hlt, -⟩ := List.getElem?_eq_some_iff.1 hi'
    rw [(List.getElem?_inj hlt hkeys).1 (hi'.trans hj'.symm)]
    exact hj

/-! ## The answer of the engine -/

/-- The hits of the searches. -/
def primaryOf (evidence : List Evidence) : List Evidence :=
  evidence.filter (·.source ∉ [.neighbour, .graph])

def expansionOf (evidence : List Evidence) : List Evidence :=
  evidence.filter (·.source ∈ [.neighbour, .graph])

def grade (r : Reranker) (query : String) (evidence : List Evidence) (item : Evidence) :
    Option Rat :=
  (r.scores query (primaryOf evidence)).lookup
    (((primaryOf evidence).map (·.key)).idxOf item.key)

/-- `out` is `evidence` in another order: the hits come first, those that the reply scores in the
order of their scores, and those that it does not score in the order of retrieval. -/
structure Reordered (r : Reranker) (query : String) (evidence out : List Evidence) : Prop where
  perm : (out.map Evidence.unmarked).Perm (evidence.map Evidence.unmarked)
  expansionLast : ∃ hits, out = hits ++ expansionOf evidence ∧
    ∀ item ∈ hits, item.source ∉ [EvidenceSource.neighbour, .graph]
  scored : out.Pairwise fun item later => ∀ x y, r.grade query evidence item = some x →
    r.grade query evidence later = some y → y ≤ x
  marks : ∀ item ∈ out, ∀ x, r.grade query evidence item = some x → item.rerankScore = some x
  unscored : ((primaryOf out).filter fun item =>
    (r.grade query evidence item).isNone).Sublist evidence

def answerHits (r : Reranker) (query : String) (evidence : List Evidence) (limit : Nat) :
    List Evidence :=
  (r.answerOrder query evidence limit).filterMap ((r.marked query evidence)[·]?)

theorem expansionOf_eq (h : primaryOf evidence = []) : expansionOf evidence = evidence := by
  unfold primaryOf at h
  rw [List.filter_eq_nil_iff] at h
  refine List.filter_eq_self.2 fun item hitem => ?_
  refine decide_eq_true ?_
  by_contra hsource
  exact h item hitem (decide_eq_true hsource)

theorem rerankPrimary_eq (hkeys : (evidence.map (·.key)).Nodup)
    (hread : ∀ entry ∈ r.entries plan.query (primaryOf evidence), entry.overflows = false) :
    rerankPrimary settings r plan evidence =
      .ok (r.answerHits plan.query (primaryOf evidence)
        (min (primaryOf evidence).length settings.rerankTopK) ++ expansionOf evidence) := by
  have hprimary : ((primaryOf evidence).map (·.key)).Nodup :=
    hkeys.sublist (List.filter_sublist.map _)
  unfold rerankPrimary
  show (if (primaryOf evidence).isEmpty = true then Except.ok evidence else
    Except.map _ (r.rerank plan.query (primaryOf evidence)
      (min (primaryOf evidence).length settings.rerankTopK))) = _
  by_cases hnil : primaryOf evidence = []
  · rw [if_pos (by simpa using hnil), expansionOf_eq hnil, hnil]
    rfl
  · rw [if_neg (by simpa using hnil), rerank_eq hread, take_filterMap]
    · show Except.ok (_ ++ (r.marked plan.query (primaryOf evidence)).filter _ ++ _) = _
      rw [filter_marked hprimary, ← List.filterMap_append]
      rfl
    · intro i hi
      exact isSome_marked (List.mem_range.1 (order_perm.mem_iff.1 hi))

theorem entries_nil : r.entries query [] = [] := by
  unfold entries
  rw [if_pos (by simp)]

theorem read_of_rerankPrimary {out : List Evidence}
    (h : rerankPrimary settings r plan evidence = .ok out) :
    ∀ entry ∈ r.entries plan.query (primaryOf evidence), entry.overflows = false := by
  by_cases hnil : primaryOf evidence = []
  · rw [hnil, entries_nil]
    simp
  · unfold rerankPrimary at h
    change (if (primaryOf evidence).isEmpty = true then Except.ok evidence else
      Except.map _ (r.rerank plan.query (primaryOf evidence)
        (min (primaryOf evidence).length settings.rerankTopK))) = _ at h
    rw [if_neg (by simpa using hnil)] at h
    obtain ⟨reply, hreply, -⟩ := Except.map_eq_ok.1 h
    exact rerank_ok_iff.1 ⟨reply, hreply⟩

/-- The reply grades a hit by its position. -/
theorem grade_of_marked (hkeys : (evidence.map (·.key)).Nodup) {i : Nat} {item : Evidence}
    (h : (r.marked query (primaryOf evidence))[i]? = some item) :
    r.grade query evidence item = (r.scores query (primaryOf evidence)).lookup i := by
  have hprimary : ((primaryOf evidence).map (·.key)).Nodup :=
    hkeys.sublist (List.filter_sublist.map _)
  have hkey : ((primaryOf evidence).map (·.key))[i]? = some item.key := by
    have hsame : (r.marked query (primaryOf evidence)).map (·.key) =
        (primaryOf evidence).map (·.key) := keys_marked
    rw [← hsame, List.getElem?_map, h, Option.map_some]
  obtain ⟨hlt, hget⟩ := List.getElem?_eq_some_iff.1 hkey
  unfold grade
  rw [← hget, hprimary.idxOf_getElem]

theorem grade_of_expansion (hkeys : (evidence.map (·.key)).Nodup) {item : Evidence}
    (h : item ∈ expansionOf evidence) : r.grade query evidence item = none := by
  obtain ⟨hitem, hsource⟩ := List.mem_filter.1 h
  have hnot : item.key ∉ (primaryOf evidence).map (·.key) := by
    intro hmem
    obtain ⟨hit, hhit, hkey⟩ := List.mem_map.1 hmem
    obtain ⟨hhit, hprimary⟩ := List.mem_filter.1 hhit
    rw [Keyed.inj hkeys hhit hitem hkey] at hprimary
    simp only [decide_eq_true_eq] at hsource hprimary
    exact hprimary hsource
  unfold grade
  rw [List.idxOf_eq_length hnot, List.length_map]
  cases hlookup : (r.scores query (primaryOf evidence)).lookup (primaryOf evidence).length with
  | none => rfl
  | some x => exact absurd (lt_of_mem_scores (Dict.mem_of_lookup hlookup)) (Nat.lt_irrefl _)

theorem mem_answerHits {limit : Nat} {item : Evidence}
    (h : item ∈ r.answerHits query evidence limit) :
    ∃ i : Nat, (r.marked query evidence)[i]? = some item := by
  obtain ⟨i, -, hi⟩ := List.mem_filterMap.1 h
  exact ⟨i, hi⟩

theorem answerHits_perm {limit : Nat} :
    ((r.answerHits query evidence limit).map Evidence.unmarked).Perm
      (evidence.map Evidence.unmarked) := by
  have hperm : (r.answerHits query evidence limit).Perm (r.marked query evidence) := by
    have horder : (r.answerOrder query evidence limit).Perm (List.range evidence.length) :=
      promote_perm List.nodup_range order_perm
    have h := horder.filterMap ((r.marked query evidence)[·]?)
    have hall := filterMap_range (r.marked query evidence)
    rw [length_marked] at hall
    rw [hall] at h
    exact h
  have hsame : (r.marked query evidence).map Evidence.unmarked =
      evidence.map Evidence.unmarked := unmarked_marked
  rw [← hsame]
  exact hperm.map _

theorem source_of_mem_answerHits {limit : Nat} {item : Evidence}
    (h : item ∈ r.answerHits query (primaryOf evidence) limit) :
    item.source ∉ [EvidenceSource.neighbour, .graph] := by
  obtain ⟨i, hi⟩ := mem_answerHits h
  obtain ⟨source, hsource, hunmarked, -⟩ := exists_of_marked hi
  have hsame : item.source = source.source := congrArg (·.source) hunmarked
  have hprimary := (List.mem_filter.1 (List.mem_of_getElem? hsource)).2
  rw [hsame]
  exact of_decide_eq_true hprimary

theorem pairwise_answerHits_iff (hkeys : (evidence.map (·.key)).Nodup) {limit : Nat} :
    ((r.answerHits query (primaryOf evidence) limit).Pairwise fun item later =>
      ∀ x y, r.grade query evidence item = some x → r.grade query evidence later = some y → y ≤ x) ↔
      r.BehindDescends query (primaryOf evidence) limit := by
  rw [← pairwise_answerOrder_iff]
  unfold answerHits
  rw [List.pairwise_filterMap]
  have hlt : ∀ i ∈ r.answerOrder query (primaryOf evidence) limit,
      i < (primaryOf evidence).length := fun i hi =>
    List.mem_range.1 ((promote_perm List.nodup_range order_perm).mem_iff.1 hi)
  constructor
  · refine List.Pairwise.imp_of_mem fun {i j} hi hj h x y hx hy => ?_
    obtain ⟨item, hitem⟩ := Option.isSome_iff_exists.1 (isSome_marked (hlt i hi))
    obtain ⟨later, hlater⟩ := Option.isSome_iff_exists.1 (isSome_marked (hlt j hj))
    refine h item hitem later hlater x y ?_ ?_
    · rw [grade_of_marked hkeys hitem, hx]
    · rw [grade_of_marked hkeys hlater, hy]
  · refine List.Pairwise.imp fun {i j} h item hitem later hlater x y hx hy => ?_
    rw [grade_of_marked hkeys hitem] at hx
    rw [grade_of_marked hkeys hlater] at hy
    exact h x y hx hy

theorem filter_answerHits_sublist (hkeys : (evidence.map (·.key)).Nodup) {limit : Nat} :
    ((r.answerHits query (primaryOf evidence) limit).filter fun item =>
      (r.grade query evidence item).isNone).Sublist (primaryOf evidence) := by
  have hpositions : (r.answerOrder query (primaryOf evidence) limit).filter
      (r.unscored query (primaryOf evidence)) =
      (List.range (primaryOf evidence).length).filter (r.unscored query (primaryOf evidence)) := by
    refine filter_promote List.nodup_range fun i hi => ?_
    rw [Bool.eq_false_iff]
    exact fun hunscored => unscored_iff.1 hunscored hi
  have hfilter : (r.answerHits query (primaryOf evidence) limit).filter (fun item =>
        (r.grade query evidence item).isNone) =
      ((List.range (primaryOf evidence).length).filter
        (r.unscored query (primaryOf evidence))).filterMap
          ((r.marked query (primaryOf evidence))[·]?) := by
    rw [← hpositions]
    refine filter_filterMap_eq fun i _ item hitem => ?_
    rw [grade_of_marked hkeys hitem]
    rfl
  -- a hit without a score is the one given
  have hsame : ((List.range (primaryOf evidence).length).filter
        (r.unscored query (primaryOf evidence))).filterMap
          ((r.marked query (primaryOf evidence))[·]?) =
      ((List.range (primaryOf evidence).length).filter
        (r.unscored query (primaryOf evidence))).filterMap ((primaryOf evidence)[·]?) := by
    refine List.filterMap_congr fun i hi => ?_
    obtain ⟨hlt, hunscored⟩ := List.mem_filter.1 hi
    obtain ⟨item, hitem⟩ :=
      Option.isSome_iff_exists.1 (isSome_marked (r := r) (List.mem_range.1 hlt))
    obtain ⟨source, hsource, -, huntouched, -⟩ := exists_of_marked hitem
    show (r.marked query (primaryOf evidence))[i]? = (primaryOf evidence)[i]?
    rw [hitem, hsource, huntouched hunscored]
  rw [hfilter, hsame]
  conv_rhs => rw [← filterMap_range (primaryOf evidence)]
  exact List.filter_sublist.filterMap _

theorem perm_primary_expansion (evidence : List Evidence) :
    (primaryOf evidence ++ expansionOf evidence).Perm evidence := by
  have hexpansion : expansionOf evidence =
      evidence.filter fun item => !decide (item.source ∉ [EvidenceSource.neighbour, .graph]) := by
    refine List.filter_congr fun item _ => ?_
    simp
  rw [hexpansion]
  exact List.filter_append_perm _ evidence

/-- Evidence that is only reordered was scored by entries that can be read, and in order past the
cut. -/
theorem Reordered.condition (hkeys : (evidence.map (·.key)).Nodup) {out : List Evidence}
    (hout : rerankPrimary settings r plan evidence = .ok out)
    (h : Reordered r plan.query evidence out) :
    (∀ entry ∈ r.entries plan.query (primaryOf evidence), entry.overflows = false) ∧
      r.BehindDescends plan.query (primaryOf evidence)
        (min (primaryOf evidence).length settings.rerankTopK) := by
  have hread := read_of_rerankPrimary hout
  rw [rerankPrimary_eq hkeys hread] at hout
  obtain rfl := Except.ok.inj hout
  exact ⟨hread, (pairwise_answerHits_iff hkeys).1 (List.pairwise_append.1 h.scored).1⟩

/-- Re-ranking only reorders the evidence if and only if no entry of the ranking overflows and the
hits that it scores past the cut are retrieved in the order of their scores. -/
theorem reordered_iff (settings : RetrievalSettings) (r : Reranker) (plan : RetrievalPlan)
    (evidence : List Evidence) (hkeys : (evidence.map (·.key)).Nodup) :
    (∃ out, rerankPrimary settings r plan evidence = .ok out ∧
        Reordered r plan.query evidence out) ↔
      (∀ entry ∈ r.entries plan.query (primaryOf evidence), entry.overflows = false) ∧
        r.BehindDescends plan.query (primaryOf evidence)
          (min (primaryOf evidence).length settings.rerankTopK) := by
  constructor
  · exact fun ⟨out, hout, h⟩ => h.condition hkeys hout
  · intro ⟨hread, hbehind⟩
    refine ⟨_, rerankPrimary_eq hkeys hread, ?_⟩
    constructor
    case perm =>
      rw [List.map_append]
      refine (answerHits_perm.append_right _).trans ?_
      rw [← List.map_append]
      exact (perm_primary_expansion evidence).map _
    case expansionLast => exact ⟨_, rfl, fun item hitem => source_of_mem_answerHits hitem⟩
    case scored =>
      rw [List.pairwise_append]
      refine ⟨(pairwise_answerHits_iff hkeys).2 hbehind, ?_, ?_⟩
      · refine List.pairwise_of_forall_mem_list fun item hitem later _ x y hx _ => ?_
        rw [grade_of_expansion hkeys hitem] at hx
        cases hx
      · intro item _ later hlater x y _ hy
        rw [grade_of_expansion hkeys hlater] at hy
        cases hy
    case marks =>
      intro item hitem x hx
      rcases List.mem_append.1 hitem with hitem | hitem
      · obtain ⟨i, hi⟩ := mem_answerHits hitem
        rw [grade_of_marked hkeys hi] at hx
        obtain ⟨source, -, -, -, hmarks⟩ := exists_of_marked hi
        exact hmarks x hx
      · rw [grade_of_expansion hkeys hitem] at hx
        cases hx
    case unscored =>
      generalize min (primaryOf evidence).length settings.rerankTopK = limit
      have hprimary : primaryOf (r.answerHits plan.query (primaryOf evidence) limit ++
          expansionOf evidence) = r.answerHits plan.query (primaryOf evidence) limit := by
        have hhits : primaryOf (r.answerHits plan.query (primaryOf evidence) limit) =
            r.answerHits plan.query (primaryOf evidence) limit :=
          List.filter_eq_self.2 fun item hitem =>
            decide_eq_true (source_of_mem_answerHits hitem)
        have hnone : primaryOf (expansionOf evidence) = [] := by
          refine List.filter_eq_nil_iff.2 fun item hitem hsource => ?_
          exact of_decide_eq_true hsource (of_decide_eq_true (List.mem_filter.1 hitem).2)
        have happend : primaryOf (r.answerHits plan.query (primaryOf evidence) limit ++
            expansionOf evidence) =
            primaryOf (r.answerHits plan.query (primaryOf evidence) limit) ++
              primaryOf (expansionOf evidence) := List.filter_append ..
        rw [happend, hhits, hnone, List.append_nil]
      rw [hprimary]
      exact (filter_answerHits_sublist hkeys).trans List.filter_sublist

namespace RerankSample

def passage (refId : Uuid) (source : EvidenceSource) : Evidence :=
  { level := .chunk, refId, contractId := 1, projectId := 1, text := "the rent", score := 0,
    source }

def passages : List Evidence :=
  [passage 1 .vector, passage 4 .neighbour, passage 2 .fused, passage 3 .keyword]

def entry (index : Loaded) (score : Rat) : Loaded :=
  .dict [("index", index), ("score", .float (.finite score))]

def ranks (ranking : List Loaded) : Reranker where
  enabled := true
  generateStructured _ _ := some [("ranking", .list ranking)]
  floatText _ := none

def topOne : RetrievalSettings := { Sample.defaults with rerankTopK := 1 }

def ranking : List Loaded := [entry (.int 2) (9 / 10), entry (.int 0) (1 / 5)]

/-- The hits past the best one are retrieved worst first. -/
def misordered : List Loaded :=
  [entry (.int 0) (9 / 10), entry (.int 1) (1 / 5), entry (.int 2) (1 / 2)]

def infinite : List Loaded := [entry (.int 0) (9 / 10), entry (.float (.infinite false)) (1 / 2)]

end RerankSample

/-- Three hits of which two are scored. -/
theorem reordered_pair :
    ∃ out, rerankPrimary RerankSample.topOne (RerankSample.ranks RerankSample.ranking)
        Sample.ndaPlan RerankSample.passages = .ok out ∧
      Reordered (RerankSample.ranks RerankSample.ranking) Sample.ndaPlan.query
        RerankSample.passages out := by
  refine (reordered_iff _ _ _ _ (by decide)).2 ⟨by decide, ?_⟩
  intro e he e' he' hlt
  have hcut : ((RerankSample.ranks RerankSample.ranking).best Sample.ndaPlan.query
      (primaryOf RerankSample.passages)).drop 1 = [(0, 1 / 5)] := by decide +kernel
  have hlimit : min (primaryOf RerankSample.passages).length RerankSample.topOne.rerankTopK = 1 := by
    decide
  rw [hlimit, hcut] at he he'
  rw [List.mem_singleton.1 he, List.mem_singleton.1 he'] at hlt
  exact absurd hlt (Nat.lt_irrefl _)

/-- An infinite index makes re-ranking raise, and hits past the cut come in the order of retrieval.
-/
theorem reply_misleads :
    (¬ ∃ out, rerankPrimary RerankSample.topOne (RerankSample.ranks RerankSample.infinite)
        Sample.ndaPlan RerankSample.passages = .ok out) ∧
      ¬ ∃ out, rerankPrimary RerankSample.topOne (RerankSample.ranks RerankSample.misordered)
          Sample.ndaPlan RerankSample.passages = .ok out ∧
        Reordered (RerankSample.ranks RerankSample.misordered) Sample.ndaPlan.query
          RerankSample.passages out := by
  refine ⟨fun ⟨out, hout⟩ => ?_, fun ⟨out, hout, h⟩ => ?_⟩
  · have hread := read_of_rerankPrimary hout
    have hentries : (RerankSample.ranks RerankSample.infinite).entries Sample.ndaPlan.query
        (primaryOf RerankSample.passages) = RerankSample.infinite := rfl
    rw [hentries] at hread
    exact absurd (hread (RerankSample.entry (.float (.infinite false)) (1 / 2))
      (List.mem_cons_of_mem _ List.mem_cons_self)) (by decide)
  · have hbehind := (h.condition (by decide) hout).2
    have hlimit : min (primaryOf RerankSample.passages).length
        RerankSample.topOne.rerankTopK = 1 := by decide
    rw [hlimit] at hbehind
    have hle := hbehind (1, 1 / 5) (by decide +kernel) (2, 1 / 2) (by decide +kernel) (by decide)
    exact absurd hle (by decide +kernel)

end Reranker

end Retrieval

end Clear
