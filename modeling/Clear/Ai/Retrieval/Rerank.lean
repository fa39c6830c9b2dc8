import Clear.Ai.Retrieval.Evidence
import Clear.Core.Stdlib
import Clear.Lib.Except
import Clear.Models.Processing

/-!
# Re-ranking

`app/ai/retrieval/rerank.py`: the no-op re-ranker and the one that lets a model score the passages.
`apply` reads the model's answer; whatever it says, the result is a rearrangement of items that were
there.
-/

namespace Clear

namespace Retrieval

/-- A `float`. -/
inductive Double where
  | finite (x : Rat)
  | infinite (negative : Bool)
  | nan

/-- What `json.loads` answers. -/
inductive Loaded where
  | null
  | bool (b : Bool)
  | int (n : Int)
  | float (x : Double)
  | str (s : String)
  | list (l : List Loaded)
  | dict (d : List (String × Loaded))

def Double.clamp : Double → Rat
  | finite x => max 0 (min x 1)
  | infinite negative => if negative then 0 else 1
  -- `min` answers its first argument, as no comparison with it holds, and then `max` does
  | nan => 0

namespace Loaded

def toInt : Loaded → Except FloatError Int
  | bool b => .ok (if b then 1 else 0)
  | int n => .ok n
  | float (.finite x) => .ok (x.num.tdiv x.den)
  | float (.infinite _) => .error .overflowError
  | float .nan => .error .valueError
  | str s =>
    match Text.toInt? s with
    | some n => .ok n
    | none => .error .valueError
  | _ => .error .typeError

def toDouble (floatText : String → Option Double) : Loaded → Except FloatError Double
  | bool b => .ok (.finite (if b then 1 else 0))
  | int n =>
    if n.natAbs < Value.floatBound then .ok (.finite (Value.nearest n)) else .error .overflowError
  | float x => .ok x
  | str s =>
    match floatText s with
    | some x => .ok x
    | none => .error .valueError
  | _ => .error .typeError

end Loaded

/-- The re-ranker: no-op unless enabled, and the model's structured answer for a question and a list
of passages, absent where the call fails. -/
structure Reranker where
  enabled : Bool
  generateStructured : (query : String) → List Evidence → Option (List (String × Loaded))
  /-- The number that `float` reads from a text. -/
  floatText : String → Option Double

namespace Reranker

def uncaught : FloatError → Except Raised (Option (Int × Rat))
  | .overflowError => .error (.other "OverflowError")
  | _ => .ok none

/-- Index and score of one entry of the ranking; entries of another form are skipped. -/
def readEntry (floatText : String → Option Double) (entry : Loaded) :
    Except Raised (Option (Int × Rat)) :=
  match entry with
  | .dict d =>
    match d.lookup "index" with
    | none => .ok none
    | some index =>
      match index.toInt with
      | .error e => uncaught e
      | .ok index =>
        match d.lookup "score" with
        | none => .ok none
        | some score =>
          match score.toDouble floatText with
          | .error e => uncaught e
          | .ok score => .ok (some (index, score.clamp))
  | _ => .ok none

def addEntry (floatText : String → Option Double) (count : Nat) (scores : List (Nat × Rat))
    (entry : Loaded) : Except Raised (List (Nat × Rat)) :=
  (readEntry floatText entry).map fun read =>
    match read with
    | none => scores
    | some (index, score) =>
      if 0 ≤ index ∧ index < count then Dict.assign scores index.toNat score else scores

def mark (scored : List (Nat × Rat)) (evidence : List Evidence) : List Evidence :=
  evidence.zipIdx.map fun (item, index) =>
    match (scored.zipIdx 1).find? (·.1.1 = index) with
    | some ((_, score), rank) => { item with rerankScore := some score, rank }
    | none => item

/-- Re-order by the returned scores, keeping unscored items behind them: the new order, and the
items as they are then. -/
def apply (floatText : String → Option Double) (data : List (String × Loaded))
    (evidence : List Evidence) : Except Raised (List Evidence × List Evidence) :=
  match data.lookup "ranking" with
  | some (.list (entry :: entries)) =>
    ((entry :: entries).foldlM (addEntry floatText evidence.length) []).map fun scores =>
      if scores.isEmpty then (evidence, evidence)
      else
        let scored := byScore (·.2) scores
        let marked := mark scored evidence
        (scored.filterMap (fun (index, _) => marked[index]?) ++
          (marked.zipIdx.filter fun (_, index) => (scores.lookup index).isNone).map (·.1), marked)
  | _ => .ok (evidence, evidence)

/-- `apply_reranker`: the new order, cut to the limit, and the items as they are then. -/
def rerank (r : Reranker) (query : String) (evidence : List Evidence) (limit : Nat) :
    Except Raised (List Evidence × List Evidence) :=
  if !r.enabled || evidence.length ≤ 1 then .ok (evidence.take limit, evidence)
  else
    match r.generateStructured query evidence with
    | none => .ok (evidence.take limit, evidence)
    | some data =>
      (apply r.floatText data evidence).map fun (ordered, marked) => (ordered.take limit, marked)

theorem origin_of_mem_mark {scored : List (Nat × Rat)} {evidence : List Evidence} {item : Evidence}
    (h : item ∈ mark scored evidence) : ∃ source ∈ evidence, source.origin = item.origin := by
  unfold mark at h
  obtain ⟨⟨source, index⟩, hsource, rfl⟩ := List.mem_map.1 h
  refine ⟨source, List.fst_mem_of_mem_zipIdx hsource, ?_⟩
  dsimp only
  split <;> rfl

theorem origin_of_mem_apply {floatText : String → Option Double} {data : List (String × Loaded)}
    {evidence : List Evidence} {out : List Evidence × List Evidence} {item : Evidence}
    (h : apply floatText data evidence = .ok out) (hitem : item ∈ out.1 ∨ item ∈ out.2) :
    ∃ source ∈ evidence, source.origin = item.origin := by
  unfold apply at h
  split at h
  · obtain ⟨scores, -, rfl⟩ := Except.map_eq_ok.1 h
    split at hitem
    · exact ⟨item, hitem.elim id id, rfl⟩
    · have hmarked : item ∈ mark (byScore (·.2) scores) evidence := by
        rcases hitem with hitem | hitem
        · rcases List.mem_append.1 hitem with hitem | hitem
          · obtain ⟨⟨index, score⟩, -, hmap⟩ := List.mem_filterMap.1 hitem
            exact List.mem_of_getElem? hmap
          · obtain ⟨⟨source, index⟩, hmem, rfl⟩ := List.mem_map.1 hitem
            exact List.fst_mem_of_mem_zipIdx (List.mem_filter.1 hmem).1
        · exact hitem
      exact origin_of_mem_mark hmarked
  · cases h
    exact ⟨item, hitem.elim id id, rfl⟩

theorem origin_of_mem_rerank {r : Reranker} {query : String} {evidence : List Evidence}
    {out : List Evidence × List Evidence} {limit : Nat} {item : Evidence}
    (h : rerank r query evidence limit = .ok out) (hitem : item ∈ out.1 ∨ item ∈ out.2) :
    ∃ source ∈ evidence, source.origin = item.origin := by
  unfold rerank at h
  split at h
  · cases h
    exact ⟨item, hitem.elim List.mem_of_mem_take id, rfl⟩
  · split at h
    · cases h
      exact ⟨item, hitem.elim List.mem_of_mem_take id, rfl⟩
    · obtain ⟨out', hout', rfl⟩ := Except.map_eq_ok.1 h
      exact origin_of_mem_apply hout' (hitem.imp_left List.mem_of_mem_take)

end Reranker

end Retrieval

end Clear
