import Clear.Ai.Retrieval.Assembler
import Clear.Ai.Retrieval.Proof.Scope
import Mathlib.Algebra.Order.BigOperators.Group.List

/-!
# Accounting of the context

What `assemble` cites, counts and spends. The passages are accounted for in every package; the rows
of the facts table beyond the first 25 are left out without being counted (`package_accounted_iff`).
-/

namespace Clear

namespace Retrieval

def passageCost (text : String) : Nat := estimateTokens text + 30

def ContextPackage.baseCost (std : Stdlib) (package : ContextPackage) : Nat :=
  estimateTokens (String.ofList (Fragment.chars (package.renderMetadata std))) +
    (package.history.map Turn.cost).sum

def citationsCost (citations : List Citation) : Nat :=
  (citations.map fun c => passageCost c.text).sum

/-! ## The loop -/

section

variable {budget maxCitations : Nat} {state : Admission} {item : Evidence} {items : List Evidence}

/-- An item is passed over, counted or cited; past the guaranteed minimum it is cited only if it
fits. -/
theorem admitItem_cases (budget maxCitations : Nat) (state : Admission) (item : Evidence) :
    admitItem budget maxCitations state item = state ∧ Text.strip item.text = "" ∨
      admitItem budget maxCitations state item = { state with dropped := state.dropped + 1 } ∨
      admitItem budget maxCitations state item =
          { state with
            citations := state.citations ++ [item.citation (state.citations.length + 1)]
            spent := state.spent + passageCost (Text.strip item.text) } ∧
        (minItems ≤ state.citations.length →
          passageCost (Text.strip item.text) ≤ budget / 4 ∧
            state.spent + passageCost (Text.strip item.text) ≤ budget) := by
  unfold admitItem
  dsimp only
  split
  · exact .inr (.inl rfl)
  · split
    next hblank => exact .inl ⟨rfl, hblank⟩
    next =>
      split
      · exact .inr (.inl rfl)
      next hfits =>
        refine .inr (.inr ⟨rfl, fun hmin => ?_⟩)
        simp only [Bool.and_eq_true, Bool.or_eq_true, decide_eq_true_eq] at hfits
        unfold passageCost
        omega

/-- The passages at whose turn the loop counts one as dropped. -/
def leftOut (budget maxCitations : Nat) : Admission → List Evidence → List Evidence
  | _, [] => []
  | state, item :: items =>
    let next := admitItem budget maxCitations state item
    if next.dropped = state.dropped then leftOut budget maxCitations next items
    else item :: leftOut budget maxCitations next items

/-- How a run of the loop accounts for the items: those cited, and blank ones that are passed over
(the others are `leftOut`). -/
structure Run (budget maxCitations : Nat) (state : Admission) (items : List Evidence)
    (cited blank : List Evidence) (final : Admission) : Prop where
  citations : final.citations = state.citations ++
    (cited.zipIdx (state.citations.length + 1)).map fun hit => hit.1.citation hit.2
  perm : (cited ++ leftOut budget maxCitations state items ++ blank).Perm items
  blank : ∀ item ∈ blank, Text.strip item.text = ""
  dropped : final.dropped = state.dropped + (leftOut budget maxCitations state items).length
  spent : final.spent = state.spent + (cited.map fun item => passageCost (Text.strip item.text)).sum
  fits : ∀ before item after, cited = before ++ item :: after →
    minItems ≤ state.citations.length + before.length →
      passageCost (Text.strip item.text) ≤ budget / 4 ∧
        state.spent + ((before ++ [item]).map fun item => passageCost (Text.strip item.text)).sum ≤
          budget

variable {cited blank : List Evidence} {final : Admission}

theorem Run.skip (h : Run budget maxCitations state items cited blank final)
    (hitem : admitItem budget maxCitations state item = state)
    (hblank : Text.strip item.text = "") :
    Run budget maxCitations state (item :: items) cited (item :: blank) final := by
  have hleft : leftOut budget maxCitations state (item :: items) =
      leftOut budget maxCitations state items := by
    rw [leftOut, hitem, if_pos rfl]
  constructor
  case citations => exact h.citations
  case perm =>
    rw [hleft]
    exact List.perm_middle.trans (h.perm.cons item)
  case blank =>
    intro e he
    rcases List.mem_cons.1 he with rfl | he
    · exact hblank
    · exact h.blank e he
  case dropped =>
    rw [hleft]
    exact h.dropped
  case spent => exact h.spent
  case fits => exact h.fits

theorem Run.drop
    (h : Run budget maxCitations { state with dropped := state.dropped + 1 } items cited blank
      final)
    (hitem : admitItem budget maxCitations state item =
      { state with dropped := state.dropped + 1 }) :
    Run budget maxCitations state (item :: items) cited blank final := by
  have hleft : leftOut budget maxCitations state (item :: items) =
      item :: leftOut budget maxCitations { state with dropped := state.dropped + 1 } items := by
    rw [leftOut, hitem, if_neg (by simp)]
  constructor
  case citations => exact h.citations
  case perm =>
    rw [hleft, List.append_assoc, List.cons_append]
    refine List.perm_middle.trans ?_
    rw [← List.append_assoc]
    exact h.perm.cons item
  case blank => exact h.blank
  case dropped =>
    rw [hleft, h.dropped, List.length_cons]
    show state.dropped + 1 + _ = _
    omega
  case spent => exact h.spent
  case fits => exact h.fits

theorem Run.cite
    (h : Run budget maxCitations
      { state with
        citations := state.citations ++ [item.citation (state.citations.length + 1)]
        spent := state.spent + passageCost (Text.strip item.text) } items cited blank final)
    (hitem : admitItem budget maxCitations state item =
      { state with
        citations := state.citations ++ [item.citation (state.citations.length + 1)]
        spent := state.spent + passageCost (Text.strip item.text) })
    (hfits : minItems ≤ state.citations.length →
      passageCost (Text.strip item.text) ≤ budget / 4 ∧
        state.spent + passageCost (Text.strip item.text) ≤ budget) :
    Run budget maxCitations state (item :: items) (item :: cited) blank final := by
  have hleft : leftOut budget maxCitations state (item :: items) =
      leftOut budget maxCitations
        { state with
          citations := state.citations ++ [item.citation (state.citations.length + 1)]
          spent := state.spent + passageCost (Text.strip item.text) } items := by
    rw [leftOut, hitem, if_pos rfl]
  constructor
  case citations =>
    rw [h.citations, List.zipIdx_cons, List.map_cons, List.append_assoc, List.singleton_append,
      List.length_append, List.length_singleton]
  case perm =>
    rw [hleft]
    exact h.perm.cons item
  case blank => exact h.blank
  case dropped =>
    rw [hleft]
    exact h.dropped
  case spent =>
    rw [h.spent, List.map_cons, List.sum_cons]
    show state.spent + _ + _ = _
    omega
  case fits =>
    intro before e after heq hmin
    cases before with
    | nil =>
      obtain ⟨rfl, -⟩ := List.cons_eq_cons.1 heq
      simpa using hfits hmin
    | cons first before =>
      obtain ⟨rfl, hrest⟩ := List.cons_eq_cons.1 heq
      have hlater := h.fits before e after hrest (by simp at hmin ⊢; omega)
      refine ⟨hlater.1, ?_⟩
      rw [List.cons_append, List.map_cons, List.sum_cons, ← Nat.add_assoc]
      exact hlater.2

theorem exists_run (budget maxCitations : Nat) (items : List Evidence) (state : Admission) :
    ∃ cited blank, Run budget maxCitations state items cited blank
      (items.foldl (admitItem budget maxCitations) state) := by
  induction items generalizing state with
  | nil =>
    refine ⟨[], [], ?_⟩
    constructor <;> simp [leftOut]
  | cons item items ih =>
    obtain ⟨cited, blank, hrun⟩ := ih (admitItem budget maxCitations state item)
    rw [List.foldl_cons]
    rcases admitItem_cases budget maxCitations state item with
      ⟨hitem, hblank⟩ | hitem | ⟨hitem, hfits⟩
    · rw [hitem] at hrun ⊢
      exact ⟨cited, item :: blank, hrun.skip hitem hblank⟩
    · rw [hitem] at hrun ⊢
      exact ⟨cited, blank, hrun.drop hitem⟩
    · rw [hitem] at hrun ⊢
      exact ⟨item :: cited, blank, hrun.cite hitem hfits⟩

end

/-! ## The package -/

/-- The passages that a package of these counts as dropped. -/
def uncited (std : Stdlib) (budget maxCitations : Nat) (intent : QueryIntent) (retrieval : Result)
    (package : ContextPackage) : List Evidence :=
  leftOut budget maxCitations { spent := package.baseCost std }
    (prioritise retrieval.evidence intent)

/-- The package accounts for what it was made of: the passages that it cites, the ones it leaves
out, the rows of the facts table and the tokens. -/
structure Accounted (std : Stdlib) (budget maxCitations : Nat) (intent : QueryIntent)
    (retrieval : Result) (package : ContextPackage) : Prop where
  labels : package.citations.map (·.label) = List.range' 1 package.citations.length
  passages : ∃ cited blank,
    (cited ++ uncited std budget maxCitations intent retrieval package ++ blank).Perm
        retrieval.evidence ∧
      package.citations = (cited.zipIdx 1).map (fun hit => hit.1.citation hit.2) ∧
      ∀ item ∈ blank, Text.strip item.text = ""
  counted : package.dropped = (uncited std budget maxCitations intent retrieval package).length +
    (retrieval.metadataRows.length - package.metadataRows.length)
  reported : package.dropped ≠ 0 → droppedWarning package.dropped ∈ package.warnings
  estimate : package.tokenEstimate = package.baseCost std + citationsCost package.citations
  fits : ∀ before c after, package.citations = before ++ c :: after → minItems ≤ before.length →
    passageCost c.text ≤ budget / 4 ∧
      package.baseCost std + citationsCost (before ++ [c]) ≤ budget

section

variable {std : Stdlib} {budget maxCitations : Nat} {query : String} {intent : QueryIntent}
  {retrieval : Result} {history : List Turn} {package : ContextPackage}

theorem assemble_run
    (h : assemble std budget query intent retrieval history maxCitations = package) :
    ∃ cited blank, Run budget maxCitations { spent := package.baseCost std }
      (prioritise retrieval.evidence intent) cited blank
      { citations := package.citations, dropped := package.dropped,
        spent := package.tokenEstimate } := by
  subst h
  exact exists_run budget maxCitations (prioritise retrieval.evidence intent) _

theorem assemble_metadataRows
    (h : assemble std budget query intent retrieval history maxCitations = package) :
    package.metadataRows = (retrieval.metadataRows.take 25).map (.ofCandidate std) := by
  subst h
  rfl

theorem assemble_reported
    (h : assemble std budget query intent retrieval history maxCitations = package)
    (hdropped : package.dropped ≠ 0) : droppedWarning package.dropped ∈ package.warnings := by
  subst h
  unfold assemble at hdropped ⊢
  dsimp only at hdropped ⊢
  rw [if_neg hdropped]
  simp

/-- The loop counts the passages that it leaves out, and nothing else. -/
theorem dropped_eq
    (h : assemble std budget query intent retrieval history maxCitations = package) :
    package.dropped = (uncited std budget maxCitations intent retrieval package).length := by
  obtain ⟨cited, blank, hrun⟩ := assemble_run h
  have hdropped := hrun.dropped
  rwa [Nat.zero_add] at hdropped

/-- Rows that are left out of the facts table are not counted. -/
theorem Accounted.rows
    (haccounted : Accounted std budget maxCitations intent retrieval package)
    (h : assemble std budget query intent retrieval history maxCitations = package) :
    retrieval.metadataRows.length ≤ 25 := by
  have hcounted := haccounted.counted
  rw [dropped_eq h, assemble_metadataRows h, List.length_map, List.length_take] at hcounted
  omega

/-- A package accounts for what it was made of if and only if retrieval found at most 25 rows of
facts. -/
theorem package_accounted_iff (std : Stdlib) (budget : Nat) (query : String) (intent : QueryIntent)
    (retrieval : Result) (history : List Turn) (maxCitations : Nat) :
    Accounted std budget maxCitations intent retrieval
        (assemble std budget query intent retrieval history maxCitations) ↔
      retrieval.metadataRows.length ≤ 25 := by
  generalize h : assemble std budget query intent retrieval history maxCitations = package
  refine ⟨fun haccounted => haccounted.rows h, fun hrows => ?_⟩
  obtain ⟨cited, blank, hrun⟩ := assemble_run h
  have hcitations : package.citations = (cited.zipIdx 1).map fun hit => hit.1.citation hit.2 :=
    hrun.citations
  have hcosts : ∀ items : List Evidence, ∀ first,
      citationsCost ((items.zipIdx first).map fun hit => hit.1.citation hit.2) =
        (items.map fun item => passageCost (Text.strip item.text)).sum := by
    intro items
    induction items with
    | nil => exact fun _ => rfl
    | cons item items ih =>
      intro first
      have hrest := ih (first + 1)
      unfold citationsCost at hrest ⊢
      rw [List.zipIdx_cons, List.map_cons, List.map_cons, List.sum_cons, hrest, List.map_cons,
        List.sum_cons]
      rfl
  constructor
  case labels =>
    rw [hcitations, List.map_map, List.length_map, List.length_zipIdx]
    exact List.zipIdx_map_snd 1 cited
  case passages =>
    exact ⟨cited, blank, hrun.perm.trans (List.perm_insertionSort _ _), hcitations, hrun.blank⟩
  case counted =>
    rw [dropped_eq h, assemble_metadataRows h, List.length_map, List.length_take]
    omega
  case reported => exact assemble_reported h
  case estimate =>
    rw [hcitations, hcosts]
    exact hrun.spent
  case fits =>
    intro before c after heq hmin
    rw [hcitations] at heq
    have hlength := congrArg List.length heq
    simp only [List.length_map, List.length_zipIdx, List.length_append, List.length_cons] at hlength
    have hlt : before.length < cited.length := by omega
    have hcited : cited = cited.take before.length ++
        cited[before.length] :: cited.drop (before.length + 1) := by
      rw [List.getElem_cons_drop, List.take_append_drop]
    have htake : (cited.take before.length).length = before.length := by
      rw [List.length_take]
      omega
    have hfits := hrun.fits _ _ _ hcited (by rw [htake]; simpa using hmin)
    -- the citations split where the items that are cited do
    rw [hcited, List.zipIdx_append, List.zipIdx_cons, List.map_append, List.map_cons] at heq
    obtain ⟨hbefore, hrest⟩ := List.append_inj heq (by simp [htake])
    obtain ⟨hc, -⟩ := List.cons_eq_cons.1 hrest
    have htext : c.text = Text.strip cited[before.length].text := by
      rw [← hc]
      rfl
    rw [htext]
    refine ⟨hfits.1, ?_⟩
    have hcost : citationsCost (before ++ [c]) =
        ((cited.take before.length ++ [cited[before.length]]).map fun item =>
          passageCost (Text.strip item.text)).sum := by
      have hbeforeCost := hcosts (cited.take before.length) 1
      rw [hbefore] at hbeforeCost
      unfold citationsCost at hbeforeCost ⊢
      rw [List.map_append, List.sum_append, hbeforeCost, List.map_append, List.sum_append]
      simp [htext]
    rw [hcost]
    exact hfits.2

end

def factsOnly : Result where
  metadataRows := (Sample.contracts 25).map fun c => (ContractMetadata.new c.id 1 [], c)

/-- The 26th contract is left out, and nothing says so. -/
theorem facts_left_out :
    ¬ Accounted .ascii 4000 20 .metadataLookup factsOnly
        (assemble .ascii 4000 "Which contracts are NDAs?" .metadataLookup factsOnly [] 20) ∧
      (assemble .ascii 4000 "Which contracts are NDAs?" .metadataLookup factsOnly [] 20).dropped =
        0 :=
  ⟨fun h => absurd (h.rows rfl) (by decide), rfl⟩

end Retrieval

end Clear
