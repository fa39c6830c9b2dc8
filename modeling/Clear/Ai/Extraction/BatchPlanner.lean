import Clear.Lib.Rounding
import Clear.Lib.SeededGroups
import Mathlib.Algebra.BigOperators.Group.Finset.Basic
import Mathlib.Algebra.Order.BigOperators.Group.Finset
import Mathlib.Data.String.Basic

/-!
# The batch plan is a constrained partition

The tokens of a batch only grow with it, so a clause that was refused for the budget stays refused;
and the order of the clauses is total, so the plan does not depend on the order of the input.

* `planBatches_spec`: the plan is a partition that keeps every constraint, and the same for every
  permutation.
-/

/-!
## Batches of clause categories

`plan_batches` (`app/ai/extraction/batch_planner.py`): clause categories that read the same evidence
are grouped around seeds, in the order of priority and key. Token shares are exact rationals.
-/

namespace Clear

structure PlannedClause where
  key : String
  priority : Int
  chunkIds : Finset String
  evidenceTokens : Int

/-- Clauses that will share one extraction call. -/
structure Batch where
  clauses : List PlannedClause

namespace Batch

/-- Union: what the merged prompt would actually carry. -/
def chunkIds (b : Batch) : Finset String := b.clauses.foldl (fun union c => union ∪ c.chunkIds) ∅

def share (c : PlannedClause) : Rat := c.evidenceTokens / c.chunkIds.card

def perChunk (b : Batch) (chunkId : String) : Rat :=
  b.clauses.foldl (fun best c => if chunkId ∈ c.chunkIds then max best (share c) else best) 0

def evidenceTokens (b : Batch) : Int :=
  Rounding.halfEven (∑ chunkId ∈ b.chunkIds, b.perChunk chunkId)

end Batch

namespace BatchPlanner

def defaultMaxBatch : Int := 5

def defaultMinOverlap : Rat := 1 / 2

/-- Overlap of two evidence sets. -/
def jaccard (left right : Finset String) : Rat :=
  if left = ∅ ∧ right = ∅ then 0
  else if left ∪ right = ∅ then 0
  else ((left ∩ right).card : Rat) / (left ∪ right).card

def clauseLe (a b : PlannedClause) : Bool :=
  a.priority < b.priority || (a.priority = b.priority && a.key ≤ b.key)

def admits (minOverlap : Rat) (evidenceBudget : Int) (seed : PlannedClause)
    (batch : List PlannedClause) (candidate : PlannedClause) : Bool :=
  minOverlap ≤ jaccard seed.chunkIds candidate.chunkIds &&
    (Batch.mk (batch ++ [candidate])).evidenceTokens ≤ evidenceBudget

def planBatches (clauses : List PlannedClause) (evidenceBudget : Int)
    (maxBatch : Int := defaultMaxBatch) (minOverlap : Rat := defaultMinOverlap) :
    Except String (List Batch) :=
  if maxBatch < 1 then .error "max_batch must be at least 1"
  else if ¬ (0 ≤ minOverlap ∧ minOverlap ≤ 1) then .error "min_overlap must be between 0 and 1"
  else
    .ok ((SeededGroups.groups (·.key) maxBatch.toNat (admits minOverlap evidenceBudget)
      (clauses.mergeSort clauseLe)).map Batch.mk)

end BatchPlanner

end Clear

namespace Clear

namespace Batch

variable {l l' : List PlannedClause} {chunkId : String}

theorem mem_chunkIds : chunkId ∈ (mk l).chunkIds ↔ ∃ c ∈ l, chunkId ∈ c.chunkIds := by
  have hfold : ∀ (l : List PlannedClause) (union : Finset String),
      chunkId ∈ l.foldl (fun union c => union ∪ c.chunkIds) union ↔
        chunkId ∈ union ∨ ∃ c ∈ l, chunkId ∈ c.chunkIds := by
    intro l
    induction l with
    | nil => simp
    | cons c l ih =>
      intro union
      rw [List.foldl_cons, ih, Finset.mem_union, List.exists_mem_cons_iff, or_assoc]
  unfold chunkIds
  rw [hfold]
  simp

theorem perChunk_le_iff {bound : Rat} : (mk l).perChunk chunkId ≤ bound ↔
    0 ≤ bound ∧ ∀ c ∈ l, chunkId ∈ c.chunkIds → share c ≤ bound := by
  have hfold : ∀ (l : List PlannedClause) (best : Rat),
      l.foldl (fun best c => if chunkId ∈ c.chunkIds then max best (share c) else best) best ≤
        bound ↔ best ≤ bound ∧ ∀ c ∈ l, chunkId ∈ c.chunkIds → share c ≤ bound := by
    intro l
    induction l with
    | nil => simp
    | cons c l ih =>
      intro best
      rw [List.foldl_cons, ih, List.forall_mem_cons]
      split
      next hcited => rw [max_le_iff, and_assoc]; simp [hcited]
      next hcited => simp [hcited]
  exact hfold l 0

theorem perChunk_nonneg : 0 ≤ (mk l).perChunk chunkId :=
  (perChunk_le_iff.1 (le_refl _)).1

theorem perChunk_mono (h : l ⊆ l') : (mk l).perChunk chunkId ≤ (mk l').perChunk chunkId := by
  obtain ⟨hpos, hshares⟩ := perChunk_le_iff.1 (le_refl ((mk l').perChunk chunkId))
  exact perChunk_le_iff.2 ⟨hpos, fun c hc => hshares c (h hc)⟩

theorem evidenceTokens_mono (h : l ⊆ l') : (mk l).evidenceTokens ≤ (mk l').evidenceTokens := by
  have hchunks : (mk l).chunkIds ⊆ (mk l').chunkIds := by
    intro chunkId hmem
    obtain ⟨c, hc, hcited⟩ := mem_chunkIds.1 hmem
    exact mem_chunkIds.2 ⟨c, h hc, hcited⟩
  unfold evidenceTokens
  apply Rounding.halfEven_mono
  calc ∑ chunkId ∈ (mk l).chunkIds, (mk l).perChunk chunkId
      ≤ ∑ chunkId ∈ (mk l).chunkIds, (mk l').perChunk chunkId :=
        Finset.sum_le_sum fun _ _ => perChunk_mono h
    _ ≤ ∑ chunkId ∈ (mk l').chunkIds, (mk l').perChunk chunkId :=
        Finset.sum_le_sum_of_subset_of_nonneg hchunks fun _ _ _ => perChunk_nonneg

end Batch

namespace BatchPlanner

structure ConstrainedPartition (maxBatch : Int) (minOverlap : Rat) (evidenceBudget : Int)
    (clauses : List PlannedClause) (plan : List Batch) : Prop where
  /-- Every clause is in exactly one batch. -/
  partition : (plan.flatMap (·.clauses)).Perm clauses
  nonempty : ∀ batch ∈ plan, batch.clauses ≠ []
  sized : ∀ batch ∈ plan, (batch.clauses.length : Int) ≤ maxBatch
  related : ∀ batch ∈ plan, ∀ seed members, batch.clauses = seed :: members →
    ∀ c ∈ members, minOverlap ≤ jaccard seed.chunkIds c.chunkIds
  budgeted : ∀ batch ∈ plan, 1 < batch.clauses.length → batch.evidenceTokens ≤ evidenceBudget
  /-- No clause of a later batch could have joined an earlier one when that was closed. -/
  closed : plan.Pairwise fun batch later => ∀ seed members, batch.clauses = seed :: members →
    ∀ c ∈ later.clauses, ¬ ((batch.clauses.length : Int) < maxBatch ∧
      minOverlap ≤ jaccard seed.chunkIds c.chunkIds ∧
      (Batch.mk (batch.clauses ++ [c])).evidenceTokens ≤ evidenceBudget)

theorem clauseLe_iff {a b : PlannedClause} : clauseLe a b = true ↔
    a.priority < b.priority ∨ (a.priority = b.priority ∧ a.key ≤ b.key) := by
  unfold clauseLe
  simp

theorem clauseLe_trans (a b c : PlannedClause) (h : clauseLe a b = true)
    (h' : clauseLe b c = true) : clauseLe a c = true := by
  rw [clauseLe_iff] at *
  rcases h with h | ⟨h, hkey⟩
  · rcases h' with h' | ⟨h', -⟩
    · exact .inl (h.trans h')
    · exact .inl (h' ▸ h)
  · rcases h' with h' | ⟨h', hkey'⟩
    · exact .inl (h ▸ h')
    · exact .inr ⟨h.trans h', le_trans hkey hkey'⟩

theorem clauseLe_total (a b : PlannedClause) : (clauseLe a b || clauseLe b a) = true := by
  rw [Bool.or_eq_true, clauseLe_iff, clauseLe_iff]
  rcases lt_trichotomy a.priority b.priority with h | h | h
  · exact .inl (.inl h)
  · rcases le_total a.key b.key with hkey | hkey
    · exact .inl (.inr ⟨h, hkey⟩)
    · exact .inr (.inr ⟨h.symm, hkey⟩)
  · exact .inr (.inl h)

theorem clauseLe_antisymm {a b : PlannedClause} (h : clauseLe a b = true)
    (h' : clauseLe b a = true) : a.key = b.key := by
  rw [clauseLe_iff] at *
  rcases h with h | ⟨h, hkey⟩
  · rcases h' with h' | ⟨h', -⟩
    · omega
    · omega
  · rcases h' with h' | ⟨-, hkey'⟩
    · omega
    · exact le_antisymm hkey hkey'

theorem mergeSort_perm_eq {clauses clauses' : List PlannedClause}
    (hkeys : (clauses.map (·.key)).Nodup) (h : clauses'.Perm clauses) :
    clauses'.mergeSort clauseLe = clauses.mergeSort clauseLe := by
  have hperm : (clauses'.mergeSort clauseLe).Perm (clauses.mergeSort clauseLe) :=
    (List.mergeSort_perm _ _).trans (h.trans (List.mergeSort_perm _ _).symm)
  have hsorted : ∀ l : List PlannedClause,
      (l.mergeSort clauseLe).Pairwise fun a b => clauseLe a b = true :=
    List.pairwise_mergeSort clauseLe_trans clauseLe_total
  refine List.Perm.eq_of_pairwise ?_ (hsorted clauses') (hsorted clauses) hperm
  intro a b ha hb hab hba
  have ha' : a ∈ clauses := h.mem_iff.1 (List.mem_mergeSort.1 ha)
  have hb' : b ∈ clauses := List.mem_mergeSort.1 hb
  exact List.inj_on_of_nodup_map hkeys ha' hb' (clauseLe_antisymm hab hba)

/-! ## The plan -/

section

variable {minOverlap : Rat} {evidenceBudget : Int} {seed c : PlannedClause}
  {batch batch' : List PlannedClause}

theorem admits_iff : admits minOverlap evidenceBudget seed batch c = true ↔
    minOverlap ≤ jaccard seed.chunkIds c.chunkIds ∧
      (Batch.mk (batch ++ [c])).evidenceTokens ≤ evidenceBudget := by
  unfold admits
  rw [Bool.and_eq_true, decide_eq_true_eq, decide_eq_true_eq]

/-- A batch that grew still refuses what it refused. -/
theorem admits_of_grown (h : batch <+: batch')
    (hadmits : admits minOverlap evidenceBudget seed batch' c = true) :
    admits minOverlap evidenceBudget seed batch c = true := by
  rw [admits_iff] at *
  refine ⟨hadmits.1, le_trans (Batch.evidenceTokens_mono ?_) hadmits.2⟩
  exact List.append_subset.2 ⟨List.Subset.trans h.subset (List.subset_append_left _ _),
    List.subset_append_right _ _⟩

end

theorem constrainedPartition_groups {maxBatch : Int} (minOverlap : Rat) (evidenceBudget : Int)
    {clauses : List PlannedClause} (hmax : 1 ≤ maxBatch)
    (hkeys : (clauses.map (·.key)).Nodup) :
    ConstrainedPartition maxBatch minOverlap evidenceBudget clauses
      ((SeededGroups.groups (·.key) maxBatch.toNat (admits minOverlap evidenceBudget)
        (clauses.mergeSort clauseLe)).map Batch.mk) := by
  have hlimit : 1 ≤ maxBatch.toNat := by omega
  have hsorted : (clauses.mergeSort clauseLe).Perm clauses := List.mergeSort_perm _ _
  have hkeys' : ((clauses.mergeSort clauseLe).map (·.key)).Nodup :=
    (hsorted.map _).nodup_iff.2 hkeys
  have hgrouped := SeededGroups.grouped_groups (·.key) (admits minOverlap evidenceBudget)
    (clauses.mergeSort clauseLe) hlimit
  have hperm : (SeededGroups.groups (·.key) maxBatch.toNat (admits minOverlap evidenceBudget)
      (clauses.mergeSort clauseLe)).flatten.Perm (clauses.mergeSort clauseLe) :=
    SeededGroups.groups_perm hlimit hkeys'
  generalize SeededGroups.groups (·.key) maxBatch.toNat (admits minOverlap evidenceBudget)
    (clauses.mergeSort clauseLe) = groups at *
  -- what the first member past a prefix was admitted to
  have hadmitted : ∀ group ∈ groups, ∀ seed members, group = seed :: members →
      ∀ l₁ c l₂, members = l₁ ++ c :: l₂ →
        admits minOverlap evidenceBudget seed (seed :: l₁) c = true := by
    intro group hgroup seed members heq
    obtain ⟨seed', members', heq', h⟩ := hgrouped.admitted group hgroup
    rw [heq] at heq'
    cases heq'
    exact h
  constructor
  case partition =>
    have hflat : (groups.map Batch.mk).flatMap (·.clauses) = groups.flatten := by
      rw [List.flatMap_map]
      exact List.flatMap_id
    rw [hflat]
    exact hperm.trans hsorted
  case nonempty =>
    intro batch hbatch
    obtain ⟨group, hgroup, rfl⟩ := List.mem_map.1 hbatch
    obtain ⟨seed, members, heq, -⟩ := hgrouped.admitted group hgroup
    rw [heq]
    exact List.cons_ne_nil _ _
  case sized =>
    intro batch hbatch
    obtain ⟨group, hgroup, rfl⟩ := List.mem_map.1 hbatch
    have hroom := hgrouped.room group hgroup
    show (group.length : Int) ≤ maxBatch
    omega
  case related =>
    intro batch hbatch seed members heq c hc
    obtain ⟨group, hgroup, rfl⟩ := List.mem_map.1 hbatch
    obtain ⟨l₁, l₂, rfl⟩ := List.append_of_mem hc
    exact (admits_iff.1 (hadmitted group hgroup seed _ heq l₁ c l₂ rfl)).1
  case budgeted =>
    intro batch hbatch hlength
    obtain ⟨group, hgroup, rfl⟩ := List.mem_map.1 hbatch
    obtain ⟨seed, members, heq, -⟩ := hgrouped.admitted group hgroup
    -- the last member was admitted to the rest of the batch
    rcases List.eq_nil_or_concat members with hnil | ⟨l₁, c, hlast⟩
    · rw [heq, hnil] at hlength
      simp at hlength
    · have hlast' : members = l₁ ++ c :: [] := by rw [hlast, List.concat_eq_append]
      have hfits := (admits_iff.1 (hadmitted group hgroup seed members heq l₁ c [] hlast')).2
      rw [heq, hlast']
      exact hfits
  case closed =>
    rw [List.pairwise_map]
    refine hgrouped.closed.imp fun hclosed seed members heq c hc => ?_
    rintro ⟨hroom, hoverlap, hbudget⟩
    dsimp only at hroom
    rcases hclosed c hc seed members heq with hfull | ⟨l, hgrown, hrefused⟩
    · omega
    · rw [admits_of_grown hgrown (admits_iff.2 ⟨hoverlap, hbudget⟩)] at hrefused
      cases hrefused

/-- The batch plan of clauses with distinct keys is a constrained partition, and every order of the
clauses gives the same plan. -/
theorem planBatches_spec (clauses : List PlannedClause) (evidenceBudget maxBatch : Int)
    (minOverlap : Rat) (hkeys : (clauses.map (·.key)).Nodup) (hmax : 1 ≤ maxBatch)
    (hoverlap : 0 ≤ minOverlap ∧ minOverlap ≤ 1) :
    ∃ plan, planBatches clauses evidenceBudget maxBatch minOverlap = .ok plan ∧
      ConstrainedPartition maxBatch minOverlap evidenceBudget clauses plan ∧
      ∀ clauses', clauses'.Perm clauses →
        planBatches clauses' evidenceBudget maxBatch minOverlap = .ok plan := by
  have hplan : ∀ clauses, planBatches clauses evidenceBudget maxBatch minOverlap =
      .ok ((SeededGroups.groups (·.key) maxBatch.toNat (admits minOverlap evidenceBudget)
        (clauses.mergeSort clauseLe)).map Batch.mk) := by
    intro clauses
    unfold planBatches
    rw [if_neg (by omega), if_neg (not_not.2 hoverlap)]
  refine ⟨_, hplan clauses, constrainedPartition_groups minOverlap evidenceBudget hmax hkeys,
    fun clauses' hperm => ?_⟩
  rw [hplan, mergeSort_perm_eq hkeys hperm]

/-- Two clauses that read the same chunk share a batch. -/
theorem planBatches_pair : ∃ plan, planBatches
    [{ key := "term", priority := 2, chunkIds := {"c1"}, evidenceTokens := 10 },
      { key := "notice", priority := 1, chunkIds := {"c1", "c2"}, evidenceTokens := 30 }]
    100 5 (1 / 2) = .ok plan ∧
    ConstrainedPartition 5 (1 / 2) 100
      [{ key := "term", priority := 2, chunkIds := {"c1"}, evidenceTokens := 10 },
        { key := "notice", priority := 1, chunkIds := {"c1", "c2"}, evidenceTokens := 30 }] plan := by
  obtain ⟨plan, hplan, hpartition, -⟩ := planBatches_spec
    [{ key := "term", priority := 2, chunkIds := {"c1"}, evidenceTokens := 10 },
      { key := "notice", priority := 1, chunkIds := {"c1", "c2"}, evidenceTokens := 30 }]
    100 5 (1 / 2) (by decide) (by decide) (by norm_num)
  exact ⟨plan, hplan, hpartition⟩

end BatchPlanner

end Clear
