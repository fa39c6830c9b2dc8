import Mathlib.Data.Fintype.Card
import Clear.Ai.Embedding.Reindex

/-!
# The contracts of a sweep

A sweep queues a message for every contract that holds a stale vector (`mem_contractsNeedingReindex`)
and whose job it can create and dispatch (`Accepted`), and changes nothing but the jobs (`Swept`).
-/

namespace Clear

/-! ## The contracts of a sweep -/

namespace EmbeddingTable

variable {ν : Type} {t : EmbeddingTable ν} {target : EmbeddingSpace} {projectId : Option Uuid}
  {limit : Option Nat} {includeCurrent : Bool} {contractId : Uuid} {r : EmbeddingRow ν}

def InScope (projectId : Option Uuid) (r : EmbeddingRow ν) : Prop :=
  projectId = none ∨ projectId = some r.projectId

theorem mem_contractsNeedingReindex :
    contractId ∈ t.contractsNeedingReindex target projectId none false ↔
      ∃ r ∈ t.rows, r.contractId = contractId ∧ r.stale target = true ∧ InScope projectId r := by
  unfold contractsNeedingReindex
  dsimp only
  rw [List.mem_mergeSort, (Sql.map_distinctOn _ _).2, List.mem_map]
  constructor
  · rintro ⟨r, hr, rfl⟩
    obtain ⟨hrow, hneeded⟩ := List.mem_filter.1 hr
    rw [Bool.false_or, decide_eq_true_eq] at hneeded
    exact ⟨r, hrow, rfl, hneeded⟩
  · rintro ⟨r, hrow, rfl, hneeded⟩
    refine ⟨r, List.mem_filter.2 ⟨hrow, ?_⟩, rfl⟩
    rw [Bool.false_or, decide_eq_true_eq]
    exact hneeded

theorem contractsNeedingReindex_nodup :
    (t.contractsNeedingReindex target projectId limit includeCurrent).Nodup := by
  unfold contractsNeedingReindex
  dsimp only
  have hsorted := ((List.mergeSort_perm _ fun a b : Uuid => decide (a.toNat ≤ b.toNat)).nodup_iff).2
    (Sql.map_distinctOn (·.contractId) (t.rows.filter fun r =>
      (includeCurrent || r.stale target) ∧ (projectId = none ∨ projectId = some r.projectId))).1
  cases limit with
  | none => exact hsorted
  | some n => exact hsorted.sublist (List.take_sublist n _)

end EmbeddingTable
namespace EmbeddingReindexer

open EmbeddingTable

variable {ν : Type} {s : Store ν}

/-! ## The sweep -/

section
variable (x : Reindexer)

/-- The `i`-th contract of a sweep is queued: its job is new, the contract exists and the queue takes
the message. -/
structure Accepted (s : Store ν) (contractId : Uuid) (i : Nat) : Prop where
  fresh : s.db.jobs (x.jobId i) = none
  known : (s.db.contracts contractId).isSome
  queue : ∀ projectId stale rest, projects s.vectors contractId = (projectId, stale) :: rest →
    x.refused (request x i contractId projectId).2 = none

def IsRequest (s : Store ν) (contractId : Uuid) (i : Nat) (message : StageMessage) : Prop :=
  ∃ projectId stale rest, projects s.vectors contractId = (projectId, stale) :: rest ∧
    message = (request x i contractId projectId).2

def IsFresh (job : ProcessingJob) : Prop :=
  job.executionPlan.stages = [] ∧ job.resumeFromStage = some .embedding ∧ job.profileId = none

structure Swept (s : Store ν) (todo : List (Uuid × Nat)) (w : Sweep ν) : Prop where
  vectors : w.store.vectors = s.vectors
  contracts : w.store.db.contracts = s.db.contracts
  runs : w.store.db.runs = s.db.runs
  others : ∀ id, (∀ target ∈ todo, id ≠ x.jobId target.2) → w.store.db.jobs id = s.db.jobs id
  queued : ∀ message, message ∈ w.queued ↔ ∃ target ∈ todo,
    Accepted x s target.1 target.2 ∧ IsRequest x s target.1 target.2 message
  created : ∀ message ∈ w.queued, ∃ job, w.store.db.jobs message.jobId = some job ∧ IsFresh job
  jobIds : (w.queued.map (·.jobId)).Nodup
  contractIds : (w.queued.map (·.contractId)).Nodup

end

variable {x : Reindexer}

theorem IsRequest.ids {contractId : Uuid} {i : Nat} {message : StageMessage}
    (h : IsRequest x s contractId i message) :
    message.jobId = x.jobId i ∧ message.contractId = contractId ∧ message.stage = .embedding := by
  obtain ⟨projectId, stale, rest, -, rfl⟩ := h
  exact ⟨rfl, rfl, rfl⟩

/-- Queueing a contract depends on the rest of the sweep through the jobs only. -/
theorem reindexContract_ok {store : Store ν} {message : Option StageMessage} {written stale i : Nat}
    {contractId : Uuid}
    (h : reindexContract x s i contractId = .ok (store, message, written, stale)) :
    (projects s.vectors contractId = [] ∧ store = s ∧ message = none) ∨
      ∃ m job, message = some m ∧ Accepted x s contractId i ∧ IsRequest x s contractId i m ∧
        store = s.createJob job ∧ job.id = x.jobId i ∧ IsFresh job := by
  unfold reindexContract at h
  split at h
  next hnone =>
    cases h
    exact .inl ⟨hnone, rfl, rfl⟩
  next projectId count rest hgroups =>
    dsimp only at h
    split at h
    next hrow =>
      split at h
      next => cases h
      next hqueue =>
        cases h
        refine .inr ⟨_, _, rfl, ⟨Option.isNone_iff_eq_none.1 hrow.1, hrow.2, ?_⟩,
          ⟨_, _, _, hgroups, rfl⟩, rfl, rfl, rfl, rfl, rfl⟩
        intro projectId' stale' rest' hgroups'
        rw [hgroups] at hgroups'
        cases hgroups'
        exact hqueue
    next => cases h

theorem reindexContract_error {raised : Raised} {contractId : Uuid} {i : Nat}
    (h : reindexContract x s i contractId = .error raised) : ¬ Accepted x s contractId i := by
  intro haccepted
  unfold reindexContract at h
  split at h
  next => cases h
  next projectId count rest hgroups =>
    dsimp only at h
    rw [if_pos ⟨Option.isNone_iff_eq_none.2 haccepted.fresh, haccepted.known⟩,
      haccepted.queue _ _ _ hgroups] at h
    cases h

section
variable {w : Sweep ν} {todo : List (Uuid × Nat)} {contractId : Uuid} {i : Nat}

/-- Whether and how a later contract is queued does not depend on what was done before it. -/
theorem Swept.accepted_iff (h : Swept x s todo w)
    (hindex : ∀ target ∈ todo, x.jobId target.2 ≠ x.jobId i) :
    Accepted x w.store contractId i ↔ Accepted x s contractId i := by
  have hjobs : w.store.db.jobs (x.jobId i) = s.db.jobs (x.jobId i) :=
    h.others _ fun target ht => (hindex target ht).symm
  constructor
  · intro haccepted
    refine ⟨hjobs ▸ haccepted.fresh, h.contracts ▸ haccepted.known, ?_⟩
    exact h.vectors ▸ haccepted.queue
  · intro haccepted
    refine ⟨hjobs.trans haccepted.fresh, h.contracts.symm ▸ haccepted.known, ?_⟩
    exact h.vectors.symm ▸ haccepted.queue

theorem Swept.isRequest_iff (h : Swept x s todo w) {message : StageMessage} :
    IsRequest x w.store contractId i message ↔ IsRequest x s contractId i message := by
  unfold IsRequest
  rw [h.vectors]

theorem Swept.pass (h : Swept x s todo w) {w' : Sweep ν} (hstore : w'.store = w.store)
    (hqueued : w'.queued = w.queued)
    (hnone : ∀ message, ¬ (Accepted x s contractId i ∧ IsRequest x s contractId i message)) :
    Swept x s (todo ++ [(contractId, i)]) w' where
  vectors := by rw [hstore, h.vectors]
  contracts := by rw [hstore, h.contracts]
  runs := by rw [hstore, h.runs]
  others id hid := by
    rw [hstore]
    exact h.others id fun target ht => hid target (List.mem_append_left _ ht)
  queued message := by
    rw [hqueued, h.queued]
    simp only [List.mem_append, List.mem_singleton, or_and_right, exists_or, exists_eq_left,
      hnone message, or_false]
  created := by
    rw [hqueued, hstore]
    exact h.created
  jobIds := hqueued ▸ h.jobIds
  contractIds := hqueued ▸ h.contractIds

theorem Swept.push (h : Swept x s todo w) {w' : Sweep ν} {message : StageMessage}
    {job : ProcessingJob}
    (hnew : ∀ target ∈ todo, target.1 ≠ contractId ∧ x.jobId target.2 ≠ x.jobId i)
    (haccepted : Accepted x s contractId i) (hrequest : IsRequest x s contractId i message)
    (hid : job.id = x.jobId i) (hfresh : IsFresh job) (hstore : w'.store = w.store.createJob job)
    (hqueued : w'.queued = w.queued ++ [message]) :
    Swept x s (todo ++ [(contractId, i)]) w' := by
  obtain ⟨hjobId, hcontractId, -⟩ := hrequest.ids
  -- The job and the contract are new to the queue.
  have hdistinct : ∀ m ∈ w.queued, m.jobId ≠ x.jobId i ∧ m.contractId ≠ contractId := by
    intro m hm
    obtain ⟨target, ht, -, hreq⟩ := (h.queued m).1 hm
    obtain ⟨hjob, hcontract, -⟩ := hreq.ids
    rw [hjob, hcontract]
    exact ⟨(hnew target ht).2, (hnew target ht).1⟩
  constructor
  case vectors =>
    rw [hstore]
    exact h.vectors
  case contracts =>
    rw [hstore]
    exact h.contracts
  case runs =>
    rw [hstore]
    exact h.runs
  case others =>
    intro id hother
    rw [hstore]
    have hne : id ≠ job.id := by
      rw [hid]
      exact hother (contractId, i) (by simp)
    show Function.update w.store.db.jobs job.id (some job) id = s.db.jobs id
    rw [Function.update_of_ne hne]
    exact h.others id fun target ht => hother target (List.mem_append_left _ ht)
  case queued =>
    intro m
    rw [hqueued, List.mem_append, h.queued, List.mem_singleton]
    have hsame : m = message ↔ Accepted x s contractId i ∧ IsRequest x s contractId i m := by
      constructor
      · rintro rfl
        exact ⟨haccepted, hrequest⟩
      · rintro ⟨-, projectId, stale, rest, hgroups, rfl⟩
        obtain ⟨projectId', stale', rest', hgroups', rfl⟩ := hrequest
        rw [hgroups] at hgroups'
        cases hgroups'
        rfl
    rw [hsame]
    simp only [List.mem_append, List.mem_singleton, or_and_right, exists_or, exists_eq_left]
  case created =>
    intro m hm
    rw [hstore]
    show ∃ j, Function.update w.store.db.jobs job.id (some job) m.jobId = some j ∧ IsFresh j
    rw [hqueued] at hm
    rcases List.mem_append.1 hm with hm | hm
    · rw [Function.update_of_ne (hid ▸ (hdistinct m hm).1)]
      exact h.created m hm
    · rw [List.mem_singleton.1 hm, hjobId, ← hid, Function.update_self]
      exact ⟨job, rfl, hfresh⟩
  case jobIds =>
    rw [hqueued, List.map_append, List.map_singleton, hjobId]
    refine h.jobIds.append (List.nodup_singleton _) (List.disjoint_singleton.2 ?_)
    intro hm
    obtain ⟨m, hm, heq⟩ := List.mem_map.1 hm
    exact (hdistinct m hm).1 heq
  case contractIds =>
    rw [hqueued, List.map_append, List.map_singleton, hcontractId]
    refine h.contractIds.append (List.nodup_singleton _) (List.disjoint_singleton.2 ?_)
    intro hm
    obtain ⟨m, hm, heq⟩ := List.mem_map.1 hm
    exact (hdistinct m hm).2 heq

theorem Swept.step (h : Swept x s todo w)
    (hnew : ∀ target ∈ todo, target.1 ≠ contractId ∧ x.jobId target.2 ≠ x.jobId i) :
    Swept x s (todo ++ [(contractId, i)]) (sweepOne x w (contractId, i)) := by
  have haccepted : Accepted x w.store contractId i ↔ Accepted x s contractId i :=
    h.accepted_iff fun target ht => (hnew target ht).2
  unfold sweepOne
  split
  next store message written stale hok =>
    rcases reindexContract_ok hok with ⟨hnone, rfl, rfl⟩ | ⟨m, job, rfl, hacc, hreq, rfl, hid, hfresh⟩
    · refine h.pass rfl (List.append_nil _) ?_
      rintro message ⟨-, projectId, stale', rest, hgroups, -⟩
      rw [h.vectors] at hnone
      rw [hnone] at hgroups
      cases hgroups
    · exact h.push hnew (haccepted.1 hacc) (h.isRequest_iff.1 hreq) hid hfresh rfl rfl
  next raised herror =>
    refine h.pass rfl rfl ?_
    rintro message ⟨hacc, -⟩
    exact reindexContract_error herror (haccepted.2 hacc)

end

theorem toNat_ofNat_index {contractIds : List Uuid} (h : contractIds.Nodup) {i : Nat}
    (hi : i < contractIds.length) : (BitVec.ofNat 128 i).toNat = i := by
  have hfin : (contractIds.map BitVec.toFin).Nodup :=
    h.map fun a b heq => BitVec.eq_of_toFin_eq heq
  have hcard := hfin.length_le_card
  rw [List.length_map, Fintype.card_fin] at hcard
  rw [BitVec.toNat_ofNat]
  exact Nat.mod_eq_of_lt (hi.trans_le hcard)

theorem jobIds_nodup (x : Reindexer) {contractIds : List Uuid} (h : contractIds.Nodup) :
    ((List.range' 0 contractIds.length).map x.jobId).Nodup := by
  refine List.Nodup.map_on (fun i hi j hj heq => ?_) List.nodup_range'
  have hdraw : ∀ k ∈ List.range' 0 contractIds.length, (BitVec.ofNat 128 k).toNat = k :=
    fun k hk => toNat_ofNat_index h (by simpa using hk)
  have hsame : BitVec.ofNat 128 i = BitVec.ofNat 128 j := by
    apply x.jobId_injective
    dsimp only
    rw [hdraw i hi, hdraw j hj, heq]
  rw [← hdraw i hi, ← hdraw j hj, hsame]

theorem swept_foldl {todo : List (Uuid × Nat)} {w : Sweep ν} (hstart : Swept x s [] w)
    (hcontracts : (todo.map (·.1)).Nodup) (hindices : (todo.map fun target => x.jobId target.2).Nodup) :
    Swept x s todo (todo.foldl (sweepOne x) w) := by
  induction todo using List.reverseRecOn with
  | nil => exact hstart
  | append_singleton todo target ih =>
    rw [List.map_append, List.map_singleton, List.nodup_append] at hcontracts hindices
    rw [List.foldl_append]
    refine (ih hcontracts.1 hindices.1).step fun other ho => ⟨?_, ?_⟩
    · exact hcontracts.2.2 _ (List.mem_map_of_mem ho) _ (by simp)
    · exact hindices.2.2 _ (List.mem_map.2 ⟨other, ho, rfl⟩) _ (by simp)

/-- A sweep for a project: what it queues, and what it leaves alone. -/
theorem swept_run (x : Reindexer) (projectId : Option Uuid) (s : Store ν) :
    Swept x s (s.vectors.contractsNeedingReindex x.target projectId none false).zipIdx
      (run x { projectId } s) := by
  refine swept_foldl ?_ ?_ ?_
  · constructor <;> simp
  · rw [List.zipIdx_map_fst]
    exact contractsNeedingReindex_nodup
  · have hnodup : (s.vectors.contractsNeedingReindex x.target projectId none false).Nodup :=
      contractsNeedingReindex_nodup
    have hjobs := jobIds_nodup x hnodup
    rw [← List.zipIdx_map_snd, List.map_map] at hjobs
    exact hjobs

end EmbeddingReindexer

end Clear
