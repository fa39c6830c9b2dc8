import Clear.Lib.Machine
import Clear.Models.Processing
import Clear.Storage.Base

/-!
# Persisting artifacts

`_persist_artifacts` writes each artifact of a stage to object storage and records its pointer.
An `Archive` is the pair of the artifact table and the stored objects; `Archive.machine` is the
machine whose steps are single artifact writes and invalidations, for any contracts and stages in
any order. `persistArtifacts_exec` shows that persisting a stage's artifacts is a run of it.
-/

/-!
## Artifact rows

`DocumentArtifactRepository`: pointers to stage outputs, at most one current row per (contract,
kind), which the partial unique index `uq_document_artifacts_current` keeps and `ArtifactTable`
carries. `supersede` retires the current row and inserts the next generation;
`invalidateFromStage` retires the current rows of a stage and of every stage after it.
-/

namespace Clear

def DocumentArtifact.slot (a : DocumentArtifact) : Uuid × ArtifactKind := (a.contractId, a.kind)

structure ArtifactTable where
  rows : List DocumentArtifact
  idUnique : (rows.map (·.id)).Nodup
  currentUnique : ((rows.filter (·.isCurrent)).map DocumentArtifact.slot).Nodup

namespace ArtifactTable

def empty : ArtifactTable := ⟨[], by simp, by simp⟩

def create (t : ArtifactTable) (a : DocumentArtifact) : Except Raised ArtifactTable :=
  if h : Keyed.Fresh (·.id) t.rows a ∧ (a.isCurrent = true →
      Keyed.Fresh DocumentArtifact.slot (t.rows.filter (·.isCurrent)) a) then
    .ok
      { rows := t.rows ++ [a]
        idUnique := Keyed.concat t.idUnique h.1
        currentUnique := by
          rw [List.filter_append]
          cases ha : a.isCurrent with
          | false => simpa [ha] using t.currentUnique
          | true => simpa [ha] using Keyed.concat t.currentUnique (h.2 ha) }
  else .error (.other "IntegrityError")

def retire (t : ArtifactTable) (p : DocumentArtifact → Bool) : ArtifactTable where
  rows := t.rows.map fun a => { a with isCurrent := a.isCurrent && !p a }
  idUnique := Keyed.update t.idUnique fun _ => rfl
  currentUnique := by
    rw [List.filter_map, List.map_map]
    refine t.currentUnique.sublist (List.Sublist.map _ ?_)
    refine List.monotone_filter_right t.rows fun a ha => ?_
    simp only [Function.comp_apply, Bool.and_eq_true] at ha
    exact ha.1

def current (t : ArtifactTable) (contractId : Uuid) (kind : ArtifactKind) :
    Option DocumentArtifact :=
  t.rows.find? fun a => a.contractId = contractId ∧ a.kind = kind ∧ a.isCurrent = true

def nextGeneration (t : ArtifactTable) (contractId : Uuid) (kind : ArtifactKind) : Nat :=
  match t.current contractId kind with
  | some existing => existing.generation + 1
  | none => 1

/-- Record a new artifact generation, retiring the previous one. -/
def supersede (t : ArtifactTable) (id contractId projectId : Uuid) (jobId : Option Uuid)
    (kind : ArtifactKind) (storagePath checksum : String) (sizeBytes : Option Nat)
    (versions : VersionDict) (summary : JsonDict) :
    Except Raised (ArtifactTable × DocumentArtifact) :=
  let existing := t.current contractId kind
  let generation := t.nextGeneration contractId kind
  let retired := t.retire fun a => some a.id = existing.map (·.id)
  let row : DocumentArtifact :=
    { id, contractId, projectId, jobId, kind, storagePath, checksum, sizeBytes, versions, summary
      generation
      isCurrent := true }
  (retired.create row).map (·, row)

def kindsFrom (stage : PipelineStage) : Option (List ArtifactKind) :=
  (stagesFrom stage).map fun stages => stages.flatMap stageArtifacts

/-- Retire artifacts produced by `stage` and everything downstream; returns how many. -/
def invalidateFromStage (t : ArtifactTable) (contractId : Uuid) (stage : PipelineStage) :
    Except Raised (ArtifactTable × Nat) :=
  match kindsFrom stage with
  | none => .error (.other "ValueError")
  | some kinds =>
    let affected := fun a : DocumentArtifact =>
      decide (a.contractId = contractId ∧ a.kind ∈ kinds ∧ a.isCurrent = true)
    .ok (t.retire affected, (t.rows.filter affected).length)

/-! ## The current row -/

variable {t : ArtifactTable} {contractId : Uuid} {kind : ArtifactKind}

theorem mem_retire {p : DocumentArtifact → Bool} {b : DocumentArtifact} :
    b ∈ (t.retire p).rows ↔ ∃ a ∈ t.rows, b = { a with isCurrent := a.isCurrent && !p a } := by
  simp only [retire, List.mem_map]
  exact exists_congr fun a => and_congr_right fun _ => eq_comm

theorem retire_mem (p : DocumentArtifact → Bool) {a : DocumentArtifact} (ha : a ∈ t.rows) :
    { a with isCurrent := a.isCurrent && !p a } ∈ (t.retire p).rows := mem_retire.2 ⟨a, ha, rfl⟩

theorem current_inj {a b : DocumentArtifact} (ha : a ∈ t.rows) (hb : b ∈ t.rows)
    (hca : a.isCurrent = true) (hcb : b.isCurrent = true) (h : a.slot = b.slot) : a = b :=
  Keyed.inj t.currentUnique (List.mem_filter.2 ⟨ha, hca⟩) (List.mem_filter.2 ⟨hb, hcb⟩) h

theorem current_eq_some {e : DocumentArtifact} :
    t.current contractId kind = some e ↔
      e ∈ t.rows ∧ e.slot = (contractId, kind) ∧ e.isCurrent = true := by
  have hfound : ∀ x, t.current contractId kind = some x →
      x ∈ t.rows ∧ x.slot = (contractId, kind) ∧ x.isCurrent = true := by
    intro x hx
    have hp := List.find?_some hx
    simp only [decide_eq_true_eq] at hp
    exact ⟨List.mem_of_find?_eq_some hx, by rw [DocumentArtifact.slot, hp.1, hp.2.1], hp.2.2⟩
  refine ⟨hfound e, fun ⟨hm, hs, hc⟩ => ?_⟩
  cases hx : t.current contractId kind with
  | none =>
    have hnone := List.find?_eq_none.1 hx e hm
    simp only [DocumentArtifact.slot, Prod.mk.injEq] at hs
    simp [hs.1, hs.2, hc] at hnone
  | some x =>
    obtain ⟨hxm, hxs, hxc⟩ := hfound x hx
    rw [current_inj hxm hm hxc hc (hxs.trans hs.symm)]

theorem create_ok {t' : ArtifactTable} {a : DocumentArtifact} (h : t.create a = .ok t') :
    t'.rows = t.rows ++ [a] ∧ a.id ∉ t.rows.map (·.id) := by
  unfold create at h
  split at h
  · rename_i hc
    cases h
    exact ⟨rfl, hc.1⟩
  · cases h

theorem retire_ids {p : DocumentArtifact → Bool} :
    (t.retire p).rows.map (·.id) = t.rows.map (·.id) := by
  simp [retire, Function.comp_def]

end ArtifactTable

end Clear

namespace Clear

structure StageArtifact (Payload : Type) where
  kind : ArtifactKind
  payload : Payload
  summary : JsonDict := []

structure Archive where
  table : ArtifactTable
  objects : Objects

namespace Archive

variable {Payload : Type} (codec : Codec Payload)

def persistOne (s : Archive) (id : Uuid) (contract : Contract) (jobId : Uuid)
    (versions : VersionDict) (artifact : StageArtifact Payload) :
    Except Raised (Archive × String) := do
  let generation := s.table.nextGeneration contract.id artifact.kind
  let key := StorageKey.artifact contract.projectId contract.id artifact.kind generation
  let (objects, upload) := s.objects.putJson codec key artifact.payload
  let (table, _) ← s.table.supersede id contract.id contract.projectId (some jobId) artifact.kind
    key (upload.checksum.getD "") (some upload.size) versions artifact.summary
  return ({ table, objects }, key)

/-- Write each artifact and record its pointer. Returns the key of the first one. -/
def persistArtifacts (s : Archive) (contract : Contract) (jobId : Uuid) (versions : VersionDict) :
    List (Uuid × StageArtifact Payload) → Except Raised (Archive × Option String)
  | [] => .ok (s, none)
  | (id, artifact) :: rest => do
    let (s, key) ← s.persistOne codec id contract jobId versions artifact
    let (s, _) ← s.persistArtifacts contract jobId versions rest
    return (s, some key)

/-! ## Sequences of writes -/

/-- One write to the archive. -/
inductive Action (Payload : Type) where
  | persist (id : Uuid) (contract : Contract) (jobId : Uuid) (versions : VersionDict)
      (artifact : StageArtifact Payload)
  | invalidate (contractId : Uuid) (stage : PipelineStage)

def step (s : Archive) : Action Payload → Option Archive
  | .persist id contract jobId versions artifact =>
    (s.persistOne codec id contract jobId versions artifact).toOption.map (·.1)
  | .invalidate contractId stage =>
    (s.table.invalidateFromStage contractId stage).toOption.map fun r => { s with table := r.1 }

def machine : Machine Archive (Action Payload) where
  init s := s = ⟨.empty, fun _ => none⟩
  step := step codec

theorem persistArtifacts_exec {s s' : Archive} {contract : Contract} {jobId : Uuid}
    {versions : VersionDict} {artifacts : List (Uuid × StageArtifact Payload)}
    {ref : Option String}
    (h : s.persistArtifacts codec contract jobId versions artifacts = .ok (s', ref)) :
    (machine codec).exec s
      (artifacts.map fun p => .persist p.1 contract jobId versions p.2) = some s' := by
  induction artifacts generalizing s ref with
  | nil =>
    simp only [persistArtifacts, Except.ok.injEq, Prod.mk.injEq] at h
    rw [List.map_nil, Machine.exec, h.1]
  | cons p rest ih =>
    obtain ⟨id, artifact⟩ := p
    unfold persistArtifacts at h
    cases h1 : s.persistOne codec id contract jobId versions artifact with
    | error e => rw [h1] at h; cases h
    | ok r =>
      obtain ⟨s₁, key⟩ := r
      rw [h1] at h
      change (s₁.persistArtifacts codec contract jobId versions rest >>= _) = _ at h
      cases h2 : s₁.persistArtifacts codec contract jobId versions rest with
      | error e => rw [h2] at h; cases h
      | ok r =>
        obtain ⟨s₂, ref₂⟩ := r
        rw [h2] at h
        cases h
        have hstep : (machine codec).step s (.persist id contract jobId versions artifact) =
            some s₁ := by
          simp only [machine, step, h1]
          rfl
        rw [List.map_cons, Machine.exec, hstep]
        exact ih h2

end Archive

end Clear
