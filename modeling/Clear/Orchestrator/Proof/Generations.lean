import Clear.Orchestrator.Persist
import Clear.Storage.Proof.Keys

/-!
# Artifact generations

The next generation of a slot (contract, kind) is read off its current row, and invalidation
leaves a slot without one: the write after it starts again at generation 1, under the key of the
first generation. Generations are immutable along a sequence of writes and invalidations exactly
when no slot is written while it has rows but no current one (`immutable_iff`).

`Sound` is the invariant that carries the proof: generations of a slot are distinct, the current
row has the greatest, the first is 1, keys spell out the row's columns and stored objects still
have the recorded checksum.
-/

namespace Clear

namespace Archive

variable {Payload : Type} {codec : Codec Payload} {s s' : Archive}

/-! ## Statements -/

structure Immutable (codec : Codec Payload) (s : Archive) : Prop where
  oneCurrent : ∀ a ∈ s.table.rows, ∀ b ∈ s.table.rows, a.slot = b.slot →
    a.isCurrent = true → b.isCurrent = true → a = b
  generations : ∀ a ∈ s.table.rows, ∀ b ∈ s.table.rows, a.slot = b.slot →
    a.generation = b.generation → a = b
  keys : ∀ a ∈ s.table.rows, ∀ b ∈ s.table.rows, a.slot = b.slot →
    a.storagePath = b.storagePath → a = b
  checksums : ∀ a ∈ s.table.rows, ∃ data, s.objects a.storagePath = some data ∧
    codec.sha256 data = a.checksum

def NotRestarted (s : Archive) : Action Payload → Prop
  | .persist _ contract _ _ artifact =>
    (∃ a ∈ s.table.rows, a.slot = (contract.id, artifact.kind)) →
      s.table.current contract.id artifact.kind ≠ none
  | .invalidate _ _ => True

/-- The invariant of unrestarted sequences (module doc). -/
structure Sound (codec : Codec Payload) (s : Archive) : Prop where
  generations : ∀ a ∈ s.table.rows, ∀ b ∈ s.table.rows, a.slot = b.slot →
    a.generation = b.generation → a = b
  newest : ∀ a ∈ s.table.rows, ∀ b ∈ s.table.rows, a.slot = b.slot → a.isCurrent = true →
    b.generation ≤ a.generation
  first : ∀ a ∈ s.table.rows, ∃ b ∈ s.table.rows, b.slot = a.slot ∧ b.generation = 1
  keyed : ∀ a ∈ s.table.rows,
    a.storagePath = StorageKey.artifact a.projectId a.contractId a.kind a.generation
  checksums : ∀ a ∈ s.table.rows, ∃ data, s.objects a.storagePath = some data ∧
    codec.sha256 data = a.checksum

theorem Sound.immutable (h : Sound codec s) : Immutable codec s where
  oneCurrent _ ha _ hb hs hca hcb := ArtifactTable.current_inj ha hb hca hcb hs
  generations := h.generations
  keys a ha b hb hs hp := by
    rw [h.keyed a ha, h.keyed b hb] at hp
    exact h.generations a ha b hb hs (StorageKey.artifact_inj hp).2.2.2
  checksums := h.checksums

theorem sound_init : Sound codec ⟨.empty, fun _ => none⟩ := by
  constructor <;> simp [ArtifactTable.empty]

/-! ## What a step does to the rows -/

theorem Sound.retire (h : Sound codec s) (p : DocumentArtifact → Bool) :
    Sound codec { s with table := s.table.retire p } := by
  have hold : ∀ b ∈ (s.table.retire p).rows, ∃ a ∈ s.table.rows,
      b = { a with isCurrent := a.isCurrent && !p a } := fun b hb =>
    ArtifactTable.mem_retire.1 hb
  constructor
  · intro a' ha' b' hb' hs hg
    obtain ⟨a, ha, rfl⟩ := hold a' ha'
    obtain ⟨b, hb, rfl⟩ := hold b' hb'
    rw [h.generations a ha b hb hs hg]
  · intro a' ha' b' hb' hs hc
    obtain ⟨a, ha, rfl⟩ := hold a' ha'
    obtain ⟨b, hb, rfl⟩ := hold b' hb'
    exact h.newest a ha b hb hs (Bool.and_eq_true_iff.1 hc).1
  · intro a' ha'
    obtain ⟨a, ha, rfl⟩ := hold a' ha'
    obtain ⟨b, hb, hs, hg⟩ := h.first a ha
    exact ⟨_, ArtifactTable.retire_mem p hb, hs, hg⟩
  · intro a' ha'
    obtain ⟨a, ha, rfl⟩ := hold a' ha'
    exact h.keyed a ha
  · intro a' ha'
    obtain ⟨a, ha, rfl⟩ := hold a' ha'
    exact h.checksums a ha

/-- The invariant survives adding a row that is newer than every row of its slot, none of which
is current, together with its object. -/
theorem Sound.insert {row : DocumentArtifact} {data : Bytes}
    (h : Sound codec s) (hrows : s'.table.rows = s.table.rows ++ [row])
    (hobjects : s'.objects = Function.update s.objects row.storagePath (some data))
    (hretired : ∀ a ∈ s.table.rows, a.slot = row.slot → a.isCurrent = false)
    (hnewer : ∀ a ∈ s.table.rows, a.slot = row.slot → a.generation < row.generation)
    (hfirst : row.generation = 1 ∨ ∃ a ∈ s.table.rows, a.slot = row.slot)
    (hkeyed : row.storagePath =
      StorageKey.artifact row.projectId row.contractId row.kind row.generation)
    (hchecksum : codec.sha256 data = row.checksum) : Sound codec s' := by
  have hmem : ∀ {a}, a ∈ s'.table.rows ↔ a ∈ s.table.rows ∨ a = row := by
    intro a
    rw [hrows, List.mem_append, List.mem_singleton]
  constructor
  · intro a ha b hb hs hg
    rcases hmem.1 ha with ha | rfl <;> rcases hmem.1 hb with hb | rfl
    · exact h.generations a ha b hb hs hg
    · exact absurd hg (Nat.ne_of_lt (hnewer a ha hs))
    · exact absurd hg.symm (Nat.ne_of_lt (hnewer b hb hs.symm))
    · rfl
  · intro a ha b hb hs hc
    rcases hmem.1 ha with ha | rfl <;> rcases hmem.1 hb with hb | rfl
    · exact h.newest a ha b hb hs hc
    · rw [hretired a ha hs] at hc
      cases hc
    · exact Nat.le_of_lt (hnewer b hb hs.symm)
    · exact Nat.le_refl _
  · intro a ha
    rcases hmem.1 ha with ha | rfl
    · obtain ⟨b, hb, hs⟩ := h.first a ha
      exact ⟨b, hmem.2 (.inl hb), hs⟩
    · rcases hfirst with hone | ⟨b, hb, hs⟩
      · exact ⟨_, ha, rfl, hone⟩
      · obtain ⟨c, hc, hcs, hcg⟩ := h.first b hb
        exact ⟨c, hmem.2 (.inl hc), hcs.trans hs, hcg⟩
  · intro a ha
    rcases hmem.1 ha with ha | rfl
    · exact h.keyed a ha
    · exact hkeyed
  · intro a ha
    rw [hobjects]
    rcases hmem.1 ha with ha | rfl
    · -- The new object's key names a newer generation than any recorded row of the slot.
      have hne : a.storagePath ≠ row.storagePath := by
        intro he
        rw [h.keyed a ha, hkeyed] at he
        obtain ⟨-, hc, hk, hg⟩ := StorageKey.artifact_inj he
        have := hnewer a ha (by rw [DocumentArtifact.slot, DocumentArtifact.slot, hc, hk])
        omega
      rw [Function.update_of_ne hne]
      exact h.checksums a ha
    · exact ⟨data, Function.update_self .., hchecksum⟩

/-! ## Writes -/

/-- What one artifact write does: the current row is retired, and a row of the next generation is
added together with its object. -/
theorem step_persist {id jobId : Uuid} {contract : Contract} {versions : VersionDict}
    {artifact : StageArtifact Payload}
    (h : step codec s (.persist id contract jobId versions artifact) = some s') :
    ∃ row : DocumentArtifact,
      row.slot = (contract.id, artifact.kind) ∧ row.isCurrent = true ∧ row.id = id ∧
      id ∉ s.table.rows.map (·.id) ∧
      row.generation = s.table.nextGeneration contract.id artifact.kind ∧
      row.storagePath =
        StorageKey.artifact row.projectId row.contractId row.kind row.generation ∧
      row.checksum = codec.sha256 (codec.dumps artifact.payload) ∧
      s'.table.rows = (s.table.retire fun a =>
        some a.id = (s.table.current contract.id artifact.kind).map (·.id)).rows ++ [row] ∧
      s'.objects =
        Function.update s.objects row.storagePath (some (codec.dumps artifact.payload)) := by
  obtain ⟨r, hr, rfl⟩ := Option.map_eq_some_iff.1 h
  unfold persistOne ArtifactTable.supersede at hr
  dsimp only [Objects.putJson, Objects.putBytes] at hr
  generalize hrow : (DocumentArtifact.mk id contract.id contract.projectId (some jobId) _ _ _ _ _ _
    _ true) = row at hr
  cases hc : (s.table.retire fun a =>
      some a.id = (s.table.current contract.id artifact.kind).map (·.id)).create row with
  | error e => rw [hc] at hr; cases hr
  | ok t' =>
    rw [hc] at hr
    cases hr
    obtain ⟨hrows, hid⟩ := ArtifactTable.create_ok hc
    rw [ArtifactTable.retire_ids] at hid
    subst hrow
    exact ⟨_, rfl, rfl, rfl, hid, rfl, rfl, rfl, hrows, rfl⟩

theorem retired_slot {contractId : Uuid} {kind : ArtifactKind} {a : DocumentArtifact}
    (ha : a ∈ (s.table.retire fun a =>
      some a.id = (s.table.current contractId kind).map (·.id)).rows)
    (hs : a.slot = (contractId, kind)) : a.isCurrent = false := by
  obtain ⟨b, hb, rfl⟩ := ArtifactTable.mem_retire.1 ha
  cases hc : b.isCurrent with
  | false => rfl
  | true =>
    have := ArtifactTable.current_eq_some.2 ⟨hb, hs, hc⟩
    simp [this]

theorem Sound.persist {id jobId : Uuid} {contract : Contract} {versions : VersionDict}
    {artifact : StageArtifact Payload} (h : Sound codec s)
    (hG : NotRestarted s (.persist id contract jobId versions artifact))
    (hs : step codec s (.persist id contract jobId versions artifact) = some s') :
    Sound codec s' := by
  obtain ⟨row, hslot, -, -, -, hgen, hkey, hsum, hrows, hobj⟩ := step_persist hs
  have hret := h.retire fun a =>
    some a.id = (s.table.current contract.id artifact.kind).map (·.id)
  refine hret.insert hrows hobj (fun a ha hs' => retired_slot ha (hs'.trans hslot)) ?_ ?_ hkey
    hsum.symm
  · -- The current row has the greatest generation of the slot.
    intro a ha hs'
    obtain ⟨b, hb, rfl⟩ := ArtifactTable.mem_retire.1 ha
    have hbs : b.slot = (contract.id, artifact.kind) := hs'.trans hslot
    cases hc : s.table.current contract.id artifact.kind with
    | none => exact absurd hc (hG ⟨b, hb, hbs⟩)
    | some e =>
      obtain ⟨he, hes, hec⟩ := ArtifactTable.current_eq_some.1 hc
      have := h.newest e he b hb (hes.trans hbs.symm) hec
      rw [hgen, ArtifactTable.nextGeneration, hc]
      exact Nat.lt_succ_of_le this
  · cases hc : s.table.current contract.id artifact.kind with
    | none => exact .inl (by rw [hgen, ArtifactTable.nextGeneration, hc])
    | some e =>
      obtain ⟨he, hes, -⟩ := ArtifactTable.current_eq_some.1 hc
      exact .inr ⟨_, ArtifactTable.retire_mem _ he, hes.trans hslot.symm⟩

theorem Sound.invalidate {contractId : Uuid} {stage : PipelineStage} (h : Sound codec s)
    (hs : step codec s (.invalidate contractId stage) = some s') : Sound codec s' := by
  dsimp only [step, ArtifactTable.invalidateFromStage] at hs
  split at hs
  · cases hs
  · cases hs
    exact h.retire _

/-- Writing a slot that has rows but no current one repeats generation 1. -/
theorem restart_breaks {id jobId : Uuid} {contract : Contract} {versions : VersionDict}
    {artifact : StageArtifact Payload} (h : Sound codec s)
    (hG : ¬ NotRestarted s (.persist id contract jobId versions artifact))
    (hs : step codec s (.persist id contract jobId versions artifact) = some s') :
    ¬ Immutable codec s' := by
  obtain ⟨row, hslot, -, hid, hfresh, hgen, -, -, hrows, -⟩ := step_persist hs
  simp only [NotRestarted, Classical.not_imp, not_not] at hG
  obtain ⟨⟨a, ha, has⟩, hnone⟩ := hG
  obtain ⟨b, hb, hbs, hbg⟩ := h.first a ha
  have hrow : row.generation = 1 := by rw [hgen, ArtifactTable.nextGeneration, hnone]
  intro him
  obtain ⟨b', hb', hkept⟩ : ∃ b' ∈ s'.table.rows,
      b'.id = b.id ∧ b'.slot = b.slot ∧ b'.generation = b.generation := by
    rw [hrows]
    exact ⟨_, List.mem_append_left _ (ArtifactTable.retire_mem _ hb), rfl, rfl, rfl⟩
  have hsame : b' = row := him.generations b' hb' row (by simp [hrows])
    (by rw [hkept.2.1, hbs, has, hslot]) (by rw [hkept.2.2, hbg, hrow])
  rw [hsame, hid] at hkept
  exact hfresh (hkept.1 ▸ List.mem_map_of_mem hb)

/-! ## Sequences -/

/-- Generations stay immutable at every point of a sequence of writes and invalidations exactly
when no artifact is written to a slot that has rows but no current one. -/
theorem immutable_iff (codec : Codec Payload) (actions : List (Action Payload)) :
    (machine codec).Along (Immutable codec) ⟨.empty, fun _ => none⟩ actions ↔
      (machine codec).Meets NotRestarted ⟨.empty, fun _ => none⟩ actions := by
  refine Machine.along_iff_meets (fun s h => h.immutable) (fun s a t h hG hst => ?_)
    (fun s a t h hG hst => ?_) sound_init
  · cases a with
    | persist => exact h.persist hG hst
    | invalidate => exact h.invalidate hst
  · cases a with
    | persist => exact restart_breaks h hG hst
    | invalidate => exact absurd trivial hG

/-- JSON bytes as payloads, with the digests of `[]` and `{}`. -/
def bytesCodec : Codec Bytes where
  dumps := id
  sha256 data :=
    if data = [91, 93] then "4f53cda18c2baa0c0354bb5f9a3ecbe5ed12ab4d8e11ba873c2f11161202b945"
    else if data = [123, 125] then
      "44136fa355b3678a1146ad16f7e8649e94fb4fc21fe77e8310c060f61caaff8a"
    else ""

def reextracted : List (Action Bytes) :=
  [.persist 100 { id := 1, projectId := 2 } 10 [] { kind := .chunks, payload := [91, 93] },
    .invalidate 1 .extraction,
    .persist 101 { id := 1, projectId := 2 } 11 [] { kind := .chunks, payload := [123, 125] }]

def summary (codec : Codec Payload) (s : Archive) :
    List ((Uuid × ArtifactKind) × Nat × Bool × Bool) :=
  s.table.rows.map fun a => (a.slot, a.generation, a.isCurrent,
    decide ((s.objects a.storagePath).map codec.sha256 = some a.checksum))

/-- The second extraction is generation 1 again, and the first one's object is overwritten. -/
theorem reextraction_overwrites :
    ∃ s, (machine bytesCodec).Reach s ∧
      summary bytesCodec s = [((1, .chunks), 1, false, false), ((1, .chunks), 1, true, true)] ∧
      ¬ Immutable bytesCodec s := by
  have hsum : ((machine bytesCodec).exec ⟨.empty, fun _ => none⟩ reextracted).map
      (summary bytesCodec) =
        some [((1, .chunks), 1, false, false), ((1, .chunks), 1, true, true)] := by decide
  obtain ⟨s, hs, hsum⟩ := Option.map_eq_some_iff.1 hsum
  refine ⟨s, Machine.reach_of_exec rfl hs, hsum, fun h => ?_⟩
  -- The row whose object lost its checksum.
  obtain ⟨a, ha, hlost⟩ : ∃ a ∈ s.table.rows,
      decide ((s.objects a.storagePath).map bytesCodec.sha256 = some a.checksum) = false := by
    have : ((1, .chunks), 1, false, false) ∈ summary bytesCodec s := by simp [hsum]
    obtain ⟨a, ha, he⟩ := List.mem_map.1 this
    exact ⟨a, ha, by simpa using congrArg (fun x => x.2.2.2) he⟩
  obtain ⟨data, hdata, hsha⟩ := h.checksums a ha
  simp [hdata, hsha] at hlost

end Archive

end Clear
