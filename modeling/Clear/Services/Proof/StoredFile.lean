import Clear.Orchestrator.Stages.Validation
import Clear.Services.Proof.Batch
import Clear.Storage.Proof.Keys

/-!
# The stored file of a contract

A row that describes the bytes at its `storage_path` is `Described`. An upload that creates a
contract leaves such a row; one that adds a version rewrites only some of the columns, and the row is
not `Described`, because `processing_file_path` still names the first version:

* `Keeps`: no upload touches the file of an earlier version,
* `Filed.step`, `Filed.run`: what is known of the documents accepted so far in a batch,
* `Located`: every path names its contract and version, in every reachable state (`reach_sound`),
* `accepted_described_iff`: after each accepted upload, and over runs.
-/

namespace Clear

namespace Upload

variable {env : UploadEnv} {request : UploadRequest} {s t : Contracts} {c c' : Carried}
  {drawn : Drawn} {item : PendingUpload} {validated : ValidatedFile}
  {converted : Option (Bytes × ValidatedFile)} {sha256 : Bytes → String} {r : ContractRow}

/-! ## Described rows -/

/-- The bytes at the row's and its current version's `storage_path` hash to `processing_sha256` and
are the PDF that `file_type` and `file_size` describe, and `processing_file_path` names them. -/
def Described (sha256 : Bytes → String) (s : Contracts) (r : ContractRow) : Prop :=
  ∃ content, s.objects r.storagePath = some content ∧ r.processingSha256 = some (sha256 content) ∧
    r.fileType = .pdf ∧ pdfSignature.isPrefixOf content = true ∧ r.fileSize = content.length ∧
    r.processingFilePath = some r.storagePath ∧
    ∃ v ∈ s.versions, v.contractId = r.id ∧ v.version = r.currentVersion ∧
      v.storagePath = r.storagePath ∧ v.fileSize = content.length

def Keeps (s t : Contracts) : Prop :=
  s.versions ⊆ t.versions ∧ ∀ v ∈ s.versions, t.objects v.storagePath = s.objects v.storagePath

theorem Keeps.refl (s : Contracts) : Keeps s s := ⟨fun _ h => h, fun _ _ => rfl⟩

theorem Keeps.trans {u : Contracts} (h : Keeps s t) (h' : Keeps t u) : Keeps s u :=
  ⟨fun _ hv => h'.1 (h.1 hv), fun v hv => (h'.2 v (h.1 hv)).trans (h.2 v hv)⟩

theorem Described.keep (h : Described sha256 s r) (hk : Keeps s t) : Described sha256 t r := by
  obtain ⟨content, hobj, hsha, htype, hpdf, hsize, hpath, v, hv, hid, hver, hvpath, hvsize⟩ := h
  have hobj' : t.objects r.storagePath = some content := by
    rw [← hvpath, hk.2 v hv, hvpath]
    exact hobj
  exact ⟨content, hobj', hsha, htype, hpdf, hsize, hpath, v, hk.1 hv, hid, hver, hvpath, hvsize⟩

/-! ## Paths -/

/-- Every version's file is stored under the key of its contract and number, every contract points at
one of its versions, and its `processing_file_path` is a key of the first one. -/
structure Located (s : Contracts) : Prop where
  versions : ∀ v ∈ s.versions, 1 ≤ v.version ∧
    ∃ name, v.storagePath = StorageKey.contractFile v.projectId v.contractId v.version name
  current : ∀ r ∈ s.contracts, ∃ v ∈ s.versions, v.contractId = r.id ∧ v.projectId = r.projectId ∧
    v.storagePath = r.storagePath
  processing : ∀ r ∈ s.contracts, ∃ name,
    r.processingFilePath = some (StorageKey.contractFile r.projectId r.id 1 name)

theorem storedObjects_other {objects : Objects} {contractId : Uuid} {key : String}
    (h : ∀ name, key ≠ StorageKey.contractFile request.projectId contractId 1 name) :
    storedObjects request objects contractId item validated converted key = objects key := by
  unfold storedObjects
  cases converted with
  | none => exact Function.update_of_ne (h _) _ _
  | some e =>
    exact (Function.update_of_ne (h _) _ _).trans (Function.update_of_ne (h _) _ _)

theorem Located.storedObjects (hs : s.Valid) (hl : Located s)
    (hid : ∀ r ∈ s.contracts, r.id ≠ drawn.contractId) {v : ContractVersion}
    (hv : v ∈ s.versions) :
    storedObjects request s.objects drawn.contractId item validated converted v.storagePath =
      s.objects v.storagePath := by
  obtain ⟨-, name, hpath⟩ := hl.versions v hv
  obtain ⟨r, hr, hrid⟩ := hs.owned v hv
  refine storedObjects_other fun name' he => hid r hr ?_
  rw [hpath] at he
  exact hrid.trans (StorageKey.contractFile_inj he).2.1

theorem created_keeps (hs : s.Valid) (hl : Located s)
    (hid : ∀ r ∈ s.contracts, r.id ≠ drawn.contractId) :
    Keeps s (created request s drawn.contractId item validated converted) :=
  ⟨fun _ hv => List.mem_append_left _ hv, fun _ hv => hl.storedObjects hs hid hv⟩

theorem versioned_keeps (hl : Located s) (contract : ContractRow) :
    Keeps s (versioned request s contract item validated) := by
  refine ⟨fun _ hv => List.mem_append_left _ hv, fun v hv => ?_⟩
  obtain ⟨-, name, hpath⟩ := hl.versions v hv
  refine Function.update_of_ne (fun he => ?_) _ _
  rw [hpath] at he
  obtain ⟨-, hid, hver⟩ := StorageKey.contractFile_inj he
  have := Contracts.lt_nextVersion hv hid
  omega

theorem createdRow_paths (request : UploadRequest) (contractId : Uuid) (item : PendingUpload)
    (validated : ValidatedFile) (converted : Option (Bytes × ValidatedFile)) : ∃ name,
    (createdRow request contractId item validated converted).storagePath =
      StorageKey.contractFile request.projectId contractId 1 name := by
  cases converted with
  | none => exact ⟨_, rfl⟩
  | some e => exact ⟨_, rfl⟩

theorem created_located (hl : Located s) :
    Located (created request s drawn.contractId item validated converted) where
  versions := by
    intro v hv
    rcases List.mem_append.1 hv with hv | hv
    · exact hl.versions v hv
    · rw [List.mem_singleton.1 hv]
      exact ⟨Nat.le_refl 1, createdRow_paths request drawn.contractId item validated converted⟩
  current := by
    intro r hr
    rcases List.mem_append.1 hr with hr | hr
    · obtain ⟨v, hv, hpoints⟩ := hl.current r hr
      exact ⟨v, List.mem_append_left _ hv, hpoints⟩
    · rw [List.mem_singleton.1 hr]
      exact ⟨_, List.mem_append_right _ (List.mem_singleton_self _), rfl, rfl, rfl⟩
  processing := by
    intro r hr
    rcases List.mem_append.1 hr with hr | hr
    · exact hl.processing r hr
    · rw [List.mem_singleton.1 hr]
      obtain ⟨name, hname⟩ := createdRow_paths request drawn.contractId item validated converted
      exact ⟨name, congrArg some hname⟩

theorem versioned_located {contract : ContractRow} (hs : s.Valid) (hl : Located s)
    (hc : contract ∈ s.contracts) : Located (versioned request s contract item validated) where
  versions := by
    intro v hv
    rcases List.mem_append.1 hv with hv | hv
    · exact hl.versions v hv
    · rw [List.mem_singleton.1 hv]
      exact ⟨Nat.succ_pos _, _, rfl⟩
  current := by
    intro r hr
    obtain ⟨r₀, hr₀, rfl⟩ := (mem_versioned hs hc).1 hr
    split
    · exact ⟨_, List.mem_append_right _ (List.mem_singleton_self _), rfl, rfl, rfl⟩
    · obtain ⟨v, hv, hpoints⟩ := hl.current r₀ hr₀
      exact ⟨v, List.mem_append_left _ hv, hpoints⟩
  processing := by
    intro r hr
    obtain ⟨r₀, hr₀, rfl⟩ := (mem_versioned hs hc).1 hr
    split
    · exact hl.processing contract hc
    · exact hl.processing r₀ hr₀

/-! ## The two kinds of accepted uploads -/

def processedContent (item : PendingUpload) (converted : Option (Bytes × ValidatedFile)) : Bytes :=
  (converted.map (·.1)).getD item.content

theorem storedObjects_self (objects : Objects) :
    storedObjects request objects drawn.contractId item validated converted
        (createdRow request drawn.contractId item validated converted).storagePath =
      some (processedContent item converted) := by
  unfold storedObjects createdRow contractRow
  cases converted with
  | none =>
    simp only [convertedObjects, convertedKey, Option.map_none, Option.getD_none]
    exact Function.update_self _ _ _
  | some e =>
    simp only [convertedObjects, convertedKey, Option.map_some, Option.getD_some]
    exact Function.update_self _ _ _

theorem Ready.processed (h : Ready env item validated converted) :
    let processed := (converted.map (·.2)).getD validated
    let content := processedContent item converted
    processed.sha256 = env.sha256 content ∧ processed.fileType = .pdf ∧
      pdfSignature.isPrefixOf content = true ∧ processed.size = content.length := by
  obtain ⟨hsig, hsize, hsha, -⟩ := validate_ok h.1
  cases converted with
  | none =>
    have htype := convertToPdf_none h.2
    rw [htype] at hsig
    obtain ⟨sig, hsig, hpre⟩ := List.any_eq_true.1 hsig
    obtain rfl := List.mem_singleton.1 hsig
    have hpdf : pdfSignature.isPrefixOf item.content = true :=
      List.isPrefixOf_iff_prefix.2
        ((List.isPrefixOf_iff_prefix.1 hpre).trans (List.take_prefix _ _))
    exact ⟨hsha, htype, hpdf, hsize⟩
  | some e =>
    obtain ⟨pdf, processed⟩ := e
    obtain ⟨hpdf, htype, hsize, hsha⟩ := convertToPdf_some h.2
    exact ⟨hsha, htype, hpdf, hsize⟩

theorem created_described (h : Ready env item validated converted) :
    Described env.sha256 (created request s drawn.contractId item validated converted)
      (createdRow request drawn.contractId item validated converted) := by
  obtain ⟨hsha, htype, hpdf, hsize⟩ := h.processed
  let row := createdRow request drawn.contractId item validated converted
  exact ⟨processedContent item converted, storedObjects_self s.objects, congrArg some hsha, htype,
    hpdf, hsize, rfl, firstVersion request row,
    List.mem_append_right _ (List.mem_singleton_self _), rfl, rfl, rfl, hsize⟩

/-- A contract with a new version does not: the pipeline's path moves, `processing_file_path` does
not. -/
theorem versionedRow_misdirected {contract : ContractRow} (hl : Located s)
    (hc : contract ∈ s.contracts) :
    (versionedRow s contract validated).processingFilePath ≠
      some (versionedRow s contract validated).storagePath := by
  obtain ⟨name, hname⟩ := hl.processing contract hc
  obtain ⟨v, hv, hid, -⟩ := hl.current contract hc
  have hlt := Contracts.lt_nextVersion hv hid
  have hpos := (hl.versions v hv).1
  show contract.processingFilePath ≠ some (versionKey s contract validated)
  rw [hname]
  intro he
  have := (StorageKey.contractFile_inj (Option.some.inj he)).2.2
  omega

/-! ## A batch -/

def Replaces (request : UploadRequest) (s : Contracts) (hash : String) : Prop :=
  request.options.replaceExisting = true ∧ (s.getByHash request.projectId hash).isSome = true

/-- What is known of a document accepted in the batch. -/
structure Entered (env : UploadEnv) (request : UploadRequest) (s : Contracts) (c : Carried)
    (p : Processed) (r : ContractRow) : Prop where
  row : r ∈ c.state.contracts
  contractId : p.result.contractId = some r.id
  sha256 : p.result.sha256 = some r.sha256Hash
  project : r.projectId = request.projectId
  seen : c.seen.lookup r.sha256Hash ≠ none
  kind : (¬ Replaces request s r.sha256Hash ∧ Described env.sha256 c.state r) ∨
    (Replaces request s r.sha256Hash ∧ r.processingFilePath ≠ some r.storagePath)

/-- What the loop has done since it started from `s`. -/
structure Filed (env : UploadEnv) (request : UploadRequest) (s : Contracts) (c : Carried)
    (outs : List Processed) : Prop where
  held : Held env request s c
  located : Located c.state
  keeps : Keeps s c.state
  entered : ∀ p ∈ outs, p.result.status = .accepted → ∃ r, Entered env request s c p r

theorem Filed.init (hs : s.Valid) (hl : Located s) : Filed env request s { state := s } [] where
  held := .init hs
  located := hl
  keeps := .refl s
  entered := by simp

theorem Accepted.located {contractId : Uuid} {p : Processed}
    (h : Accepted request c drawn item validated contractId t c' p) (hl : Located t) :
    Located c'.state where
  versions := by
    rw [h.versions]
    exact hl.versions
  current := by
    rw [h.versions, h.contracts]
    exact hl.current
  processing := by
    rw [h.contracts]
    exact hl.processing

theorem Accepted.keeps {contractId : Uuid} {p : Processed}
    (h : Accepted request c drawn item validated contractId t c' p) (hk : Keeps s t) :
    Keeps s c'.state := by
  unfold Keeps
  rw [h.versions, h.objects]
  exact hk

theorem Entered.later {contractId : Uuid} {p p' : Processed} (h : Entered env request s c p r)
    (ha : Accepted request c drawn item validated contractId t c' p') (hr : r ∈ t.contracts)
    (hk : Keeps c.state t) : Entered env request s c' p r where
  row := by
    rw [ha.contracts]
    exact hr
  contractId := h.contractId
  sha256 := h.sha256
  project := h.project
  seen := by
    rw [ha.seen]
    exact lookup_cons_ne_none.2 (.inr h.seen)
  kind := h.kind.imp_left fun hkind => ⟨hkind.1, hkind.2.keep (ha.keeps hk)⟩

/-- A digest that no row carries now was not live when the batch started. -/
theorem Held.not_replaces (h : Held env request s c)
    (hfree : ∀ r ∈ c.state.contracts, r.digest ≠ (request.projectId, validated.sha256)) :
    ¬ Replaces request s validated.sha256 := by
  rintro ⟨-, hsome⟩
  obtain ⟨r, hget⟩ := Option.isSome_iff_exists.1 hsome
  obtain ⟨hr, -, hd⟩ := Contracts.getByHash_some hget
  obtain ⟨r', hr', hd', -⟩ := h.kept r hr
  exact hfree r' hr' (hd'.trans hd)

theorem Held.replaces (h : Held env request s c) {contract : ContractRow}
    (hseen : c.seen.lookup validated.sha256 = none)
    (hrep : replaces request c.state validated = some contract) :
    Replaces request s validated.sha256 := by
  obtain ⟨hreplace, hget⟩ := Option.ite_none_right_eq_some.1 hrep
  obtain ⟨hc, hlive, hd⟩ := Contracts.getByHash_some hget
  refine ⟨hreplace, ?_⟩
  rcases h.origin contract hc with ⟨r, hr, hd', hdel⟩ | ⟨k, hk, hkseen⟩
  · cases hs : s.getByHash request.projectId validated.sha256 with
    | some _ => rfl
    | none => exact absurd (hdel.trans hlive) (Contracts.getByHash_none hs hr (hd'.trans hd))
  · obtain rfl : k = validated.sha256 := (Prod.mk.inj (hk.symm.trans hd)).2
    exact absurd hseen hkseen

theorem Filed.step {outs : List Processed} {p : Processed} (h : Filed env request s c outs)
    (hid : ∀ r ∈ c.state.contracts, r.id ≠ drawn.contractId)
    (hdone : Done env request c drawn item c' p) : Filed env request s c' (outs ++ [p]) := by
  have hvalid := h.held.valid
  cases hdone with
  | refused _ hp =>
    refine { h with entered := fun q hq hacc => ?_ }
    rcases List.mem_append.1 hq with hq | hq
    · exact h.entered q hq hacc
    · rw [List.mem_singleton.1 hq] at hacc
      simp [Processed.Refused, hacc] at hp
  | created validated converted _ _ hready hseen hfree ha =>
    have hk : Keeps c.state (created request c.state drawn.contractId item validated converted) :=
      created_keeps hvalid h.located hid
    refine
      { held := h.held.created hid hfree ha
        located := ha.located (created_located h.located)
        keeps := h.keeps.trans (ha.keeps hk)
        entered := fun q hq hacc => ?_ }
    rcases List.mem_append.1 hq with hq | hq
    · obtain ⟨r, hr⟩ := h.entered q hq hacc
      exact ⟨r, hr.later ha (List.mem_append_left _ hr.row) hk⟩
    · rw [List.mem_singleton.1 hq]
      refine ⟨createdRow request drawn.contractId item validated converted, ?_⟩
      have hdesc : Described env.sha256
          (created request c.state drawn.contractId item validated converted)
          (createdRow request drawn.contractId item validated converted) :=
        created_described hready
      exact
        { row := by
            rw [ha.contracts]
            exact List.mem_append_right _ (List.mem_singleton_self _)
          contractId := ha.contractId
          sha256 := ha.sha256
          project := rfl
          seen := by
            rw [ha.seen]
            exact lookup_cons_ne_none.2 (.inl rfl)
          kind := .inl ⟨h.held.not_replaces hfree, hdesc.keep (ha.keeps (.refl _))⟩ }
  | versioned validated converted contract _ _ hready hseen hrep ha =>
    obtain ⟨-, hget⟩ := Option.ite_none_right_eq_some.1 hrep
    obtain ⟨hc, -, hd⟩ := Contracts.getByHash_some hget
    have hk : Keeps c.state (versioned request c.state contract item validated) :=
      versioned_keeps h.located contract
    refine
      { held := h.held.versioned hrep ha
        located := ha.located (versioned_located hvalid h.located hc)
        keeps := h.keeps.trans (ha.keeps hk)
        entered := fun q hq hacc => ?_ }
    rcases List.mem_append.1 hq with hq | hq
    · obtain ⟨r, hr⟩ := h.entered q hq hacc
      -- The digest of the earlier document is among those seen, that of this one is not.
      have hne : r.id ≠ contract.id := by
        intro he
        obtain rfl := Keyed.inj hvalid.ids hr.row hc he
        refine hr.seen ?_
        rw [(Prod.mk.inj hd).2]
        exact hseen
      exact ⟨r, hr.later ha ((mem_versioned hvalid hc).2 ⟨r, hr.row, by rw [if_neg hne]⟩) hk⟩
    · rw [List.mem_singleton.1 hq]
      refine ⟨versionedRow c.state contract validated, ?_⟩
      exact
        { row := by
            rw [ha.contracts]
            exact (mem_versioned hvalid hc).2 ⟨contract, hc, by rw [if_pos rfl]⟩
          contractId := ha.contractId
          sha256 := ha.sha256
          project := (Prod.mk.inj hd).1
          seen := by
            rw [ha.seen]
            exact lookup_cons_ne_none.2 (.inl rfl)
          kind := .inr ⟨h.held.replaces hseen hrep, versionedRow_misdirected h.located hc⟩ }

theorem Filed.run {outs outs' : List Processed} {items : List (PendingUpload × Drawn)}
    (h : Filed env request s c outs) (hf : Fresh c.state items)
    (hok : processAll env request c items = .ok (c', outs')) :
    Filed env request s c' (outs ++ outs') := by
  induction items generalizing c outs outs' with
  | nil =>
    cases hok
    rw [List.append_nil]
    exact h
  | cons i items ih =>
    obtain ⟨item, drawn⟩ := i
    obtain ⟨⟨c₁, p⟩, hfirst, hok⟩ := Except.bind_eq_ok.1 hok
    obtain ⟨⟨c₂, rest⟩, hrest, hok⟩ := Except.bind_eq_ok.1 hok
    cases Except.pure_eq_ok.1 hok
    have hid : ∀ r ∈ c.state.contracts, r.id ≠ drawn.contractId :=
      fun r hr => hf.2 _ List.mem_cons_self r hr
    have hdone := done_of_ok h.held.valid hid hfirst
    have := ih (h.step hid hdone) (hf.tail (hdone.ids h.held.valid)) hrest
    rwa [List.append_assoc] at this

theorem Filed.aborts {outs : List Processed} {items : List (PendingUpload × Drawn)} {a : Aborted}
    (h : Filed env request s c outs) (hf : Fresh c.state items)
    (herr : processAll env request c items = .error a) :
    ∀ v ∈ s.versions, a.objects v.storagePath = s.objects v.storagePath := by
  induction items generalizing c outs with
  | nil => cases herr
  | cons i items ih =>
    obtain ⟨item, drawn⟩ := i
    have hid : ∀ r ∈ c.state.contracts, r.id ≠ drawn.contractId :=
      fun r hr => hf.2 _ List.mem_cons_self r hr
    cases hfirst : processOne env request c drawn item with
    | ok first =>
      obtain ⟨c₁, p⟩ := first
      rw [processAll_cons_ok hfirst] at herr
      have hdone := done_of_ok h.held.valid hid hfirst
      cases hrest : processAll env request c₁ items with
      | ok rest =>
        rw [hrest] at herr
        cases herr
      | error b =>
        rw [hrest] at herr
        cases herr
        exact ih (h.step hid hdone) (hf.tail (hdone.ids h.held.valid)) hrest
    | error b =>
      simp only [processAll, hfirst, bind, Except.bind] at herr
      cases herr
      obtain ⟨validated, converted, hobjects⟩ := aborted_of_error h.held.valid hid hfirst
      intro v hv
      rw [hobjects, h.located.storedObjects h.held.valid hid (h.keeps.1 hv)]
      exact h.keeps.2 v hv

/-! ## Contracts that were never replaced -/

def AllDescribed (sha256 : Bytes → String) (s : Contracts) : Prop :=
  ∀ r ∈ s.contracts, r.deletedAt = none → Described sha256 s r

theorem AllDescribed.keep (h : AllDescribed sha256 s) (rows : List ContractRow) (hk : Keeps s t)
    (hrows : ∀ r ∈ t.contracts, r.deletedAt = none → r ∈ s.contracts ∨ r ∈ rows)
    (hnew : ∀ r ∈ rows, Described sha256 t r) : AllDescribed sha256 t := by
  intro r hr hlive
  rcases hrows r hr hlive with hr | hr
  · exact (h r hr hlive).keep hk
  · exact hnew r hr

theorem AllDescribed.processed {outs : List Processed} {p : Processed}
    (h : AllDescribed env.sha256 c.state) (hfiled : Filed env request s c outs)
    (hid : ∀ r ∈ c.state.contracts, r.id ≠ drawn.contractId)
    (hno : ¬ Replaces request s (env.sha256 item.content))
    (hdone : Done env request c drawn item c' p) : AllDescribed env.sha256 c'.state := by
  cases hdone with
  | refused => exact h
  | created validated converted _ _ hready hseen hfree ha =>
    have hk : Keeps c.state (created request c.state drawn.contractId item validated converted) :=
      created_keeps hfiled.held.valid hfiled.located hid
    refine h.keep [createdRow request drawn.contractId item validated converted] (ha.keeps hk)
      (fun r hr _ => ?_) (fun r hr => ?_)
    · rw [ha.contracts] at hr
      exact List.mem_append.1 hr
    · rw [List.mem_singleton.1 hr]
      have hdesc : Described env.sha256
          (created request c.state drawn.contractId item validated converted)
          (createdRow request drawn.contractId item validated converted) :=
        created_described hready
      exact hdesc.keep (ha.keeps (.refl _))
  | versioned validated converted contract _ _ hready hseen hrep ha =>
    refine absurd (hfiled.held.replaces hseen hrep) ?_
    rw [hready.sha256]
    exact hno

theorem AllDescribed.run {outs outs' : List Processed} {items : List (PendingUpload × Drawn)}
    (h : AllDescribed env.sha256 c.state) (hfiled : Filed env request s c outs)
    (hf : Fresh c.state items)
    (hno : ∀ i ∈ items, ¬ Replaces request s (env.sha256 i.1.content))
    (hok : processAll env request c items = .ok (c', outs')) : AllDescribed env.sha256 c'.state := by
  induction items generalizing c outs outs' with
  | nil =>
    cases hok
    exact h
  | cons i items ih =>
    obtain ⟨item, drawn⟩ := i
    obtain ⟨⟨c₁, p⟩, hfirst, hok⟩ := Except.bind_eq_ok.1 hok
    obtain ⟨⟨c₂, rest⟩, hrest, hok⟩ := Except.bind_eq_ok.1 hok
    cases Except.pure_eq_ok.1 hok
    have hid : ∀ r ∈ c.state.contracts, r.id ≠ drawn.contractId :=
      fun r hr => hf.2 _ List.mem_cons_self r hr
    have hdone := done_of_ok hfiled.held.valid hid hfirst
    exact ih (h.processed hfiled hid (hno _ List.mem_cons_self) hdone) (hfiled.step hid hdone)
      (hf.tail (hdone.ids hfiled.held.valid)) (fun i hi => hno i (List.mem_cons_of_mem _ hi)) hrest

/-! ## Requests -/

theorem expandArchive_status {archiveId : Uuid} {file : UploadFile} {result : UploadedFileResult}
    (h : result ∈ (expandArchive env archiveId file).2) : result.status ≠ .accepted := by
  unfold expandArchive at h
  simp only at h
  split at h
  · split at h
    · rw [List.mem_singleton.1 h]
      exact UploadStatus.noConfusion
    · rw [List.mem_singleton.1 h]
      unfold archiveResult
      simp only
      split
      · exact UploadStatus.noConfusion
      · exact UploadStatus.noConfusion
  · exact absurd h List.not_mem_nil

theorem unqueued_status (result : UploadedFileResult) : (unqueued result).status ≠ .accepted := by
  unfold unqueued
  split
  · exact UploadStatus.noConfusion
  next h => exact h

theorem upload_ok {response : UploadResponse} (h : upload env request s = .ok (t, response)) :
    ∃ c outs, processAll env request { state := s } (documents env request) = .ok (c, outs) ∧
      t.contracts = c.state.contracts ∧ t.versions = c.state.versions ∧
      t.objects = c.state.objects ∧
      ∀ result ∈ response.files, result.status = .accepted → ∃ p ∈ outs, p.result = result := by
  by_cases hadmitted : Admitted env request
  · rw [upload_admitted hadmitted] at h
    obtain ⟨⟨c, outs⟩, hrun, h⟩ := Except.map_eq_ok.1 h
    refine ⟨c, outs, hrun, ?_⟩
    -- The rows reported for archives are never accepted.
    have harchive : ∀ result ∈ (expandArchives env request).2, result.status ≠ .accepted := by
      intro result hr
      obtain ⟨part, hpart, hr⟩ := List.mem_flatMap.1 hr
      obtain ⟨e, -, rfl⟩ := List.mem_map.1 hpart
      exact expandArchive_status hr
    have hfiles : ∀ result ∈ (expandArchives env request).2 ++ outs.map (·.result),
        result.status = .accepted → ∃ p ∈ outs, p.result = result := by
      intro result hr hacc
      rcases List.mem_append.1 hr with hr | hr
      · exact absurd hacc (harchive result hr)
      · exact List.mem_map.1 hr
    unfold enqueue at h
    split at h
    · cases h
      exact ⟨rfl, rfl, rfl, hfiles⟩
    · split at h
      · cases h
        exact ⟨rfl, rfl, rfl, hfiles⟩
      · cases h
        refine ⟨rfl, rfl, rfl, fun result hr hacc => ?_⟩
        obtain ⟨r, -, rfl⟩ := List.mem_map.1 hr
        exact absurd hacc (unqueued_status r)
  · obtain ⟨e, he⟩ := upload_refused hadmitted
    cases he.symm.trans h

/-- A request that raises changes no row, and leaves the files of all versions as they were. -/
theorem upload_error {a : Aborted} (hs : s.Valid) (hl : Located s)
    (hf : Fresh s (documents env request)) (h : upload env request s = .error a) :
    Keeps s { s with objects := a.objects } := by
  refine ⟨fun _ hv => hv, fun v hv => ?_⟩
  by_cases hadmitted : Admitted env request
  · rw [upload_admitted hadmitted] at h
    cases hrun : processAll env request { state := s } (documents env request) with
    | ok out =>
      rw [hrun] at h
      cases h
    | error b =>
      rw [hrun] at h
      cases h
      exact (Filed.init hs hl).aborts hf hrun v hv
  · obtain ⟨e, he⟩ := upload_refused hadmitted
    cases he.symm.trans h
    rfl

/-! ## Runs -/

/-- The invariant of every run. -/
structure Sound (s : Contracts) : Prop where
  valid : s.Valid
  located : Located s

theorem Sound.empty : Sound {} where
  valid := ⟨List.nodup_nil, List.nodup_nil, List.nodup_nil, fun _ h => absurd h List.not_mem_nil⟩
  located := ⟨fun _ h => absurd h List.not_mem_nil, fun _ h => absurd h List.not_mem_nil,
    fun _ h => absurd h List.not_mem_nil⟩

theorem Sound.congr (h : Sound s) (hc : t.contracts = s.contracts) (hv : t.versions = s.versions) :
    Sound t where
  valid := by
    refine ⟨?_, ?_, ?_, ?_⟩
    · rw [hc]
      exact h.valid.ids
    · rw [hc]
      exact h.valid.digests
    · rw [hv]
      exact h.valid.keys
    · rw [hv, hc]
      exact h.valid.owned
  located := by
    refine ⟨?_, ?_, ?_⟩
    · rw [hv]
      exact h.located.versions
    · rw [hv, hc]
      exact h.located.current
    · rw [hc]
      exact h.located.processing

theorem Sound.update (h : Sound s) (f : ContractRow → ContractRow)
    (hf : ∀ r, (f r).id = r.id ∧ (f r).digest = r.digest ∧ (f r).projectId = r.projectId ∧
      (f r).storagePath = r.storagePath ∧ (f r).processingFilePath = r.processingFilePath) :
    Sound { s with contracts := s.contracts.map f } where
  valid :=
    { ids := Keyed.update h.valid.ids fun r => (hf r).1
      digests := Keyed.update h.valid.digests fun r => (hf r).2.1
      keys := h.valid.keys
      owned := fun v hv => by
        obtain ⟨r, hr, hrid⟩ := h.valid.owned v hv
        exact ⟨f r, List.mem_map_of_mem hr, (hf r).1.trans hrid⟩ }
  located :=
    { versions := h.located.versions
      current := fun r hr => by
        obtain ⟨r₀, hr₀, rfl⟩ := List.mem_map.1 hr
        obtain ⟨hid, -, hproject, hpath, -⟩ := hf r₀
        rw [hid, hproject, hpath]
        exact h.located.current r₀ hr₀
      processing := fun r hr => by
        obtain ⟨r₀, hr₀, rfl⟩ := List.mem_map.1 hr
        obtain ⟨hid, -, hproject, -, hpath⟩ := hf r₀
        rw [hid, hproject, hpath]
        exact h.located.processing r₀ hr₀ }

theorem Sound.softDelete (h : Sound s) (id : Uuid) (now : Timestamp) :
    Sound (s.softDelete id now) := by
  refine h.update _ fun r => ?_
  split <;> exact ⟨rfl, rfl, rfl, rfl, rfl⟩

/-- What a deletion leaves. -/
theorem deleteContract_some {contractId projectId : Uuid} {purge : Bool} {now : Timestamp}
    (h : deleteContract s contractId projectId purge now = some t) :
    t.contracts = (s.softDelete contractId now).contracts ∧ t.versions = s.versions ∧
      ∀ key, Text.startsWith (StorageKey.contractPrefix projectId contractId) key = false →
        t.objects key = s.objects key := by
  unfold deleteContract at h
  split at h
  · cases h
  · split at h
    · cases h
    · cases h
      split
      · refine ⟨rfl, rfl, fun key hkey => ?_⟩
        simp [Objects.deletePrefix, hkey]
      · exact ⟨rfl, rfl, fun _ _ => rfl⟩

theorem Sound.step (h : Sound s) {a : Action} (hstep : step sha256 s a = some t) : Sound t := by
  cases a with
  | upload env request =>
    obtain ⟨hf, hstep⟩ := Option.ite_none_right_eq_some.1 hstep
    obtain rfl := Option.some.inj hstep
    cases hup : upload { env with sha256 } request s with
    | ok answer =>
      obtain ⟨t, response⟩ := answer
      obtain ⟨c, outs, hrun, hc, hv, -, -⟩ := upload_ok hup
      have hfiled := (Filed.init h.valid h.located).run hf hrun
      exact Sound.congr ⟨hfiled.held.valid, hfiled.located⟩ hc hv
    | error a => exact h.congr rfl rfl
  | deleteContract contractId projectId purge now =>
    obtain ⟨hc, hv, -⟩ := deleteContract_some hstep
    exact (h.softDelete contractId now).congr hc hv
  | progress jobId state =>
    obtain rfl := Option.some.inj hstep
    exact h.congr rfl rfl

theorem reach_sound (hs : (machine sha256).Reach s) : Sound s := by
  have hinv : (machine sha256).Invariant Machine.anyStep Sound :=
    { init := fun s hs => by
        rw [show s = {} from hs]
        exact .empty
      step := fun s a t h _ hstep => h.step hstep }
  exact hinv.reach hs

def CreatesOnly (sha256 : Bytes → String) (s : Contracts) : Action → Prop
  | .upload env request =>
    ∀ i ∈ documents env request, ¬ Replaces request s (sha256 i.1.content)
  | _ => True

theorem AllDescribed.action (hsound : Sound s) (h : AllDescribed sha256 s) {a : Action}
    (hG : CreatesOnly sha256 s a) (hstep : step sha256 s a = some t) : AllDescribed sha256 t := by
  cases a with
  | upload env request =>
    obtain ⟨hf, hstep⟩ := Option.ite_none_right_eq_some.1 hstep
    obtain rfl := Option.some.inj hstep
    cases hup : upload { env with sha256 } request s with
    | ok answer =>
      obtain ⟨t, response⟩ := answer
      obtain ⟨c, outs, hrun, hc, hv, ho, -⟩ := upload_ok hup
      have hno : ∀ i ∈ documents { env with sha256 } request,
          ¬ Replaces request s (sha256 i.1.content) := hG
      have hfiled : Filed { env with sha256 } request s { state := s } [] :=
        .init hsound.valid hsound.located
      have hall : AllDescribed sha256 c.state := AllDescribed.run h hfiled hf hno hrun
      refine hall.keep [] ⟨?_, ?_⟩ (fun r hr _ => .inl (hc ▸ hr)) (by simp)
      · rw [show (committed s (.ok (t, response))).versions = c.state.versions from hv]
        exact List.Subset.refl _
      · intro v _
        exact congrFun ho _
    | error a =>
      exact h.keep [] (upload_error hsound.valid hsound.located hf hup) (fun r hr _ => .inl hr)
        (by simp)
  | deleteContract contractId projectId purge now =>
    obtain ⟨hc, hv, ho⟩ := deleteContract_some hstep
    intro r hr hlive
    rw [hc] at hr
    obtain ⟨r₀, hr₀, rfl⟩ := List.mem_map.1 hr
    by_cases hid : r₀.id = contractId
    · simp [hid] at hlive
    · rw [if_neg hid] at hlive ⊢
      obtain ⟨content, hobj, hproc, htype, hpdf, hsize, hpath, v, hvmem, hrest⟩ := h r₀ hr₀ hlive
      refine ⟨content, ?_, hproc, htype, hpdf, hsize, hpath, v, hv ▸ hvmem, hrest⟩
      rw [ho, hobj]
      -- Only the files of the deleted contract are below its prefix.
      obtain ⟨w, hw, hwid, hwproject, hwpath⟩ := hsound.located.current r₀ hr₀
      obtain ⟨-, name, hname⟩ := hsound.located.versions w hw
      rw [← hwpath, hname, hwid]
      cases hstart : Text.startsWith (StorageKey.contractPrefix projectId contractId)
          (StorageKey.contractFile w.projectId r₀.id w.version name) with
      | false => rfl
      | true => exact absurd (StorageKey.contractPrefix_inj hstart).2.symm hid
  | progress jobId state =>
    obtain rfl := Option.some.inj hstep
    exact h

theorem reach_allDescribed (hs : (machine sha256).ReachIf (CreatesOnly sha256) s) :
    AllDescribed sha256 s := by
  have hinv : (machine sha256).Invariant (CreatesOnly sha256)
      fun s => Sound s ∧ AllDescribed sha256 s :=
    { init := fun s hs => by
        rw [show s = {} from hs]
        exact ⟨.empty, fun _ h => absurd h List.not_mem_nil⟩
      step := fun s a t h hG hstep => ⟨h.1.step hstep, h.2.action h.1 hG hstep⟩ }
  exact (hinv.reach hs).2

/-- After a run whose uploads replace nothing, `VALIDATION` reads the file of every live contract,
and only its size, its structure or the scanner can reject it. -/
theorem validation_reads (hs : (machine sha256).ReachIf (CreatesOnly sha256) s)
    (hdigest : ∀ content, sha256 content ≠ "") (hr : r ∈ s.contracts) (hlive : r.deletedAt = none)
    (stage : ValidationEnv) :
    ∃ content, s.objects r.storagePath = some content ∧ r.fileSize = content.length ∧
      ValidationStage.run { stage with sha256 } s.objects r =
        .ok (if stage.settings.maxUploadSizeBytes < content.length then
          ValidationStage.tooLarge stage
        else ValidationStage.checkDocument stage r content) := by
  obtain ⟨content, hobj, hsha, htype, hpdf, hsize, -⟩ := reach_allDescribed hs r hr hlive
  refine ⟨content, hobj, hsize, ?_⟩
  have hhash : ValidationStage.expectedHash r = sha256 content := by
    unfold ValidationStage.expectedHash
    rw [hsha]
    split
    next h => cases h
    next h => exact absurd (Option.some.inj h) (hdigest content)
    next h => exact (Option.some.inj h).symm
  have hlong := (List.isPrefixOf_iff_prefix.1 hpdf).length_le
  have hpos : content.length ≠ 0 := by
    intro h
    rw [h] at hlong
    exact absurd hlong (by decide)
  have hsign : (ValidationStage.signatures r.fileType).any (·.isPrefixOf (content.take 8)) =
      true := by
    obtain ⟨rest, rfl⟩ := List.isPrefixOf_iff_prefix.1 hpdf
    rw [htype]
    simp [ValidationStage.signatures, signatures, pdfSignature, List.isPrefixOf]
  unfold ValidationStage.run ValidationStage.checkContent
  simp only [hobj, hhash, ne_eq, not_true_eq_false, if_false, hpos, hsign, Bool.true_eq_false]
  split <;> rfl

/-- After every accepted upload, in any reachable state, the contract describes its stored file
exactly when the upload did not replace a live contract; and after a run whose uploads replace
nothing, every live contract does. -/
theorem accepted_described_iff (sha256 : Bytes → String) :
    (∀ s env request t response, (machine sha256).Reach s → Fresh s (documents env request) →
      upload { env with sha256 } request s = .ok (t, response) →
      ∀ result ∈ response.files, result.status = .accepted →
      ∃ r ∈ t.contracts, result.contractId = some r.id ∧ result.sha256 = some r.sha256Hash ∧
        (Described sha256 t r ↔
          ¬ (request.options.replaceExisting = true ∧
            (s.getByHash request.projectId r.sha256Hash).isSome = true))) ∧
    ∀ s, (machine sha256).ReachIf (CreatesOnly sha256) s → AllDescribed sha256 s := by
  constructor
  · intro s env request t response hs hf hup result hresult hacc
    obtain ⟨hvalid, hlocated⟩ := reach_sound hs
    obtain ⟨c, outs, hrun, hc, hv, ho, hfiles⟩ := upload_ok hup
    obtain ⟨p, hp, rfl⟩ := hfiles result hresult hacc
    have hfiled := (Filed.init hvalid hlocated).run hf hrun
    obtain ⟨r, hr⟩ := hfiled.entered p hp hacc
    refine ⟨r, hc ▸ hr.row, hr.contractId, hr.sha256, ?_⟩
    have hkeep : Keeps c.state t := by
      refine ⟨?_, fun v _ => congrFun ho _⟩
      rw [hv]
      exact List.Subset.refl _
    rcases hr.kind with ⟨hnot, hdesc⟩ | ⟨hrep, hpath⟩
    · exact iff_of_true (hdesc.keep hkeep) hnot
    · refine iff_of_false (fun hdesc => ?_) (not_not_intro hrep)
      obtain ⟨_, _, _, _, _, _, hsame, _⟩ := hdesc
      exact hpath hsame
  · intro s hs
    have hinv : (machine sha256).Invariant (CreatesOnly sha256)
        fun s => Sound s ∧ AllDescribed sha256 s :=
      { init := fun s hs => by
          rw [show s = {} from hs]
          exact ⟨.empty, fun _ h => absurd h List.not_mem_nil⟩
        step := fun s a t h hG hstep => ⟨h.1.step hstep, h.2.action h.1 hG hstep⟩ }
    exact (hinv.reach hs).2

/-! ## A Word document replaced by itself -/

def sampleWord : Bytes := [0x50, 0x4B, 0x03, 0x04, 0x77, 0x6F, 0x72, 0x64, 0x2F]

def wordEnv : UploadEnv :=
  { sampleEnv with
    namelist := fun _ => some ["word/document.xml"]
    soffice := fun _ _ => .exited 0 "" [samplePdf] }

def wordRequest (n : Nat) (replaceExisting : Bool) : UploadRequest :=
  { sampleRequest n with
    files := [{ filename := "nda.docx", content := sampleWord }]
    options := { replaceExisting } }

def misdirects : Except Aborted (Contracts × UploadResponse) → Bool
  | .ok (t, response) =>
    response.files.any (·.status = .accepted) &&
      t.contracts.all fun r => r.processingFilePath ≠ some r.storagePath
  | .error _ => false

theorem misdirects_ok {answer : Except Aborted (Contracts × UploadResponse)}
    (h : misdirects answer = true) : ∃ t response, answer = .ok (t, response) ∧
      (∃ result ∈ response.files, result.status = .accepted) ∧
      ∀ r ∈ t.contracts, r.processingFilePath ≠ some r.storagePath := by
  cases answer with
  | error a => cases h
  | ok answer =>
    obtain ⟨t, response⟩ := answer
    simp only [misdirects, Bool.and_eq_true, List.any_eq_true, List.all_eq_true,
      decide_eq_true_eq] at h
    exact ⟨t, response, rfl, h.1, h.2⟩

/-- Uploading it again with `replace_existing` is accepted, and the contract no longer describes its
stored file. -/
theorem replaced_word_not_described : ∃ s t response,
    (machine wordEnv.sha256).Reach s ∧ Fresh s (documents wordEnv (wordRequest 2 true)) ∧
      upload wordEnv (wordRequest 2 true) s = .ok (t, response) ∧
      (∃ result ∈ response.files, result.status = .accepted) ∧
      ∀ r ∈ t.contracts, ¬ Described wordEnv.sha256 t r := by
  have h : ((machine wordEnv.sha256).exec {} [.upload wordEnv (wordRequest 1 false)]).any
      (fun s => decide (Fresh s (documents wordEnv (wordRequest 2 true))) &&
        misdirects (upload wordEnv (wordRequest 2 true) s)) = true := by decide
  obtain ⟨s, hs, h⟩ := (Option.any_eq_true _ _).1 h
  obtain ⟨hf, hup⟩ := Bool.and_eq_true_iff.1 h
  obtain ⟨t, response, hup, hacc, hpath⟩ := misdirects_ok hup
  refine ⟨s, t, response, Machine.reach_of_exec rfl hs, of_decide_eq_true hf, hup, hacc, ?_⟩
  intro r hr hdesc
  obtain ⟨_, _, _, _, _, _, hsame, _⟩ := hdesc
  exact hpath r hr hsame

def sampleStage : ValidationEnv :=
  { sha256 := wordEnv.sha256, checkStructure := fun _ _ => { pageCount := some 3 } }

/-- A Word document that has been uploaded and converted. -/
theorem uploaded_word_reads : ∃ s : Contracts, ∃ r ∈ s.contracts, ∃ content : Bytes,
    s.objects r.storagePath = some content ∧ r.fileSize = content.length ∧
      ValidationStage.run sampleStage s.objects r =
        .ok (if 200 * 1024 * 1024 < content.length then ValidationStage.tooLarge sampleStage
        else .passed (some 3)) := by
  have h : ((machine wordEnv.sha256).step {} (.upload wordEnv (wordRequest 1 false))).any
      (fun s => s.contracts.any (·.deletedAt = none)) = true := by decide
  obtain ⟨s, hs, h⟩ := (Option.any_eq_true _ _).1 h
  obtain ⟨r, hr, hlive⟩ := List.any_eq_true.1 h
  have hcreates : CreatesOnly wordEnv.sha256 {} (.upload wordEnv (wordRequest 1 false)) :=
    fun _ _ h => absurd h.1 (by decide)
  have hreach : (machine wordEnv.sha256).ReachIf (CreatesOnly wordEnv.sha256) s :=
    ⟨{}, rfl, Machine.Run.single hcreates hs⟩
  have hdigest : ∀ content, wordEnv.sha256 content ≠ "" := by
    intro content
    show (if _ then _ else _) ≠ _
    split <;> decide
  exact ⟨s, r, hr, validation_reads hreach hdigest hr (of_decide_eq_true hlive) sampleStage⟩

end Upload

end Clear

/-!
## The original and its converted copy

A Word upload is stored twice in the directory of its version: under the name that was sent and under
the name of the PDF. The two names have one stem, and a key holds 255 characters of a name: the keys
differ exactly if the stem leaves room for the first character of the extension
(`originalKey_ne_iff`).
-/

namespace Clear

namespace Upload

def isWord (fileName : String) : Bool :=
  (FileType.ofValue? (extension fileName)).any (·.needsPdfConversion)

/-- The name without its extension, as `pdf_name_for` cuts it. -/
def stemOf (fileName : String) : String := ((Text.rsplit1 '.' fileName).map (·.1)).getD fileName

theorem eq_of_toLower {c d : Char} (h : c.toLower = d) :
    c = d ∨ (c.toNat + 32 = d.toNat ∧ c = Char.ofNat (d.toNat - 32)) := by
  have hnat := congrArg Char.toNat h
  rw [Text.toNat_toLower] at hnat
  split at hnat
  · refine .inr ⟨hnat, ?_⟩
    rw [← hnat, Nat.add_sub_cancel, Char.ofNat_toNat]
  · exact .inl (Char.toNat_inj.1 hnat)

theorem wordLetter {c d : Char} (hd : d ∈ ['d', 'o', 'c', 'x']) (h : c.toLower = d) :
    StorageKey.isSafe c = true ∧ c ∉ ['.', ' '] ∧ c ≠ 'p' := by
  simp only [List.mem_cons, List.not_mem_nil, or_false] at hd
  rcases hd with rfl | rfl | rfl | rfl <;> rcases eq_of_toLower h with rfl | ⟨-, rfl⟩ <;> decide

theorem isWord_extension {fileName : String} (h : isWord fileName = true) :
    extension fileName = "doc" ∨ extension fileName = "docx" := by
  unfold isWord at h
  cases htype : FileType.ofValue? (extension fileName) with
  | none => simp [htype] at h
  | some t =>
    rw [htype] at h
    have hvalue : t.value = extension fileName := by
      simpa using List.find?_some htype
    rw [← hvalue]
    cases t
    · cases h
    · exact .inl rfl
    · exact .inr rfl

theorem wordLetters {s t : List Char} (ht : ∀ d ∈ t, d ∈ ['d', 'o', 'c', 'x'])
    (h : s.flatMap Text.lowerChar = t) :
    ∀ c ∈ s, StorageKey.isSafe c = true ∧ c ∉ ['.', ' '] ∧ c ≠ 'p' := by
  induction s generalizing t with
  | nil => simp
  | cons a s ih =>
    cases t with
    | nil =>
      rw [List.flatMap_cons, List.append_eq_nil_iff] at h
      exact absurd h.1 (by unfold Text.lowerChar; split <;> [skip; split] <;> simp)
    | cons d t =>
      have hd := ht d List.mem_cons_self
      obtain ⟨hlower, hrest⟩ := Text.lower_cons
        ⟨fun he => by subst he; revert hd; decide, fun he => by subst he; revert hd; decide⟩ h
      intro c hc
      rcases List.mem_cons.1 hc with rfl | hc
      · exact wordLetter hd hlower
      · exact ih (fun d hd => ht d (List.mem_cons_of_mem _ hd)) hrest c hc

theorem isWord_name {fileName : String} (h : isWord fileName = true) :
    ∃ c x, fileName = stemOf fileName ++ String.ofList ('.' :: c :: x) ∧
      ∀ a ∈ c :: x, StorageKey.isSafe a = true ∧ a ∉ ['.', ' '] ∧ a ≠ 'p' := by
  have hext := isWord_extension h
  unfold extension at hext
  unfold stemOf
  cases hsplit : Text.rsplit1 '.' fileName with
  | none =>
    rw [hsplit] at hext
    exact absurd hext (by decide)
  | some parts =>
    obtain ⟨stem, ext⟩ := parts
    obtain ⟨hname, -⟩ := Text.rsplit1_eq_some hsplit
    rw [hsplit] at hext
    dsimp only at hext
    have hletters : ∃ t : List Char, t ≠ [] ∧ (∀ d ∈ t, d ∈ ['d', 'o', 'c', 'x']) ∧
        ext.toList.flatMap Text.lowerChar = t := by
      rcases hext with hext | hext
      · exact ⟨['d', 'o', 'c'], by simp, by simp, by
          rw [← String.toList_ofList (l := List.flatMap _ _)]; exact congrArg String.toList hext⟩
      · exact ⟨['d', 'o', 'c', 'x'], by simp, by simp, by
          rw [← String.toList_ofList (l := List.flatMap _ _)]; exact congrArg String.toList hext⟩
    obtain ⟨t, hne, ht, hlower⟩ := hletters
    have hsafe := wordLetters ht hlower
    cases hchars : ext.toList with
    | nil =>
      rw [hchars] at hlower
      exact absurd hlower.symm hne
    | cons c x =>
      rw [hchars] at hname hsafe
      exact ⟨c, x, hname, hsafe⟩

theorem pdfNameFor_eq (fileName : String) :
    pdfNameFor fileName = stemOf fileName ++ String.ofList ('.' :: 'p' :: ['d', 'f']) := rfl

/-- The keys of a Word document and of its PDF differ exactly if the stem, as it is stored, has at
most 253 characters. -/
theorem originalKey_ne_iff (projectId contractId : Uuid) (version : Nat) {fileName : String}
    (h : isWord fileName = true) :
    StorageKey.contractFile projectId contractId version fileName ≠
        StorageKey.contractFile projectId contractId version (pdfNameFor fileName) ↔
      (StorageKey.keptStem (stemOf fileName)).length ≤ 253 := by
  obtain ⟨c, x, hname, hsafe⟩ := isWord_name h
  have hkey : StorageKey.contractFile projectId contractId version fileName =
      StorageKey.contractFile projectId contractId version (pdfNameFor fileName) ↔
        StorageKey.safe fileName = StorageKey.safe (pdfNameFor fileName) := by
    unfold StorageKey.contractFile
    exact ⟨fun he => (StorageKey.append_inj rfl he).2, fun he => by rw [he]⟩
  have hsame : StorageKey.safe fileName = StorageKey.safe (pdfNameFor fileName) ↔
      254 ≤ (StorageKey.keptStem (stemOf fileName)).length := by
    have hsafe' := fun a ha => And.intro (hsafe a ha).1 (hsafe a ha).2.1
    rw [pdfNameFor_eq, ← StorageKey.safe_append_eq_iff (hsafe c List.mem_cons_self).2.2 hsafe'
      (show ∀ a ∈ 'p' :: ['d', 'f'], StorageKey.isSafe a = true ∧ a ∉ ['.', ' '] from
        StorageKey.forall_of_all (by decide)),
      ← hname]
  rw [Ne, hkey, hsame]
  omega

theorem originalKey_ne_agreement :
    StorageKey.contractFile 1 2 1 "Agreement.docx" ≠
        StorageKey.contractFile 1 2 1 (pdfNameFor "Agreement.docx") ↔
      (StorageKey.keptStem (stemOf "Agreement.docx")).length ≤ 253 :=
  originalKey_ne_iff 1 2 1 (by decide)

theorem keptStem_replicate (n : Nat) :
    StorageKey.keptStem (String.ofList (List.replicate n 'a')) = List.replicate n 'a' := by
  unfold StorageKey.keptStem Text.splitOn
  simp only [String.toList_ofList, List.map_replicate]
  rw [if_neg (by decide), Text.partsFrom_of_notMem (by simp [List.mem_replicate])]
  rw [List.getLastD_cons, List.getLastD_nil, List.reverse_nil, List.nil_append,
    String.toList_ofList, Text.replaceRuns_eq_self]
  · refine Text.dropWhile_eq_self fun c hc => ?_
    rw [List.eq_of_mem_replicate (List.mem_of_mem_head? hc)]
    decide
  · intro c hc
    rw [List.eq_of_mem_replicate hc]
    decide

def longName : String :=
  String.ofList (List.replicate 254 'a') ++ String.ofList ('.' :: 'd' :: ['o', 'c', 'x'])

/-- Its PDF overwrites it. -/
theorem longName_overwritten :
    isWord longName = true ∧ StorageKey.contractFile 1 2 1 longName =
      StorageKey.contractFile 1 2 1 (pdfNameFor longName) := by
  have hsplit : Text.rsplit1 '.' longName =
      some (String.ofList (List.replicate 254 'a'), String.ofList ['d', 'o', 'c', 'x']) :=
    Text.rsplit1_append (by decide) _
  have hstem : stemOf longName = String.ofList (List.replicate 254 'a') := by
    unfold stemOf
    rw [hsplit]
    rfl
  refine ⟨?_, ?_⟩
  · unfold isWord extension
    rw [hsplit]
    decide
  · have hsame : StorageKey.safe longName = StorageKey.safe (pdfNameFor longName) := by
      rw [pdfNameFor_eq, hstem]
      refine (StorageKey.safe_append_eq_iff (by decide) (StorageKey.forall_of_all (by decide))
        (StorageKey.forall_of_all (by decide))).2 ?_
      rw [keptStem_replicate, List.length_replicate]
    unfold StorageKey.contractFile
    rw [hsame]

end Upload

end Clear
