import Clear.Services.Proof.Document

/-!
# One file never costs the batch

A document that would violate the unique constraint of the contracts makes the whole request fail.
It does exactly when it is ready and its digest belongs to a row that the duplicate check does not
see (a soft-deleted contract) or does not act upon (`duplicateCheck` off and no replacement):

* `Held.step`: one document either keeps the loop's invariant or aborts the request,
* `processAll_cases`: the same for a batch,
* `never_costs_the_batch_iff`: the batch is safe exactly when every document is `Harmless`.
-/

namespace Clear

namespace Upload

variable {env : UploadEnv} {request : UploadRequest} {s : Contracts} {c c' : Carried}
  {drawn : Drawn} {item : PendingUpload} {validated : ValidatedFile}
  {converted : Option (Bytes × ValidatedFile)}

/-! ## The condition -/

/-- Every row with the digest of the document, if that is ready, is live, and the request refuses or
replaces it. -/
def Harmless (env : UploadEnv) (request : UploadRequest) (s : Contracts) (item : PendingUpload) :
    Prop :=
  ∀ validated converted, Ready env item validated converted →
    ∀ r ∈ s.contracts, r.digest = (request.projectId, validated.sha256) →
      r.deletedAt = none ∧
        (env.settings.duplicateCheck = true ∨ request.options.replaceExisting = true)

theorem Ready.unique {validated' : ValidatedFile} {converted' : Option (Bytes × ValidatedFile)}
    (h : Ready env item validated converted) (h' : Ready env item validated' converted') :
    validated = validated' := Except.ok.inj (h.1.symm.trans h'.1)

/-! ## The invariant of the loop -/

/-- What the loop carries, against the state `s` it started from: the digests are those of `s` and
of the hashes accepted in this batch, and what was accepted is tolerated by `s`. -/
structure Held (env : UploadEnv) (request : UploadRequest) (s : Contracts) (c : Carried) : Prop where
  valid : c.state.Valid
  kept : ∀ r ∈ s.contracts, ∃ r' ∈ c.state.contracts,
    r'.digest = r.digest ∧ r'.deletedAt = r.deletedAt
  origin : ∀ r' ∈ c.state.contracts,
    (∃ r ∈ s.contracts, r.digest = r'.digest ∧ r.deletedAt = r'.deletedAt) ∨
      ∃ h, r'.digest = (request.projectId, h) ∧ c.seen.lookup h ≠ none
  seen : ∀ h, c.seen.lookup h ≠ none → ∀ r ∈ s.contracts, r.digest = (request.projectId, h) →
    r.deletedAt = none ∧
      (env.settings.duplicateCheck = true ∨ request.options.replaceExisting = true)

theorem Held.init (hs : s.Valid) : Held env request s { state := s } where
  valid := hs
  kept := fun r hr => ⟨r, hr, rfl, rfl⟩
  origin := fun r hr => .inl ⟨r, hr, rfl, rfl⟩
  seen := fun _ hh => absurd rfl hh

theorem lookup_cons_ne_none {h k : String} {v : Uuid} {l : List (String × Uuid)} :
    ((k, v) :: l).lookup h ≠ none ↔ h = k ∨ l.lookup h ≠ none := by
  rw [List.lookup_cons]
  by_cases he : h = k
  · simp [he]
  · rw [show (h == k) = false by simpa using he]
    simp [he]

theorem Held.live {r contract : ContractRow} (h : Held env request s c) (hr : r ∈ s.contracts)
    (hc : contract ∈ c.state.contracts) (hd : r.digest = contract.digest) :
    r.deletedAt = contract.deletedAt := by
  obtain ⟨r', hr', hd', hdel⟩ := h.kept r hr
  rw [← hdel, Keyed.inj h.valid.digests hr' hc (hd'.trans hd)]

theorem Held.created (h : Held env request s c) {p : Processed}
    (hid : ∀ r ∈ c.state.contracts, r.id ≠ drawn.contractId)
    (hfree : ∀ r ∈ c.state.contracts, r.digest ≠ (request.projectId, validated.sha256))
    (ha : Accepted request c drawn item validated drawn.contractId
      (created request c.state drawn.contractId item validated converted) c' p) :
    Held env request s c' where
  valid := ha.valid (created_valid h.valid hid hfree)
  kept := by
    intro r hr
    obtain ⟨r', hr', hd⟩ := h.kept r hr
    rw [ha.contracts]
    exact ⟨r', List.mem_append_left _ hr', hd⟩
  origin := by
    intro r' hr'
    rw [ha.contracts] at hr'
    rw [ha.seen]
    rcases List.mem_append.1 hr' with hr' | hr'
    · rcases h.origin r' hr' with hold | ⟨k, hk, hseen⟩
      · exact .inl hold
      · exact .inr ⟨k, hk, lookup_cons_ne_none.2 (.inr hseen)⟩
    · rw [List.mem_singleton.1 hr']
      exact .inr ⟨validated.sha256, rfl, lookup_cons_ne_none.2 (.inl rfl)⟩
  seen := by
    intro k hk r hr hd
    rw [ha.seen] at hk
    rcases lookup_cons_ne_none.1 hk with rfl | hk
    · obtain ⟨r', hr', hd', -⟩ := h.kept r hr
      exact absurd (hd'.trans hd) (hfree r' hr')
    · exact h.seen k hk r hr hd

theorem Held.versioned (h : Held env request s c) {p : Processed} {contract : ContractRow}
    (hrep : replaces request c.state validated = some contract)
    (ha : Accepted request c drawn item validated contract.id
      (versioned request c.state contract item validated) c' p) :
    Held env request s c' := by
  obtain ⟨hreplace, hget⟩ := Option.ite_none_right_eq_some.1 hrep
  obtain ⟨hc, hlive, hd⟩ := Contracts.getByHash_some hget
  refine
    { valid := ha.valid (versioned_valid h.valid hc hd)
      kept := ?_
      origin := ?_
      seen := ?_ }
  · intro r hr
    obtain ⟨r₀, hr₀, hd₀, hdel₀⟩ := h.kept r hr
    obtain ⟨hd', hdel'⟩ := versioned_same h.valid hc hd hr₀
    rw [ha.contracts]
    exact ⟨_, (mem_versioned h.valid hc).2 ⟨r₀, hr₀, rfl⟩, hd'.trans hd₀, hdel'.trans hdel₀⟩
  · intro r' hr'
    rw [ha.contracts, mem_versioned h.valid hc] at hr'
    obtain ⟨r₀, hr₀, rfl⟩ := hr'
    obtain ⟨hd', hdel'⟩ := versioned_same h.valid hc hd hr₀
    rw [hd', hdel', ha.seen]
    rcases h.origin r₀ hr₀ with hold | ⟨k, hk, hseen⟩
    · exact .inl hold
    · exact .inr ⟨k, hk, lookup_cons_ne_none.2 (.inr hseen)⟩
  · intro k hk r hr hdr
    rw [ha.seen] at hk
    rcases lookup_cons_ne_none.1 hk with rfl | hk
    · exact ⟨(h.live hr hc (hdr.trans hd.symm)).trans hlive, .inr hreplace⟩
    · exact h.seen k hk r hr hdr

/-! ## One document -/

/-- What one document does: it keeps the invariant and brings no other new row than that of the
drawn identifier, or it aborts the request. -/
def Survives (env : UploadEnv) (request : UploadRequest) (s : Contracts) (c : Carried)
    (drawn : Drawn) (item : PendingUpload) : Prop :=
  ∃ c' p, processOne env request c drawn item = .ok (c', p) ∧ Held env request s c' ∧
    ∀ r ∈ c'.state.contracts, r.id = drawn.contractId ∨ ∃ r₀ ∈ c.state.contracts, r.id = r₀.id

def Aborts (env : UploadEnv) (request : UploadRequest) (c : Carried) (drawn : Drawn)
    (item : PendingUpload) : Prop :=
  ∃ objects, processOne env request c drawn item =
    .error { error := .integrity "uq_contracts_project_id_sha256_hash", objects }

theorem Survives.refused {p : Processed} (h : Held env request s c)
    (hp : processOne env request c drawn item = .ok (c, p)) :
    Survives env request s c drawn item :=
  ⟨c, p, hp, h, fun r hr => .inr ⟨r, hr, rfl⟩⟩

theorem Held.harmful (h : Held env request s c) (hready : Ready env item validated converted)
    (hseen : c.seen.lookup validated.sha256 = none)
    (hdup : duplicateOf env request c.state validated = none)
    (hrep : replaces request c.state validated = none) {r : ContractRow}
    (hr : r ∈ c.state.contracts) (hd : r.digest = (request.projectId, validated.sha256)) :
    ¬ Harmless env request s item := by
  intro hharmless
  rcases h.origin r hr with ⟨r₀, hr₀, hd₀, hdel₀⟩ | ⟨k, hk, hkseen⟩
  · obtain ⟨hlive, hcheck⟩ := hharmless validated converted hready r₀ hr₀ (hd₀.trans hd)
    -- The row is live, so the query answers a contract.
    obtain ⟨contract, hget⟩ : ∃ contract,
        c.state.getByHash request.projectId validated.sha256 = some contract := by
      cases hget : c.state.getByHash request.projectId validated.sha256 with
      | some contract => exact ⟨contract, rfl⟩
      | none => exact absurd (hdel₀.symm.trans hlive) (Contracts.getByHash_none hget hr hd)
    unfold duplicateOf at hdup
    unfold replaces at hrep
    rw [hget] at hdup hrep
    cases hreplace : request.options.replaceExisting with
    | true => simp [hreplace] at hrep
    | false =>
      rcases hcheck with hcheck | hcheck
      · simp [hreplace, hcheck] at hdup
      · rw [hreplace] at hcheck
        cases hcheck
  · obtain rfl : k = validated.sha256 := (Prod.mk.inj (hk.symm.trans hd)).2
    exact hkseen hseen

theorem Held.step (h : Held env request s c) (item : PendingUpload)
    (hid : ∀ r ∈ c.state.contracts, r.id ≠ drawn.contractId) :
    (Harmless env request s item ∧ Survives env request s c drawn item) ∨
      (¬ Harmless env request s item ∧ Aborts env request c drawn item) := by
  rcases processOne_cases env request c drawn item with ⟨p, hp, hrefused⟩ |
    ⟨validated, converted, hready, hseen, hdup, hpersist⟩
  · refine .inl ⟨?_, .refused h hrefused⟩
    intro validated converted hready r hr hd
    cases hseen : c.seen.lookup validated.sha256 with
    | some contractId =>
      exact h.seen _ (by simp [hseen]) r hr hd
    | none =>
      cases hdup : duplicateOf env request c.state validated with
      | some contract =>
        obtain ⟨hcheck, hget⟩ := Option.ite_none_right_eq_some.1 hdup
        obtain ⟨hc, hlive, hd'⟩ := Contracts.getByHash_some hget
        refine ⟨(h.live hr hc (hd.trans hd'.symm)).trans hlive, .inl ?_⟩
        simp only [Bool.and_eq_true] at hcheck
        exact hcheck.1
      | none =>
        -- Such a document is persisted, and what is persisted is accepted.
        rw [processOne_persist hready hseen hdup] at hrefused
        rcases persist_cases h.valid hid hready with ⟨contract, c', p', -, ha, hok⟩ |
          ⟨-, -, c', p', ha, hok⟩ | ⟨-, -, herr⟩
        · rw [hok] at hrefused
          cases hrefused
          simp [Processed.Refused, ha.status] at hp
        · rw [hok] at hrefused
          cases hrefused
          simp [Processed.Refused, ha.status] at hp
        · rw [herr] at hrefused
          cases hrefused
  · rcases persist_cases h.valid hid hready with ⟨contract, c', p, hrep, ha, hok⟩ |
      ⟨-, hfree, c', p, ha, hok⟩ | ⟨hrep, ⟨r, hr, hd⟩, herr⟩
    · left
      obtain ⟨hreplace, hget⟩ := Option.ite_none_right_eq_some.1 hrep
      obtain ⟨hc, hlive, hd⟩ := Contracts.getByHash_some hget
      have hok' := hpersist.trans hok
      refine ⟨?_, c', p, hok', h.versioned hrep ha, (done_of_ok h.valid hid hok').ids h.valid⟩
      intro validated' converted' hready' r hr hdr
      rw [← hready.unique hready'] at hdr
      exact ⟨(h.live hr hc (hdr.trans hd.symm)).trans hlive, .inr hreplace⟩
    · left
      have hok' := hpersist.trans hok
      refine ⟨?_, c', p, hok', h.created hid hfree ha, (done_of_ok h.valid hid hok').ids h.valid⟩
      intro validated' converted' hready' r hr hdr
      obtain ⟨r', hr', hd', -⟩ := h.kept r hr
      rw [← hready.unique hready'] at hdr
      exact absurd (hd'.trans hdr) (hfree r' hr')
    · exact .inr ⟨h.harmful hready hseen hdup hrep hr hd, _, hpersist.trans herr⟩

/-! ## A batch -/

variable {items before after : List (PendingUpload × Drawn)}

/-- The identifiers of the rest of a batch are new after its first document. -/
theorem Fresh.tail {drawn : Drawn} (hf : Fresh c.state ((item, drawn) :: items))
    (hids : ∀ r ∈ c'.state.contracts,
      r.id = drawn.contractId ∨ ∃ r₀ ∈ c.state.contracts, r.id = r₀.id) :
    Fresh c'.state items := by
  obtain ⟨hnodup, hnew⟩ := hf
  rw [List.map_cons, List.nodup_cons] at hnodup
  refine ⟨hnodup.2, fun i hi r hr he => ?_⟩
  rcases hids r hr with hr' | ⟨r₀, hr₀, hr'⟩
  · exact hnodup.1 (List.mem_map.2 ⟨i, hi, he.symm.trans hr'⟩)
  · exact hnew i (List.mem_cons_of_mem _ hi) r₀ hr₀ (hr'.symm.trans he)

theorem processAll_cons_ok {drawn : Drawn} {p : Processed} {items : List (PendingUpload × Drawn)}
    (h : processOne env request c drawn item = .ok (c', p)) :
    processAll env request c ((item, drawn) :: items) =
      (processAll env request c' items).map fun out => (out.1, p :: out.2) := by
  simp only [processAll, h, bind, Except.bind]
  cases processAll env request c' items <;> rfl

/-- A batch of harmless documents completes, any other aborts. -/
theorem Held.run (h : Held env request s c) (hf : Fresh c.state items) :
    ((∀ i ∈ items, Harmless env request s i.1) ∧
      ∃ c' outs, processAll env request c items = .ok (c', outs) ∧ Held env request s c') ∨
    ((¬ ∀ i ∈ items, Harmless env request s i.1) ∧
      ∃ objects, processAll env request c items =
        .error { error := .integrity "uq_contracts_project_id_sha256_hash", objects }) := by
  induction items generalizing c with
  | nil => exact .inl ⟨by simp, c, [], rfl, h⟩
  | cons i items ih =>
    obtain ⟨item, drawn⟩ := i
    rcases h.step item fun r hr => hf.2 _ List.mem_cons_self r hr with
      ⟨hharmless, c', p, hok, hc', hids⟩ | ⟨hharm, objects, herr⟩
    · rw [processAll_cons_ok hok, List.forall_mem_cons]
      rcases ih hc' (hf.tail hids) with ⟨hall, c'', outs, hrest, hheld⟩ | ⟨hnot, objects, hrest⟩
      · rw [hrest]
        exact .inl ⟨⟨hharmless, hall⟩, c'', p :: outs, rfl, hheld⟩
      · rw [hrest]
        exact .inr ⟨fun hall => hnot hall.2, objects, rfl⟩
    · refine .inr ⟨fun hall => hharm (hall _ List.mem_cons_self), objects, ?_⟩
      simp only [processAll, herr, bind, Except.bind]

theorem processAll_append {outs : List Processed}
    (h : processAll env request c before = .ok (c', outs)) :
    processAll env request c (before ++ after) =
      (processAll env request c' after).map fun rest => (rest.1, outs ++ rest.2) := by
  induction before generalizing c outs with
  | nil =>
    cases h
    rw [List.nil_append]
    cases processAll env request c' after <;> rfl
  | cons i before ih =>
    obtain ⟨item, drawn⟩ := i
    obtain ⟨⟨c₁, p⟩, hfirst, h⟩ := Except.bind_eq_ok.1 h
    obtain ⟨⟨c₂, rest⟩, hrest, h⟩ := Except.bind_eq_ok.1 h
    cases Except.pure_eq_ok.1 h
    rw [List.cons_append, processAll_cons_ok hfirst, ih hrest]
    cases processAll env request c₂ after <;> rfl

/-- The invariant after a part of the batch, and the identifiers of the rest are still new. -/
theorem Held.reaches {outs : List Processed} (h : Held env request s c)
    (hf : Fresh c.state (before ++ after))
    (hrun : processAll env request c before = .ok (c', outs)) :
    Held env request s c' ∧ Fresh c'.state after := by
  induction before generalizing c outs with
  | nil =>
    cases hrun
    exact ⟨h, hf⟩
  | cons i before ih =>
    obtain ⟨item, drawn⟩ := i
    obtain ⟨⟨c₁, p⟩, hfirst, hrun⟩ := Except.bind_eq_ok.1 hrun
    obtain ⟨⟨c₂, rest⟩, hrest, hrun⟩ := Except.bind_eq_ok.1 hrun
    cases Except.pure_eq_ok.1 hrun
    rcases h.step item fun r hr => hf.2 _ List.mem_cons_self r hr with
      ⟨-, c'', p', hok, hc'', hids⟩ | ⟨-, objects, herr⟩
    · cases hok.symm.trans hfirst
      exact ih hc'' (hf.tail hids) hrest
    · cases herr.symm.trans hfirst

/-- A ready document whose digest is taken is reported as a duplicate, or as a version of a contract
of the project. -/
theorem Survives.clash (hs : c.state.Valid) (h : Survives env request s c drawn item)
    (hid : ∀ r ∈ c.state.contracts, r.id ≠ drawn.contractId)
    (hready : Ready env item validated converted)
    (hclash : ∃ r ∈ c.state.contracts, r.digest = (request.projectId, validated.sha256)) :
    ∃ c' p, processOne env request c drawn item = .ok (c', p) ∧
      (p.result.status = .duplicate ∨ (p.result.status = .accepted ∧
        ∃ r ∈ c.state.contracts, p.result.contractId = some r.id)) := by
  cases hseen : c.seen.lookup validated.sha256 with
  | some contractId =>
    obtain ⟨message, hok⟩ := processOne_seen hready.1 hseen
    exact ⟨_, _, hok, .inl rfl⟩
  | none =>
    cases hdup : duplicateOf env request c.state validated with
    | some contract =>
      obtain ⟨message, hok⟩ := processOne_duplicate hready.1 hseen hdup
      exact ⟨_, _, hok, .inl rfl⟩
    | none =>
      rw [processOne_persist hready hseen hdup]
      rcases persist_cases hs hid hready with ⟨contract, c', p, hrep, ha, hok⟩ |
        ⟨-, hfree, -⟩ | ⟨-, -, herr⟩
      · obtain ⟨-, hget⟩ := Option.ite_none_right_eq_some.1 hrep
        exact ⟨c', p, hok,
          .inr ⟨ha.status, contract, (Contracts.getByHash_some hget).1, ha.contractId⟩⟩
      · obtain ⟨r, hr, hd⟩ := hclash
        exact absurd hd (hfree r hr)
      · obtain ⟨c', p, hok, -⟩ := h
        rw [processOne_persist hready hseen hdup, herr] at hok
        cases hok

/-- A document reported as a duplicate changes nothing. -/
theorem Held.duplicate {p : Processed} (h : Held env request s c)
    (hid : ∀ r ∈ c.state.contracts, r.id ≠ drawn.contractId)
    (hok : processOne env request c drawn item = .ok (c', p)) (hp : p.result.status = .duplicate) :
    c' = c := by
  cases done_of_ok h.valid hid hok with
  | refused => rfl
  | created _ _ _ _ _ _ _ ha => cases ha.status.symm.trans hp
  | versioned _ _ _ _ _ _ _ _ ha => cases ha.status.symm.trans hp

/-! ## A request -/

def Admitted (env : UploadEnv) (request : UploadRequest) : Prop :=
  request.files.isEmpty = false ∧ ¬ env.settings.maxFilesPerUpload < request.files.length

structure Split (env : UploadEnv) (request : UploadRequest) (s : Contracts)
    (before after : List (PendingUpload × Drawn)) (item : PendingUpload) (drawn : Drawn)
    (c : Carried) (outs : List Processed) : Prop where
  admitted : Admitted env request
  documents : documents env request = before ++ (item, drawn) :: after
  run : processAll env request { state := s } before = .ok (c, outs)

/-- No upload violates a constraint: a document that would is reported as a duplicate or as a
version, and the documents after a duplicate are processed as if it were absent. -/
structure NeverCostsTheBatch (env : UploadEnv) (request : UploadRequest) (s : Contracts) : Prop where
  noViolation : ∀ constraint objects,
    upload env request s ≠ .error { error := .integrity constraint, objects }
  reported : ∀ before after item drawn c outs, Split env request s before after item drawn c outs →
    ∀ validated converted, Ready env item validated converted →
    (∃ r ∈ c.state.contracts, r.digest = (request.projectId, validated.sha256)) →
    ∃ c' p, processOne env request c drawn item = .ok (c', p) ∧
      (p.result.status = .duplicate ∨ (p.result.status = .accepted ∧
        ∃ r ∈ c.state.contracts, p.result.contractId = some r.id))
  absent : ∀ before after item drawn c outs, Split env request s before after item drawn c outs →
    ∀ c' p, processOne env request c drawn item = .ok (c', p) → p.result.status = .duplicate →
    ∃ c'' rest, processAll env request { state := s } (before ++ after) = .ok (c'', outs ++ rest) ∧
      processAll env request { state := s } (documents env request) =
        .ok (c'', outs ++ p :: rest)

theorem upload_admitted (h : Admitted env request) :
    upload env request s = (processAll env request { state := s } (documents env request)).map
      fun out => enqueue env request out.1.state
        ((expandArchives env request).2 ++ out.2.map (·.result)) (out.2.filterMap (·.message)) := by
  unfold upload
  rw [if_neg (by simp [h.1]), if_neg h.2]
  cases processAll env request { state := s } (documents env request) <;> rfl

theorem upload_refused (h : ¬ Admitted env request) :
    ∃ e, upload env request s = .error { error := .app e, objects := s.objects } := by
  unfold upload
  by_cases hempty : request.files.isEmpty = true
  · exact ⟨_, by rw [if_pos hempty]⟩
  · rw [if_neg hempty]
    by_cases hmany : env.settings.maxFilesPerUpload < request.files.length
    · exact ⟨_, by rw [if_pos hmany]⟩
    · exact absurd ⟨by simpa using hempty, hmany⟩ h

/-- A batch is safe exactly when each of its documents is harmless: whenever it is ready and a
contract of the project has its digest, that contract is live and the request refuses or replaces
it. -/
theorem never_costs_the_batch_iff (hs : s.Valid) (hf : Fresh s (documents env request)) :
    NeverCostsTheBatch env request s ↔
      (Admitted env request → ∀ i ∈ documents env request, Harmless env request s i.1) := by
  have hheld : Held env request s { state := s } := .init hs
  constructor
  · intro h hadmitted
    rcases hheld.run hf with ⟨hall, -⟩ | ⟨-, objects, herr⟩
    · exact hall
    · refine absurd ?_ (h.noViolation "uq_contracts_project_id_sha256_hash" objects)
      rw [upload_admitted hadmitted, herr]
      rfl
  · intro h
    refine { noViolation := ?_, reported := ?_, absent := ?_ }
    · intro constraint objects herr
      by_cases hadmitted : Admitted env request
      · rcases hheld.run hf with ⟨-, c', outs, hok, -⟩ | ⟨hnot, -⟩
        · rw [upload_admitted hadmitted, hok] at herr
          cases herr
        · exact hnot (h hadmitted)
      · obtain ⟨e, he⟩ := upload_refused hadmitted
        cases he.symm.trans herr
    · intro before after item drawn c outs hsplit validated converted hready hclash
      rw [hsplit.documents] at hf h
      obtain ⟨hc, hfc⟩ := hheld.reaches hf hsplit.run
      have hid : ∀ r ∈ c.state.contracts, r.id ≠ drawn.contractId :=
        fun r hr => hfc.2 _ List.mem_cons_self r hr
      rcases hc.step item hid with ⟨-, hsurvives⟩ | ⟨hharm, -⟩
      · exact hsurvives.clash hc.valid hid hready hclash
      · exact absurd (h hsplit.admitted (item, drawn)
          (List.mem_append_right _ List.mem_cons_self)) hharm
    · intro before after item drawn c outs hsplit c' p hok hp
      have hall := h hsplit.admitted
      rw [hsplit.documents] at hf hall ⊢
      obtain ⟨hc, hfc⟩ := hheld.reaches hf hsplit.run
      obtain rfl := hc.duplicate (fun r hr => hfc.2 _ List.mem_cons_self r hr) hok hp
      have hafter : Fresh c'.state after := hfc.tail fun r hr => .inr ⟨r, hr, rfl⟩
      rcases hc.run hafter with ⟨-, c'', rest, hrest, -⟩ | ⟨hnot, -⟩
      · refine ⟨c'', rest, ?_, ?_⟩
        · rw [processAll_append hsplit.run, hrest]
          rfl
        · rw [processAll_append hsplit.run, processAll_cons_ok hok, hrest]
          rfl
      · exact absurd (fun i hi => hall i
          (List.mem_append_right _ (List.mem_cons_of_mem _ hi))) hnot

/-! ## A repeated file -/

def samplePdf : Bytes := [0x25, 0x50, 0x44, 0x46, 0x2D, 0x31, 0x2E, 0x37]

def sampleEnv : UploadEnv :=
  { sha256 := fun data =>
      if data = samplePdf then "86edbaa24831badfa0a8b04bb410141e2ee4182b6d0014493fe262a7a331c20b"
      else "b0041771e965cfddddf3af59883d4f27ef4f3d4a34ecbfd9b5e7ef2937d0be7d"
    namelist := fun _ => none
    soffice := fun _ _ => .missing
    extract := fun _ _ => .ok {}
    accepts := fun _ => true }

def sampleRequest (n : Nat) : UploadRequest :=
  { projectId := 1
    files := [{ filename := "nda.pdf", content := samplePdf },
      { filename := "copy.pdf", content := samplePdf }]
    actorId := 2
    draws := fun i =>
      { contractId := BitVec.ofNat 128 (100 * n + i), jobId := BitVec.ofNat 128 (1000 * n + i)
        dispatchId := "0123456789ab" } }

def sampleRow : ContractRow :=
  { id := 100, projectId := 1, uploadedBy := some 2, originalFileName := "nda.pdf"
    originalFilePath := some (StorageKey.contractFile 1 100 1 "nda.pdf")
    convertedFilePath := none, originalFileType := some .pdf
    sha256Hash := sampleEnv.sha256 samplePdf
    storagePath := StorageKey.contractFile 1 100 1 "nda.pdf"
    processingFilePath := some (StorageKey.contractFile 1 100 1 "nda.pdf")
    processingSha256 := some (sampleEnv.sha256 samplePdf)
    fileType := .pdf, fileSize := 8, mimeType := some "application/pdf" }

def sampleStore (deletedAt : Option Timestamp) : Contracts :=
  { contracts := [{ sampleRow with deletedAt }] }

theorem sampleStore_valid (deletedAt : Option Timestamp) : (sampleStore deletedAt).Valid where
  ids := List.nodup_singleton _
  digests := List.nodup_singleton _
  keys := List.nodup_nil
  owned := fun _ hv => absurd hv List.not_mem_nil

/-- While the contract is live, a batch that repeats its file twice costs nothing. -/
theorem repeated_file_costs_nothing :
    NeverCostsTheBatch sampleEnv (sampleRequest 2) (sampleStore none) := by
  refine (never_costs_the_batch_iff (sampleStore_valid none) (by decide)).2 ?_
  intro _ i _ validated converted _ r hr _
  rw [List.mem_singleton.1 hr]
  exact ⟨rfl, .inl rfl⟩

def violation : Except Aborted (Contracts × UploadResponse) → Option String
  | .error { error := .integrity constraint, .. } => some constraint
  | _ => none

theorem violation_some {r : Except Aborted (Contracts × UploadResponse)} {constraint : String}
    (h : violation r = some constraint) :
    ∃ objects, r = .error { error := .integrity constraint, objects } := by
  unfold violation at h
  split at h
  · cases h
    exact ⟨_, rfl⟩
  · cases h

/-- After the contract is deleted, the same batch fails as a whole. -/
theorem deleted_contract_costs_the_batch :
    ¬ NeverCostsTheBatch sampleEnv (sampleRequest 2) (sampleStore (some 5)) := by
  intro h
  obtain ⟨objects, herr⟩ := violation_some
    (show violation (upload sampleEnv (sampleRequest 2) (sampleStore (some 5))) =
      some "uq_contracts_project_id_sha256_hash" by decide)
  exact h.noViolation _ objects herr

end Upload

end Clear
