import Clear.Services.Alerts

/-!
# The caller's change

`AuditService.record` and `AlertService.raise_event` flush in the transaction of the caller and
swallow what that raises. The call returns; but there is no savepoint, so a row that the table does
not take fails the transaction, and with it the business rows (`kept_iff`).
-/

namespace Clear.CallersChange

open UnitOfWork

variable {β : Type} {δ : Type} (checks : Checks β) (ambient : Ambient)
  (others : Tables β → Tables β)

inductive Call where
  | record (entry : AuditService.Entry)
  | raiseEvent (event : AlertEvent) (alertType : AlertType) (wanted : Bool)

def Call.run : Call → Handler (Session (Tables β)) Unit
  | .record entry => fun s =>
    let ran := AuditService.record checks ambient entry (s.interleave others)
    (ran.1.map fun _ => (), ran.2)
  | .raiseEvent event alertType wanted => fun s =>
    let ran := Alerts.raiseEvent checks ambient others event alertType wanted s
    (ran.1.map fun _ => (), ran.2)

/-- The call returns, and the commit that follows commits the business rows that it would have
committed without the call. -/
def Kept (call : Call) (s : Session (Tables β)) : Prop :=
  ∀ tables, (s.interleave others).commit = some tables →
    (call.run checks ambient others s).1 = .ok () ∧
      ∃ tables', (call.run checks ambient others s).2.commit = some tables' ∧
        tables'.business = tables.business

def EntryAccepted (tables : Tables β) (entry : AuditService.Entry) : Bool :=
  match AuditService.diff ambient.differs entry.before entry.after with
  | .error _ => true
  | .ok changed => AuditService.admits checks tables (AuditService.entryRow ambient entry changed)

/-- `alerts` takes the row of an event of a project, or the new values of the open alert that the
query has found in `view`. -/
def EventAccepted (view tables : Tables β) (event : AlertEvent) (alertType : AlertType)
    (projectId : Uuid) : Bool :=
  match Alerts.openAlerts event view.alerts with
  | [] => Alerts.admits checks tables
      (Alerts.eventRow ambient.isoformat ambient.newId projectId ambient.now alertType event)
  | [existing] =>
    match Alerts.occurrences existing with
    | none =>
      !Alerts.isTouched event existing ||
        Alerts.admitsUpdate checks tables event none existing.id
    | some count => Alerts.admitsUpdate checks tables event
        (some (Alerts.repeated ambient.isoformat event count existing).details) existing.id
  | _ :: _ :: _ => true

/-- The table takes what the call writes: `view` is what its query reads, `tables` what it finds
when it flushes. A call that writes nothing is always fine. -/
def Accepted (view tables : Tables β) : Call → Bool
  | .record entry => EntryAccepted checks ambient tables entry
  | .raiseEvent event alertType wanted =>
    event.projectId.all fun projectId => !wanted || Column.text event.dedupeKey &&
      EventAccepted checks ambient view tables event alertType projectId

/-! ## The session after a call -/

theorem active_of_commit {s : Session δ} {view : δ} (h : s.commit = some view) :
    s.failed = false := by
  unfold Session.commit at h
  cases hf : s.failed with
  | false => rfl
  | true => simp [hf] at h

theorem flush_snd (s : Session δ) : (flush s).2 = s.flush.2 := by
  unfold flush
  cases h : s.flush with
  | mk accepted s' => cases accepted <;> rfl

theorem commit_added {s : Session δ} {view : δ} (h : s.commit = some view) (change : Change δ) :
    (flush (s.add change)).2.commit = change view := by
  rw [flush_snd, commit_swallowed (active_of_commit h), h]
  rfl

/-! ## What the tables take -/

theorem insert_kept {row : AuditLog} {tables : Tables β} :
    (∃ tables', AuditService.insert checks row tables = some tables' ∧
      tables'.business = tables.business) ↔ AuditService.admits checks tables row = true := by
  unfold AuditService.insert
  cases AuditService.admits checks tables row <;> simp

theorem insertAlert_kept {row : Alert} {tables : Tables β} :
    (∃ tables', Alerts.insert checks row tables = some tables' ∧
      tables'.business = tables.business) ↔ Alerts.admits checks tables row = true := by
  unfold Alerts.insert
  cases Alerts.admits checks tables row <;> simp

theorem update_kept {event : AlertEvent} {details : Option ValueDict} {id : Uuid}
    {tables : Tables β} :
    (∃ tables', Alerts.update checks event details id tables = some tables' ∧
      tables'.business = tables.business) ↔
      Alerts.admitsUpdate checks tables event details id = true := by
  unfold Alerts.update
  cases Alerts.admitsUpdate checks tables event details id <;> simp

/-! ## The calls -/

theorem record_returns (entry : AuditService.Entry) (s : Session (Tables β)) :
    ∃ row, (AuditService.record checks ambient entry s).1 = .ok row := by
  unfold AuditService.record
  cases AuditService.diff ambient.differs entry.before entry.after with
  | error e => exact ⟨none, rfl⟩
  | ok changed =>
    simp only
    split
    · exact ⟨_, rfl⟩
    · exact ⟨_, rfl⟩

theorem raiseEvent_returns (event : AlertEvent) (alertType : AlertType) (wanted : Bool)
    (s : Session (Tables β)) :
    ∃ outcome, (Alerts.raiseEvent checks ambient others event alertType wanted s).1 =
      .ok outcome := by
  unfold Alerts.raiseEvent
  cases event.projectId with
  | none => exact ⟨_, rfl⟩
  | some projectId =>
    cases wanted with
    | false => exact ⟨_, rfl⟩
    | true =>
      simp only [if_true]
      split
      · exact ⟨_, rfl⟩
      · exact ⟨_, rfl⟩

theorem run_returns (call : Call) (s : Session (Tables β)) :
    (call.run checks ambient others s).1 = .ok () := by
  cases call with
  | record entry =>
    obtain ⟨row, h⟩ := record_returns checks ambient entry (s.interleave others)
    unfold Call.run
    simp only [h]
    rfl
  | raiseEvent event alertType wanted =>
    obtain ⟨outcome, h⟩ := raiseEvent_returns checks ambient others event alertType wanted s
    unfold Call.run
    simp only [h]
    rfl

/-- The transaction after `record` holds the row, or it has failed. -/
theorem record_commit {entry : AuditService.Entry} {s : Session (Tables β)} {tables : Tables β}
    (h : s.commit = some tables) :
    (AuditService.record checks ambient entry s).2.commit =
      match AuditService.diff ambient.differs entry.before entry.after with
      | .error _ => some tables
      | .ok changed =>
        AuditService.insert checks (AuditService.entryRow ambient entry changed) tables := by
  unfold AuditService.record
  cases AuditService.diff ambient.differs entry.before entry.after with
  | error e => exact h
  | ok changed =>
    simp only
    refine Eq.trans ?_ (commit_added h _)
    split
    next hflush => rw [hflush]
    next hflush => rw [hflush]

/-- What `_persist` leaves in the transaction is not changed by swallowing its failure. -/
theorem raiseEvent_snd {event : AlertEvent} {alertType : AlertType} {projectId : Uuid}
    (hproject : event.projectId = some projectId) (s : Session (Tables β)) :
    (Alerts.raiseEvent checks ambient others event alertType true s).2 =
      (Alerts.persist checks ambient others event alertType projectId s).2 := by
  unfold Alerts.raiseEvent
  rw [hproject]
  simp only [if_true]
  split
  next hpersist => rw [hpersist]
  next hpersist => rw [hpersist]

/-- The transaction after `_persist`, given what its query has read. -/
theorem persist_commit {event : AlertEvent} {alertType : AlertType} {projectId : Uuid}
    {s : Session (Tables β)} {tables : Tables β}
    (h : (s.interleave others).commit = some tables) (hkey : Column.text event.dedupeKey = true) :
    (Alerts.persist checks ambient others event alertType projectId s).2.commit =
      match Alerts.openAlerts event s.view.alerts with
      | [] => Alerts.insert checks (Alerts.eventRow ambient.isoformat ambient.newId projectId
          ambient.now alertType event) tables
      | [existing] =>
        match Alerts.occurrences existing with
        | none =>
          if Alerts.isTouched event existing then
            Alerts.update checks event none existing.id tables
          else some tables
        | some count => Alerts.update checks event
            (some (Alerts.repeated ambient.isoformat event count existing).details) existing.id
            tables
      | _ :: _ :: _ => some tables := by
  unfold Alerts.persist
  simp only [hkey, Bool.not_true, Bool.false_eq_true, if_false]
  cases Alerts.openAlerts event s.view.alerts with
  | nil =>
    simp only
    refine Eq.trans ?_ (commit_added h _)
    split
    next hflush => rw [hflush]
    next hflush => rw [hflush]
  | cons existing rest =>
    cases rest with
    | cons other rest => exact h
    | nil =>
      cases hcount : Alerts.occurrences existing with
      | none =>
        simp only [hcount]
        split
        · rw [commit_add (active_of_commit h), h]
          rfl
        · exact h
      | some count =>
        simp only [hcount]
        refine Eq.trans ?_ (commit_added h _)
        split
        next hflush => rw [hflush]
        next hflush => rw [hflush]

/-! ## The exact condition -/

theorem record_accepted {entry : AuditService.Entry} {s : Session (Tables β)} {tables : Tables β}
    (h : s.commit = some tables) :
    (∃ tables', (AuditService.record checks ambient entry s).2.commit = some tables' ∧
      tables'.business = tables.business) ↔ EntryAccepted checks ambient tables entry = true := by
  rw [record_commit checks ambient h]
  unfold EntryAccepted
  cases AuditService.diff ambient.differs entry.before entry.after with
  | error e => simp
  | ok changed => exact insert_kept checks

theorem persist_accepted {event : AlertEvent} {alertType : AlertType} {projectId : Uuid}
    {s : Session (Tables β)} {tables : Tables β}
    (h : (s.interleave others).commit = some tables) (hkey : Column.text event.dedupeKey = true) :
    (∃ tables', (Alerts.persist checks ambient others event alertType projectId s).2.commit =
      some tables' ∧ tables'.business = tables.business) ↔
      EventAccepted checks ambient s.view tables event alertType projectId = true := by
  rw [persist_commit checks ambient others h hkey]
  unfold EventAccepted
  cases Alerts.openAlerts event s.view.alerts with
  | nil => exact insertAlert_kept checks
  | cons existing rest =>
    cases rest with
    | cons other rest => simp
    | nil =>
      cases hcount : Alerts.occurrences existing with
      | some count =>
        simp only [hcount]
        exact update_kept checks
      | none =>
        simp only [hcount]
        cases Alerts.isTouched event existing with
        | false => simp
        | true => simpa using update_kept checks

theorem persist_refused {event : AlertEvent} {alertType : AlertType} {projectId : Uuid}
    (hkey : Column.text event.dedupeKey = false) (s : Session (Tables β)) :
    (Alerts.persist checks ambient others event alertType projectId s).2.commit = none := by
  unfold Alerts.persist
  simp [hkey]

/-- A call costs the caller nothing exactly if its row is one that the table takes. -/
theorem kept_iff (call : Call) (s : Session (Tables β)) :
    Kept checks ambient others call s ↔
      ∀ tables, (s.interleave others).commit = some tables →
        Accepted checks ambient s.view tables call = true := by
  unfold Kept
  refine forall_congr' fun tables => forall_congr' fun h => ?_
  rw [and_iff_right (run_returns checks ambient others call s)]
  cases call with
  | record entry => exact record_accepted checks ambient h
  | raiseEvent event alertType wanted =>
    show (∃ tables', (Alerts.raiseEvent checks ambient others event alertType wanted s).2.commit =
      some tables' ∧ _) ↔ _
    unfold Accepted
    cases hproject : event.projectId with
    | none =>
      unfold Alerts.raiseEvent
      simp [hproject, h]
    | some projectId =>
      cases wanted with
      | false =>
        unfold Alerts.raiseEvent
        simp [hproject, h]
      | true =>
        rw [raiseEvent_snd checks ambient others hproject]
        cases hkey : Column.text event.dedupeKey with
        | false =>
          rw [persist_refused checks ambient others hkey]
          simp [hproject, hkey]
        | true => simpa [hproject, hkey] using persist_accepted checks ambient others h hkey

/-! ## A change that is lost -/

namespace Sample

/-- Every reference resolves and every payload serialises. -/
def lenient : Checks String where
  hasProject _ _ := true
  hasUser _ _ := true
  hasContract _ _ := true
  storable _ := true

def longRequest : Ambient where
  requestId := some (String.ofList (List.replicate 65 'x'))
  traceId := "t"
  now := 0
  newId := 1
  isoformat _ := ""
  differs _ _ := .ok false

def entry : AuditService.Entry where
  action := .update
  entityType := "project"

/-- A project is renamed. -/
def rename : Session (Tables String) where
  view := { business := "Old name" }
  pending := [fun tables => some { tables with business := "New name" }]

end Sample

/-- The request identifier is the client's to choose: with one character too many, the audit row
costs the rename that it records. -/
theorem rename_lost :
    ¬ Kept Sample.lenient Sample.longRequest id (.record Sample.entry) Sample.rename := by
  intro h
  obtain ⟨-, tables, hcommit, -⟩ := h { business := "New name" } rfl
  have hlost : (Call.run Sample.lenient Sample.longRequest id (.record Sample.entry)
      Sample.rename).2.commit.isSome = false := by decide +kernel
  rw [hcommit] at hlost
  exact Bool.noConfusion hlost

end Clear.CallersChange
