import Clear.Core.Stdlib
import Clear.Lib.Dict
import Clear.Services.Audit

/-!
# Raising an operational alert

`AlertService` (`app/services/alerts.py`): the row that an event writes. An open alert of the same
condition is refreshed in place, otherwise a new one is inserted. `persistRows` is the effect on the
rows, `persist` the same in the caller's session, where the flush checks what the table takes.
-/

/-!
## Operational alerts

The payload of an alert that the platform raises about itself (`app/alerting/base.py`), as far as it
is persisted. The texts that name a worker, a host or a trace only go into the details.
-/

namespace Clear

/-- Operational severity, ordered. -/
inductive AlertLevel where
  | info | warning | error | critical
  deriving DecidableEq, Repr

namespace AlertLevel

def value : AlertLevel → String
  | info => "INFO"
  | warning => "WARNING"
  | error => "ERROR"
  | critical => "CRITICAL"

/-- Map onto the persisted product ladder. -/
def toAlertSeverity : AlertLevel → AlertSeverity
  | info => .info
  | warning => .medium
  | error => .high
  | critical => .critical

end AlertLevel

/-- What broke. -/
inductive AlertCategory where
  | documentProcessing | parser | ocr | aiExtraction | embedding | llm | queue | workerCrash
  | scheduler | database | storage | unhandledException | criticalSystem
  deriving DecidableEq, Repr

def AlertCategory.value : AlertCategory → String
  | documentProcessing => "document_processing"
  | parser => "parser"
  | ocr => "ocr"
  | aiExtraction => "ai_extraction"
  | embedding => "embedding"
  | llm => "llm"
  | queue => "queue"
  | workerCrash => "worker_crash"
  | scheduler => "scheduler"
  | database => "database"
  | storage => "storage"
  | unhandledException => "unhandled_exception"
  | criticalSystem => "critical_system"

/-- One operational alert, fully self-describing. -/
structure AlertEvent where
  level : AlertLevel
  category : AlertCategory
  title : String
  message : String
  timestamp : Timestamp
  projectId : Option Uuid := none
  documentId : Option Uuid := none
  stage : Option String := none
  exceptionType : Option String := none
  retryCount : Nat := 0
  correlationId : Option String := none
  traceId : Option String := none
  workerName : Option String := none
  hostName : String := ""
  suggestedResolution : Option String := none
  details : ValueDict := []

namespace AlertEvent

def subject (event : AlertEvent) : String :=
  match event.documentId, event.projectId with
  | some document, _ => document.str
  | none, some project => project.str
  | none, none => "global"

/-- Stable identity of the underlying condition. -/
def dedupeKey (event : AlertEvent) : String :=
  event.category.value ++ ":" ++ event.subject ++ ":" ++
    ((event.stage.filter (· ≠ "")).getD "-")

end AlertEvent

end Clear

namespace Clear

namespace Alerts

def OpenKeysUnique (alerts : List Alert) : Prop :=
  ((alerts.filter (·.status = .open)).map (·.dedupeKey)).Nodup

instance (alerts : List Alert) : Decidable (OpenKeysUnique alerts) :=
  inferInstanceAs (Decidable (List.Nodup _))

/-- `isoformat` of a time, as a text. -/
abbrev Isoformat := Timestamp → String

def eventDetails (iso : Isoformat) (event : AlertEvent) : ValueDict :=
  [("level", .str event.level.value), ("category", .str event.category.value),
    ("stage", .ofStr? event.stage), ("exception_type", .ofStr? event.exceptionType),
    ("retry_count", .int event.retryCount), ("correlation_id", .ofStr? event.correlationId),
    ("trace_id", .ofStr? event.traceId), ("worker_name", .ofStr? event.workerName),
    ("host_name", .str event.hostName),
    ("suggested_resolution", .ofStr? event.suggestedResolution),
    ("occurred_at", .str (iso event.timestamp))].foldl
    (fun details e => Dict.assign details e.1 e.2) event.details

/-- The number of occurrences, absent where `int` raises. -/
def occurrences (alert : Alert) : Option Int :=
  ((alert.details.lookup "occurrences").getD (.int 1)).toInt?

/-- The same condition, still open: update in place. -/
def repeated (iso : Isoformat) (event : AlertEvent) (count : Int) (alert : Alert) : Alert :=
  { alert with
    message := event.message
    severity := event.level.toAlertSeverity
    details := Dict.assign (Dict.assign (eventDetails iso event) "occurrences" (.int (count + 1)))
      "first_seen_at"
      ((alert.details.lookup "first_seen_at").getD (.str (iso event.timestamp))) }

def eventRow (iso : Isoformat) (id projectId : Uuid) (now : Timestamp) (alertType : AlertType)
    (event : AlertEvent) : Alert where
  id
  projectId
  contractId := event.documentId
  alertType
  severity := event.level.toAlertSeverity
  status := .open
  title := Text.take 255 event.title
  message := event.message
  details := Dict.assign (Dict.assign (eventDetails iso event) "occurrences" (.int 1))
    "first_seen_at" (.str (iso event.timestamp))
  dedupeKey := Text.take 255 event.dedupeKey
  createdAt := now

/-- `_persist`, up to its flush: the rows with the open alert of the condition refreshed, or with a
new one. -/
def persistRows (iso : Isoformat) (id projectId : Uuid) (now : Timestamp) (alertType : AlertType)
    (event : AlertEvent) (alerts : List Alert) : Except Raised (List Alert) :=
  match alerts.find? fun a => a.dedupeKey = event.dedupeKey ∧ a.status = .open with
  | some existing =>
    match occurrences existing with
    | none => .error (.other "ValueError")
    | some count =>
      .ok (alerts.map fun a => if a.id = existing.id then repeated iso event count a else a)
  | none => .ok (alerts ++ [eventRow iso id projectId now alertType event])

/-! ## In the caller's session -/

open UnitOfWork (Change Session)

variable {β : Type}

def openAlerts (event : AlertEvent) (alerts : List Alert) : List Alert :=
  alerts.filter fun a => a.dedupeKey = event.dedupeKey ∧ a.status = .open

def detailsPayload (details : ValueDict) : Payload := details.map fun e => (e.1, .value e.2)

/-- Whether `alerts` takes a new open row. -/
def admits (checks : Checks β) (tables : Tables β) (row : Alert) : Bool :=
  Column.varchar 255 row.title && Column.text row.message && Column.varchar 255 row.dedupeKey &&
    checks.storable (detailsPayload row.details) &&
    checks.hasProject tables.business row.projectId &&
    row.contractId.all (checks.hasContract tables.business) && row.id ∉ tables.alerts.map (·.id) &&
    !tables.alerts.any fun a => a.dedupeKey = row.dedupeKey ∧ a.status = .open

/-- Whether `alerts` takes the values that an event sets on an alert, which must still be there. The
details are set only if given. -/
def admitsUpdate (checks : Checks β) (tables : Tables β) (event : AlertEvent)
    (details : Option ValueDict) (id : Uuid) : Bool :=
  Column.text event.message && details.all (fun d => checks.storable (detailsPayload d)) &&
    tables.alerts.any (·.id = id)

def insert (checks : Checks β) (row : Alert) : Change (Tables β) := fun tables =>
  if admits checks tables row then some { tables with alerts := tables.alerts ++ [row] } else none

def update (checks : Checks β) (event : AlertEvent) (details : Option ValueDict) (id : Uuid) :
    Change (Tables β) := fun tables =>
  if admitsUpdate checks tables event details id then
    some { tables with
      alerts := tables.alerts.map fun a =>
        if a.id = id then
          { a with
            message := event.message
            severity := event.level.toAlertSeverity
            details := details.getD a.details }
        else a }
  else none

def isTouched (event : AlertEvent) (alert : Alert) : Bool :=
  event.message ≠ alert.message || event.level.toAlertSeverity ≠ alert.severity

def persist (checks : Checks β) (ambient : Ambient) (others : Tables β → Tables β)
    (event : AlertEvent) (alertType : AlertType) (projectId : Uuid) :
    Handler (Session (Tables β)) (Uuid × Bool) := fun s =>
  if !Column.text event.dedupeKey then (.error (.other "DBAPIError"), s.fail)
  else
    match openAlerts event s.view.alerts with
    | [] =>
      let row := eventRow ambient.isoformat ambient.newId projectId ambient.now alertType event
      match flush ((s.interleave others).add (insert checks row)) with
      | (.ok (), s) => (.ok (row.id, false), s)
      | (.error e, s) => (.error e, s)
    | [existing] =>
      match occurrences existing with
      | none =>
        -- The message and the severity are assigned by then.
        (.error (.other "ValueError"),
          if isTouched event existing then
            (s.interleave others).add (update checks event none existing.id)
          else s.interleave others)
      | some count =>
        let details := (repeated ambient.isoformat event count existing).details
        match flush ((s.interleave others).add
          (update checks event (some details) existing.id)) with
        | (.ok (), s) => (.ok (existing.id, true), s)
        | (.error e, s) => (.error e, s)
    | _ :: _ :: _ => (.error (.other "MultipleResultsFound"), s.interleave others)

/-- What actually happened, the deliveries apart. -/
structure AlertOutcome where
  raised : Bool := false
  persisted : Bool := false
  deduplicated : Bool := false
  alertId : Option Uuid := none

/-- Persist (best effort) and dispatch one event. What either raises is logged, not raised. -/
def raiseEvent (checks : Checks β) (ambient : Ambient) (others : Tables β → Tables β)
    (event : AlertEvent) (alertType : AlertType) (wanted : Bool) :
    Handler (Session (Tables β)) AlertOutcome := fun s =>
  match event.projectId with
  | some projectId =>
    if wanted then
      match persist checks ambient others event alertType projectId s with
      | (.ok (alertId, deduplicated), s) =>
        (.ok { raised := true, persisted := true, deduplicated, alertId := some alertId }, s)
      | (.error _, s) => (.ok { raised := true }, s)
    else (.ok { raised := true }, s.interleave others)
  | none => (.ok { raised := true }, s.interleave others)

end Alerts

end Clear

/-!
## The administration endpoints

`app/api/v1/admin.py`: what a request changes, without its audit row.
-/

namespace Clear

namespace Admin

structure AlertUpdateRequest where
  status : AlertStatus
  note : Option String := none

def updateAlert (payload : AlertUpdateRequest) (user : Uuid) (now : Timestamp) (alert : Alert) :
    Alert :=
  let noted := { alert with
    status := payload.status
    note := (payload.note.filter (· ≠ "")).or alert.note }
  match payload.status with
  | .acknowledged => { noted with acknowledgedAt := some now, acknowledgedBy := some user }
  | .resolved | .dismissed => { noted with resolvedAt := some now }
  | .open => noted

end Admin

end Clear
