import Clear.Core.Text
import Clear.Db.Session
import Clear.Lib.UnitOfWork
import Clear.Models.Identity

/-!
# The audit service

`AuditService` (`app/services/audit.py`): the row of a mutating operation, appended to the
transaction of that operation. The business tables are a parameter.
-/

/-!
## The audit log

The rows of `audit_log` (`app/models/audit.py`): one for each mutating operation, never updated.
-/

namespace Clear

/-- A value handed to an audit payload: plain data, an identifier, or an object of another class. -/
inductive Recorded where
  | value (v : Value)
  | uuid (u : Uuid)
  | object (ref : Nat)

/-- `dict[str, Any]`. -/
abbrev Payload := List (String × Recorded)

structure AuditLog where
  id : Uuid
  projectId : Option Uuid
  userId : Option Uuid
  userEmail : Option String
  action : AuditAction
  entityType : String
  entityId : Option Uuid
  entityLabel : Option String
  before : Option Payload
  after : Option Payload
  ip : Option String
  userAgent : Option String
  requestId : Option String
  traceId : Option String
  route : Option String
  succeeded : Bool
  errorCode : Option String
  createdAt : Timestamp

namespace Column

def text (s : String) : Bool := s.toList.all (· ≠ '\x00')

def varchar (width : Nat) (s : String) : Bool := text s && (s.toList.drop width).all (· = ' ')

end Column

def AuditLog.varchars (row : AuditLog) : List (Nat × Option String) :=
  [(320, row.userEmail), (64, some row.entityType), (512, row.entityLabel), (64, row.ip),
    (512, row.userAgent), (64, row.requestId), (64, row.traceId), (255, row.route),
    (64, row.errorCode)]

end Clear

namespace Clear

open UnitOfWork (Change Session)

variable {β : Type}

structure Tables (β : Type) where
  business : β
  alerts : List Alert := []
  auditLog : List AuditLog := []

structure Checks (β : Type) where
  hasProject : β → Uuid → Bool
  hasUser : β → Uuid → Bool
  hasContract : β → Uuid → Bool
  /-- The payload serialises, and `jsonb` reads the text. -/
  storable : Payload → Bool

/-- What a call reads beside its arguments: the request, the clock, the identifier of a new row, and
`!=` on objects. -/
structure Ambient where
  requestId : Option String
  traceId : String
  now : Timestamp
  newId : Uuid
  isoformat : Timestamp → String
  differs : Recorded → Recorded → Except Raised Bool

/-- `await db.flush()`. -/
def flush {δ : Type} : Handler (Session δ) Unit := fun s =>
  match s.flush with
  | (true, s) => (.ok (), s)
  | (false, s) => (.error (.other "DBAPIError"), s)

namespace AuditService

/-- Never written to an audit payload, even if present on the model. -/
def sensitiveFields : List String :=
  ["password", "password_hash", "new_password", "current_password", "confirm_password", "token",
    "token_hash", "refresh_token", "access_token", "api_key", "client_secret",
    "azure_openai_api_key", "openai_api_key", "anthropic_api_key", "azure_docintel_key",
    "s3_secret_access_key", "azure_account_key", "jwt_secret", "internal_api_token"]

/-- Columns excluded from diffs. -/
def noiseFields : List String := ["updated_at", "created_at", "last_accessed_at", "heartbeat_at"]

/-- Cap on a single field's recorded value. -/
def maxValueChars : Nat := 2000

def isSensitive (key : String) : Bool :=
  let lowered := Text.lower key
  lowered ∈ sensitiveFields ||
    ["password", "secret", "token", "api_key"].any (Text.contains · lowered)

def sanitizeField (key : String) : Recorded → Recorded
  | .value (.str s) =>
    if isSensitive key then .value (.str "***redacted***")
    else if maxValueChars < s.length then
      .value (.str (Text.take maxValueChars s ++ s!"... [{s.length} chars]"))
    else .value (.str s)
  | .uuid u =>
    if isSensitive key then .value (.str "***redacted***") else .value (.str u.str)
  | v => if isSensitive key then .value (.str "***redacted***") else v

/-- Redact secrets and truncate oversized values. -/
def sanitize (payload : Payload) : Payload := payload.map fun e => (e.1, sanitizeField e.1 e.2)

def diff (differs : Recorded → Recorded → Except Raised Bool) (before after : Option Payload) :
    Except Raised (Payload × Payload) := do
  let before := before.getD []
  let after := after.getD []
  let keys := ((before ++ after).map (·.1)).dedup.filter (· ∉ noiseFields)
  let changed ← keys.filterMapM fun key => do
    let old := (before.lookup key).getD (.value .null)
    let new := (after.lookup key).getD (.value .null)
    return if ← differs old new then some (key, old, new) else none
  return (sanitize (changed.map fun e => (e.1, e.2.1)), sanitize (changed.map fun e => (e.1, e.2.2)))

/-- The arguments of `record`. -/
structure Entry where
  action : AuditAction
  entityType : String
  entityId : Option Uuid := none
  entityLabel : Option String := none
  projectId : Option Uuid := none
  userId : Option Uuid := none
  userEmail : Option String := none
  before : Option Payload := none
  after : Option Payload := none
  ip : Option String := none
  userAgent : Option String := none
  route : Option String := none
  succeeded : Bool := true
  errorCode : Option String := none

def label (s : Option String) : Option String :=
  some (Text.take 512 (s.getD "")) |>.filter (· ≠ "")

def orNone (payload : Payload) : Option Payload := some payload |>.filter (!·.isEmpty)

def entryRow (ambient : Ambient) (entry : Entry) (changed : Payload × Payload) : AuditLog where
  id := ambient.newId
  projectId := entry.projectId
  userId := entry.userId
  userEmail := entry.userEmail
  action := entry.action
  entityType := entry.entityType
  entityId := entry.entityId
  entityLabel := label entry.entityLabel
  before := orNone changed.1
  after := orNone changed.2
  ip := entry.ip
  userAgent := label entry.userAgent
  requestId := ambient.requestId
  traceId := some ambient.traceId
  route := entry.route
  succeeded := entry.succeeded
  errorCode := entry.errorCode
  createdAt := ambient.now

def admits (checks : Checks β) (tables : Tables β) (row : AuditLog) : Bool :=
  row.varchars.all (fun column => column.2.all (Column.varchar column.1)) &&
    row.before.all checks.storable && row.after.all checks.storable &&
    row.projectId.all (checks.hasProject tables.business) &&
    row.userId.all (checks.hasUser tables.business) && row.id ∉ tables.auditLog.map (·.id)

def insert (checks : Checks β) (row : AuditLog) : Change (Tables β) := fun tables =>
  if admits checks tables row then some { tables with auditLog := tables.auditLog ++ [row] }
  else none

/-- Append one audit row. What its body raises is logged, not raised. -/
def record (checks : Checks β) (ambient : Ambient) (entry : Entry) :
    Handler (Session (Tables β)) (Option AuditLog) := fun s =>
  match diff ambient.differs entry.before entry.after with
  | .error _ => (.ok none, s)
  | .ok changed =>
    let row := entryRow ambient entry changed
    match flush (s.add (insert checks row)) with
    | (.ok (), s) => (.ok (some row), s)
    | (.error _, s) => (.ok none, s)

end AuditService

end Clear
