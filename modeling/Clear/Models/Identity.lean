import Clear.Core.Value
import Clear.Models.Processing

/-!
# Identity and access

`app/models/identity.py` and `app/models/project.py`: users, roles, refresh tokens, projects and
memberships, and the permissions of `app/core/enums.py`. `Identity` is the part of the database that
the authentication and administration services work on.
-/

namespace Clear

/-! ## Vocabularies -/

/-- How an account signs in. -/
inductive AuthProvider where
  | localLogin | microsoft
  deriving DecidableEq, Repr

/-- The four platform roles. -/
inductive RoleName where
  | systemAdmin | projectManager | reviewer | viewer
  deriving DecidableEq, Repr

def RoleName.value : RoleName → String
  | systemAdmin => "system_admin"
  | projectManager => "project_manager"
  | reviewer => "reviewer"
  | viewer => "viewer"

def permissionValues : List String :=
  ["project:create", "project:read", "project:update", "project:delete", "project:member:manage",
    "contract:upload", "contract:read", "contract:update", "contract:delete", "contract:download",
    "job:read", "job:control", "knowledge:read", "knowledge:review", "search:execute",
    "copilot:use", "report:view", "export:create", "user:manage", "role:manage",
    "clause_master:manage", "ai_settings:manage", "profile:manage", "audit:read",
    "alert_rule:manage"]

/-! ## Rows -/

structure User where
  id : Uuid
  email : String
  fullName : String
  passwordHash : Option String := none
  isActive : Bool := true
  isSystemAdmin : Bool := false
  mustChangePassword : Bool := false
  authProvider : AuthProvider := .localLogin
  externalSubject : Option String := none
  jobTitle : Option String := none
  department : Option String := none
  avatarUrl : Option String := none
  locale : String := "en"
  timezone : String := "UTC"
  lastLoginAt : Option Timestamp := none
  failedLoginCount : Nat := 0
  lockedUntil : Option Timestamp := none
  deletedAt : Option Timestamp := none
  deriving DecidableEq

def User.isLocked (user : User) (now : Timestamp) : Bool :=
  match user.lockedUntil with
  | none => false
  | some moment => now < moment

/-- A row of `roles`. -/
structure Role where
  id : Uuid
  name : RoleName
  displayName : String := ""
  permissions : List String
  deriving DecidableEq

structure RefreshToken where
  id : Uuid
  userId : Uuid
  tokenHash : String
  expiresAt : Timestamp
  revokedAt : Option Timestamp := none
  replacedById : Option Uuid := none
  userAgent : Option String := none
  ipAddress : Option String := none
  deriving DecidableEq

structure Project where
  id : Uuid
  name : String
  slug : String
  createdBy : Option Uuid := none
  deletedAt : Option Timestamp := none
  deriving DecidableEq

structure ProjectMember where
  id : Uuid
  projectId : Uuid
  userId : Uuid
  roleId : Uuid
  addedBy : Option Uuid := none
  permissionOverrides : List String := []
  isFavourite : Bool := false
  deriving DecidableEq

structure Identity where
  users : List User := []
  roles : List Role := []
  tokens : List RefreshToken := []
  projects : List Project := []
  members : List ProjectMember := []
  deriving DecidableEq

/-- What the constraints of the database promise of the projects and their members. -/
structure Identity.Valid (db : Identity) : Prop where
  users : (db.users.map (·.id)).Nodup
  roles : (db.roles.map (·.id)).Nodup
  roleNames : (db.roles.map (·.name)).Nodup
  projects : (db.projects.map (·.id)).Nodup
  memberIds : (db.members.map (·.id)).Nodup
  members : (db.members.map fun member => (member.projectId, member.userId)).Nodup
  memberRole : ∀ member ∈ db.members, ∃ role ∈ db.roles, role.id = member.roleId
  memberProject : ∀ member ∈ db.members, ∃ project ∈ db.projects, project.id = member.projectId

/-! ## Errors -/

namespace AppError

def unauthenticated (message : String) : AppError :=
  { exception := "UnauthenticatedError", code := "unauthenticated", message }

def invalidCredentials : AppError :=
  { exception := "InvalidCredentialsError", code := "invalid_credentials"
    message := "Incorrect email or password." }

def tokenInvalid (message : String) : AppError :=
  { exception := "TokenInvalidError", code := "token_invalid", message }

def forbidden (message : String) : AppError :=
  { exception := "ForbiddenError", code := "forbidden", message }

def permissionDenied (permission : String) : AppError :=
  { exception := "PermissionDeniedError", code := "permission_denied"
    message := "Your role does not grant this permission."
    details := [("required_permission", .str permission)] }

def notFound (resource : String) (identifier : Uuid) : AppError :=
  { exception := "NotFoundError", code := "not_found", message := resource ++ " not found."
    details := [("resource", .str resource), ("id", .str identifier.str)] }

def conflict (message : String) (details : JsonDict) : AppError :=
  { exception := "ConflictError", code := "conflict", message, details }

def invalid (message : String) : AppError :=
  { exception := "ValidationError", code := "validation_error", message }

end AppError

/-- A statement that breaks a constraint of the database. -/
def integrityError : Raised := .other "IntegrityError"

end Clear

/-!
## Alerts and alert rules

The rows of `alerts`, `alert_rules` and `obligations` (`app/models/alert.py`,
`app/models/knowledge.py`) with the columns that the sweep reads and writes.
-/

namespace Clear

structure Alert where
  id : Uuid
  projectId : Uuid
  contractId : Option Uuid
  alertType : AlertType
  severity : AlertSeverity
  status : AlertStatus
  title : String
  message : String
  details : ValueDict := []
  dueDate : Option Date := none
  dedupeKey : String
  ruleId : Option Uuid := none
  resolvedAt : Option Timestamp := none
  note : Option String := none
  createdAt : Timestamp
  acknowledgedAt : Option Timestamp := none
  acknowledgedBy : Option Uuid := none

def Alert.isLive (a : Alert) : Bool := a.status ∈ [.open, .acknowledged]

/-- Configurable threshold for one alert type. A rule without a project is the platform default. The
administration screen admits an escalation age from 1 to 365 days. -/
structure AlertRule where
  id : Uuid
  projectId : Option Uuid
  alertType : AlertType
  isEnabled : Bool := true
  severity : AlertSeverity := .medium
  config : ValueDict := []
  escalateAfterDays : Option Nat := none

def AlertRule.key (r : AlertRule) : Option Uuid × AlertType := (r.projectId, r.alertType)

structure AlertRules where
  rows : List AlertRule
  keys : (rows.map AlertRule.key).Nodup

structure Obligation where
  id : Uuid
  contractId : Uuid
  projectId : Uuid
  responsibleParty : Option String := none
  action : String
  dueDate : Option Date := none
  status : ObligationStatus := .open
  clauseId : Option Uuid := none
  dueDescription : Option String := none
  triggerEvent : Option String := none
  frequency : Option String := none
  isRecurring : Bool := false
  penalty : Option String := none
  pageStart : Option Nat := none
  createdAt : Timestamp := 0

end Clear
