import Clear.Db.Session
import Clear.Repositories.Portfolio
import Clear.Repositories.Project

/-!
# Projects and their members

`app/services/project.py`: the operations that create a project or change who may administer it.
The rows of the audit log and the activity feed are left out.
-/

namespace Clear

structure ProjectMemberResponse where
  id : Uuid
  projectId : Uuid
  userId : Uuid
  role : RoleName
  roleDisplayName : String
  permissions : List String
  permissionOverrides : List String
  addedBy : Option Uuid

structure ProjectMemberCreate where
  userId : Uuid
  role : RoleName
  permissionOverrides : List String := []
  memberId : Uuid

structure ProjectMemberBulkCreate where
  users : List (Uuid × Uuid)
  role : RoleName

structure ProjectMemberUpdate where
  role : Option RoleName := none
  permissionOverrides : Option (List String) := none

/-- `ProjectCreateRequest`. `slug` is the given slug, or the name's; the last three fields are
drawn. -/
structure ProjectCreateRequest where
  name : String
  slug : String
  members : List ProjectMemberCreate := []
  projectId : Uuid
  memberId : Uuid
  suffix : String := ""

namespace ProjectService

def memberResponse (role : Role) (member : ProjectMember) : ProjectMemberResponse where
  id := member.id
  projectId := member.projectId
  userId := member.userId
  role := role.name
  roleDisplayName := role.displayName
  permissions :=
    if member.permissionOverrides.isEmpty then role.permissions
    else role.permissions.filter (member.permissionOverrides.contains ·)
  permissionOverrides := member.permissionOverrides
  addedBy := member.addedBy

/-- An attribute of an object that is `None`. -/
def attributeError : Raised := .other "AttributeError"

def notConfigured (role : RoleName) : Raised :=
  .app (.invalid ("Role '" ++ role.value ++ "' is not configured."))

def respond (projectId userId : Uuid) : Handler Identity ProjectMemberResponse := fun db =>
  match db.getMembership projectId userId with
  | none => (.error (.other "AssertionError"), db)
  | some member =>
    match db.roleOf member with
    | none => (.error attributeError, db)
    | some role => (.ok (memberResponse role member), db)

def response? (db : Identity) (member : ProjectMember) : Option ProjectMemberResponse :=
  (db.getMembership member.projectId member.userId).bind fun loaded =>
    (db.roleOf loaded).map (memberResponse · loaded)

def addMemberInternal (project : Project) (spec : ProjectMemberCreate) (actor : User) :
    Handler Identity ProjectMember := fun db =>
  match db.getUser spec.userId with
  | none => (.error (.app (.notFound "User" spec.userId)), db)
  | some user =>
    if !user.isActive then
      (.error (.app (.invalid "Cannot add a deactivated user to a project.")), db)
    else if (db.getMembership project.id user.id).isSome then
      (.error (.app (.conflict (user.fullName ++ " is already a member of this project.")
        [("user_id", .str user.id.str)])), db)
    else
      match db.roleByName spec.role with
      | none => (.error (notConfigured spec.role), db)
      | some role =>
        let member : ProjectMember :=
          { id := spec.memberId, projectId := project.id, userId := user.id, roleId := role.id
            addedBy := some actor.id, permissionOverrides := spec.permissionOverrides }
        match db.addMember member with
        | .error e => (.error e, db)
        | .ok db => (.ok member, db)

def addMember (project : Project) (payload : ProjectMemberCreate) (actor : User) :
    Handler Identity ProjectMemberResponse :=
  (addMemberInternal project payload actor).andThen fun member => respond project.id member.userId

/-- What a bulk invitation skips. -/
def isSkipped : Raised → Bool
  | .app e => e.exception = "NotFoundError" ∨ e.exception = "ValidationError"
  | .other _ => false

/-- `add_members_bulk`: already-present users are skipped rather than failing the whole batch. -/
def addMembersBulk (project : Project) (role : RoleName) (actor : User) :
    List (Uuid × Uuid) → Handler Identity (List ProjectMemberResponse)
  | [], db => (.ok [], db)
  | (userId, memberId) :: users, db =>
    if (db.getMembership project.id userId).isSome then addMembersBulk project role actor users db
    else
      match addMemberInternal project { userId, role, memberId } actor db with
      | (.error e, db) =>
        if isSkipped e then addMembersBulk project role actor users db else (.error e, db)
      | (.ok member, db) =>
        match addMembersBulk project role actor users db with
        | (.error e, db) => (.error e, db)
        | (.ok added, session) => (.ok ((response? db member).toList ++ added), session)

def guardMessage : String :=
  "A project must keep at least one Contract Manager. Assign another manager before changing this " ++
    "membership."

def guardLastManager (db : Identity) (project : Project) : Except Raised Unit :=
  if db.countManagers project.id ≤ 1 then .error (.app (.forbidden guardMessage)) else .ok ()

def guardRole (db : Identity) (project : Project) (role : Role) : Except Raised Unit :=
  if role.name = .projectManager then guardLastManager db project else .ok ()

def newRole (db : Identity) (project : Project) (member : ProjectMember) :
    Option RoleName → Except Raised Uuid
  | none => .ok member.roleId
  | some name =>
    match db.roleOf member with
    | none => .error attributeError
    | some role =>
      if name = role.name then .ok member.roleId
      else do
        guardRole db project role
        match db.roleByName name with
        | none => .error (notConfigured name)
        | some role => .ok role.id

def updateMember (project : Project) (userId : Uuid) (payload : ProjectMemberUpdate) :
    Handler Identity ProjectMemberResponse := fun db =>
  match db.getMembership project.id userId with
  | none => (.error (.app (.notFound "Project member" userId)), db)
  | some member =>
    match newRole db project member payload.role with
    | .error e => (.error e, db)
    | .ok roleId =>
      respond project.id userId <| db.updateMember member.id fun row =>
        { row with
          roleId := roleId
          permissionOverrides := payload.permissionOverrides.getD row.permissionOverrides }

def removeMember (project : Project) (userId : Uuid) : Handler Identity Unit := fun db =>
  match db.getMembership project.id userId with
  | none => (.error (.app (.notFound "Project member" userId)), db)
  | some member =>
    match db.roleOf member with
    | none => (.error attributeError, db)
    | some role =>
      match guardRole db project role with
      | .error e => (.error e, db)
      | .ok _ => (.ok (), db.removeMember project.id userId)

def addMembers (project : Project) (actor : User) :
    List ProjectMemberCreate → Handler Identity Unit
  | [], db => (.ok (), db)
  | spec :: specs, db =>
    if spec.userId = actor.id then addMembers project actor specs db
    else
      match addMemberInternal project spec actor db with
      | (.error e, db) => (.error e, db)
      | (.ok _, db) => addMembers project actor specs db

def createProject (payload : ProjectCreateRequest) (actor : User) : Handler Identity Project :=
  fun db =>
  let project : Project :=
    { id := payload.projectId, name := payload.name
      slug := db.uniqueSlug payload.slug payload.suffix, createdBy := some actor.id }
  match db.createProject project with
  | .error e => (.error e, db)
  | .ok db =>
    match db.roleByName .projectManager with
    | none => (.error (.app (.invalid "Roles are not seeded. Run the seed step.")), db)
    | some manager =>
      match db.addMember { id := payload.memberId, projectId := project.id, userId := actor.id
                           roleId := manager.id, addedBy := some actor.id } with
      | .error e => (.error e, db)
      | .ok db =>
        match addMembers project actor payload.members db with
        | (.error e, db) => (.error e, db)
        | (.ok _, db) => (.ok project, db)

end ProjectService

end Clear

/-!
## Project statistics

`ProjectService.compute_stats` (`app/services/project.py`): the counters of a project card.
-/

namespace Clear

structure AlertSettings where
  expiryWindowDays : Nat := 90
  riskScoreCutoff : Int := 67

structure ProjectStats where
  contractCount : Nat
  readyContractCount : Nat
  processingCount : Nat
  failedCount : Nat
  needsReviewCount : Nat
  highRiskCount : Nat
  expiringCount : Nat
  memberCount : Nat
  openAlertCount : Nat
  deriving DecidableEq, Repr

namespace ProjectService

def isHighRisk (settings : AlertSettings) (row : ContractMetadata) : Bool :=
  (row.int? .riskScore).any (settings.riskScoreCutoff ≤ ·)

def isExpiring (settings : AlertSettings) (today : Date) (row : ContractMetadata) : Bool :=
  (row.date? .expirationDate).any fun d => d ≤ today + settings.expiryWindowDays && today ≤ d

def statusCount (db : Portfolio) (projectId : Uuid) (p : ContractStatus → Bool) : Nat :=
  (db.contracts.filter fun c =>
    c.deletedAt.isNone && (c.projectId = projectId && p c.status)).length

def computeStats (settings : AlertSettings) (today : Date) (db : Portfolio) (projectId : Uuid) :
    ProjectStats where
  contractCount := statusCount db projectId fun _ => true
  readyContractCount := statusCount db projectId (· = .ready)
  processingCount :=
    (db.jobs.filter fun j => j.projectId = projectId && !j.state.isTerminal).length
  failedCount := statusCount db projectId (· = .failed)
  needsReviewCount := statusCount db projectId (· = .needsReview)
  highRiskCount :=
    (db.metadata.filter fun m => m.projectId = projectId && isHighRisk settings m).length
  expiringCount :=
    (db.metadata.filter fun m => m.projectId = projectId && isExpiring settings today m).length
  memberCount := (db.members.filter (·.projectId = projectId)).length
  openAlertCount := (db.alerts.filter fun a => a.projectId = projectId && a.status = .open).length

end ProjectService

end Clear
