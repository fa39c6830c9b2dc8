import Clear.Repositories.Project

/-!
# Authorisation

`app/core/deps.py`: the permission that an endpoint across projects asks for, the validated triple of
user, project and permissions that a project endpoint receives, and the projects that an endpoint
across projects may read.
-/

namespace Clear

/-- Capabilities a System Administrator does not inherit. -/
def adminExcludedPermissions : List String := ["contract:upload"]

structure ProjectContext where
  user : User
  project : Project
  membership : Option ProjectMember
  permissions : List String := []
  role : Option RoleName := none

def ProjectContext.has (ctx : ProjectContext) (permission : String) : Bool :=
  (ctx.user.isSystemAdmin && !adminExcludedPermissions.contains permission) ||
    ctx.permissions.contains permission

namespace Deps

def holdsSomewhere (db : Identity) (user : User) (permission : String) : Bool :=
  db.members.any fun member =>
    decide (member.userId = user.id) &&
      db.roles.any fun role =>
        decide (member.roleId = role.id) && role.permissions.contains permission

def requirePermissionGlobal (db : Identity) (user : User) (permission : String) :
    Except AppError User :=
  if user.isSystemAdmin && !adminExcludedPermissions.contains permission then .ok user
  else if holdsSomewhere db user permission then .ok user
  else .error (.permissionDenied permission)

def membershipPermissions (role : Option Role) (member : ProjectMember) : List String :=
  let permissions := (role.map (·.permissions)).getD []
  if member.permissionOverrides.isEmpty then permissions
  else permissions.filter (member.permissionOverrides.contains ·)

/-- Load a project and verify the caller may see it. -/
def getProjectContext (db : Identity) (projectId : Uuid) (user : User) :
    Except AppError ProjectContext :=
  match db.getProject projectId with
  | none => .error (.notFound "Project" projectId)
  | some project =>
    if user.isSystemAdmin then
      -- the membership row is deliberately not consulted
      .ok { user, project, membership := none
            permissions := permissionValues.filter (!adminExcludedPermissions.contains ·)
            role := some .systemAdmin }
    else
      match db.getMembership projectId user.id with
      | none => .error (.notFound "Project" projectId)
      | some member =>
        .ok { user, project, membership := some member
              permissions := membershipPermissions (db.roleOf member) member
              role := (db.roleOf member).map (·.name) }

end Deps

structure AccessScope where
  user : User
  projectIds : List Uuid

namespace AccessScope

def projectAccessDenied : AppError :=
  { exception := "ProjectAccessDeniedError", code := "project_access_denied"
    message := "You do not have access to this project." }

def resolve (scope : AccessScope) (projectId : Option Uuid) : Except AppError (List Uuid) :=
  match projectId with
  | none => .ok scope.projectIds
  | some projectId =>
    if projectId ∈ scope.projectIds then .ok [projectId] else .error projectAccessDenied

end AccessScope

end Clear
