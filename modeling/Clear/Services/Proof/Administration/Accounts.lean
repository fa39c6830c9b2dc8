import Clear.Lib.Machine
import Clear.Services.Project

/-!
# Administrators and managers

`Administrable`: the platform has an active administrator and every live project a Project Manager.
An operation on an account leaves the memberships alone, and the guard keeps an administrator
(`accountStep_updateUser`, `accountStep_deleteUser`).
-/

/-!
## The administration of users and projects

The operations of the two services as one state machine: each is a request in its transaction, and
one that works on a project finds it first.
-/

/-!
## User administration

`app/services/user.py`: the operations that change or remove an account. The rows of the audit log
are left out, as are the responses, which `get_user` assembles from what was written.
-/

namespace Clear

structure UserUpdateRequest where
  fullName : Option String := none
  isActive : Option Bool := none
  isSystemAdmin : Option Bool := none
  mustChangePassword : Option Bool := none
  jobTitle : Option String := none
  department : Option String := none
  avatarUrl : Option String := none
  locale : Option String := none
  timezone : Option String := none
  deriving DecidableEq

def UserUpdateRequest.apply (changes : UserUpdateRequest) (user : User) : User :=
  { user with
    fullName := changes.fullName.getD user.fullName
    isActive := changes.isActive.getD user.isActive
    isSystemAdmin := changes.isSystemAdmin.getD user.isSystemAdmin
    mustChangePassword := changes.mustChangePassword.getD user.mustChangePassword
    jobTitle := changes.jobTitle.or user.jobTitle
    department := changes.department.or user.department
    avatarUrl := changes.avatarUrl.or user.avatarUrl
    locale := changes.locale.getD user.locale
    timezone := changes.timezone.getD user.timezone }

namespace UserService

def remainingAdmins (db : Identity) (user : User) : Nat :=
  db.users.countP fun row =>
    row.isSystemAdmin && row.isActive && decide (row.deletedAt = none) && decide (row.id ≠ user.id)

def guardLastAdmin (db : Identity) (user : User) : Except Raised Unit :=
  if !user.isSystemAdmin then .ok ()
  else if remainingAdmins db user = 0 then
    .error (.app (.forbidden ("This is the only active System Administrator. Promote another " ++
      "administrator before changing this account.")))
  else .ok ()

def checkUpdate (db : Identity) (user : User) (changes : UserUpdateRequest) (actor : User) :
    Except Raised Unit :=
  -- an administrator must not be able to escalate or lock themselves out
  if user.id = actor.id ∧ (changes.isSystemAdmin.isSome ∨ changes.isActive.isSome) then
    .error (.app (.forbidden
      "You cannot change your own administrator status or active state."))
  else if changes.isSystemAdmin = some false ∨ changes.isActive = some false then
    guardLastAdmin db user
  else .ok ()

def updateUser (userId : Uuid) (changes : UserUpdateRequest) (actor : User) (now : Timestamp) :
    Handler Identity Unit := fun db =>
  match db.getUser userId with
  | none => (.error (.app (.notFound "User" userId)), db)
  | some user =>
    if changes = {} then (.ok (), db)
    else
      match checkUpdate db user changes actor with
      | .error e => (.error e, db)
      | .ok _ =>
        let db := db.updateUser user.id changes.apply
        -- deactivation must also end live sessions
        (.ok (), if changes.isActive = some false then db.revokeAllForUser user.id now else db)

def deleteUser (userId : Uuid) (actor : User) (now : Timestamp) : Handler Identity Unit := fun db =>
  match db.getUser userId with
  | none => (.error (.app (.notFound "User" userId)), db)
  | some user =>
    if user.id = actor.id then
      (.error (.app (.forbidden "You cannot delete your own account.")), db)
    else
      match guardLastAdmin db user with
      | .error e => (.error e, db)
      | .ok _ =>
        let db := db.updateUser user.id fun row =>
          { row with deletedAt := some now, isActive := false }
        (.ok (), db.revokeAllForUser user.id now)

end UserService

end Clear

namespace Clear

namespace Administration

inductive Operation where
  | updateUser (userId : Uuid) (changes : UserUpdateRequest) (actor : User) (now : Timestamp)
  | deleteUser (userId : Uuid) (actor : User) (now : Timestamp)
  | createProject (payload : ProjectCreateRequest) (actor : User)
  | addMember (projectId : Uuid) (payload : ProjectMemberCreate) (actor : User)
  | addMembersBulk (projectId : Uuid) (payload : ProjectMemberBulkCreate) (actor : User)
  | updateMember (projectId userId : Uuid) (payload : ProjectMemberUpdate)
  | removeMember (projectId userId : Uuid)

def commit {α : Type} (handler : Handler Identity α) (db : Identity) : Identity :=
  (handler.getDb db).2

def onProject {α : Type} (projectId : Uuid) (handler : Project → Handler Identity α)
    (db : Identity) : Identity :=
  match db.getProject projectId with
  | none => db
  | some project => commit (handler project) db

def perform (db : Identity) : Operation → Identity
  | .updateUser userId changes actor now =>
    commit (UserService.updateUser userId changes actor now) db
  | .deleteUser userId actor now => commit (UserService.deleteUser userId actor now) db
  | .createProject payload actor => commit (ProjectService.createProject payload actor) db
  | .addMember projectId payload actor =>
    onProject projectId (ProjectService.addMember · payload actor) db
  | .addMembersBulk projectId payload actor =>
    onProject projectId (ProjectService.addMembersBulk · payload.role actor payload.users) db
  | .updateMember projectId userId payload =>
    onProject projectId (ProjectService.updateMember · userId payload) db
  | .removeMember projectId userId =>
    onProject projectId (ProjectService.removeMember · userId) db

def machine : Machine Identity Operation where
  init db := db.Valid
  step db op := some (perform db op)

end Administration

end Clear

namespace Clear

namespace Administration

open ProjectService UserService

variable {db db' : Identity}

/-! ## The invariant -/

def HasAdmin (db : Identity) : Prop :=
  ∃ user ∈ db.users, user.isSystemAdmin = true ∧ user.isActive = true ∧ user.deletedAt = none

def HasMember (db : Identity) (role : RoleName) (projectId : Uuid) : Prop :=
  ∃ member ∈ db.members, member.projectId = projectId ∧ db.hasRole [role] member = true

structure Administrable (db : Identity) : Prop where
  admin : HasAdmin db
  manager : ∀ project ∈ db.projects, project.deletedAt = none →
    HasMember db .projectManager project.id

def OnlyManager (db : Identity) (member : ProjectMember) : Prop :=
  db.hasRole [.projectManager] member = true ∧
    ∀ row ∈ db.members, row.projectId = member.projectId →
      db.hasRole [.projectManager] row = true → row = member

def TakesRole (db : Identity) (member : ProjectMember) : Operation → Prop
  | .updateMember projectId userId payload =>
    (∃ project, db.getProject projectId = some project) ∧
      db.getMembership projectId userId = some member ∧
      ∃ name role, payload.role = some name ∧ db.roleByName name = some role ∧
        db.hasRole [name] member = false
  | .removeMember projectId userId =>
    (∃ project, db.getProject projectId = some project) ∧
      db.getMembership projectId userId = some member
  | _ => False

/-- No operation takes the role of a project's only manager while another member of the project has
the role of an administrator. -/
def Covered (db : Identity) (op : Operation) : Prop :=
  ∀ member, TakesRole db member op → OnlyManager db member →
    ¬ HasMember db .systemAdmin member.projectId

/-! ## Roles -/

theorem hasRole_iff {names : List RoleName} {member : ProjectMember} :
    db.hasRole names member = true ↔ ∃ role, db.roleOf member = some role ∧ role.name ∈ names := by
  unfold Identity.hasRole
  simp [Option.any_eq_true]

theorem hasRole_one {name : RoleName} {member : ProjectMember} {role : Role}
    (h : db.roleOf member = some role) : db.hasRole [name] member = true ↔ role.name = name := by
  rw [hasRole_iff, h]
  simp

theorem roleOf_congr (h : db'.roles = db.roles) {row row' : ProjectMember}
    (hrole : row'.roleId = row.roleId) : db'.roleOf row' = db.roleOf row := by
  unfold Identity.roleOf
  rw [h, hrole]

theorem hasRole_congr (h : db'.roles = db.roles) {names : List RoleName}
    {row row' : ProjectMember} (hrole : row'.roleId = row.roleId) :
    db'.hasRole names row' = db.hasRole names row := by
  unfold Identity.hasRole
  rw [roleOf_congr h hrole]

theorem roleByName_iff (h : db.Valid) {name : RoleName} {role : Role} :
    db.roleByName name = some role ↔ role ∈ db.roles ∧ role.name = name := by
  unfold Identity.roleByName
  rw [Keyed.find_eq_some_iff (k := name) h.roleNames fun _ hp => of_decide_eq_true hp,
    decide_eq_true_eq]

theorem roleOf_id (h : db.Valid) {role : Role} (hrole : role ∈ db.roles) {member : ProjectMember}
    (hid : member.roleId = role.id) : db.roleOf member = some role :=
  h.roleOf_iff.2 ⟨hrole, hid.symm⟩

/-! ## Accounts -/

structure AccountsOnly (db db' : Identity) : Prop where
  ids : db'.users.map (·.id) = db.users.map (·.id)
  roles : db'.roles = db.roles
  projects : db'.projects = db.projects
  members : db'.members = db.members

theorem AccountsOnly.valid (h : AccountsOnly db db') (hdb : db.Valid) : db'.Valid where
  users := by
    rw [h.ids]
    exact hdb.users
  roles := by
    rw [h.roles]
    exact hdb.roles
  roleNames := by
    rw [h.roles]
    exact hdb.roleNames
  projects := by
    rw [h.projects]
    exact hdb.projects
  memberIds := by
    rw [h.members]
    exact hdb.memberIds
  members := by
    rw [h.members]
    exact hdb.members
  memberRole := by
    rw [h.members, h.roles]
    exact hdb.memberRole
  memberProject := by
    rw [h.members, h.projects]
    exact hdb.memberProject

theorem AccountsOnly.administrable (h : AccountsOnly db db') (hadmin : HasAdmin db')
    (hdb : Administrable db) : Administrable db' where
  admin := hadmin
  manager := by
    rw [h.projects]
    intro project hproject hlive
    obtain ⟨member, hmem, hid, hrole⟩ := hdb.manager project hproject hlive
    exact ⟨member, by rwa [h.members], hid, by rwa [hasRole_congr h.roles rfl]⟩

/-- An administrator remains when one account changes, if the guard lets it. -/
theorem guardLastAdmin_hasAdmin (hdb : db.Valid) {user : User} (huser : user ∈ db.users)
    (hguard : guardLastAdmin db user = .ok ()) (h : HasAdmin db) (change : User → User) :
    HasAdmin (db.updateUser user.id change) := by
  have hother : ∃ row ∈ db.users, row.isSystemAdmin = true ∧ row.isActive = true ∧
      row.deletedAt = none ∧ row.id ≠ user.id := by
    unfold guardLastAdmin at hguard
    by_cases hadmin : user.isSystemAdmin = true
    · rw [if_neg (by simp [hadmin])] at hguard
      by_cases hnone : remainingAdmins db user = 0
      · rw [if_pos hnone] at hguard
        cases hguard
      · unfold remainingAdmins at hnone
        obtain ⟨row, hrow, hp⟩ := List.countP_pos_iff.1 (Nat.pos_of_ne_zero hnone)
        refine ⟨row, hrow, ?_⟩
        simpa [and_assoc] using hp
    · obtain ⟨row, hrow, hsystem, hactive, hlive⟩ := h
      refine ⟨row, hrow, hsystem, hactive, hlive, fun hid => hadmin ?_⟩
      rwa [Keyed.inj hdb.users hrow huser hid] at hsystem
  obtain ⟨row, hrow, hsystem, hactive, hlive, hne⟩ := hother
  refine ⟨row, List.mem_map.2 ⟨row, hrow, if_neg hne⟩, hsystem, hactive, hlive⟩

theorem accountsOnly_updateUser {id : Uuid} {change : User → User}
    (h : ∀ user, (change user).id = user.id) : AccountsOnly db (db.updateUser id change) where
  ids := by
    unfold Identity.updateUser
    rw [List.map_map]
    refine List.map_congr_left fun user _ => ?_
    show (if user.id = id then change user else user).id = user.id
    split
    · exact h user
    · rfl
  roles := rfl
  projects := rfl
  members := rfl

theorem mem_of_getUser {id : Uuid} {user : User} (h : db.getUser id = some user) :
    user ∈ db.users := List.mem_of_find?_eq_some h

/-- An update that demotes nobody keeps every administrator. -/
theorem apply_hasAdmin {changes : UserUpdateRequest} (hsystem : changes.isSystemAdmin ≠ some false)
    (hactive : changes.isActive ≠ some false) (h : HasAdmin db) (id : Uuid) :
    HasAdmin (db.updateUser id changes.apply) := by
  obtain ⟨row, hrow, hadmin, hlive, hkept⟩ := h
  refine ⟨_, List.mem_map.2 ⟨row, hrow, rfl⟩, ?_⟩
  split
  · refine ⟨?_, ?_, hkept⟩
    · show changes.isSystemAdmin.getD row.isSystemAdmin = true
      cases hchange : changes.isSystemAdmin with
      | none => exact hadmin
      | some flag => cases flag with
        | true => rfl
        | false => exact absurd hchange hsystem
    · show changes.isActive.getD row.isActive = true
      cases hchange : changes.isActive with
      | none => exact hlive
      | some flag => cases flag with
        | true => rfl
        | false => exact absurd hchange hactive
  · exact ⟨hadmin, hlive, hkept⟩

structure AccountStep (db db' : Identity) : Prop extends AccountsOnly db db' where
  admin : HasAdmin db → HasAdmin db'

theorem AccountStep.refl (db : Identity) : AccountStep db db := ⟨⟨rfl, rfl, rfl, rfl⟩, id⟩

theorem AccountStep.revoke (h : AccountStep db db') (id : Uuid) (now : Timestamp) :
    AccountStep db (db'.revokeAllForUser id now) :=
  ⟨⟨h.ids, h.roles, h.projects, h.members⟩, h.admin⟩

theorem accountStep_updateUser (hdb : db.Valid) (userId : Uuid) (changes : UserUpdateRequest)
    (actor : User) (now : Timestamp) :
    AccountStep db (commit (UserService.updateUser userId changes actor now) db) := by
  unfold commit
  rcases Handler.getDb_cases (UserService.updateUser userId changes actor now) db with
    ⟨_, hget, hok⟩ | ⟨_, hget, -⟩
  swap
  · rw [hget]
    exact AccountStep.refl db
  rw [hget]
  unfold UserService.updateUser at hok ⊢
  cases huser : db.getUser userId with
  | none =>
    rw [huser] at hok
    cases hok
  | some user =>
    simp only [huser] at hok ⊢
    by_cases hempty : changes = {}
    · rw [if_pos hempty]
      exact AccountStep.refl db
    · rw [if_neg hempty] at hok ⊢
      cases hcheck : checkUpdate db user changes actor with
      | error e =>
        rw [hcheck] at hok
        cases hok
      | ok _ =>
        have hstep : AccountStep db (db.updateUser user.id changes.apply) := by
          refine ⟨accountsOnly_updateUser fun _ => rfl, fun hadmin => ?_⟩
          unfold checkUpdate at hcheck
          by_cases hself : user.id = actor.id ∧
              (changes.isSystemAdmin.isSome = true ∨ changes.isActive.isSome = true)
          · rw [if_pos hself] at hcheck
            cases hcheck
          · rw [if_neg hself] at hcheck
            by_cases hdemotes : changes.isSystemAdmin = some false ∨ changes.isActive = some false
            · rw [if_pos hdemotes] at hcheck
              exact guardLastAdmin_hasAdmin hdb (mem_of_getUser huser) hcheck hadmin _
            · obtain ⟨hsystem, hactive⟩ := not_or.1 hdemotes
              exact apply_hasAdmin hsystem hactive hadmin _
        show AccountStep db (if changes.isActive = some false then _ else _)
        split
        · exact hstep.revoke _ _
        · exact hstep

theorem accountStep_deleteUser (hdb : db.Valid) (userId : Uuid) (actor : User) (now : Timestamp) :
    AccountStep db (commit (UserService.deleteUser userId actor now) db) := by
  unfold commit
  rcases Handler.getDb_cases (UserService.deleteUser userId actor now) db with
    ⟨_, hget, hok⟩ | ⟨_, hget, -⟩
  swap
  · rw [hget]
    exact AccountStep.refl db
  rw [hget]
  unfold UserService.deleteUser at hok ⊢
  cases huser : db.getUser userId with
  | none =>
    rw [huser] at hok
    cases hok
  | some user =>
    simp only [huser] at hok ⊢
    by_cases hself : user.id = actor.id
    · rw [if_pos hself] at hok
      cases hok
    · rw [if_neg hself] at hok ⊢
      cases hguard : guardLastAdmin db user with
      | error e =>
        rw [hguard] at hok
        cases hok
      | ok _ =>
        have hstep : AccountStep db (db.updateUser user.id fun row =>
            { row with deletedAt := some now, isActive := false }) :=
          ⟨accountsOnly_updateUser fun _ => rfl, fun hadmin =>
            guardLastAdmin_hasAdmin hdb (mem_of_getUser huser) hguard hadmin _⟩
        exact hstep.revoke user.id now

end Administration

end Clear
