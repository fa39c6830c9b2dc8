import Clear.Models.Identity

/-!
# Projects and memberships

`app/repositories/project.py`. A membership is joined with its role and its project by their keys.
-/

/-!
## Users and refresh tokens

`app/repositories/identity.py`. A query answers from the list of rows, an ORM object that is changed
and flushed is an `UPDATE` of the row with its id.
-/

namespace Clear

/-- Consecutive failures before an account is temporarily locked. -/
def maxFailedLogins : Nat := 8

def lockoutMinutes : Nat := 15

def minutes (n : Nat) : Nat := n * 60000000

def days (n : Nat) : Nat := minutes (n * 24 * 60)

namespace User

def recordSuccessfulLogin (now : Timestamp) (user : User) : User :=
  { user with lastLoginAt := some now, failedLoginCount := 0, lockedUntil := none }

def recordFailedLogin (now : Timestamp) (user : User) : User :=
  if maxFailedLogins ≤ user.failedLoginCount + 1 then
    { user with lockedUntil := some (now + minutes lockoutMinutes), failedLoginCount := 0 }
  else { user with failedLoginCount := user.failedLoginCount + 1 }

def setPassword (passwordHash : String) (mustChange : Bool) (user : User) : User :=
  { user with passwordHash := some passwordHash, mustChangePassword := mustChange }

end User

namespace Identity

def getByEmail (citext : String → String) (db : Identity) (email : String) : Option User :=
  db.users.find? fun user => user.deletedAt = none ∧ citext user.email = citext email

def getByExternalSubject (db : Identity) (provider : AuthProvider) (subject : String) :
    Option User :=
  db.users.find? fun user =>
    user.deletedAt = none ∧ user.authProvider = provider ∧ user.externalSubject = some subject

def getUser (db : Identity) (id : Uuid) : Option User :=
  db.users.find? fun user => user.deletedAt = none ∧ user.id = id

def updateUser (db : Identity) (id : Uuid) (change : User → User) : Identity :=
  { db with users := db.users.map fun user => if user.id = id then change user else user }

def updateToken (db : Identity) (id : Uuid) (change : RefreshToken → RefreshToken) : Identity :=
  { db with tokens := db.tokens.map fun token => if token.id = id then change token else token }

def getActiveByHash (db : Identity) (tokenHash : String) (now : Timestamp) :
    Option RefreshToken :=
  db.tokens.find? fun token =>
    token.tokenHash = tokenHash ∧ token.revokedAt = none ∧ now < token.expiresAt

def getAnyByHash (db : Identity) (tokenHash : String) : Option RefreshToken :=
  db.tokens.find? (·.tokenHash = tokenHash)

/-- `issue`: an `INSERT`, which the primary key or the unique digest may refuse. -/
def issue (db : Identity) (token : RefreshToken) : Except Raised Identity :=
  if db.tokens.any fun row => row.id = token.id ∨ row.tokenHash = token.tokenHash then
    .error integrityError
  else .ok { db with tokens := db.tokens ++ [token] }

def revoke (db : Identity) (token : RefreshToken) (now : Timestamp) : Identity :=
  db.updateToken token.id fun row => { row with revokedAt := some now }

def rotate (db : Identity) (old replacement : RefreshToken) (now : Timestamp) :
    Except Raised Identity :=
  (db.issue replacement).map fun db =>
    db.updateToken old.id fun row =>
      { row with revokedAt := some now, replacedById := some replacement.id }

def revokeAllForUser (db : Identity) (userId : Uuid) (now : Timestamp) : Identity :=
  { db with
    tokens := db.tokens.map fun token =>
      if token.userId = userId ∧ token.revokedAt = none then { token with revokedAt := some now }
      else token }

end Identity

end Clear

namespace Clear

namespace Identity

def getProject (db : Identity) (id : Uuid) : Option Project :=
  db.projects.find? fun project => project.deletedAt = none ∧ project.id = id

def projectOf (db : Identity) (member : ProjectMember) : Option Project :=
  db.projects.find? (·.id = member.projectId)

def roleOf (db : Identity) (member : ProjectMember) : Option Role :=
  db.roles.find? (·.id = member.roleId)

def roleByName (db : Identity) (name : RoleName) : Option Role := db.roles.find? (·.name = name)

def getMembership (db : Identity) (projectId userId : Uuid) : Option ProjectMember :=
  db.members.find? fun member => member.projectId = projectId ∧ member.userId = userId

def listForUser (db : Identity) (userId : Uuid) : List ProjectMember :=
  db.members.filter (·.userId = userId)

def hasRole (db : Identity) (names : List RoleName) (member : ProjectMember) : Bool :=
  (db.roleOf member).any fun role => names.contains role.name

/-- How many Project Managers a project has: the members with this role, and those with the role of
an administrator. -/
def countManagers (db : Identity) (projectId : Uuid) : Nat :=
  db.members.countP fun member =>
    member.projectId = projectId && db.hasRole [.projectManager, .systemAdmin] member

/-- `members.create`: an `INSERT`, which the primary key or the unique pair may refuse. -/
def addMember (db : Identity) (member : ProjectMember) : Except Raised Identity :=
  if db.members.any fun row =>
      row.id = member.id ∨ (row.projectId = member.projectId ∧ row.userId = member.userId) then
    .error integrityError
  else .ok { db with members := db.members ++ [member] }

def removeMember (db : Identity) (projectId userId : Uuid) : Identity :=
  { db with
    members := db.members.filter fun row => ¬(row.projectId = projectId ∧ row.userId = userId) }

def updateMember (db : Identity) (id : Uuid) (change : ProjectMember → ProjectMember) : Identity :=
  { db with members := db.members.map fun row => if row.id = id then change row else row }

def slugExists (db : Identity) (slug : String) : Bool := db.projects.any (·.slug = slug)

def uniqueSlug (db : Identity) (base suffix : String) : String :=
  if !db.slugExists base then base
  else
    let candidates := (List.range' 2 998).map fun n => (base.take 135).toString ++ "-" ++ toString n
    (candidates.find? (!db.slugExists ·)).getD ((base.take 120).toString ++ "-" ++ suffix)

def createProject (db : Identity) (project : Project) : Except Raised Identity :=
  if db.projects.any fun row => row.id = project.id ∨ row.slug = project.slug then
    .error integrityError
  else .ok { db with projects := db.projects ++ [project] }

/-! ## Queries by key -/

variable {db : Identity} {member : ProjectMember}

theorem Valid.getProject_iff (h : db.Valid) {id : Uuid} {project : Project} :
    db.getProject id = some project ↔
      project ∈ db.projects ∧ project.deletedAt = none ∧ project.id = id := by
  unfold getProject
  rw [Keyed.find_eq_some_iff (k := id) h.projects fun _ hp => (of_decide_eq_true hp).2,
    decide_eq_true_eq]

theorem Valid.projectOf_iff (h : db.Valid) {project : Project} :
    db.projectOf member = some project ↔ project ∈ db.projects ∧ project.id = member.projectId := by
  unfold projectOf
  rw [Keyed.find_eq_some_iff (k := member.projectId) h.projects fun _ hp => of_decide_eq_true hp,
    decide_eq_true_eq]

theorem Valid.roleOf_iff (h : db.Valid) {role : Role} :
    db.roleOf member = some role ↔ role ∈ db.roles ∧ role.id = member.roleId := by
  unfold roleOf
  rw [Keyed.find_eq_some_iff (k := member.roleId) h.roles fun _ hp => of_decide_eq_true hp,
    decide_eq_true_eq]

theorem Valid.exists_roleOf (h : db.Valid) (hmem : member ∈ db.members) :
    ∃ role, db.roleOf member = some role := by
  obtain ⟨role, hrole, hid⟩ := h.memberRole member hmem
  exact ⟨role, h.roleOf_iff.2 ⟨hrole, hid⟩⟩

theorem Valid.getMembership_iff (h : db.Valid) {projectId userId : Uuid} :
    db.getMembership projectId userId = some member ↔
      member ∈ db.members ∧ member.projectId = projectId ∧ member.userId = userId := by
  unfold getMembership
  rw [Keyed.find_eq_some_iff (k := (projectId, userId)) h.members, decide_eq_true_eq]
  intro row hp
  obtain ⟨hproject, huser⟩ := of_decide_eq_true hp
  rw [hproject, huser]

end Identity

end Clear
