import Clear.Db.Session
import Clear.Repositories.Project

/-!
# Authentication

`app/services/auth.py`. Hashing and the drawing of tokens are parameters (`Security`); a request
brings its time and the identifiers and secrets that are drawn while it is served.
-/

namespace Clear

/-- What authentication uses of the platform: the comparison of `CITEXT` columns, the password and
token hashes and the settings. -/
structure Security where
  citext : String → String
  /-- `str.lower`. -/
  lower : String → String
  /-- Whether argon2 or bcrypt accepts a password for a hash. -/
  verify : String → String → Bool
  needsRehash : String → Bool
  hashPassword : String → String
  hashToken : String → String
  refreshTokenExpireDays : Nat
  autoProvisionUsers : Bool := true
  /-- Empty for a pinned tenant, which is already the boundary. -/
  allowedEmailDomains : List String := []

def Security.verifyPassword (s : Security) (password : String) : Option String → Bool
  | none => false
  | some hash => hash ≠ "" && s.verify password hash

structure RequestInfo where
  now : Timestamp
  ip : Option String := none
  userAgent : Option String := none
  /-- The refresh token that is minted, if one is. -/
  secret : String
  tokenId : Uuid

/-! ## Sessions -/

structure ProjectMembershipInfo where
  projectId : Uuid
  projectName : String
  projectSlug : String
  role : RoleName
  roleDisplayName : String
  permissions : List String
  isFavourite : Bool

structure CurrentUser where
  id : Uuid
  email : String
  fullName : String
  isActive : Bool
  isSystemAdmin : Bool
  mustChangePassword : Bool
  authProvider : AuthProvider
  jobTitle : Option String
  department : Option String
  avatarUrl : Option String
  locale : String
  timezone : String
  lastLoginAt : Option Timestamp
  memberships : List ProjectMembershipInfo

structure AccessToken where
  subject : Uuid
  isSystemAdmin : Bool
  email : String
  authProvider : AuthProvider

structure TokenResponse where
  accessToken : AccessToken
  refreshToken : String
  user : CurrentUser

namespace Auth

/-- What `build_current_user` reports of one membership: nothing if the project is deleted. -/
def membershipInfo (db : Identity) (member : ProjectMember) : Option ProjectMembershipInfo :=
  (db.projectOf member).bind fun project =>
    if project.deletedAt ≠ none then none
    else (db.roleOf member).map fun role =>
      { projectId := project.id
        projectName := project.name
        projectSlug := project.slug
        role := role.name
        roleDisplayName := role.displayName
        permissions :=
          if member.permissionOverrides.isEmpty then role.permissions
          else role.permissions.filter (member.permissionOverrides.contains ·)
        isFavourite := member.isFavourite }

/-- Assemble the session payload, including resolved project permissions. -/
def buildCurrentUser (db : Identity) (user : User) : CurrentUser where
  id := user.id
  email := user.email
  fullName := user.fullName
  isActive := user.isActive
  isSystemAdmin := user.isSystemAdmin
  mustChangePassword := user.mustChangePassword
  authProvider := user.authProvider
  jobTitle := user.jobTitle
  department := user.department
  avatarUrl := user.avatarUrl
  locale := user.locale
  timezone := user.timezone
  lastLoginAt := user.lastLoginAt
  memberships := (db.listForUser user.id).filterMap (membershipInfo db)

def createAccessToken (user : User) : AccessToken where
  subject := user.id
  isSystemAdmin := user.isSystemAdmin
  email := user.email
  authProvider := user.authProvider

def createRefreshToken (s : Security) (info : RequestInfo) (userId : Uuid) : RefreshToken where
  id := info.tokenId
  userId := userId
  tokenHash := s.hashToken info.secret
  expiresAt := info.now + days s.refreshTokenExpireDays
  userAgent := (info.userAgent.map fun agent => (agent.take 512).toString).filter (· ≠ "")
  ipAddress := info.ip

/-- Trusted device: double the refresh window, capped by policy. -/
def rememberedUntil (s : Security) (info : RequestInfo) (expiresAt : Timestamp) : Timestamp :=
  min (expiresAt + days s.refreshTokenExpireDays) (info.now + days 90)

def issueSession (s : Security) (info : RequestInfo) (user : User) (rememberMe : Bool) :
    Handler Identity TokenResponse := fun db =>
  let minted := createRefreshToken s info user.id
  let row :=
    if rememberMe then { minted with expiresAt := rememberedUntil s info minted.expiresAt }
    else minted
  match db.issue row with
  | .error e => (.error e, db)
  | .ok db =>
    (.ok { accessToken := createAccessToken user, refreshToken := info.secret
           user := buildCurrentUser db user }, db)

/-! ## Password login -/

structure LoginRequest where
  email : String
  password : String
  rememberMe : Bool := false
  info : RequestInfo

def lockedMessage : String :=
  "This account is temporarily locked after repeated failed sign-in attempts. Please try again " ++
    "shortly."

def deactivatedMessage : String :=
  "This account has been deactivated. Contact your administrator."

def signedIn (s : Security) (q : LoginRequest) (user : User) : User :=
  let user :=
    if (user.passwordHash.any fun hash => hash ≠ "" && s.needsRehash hash) = true then
      user.setPassword (s.hashPassword q.password) user.mustChangePassword
    else user
  user.recordSuccessfulLogin q.info.now

def login (s : Security) (q : LoginRequest) : Handler Identity TokenResponse := fun db =>
  match db.getByEmail s.citext q.email with
  | none => (.error (.app .invalidCredentials), db)
  | some user =>
    if s.verifyPassword q.password user.passwordHash = false then
      (.error (.app .invalidCredentials), db.updateUser user.id (·.recordFailedLogin q.info.now))
    else if user.isLocked q.info.now then (.error (.app (.forbidden lockedMessage)), db)
    else if !user.isActive then (.error (.app (.forbidden deactivatedMessage)), db)
    else
      issueSession s q.info (signedIn s q user) q.rememberMe
        (db.updateUser user.id (signedIn s q))

/-! ## Refresh and logout -/

structure RefreshRequest where
  refreshToken : String
  info : RequestInfo

def noLongerValid : Raised :=
  .app (.tokenInvalid "Your session is no longer valid. Please sign in again.")

inductive RefreshPlan where
  /-- The digest is of no token. -/
  | unknown
  /-- A revoked or expired token is presented. -/
  | replayed (token : RefreshToken)
  | inactive (stored : RefreshToken)
  | rotate (stored : RefreshToken) (user : User)
  deriving DecidableEq

def refreshReads (s : Security) (q : RefreshRequest) (db : Identity) : RefreshPlan :=
  match db.getActiveByHash (s.hashToken q.refreshToken) q.info.now with
  | none =>
    match db.getAnyByHash (s.hashToken q.refreshToken) with
    | none => .unknown
    | some token => .replayed token
  | some stored =>
    match db.getUser stored.userId with
    | none => .inactive stored
    | some user => if user.isActive then .rotate stored user else .inactive stored

def refreshWrites (s : Security) (q : RefreshRequest) (plan : RefreshPlan) :
    Handler Identity TokenResponse := fun db =>
  match plan with
  | .unknown => (.error noLongerValid, db)
  | .replayed token => (.error noLongerValid, db.revokeAllForUser token.userId q.info.now)
  | .inactive stored =>
    (.error (.app (.forbidden "This account is no longer active.")), db.revoke stored q.info.now)
  | .rotate stored user =>
    match db.rotate stored (createRefreshToken s q.info stored.userId) q.info.now with
    | .error e => (.error e, db)
    | .ok db =>
      (.ok { accessToken := createAccessToken user, refreshToken := q.info.secret
             user := buildCurrentUser db user }, db)

def refresh (s : Security) (q : RefreshRequest) : Handler Identity TokenResponse := fun db =>
  if q.refreshToken = "" then
    (.error (.app (.unauthenticated "No refresh token supplied.")), db)
  else refreshWrites s q (refreshReads s q db) db

/-! ## Microsoft sign-in -/

/-- A sign-in whose id token has been verified: the claims that are read, the e-mail in lower case,
and the key that an account is given if one is provisioned. -/
structure OidcLogin where
  subject : String
  email : String
  fullName : String
  info : RequestInfo
  userId : Uuid

def emailDomain (s : Security) (email : String) : String :=
  s.lower (String.ofList (email.toList.reverse.takeWhile (· ≠ '@')).reverse)

/-- Refuse an address outside the configured domains. -/
def requireAllowedDomain (s : Security) (email : String) : Except Raised Unit :=
  if s.allowedEmailDomains.isEmpty || s.allowedEmailDomains.contains (emailDomain s email) then
    .ok ()
  else
    .error (.app (.forbidden
      "That Microsoft account is not permitted to sign in to this workspace."))

/-- Whether another row has the address or the subject of an account. Both are unique, among deleted
rows too. -/
def isTaken (s : Security) (db : Identity) (user : User) : Bool :=
  db.users.any fun row =>
    row.id ≠ user.id ∧ (s.citext row.email = s.citext user.email ∨
      (user.externalSubject ≠ none ∧ row.authProvider = user.authProvider ∧
        row.externalSubject = user.externalSubject))

/-- The flush of changes to an account, refused if they break a unique constraint. -/
def flushUser (s : Security) (db : Identity) (user : User) (change : User → User) :
    Except Raised Identity :=
  if isTaken s db (change user) then .error integrityError
  else .ok (db.updateUser user.id change)

def createUser (s : Security) (db : Identity) (user : User) : Except Raised Identity :=
  if db.users.any (·.id = user.id) || isTaken s db user then .error integrityError
  else .ok { db with users := db.users ++ [user] }

def renamed (q : OidcLogin) (user : User) : User :=
  { user with fullName := q.fullName, email := q.email }

def linked (q : OidcLogin) (user : User) : User :=
  { user with
    authProvider := .microsoft
    externalSubject := some q.subject
    fullName := if user.fullName = "" then q.fullName else user.fullName }

def provisioned (q : OidcLogin) : User where
  id := q.userId
  email := q.email
  fullName := q.fullName
  authProvider := .microsoft
  externalSubject := some q.subject

def flushed (s : Security) (user : User) (change : User → User) : Handler Identity User :=
  fun db =>
  match flushUser s db user change with
  | .error e => (.error e, db)
  | .ok db => (.ok (change user), db)

def resolveSsoUser (s : Security) (q : OidcLogin) : Handler Identity User := fun db =>
  match db.getByExternalSubject .microsoft q.subject with
  | some user =>
    if user.fullName ≠ q.fullName ∨ s.lower user.email ≠ q.email then
      flushed s user (renamed q) db
    else (.ok user, db)
  | none =>
    match db.getByEmail s.citext q.email with
    | some existing => flushed s existing (linked q) db
    | none =>
      if !s.autoProvisionUsers then
        (.error (.app (.forbidden
          "No account exists for this address. Contact your administrator.")), db)
      else
        match createUser s db (provisioned q) with
        | .error e => (.error e, db)
        | .ok db => (.ok (provisioned q), db)

/-- What follows when the account of a sign-in is known. -/
def admitSsoUser (s : Security) (q : OidcLogin) (user : User) : Handler Identity TokenResponse :=
  fun db =>
  if !user.isActive then (.error (.app (.forbidden deactivatedMessage)), db)
  else
    issueSession s q.info (user.recordSuccessfulLogin q.info.now) false
      (db.updateUser user.id (·.recordSuccessfulLogin q.info.now))

def completeOidcLogin (s : Security) (q : OidcLogin) : Handler Identity TokenResponse := fun db =>
  if q.subject = "" ∨ q.email = "" then
    (.error (.app (.tokenInvalid "The identity provider did not return an email address.")), db)
  else
    match requireAllowedDomain s q.email with
    | .error e => (.error e, db)
    | .ok _ => (resolveSsoUser s q).andThen (admitSsoUser s q) db

end Auth

end Clear
