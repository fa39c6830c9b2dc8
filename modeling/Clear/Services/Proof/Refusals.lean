import Clear.Services.Auth

/-!
# What a refused sign-in leaves behind

A failed login counts towards the lockout and a replayed refresh token ends every session of its
user, but both requests end by raising, and `get_db` rolls back what they wrote. A sequence of
requests keeps these side effects exactly if it has none to keep (`side_effects_survive_iff`).
-/

namespace Clear

namespace Auth

/-! ## Sequences of requests -/

inductive Request where
  | login (q : LoginRequest)
  | refresh (q : RefreshRequest)

variable (s : Security)

def serve : Request → Handler Identity TokenResponse
  | .login q => (login s q).getDb
  | .refresh q => (refresh s q).getDb

def serveAll (db : Identity) (requests : List Request) : Identity :=
  requests.foldl (fun db request => (serve s request db).2) db

structure WrongPassword (db : Identity) (q : LoginRequest) (user : User) : Prop where
  account : db.getByEmail s.citext q.email = some user
  refused : s.verifyPassword q.password user.passwordHash = false

structure PresentsRevoked (db : Identity) (q : RefreshRequest) (token : RefreshToken) : Prop where
  given : q.refreshToken ≠ ""
  inactive : db.getActiveByHash (s.hashToken q.refreshToken) q.info.now = none
  stored : db.getAnyByHash (s.hashToken q.refreshToken) = some token
  revoked : token.revokedAt ≠ none

def Counted (before after : User) : Prop :=
  before.failedLoginCount < after.failedLoginCount ∨ before.lockedUntil ≠ after.lockedUntil

def AllRevoked (db : Identity) (userId : Uuid) : Prop :=
  ∀ token ∈ db.tokens, token.userId = userId → token.revokedAt ≠ none

def Fails (id : Uuid) (db : Identity) : List LoginRequest → Prop
  | [] => True
  | q :: rest =>
    (∃ user, WrongPassword s db q user ∧ user.id = id) ∧ Fails id (serve s (.login q) db).2 rest

structure SideEffectsSurvive (db : Identity) (requests : List Request) : Prop where
  /-- A wrong password for an existing account is counted. -/
  counted : ∀ earlier q later user, requests = earlier ++ .login q :: later →
    WrongPassword s (serveAll s db earlier) q user →
    ∃ row, (serveAll s db (earlier ++ [.login q])).getByEmail s.citext q.email = some row ∧
      Counted user row
  /-- Eight failures in a row leave the account locked, whatever password comes next. -/
  locked : ∀ earlier failures next later id user,
    requests = earlier ++ (failures.map .login ++ .login next :: later) →
    failures.length = maxFailedLogins → Fails s id (serveAll s db earlier) failures →
    (serveAll s db (earlier ++ failures.map .login)).getByEmail s.citext next.email = some user →
    user.id = id → (∀ q ∈ failures, next.info.now < q.info.now + minutes lockoutMinutes) →
    ∃ e, (serve s (.login next) (serveAll s db (earlier ++ failures.map .login))).1 = .error e
  /-- A revoked token ends every session of its user. -/
  cut : ∀ earlier q later token, requests = earlier ++ .refresh q :: later →
    PresentsRevoked s (serveAll s db earlier) q token →
    AllRevoked (serveAll s db (earlier ++ [.refresh q])) token.userId

/-- A request without a side effect to keep: no wrong password for an existing account, no revoked
token of a user who still has an unrevoked one. -/
def Harmless (db : Identity) : Request → Prop
  | .login q => ∀ user, ¬ WrongPassword s db q user
  | .refresh q => ∀ token, PresentsRevoked s db q token → AllRevoked db token.userId

/-! ## Refusals are rolled back -/

variable {s} {db : Identity}

theorem login_wrongPassword {q : LoginRequest} {user : User} (h : WrongPassword s db q user) :
    (login s q db).1 = .error (.app .invalidCredentials) := by
  unfold login
  rw [h.account]
  simp only [h.refused, if_true]

theorem refresh_revoked {q : RefreshRequest} {token : RefreshToken}
    (h : PresentsRevoked s db q token) : (refresh s q db).1 = .error noLongerValid := by
  have hreads : refreshReads s q db = .replayed token := by
    unfold refreshReads
    rw [h.inactive, h.stored]
  unfold refresh
  rw [if_neg h.given, hreads]
  rfl

theorem serveAll_append (earlier : List Request) (request : Request) :
    serveAll s db (earlier ++ [request]) = (serve s request (serveAll s db earlier)).2 := by
  unfold serveAll
  rw [List.foldl_append]
  rfl

theorem serveAll_login {earlier : List Request} {q : LoginRequest} {user : User}
    (h : WrongPassword s (serveAll s db earlier) q user) :
    serveAll s db (earlier ++ [.login q]) = serveAll s db earlier := by
  rw [serveAll_append]
  show ((login s q).getDb (serveAll s db earlier)).2 = _
  rw [Handler.getDb_error (login_wrongPassword h)]

theorem serveAll_refresh {earlier : List Request} {q : RefreshRequest} {token : RefreshToken}
    (h : PresentsRevoked s (serveAll s db earlier) q token) :
    serveAll s db (earlier ++ [.refresh q]) = serveAll s db earlier := by
  rw [serveAll_append]
  show ((refresh s q).getDb (serveAll s db earlier)).2 = _
  rw [Handler.getDb_error (refresh_revoked h)]

theorem not_counted (user : User) : ¬ Counted user user := by
  unfold Counted
  simp

/-- **The side effects survive exactly where there are none.** Of a login with a wrong password for
an existing account, nothing is ever counted. -/
theorem side_effects_survive_iff (s : Security) (db : Identity) (requests : List Request) :
    SideEffectsSurvive s db requests ↔ ∀ earlier request later,
      requests = earlier ++ request :: later → Harmless s (serveAll s db earlier) request := by
  constructor
  · intro h earlier request later hsplit
    cases request with
    | login q =>
      intro user hwrong
      obtain ⟨row, hrow, hcounted⟩ := h.counted earlier q later user hsplit hwrong
      rw [serveAll_login hwrong, hwrong.account] at hrow
      obtain rfl := Option.some.inj hrow
      exact not_counted _ hcounted
    | refresh q =>
      intro token hrevoked
      have hcut := h.cut earlier q later token hsplit hrevoked
      rwa [serveAll_refresh hrevoked] at hcut
  · intro h
    refine ⟨fun earlier q later user hsplit hwrong => ?_,
      fun earlier failures next later id user hsplit hlength hfails _ _ _ => ?_,
      fun earlier q later token hsplit hrevoked => ?_⟩
    · exact absurd hwrong (h earlier (.login q) later hsplit user)
    · -- the first of the eight failures has a side effect to keep
      cases failures with
      | nil => cases hlength
      | cons q failures =>
        obtain ⟨user, hwrong, -⟩ := hfails.1
        exact absurd hwrong (h earlier (.login q) _ hsplit user)
    · rw [serveAll_refresh hrevoked]
      exact h earlier (.refresh q) later hsplit token hrevoked

/-! ## An account under attack -/

namespace Sample

def security : Security where
  citext := id
  lower := id
  verify password hash := password = hash
  needsRehash _ := false
  hashPassword := id
  hashToken := id
  refreshTokenExpireDays := 7

def victim : User := { id := 1#128, email := "v@x", fullName := "V", passwordHash := some "right" }

def attempt (password : String) : LoginRequest where
  email := "v@x"
  password := password
  info := { now := 5, secret := "t", tokenId := 9#128 }

end Sample

open Sample

/-- After eight wrong passwords in a row, the ninth attempt is answered with a session. -/
theorem lockout_never_comes :
    ¬ SideEffectsSurvive security { users := [victim] }
      (List.replicate 8 (.login (attempt "wrong")) ++ [.login (attempt "right")]) := by
  intro h
  obtain ⟨e, he⟩ := h.locked [] (List.replicate 8 (attempt "wrong")) (attempt "right") [] 1#128 victim
    rfl rfl (by
      repeat' refine And.intro ⟨victim, ⟨rfl, rfl⟩, rfl⟩ ?_
      trivial)
    rfl rfl (by decide)
  cases he

end Auth

end Clear
