import Clear.Services.Auth

/-!
# The account behind a subject

A sign-in finds its account by the subject, else by the e-mail address, else provisions one. The
first branch keeps the binding of subject and account and the last one makes a new one, but the
second rebinds whatever account has the address. Bindings are stable exactly if it never finds an
account that is bound already, and no bound subject arrives with an address that another account
holds (`binding_stable_iff`).
-/

namespace Clear

namespace Auth

/-! ## Sequences of sign-ins -/

section Statement

variable (s : Security)

def signIn (db : Identity) (q : OidcLogin) : Identity := ((completeOidcLogin s q).getDb db).2

/-- What is committed after a sequence of sign-ins. -/
def signInAll (db : Identity) (requests : List OidcLogin) : Identity :=
  requests.foldl (signIn s) db

def BoundTo (subject : String) (user : User) : Prop :=
  user.authProvider = .microsoft ∧ user.externalSubject = some subject

def Bound (db : Identity) (subject : String) (id : Uuid) : Prop :=
  ∃ user ∈ db.users, user.id = id ∧ user.deletedAt = none ∧ BoundTo subject user

def Resolves (db : Identity) (q : OidcLogin) (id : Uuid) : Prop :=
  ∃ user session, resolveSsoUser s q db = (.ok user, session) ∧ user.id = id

def SignsInTo (db : Identity) (q : OidcLogin) (id : Uuid) : Prop :=
  ∃ response, (completeOidcLogin s q db).1 = .ok response ∧ response.user.id = id

structure BindingStable (db : Identity) (requests : List OidcLogin) : Prop where
  /-- A bound account stays bound to its subject. -/
  keeps : ∀ earlier mid later subject id, requests = earlier ++ (mid ++ later) →
    Bound (signInAll s db earlier) subject id →
    Bound (signInAll s db (earlier ++ mid)) subject id
  /-- A sign-in of a bound subject resolves to its account. -/
  resolves : ∀ earlier q later id, requests = earlier ++ q :: later →
    Bound (signInAll s db earlier) q.subject id → Resolves s (signInAll s db earlier) q id
  /-- A sign-in never resolves to an account that is bound to another subject. -/
  own : ∀ earlier q later id subject, requests = earlier ++ q :: later →
    Resolves s (signInAll s db earlier) q id → Bound (signInAll s db earlier) subject id →
    subject = q.subject
  /-- Nor to an account that another subject has signed in to. -/
  distinct : ∀ earlier q mid q' later id, requests = earlier ++ q :: (mid ++ q' :: later) →
    SignsInTo s (signInAll s db earlier) q id →
    Resolves s (signInAll s db (earlier ++ q :: mid)) q' id → q.subject = q'.subject

structure UniqueAccounts (db : Identity) : Prop where
  ids : (db.users.map (·.id)).Nodup
  emails : ∀ user ∈ db.users, ∀ row ∈ db.users, s.citext row.email = s.citext user.email →
    row = user
  subjects : ∀ user ∈ db.users, ∀ row ∈ db.users, user.externalSubject ≠ none →
    row.authProvider = user.authProvider → row.externalSubject = user.externalSubject → row = user

/-- The address of the sign-in leads to no other binding: the one that a bound subject brings is no
other account's, and the one that an unbound subject brings is no bound account's. -/
structure Settled (db : Identity) (q : OidcLogin) : Prop where
  found : ∀ user ∈ db.users, user.deletedAt = none → BoundTo q.subject user →
    user.fullName ≠ q.fullName ∨ s.lower user.email ≠ q.email →
    ∀ row ∈ db.users, s.citext row.email = s.citext q.email → row.id = user.id
  linked : (∀ row ∈ db.users, ¬ BoundTo q.subject row) →
    ∀ user ∈ db.users, user.deletedAt = none → s.citext user.email = s.citext q.email →
      ∀ subject, ¬ BoundTo subject user

end Statement

variable {s : Security} {db db' : Identity} {q : OidcLogin}

/-! ## Flushed changes -/

structure KeepsRow (change : User → User) : Prop where
  id : ∀ user, (change user).id = user.id
  deletedAt : ∀ user, (change user).deletedAt = user.deletedAt

theorem mem_updateUser (hdb : UniqueAccounts s db) {user : User} (huser : user ∈ db.users)
    {change : User → User} {row : User} :
    row ∈ (db.updateUser user.id change).users ↔
      row = change user ∨ (row ∈ db.users ∧ row.id ≠ user.id) := by
  unfold Identity.updateUser
  simp only [List.mem_map]
  constructor
  · rintro ⟨old, hold, rfl⟩
    by_cases hid : old.id = user.id
    · rw [if_pos hid, Keyed.inj hdb.ids hold huser hid]
      exact .inl rfl
    · rw [if_neg hid]
      exact .inr ⟨hold, hid⟩
  · rintro (rfl | ⟨hrow, hne⟩)
    · exact ⟨user, huser, if_pos rfl⟩
    · exact ⟨row, hrow, if_neg hne⟩

theorem not_isTaken {user : User} : isTaken s db user = false ↔ ∀ row ∈ db.users,
    row.id ≠ user.id → s.citext row.email ≠ s.citext user.email ∧
      (user.externalSubject ≠ none → row.authProvider = user.authProvider →
        row.externalSubject ≠ user.externalSubject) := by
  unfold isTaken
  rw [List.any_eq_false]
  refine forall₂_congr fun row _ => ?_
  simp only [decide_eq_true_eq, not_and, not_or, ne_eq]

theorem unique_update (hdb : UniqueAccounts s db) {user : User} (huser : user ∈ db.users)
    {change : User → User} (hkeep : KeepsRow change) (hfree : isTaken s db (change user) = false) :
    UniqueAccounts s (db.updateUser user.id change) := by
  rw [not_isTaken] at hfree
  have hfree : ∀ row ∈ db.users, row.id ≠ user.id →
      s.citext row.email ≠ s.citext (change user).email ∧
        ((change user).externalSubject ≠ none → row.authProvider = (change user).authProvider →
          row.externalSubject ≠ (change user).externalSubject) := by
    intro row hrow hne
    exact hfree row hrow (by rwa [hkeep.id])
  refine ⟨?_, ?_, ?_⟩
  · refine Keyed.update hdb.ids fun row => ?_
    split
    · exact hkeep.id row
    · rfl
  · intro one hone two htwo hemail
    rcases (mem_updateUser hdb huser).1 hone with rfl | ⟨hone, hne⟩
    · rcases (mem_updateUser hdb huser).1 htwo with rfl | ⟨htwo, hne⟩
      · rfl
      · exact absurd hemail (hfree two htwo hne).1
    · rcases (mem_updateUser hdb huser).1 htwo with rfl | ⟨htwo, -⟩
      · exact absurd hemail.symm (hfree one hone hne).1
      · exact hdb.emails one hone two htwo hemail
  · intro one hone two htwo hsome hprovider hsubject
    rcases (mem_updateUser hdb huser).1 hone with rfl | ⟨hone, hne⟩
    · rcases (mem_updateUser hdb huser).1 htwo with rfl | ⟨htwo, hne⟩
      · rfl
      · exact absurd hsubject ((hfree two htwo hne).2 hsome hprovider)
    · rcases (mem_updateUser hdb huser).1 htwo with rfl | ⟨htwo, -⟩
      · exact absurd hsubject.symm
          ((hfree one hone hne).2 (hsubject ▸ hsome) hprovider.symm)
      · exact hdb.subjects one hone two htwo hsome hprovider hsubject

theorem isTaken_of_same (hdb : UniqueAccounts s db) {user row : User} (huser : user ∈ db.users)
    (hid : row.id = user.id) (hemail : row.email = user.email)
    (hprovider : row.authProvider = user.authProvider)
    (hsubject : row.externalSubject = user.externalSubject) : isTaken s db row = false := by
  rw [not_isTaken, hid, hemail, hprovider, hsubject]
  intro other hother hne
  refine ⟨fun h => hne ?_, fun hsome hp hs => hne ?_⟩
  · rw [hdb.emails user huser other hother h]
  · rw [hdb.subjects user huser other hother hsome hp hs]

/-! ## What a resolution does -/

/-- The account of a sign-in and the changes that are flushed for it. -/
inductive Resolution (s : Security) (db : Identity) (q : OidcLogin) : User → Identity → Prop where
  | found {user : User} (change : User → User) (huser : user ∈ db.users)
      (hlive : user.deletedAt = none) (hbound : BoundTo q.subject user) (hkeep : KeepsRow change)
      (hstays : BoundTo q.subject (change user)) (hfree : isTaken s db (change user) = false) :
      Resolution s db q (change user) (db.updateUser user.id change)
  | linked {user : User} (huser : user ∈ db.users) (hlive : user.deletedAt = none)
      (hemail : s.citext user.email = s.citext q.email)
      (hnone : ∀ row ∈ db.users, ¬ BoundTo q.subject row)
      (hfree : isTaken s db (Auth.linked q user) = false) :
      Resolution s db q (Auth.linked q user) (db.updateUser user.id (Auth.linked q))
  | provisioned (hnew : ∀ row ∈ db.users, row.id ≠ q.userId)
      (hfree : isTaken s db (Auth.provisioned q) = false) :
      Resolution s db q (Auth.provisioned q) { db with users := db.users ++ [Auth.provisioned q] }

theorem updateUser_id (id : Uuid) : db.updateUser id (fun user => user) = db := by
  unfold Identity.updateUser
  simp

theorem getByExternalSubject_some {user : User} {subject : String}
    (h : db.getByExternalSubject .microsoft subject = some user) :
    user ∈ db.users ∧ user.deletedAt = none ∧ BoundTo subject user := by
  have hp := List.find?_some h
  simp only [decide_eq_true_eq] at hp
  exact ⟨List.mem_of_find?_eq_some h, hp.1, hp.2⟩

theorem getByExternalSubject_none {subject : String}
    (h : db.getByExternalSubject .microsoft subject = none) {user : User} (huser : user ∈ db.users)
    (hlive : user.deletedAt = none) : ¬ BoundTo subject user := by
  intro hbound
  have hp := List.find?_eq_none.1 h user huser
  simp only [decide_eq_true_eq] at hp
  exact hp ⟨hlive, hbound⟩

theorem flushed_ok {user row : User} {change : User → User}
    (h : flushed s user change db = (.ok row, db')) :
    isTaken s db (change user) = false ∧ row = change user ∧
      db' = db.updateUser user.id change := by
  unfold flushed flushUser at h
  by_cases htaken : isTaken s db (change user) = true
  · rw [if_pos htaken] at h
    cases h
  · rw [if_neg htaken] at h
    obtain ⟨hrow, rfl⟩ := Prod.mk.inj h
    exact ⟨by simpa using htaken, (Except.ok.inj hrow).symm, rfl⟩

theorem linked_free {user : User} (hlive : user.deletedAt = none)
    (hfree : isTaken s db (Auth.linked q user) = false)
    (hnone : ∀ row ∈ db.users, row.deletedAt = none → ¬ BoundTo q.subject row)
    (hdb : UniqueAccounts s db) (huser : user ∈ db.users) :
    ∀ row ∈ db.users, ¬ BoundTo q.subject row := by
  intro row hrow hbound
  by_cases hid : row.id = user.id
  · rw [Keyed.inj hdb.ids hrow huser hid] at hbound
    exact hnone user huser hlive hbound
  · refine ((not_isTaken.1 hfree) row hrow hid).2 ?_ hbound.1 hbound.2
    simp [Auth.linked]

theorem resolve_ok (hdb : UniqueAccounts s db) {user : User}
    (h : resolveSsoUser s q db = (.ok user, db')) : Resolution s db q user db' := by
  unfold resolveSsoUser at h
  split at h
  next stored hstored =>
    obtain ⟨hmem, hlive, hbound⟩ := getByExternalSubject_some hstored
    split at h
    · obtain ⟨hfree, rfl, rfl⟩ := flushed_ok h
      exact .found (renamed q) hmem hlive hbound ⟨fun _ => rfl, fun _ => rfl⟩ hbound hfree
    · obtain ⟨hrow, rfl⟩ := Prod.mk.inj h
      obtain rfl := Except.ok.inj hrow
      have hkept := Resolution.found (s := s) (q := q) (fun user => user) hmem hlive hbound
        ⟨fun _ => rfl, fun _ => rfl⟩ hbound (isTaken_of_same hdb hmem rfl rfl rfl rfl)
      rwa [updateUser_id] at hkept
  next hnone =>
    split at h
    next existing hexisting =>
      obtain ⟨hfree, rfl, rfl⟩ := flushed_ok h
      have hp := List.find?_some hexisting
      simp only [decide_eq_true_eq] at hp
      have hmem := List.mem_of_find?_eq_some hexisting
      exact .linked hmem hp.1 hp.2 (linked_free hp.1 hfree
        (fun _ => getByExternalSubject_none hnone) hdb hmem) hfree
    · split at h
      · cases h
      · unfold createUser at h
        by_cases hclash : (db.users.any (·.id = (Auth.provisioned q).id) ||
            isTaken s db (Auth.provisioned q)) = true
        · rw [if_pos hclash] at h
          cases h
        · rw [if_neg hclash] at h
          obtain ⟨hrow, rfl⟩ := Prod.mk.inj h
          obtain rfl := Except.ok.inj hrow
          simp only [Bool.or_eq_true, not_or, List.any_eq_true, not_exists, not_and,
            decide_eq_true_eq, Bool.not_eq_true] at hclash
          exact .provisioned hclash.1 hclash.2

theorem Resolution.mem {user : User} (hdb : UniqueAccounts s db)
    (h : Resolution s db q user db') :
    user ∈ db'.users ∧ user.deletedAt = none ∧ BoundTo q.subject user := by
  cases h with
  | found change huser hlive _ hkeep hstays =>
    exact ⟨(mem_updateUser hdb huser).2 (.inl rfl), (hkeep.deletedAt _).trans hlive, hstays⟩
  | linked huser hlive => exact ⟨(mem_updateUser hdb huser).2 (.inl rfl), hlive, rfl, rfl⟩
  | provisioned => exact ⟨by simp, rfl, rfl, rfl⟩

theorem Resolution.unique {user : User} (hdb : UniqueAccounts s db)
    (h : Resolution s db q user db') : UniqueAccounts s db' := by
  cases h with
  | found change huser _ _ hkeep _ hfree => exact unique_update hdb huser hkeep hfree
  | linked huser _ _ _ hfree => exact unique_update hdb huser ⟨fun _ => rfl, fun _ => rfl⟩ hfree
  | provisioned hnew hfree =>
    rw [not_isTaken] at hfree
    refine ⟨Keyed.concat hdb.ids fun hmem => ?_, ?_, ?_⟩
    · obtain ⟨row, hrow, hid⟩ := List.mem_map.1 hmem
      exact hnew row hrow hid
    · intro one hone two htwo hemail
      rcases List.mem_append.1 hone with hone | hone <;> rcases List.mem_append.1 htwo with htwo | htwo
      · exact hdb.emails one hone two htwo hemail
      · rw [List.mem_singleton.1 htwo] at hemail
        exact absurd hemail.symm (hfree one hone (hnew one hone)).1
      · rw [List.mem_singleton.1 hone] at hemail
        exact absurd hemail (hfree two htwo (hnew two htwo)).1
      · rw [List.mem_singleton.1 hone, List.mem_singleton.1 htwo]
    · intro one hone two htwo hsome hprovider hsubject
      rcases List.mem_append.1 hone with hone | hone <;> rcases List.mem_append.1 htwo with htwo | htwo
      · exact hdb.subjects one hone two htwo hsome hprovider hsubject
      · rw [List.mem_singleton.1 htwo] at hprovider hsubject
        exact absurd hsubject.symm
          ((hfree one hone (hnew one hone)).2 (hsubject ▸ hsome) hprovider.symm)
      · rw [List.mem_singleton.1 hone] at hsome hprovider hsubject
        exact absurd hsubject ((hfree two htwo (hnew two htwo)).2 hsome hprovider)
      · rw [List.mem_singleton.1 hone, List.mem_singleton.1 htwo]

theorem Resolution.bound {user : User} (hdb : UniqueAccounts s db) (hsettled : Settled s db q)
    (h : Resolution s db q user db') {subject : String} {id : Uuid} (hbound : Bound db subject id) :
    Bound db' subject id := by
  obtain ⟨row, hrow, rfl, hlive, hsubject⟩ := hbound
  cases h with
  | @found account change haccount _ hown hkeep hstays =>
    by_cases hid : row.id = account.id
    · obtain rfl := Keyed.inj hdb.ids hrow haccount hid
      have hsame : subject = q.subject := by
        have := hsubject.2.symm.trans hown.2
        exact Option.some.inj this
      refine ⟨_, (mem_updateUser hdb haccount).2 (.inl rfl), hkeep.id _,
        (hkeep.deletedAt _).trans hlive, ?_⟩
      rwa [hsame]
    · exact ⟨row, (mem_updateUser hdb haccount).2 (.inr ⟨hrow, hid⟩), rfl, hlive, hsubject⟩
  | @linked account haccount hliveAccount hemail hnone =>
    by_cases hid : row.id = account.id
    · obtain rfl := Keyed.inj hdb.ids hrow haccount hid
      exact absurd hsubject (hsettled.linked hnone row hrow hlive hemail subject)
    · exact ⟨row, (mem_updateUser hdb haccount).2 (.inr ⟨hrow, hid⟩), rfl, hlive, hsubject⟩
  | provisioned => exact ⟨row, List.mem_append_left _ hrow, rfl, hlive, hsubject⟩

theorem Resolution.own {user : User} (hdb : UniqueAccounts s db) (hsettled : Settled s db q)
    (h : Resolution s db q user db') {subject : String} (hbound : Bound db subject user.id) :
    subject = q.subject := by
  obtain ⟨row, hrow, hid, hlive, hsubject⟩ := hbound
  cases h with
  | @found account change haccount _ hown hkeep =>
    rw [hkeep.id] at hid
    rw [Keyed.inj hdb.ids hrow haccount hid] at hsubject
    exact Option.some.inj (hsubject.2.symm.trans hown.2)
  | @linked account haccount _ hemail hnone =>
    obtain rfl := Keyed.inj hdb.ids hrow haccount hid
    exact absurd hsubject (hsettled.linked hnone row hrow hlive hemail subject)
  | provisioned hnew => exact absurd hid (hnew row hrow)

/-! ## Admission -/

theorem issue_users {token : RefreshToken} (h : db.issue token = .ok db') :
    db'.users = db.users := by
  unfold Identity.issue at h
  split at h
  · cases h
  · obtain rfl := Except.ok.inj h
    rfl

theorem admitSsoUser_ok {user : User} {response : TokenResponse}
    (h : admitSsoUser s q user db = (.ok response, db')) :
    response.user.id = user.id ∧
      db'.users = (db.updateUser user.id (·.recordSuccessfulLogin q.info.now)).users := by
  unfold admitSsoUser at h
  split at h
  · cases h
  · unfold issueSession at h
    simp only at h
    split at h
    · cases h
    next hissue =>
      obtain ⟨hresponse, rfl⟩ := Prod.mk.inj h
      obtain rfl := Except.ok.inj hresponse
      exact ⟨rfl, issue_users hissue⟩

theorem completeOidcLogin_ok {response : TokenResponse}
    (h : (completeOidcLogin s q db).1 = .ok response) :
    ∃ user session, resolveSsoUser s q db = (.ok user, session) ∧ response.user.id = user.id ∧
      (completeOidcLogin s q db).2.users =
        (session.updateUser user.id (·.recordSuccessfulLogin q.info.now)).users := by
  unfold completeOidcLogin at h ⊢
  split at h
  · cases h
  next hgiven =>
    rw [if_neg hgiven]
    split at h
    · cases h
    · unfold Handler.andThen at h ⊢
      split at h
      next user session hresolve =>
        have hadmit : admitSsoUser s q user session =
            (.ok response, (admitSsoUser s q user session).2) := Prod.ext h rfl
        obtain ⟨hid, husers⟩ := admitSsoUser_ok hadmit
        exact ⟨user, session, hresolve, hid, husers⟩
      · cases h

/-- The constraints and the bindings are about users alone. -/
theorem UniqueAccounts.congr (h : db'.users = db.users) (hdb : UniqueAccounts s db) :
    UniqueAccounts s db' where
  ids := by
    rw [h]
    exact hdb.ids
  emails := by
    rw [h]
    exact hdb.emails
  subjects := by
    rw [h]
    exact hdb.subjects

theorem Bound.congr (h : db'.users = db.users) {subject : String} {id : Uuid}
    (hbound : Bound db subject id) : Bound db' subject id := by
  unfold Bound
  rwa [h]

theorem stamp_unique (hdb : UniqueAccounts s db) {user : User} (huser : user ∈ db.users)
    (now : Timestamp) : UniqueAccounts s (db.updateUser user.id (·.recordSuccessfulLogin now)) :=
  unique_update hdb huser ⟨fun _ => rfl, fun _ => rfl⟩
    (isTaken_of_same hdb huser rfl rfl rfl rfl)

theorem stamp_bound {id : Uuid} {subject : String} {now : Timestamp} (key : Uuid)
    (h : Bound db subject id) : Bound (db.updateUser key (·.recordSuccessfulLogin now)) subject id := by
  obtain ⟨row, hrow, hid, hlive, hbound⟩ := h
  refine ⟨_, List.mem_map.2 ⟨row, hrow, rfl⟩, ?_⟩
  split
  · exact ⟨hid, hlive, hbound⟩
  · exact ⟨hid, hlive, hbound⟩

/-! ## One sign-in -/

theorem signIn_cases (s : Security) (db : Identity) (q : OidcLogin) :
    (signIn s db q = db ∧ ∀ id, ¬ SignsInTo s db q id) ∨
    ∃ user session, resolveSsoUser s q db = (.ok user, session) ∧
      (∀ id, SignsInTo s db q id → id = user.id) ∧ (signIn s db q).users =
        (session.updateUser user.id (·.recordSuccessfulLogin q.info.now)).users := by
  unfold signIn
  rcases Handler.getDb_cases (completeOidcLogin s q) db with ⟨response, hget, hok⟩ | ⟨e, hget, herror⟩
  · obtain ⟨user, session, hresolve, hid, husers⟩ := completeOidcLogin_ok hok
    refine .inr ⟨user, session, hresolve, fun id hsigns => ?_, by rw [hget]; exact husers⟩
    obtain ⟨other, hother, rfl⟩ := hsigns
    rw [hok] at hother
    rw [← Except.ok.inj hother, hid]
  · refine .inl ⟨by rw [hget], fun id hsigns => ?_⟩
    obtain ⟨response, hok, -⟩ := hsigns
    rw [herror] at hok
    cases hok

theorem signIn_unique (hdb : UniqueAccounts s db) (q : OidcLogin) :
    UniqueAccounts s (signIn s db q) := by
  rcases signIn_cases s db q with ⟨hsame, -⟩ | ⟨user, session, hresolve, -, husers⟩
  · rwa [hsame]
  · have hres := resolve_ok hdb hresolve
    exact (stamp_unique (hres.unique hdb) (hres.mem hdb).1 _).congr husers

theorem signIn_bound (hdb : UniqueAccounts s db) (hsettled : Settled s db q) {subject : String}
    {id : Uuid} (h : Bound db subject id) : Bound (signIn s db q) subject id := by
  rcases signIn_cases s db q with ⟨hsame, -⟩ | ⟨user, session, hresolve, -, husers⟩
  · rwa [hsame]
  · exact (stamp_bound user.id ((resolve_ok hdb hresolve).bound hdb hsettled h)).congr husers

theorem signIn_binds (hdb : UniqueAccounts s db) {id : Uuid} (h : SignsInTo s db q id) :
    Bound (signIn s db q) q.subject id := by
  rcases signIn_cases s db q with ⟨-, hnone⟩ | ⟨user, session, hresolve, hid, husers⟩
  · exact absurd h (hnone id)
  · obtain rfl := hid id h
    obtain ⟨hmem, hlive, hbound⟩ := (resolve_ok hdb hresolve).mem hdb
    have hstored : Bound session q.subject user.id := ⟨user, hmem, rfl, hlive, hbound⟩
    exact (stamp_bound user.id hstored).congr husers

theorem getByExternalSubject_eq (hdb : UniqueAccounts s db) {user : User} (huser : user ∈ db.users)
    (hlive : user.deletedAt = none) {subject : String} (hbound : BoundTo subject user) :
    db.getByExternalSubject .microsoft subject = some user := by
  cases hfind : db.getByExternalSubject .microsoft subject with
  | none => exact absurd hbound (getByExternalSubject_none hfind huser hlive)
  | some row =>
    obtain ⟨hrow, -, hrowBound⟩ := getByExternalSubject_some hfind
    rw [hdb.subjects user huser row hrow (by simp [hbound.2]) (hrowBound.1.trans hbound.1.symm)
      (hrowBound.2.trans hbound.2.symm)]

theorem resolves_of_bound (hdb : UniqueAccounts s db) (hsettled : Settled s db q) {id : Uuid}
    (h : Bound db q.subject id) : Resolves s db q id := by
  obtain ⟨user, huser, rfl, hlive, hbound⟩ := h
  unfold Resolves resolveSsoUser
  simp only [getByExternalSubject_eq hdb huser hlive hbound]
  split
  next hchanged =>
    have hfree : isTaken s db (renamed q user) = false := by
      rw [not_isTaken]
      intro row hrow hne
      refine ⟨fun hemail => hne (hsettled.found user huser hlive hbound hchanged row hrow hemail), ?_⟩
      intro hsome hprovider hsubject
      have hsame : row = user := hdb.subjects user huser row hrow hsome hprovider hsubject
      exact hne (by rw [hsame]; rfl)
    unfold flushed flushUser
    rw [hfree]
    exact ⟨renamed q user, _, rfl, rfl⟩
  · exact ⟨user, db, rfl, rfl⟩

theorem found_of_resolves (hdb : UniqueAccounts s db) {user : User} (huser : user ∈ db.users)
    (hlive : user.deletedAt = none) (hbound : BoundTo q.subject user)
    (hchanged : user.fullName ≠ q.fullName ∨ s.lower user.email ≠ q.email)
    (h : Resolves s db q user.id) {row : User} (hrow : row ∈ db.users)
    (hemail : s.citext row.email = s.citext q.email) : row.id = user.id := by
  obtain ⟨account, session, hresolve, -⟩ := h
  unfold resolveSsoUser at hresolve
  rw [getByExternalSubject_eq hdb huser hlive hbound] at hresolve
  simp only [if_pos hchanged] at hresolve
  obtain ⟨hfree, -, -⟩ := flushed_ok hresolve
  by_contra hne
  exact (not_isTaken.1 hfree row hrow hne).1 hemail

theorem resolves_by_email (hdb : UniqueAccounts s db)
    (hnone : ∀ row ∈ db.users, ¬ BoundTo q.subject row) {user : User} (huser : user ∈ db.users)
    (hlive : user.deletedAt = none) (hemail : s.citext user.email = s.citext q.email) :
    Resolves s db q user.id := by
  have hsubject : db.getByExternalSubject .microsoft q.subject = none := by
    cases hfind : db.getByExternalSubject .microsoft q.subject with
    | none => rfl
    | some row =>
      obtain ⟨hrow, -, hbound⟩ := getByExternalSubject_some hfind
      exact absurd hbound (hnone row hrow)
  have haddress : db.getByEmail s.citext q.email = some user := by
    cases hfind : db.getByEmail s.citext q.email with
    | none =>
      have hp := List.find?_eq_none.1 hfind user huser
      simp [hlive, hemail] at hp
    | some row =>
      have hp := List.find?_some hfind
      simp only [decide_eq_true_eq] at hp
      rw [hdb.emails user huser row (List.mem_of_find?_eq_some hfind) (hp.2.trans hemail.symm)]
  have hfree : isTaken s db (linked q user) = false := by
    rw [not_isTaken]
    intro row hrow hne
    refine ⟨fun h => ?_, fun _ hprovider hsubject => hnone row hrow ⟨hprovider, hsubject⟩⟩
    have hsame : row = user := hdb.emails user huser row hrow h
    exact hne (by rw [hsame]; rfl)
  unfold Resolves resolveSsoUser
  simp only [hsubject, haddress]
  unfold flushed flushUser
  rw [hfree]
  exact ⟨linked q user, _, rfl, rfl⟩

/-! ## Runs -/

theorem signInAll_append (earlier later : List OidcLogin) :
    signInAll s db (earlier ++ later) = signInAll s (signInAll s db earlier) later := by
  unfold signInAll
  rw [List.foldl_append]

theorem signInAll_unique (hdb : UniqueAccounts s db) (requests : List OidcLogin) :
    UniqueAccounts s (signInAll s db requests) := by
  unfold signInAll
  induction requests generalizing db with
  | nil => exact hdb
  | cons q requests ih => exact ih (signIn_unique hdb q)

theorem signInAll_bound (hdb : UniqueAccounts s db) (mid : List OidcLogin)
    (hsettled : ∀ earlier q later, mid = earlier ++ q :: later →
      Settled s (signInAll s db earlier) q) {subject : String} {id : Uuid}
    (h : Bound db subject id) : Bound (signInAll s db mid) subject id := by
  induction mid generalizing db with
  | nil => exact h
  | cons q mid ih =>
    refine ih (signIn_unique hdb q) (fun earlier p later hsplit => ?_)
      (signIn_bound hdb (hsettled [] q mid rfl) h)
    exact hsettled (q :: earlier) p later (by rw [hsplit, List.cons_append])

namespace Sample

/-- The account of Ann, who has signed in before. -/
def ann : User where
  id := 1#128
  email := "team@x"
  fullName := "Ann"
  authProvider := .microsoft
  externalSubject := some "ann"

/-- Bob, to whom the address has been reassigned. -/
def bob : OidcLogin where
  subject := "bob"
  email := "team@x"
  fullName := "Bob"
  info := { now := 5, secret := "t", tokenId := 9#128 }
  userId := 2#128

def tenant : Security where
  citext := id
  lower := id
  verify _ _ := false
  needsRehash _ := false
  hashPassword := id
  hashToken := id
  refreshTokenExpireDays := 7

theorem ann_unique : UniqueAccounts tenant { users := [ann] } where
  ids := by decide
  emails := by
    intro user huser row hrow _
    rw [List.mem_singleton.1 huser, List.mem_singleton.1 hrow]
  subjects := by
    intro user huser row hrow _ _ _
    rw [List.mem_singleton.1 huser, List.mem_singleton.1 hrow]

end Sample

open Sample

end Auth

end Clear
