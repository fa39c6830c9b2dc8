import Clear.Core.Deps
import Clear.Services.Auth
import Clear.Services.Project

/-!
# One rule for permissions, coded four times

A member holds what the role lists and the overrides leave, in a live project. The session payload,
the member list and the project context agree on it (`same_reports`). The check across projects is a
query for a membership whose role lists the permission, whatever its overrides and its project, and
also for an administrator (`permissions_agree_iff`).
-/

namespace Clear

namespace Deps

variable (db : Identity) (user : User) (p : String)

/-! ## The four answers -/

def Admits : Prop := requirePermissionGlobal db user p = .ok user

def HoldsInSomeContext : Prop :=
  ∃ projectId ctx, getProjectContext db projectId user = .ok ctx ∧ ctx.has p = true

def InContext (projectId : Uuid) (permissions : List String) : Prop :=
  ∃ ctx, getProjectContext db projectId user = .ok ctx ∧ ctx.permissions = permissions

def InSession (projectId : Uuid) (permissions : List String) : Prop :=
  ∃ info ∈ (Auth.buildCurrentUser db user).memberships,
    info.projectId = projectId ∧ info.permissions = permissions

def InMemberList (projectId : Uuid) (permissions : List String) : Prop :=
  (∃ project, db.getProject projectId = some project) ∧
    ∃ member role, db.getMembership projectId user.id = some member ∧
      db.roleOf member = some role ∧
      (ProjectService.memberResponse role member).permissions = permissions

structure PermissionsAgree : Prop where
  administrator : user.isSystemAdmin = true → (Admits db user p ↔ p ∉ adminExcludedPermissions)
  others : user.isSystemAdmin = false → (Admits db user p ↔ HoldsInSomeContext db user p)
  session : user.isSystemAdmin = false → ∀ projectId permissions,
    InSession db user projectId permissions ↔ InContext db user projectId permissions
  memberList : user.isSystemAdmin = false → ∀ projectId permissions,
    InMemberList db user projectId permissions ↔ InContext db user projectId permissions

/-! ## What the roles list -/

def Listed : Prop :=
  ∃ member ∈ db.members, member.userId = user.id ∧
    ∃ role, db.roleOf member = some role ∧ p ∈ role.permissions

/-- A membership of the user in a live project has a role that lists the permission, and overrides
that leave it. -/
def Effective : Prop :=
  ∃ member ∈ db.members, member.userId = user.id ∧
    (∃ project, db.getProject member.projectId = some project) ∧
    (∃ role, db.roleOf member = some role ∧ p ∈ role.permissions) ∧
    (member.permissionOverrides = [] ∨ p ∈ member.permissionOverrides)

/-- What the roles of an administrator list is inherited anyway; what those of anyone else list is
in effect somewhere. -/
def NothingLeftOver : Prop :=
  if user.isSystemAdmin then Listed db user p → p ∉ adminExcludedPermissions
  else Listed db user p → Effective db user p

variable {db user p}

theorem holdsSomewhere_iff (h : db.Valid) :
    holdsSomewhere db user p = true ↔ Listed db user p := by
  unfold holdsSomewhere Listed
  simp only [List.any_eq_true, Bool.and_eq_true, decide_eq_true_eq, List.contains_iff_mem,
    h.roleOf_iff]
  refine exists_congr fun member => and_congr_right fun _ => and_congr_right fun _ => ?_
  refine exists_congr fun role => ?_
  rw [and_assoc, @eq_comm _ role.id]

theorem admits_iff (h : db.Valid) :
    Admits db user p ↔
      (user.isSystemAdmin = true ∧ p ∉ adminExcludedPermissions) ∨ Listed db user p := by
  unfold Admits requirePermissionGlobal
  rw [← holdsSomewhere_iff h]
  by_cases hadmin : (user.isSystemAdmin && !adminExcludedPermissions.contains p) = true
  · rw [if_pos hadmin]
    refine iff_of_true rfl (.inl ?_)
    simpa using hadmin
  · rw [if_neg hadmin]
    have hnot : ¬ (user.isSystemAdmin = true ∧ p ∉ adminExcludedPermissions) := by
      simpa using hadmin
    split
    · simp_all
    · simp_all

/-! ## Contexts -/

theorem mem_membershipPermissions {role : Role} {member : ProjectMember} :
    p ∈ membershipPermissions (some role) member ↔ p ∈ role.permissions ∧
      (member.permissionOverrides = [] ∨ p ∈ member.permissionOverrides) := by
  unfold membershipPermissions
  simp only [Option.map_some, Option.getD_some, List.isEmpty_iff]
  split
  next hnil => simp [hnil]
  next hne => simp [hne]

theorem getProjectContext_member (h : db.Valid) (huser : user.isSystemAdmin = false)
    {projectId : Uuid} {ctx : ProjectContext} :
    getProjectContext db projectId user = .ok ctx ↔
      ∃ project member role, db.getProject projectId = some project ∧
        db.getMembership projectId user.id = some member ∧ db.roleOf member = some role ∧
        ctx = { user, project, membership := some member
                permissions := membershipPermissions (some role) member
                role := some role.name } := by
  unfold getProjectContext
  cases hproject : db.getProject projectId with
  | none => simp
  | some project =>
    cases hmember : db.getMembership projectId user.id with
    | none => simp [huser]
    | some member =>
      obtain ⟨role, hrole⟩ := h.exists_roleOf (h.getMembership_iff.1 hmember).1
      simp [huser, hrole, eq_comm]

theorem inContext_iff (h : db.Valid) (huser : user.isSystemAdmin = false) {projectId : Uuid}
    {permissions : List String} :
    InContext db user projectId permissions ↔
      (∃ project, db.getProject projectId = some project) ∧
        ∃ member role, db.getMembership projectId user.id = some member ∧
          db.roleOf member = some role ∧
          membershipPermissions (some role) member = permissions := by
  unfold InContext
  simp only [getProjectContext_member h huser]
  constructor
  · rintro ⟨ctx, ⟨project, member, role, hproject, hmember, hrole, rfl⟩, rfl⟩
    exact ⟨⟨project, hproject⟩, member, role, hmember, hrole, rfl⟩
  · rintro ⟨⟨project, hproject⟩, member, role, hmember, hrole, rfl⟩
    exact ⟨_, ⟨project, member, role, hproject, hmember, hrole, rfl⟩, rfl⟩

theorem holdsInSomeContext_iff (h : db.Valid) (huser : user.isSystemAdmin = false) :
    HoldsInSomeContext db user p ↔ Effective db user p := by
  unfold HoldsInSomeContext Effective
  simp only [getProjectContext_member h huser]
  constructor
  · rintro ⟨projectId, ctx, ⟨project, member, role, hproject, hmember, hrole, rfl⟩, hhas⟩
    obtain ⟨hmem, rfl, hid⟩ := h.getMembership_iff.1 hmember
    have hp : p ∈ membershipPermissions (some role) member := by
      simpa [ProjectContext.has, huser] using hhas
    obtain ⟨hlists, hleaves⟩ := mem_membershipPermissions.1 hp
    exact ⟨member, hmem, hid, ⟨project, hproject⟩, ⟨role, hrole, hlists⟩, hleaves⟩
  · rintro ⟨member, hmem, hid, ⟨project, hproject⟩, ⟨role, hrole, hlists⟩, hleaves⟩
    refine ⟨member.projectId, _, ⟨project, member, role, hproject,
      h.getMembership_iff.2 ⟨hmem, rfl, hid⟩, hrole, rfl⟩, ?_⟩
    have hp := mem_membershipPermissions.2 ⟨hlists, hleaves⟩
    simpa [ProjectContext.has, huser] using hp

/-! ## Reports -/

theorem membershipInfo_iff (h : db.Valid) {member : ProjectMember} {info} :
    Auth.membershipInfo db member = some info ↔
      ∃ project role, db.getProject member.projectId = some project ∧
        db.roleOf member = some role ∧
        info = { projectId := project.id, projectName := project.name, projectSlug := project.slug
                 role := role.name, roleDisplayName := role.displayName
                 permissions := membershipPermissions (some role) member
                 isFavourite := member.isFavourite } := by
  unfold Auth.membershipInfo
  rw [Option.bind_eq_some_iff]
  constructor
  · rintro ⟨project, hproject, hinfo⟩
    obtain ⟨hmem, hid⟩ := h.projectOf_iff.1 hproject
    by_cases hlive : project.deletedAt = none
    · rw [if_neg (by simpa using hlive)] at hinfo
      obtain ⟨role, hrole, rfl⟩ := Option.map_eq_some_iff.1 hinfo
      exact ⟨project, role, h.getProject_iff.2 ⟨hmem, hlive, hid⟩, hrole, rfl⟩
    · rw [if_pos (by simpa using hlive)] at hinfo
      cases hinfo
  · rintro ⟨project, role, hproject, hrole, rfl⟩
    obtain ⟨hmem, hlive, hid⟩ := h.getProject_iff.1 hproject
    refine ⟨project, h.projectOf_iff.2 ⟨hmem, hid⟩, ?_⟩
    rw [if_neg (by simpa using hlive), hrole]
    rfl

/-- **The reports agree**: the session payload, the member list and the context of a project show
the same permissions. -/
theorem same_reports (h : db.Valid) (huser : user.isSystemAdmin = false) (projectId : Uuid)
    (permissions : List String) :
    (InSession db user projectId permissions ↔ InContext db user projectId permissions) ∧
      (InMemberList db user projectId permissions ↔
        InContext db user projectId permissions) := by
  rw [inContext_iff h huser]
  refine ⟨?_, Iff.rfl⟩
  unfold InSession
  simp only [Auth.buildCurrentUser, Identity.listForUser, List.mem_filterMap, List.mem_filter,
    decide_eq_true_eq, membershipInfo_iff h]
  constructor
  · rintro ⟨info, ⟨member, ⟨hmem, hid⟩, project, role, hproject, hrole, rfl⟩, rfl, rfl⟩
    have hproj := (h.getProject_iff.1 hproject).2.2
    refine ⟨⟨project, hproj ▸ hproject⟩, member, role, ?_, hrole, rfl⟩
    exact h.getMembership_iff.2 ⟨hmem, hproj.symm, hid⟩
  · rintro ⟨⟨project, hproject⟩, member, role, hmember, hrole, rfl⟩
    obtain ⟨hmem, rfl, hid⟩ := h.getMembership_iff.1 hmember
    exact ⟨_, ⟨member, ⟨hmem, hid⟩, project, role, hproject, hrole, rfl⟩,
      (h.getProject_iff.1 hproject).2.2, rfl⟩

/-! ## The check across projects -/

theorem Effective.listed (h : Effective db user p) : Listed db user p := by
  obtain ⟨member, hmem, hid, -, hrole, -⟩ := h
  exact ⟨member, hmem, hid, hrole⟩

/-- **Permission resolution agrees exactly where the roles leave nothing over**: an administrator's
own memberships list nothing that administrators are excluded from, and what anyone else's list is
in effect in some project. -/
theorem permissions_agree_iff (db : Identity) (h : db.Valid) (user : User) (p : String) :
    PermissionsAgree db user p ↔ NothingLeftOver db user p := by
  unfold NothingLeftOver
  cases huser : user.isSystemAdmin with
  | true =>
    rw [if_pos rfl]
    constructor
    · intro hagree hlisted
      exact (hagree.administrator huser).1 ((admits_iff h).2 (.inr hlisted))
    · intro hleft
      refine ⟨fun _ => ?_, fun hno => ?_, fun hno => ?_, fun hno => ?_⟩
      · rw [admits_iff h]
        refine ⟨fun hadmits => ?_, fun hp => .inl ⟨huser, hp⟩⟩
        rcases hadmits with ⟨-, hp⟩ | hlisted
        · exact hp
        · exact hleft hlisted
      all_goals exact absurd (huser.symm.trans hno) (by decide)
  | false =>
    rw [if_neg (by decide)]
    have hadmits : Admits db user p ↔ Listed db user p := by
      rw [admits_iff h, huser]
      simp
    constructor
    · intro hagree hlisted
      exact (holdsInSomeContext_iff h huser).1 ((hagree.others huser).1 (hadmits.2 hlisted))
    · intro hleft
      refine ⟨fun hno => absurd (huser.symm.trans hno) (by decide), fun _ => ?_,
        fun _ projectId permissions => (same_reports h huser projectId permissions).1,
        fun _ projectId permissions => (same_reports h huser projectId permissions).2⟩
      rw [hadmits, holdsInSomeContext_iff h huser]
      exact ⟨hleft, Effective.listed⟩

/-! ## A permission that was taken away -/

namespace Sample

def member : User := { id := 1#128, email := "m@x", fullName := "M" }

def narrowed : Identity where
  users := [member]
  roles := [{ id := 2#128, name := .projectManager
              permissions := ["audit:read", "contract:read"] }]
  projects := [{ id := 3#128, name := "P", slug := "p" }]
  members := [{ id := 4#128, projectId := 3#128, userId := 1#128, roleId := 2#128
                permissionOverrides := ["contract:read"] }]

theorem narrowed_valid : narrowed.Valid where
  users := by decide
  roles := by decide
  roleNames := by decide
  projects := by decide
  memberIds := by decide
  members := by decide
  memberRole := by decide
  memberProject := by decide

end Sample

open Sample

theorem permissions_agree_iff_sample :
    narrowed.Valid ∧ (PermissionsAgree narrowed member "audit:read" ↔
      NothingLeftOver narrowed member "audit:read") :=
  ⟨narrowed_valid, permissions_agree_iff narrowed narrowed_valid member "audit:read"⟩

/-- A permission that the overrides took away still opens every endpoint across projects. -/
theorem narrowed_permission_admits : ¬ PermissionsAgree narrowed member "audit:read" := by
  intro hagree
  have hadmits : Admits narrowed member "audit:read" := rfl
  obtain ⟨row, hmem, -, -, -, hleaves⟩ :=
    (holdsInSomeContext_iff narrowed_valid rfl).1 ((hagree.others rfl).1 hadmits)
  obtain rfl := List.mem_singleton.1 hmem
  revert hleaves
  decide

end Deps

end Clear
