import Clear.Services.Proof.Administration.Accounts

/-!
# Who manages a project

Adding members and creating projects only adds managers. An operation that takes a role takes it from
a manager only if the guard counts another one (`MemberStep`), which it does for the only manager
when another member has the role of an administrator (`uncovered_strips`).
-/

namespace Clear

namespace Administration

open ProjectService UserService

variable {db db' : Identity}

/-! ## New members -/

/-- Members are added, with nothing else. -/
structure Grows (db db' : Identity) : Prop where
  users : db'.users = db.users
  roles : db'.roles = db.roles
  projects : db'.projects = db.projects
  members : ∀ member ∈ db.members, member ∈ db'.members
  valid : db.Valid → db'.Valid

theorem Grows.refl (db : Identity) : Grows db db := ⟨rfl, rfl, rfl, fun _ => id, id⟩

theorem Grows.trans {db'' : Identity} (h : Grows db db') (h' : Grows db' db'') : Grows db db'' where
  users := h'.users.trans h.users
  roles := h'.roles.trans h.roles
  projects := h'.projects.trans h.projects
  members member hmem := h'.members member (h.members member hmem)
  valid hdb := h'.valid (h.valid hdb)

theorem Grows.hasMember (h : Grows db db') {role : RoleName} {projectId : Uuid}
    (hmember : HasMember db role projectId) : HasMember db' role projectId := by
  obtain ⟨member, hmem, hid, hrole⟩ := hmember
  exact ⟨member, h.members member hmem, hid, by rwa [hasRole_congr h.roles rfl]⟩

theorem Grows.administrable (h : Grows db db') (hdb : Administrable db) : Administrable db' where
  admin := by
    unfold HasAdmin
    rw [h.users]
    exact hdb.admin
  manager := by
    rw [h.projects]
    exact fun project hproject hlive => h.hasMember (hdb.manager project hproject hlive)

theorem grows_insert {member : ProjectMember} (hadd : db.addMember member = .ok db')
    (hrole : ∃ role ∈ db.roles, role.id = member.roleId)
    (hproject : ∃ project ∈ db.projects, project.id = member.projectId) : Grows db db' := by
  unfold Identity.addMember at hadd
  split at hadd
  · cases hadd
  next hfresh =>
    obtain rfl := Except.ok.inj hadd
    refine ⟨rfl, rfl, rfl, fun row hmem => List.mem_append_left _ hmem, fun hdb => ?_⟩
    have hnone : ∀ row ∈ db.members, row.id ≠ member.id ∧
        ¬(row.projectId = member.projectId ∧ row.userId = member.userId) := by
      simpa using hfresh
    refine { hdb with
      memberIds := Keyed.concat hdb.memberIds ?_
      members := Keyed.concat hdb.members ?_
      memberRole := ?_
      memberProject := ?_ }
    · intro hmem
      obtain ⟨row, hrow, hid⟩ := List.mem_map.1 hmem
      exact (hnone row hrow).1 hid
    · intro hmem
      obtain ⟨row, hrow, hkey⟩ := List.mem_map.1 hmem
      exact (hnone row hrow).2 (Prod.mk.inj hkey)
    · intro row hmem
      rcases List.mem_append.1 hmem with hmem | hmem
      · exact hdb.memberRole row hmem
      · rwa [List.mem_singleton.1 hmem]
    · intro row hmem
      rcases List.mem_append.1 hmem with hmem | hmem
      · exact hdb.memberProject row hmem
      · rwa [List.mem_singleton.1 hmem]

theorem mem_of_roleByName {name : RoleName} {role : Role} (h : db.roleByName name = some role) :
    role ∈ db.roles := List.mem_of_find?_eq_some h

theorem grows_addMemberInternal {project : Project} {spec : ProjectMemberCreate} {actor : User}
    (hproject : project ∈ db.projects) :
    Grows db (addMemberInternal project spec actor db).2 := by
  unfold addMemberInternal
  split
  · exact Grows.refl db
  · split
    · exact Grows.refl db
    split
    · exact Grows.refl db
    split
    · exact Grows.refl db
    next role hrole =>
      simp only
      split
      · exact Grows.refl db
      next hadd =>
        exact grows_insert hadd ⟨role, mem_of_roleByName hrole, rfl⟩ ⟨project, hproject, rfl⟩

theorem respond_session (projectId userId : Uuid) : (respond projectId userId db).2 = db := by
  unfold respond
  split
  · rfl
  · split <;> rfl

theorem grows_addMember {project : Project} {payload : ProjectMemberCreate} {actor : User}
    (hproject : project ∈ db.projects) :
    Grows db (ProjectService.addMember project payload actor db).2 := by
  have hgrows : Grows db (addMemberInternal project payload actor db).2 :=
    grows_addMemberInternal hproject
  unfold ProjectService.addMember Handler.andThen
  split
  next member session hadd =>
    rw [hadd] at hgrows
    rwa [respond_session]
  next hadd =>
    rwa [hadd] at hgrows

theorem grows_addMembersBulk {project : Project} {role : RoleName} {actor : User}
    (users : List (Uuid × Uuid)) (hproject : project ∈ db.projects) :
    Grows db (addMembersBulk project role actor users db).2 := by
  induction users generalizing db with
  | nil => exact Grows.refl db
  | cons user users ih =>
    obtain ⟨userId, memberId⟩ := user
    have hgrows : Grows db (addMemberInternal project { userId, role, memberId } actor db).2 :=
      grows_addMemberInternal hproject
    unfold addMembersBulk
    split
    · exact ih hproject
    · split
      next hadd =>
        rw [hadd] at hgrows
        split
        · exact hgrows.trans (ih (hgrows.projects ▸ hproject))
        · exact hgrows
      next session hadd =>
        rw [hadd] at hgrows
        have hrest := hgrows.trans (ih (hgrows.projects ▸ hproject))
        split
        next h => rwa [h] at hrest
        next h => rwa [h] at hrest

theorem grows_addMembers {project : Project} {actor : User} (specs : List ProjectMemberCreate)
    (hproject : project ∈ db.projects) :
    Grows db (addMembers project actor specs db).2 := by
  induction specs generalizing db with
  | nil => exact Grows.refl db
  | cons spec specs ih =>
    have hgrows : Grows db (addMemberInternal project spec actor db).2 :=
      grows_addMemberInternal hproject
    unfold addMembers
    split
    · exact ih hproject
    · split
      next hadd => rwa [hadd] at hgrows
      next hadd =>
        rw [hadd] at hgrows
        exact hgrows.trans (ih (hgrows.projects ▸ hproject))

theorem grows_commit {α : Type} {handler : Handler Identity α} (h : Grows db (handler db).2) :
    Grows db (commit handler db) := by
  unfold commit
  rcases Handler.getDb_cases handler db with ⟨_, hget, -⟩ | ⟨_, hget, -⟩
  · rwa [hget]
  · rw [hget]
    exact Grows.refl db

theorem mem_of_getProject {id : Uuid} {project : Project} (h : db.getProject id = some project) :
    project ∈ db.projects := List.mem_of_find?_eq_some h

theorem grows_onProject {α : Type} {projectId : Uuid} {handler : Project → Handler Identity α}
    (h : ∀ project ∈ db.projects, Grows db (handler project db).2) :
    Grows db (onProject projectId handler db) := by
  unfold onProject
  split
  · exact Grows.refl db
  next hproject => exact grows_commit (h _ (mem_of_getProject hproject))

/-! ## A new project -/

/-- What a creation that succeeds has done. -/
theorem createProject_ok {payload : ProjectCreateRequest} {actor : User} {result : Project}
    (h : (ProjectService.createProject payload actor db).1 = .ok result) :
    ∃ project manager row created inserted, db.createProject project = .ok created ∧
      created.roleByName .projectManager = some manager ∧ row.projectId = project.id ∧
      row.roleId = manager.id ∧ created.addMember row = .ok inserted ∧
      (ProjectService.createProject payload actor db).2 =
        (addMembers project actor payload.members inserted).2 := by
  unfold ProjectService.createProject at h ⊢
  simp only at h ⊢
  split at h
  · cases h
  next created hcreate =>
    split at h
    · cases h
    next manager hmanager =>
      split at h
      · cases h
      next inserted hadd =>
        refine ⟨_, manager, _, created, inserted, hcreate, hmanager, rfl, rfl, hadd, ?_⟩
        split <;> next hspecs => rw [hspecs]

theorem createProject_row {project : Project} {created : Identity}
    (h : db.createProject project = .ok created) :
    created = { db with projects := db.projects ++ [project] } ∧
      Keyed.Fresh (·.id) db.projects project := by
  unfold Identity.createProject at h
  split at h
  · cases h
  next hfresh =>
    refine ⟨(Except.ok.inj h).symm, fun hmem => hfresh ?_⟩
    obtain ⟨row, hrow, hid⟩ := List.mem_map.1 hmem
    exact List.any_eq_true.2 ⟨row, hrow, by simpa using .inl hid⟩

theorem mem_of_addMember {member : ProjectMember} (h : db.addMember member = .ok db') :
    member ∈ db'.members := by
  unfold Identity.addMember at h
  split at h
  · cases h
  · obtain rfl := Except.ok.inj h
    simp

theorem createProject_step (hdb : db.Valid) (h : Administrable db) (payload : ProjectCreateRequest)
    (actor : User) :
    (commit (ProjectService.createProject payload actor) db).Valid ∧
      Administrable (commit (ProjectService.createProject payload actor) db) := by
  unfold commit
  rcases Handler.getDb_cases (ProjectService.createProject payload actor) db with
    ⟨_, hget, hok⟩ | ⟨_, hget, -⟩
  swap
  · rw [hget]
    exact ⟨hdb, h⟩
  obtain ⟨project, manager, row, created, inserted, hcreate, hmanager, hid, hrole, hadd, hsession⟩ :=
    createProject_ok hok
  obtain ⟨rfl, hfresh⟩ := createProject_row hcreate
  rw [hget, hsession]
  clear hget hok hsession hcreate
  have hproject : project ∈ db.projects ++ [project] := by simp
  have hvalid : ({ db with projects := db.projects ++ [project] } : Identity).Valid :=
    { hdb with
      projects := Keyed.concat hdb.projects hfresh
      memberProject := fun member hmem => by
        obtain ⟨row, hrow, hid⟩ := hdb.memberProject member hmem
        exact ⟨row, List.mem_append_left _ hrow, hid⟩ }
  have hinsert := grows_insert hadd ⟨manager, mem_of_roleByName hmanager, hrole.symm⟩
    ⟨project, hproject, hid.symm⟩
  have hstored : project ∈ inserted.projects := by
    rw [hinsert.projects]
    exact hproject
  have hrest : Grows inserted (addMembers project actor payload.members inserted).2 :=
    grows_addMembers payload.members hstored
  have hgrows := hinsert.trans hrest
  refine ⟨hgrows.valid hvalid, ?_, ?_⟩
  · show ∃ user ∈ _, _
    rw [hgrows.users]
    exact h.admin
  · rw [hgrows.projects]
    intro other hother hlive
    rcases List.mem_append.1 hother with hold | hnew
    · exact hgrows.hasMember (h.manager other hold hlive)
    · rw [List.mem_singleton.1 hnew]
      have hmanagerOf : inserted.roleOf row = some manager :=
        roleOf_id (hinsert.valid hvalid)
          (hinsert.roles.symm ▸ mem_of_roleByName hmanager) hrole
      refine hrest.hasMember ⟨row, mem_of_addMember hadd, hid, (hasRole_one hmanagerOf).2 ?_⟩
      exact ((roleByName_iff hvalid).1 hmanager).2

/-! ## Members who leave or change their role -/

/-- The rest of the database stays, and so does the manager of every project. -/
structure Keeps (db db' : Identity) : Prop where
  users : db'.users = db.users
  projects : db'.projects = db.projects
  valid : db'.Valid
  manager : ∀ projectId, HasMember db .projectManager projectId →
    HasMember db' .projectManager projectId

structure Strips (db db' : Identity) (member : ProjectMember) : Prop where
  users : db'.users = db.users
  projects : db'.projects = db.projects
  valid : db'.Valid
  manager : ∀ projectId, HasMember db' .projectManager projectId ↔
    ∃ row ∈ db.members, row ≠ member ∧ row.projectId = projectId ∧
      db.hasRole [.projectManager] row = true

theorem Keeps.administrable (h : Keeps db db') (hdb : Administrable db) : Administrable db' where
  admin := by
    unfold HasAdmin
    rw [h.users]
    exact hdb.admin
  manager := by
    rw [h.projects]
    exact fun project hproject hlive => h.manager _ (hdb.manager project hproject hlive)

theorem Strips.administrable {member : ProjectMember} (h : Strips db db' member)
    (hother : ∃ row ∈ db.members, row ≠ member ∧ row.projectId = member.projectId ∧
      db.hasRole [.projectManager] row = true) (hdb : Administrable db) : Administrable db' where
  admin := by
    unfold HasAdmin
    rw [h.users]
    exact hdb.admin
  manager := by
    rw [h.projects]
    intro project hproject hlive
    rw [h.manager]
    by_cases hid : member.projectId = project.id
    · rwa [← hid]
    · obtain ⟨row, hrow, hrid, hrole⟩ := hdb.manager project hproject hlive
      exact ⟨row, hrow, fun heq => hid (heq ▸ hrid), hrid, hrole⟩

theorem Strips.orphaned {member : ProjectMember} (h : Strips db db' member)
    (honly : OnlyManager db member) {project : Project} (hproject : project ∈ db.projects)
    (hlive : project.deletedAt = none) (hid : project.id = member.projectId) :
    ¬ Administrable db' := by
  intro hdb
  have hmanager := hdb.manager project (h.projects.symm ▸ hproject) hlive
  obtain ⟨row, hrow, hne, hrid, hrole⟩ := (h.manager _).1 hmanager
  exact hne (honly.2 row hrow (hrid.trans hid) hrole)

theorem one_lt_countP_iff {α : Type} [DecidableEq α] {p : α → Bool} {l : List α} {a : α}
    (h : l.Nodup) (ha : a ∈ l) (hp : p a = true) :
    1 < l.countP p ↔ ∃ b ∈ l, b ≠ a ∧ p b = true := by
  rw [(List.perm_cons_erase ha).countP_eq, List.countP_cons_of_pos hp, Nat.lt_add_left_iff_pos,
    List.countP_pos_iff]
  simp only [h.mem_erase_iff, and_assoc]
  exact exists_congr fun b => and_left_comm

/-- The guard passes exactly if another member is counted: a manager, or one with the role of an
administrator. -/
theorem countManagers_iff (hdb : db.Valid) {member : ProjectMember} (hmem : member ∈ db.members)
    (hrole : db.hasRole [.projectManager] member = true) :
    1 < db.countManagers member.projectId ↔ ∃ row ∈ db.members, row ≠ member ∧
      row.projectId = member.projectId ∧
        (db.hasRole [.projectManager] row = true ∨ db.hasRole [.systemAdmin] row = true) := by
  have hcounted : ∀ row, db.hasRole [.projectManager, .systemAdmin] row = true ↔
      db.hasRole [.projectManager] row = true ∨ db.hasRole [.systemAdmin] row = true := by
    intro row
    simp only [hasRole_iff, List.mem_cons, List.not_mem_nil, or_false, and_or_left, exists_or]
  unfold Identity.countManagers
  rw [one_lt_countP_iff hdb.memberIds.of_map hmem
    (by simpa using (hcounted member).2 (.inl hrole))]
  simp only [Bool.and_eq_true, decide_eq_true_eq, hcounted]

theorem guardRole_ok {project : Project} {role : Role} (h : guardRole db project role = .ok ())
    (hrole : role.name = .projectManager) : 1 < db.countManagers project.id := by
  unfold guardRole at h
  rw [if_pos hrole] at h
  unfold guardLastManager at h
  split at h
  · cases h
  next hcount => omega

theorem guardRole_of_count {project : Project} {role : Role}
    (h : 1 < db.countManagers project.id) : guardRole db project role = .ok () := by
  unfold guardRole guardLastManager
  split
  · rw [if_neg (by omega)]
  · rfl

/-- Another manager remains if the operation is covered. -/
theorem other_manager (hdb : db.Valid) {member : ProjectMember} (hmem : member ∈ db.members)
    (hrole : db.hasRole [.projectManager] member = true)
    (hcount : 1 < db.countManagers member.projectId)
    (hcovered : OnlyManager db member → ¬ HasMember db .systemAdmin member.projectId) :
    ∃ row ∈ db.members, row ≠ member ∧ row.projectId = member.projectId ∧
      db.hasRole [.projectManager] row = true := by
  obtain ⟨row, hrow, hne, hid, hmanager | hadmin⟩ := (countManagers_iff hdb hmem hrole).1 hcount
  · exact ⟨row, hrow, hne, hid, hmanager⟩
  · by_contra hnone
    refine hcovered ⟨hrole, fun other hother hid hrole => ?_⟩ ⟨row, hrow, hid, hadmin⟩
    by_contra hne
    exact hnone ⟨other, hother, hne, hid, hrole⟩

theorem uncovered_count (hdb : db.Valid) {member : ProjectMember} (hmem : member ∈ db.members)
    (honly : OnlyManager db member) (hadmin : HasMember db .systemAdmin member.projectId) :
    1 < db.countManagers member.projectId := by
  obtain ⟨row, hrow, hid, hrole⟩ := hadmin
  refine (countManagers_iff hdb hmem honly.1).2 ⟨row, hrow, fun heq => ?_, hid, .inr hrole⟩
  obtain ⟨role, hof, hname⟩ := hasRole_iff.1 hrole
  have hmanager := (hasRole_one (heq ▸ hof)).1 honly.1
  rw [hmanager] at hname
  exact absurd hname (by decide)

/-! ## A member is removed -/

theorem mem_removeMember (hdb : db.Valid) {projectId userId : Uuid} {member row : ProjectMember}
    (hmember : db.getMembership projectId userId = some member) :
    row ∈ (db.removeMember projectId userId).members ↔ row ∈ db.members ∧ row ≠ member := by
  obtain ⟨hmem, hproject, huser⟩ := hdb.getMembership_iff.1 hmember
  unfold Identity.removeMember
  simp only [List.mem_filter, decide_eq_true_eq]
  refine and_congr_right fun hrow => not_congr ⟨fun ⟨hp, hu⟩ => ?_, fun heq => ?_⟩
  · exact Keyed.inj hdb.members hrow hmem (by rw [hp, hu, hproject, huser])
  · exact heq ▸ ⟨hproject, huser⟩

theorem strips_removeMember (hdb : db.Valid) {projectId userId : Uuid} {member : ProjectMember}
    (hmember : db.getMembership projectId userId = some member) :
    Strips db (db.removeMember projectId userId) member where
  users := rfl
  projects := rfl
  valid :=
    { hdb with
      memberIds := hdb.memberIds.sublist (List.filter_sublist.map _)
      members := hdb.members.sublist (List.filter_sublist.map _)
      memberRole := fun row hrow => hdb.memberRole row (List.mem_of_mem_filter hrow)
      memberProject := fun row hrow => hdb.memberProject row (List.mem_of_mem_filter hrow) }
  manager id := by
    unfold HasMember
    simp only [mem_removeMember hdb hmember, and_assoc]
    exact Iff.rfl

theorem keeps_removeMember (hdb : db.Valid) {projectId userId : Uuid} {member : ProjectMember}
    (hmember : db.getMembership projectId userId = some member)
    (hrole : ¬ db.hasRole [.projectManager] member = true) :
    Keeps db (db.removeMember projectId userId) where
  users := rfl
  projects := rfl
  valid := (strips_removeMember hdb hmember).valid
  manager id hmanager := by
    obtain ⟨row, hrow, hid, hmanager⟩ := hmanager
    exact ((strips_removeMember hdb hmember).manager id).2
      ⟨row, hrow, fun heq => hrole (heq ▸ hmanager), hid, hmanager⟩

/-! ## A member is given a role -/

def rewriteMember (roleId : Uuid) (payload : ProjectMemberUpdate) (row : ProjectMember) :
    ProjectMember :=
  { row with
    roleId := roleId
    permissionOverrides := payload.permissionOverrides.getD row.permissionOverrides }

section Rewrite

variable {member : ProjectMember} {roleId : Uuid} {payload : ProjectMemberUpdate}

theorem mem_rewrite (hdb : db.Valid) (hmem : member ∈ db.members) {row' : ProjectMember} :
    row' ∈ (db.updateMember member.id (rewriteMember roleId payload)).members ↔
      row' = rewriteMember roleId payload member ∨ (row' ∈ db.members ∧ row' ≠ member) := by
  unfold Identity.updateMember
  simp only [List.mem_map]
  constructor
  · rintro ⟨row, hrow, rfl⟩
    by_cases hid : row.id = member.id
    · rw [if_pos hid, Keyed.inj hdb.memberIds hrow hmem hid]
      exact .inl rfl
    · rw [if_neg hid]
      exact .inr ⟨hrow, fun heq => hid (by rw [heq])⟩
  · rintro (rfl | ⟨hrow, hne⟩)
    · exact ⟨member, hmem, if_pos rfl⟩
    · exact ⟨row', hrow, if_neg fun hid => hne (Keyed.inj hdb.memberIds hrow hmem hid)⟩

theorem valid_rewrite (hdb : db.Valid) (hmem : member ∈ db.members)
    (hrole : ∃ role ∈ db.roles, role.id = roleId) :
    (db.updateMember member.id (rewriteMember roleId payload)).Valid := by
  have hkeys : ∀ {κ : Type} (key : ProjectMember → κ),
      (∀ row, key (rewriteMember roleId payload row) = key row) →
      (db.members.map key).Nodup →
      ((db.updateMember member.id (rewriteMember roleId payload)).members.map key).Nodup := by
    intro κ key hkey hnodup
    refine Keyed.update hnodup fun row => ?_
    split
    · exact hkey row
    · rfl
  refine { hdb with
    memberIds := hkeys _ (fun _ => rfl) hdb.memberIds
    members := hkeys _ (fun _ => rfl) hdb.members
    memberRole := fun row hrow => ?_
    memberProject := fun row hrow => ?_ }
  · rcases (mem_rewrite hdb hmem).1 hrow with rfl | ⟨hrow, -⟩
    · exact hrole
    · exact hdb.memberRole row hrow
  · rcases (mem_rewrite hdb hmem).1 hrow with rfl | ⟨hrow, -⟩
    · exact hdb.memberProject member hmem
    · exact hdb.memberProject row hrow

theorem hasMember_rewrite (hdb : db.Valid) (hmem : member ∈ db.members) {role : Role}
    (hrole : role ∈ db.roles) (hid : role.id = roleId) {name : RoleName} {projectId : Uuid} :
    HasMember (db.updateMember member.id (rewriteMember roleId payload)) name projectId ↔
      (role.name = name ∧ member.projectId = projectId) ∨
        ∃ row ∈ db.members, row ≠ member ∧ row.projectId = projectId ∧
          db.hasRole [name] row = true := by
  have hof : (db.updateMember member.id (rewriteMember roleId payload)).roleOf
      (rewriteMember roleId payload member) = some role :=
    roleOf_id (valid_rewrite hdb hmem ⟨role, hrole, hid⟩) hrole hid.symm
  unfold HasMember
  simp only [mem_rewrite hdb hmem]
  constructor
  · rintro ⟨row, rfl | ⟨hrow, hne⟩, hproject, hname⟩
    · exact .inl ⟨(hasRole_one hof).1 hname, hproject⟩
    · exact .inr ⟨row, hrow, hne, hproject, hname⟩
  · rintro (⟨hname, hproject⟩ | ⟨row, hrow, hne, hproject, hname⟩)
    · exact ⟨_, .inl rfl, hproject, (hasRole_one hof).2 hname⟩
    · exact ⟨row, .inr ⟨hrow, hne⟩, hproject, hname⟩

end Rewrite

/-- The role that an update gives a member is a stored one: the old role, or another one for which
the guard passed. -/
theorem newRole_ok (hdb : db.Valid) {project : Project} {member : ProjectMember} {role : Role}
    (hrole : db.roleOf member = some role) {name? : Option RoleName} {roleId : Uuid} :
    newRole db project member name? = .ok roleId ↔
      (roleId = role.id ∧ ∀ name, name? = some name → name = role.name) ∨
        ∃ name given, name? = some name ∧ name ≠ role.name ∧
          guardRole db project role = .ok () ∧ db.roleByName name = some given ∧
          roleId = given.id := by
  have hid : role.id = member.roleId := (hdb.roleOf_iff.1 hrole).2
  unfold newRole
  cases name? with
  | none => simp [hid, eq_comm]
  | some name =>
    simp only [hrole]
    by_cases hsame : name = role.name
    · rw [if_pos hsame]
      simp [hsame, hid, eq_comm]
    · rw [if_neg hsame]
      cases hguard : guardRole db project role with
      | error e =>
        show Except.error e = Except.ok roleId ↔ _
        simp [hsame]
      | ok _ =>
        cases hgiven : db.roleByName name with
        | none =>
          show Except.error (notConfigured name) = Except.ok roleId ↔ _
          simp [hsame, hgiven]
        | some given =>
          show Except.ok given.id = Except.ok roleId ↔ _
          simp [hsame, hgiven, eq_comm]

theorem respond_ok (hdb : db.Valid) {member : ProjectMember} (hmem : member ∈ db.members) :
    ∃ response, respond member.projectId member.userId db = (.ok response, db) := by
  obtain ⟨role, hrole⟩ := hdb.exists_roleOf hmem
  unfold respond
  rw [hdb.getMembership_iff.2 ⟨hmem, rfl, rfl⟩]
  simp only [hrole]
  exact ⟨_, rfl⟩

theorem updateMember_commit (hdb : db.Valid) {project : Project} {userId : Uuid}
    {payload : ProjectMemberUpdate} {member : ProjectMember} {roleId : Uuid}
    (hmember : db.getMembership project.id userId = some member)
    (hnew : newRole db project member payload.role = .ok roleId)
    (hstored : ∃ role ∈ db.roles, role.id = roleId) :
    commit (ProjectService.updateMember project userId payload) db =
      db.updateMember member.id (rewriteMember roleId payload) := by
  obtain ⟨hmem, hproject, huser⟩ := hdb.getMembership_iff.1 hmember
  have hvalid : (db.updateMember member.id (rewriteMember roleId payload)).Valid :=
    valid_rewrite hdb hmem hstored
  obtain ⟨response, hresponse⟩ := respond_ok hvalid ((mem_rewrite hdb hmem).2 (.inl rfl))
  have hhandler : ProjectService.updateMember project userId payload db =
      (.ok response, db.updateMember member.id (rewriteMember roleId payload)) := by
    unfold ProjectService.updateMember
    rw [hmember]
    simp only [hnew]
    rw [← hproject, ← huser]
    exact hresponse
  unfold commit
  rw [Handler.getDb_ok hhandler]

theorem commit_error {α : Type} {handler : Handler Identity α} {e : Raised}
    (h : (handler db).1 = .error e) : commit handler db = db := by
  unfold commit
  rw [Handler.getDb_error h]

/-- What one membership operation does: nothing to any manager, or it takes the role from one whom
the guard let go. -/
inductive MemberStep (db : Identity) (op : Operation) (db' : Identity) : Prop where
  | keeps (h : Keeps db db')
  | strips (member : ProjectMember) (htakes : TakesRole db member op) (hmem : member ∈ db.members)
      (hrole : db.hasRole [.projectManager] member = true)
      (hcount : 1 < db.countManagers member.projectId) (h : Strips db db' member)

theorem Keeps.refl (hdb : db.Valid) : Keeps db db := ⟨rfl, rfl, hdb, fun _ => id⟩

theorem removeMember_step (hdb : db.Valid) (projectId userId : Uuid) :
    MemberStep db (.removeMember projectId userId)
      (perform db (.removeMember projectId userId)) := by
  show MemberStep db _ (onProject projectId (ProjectService.removeMember · userId) db)
  unfold onProject
  cases hproject : db.getProject projectId with
  | none => exact .keeps (Keeps.refl hdb)
  | some project =>
    have hid : project.id = projectId := (hdb.getProject_iff.1 hproject).2.2
    simp only
    cases hmember : db.getMembership projectId userId with
    | none =>
      rw [commit_error (e := .app (.notFound "Project member" userId))]
      · exact .keeps (Keeps.refl hdb)
      · unfold ProjectService.removeMember
        rw [hid, hmember]
    | some member =>
      obtain ⟨hmem, hof, -⟩ := hdb.getMembership_iff.1 hmember
      obtain ⟨role, hrole⟩ := hdb.exists_roleOf hmem
      cases hguard : guardRole db project role with
      | error e =>
        rw [commit_error (e := e)]
        · exact .keeps (Keeps.refl hdb)
        · unfold ProjectService.removeMember
          rw [hid, hmember]
          simp only [hrole, hguard]
      | ok _ =>
        have hcommit : commit (ProjectService.removeMember project userId) db =
            db.removeMember projectId userId := by
          unfold commit
          rw [Handler.getDb_ok (a := ())]
          unfold ProjectService.removeMember
          rw [hid, hmember]
          simp only [hrole, hguard]
        rw [hcommit]
        by_cases hmanager : role.name = .projectManager
        · refine .strips member ⟨⟨project, hproject⟩, hmember⟩ hmem ((hasRole_one hrole).2 hmanager)
            ?_ (strips_removeMember hdb hmember)
          rw [hof, ← hid]
          exact guardRole_ok hguard hmanager
        · refine .keeps (keeps_removeMember hdb hmember ?_)
          rwa [hasRole_one hrole]

theorem strips_rewrite (hdb : db.Valid) {member : ProjectMember} (hmem : member ∈ db.members)
    {role : Role} (hrole : role ∈ db.roles) (hne : role.name ≠ .projectManager)
    (payload : ProjectMemberUpdate) :
    Strips db (db.updateMember member.id (rewriteMember role.id payload)) member where
  users := rfl
  projects := rfl
  valid := valid_rewrite hdb hmem ⟨role, hrole, rfl⟩
  manager projectId := by
    rw [hasMember_rewrite hdb hmem hrole rfl]
    simp [hne]

theorem keeps_rewrite (hdb : db.Valid) {member : ProjectMember} (hmem : member ∈ db.members)
    {role : Role} (hrole : role ∈ db.roles)
    (hkeep : db.hasRole [.projectManager] member = true → role.name = .projectManager)
    (payload : ProjectMemberUpdate) :
    Keeps db (db.updateMember member.id (rewriteMember role.id payload)) where
  users := rfl
  projects := rfl
  valid := valid_rewrite hdb hmem ⟨role, hrole, rfl⟩
  manager projectId hmanager := by
    rw [hasMember_rewrite hdb hmem hrole rfl]
    obtain ⟨row, hrow, hid, hmanager⟩ := hmanager
    by_cases heq : row = member
    · exact .inl ⟨hkeep (heq ▸ hmanager), heq ▸ hid⟩
    · exact .inr ⟨row, hrow, heq, hid, hmanager⟩

theorem updateMember_step (hdb : db.Valid) (projectId userId : Uuid)
    (payload : ProjectMemberUpdate) :
    MemberStep db (.updateMember projectId userId payload)
      (perform db (.updateMember projectId userId payload)) := by
  show MemberStep db _ (onProject projectId (ProjectService.updateMember · userId payload) db)
  unfold onProject
  cases hproject : db.getProject projectId with
  | none => exact .keeps (Keeps.refl hdb)
  | some project =>
    obtain rfl : project.id = projectId := (hdb.getProject_iff.1 hproject).2.2
    simp only
    cases hmember : db.getMembership project.id userId with
    | none =>
      rw [commit_error (e := .app (.notFound "Project member" userId))]
      · exact .keeps (Keeps.refl hdb)
      · unfold ProjectService.updateMember
        rw [hmember]
    | some member =>
      obtain ⟨hmem, hof, -⟩ := hdb.getMembership_iff.1 hmember
      obtain ⟨role, hrole⟩ := hdb.exists_roleOf hmem
      have hstored := (hdb.roleOf_iff.1 hrole).1
      cases hnew : newRole db project member payload.role with
      | error e =>
        rw [commit_error (e := e)]
        · exact .keeps (Keeps.refl hdb)
        · unfold ProjectService.updateMember
          rw [hmember]
          simp only [hnew]
      | ok roleId =>
        rcases (newRole_ok hdb hrole).1 hnew with
          ⟨rfl, -⟩ | ⟨name, given, hname, hne, hguard, hgiven, rfl⟩
        · rw [updateMember_commit hdb hmember hnew ⟨role, hstored, rfl⟩]
          exact .keeps (keeps_rewrite hdb hmem hstored (hasRole_one hrole).1 payload)
        · obtain ⟨hgivenMem, hgivenName⟩ := (roleByName_iff hdb).1 hgiven
          rw [updateMember_commit hdb hmember hnew ⟨given, hgivenMem, rfl⟩]
          by_cases hmanager : role.name = .projectManager
          · refine .strips member ⟨⟨project, hproject⟩, hmember, name, given, hname, hgiven, ?_⟩
              hmem ((hasRole_one hrole).2 hmanager) ?_ (strips_rewrite hdb hmem hgivenMem ?_ payload)
            · rw [Bool.eq_false_iff, ne_eq, hasRole_one hrole]
              exact Ne.symm hne
            · rw [hof]
              exact guardRole_ok hguard hmanager
            · rw [hgivenName, ← hmanager]
              exact hne
          · refine .keeps (keeps_rewrite hdb hmem hgivenMem (fun hkeep => ?_) payload)
            exact absurd ((hasRole_one hrole).1 hkeep) hmanager

theorem uncovered_strips (hdb : db.Valid) {op : Operation} {member : ProjectMember}
    (htakes : TakesRole db member op) (honly : OnlyManager db member)
    (hadmin : HasMember db .systemAdmin member.projectId) :
    Strips db (perform db op) member ∧
      ∃ project ∈ db.projects, project.deletedAt = none ∧ project.id = member.projectId := by
  cases op with
  | updateMember projectId userId payload =>
    obtain ⟨⟨project, hproject⟩, hmember, name, given, hname, hgiven, hother⟩ := htakes
    obtain ⟨hstored, hlive, rfl⟩ := hdb.getProject_iff.1 hproject
    obtain ⟨hmem, hof, -⟩ := hdb.getMembership_iff.1 hmember
    obtain ⟨role, hrole⟩ := hdb.exists_roleOf hmem
    have hmanager := (hasRole_one hrole).1 honly.1
    have hne : name ≠ role.name := by
      rintro rfl
      exact absurd ((hasRole_one hrole).2 rfl) (by simp [hother])
    obtain ⟨hgivenMem, hgivenName⟩ := (roleByName_iff hdb).1 hgiven
    have hguard : guardRole db project role = .ok () :=
      guardRole_of_count (hof ▸ uncovered_count hdb hmem honly hadmin)
    have hnew : newRole db project member payload.role = .ok given.id :=
      (newRole_ok hdb hrole).2 (.inr ⟨name, given, hname, hne, hguard, hgiven, rfl⟩)
    refine ⟨?_, project, hstored, hlive, hof.symm⟩
    show Strips db (onProject project.id (ProjectService.updateMember · userId payload) db) member
    unfold onProject
    rw [hproject]
    simp only
    rw [updateMember_commit hdb hmember hnew ⟨given, hgivenMem, rfl⟩]
    refine strips_rewrite hdb hmem hgivenMem ?_ payload
    rw [hgivenName, ← hmanager]
    exact hne
  | removeMember projectId userId =>
    obtain ⟨⟨project, hproject⟩, hmember⟩ := htakes
    obtain ⟨hstored, hlive, rfl⟩ := hdb.getProject_iff.1 hproject
    obtain ⟨hmem, hof, -⟩ := hdb.getMembership_iff.1 hmember
    obtain ⟨role, hrole⟩ := hdb.exists_roleOf hmem
    have hguard : guardRole db project role = .ok () :=
      guardRole_of_count (hof ▸ uncovered_count hdb hmem honly hadmin)
    refine ⟨?_, project, hstored, hlive, hof.symm⟩
    show Strips db (onProject project.id (ProjectService.removeMember · userId) db) member
    unfold onProject
    rw [hproject]
    simp only
    have hcommit : commit (ProjectService.removeMember project userId) db =
        db.removeMember project.id userId := by
      unfold commit
      rw [Handler.getDb_ok (a := ())]
      unfold ProjectService.removeMember
      rw [hmember]
      simp only [hrole, hguard]
    rw [hcommit]
    exact strips_removeMember hdb hmember
  | updateUser | deleteUser | createProject | addMember | addMembersBulk => exact htakes.elim

end Administration

end Clear

/-!
## No orphaned platform or project

The platform keeps an active administrator through every operation. A project keeps a Project Manager
as long as no operation takes the role from its only one while another member has the role of an
administrator: the guard counts that member as a manager (`stays_administrable_iff`).
-/

namespace Clear

namespace Administration

open ProjectService UserService

variable {db db' : Identity}

/-! ## Runs -/

theorem MemberStep.valid {op : Operation} (h : MemberStep db op db') : db'.Valid := by
  cases h with
  | keeps h => exact h.valid
  | strips _ _ _ _ _ h => exact h.valid

theorem MemberStep.administrable (hdb : db.Valid) {op : Operation} (h : MemberStep db op db')
    (hcovered : Covered db op) (hadm : Administrable db) : Administrable db' := by
  cases h with
  | keeps h => exact h.administrable hadm
  | strips member htakes hmem hrole hcount h =>
    exact h.administrable (other_manager hdb hmem hrole hcount (hcovered member htakes)) hadm

theorem perform_step (hdb : db.Valid) (hadm : Administrable db) {op : Operation}
    (hcovered : Covered db op) : (perform db op).Valid ∧ Administrable (perform db op) := by
  cases op with
  | updateUser userId changes actor now =>
    have h : AccountStep db _ := accountStep_updateUser hdb userId changes actor now
    exact ⟨h.valid hdb, h.administrable (h.admin hadm.admin) hadm⟩
  | deleteUser userId actor now =>
    have h : AccountStep db _ := accountStep_deleteUser hdb userId actor now
    exact ⟨h.valid hdb, h.administrable (h.admin hadm.admin) hadm⟩
  | createProject payload actor => exact createProject_step hdb hadm payload actor
  | addMember projectId payload actor =>
    have h : Grows db (perform db (.addMember projectId payload actor)) :=
      grows_onProject fun _ => grows_addMember
    exact ⟨h.valid hdb, h.administrable hadm⟩
  | addMembersBulk projectId payload actor =>
    have h : Grows db (perform db (.addMembersBulk projectId payload actor)) :=
      grows_onProject fun _ => grows_addMembersBulk payload.users
    exact ⟨h.valid hdb, h.administrable hadm⟩
  | updateMember projectId userId payload =>
    have h := updateMember_step hdb projectId userId payload
    exact ⟨h.valid, h.administrable hdb hcovered hadm⟩
  | removeMember projectId userId =>
    have h := removeMember_step hdb projectId userId
    exact ⟨h.valid, h.administrable hdb hcovered hadm⟩

theorem perform_uncovered (hdb : db.Valid) {op : Operation} (h : ¬ Covered db op) :
    ¬ Administrable (perform db op) := by
  unfold Covered at h
  push Not at h
  obtain ⟨member, htakes, honly, hadmin⟩ := h
  obtain ⟨hstrips, project, hproject, hlive, hid⟩ := uncovered_strips hdb htakes honly hadmin
  exact hstrips.orphaned honly hproject hlive hid

/-- **The platform and its projects stay administrable exactly along the runs whose operations are
all covered.** -/
theorem stays_administrable_iff (db : Identity) (hdb : db.Valid) (hadm : Administrable db)
    (ops : List Operation) :
    machine.Along Administrable db ops ↔ machine.Meets Covered db ops := by
  refine Machine.along_iff_meets (I := fun db => db.Valid ∧ Administrable db) (fun _ h => h.2)
    (fun s op t hs hcovered hstep => ?_) (fun s op t hs hcovered hstep => ?_) ⟨hdb, hadm⟩
  · obtain rfl := Option.some.inj hstep
    exact perform_step hs.1 hs.2 hcovered
  · obtain rfl := Option.some.inj hstep
    exact perform_uncovered hs.1 hcovered

/-! ## A project that loses its manager -/

namespace Sample

/-- A project with a manager and a member in the role of an administrator. -/
def guarded : Identity where
  users := [{ id := 1#128, email := "a@x", fullName := "A", isSystemAdmin := true },
    { id := 2#128, email := "b@x", fullName := "B" }]
  roles := [{ id := 11#128, name := .systemAdmin, permissions := [] },
    { id := 12#128, name := .projectManager, permissions := [] }]
  projects := [{ id := 21#128, name := "P", slug := "p" }]
  members := [{ id := 31#128, projectId := 21#128, userId := 2#128, roleId := 12#128 },
    { id := 32#128, projectId := 21#128, userId := 1#128, roleId := 11#128 }]

theorem guarded_valid : guarded.Valid where
  users := by decide
  roles := by decide
  roleNames := by decide
  projects := by decide
  memberIds := by decide
  members := by decide
  memberRole := by decide
  memberProject := by decide

theorem guarded_administrable : Administrable guarded where
  admin := by
    unfold HasAdmin
    decide
  manager := by
    unfold HasMember
    decide

end Sample

open Sample

theorem stays_administrable_iff_sample :
    guarded.Valid ∧ Administrable guarded ∧
      (machine.Along Administrable guarded [.removeMember 21#128 1#128] ↔
        machine.Meets Covered guarded [.removeMember 21#128 1#128]) :=
  ⟨guarded_valid, guarded_administrable,
    stays_administrable_iff guarded guarded_valid guarded_administrable _⟩

/-- The only manager leaves, since another member has the role of an administrator; then that member
leaves, whom no guard holds back. -/
theorem project_orphaned :
    Administrable guarded ∧ ¬ machine.Along Administrable guarded
      [.removeMember 21#128 2#128, .removeMember 21#128 1#128] := by
  refine ⟨guarded_administrable, fun h => ?_⟩
  have hlast := ((h.2 _ rfl).2 _ rfl).here
  obtain ⟨member, hmem, -⟩ := hlast.manager { id := 21#128, name := "P", slug := "p" }
    (by decide) rfl
  have hnone : (perform (perform guarded (.removeMember 21#128 2#128))
      (.removeMember 21#128 1#128)).members = [] := rfl
  rw [hnone] at hmem
  cases hmem

end Administration

end Clear
