import Clear.Lib.Except
import Clear.Lib.Machine
import Clear.Services.Auth

/-!
# A refresh token is spent once

A refresh writes whatever has happened since it has read: it inserts a successor, and the update of
the old row asks for nothing but its key. A token is spent once and a revocation of all tokens is
final as long as no refresh commits after its token has been replaced or all tokens of its user have
been revoked (`spent_once`).
-/

/-!
## Requests on refresh tokens in parallel

Under READ COMMITTED a request reads what is committed at that moment; its writes come later, wait
for each other row by row and act on the latest version of a row. A request is therefore two steps,
its reads and its commit. Requests that write without reading first are one step: those that revoke
every token of a user (a password change, a deactivation, signing out everywhere) and logins, which
insert a token.
-/

namespace Clear

namespace Sessions

inductive Call where
  | refresh (q : Auth.RefreshRequest) (plan : Auth.RefreshPlan)
  | logout (stored : RefreshToken) (now : Timestamp)

def Call.rotates : Call → Option RefreshToken
  | .refresh _ (.rotate stored _) => some stored
  | _ => none

structure Running where
  id : Nat
  call : Call
  /-- Every token of the user has been revoked since the call has read. -/
  cut : Bool := false

structure State where
  db : Identity
  running : List Running := []
  next : Nat := 0
  /-- The rotations that are committed: a token and its successor. -/
  rotations : List (Uuid × Uuid) := []

inductive Action where
  | startRefresh (q : Auth.RefreshRequest)
  | startLogout (userId : Uuid) (token : String) (now : Timestamp)
  | finish (id : Nat)
  /-- `change` is what the same request writes to the account. -/
  | revokeAll (userId : Uuid) (now : Timestamp) (change : User → User)
  | login (token : RefreshToken)

variable (s : Security)

def finishDb (db : Identity) : Call → Identity
  | .refresh q plan => ((Auth.refreshWrites s q plan).getDb db).2
  | .logout stored now => db.revoke stored now

def rotationOf (old new : Uuid) : Except Raised TokenResponse → List (Uuid × Uuid)
  | .ok _ => [(old, new)]
  | .error _ => []

def finishRotation (db : Identity) : Call → List (Uuid × Uuid)
  | .refresh q (.rotate stored user) =>
    rotationOf stored.id q.info.tokenId
      ((Auth.refreshWrites s q (.rotate stored user)).getDb db).1
  | _ => []

def readLogout (db : Identity) (userId : Uuid) (token : String) (now : Timestamp) :
    Option RefreshToken :=
  if token = "" then none
  else (db.getActiveByHash (s.hashToken token) now).filter (·.userId = userId)

def State.start (t : State) (call : Call) : State :=
  { t with running := t.running ++ [{ id := t.next, call }], next := t.next + 1 }

def Running.mark (userId : Uuid) (r : Running) : Running :=
  { r with cut := r.cut || r.call.rotates.any (·.userId = userId) }

def step (t : State) : Action → Option State
  | .startRefresh q =>
    if q.refreshToken = "" then none
    else some (t.start (.refresh q (Auth.refreshReads s q t.db)))
  | .startLogout userId token now =>
    (readLogout s t.db userId token now).map fun stored => t.start (.logout stored now)
  | .finish id =>
    (t.running.find? (·.id = id)).map fun r =>
      { t with
        db := finishDb s t.db r.call
        running := t.running.filter (·.id ≠ id)
        rotations := t.rotations ++ finishRotation s t.db r.call }
  | .revokeAll userId now change =>
    some { t with
      db := (t.db.updateUser userId change).revokeAllForUser userId now
      running := t.running.map (Running.mark userId) }
  | .login token => (t.db.issue token).toOption.map fun db => { t with db }

def machine : Machine State Action where
  init t := (t.db.tokens.map (·.id)).Nodup ∧ t.running = [] ∧ t.rotations = []
  step := step s

end Sessions

end Clear

namespace Clear

namespace Sessions

open Auth (RefreshRequest RefreshPlan refreshWrites refreshReads)

variable {s : Security}

/-! ## What is promised -/

inductive Descends (old : List Uuid) (rotations : List (Uuid × Uuid)) : Uuid → Prop where
  | here {id : Uuid} (h : id ∈ old) : Descends old rotations id
  | rotated {a b : Uuid} (h : Descends old rotations a) (hr : (a, b) ∈ rotations) :
      Descends old rotations b

def Ended (t u : State) : Prop := ∀ r ∈ t.running, ∀ r' ∈ u.running, r'.id ≠ r.id

def AllSpent (old : List Uuid) (userId : Uuid) (u : State) : Prop :=
  ∀ token ∈ u.db.tokens, token.userId = userId → Descends old u.rotations token.id →
    token.revokedAt ≠ none

/-- A refresh token is spent once on the runs whose steps meet `G`: one refresh of it commits a
successor, and after all tokens of a user have been revoked and the calls of that moment have ended,
the tokens of before and what was rotated from them are spent. -/
structure SpentOnce (s : Security) (G : State → Action → Prop) : Prop where
  once : ∀ t, (machine s).ReachIf G t → (t.rotations.map (·.1)).Nodup
  final : ∀ t u v userId now change, (machine s).ReachIf G t →
    step s t (.revokeAll userId now change) = some u → (machine s).Run G u v → Ended u v →
    AllSpent (t.db.tokens.map (·.id)) userId v

/-- No refresh commits a successor of a token that has one, nor one of a token whose user has had
every token revoked since the refresh has read. -/
def Untouched (t : State) : Action → Prop
  | .finish id => ∀ r stored, t.running.find? (·.id = id) = some r → r.call.rotates = some stored →
      r.cut = false ∧ ∀ row ∈ t.db.tokens, row.id = stored.id → row.replacedById = none
  | _ => True

/-! ## The token table -/

structure LaterRow (row row' : RefreshToken) : Prop where
  key : row'.id = row.id
  user : row'.userId = row.userId
  revoked : row.revokedAt ≠ none → row'.revokedAt ≠ none
  replaced : row.replacedById ≠ none → row'.replacedById ≠ none

theorem LaterRow.refl (row : RefreshToken) : LaterRow row row := ⟨rfl, rfl, id, id⟩

/-- Rows are kept, and new ones have new keys. -/
structure Later (db db' : Identity) : Prop where
  keeps : ∀ row ∈ db.tokens, ∃ row' ∈ db'.tokens, LaterRow row row'
  origin : ∀ row' ∈ db'.tokens, (∃ row ∈ db.tokens, LaterRow row row') ∨
    row'.id ∉ db.tokens.map (·.id)
  nodup : (db.tokens.map (·.id)).Nodup → (db'.tokens.map (·.id)).Nodup

theorem Later.refl (db : Identity) : Later db db where
  keeps row hrow := ⟨row, hrow, .refl row⟩
  origin row hrow := .inl ⟨row, hrow, .refl row⟩
  nodup := id

/-- An update that only revokes and links. -/
theorem later_map {db db' : Identity} {f : RefreshToken → RefreshToken}
    (h : db'.tokens = db.tokens.map f) (hf : ∀ row, LaterRow row (f row)) : Later db db' where
  keeps row hrow := ⟨f row, by rw [h]; exact List.mem_map_of_mem hrow, hf row⟩
  origin row' hrow' := by
    rw [h] at hrow'
    obtain ⟨row, hrow, rfl⟩ := List.mem_map.1 hrow'
    exact .inl ⟨row, hrow, hf row⟩
  nodup hnodup := by
    rw [h]
    exact Keyed.update hnodup fun row => (hf row).key

theorem later_revoke (db : Identity) (stored : RefreshToken) (now : Timestamp) :
    Later db (db.revoke stored now) := by
  refine later_map rfl fun row => ?_
  split
  · exact ⟨rfl, rfl, fun _ => by simp, id⟩
  · exact .refl row

theorem later_revokeAll (db : Identity) (userId : Uuid) (now : Timestamp) (change : User → User) :
    Later db ((db.updateUser userId change).revokeAllForUser userId now) := by
  refine later_map rfl fun row => ?_
  split
  · exact ⟨rfl, rfl, fun _ => by simp, id⟩
  · exact .refl row

theorem issue_ok {db db' : Identity} {token : RefreshToken} (h : db.issue token = .ok db') :
    db' = { db with tokens := db.tokens ++ [token] } ∧ token.id ∉ db.tokens.map (·.id) := by
  unfold Identity.issue at h
  split at h
  · cases h
  next hfresh =>
    refine ⟨(Except.ok.inj h).symm, fun hmem => hfresh ?_⟩
    obtain ⟨row, hrow, hid⟩ := List.mem_map.1 hmem
    exact List.any_eq_true.2 ⟨row, hrow, by simpa using .inl hid⟩

theorem later_insert (db : Identity) {token : RefreshToken}
    (hfresh : token.id ∉ db.tokens.map (·.id)) :
    Later db { db with tokens := db.tokens ++ [token] } where
  keeps row hrow := ⟨row, List.mem_append_left _ hrow, .refl row⟩
  origin row hrow := by
    rcases List.mem_append.1 hrow with hrow | hrow
    · exact .inl ⟨row, hrow, .refl row⟩
    · rw [List.mem_singleton.1 hrow]
      exact .inr hfresh
  nodup hnodup := Keyed.concat hnodup hfresh

theorem Later.trans_map {db db' db'' : Identity} (h : Later db db') {f : RefreshToken → RefreshToken}
    (htokens : db''.tokens = db'.tokens.map f) (hf : ∀ row, LaterRow row (f row)) :
    Later db db'' := by
  have htrans : ∀ {a b c : RefreshToken}, LaterRow a b → LaterRow b c → LaterRow a c :=
    fun hab hbc => ⟨hbc.key.trans hab.key, hbc.user.trans hab.user,
      fun hr => hbc.revoked (hab.revoked hr), fun hr => hbc.replaced (hab.replaced hr)⟩
  have h' := later_map htokens hf
  refine ⟨fun row hrow => ?_, fun row'' hrow'' => ?_, fun hnodup => h'.nodup (h.nodup hnodup)⟩
  · obtain ⟨row', hrow', hlater⟩ := h.keeps row hrow
    obtain ⟨row'', hrow'', hlater'⟩ := h'.keeps row' hrow'
    exact ⟨row'', hrow'', htrans hlater hlater'⟩
  · rw [htokens] at hrow''
    obtain ⟨row', hrow', rfl⟩ := List.mem_map.1 hrow''
    rcases h.origin row' hrow' with ⟨row, hrow, hlater⟩ | hfresh
    · exact .inl ⟨row, hrow, htrans hlater (hf row')⟩
    · refine .inr ?_
      rwa [(hf row').key]

/-! ## What a call commits -/

structure Rotated (db db' : Identity) (stored : RefreshToken) (new : Uuid) : Prop where
  later : Later db db'
  fresh : new ∉ db.tokens.map (·.id)
  successor : ∃ row ∈ db'.tokens, row.id = new
  user : ∀ row ∈ db'.tokens, row.id = new → row.userId = stored.userId
  linked : ∀ row ∈ db'.tokens, row.id = stored.id → row.id ≠ new → row.replacedById ≠ none

theorem rotate_ok {db db' : Identity} {stored token : RefreshToken} {now : Timestamp}
    (huser : token.userId = stored.userId) (h : db.rotate stored token now = .ok db') :
    Rotated db db' stored token.id := by
  obtain ⟨session, hissue, rfl⟩ := Except.map_eq_ok.1 h
  obtain ⟨rfl, hfresh⟩ := issue_ok hissue
  refine ⟨(later_insert db hfresh).trans_map rfl fun row => ?_, hfresh, ?_, ?_, ?_⟩
  · split
    · exact ⟨rfl, rfl, fun _ => by simp, fun _ => by simp⟩
    · exact .refl row
  · refine ⟨_, List.mem_map.2 ⟨token, List.mem_append_right _ (List.mem_singleton.2 rfl), rfl⟩, ?_⟩
    split <;> rfl
  · intro row' hrow' hid
    obtain ⟨row, hrow, rfl⟩ := List.mem_map.1 hrow'
    rcases List.mem_append.1 hrow with hrow | hrow
    · refine absurd (List.mem_map.2 ⟨row, hrow, ?_⟩) hfresh
      rw [← hid]
      split <;> rfl
    · rw [List.mem_singleton.1 hrow]
      split <;> exact huser
  · intro row' hrow' hid hne
    obtain ⟨row, hrow, rfl⟩ := List.mem_map.1 hrow'
    by_cases hkey : row.id = stored.id
    · rw [if_pos hkey]
      simp
    · rw [if_neg hkey] at hid
      exact absurd hid hkey

theorem finish_cases (s : Security) (db : Identity) (call : Call) :
    (finishRotation s db call = [] ∧ Later db (finishDb s db call)) ∨
    ∃ stored new, call.rotates = some stored ∧ finishRotation s db call = [(stored.id, new)] ∧
      Rotated db (finishDb s db call) stored new := by
  cases call with
  | logout stored now => exact .inl ⟨rfl, later_revoke db stored now⟩
  | refresh q plan =>
    rcases Handler.getDb_cases (refreshWrites s q plan) db with ⟨response, hget, hok⟩ | ⟨e, hget, herror⟩
    · -- only a rotation answers
      cases plan with
      | rotate stored user =>
        refine .inr ⟨stored, q.info.tokenId, rfl, ?_, ?_⟩
        · show rotationOf stored.id q.info.tokenId
            ((refreshWrites s q (.rotate stored user)).getDb db).1 = _
          rw [hget]
          rfl
        · show Rotated db ((refreshWrites s q (.rotate stored user)).getDb db).2 _ _
          rw [hget]
          unfold refreshWrites at hok ⊢
          simp only at hok ⊢
          split at hok
          · cases hok
          next hrotate =>
            have huser : (Auth.createRefreshToken s q.info stored.userId).userId = stored.userId :=
              rfl
            exact rotate_ok huser hrotate
      | unknown | replayed | inactive => cases hok
    · refine .inl ⟨?_, ?_⟩
      · cases plan with
        | rotate stored user =>
          show rotationOf stored.id q.info.tokenId
            ((refreshWrites s q (.rotate stored user)).getDb db).1 = _
          rw [hget]
          rfl
        | unknown | replayed | inactive => rfl
      · show Later db ((refreshWrites s q plan).getDb db).2
        rw [hget]
        exact .refl db

/-! ## Steps -/

theorem step_later {t u : State} {a : Action} (h : step s t a = some u) : Later t.db u.db := by
  cases a with
  | startRefresh q =>
    obtain ⟨-, hu⟩ := Option.ite_none_left_eq_some.1 h
    obtain rfl := Option.some.inj hu
    exact .refl t.db
  | startLogout userId token now =>
    obtain ⟨stored, -, rfl⟩ := Option.map_eq_some_iff.1 h
    exact .refl t.db
  | finish id =>
    obtain ⟨r, -, rfl⟩ := Option.map_eq_some_iff.1 h
    rcases finish_cases s t.db r.call with ⟨-, hlater⟩ | ⟨stored, new, -, -, hrotated⟩
    · exact hlater
    · exact hrotated.later
  | revokeAll userId now change =>
    obtain rfl := Option.some.inj h
    exact later_revokeAll t.db userId now change
  | login token =>
    obtain ⟨db, hdb, rfl⟩ := Option.map_eq_some_iff.1 h
    obtain ⟨rfl, hfresh⟩ := issue_ok (Except.toOption_eq_some.1 hdb)
    exact later_insert t.db hfresh

theorem step_rotations {t u : State} {a : Action} (h : step s t a = some u) :
    u.rotations = t.rotations ∨
    ∃ id r stored new, a = .finish id ∧ t.running.find? (·.id = id) = some r ∧
      r.call.rotates = some stored ∧ u.rotations = t.rotations ++ [(stored.id, new)] ∧
      Rotated t.db u.db stored new := by
  cases a with
  | startRefresh q =>
    obtain ⟨-, hu⟩ := Option.ite_none_left_eq_some.1 h
    obtain rfl := Option.some.inj hu
    exact .inl rfl
  | startLogout userId token now =>
    obtain ⟨stored, -, rfl⟩ := Option.map_eq_some_iff.1 h
    exact .inl rfl
  | finish id =>
    obtain ⟨r, hr, rfl⟩ := Option.map_eq_some_iff.1 h
    rcases finish_cases s t.db r.call with ⟨hnone, -⟩ | ⟨stored, new, hcall, hone, hrotated⟩
    · refine .inl ?_
      show t.rotations ++ finishRotation s t.db r.call = t.rotations
      rw [hnone, List.append_nil]
    · refine .inr ⟨id, r, stored, new, rfl, hr, hcall, ?_, hrotated⟩
      show t.rotations ++ finishRotation s t.db r.call = _
      rw [hone]
  | revokeAll userId now change =>
    obtain rfl := Option.some.inj h
    exact .inl rfl
  | login token =>
    obtain ⟨db, -, rfl⟩ := Option.map_eq_some_iff.1 h
    exact .inl rfl

theorem step_running {t u : State} {a : Action} (h : step s t a = some u) {r' : Running}
    (hr' : r' ∈ u.running) :
    (∃ r ∈ t.running, r'.call = r.call ∧ (r.cut = true → r'.cut = true)) ∨
    ∀ stored, r'.call.rotates = some stored → stored ∈ t.db.tokens ∧ stored.revokedAt = none := by
  have hstart : ∀ call : Call, (∀ stored, call.rotates = some stored →
      stored ∈ t.db.tokens ∧ stored.revokedAt = none) → r' ∈ (t.start call).running →
      (∃ r ∈ t.running, r'.call = r.call ∧ (r.cut = true → r'.cut = true)) ∨
      ∀ stored, r'.call.rotates = some stored →
        stored ∈ t.db.tokens ∧ stored.revokedAt = none := by
    intro call hcall hmem
    rcases List.mem_append.1 hmem with hmem | hmem
    · exact .inl ⟨r', hmem, rfl, fun hcut => hcut⟩
    · rw [List.mem_singleton.1 hmem]
      exact .inr hcall
  cases a with
  | startRefresh q =>
    obtain ⟨-, hu⟩ := Option.ite_none_left_eq_some.1 h
    obtain rfl := Option.some.inj hu
    refine hstart _ (fun stored hstored => ?_) hr'
    unfold refreshReads at hstored
    split at hstored
    · split at hstored <;> cases hstored
    next token hactive =>
      have hp := List.find?_some hactive
      simp only [decide_eq_true_eq] at hp
      have hsame : stored = token := by
        split at hstored
        · cases hstored
        · split at hstored
          · exact (Option.some.inj hstored).symm
          · cases hstored
      rw [hsame]
      exact ⟨List.mem_of_find?_eq_some hactive, hp.2.1⟩
  | startLogout userId token now =>
    obtain ⟨stored, -, rfl⟩ := Option.map_eq_some_iff.1 h
    exact hstart _ (fun _ hnone => by cases hnone) hr'
  | finish id =>
    obtain ⟨r, -, rfl⟩ := Option.map_eq_some_iff.1 h
    exact .inl ⟨r', List.mem_of_mem_filter hr', rfl, fun hcut => hcut⟩
  | revokeAll userId now change =>
    obtain rfl := Option.some.inj h
    obtain ⟨r, hr, rfl⟩ := List.mem_map.1 hr'
    exact .inl ⟨r, hr, rfl, fun hcut => by simp [Running.mark, hcut]⟩
  | login token =>
    obtain ⟨db, -, rfl⟩ := Option.map_eq_some_iff.1 h
    exact .inl ⟨r', hr', rfl, fun hcut => hcut⟩

/-! ## The chains of tokens -/

structure Chained (t : State) : Prop where
  keys : (t.db.tokens.map (·.id)).Nodup
  once : (t.rotations.map (·.1)).Nodup
  known : ∀ p ∈ t.rotations, ∃ a ∈ t.db.tokens, ∃ b ∈ t.db.tokens,
    a.id = p.1 ∧ b.id = p.2 ∧ a.userId = b.userId ∧ a.replacedById ≠ none
  calls : ∀ r ∈ t.running, ∀ stored, r.call.rotates = some stored →
    ∃ row ∈ t.db.tokens, row.id = stored.id ∧ row.userId = stored.userId

theorem Chained.ids {t : State} (h : Chained t) {p : Uuid × Uuid} (hp : p ∈ t.rotations) :
    p.1 ∈ t.db.tokens.map (·.id) ∧ p.2 ∈ t.db.tokens.map (·.id) := by
  obtain ⟨a, ha, b, hb, hid, hid', -⟩ := h.known p hp
  exact ⟨List.mem_map.2 ⟨a, ha, hid⟩, List.mem_map.2 ⟨b, hb, hid'⟩⟩

theorem chained_step {t u : State} {a : Action} (h : Chained t) (hG : Untouched t a)
    (hstep : step s t a = some u) : Chained u := by
  have hlater := step_later hstep
  have hkept : ∀ p ∈ t.rotations, ∃ a ∈ u.db.tokens, ∃ b ∈ u.db.tokens,
      a.id = p.1 ∧ b.id = p.2 ∧ a.userId = b.userId ∧ a.replacedById ≠ none := by
    intro p hp
    obtain ⟨a, ha, b, hb, hid, hid', huser, hreplaced⟩ := h.known p hp
    obtain ⟨a', ha', hla⟩ := hlater.keeps a ha
    obtain ⟨b', hb', hlb⟩ := hlater.keeps b hb
    exact ⟨a', ha', b', hb', hla.key.trans hid, hlb.key.trans hid',
      hla.user.trans (huser.trans hlb.user.symm), hla.replaced hreplaced⟩
  have hcalls : ∀ r ∈ u.running, ∀ stored, r.call.rotates = some stored →
      ∃ row ∈ u.db.tokens, row.id = stored.id ∧ row.userId = stored.userId := by
    intro r hr stored hstored
    have hread : ∃ row ∈ t.db.tokens, row.id = stored.id ∧ row.userId = stored.userId := by
      rcases step_running hstep hr with ⟨r₀, hr₀, hcall, -⟩ | hread
      · exact h.calls r₀ hr₀ stored (hcall ▸ hstored)
      · exact ⟨stored, (hread stored hstored).1, rfl, rfl⟩
    obtain ⟨row, hrow, hid, huser⟩ := hread
    obtain ⟨row', hrow', hlrow⟩ := hlater.keeps row hrow
    exact ⟨row', hrow', hlrow.key.trans hid, hlrow.user.trans huser⟩
  rcases step_rotations hstep with hsame | ⟨id, r, stored, new, rfl, hr, hcall, hnew, hrotated⟩
  · exact ⟨hlater.nodup h.keys, hsame ▸ h.once, fun p hp => hkept p (hsame ▸ hp), hcalls⟩
  · obtain ⟨old, hold, hid, huser⟩ := h.calls r (List.mem_of_find?_eq_some hr) stored hcall
    refine ⟨hlater.nodup h.keys, ?_, ?_, hcalls⟩
    · -- the row of the token is not linked yet
      rw [hnew, List.map_append]
      refine h.once.append (List.nodup_singleton _) fun key hkey hkey' => ?_
      obtain ⟨p, hp, rfl⟩ := List.mem_map.1 hkey
      obtain ⟨a, ha, -, -, hpa, -, -, hreplaced⟩ := h.known p hp
      exact hreplaced ((hG r stored hr hcall).2 a ha (hpa.trans (List.mem_singleton.1 hkey')))
    · intro p hp
      rw [hnew] at hp
      rcases List.mem_append.1 hp with hp | hp
      · exact hkept p hp
      · rw [List.mem_singleton.1 hp]
        obtain ⟨old', hold', hlold⟩ := hrotated.later.keeps old hold
        obtain ⟨row, hrow, hrowid⟩ := hrotated.successor
        have hkey : old'.id = stored.id := hlold.key.trans hid
        have hne : old'.id ≠ new := fun heq =>
          hrotated.fresh (List.mem_map.2 ⟨old, hold, hid.trans (hkey.symm.trans heq)⟩)
        exact ⟨old', hold', row, hrow, hkey, hrowid,
          (hlold.user.trans huser).trans (hrotated.user row hrow hrowid).symm,
          hrotated.linked old' hold' hkey hne⟩

theorem chained : (machine s).Invariant Untouched Chained where
  init t ht := by
    obtain ⟨hkeys, hrunning, hrotations⟩ := ht
    refine ⟨hkeys, ?_, ?_, ?_⟩
    · rw [hrotations]
      exact List.nodup_nil
    · rw [hrotations]
      exact fun p hp => absurd hp List.not_mem_nil
    · rw [hrunning]
      exact fun r hr => absurd hr List.not_mem_nil
  step _ _ _ h hG hstep := chained_step h hG hstep

/-! ## After all tokens have been revoked -/

structure Closed (old : List Uuid) (userId : Uuid) (t : State) : Prop where
  known : ∀ id ∈ old, id ∈ t.db.tokens.map (·.id)
  revoked : ∀ row ∈ t.db.tokens, row.id ∈ old → row.userId = userId → row.revokedAt ≠ none
  cut : ∀ r ∈ t.running, ∀ stored, r.call.rotates = some stored → stored.userId = userId →
    stored.id ∈ old → r.cut = true
  chain : ∀ p ∈ t.rotations, ∀ row ∈ t.db.tokens, row.id = p.2 → row.userId = userId →
    p.1 ∈ old → p.2 ∈ old

theorem closed_step {t u : State} {a : Action} {old : List Uuid} {userId : Uuid} (hc : Chained t)
    (h : Closed old userId t) (hG : Untouched t a) (hstep : step s t a = some u) :
    Closed old userId u := by
  have hlater := step_later hstep
  have hchain : ∀ p ∈ t.rotations, ∀ row ∈ u.db.tokens, row.id = p.2 → row.userId = userId →
      p.1 ∈ old → p.2 ∈ old := by
    intro p hp row hrow hid huser hold
    rcases hlater.origin row hrow with ⟨row₀, hrow₀, hlrow⟩ | hfresh
    · exact h.chain p hp row₀ hrow₀ (hlrow.key.symm.trans hid) (hlrow.user.symm.trans huser) hold
    · exact absurd (hid ▸ (hc.ids hp).2) hfresh
  refine ⟨fun id hid => ?_, fun row hrow hid huser => ?_, fun r hr stored hcall huser hold => ?_, ?_⟩
  · obtain ⟨row, hrow, rfl⟩ := List.mem_map.1 (h.known id hid)
    obtain ⟨row', hrow', hlrow⟩ := hlater.keeps row hrow
    exact List.mem_map.2 ⟨row', hrow', hlrow.key⟩
  · rcases hlater.origin row hrow with ⟨row₀, hrow₀, hlrow⟩ | hfresh
    · exact hlrow.revoked (h.revoked row₀ hrow₀ (hlrow.key ▸ hid) (hlrow.user.symm.trans huser))
    · exact absurd (h.known row.id hid) hfresh
  · rcases step_running hstep hr with ⟨r₀, hr₀, hsame, hcut⟩ | hread
    · exact hcut (h.cut r₀ hr₀ stored (hsame ▸ hcall) huser hold)
    · -- what has just been read is not revoked
      obtain ⟨hmem, hactive⟩ := hread stored hcall
      exact absurd hactive (h.revoked stored hmem hold huser)
  · rcases step_rotations hstep with hsame | ⟨id, r, stored, new, rfl, hr, hcall, hnew, hrotated⟩
    · exact fun p hp => hchain p (hsame ▸ hp)
    · intro p hp row hrow hid huser hold
      rw [hnew] at hp
      rcases List.mem_append.1 hp with hp | hp
      · exact hchain p hp row hrow hid huser hold
      · -- the call has been cut, and does not commit
        obtain rfl := List.mem_singleton.1 hp
        have hcut := h.cut r (List.mem_of_find?_eq_some hr) stored hcall
          ((hrotated.user row hrow hid).symm.trans huser) hold
        exact absurd (hG r stored hr hcall).1 (by simp [hcut])

theorem closed_revokeAll {t u : State} {userId : Uuid} {now : Timestamp} {change : User → User}
    (hc : Chained t) (hstep : step s t (.revokeAll userId now change) = some u) :
    Closed (t.db.tokens.map (·.id)) userId u := by
  obtain rfl := Option.some.inj hstep
  refine ⟨fun id hid => ?_, fun row hrow _ huser => ?_, fun r hr stored hcall huser _ => ?_,
    fun p hp _ _ _ _ _ => (hc.ids hp).2⟩
  · obtain ⟨row, hrow, rfl⟩ := List.mem_map.1 hid
    obtain ⟨row', hrow', hlrow⟩ := (later_revokeAll t.db userId now change).keeps row hrow
    exact List.mem_map.2 ⟨row', hrow', hlrow.key⟩
  · obtain ⟨row₀, -, rfl⟩ := List.mem_map.1 hrow
    by_cases hopen : row₀.userId = userId ∧ row₀.revokedAt = none
    · simp [hopen]
    · rw [if_neg hopen] at huser ⊢
      exact fun hactive => hopen ⟨huser, hactive⟩
  · obtain ⟨r₀, -, rfl⟩ := List.mem_map.1 hr
    have hcall₀ : r₀.call.rotates = some stored := hcall
    simp [Running.mark, hcall₀, huser]

theorem Closed.descends {t : State} {old : List Uuid} {userId : Uuid} (hc : Chained t)
    (h : Closed old userId t) {id : Uuid} (hd : Descends old t.rotations id) :
    (∃ row ∈ t.db.tokens, row.id = id ∧ row.userId = userId) → id ∈ old := by
  induction hd with
  | here hold => exact fun _ => hold
  | rotated _ hr ih =>
    intro ⟨row, hrow, hid, huser⟩
    obtain ⟨a, ha, b, hb, hida, hidb, hsame, -⟩ := hc.known _ hr
    obtain rfl : row = b := Keyed.inj hc.keys hrow hb (hid.trans hidb.symm)
    exact h.chain _ hr row hrow hid huser (ih ⟨a, ha, hida, hsame.trans huser⟩)

/-- **A refresh token is spent once as long as no refresh commits after its token has been replaced
or all tokens of its user have been revoked.** -/
theorem spent_once (s : Security) : SpentOnce s Untouched where
  once t ht := (chained.reach ht).once
  final t u v userId now change ht hstep hrun _ := by
    have hct := chained.reach ht
    have hguard : Untouched t (.revokeAll userId now change) := trivial
    have hcu : Chained u := chained_step hct hguard hstep
    have hcv : Chained v := hrun.preserves chained.step hcu
    have hclosed : Closed (t.db.tokens.map (·.id)) userId v :=
      hrun.stable chained.step (fun _ _ _ hc h hG hst => closed_step hc h hG hst) hcu
        (closed_revokeAll hct hstep)
    intro token hmem huser hd
    exact hclosed.revoked token hmem (hclosed.descends hcv hd ⟨token, hmem, rfl, huser⟩) huser

/-! ## Two tabs -/

namespace Sample

/-- Tokens are their own digests. -/
def security : Security where
  citext := id
  lower := id
  verify password hash := password = hash
  needsRehash _ := false
  hashPassword := id
  hashToken := id
  refreshTokenExpireDays := 7

def signedIn : State where
  db := {
    users := [{ id := 1#128, email := "a@x", fullName := "A" }]
    tokens := [{ id := 5#128, userId := 1#128, tokenHash := "t", expiresAt := 100 }] }

def tab (tokenId : Uuid) (secret : String) : RefreshRequest where
  refreshToken := "t"
  info := { now := 5, secret, tokenId }

def twoTabs : List Action :=
  [.startRefresh (tab 6#128 "u"), .startRefresh (tab 7#128 "v"), .finish 0, .finish 1]

end Sample

open Sample

/-- Both tabs are answered with a successor of the same token. -/
theorem token_spent_twice : ¬ SpentOnce security Machine.anyStep := by
  intro h
  have hinit : (machine security).init signedIn := ⟨by decide, rfl, rfl⟩
  have hrun : ∃ t, (machine security).exec signedIn twoTabs = some t ∧
      t.rotations = [(5#128, 6#128), (5#128, 7#128)] := ⟨_, rfl, rfl⟩
  obtain ⟨t, hexec, hrotations⟩ := hrun
  have honce := h.once t (Machine.reach_of_exec hinit hexec)
  rw [hrotations] at honce
  exact absurd honce (by decide)

end Sessions

end Clear
