import Clear.Lib.Machine
import Clear.Services.Alerts
import Clear.Services.Proof.Alerts.Sweep

/-!
# The life cycle of an alert

Three writers share the rows of `alerts`: the sweep, operational events and the administration
screen. They keep one live alert for each key and the time stamps of every status exactly along the
runs in which no event is raised for a key that an acknowledged alert holds, and no alert that is
resolved or dismissed is opened or acknowledged again (`life_cycle_iff`).
-/

namespace Clear

namespace Alerts

namespace LifeCycle

/-! ## The three writers -/

/-- The other tables at the time of a sweep. `home` is the project of a contract or an obligation,
which never moves. -/
structure Estate (home : AlertType → Uuid → Uuid) where
  db : Database
  contracts : (db.contracts.map (·.id)).Nodup
  obligations : (db.obligations.map (·.id)).Nodup
  stays : ∀ t subject project, Subject db t subject project → project = home t subject

/-- The rows, and whether a request has been refused by `uq_alerts_open_dedupe`. -/
structure State where
  alerts : List Alert
  violated : Bool := false

inductive Action (home : AlertType → Uuid → Uuid) where
  | sweep (estate : Estate home) (clock : Clock) (ids : Nat → Uuid) (only : Option Uuid)
  /-- `alertId` is the key of a new row. -/
  | raiseEvent (iso : Isoformat) (alertId : Uuid) (now : Timestamp) (alertType : AlertType)
      (stored : Bool) (event : AlertEvent)
  /-- `projects` are those of the caller. -/
  | patch (alertId : Uuid) (payload : Admin.AlertUpdateRequest) (user : Uuid) (now : Timestamp)
      (projects : List Uuid)

def sweepRows (std : Stdlib) (clock : Clock) (ids : Nat → Uuid) (only : Option Uuid)
    (db : Database) : Except Raised (List Alert) :=
  let rules := loadRules db.rules
  if rules.isEmpty then .ok db.alerts
  else do
    let drafts ← collect std db rules clock.today only
    let _ ← dueObligations db rules clock.today only
    return (reconcile clock rules ids only db.alerts drafts).alerts

def State.flush (t : State) (rows : List Alert) : State :=
  if UniqueKeys rows then { t with alerts := rows }
  else { t with violated := t.violated || decide (¬ OpenKeysUnique rows) }

def State.attempt (t : State) : Except Raised (List Alert) → State
  | .ok rows => t.flush rows
  | .error _ => t

def patchRows (alertId : Uuid) (payload : Admin.AlertUpdateRequest) (user : Uuid)
    (now : Timestamp) (projects : List Uuid) (alerts : List Alert) : List Alert :=
  alerts.map fun a =>
    if a.id = alertId ∧ projects.contains a.projectId then Admin.updateAlert payload user now a
    else a

variable {home : AlertType → Uuid → Uuid}

def step (std : Stdlib) (t : State) : Action home → Option State
  | .sweep estate clock ids only =>
    some (t.attempt (sweepRows std clock ids only { estate.db with alerts := t.alerts }))
  | .raiseEvent iso alertId now alertType stored event =>
    if alertId ∈ t.alerts.map (·.id) then none
    else if stored = false then some t
    else
      match event.projectId with
      | none => some t
      | some project =>
        some (t.attempt (persistRows iso alertId project now alertType event t.alerts))
  | .patch alertId payload user now projects =>
    some (t.flush (patchRows alertId payload user now projects t.alerts))

def machine (std : Stdlib) : Machine State (Action home) where
  init t := t = { alerts := [] }
  step := step std

/-! ## What is promised -/

structure Stamped (a : Alert) : Prop where
  resolved : a.resolvedAt ≠ none ↔ a.status = .resolved ∨ a.status = .dismissed
  acknowledged : a.status = .acknowledged → a.acknowledgedAt ≠ none ∧ a.acknowledgedBy ≠ none

structure Kept (t : State) : Prop where
  admitted : t.violated = false
  single : ((t.alerts.filter (·.isLive)).map (·.dedupeKey)).Nodup
  stamped : ∀ a ∈ t.alerts, Stamped a

/-- No event is raised for a key that an acknowledged alert holds, or that is cut to the key of a
live one; no alert that is settled is opened or acknowledged again. -/
def Orderly (t : State) : Action home → Prop
  | .sweep .. => True
  | .raiseEvent _ _ _ _ stored event => stored = true → event.projectId ≠ none →
      ∀ a ∈ t.alerts, a.isLive = true → a.dedupeKey = Text.take 255 event.dedupeKey →
        a.status = .open ∧ event.dedupeKey.length ≤ 255
  | .patch alertId payload _ _ projects =>
    payload.status = .open ∨ payload.status = .acknowledged →
      ∀ a ∈ t.alerts, a.id = alertId → projects.contains a.projectId = true → a.isLive = true

/-! ## The invariant -/

/-- Rows as the writers leave them: one live alert for each key, stamped, with keys that fit their
column and say what they are about. -/
structure Consistent (home : AlertType → Uuid → Uuid) (alerts : List Alert) : Prop where
  single : ((alerts.filter (·.isLive)).map (·.dedupeKey)).Nodup
  stamped : ∀ a ∈ alerts, Stamped a
  fits : ∀ a ∈ alerts, a.dedupeKey.length ≤ 255
  filed : ∀ a ∈ alerts, ∀ kind subject, KeyOf kind subject a.dedupeKey →
    a.alertType = kind ∧ a.projectId = home kind subject

structure Inv (home : AlertType → Uuid → Uuid) (t : State) : Prop where
  admitted : t.violated = false
  ids : (t.alerts.map (·.id)).Nodup
  rows : Consistent home t.alerts

theorem Inv.kept {t : State} (h : Inv home t) : Kept t :=
  ⟨h.admitted, h.rows.single, h.rows.stamped⟩

theorem live_of_open {a : Alert} (h : a.status = .open) : a.isLive = true := by
  unfold Alert.isLive
  rw [h]
  rfl

theorem live_iff {a : Alert} : a.isLive = true ↔ a.status = .open ∨ a.status = .acknowledged := by
  unfold Alert.isLive
  simp

theorem Consistent.openKeys {alerts : List Alert} (h : Consistent home alerts) :
    OpenKeysUnique alerts := by
  refine h.single.sublist (List.Sublist.map _ ?_)
  exact List.monotone_filter_right _ fun a ha => live_of_open (of_decide_eq_true ha)

theorem Inv.flush {t : State} (h : Inv home t) {rows : List Alert} (hrows : Consistent home rows) :
    Inv home (t.flush rows) := by
  unfold State.flush
  split
  next hunique => exact ⟨h.admitted, hunique.1, hrows⟩
  · refine ⟨?_, h.ids, h.rows⟩
    simp [h.admitted, hrows.openKeys]

theorem flush_refused {t : State} {rows : List Alert} (h : ¬ OpenKeysUnique rows) :
    ¬ Kept (t.flush rows) := by
  have hnot : ¬ UniqueKeys rows := fun hunique => h hunique.2
  intro hkept
  have := hkept.admitted
  unfold State.flush at this
  rw [if_neg hnot] at this
  simp [h] at this

theorem Consistent.map {alerts : List Alert} (h : Consistent home alerts) {f : Alert → Alert}
    (hkey : ∀ a, (f a).dedupeKey = a.dedupeKey) (htype : ∀ a, (f a).alertType = a.alertType)
    (hproject : ∀ a, (f a).projectId = a.projectId)
    (hlive : ∀ a ∈ alerts, (f a).isLive = true → a.isLive = true)
    (hstamped : ∀ a ∈ alerts, Stamped (f a)) : Consistent home (alerts.map f) where
  single := h.single.sublist (Keyed.filter_update_sublist_of_mem hkey hlive)
  stamped := by
    intro a ha
    obtain ⟨b, hb, rfl⟩ := List.mem_map.1 ha
    exact hstamped b hb
  fits := by
    intro a ha
    obtain ⟨b, hb, rfl⟩ := List.mem_map.1 ha
    rw [hkey]
    exact h.fits b hb
  filed := by
    intro a ha kind subject hof
    obtain ⟨b, hb, rfl⟩ := List.mem_map.1 ha
    rw [hkey] at hof
    rw [htype, hproject]
    exact h.filed b hb kind subject hof

/-! ## Sweeps -/

theorem Stamped.refresh {a : Alert} (h : Stamped a) (clock : Clock) (d : AlertDraft) :
    Stamped (refresh clock d a) := ⟨h.resolved, h.acknowledged⟩

theorem Stamped.escalate {a : Alert} (h : Stamped a) (clock : Clock) :
    Stamped (escalate clock a) := ⟨h.resolved, h.acknowledged⟩

theorem stamped_retire (clock : Clock) (a : Alert) : Stamped (retire clock a) := by
  refine ⟨?_, fun hack => ?_⟩
  · simp [retire]
  · simp [retire] at hack

theorem Stamped.settle {a : Alert} (h : Stamped a) (clock : Clock) (rules : Rules)
    (drafts : List AlertDraft) : Stamped (settle clock rules drafts a) := by
  have hrefreshed : Stamped (refreshed clock drafts a) := by
    unfold refreshed Upsert.row
    split
    · exact h.refresh clock _
    · exact h
  have hkept : Stamped (kept clock rules drafts a) := by
    unfold kept
    split
    · exact stamped_retire clock _
    · exact hrefreshed
  unfold Alerts.settle
  split
  · exact hkept.escalate clock
  · exact hkept

theorem stamped_open {a : Alert} (hstatus : a.status = .open) (hresolved : a.resolvedAt = none) :
    Stamped a := by
  refine ⟨?_, fun hack => ?_⟩
  · simp [hstatus, hresolved]
  · rw [hstatus] at hack
    cases hack

section

variable {std : Stdlib} {clock : Clock} {ids : Nat → Uuid} {only : Option Uuid}
variable {alerts : List Alert} (estate : Estate home)

theorem Estate.sound (hids : (alerts.map (·.id)).Nodup) (h : Consistent home alerts) :
    Sound { estate.db with alerts } where
  contracts := estate.contracts
  obligations := estate.obligations
  alerts := hids
  keys := h.single
  filed := by
    intro a ha _ kind subject project hsubject hof
    obtain ⟨htype, hproject⟩ := h.filed a ha kind subject hof
    exact ⟨htype, hproject.trans (estate.stays kind subject project hsubject).symm⟩

theorem Consistent.sweep (hiso : ∀ day, (std.isoformat day).length = 10)
    (hids : (alerts.map (·.id)).Nodup) (h : Consistent home alerts) {rows : List Alert}
    (hrows : sweepRows std clock ids only { estate.db with alerts } = .ok rows) :
    Consistent home rows := by
  unfold sweepRows at hrows
  dsimp only at hrows
  split at hrows
  · cases hrows
    exact h
  · obtain ⟨drafts, hcollect, hrows⟩ := Except.bind_eq_ok.1 hrows
    obtain ⟨due, -, hrows⟩ := Except.bind_eq_ok.1 hrows
    have hsound := estate.sound hids h
    have hafter : rows = after clock (loadRules estate.db.rules) ids only alerts drafts := by
      rw [← Except.pure_eq_ok.1 hrows]
      exact reconcile_alerts hids (swept_keys hsound) (drafts_nodup hsound hcollect)
    subst hafter
    have hcases : ∀ a ∈ after clock (loadRules estate.db.rules) ids only alerts drafts,
        (∃ b ∈ alerts, Stamped a ∧ SameAlert a b) ∨
        ∃ d ∈ drafts, ∃ id, a = toRow clock (loadRules estate.db.rules) id d := by
      intro a ha
      have ha' : a ∈ after clock (loadRules estate.db.rules) ids only
          (Database.alerts { estate.db with alerts }) drafts := ha
      rcases mem_after ha' with ⟨b, hb, -, rfl⟩ | ⟨ha, -⟩ | ⟨d, hd, id, -, rfl⟩
      · exact .inl ⟨b, hb, (h.stamped b hb).settle clock _ drafts, settle_same b⟩
      · exact .inl ⟨a, ha, h.stamped a ha, .refl a⟩
      · exact .inr ⟨d, hd, id, rfl⟩
    refine ⟨after_keys hiso hsound hcollect, fun a ha => ?_, fun a ha => ?_,
      fun a ha kind subject hof => ?_⟩
    · rcases hcases a ha with ⟨b, -, hstamped, -⟩ | ⟨d, -, id, rfl⟩
      · exact hstamped
      · exact stamped_open rfl rfl
    · rcases hcases a ha with ⟨b, hb, -, hsame⟩ | ⟨d, -, id, rfl⟩
      · rw [hsame.dedupeKey]
        exact h.fits b hb
      · exact Text.length_take_le 255 _
    · rcases hcases a ha with ⟨b, hb, -, hsame⟩ | ⟨d, hd, id, rfl⟩
      · rw [hsame.dedupeKey] at hof
        rw [hsame.alertType, hsame.projectId]
        exact h.filed b hb kind subject hof
      · obtain ⟨subject', habout, hsubject, -⟩ := ((mem_collect hcollect).1 hd).about
        rw [toRow_key hiso hcollect hd id] at hof
        obtain ⟨rfl, rfl⟩ := habout.key.inj hof
        exact ⟨rfl, estate.stays _ _ _ hsubject⟩

end

/-! ## Events -/

theorem colon_not_mem_category (category : AlertCategory) : ':' ∉ category.value.toList := by
  cases category <;> decide

theorem category_ne_keyStart (category : AlertCategory) (kind : AlertType) :
    keyStart kind ≠ category.value.toList := by
  cases category <;> cases kind <;> decide

theorem take_append_cons {n : Nat} {sep : Char} {start rest : List Char} (h : start.length < n) :
    (start ++ sep :: rest).take n = start ++ sep :: rest.take (n - start.length - 1) := by
  rw [List.take_append, List.take_of_length_le (by omega), List.take_cons (by omega)]

theorem dedupeKey_toList (event : AlertEvent) :
    ∃ rest, event.dedupeKey.toList = event.category.value.toList ++ ':' :: rest := by
  refine ⟨(event.subject ++ ":" ++ (event.stage.filter (· ≠ "")).getD "-").toList, ?_⟩
  have hone : (":" : String).toList = [':'] := rfl
  unfold AlertEvent.dedupeKey
  simp [String.toList_append, hone]

theorem category_length (category : AlertCategory) : category.value.toList.length < 255 := by
  cases category <;> decide

theorem not_keyOf_event (event : AlertEvent) (kind : AlertType) (subject : Uuid) :
    ¬ KeyOf kind subject (Text.take 255 event.dedupeKey) := by
  rintro ⟨rest, hrest⟩
  obtain ⟨tail, htail⟩ := dedupeKey_toList event
  unfold Text.take at hrest
  rw [String.toList_ofList, htail, take_append_cons (category_length event.category),
    List.append_assoc] at hrest
  have hstart := (append_cons_inj (colon_not_mem_category event.category)
    (colon_not_mem_keyStart kind) hrest).1
  exact category_ne_keyStart event.category kind hstart.symm

theorem Stamped.repeated {a : Alert} (h : Stamped a) (iso : Isoformat) (event : AlertEvent)
    (count : Int) : Stamped (repeated iso event count a) := ⟨h.resolved, h.acknowledged⟩

section

variable {iso : Isoformat} {alertId project : Uuid} {now : Timestamp} {alertType : AlertType}
variable {event : AlertEvent} {alerts rows : List Alert}

theorem persistRows_cases
    (h : persistRows iso alertId project now alertType event alerts = .ok rows) :
    (∃ f : Alert → Alert, rows = alerts.map f ∧ ∀ a, f a = a ∨
      ∃ count, f a = repeated iso event count a) ∨
    (rows = alerts ++ [eventRow iso alertId project now alertType event] ∧
      ∀ a ∈ alerts, a.dedupeKey = event.dedupeKey → a.status ≠ .open) := by
  unfold persistRows at h
  split at h
  next existing _ =>
    split at h
    · cases h
    next count _ =>
      cases h
      refine .inl ⟨_, rfl, fun a => ?_⟩
      split
      · exact .inr ⟨count, rfl⟩
      · exact .inl rfl
  next hnone =>
    cases h
    refine .inr ⟨rfl, fun a ha hkey hopen => ?_⟩
    simpa [hkey, hopen] using List.find?_eq_none.1 hnone a ha

theorem Consistent.insert (h : Consistent home alerts)
    (hkey : ∀ a ∈ alerts, a.isLive = true → a.dedupeKey ≠ Text.take 255 event.dedupeKey) :
    Consistent home (alerts ++ [eventRow iso alertId project now alertType event]) where
  single := by
    have hrow : [eventRow iso alertId project now alertType event].filter (·.isLive) =
        [eventRow iso alertId project now alertType event] := rfl
    rw [List.filter_append, hrow]
    refine Keyed.concat h.single fun hmem => ?_
    obtain ⟨a, ha, heq⟩ := List.mem_map.1 hmem
    exact hkey a (List.mem_filter.1 ha).1 (List.mem_filter.1 ha).2 heq
  stamped a ha := by
    rcases List.mem_append.1 ha with ha | ha
    · exact h.stamped a ha
    · rw [List.mem_singleton.1 ha]
      exact stamped_open rfl rfl
  fits a ha := by
    rcases List.mem_append.1 ha with ha | ha
    · exact h.fits a ha
    · rw [List.mem_singleton.1 ha]
      exact Text.length_take_le 255 _
  filed a ha kind subject hof := by
    rcases List.mem_append.1 ha with ha | ha
    · exact h.filed a ha kind subject hof
    · rw [List.mem_singleton.1 ha] at hof
      exact absurd hof (not_keyOf_event event kind subject)

theorem Consistent.raised (h : Consistent home alerts)
    (hG : ∀ a ∈ alerts, a.isLive = true → a.dedupeKey = Text.take 255 event.dedupeKey →
      a.status = .open ∧ event.dedupeKey.length ≤ 255)
    (hrows : persistRows iso alertId project now alertType event alerts = .ok rows) :
    Consistent home rows := by
  rcases persistRows_cases hrows with ⟨f, rfl, hf⟩ | ⟨rfl, hnone⟩
  · have hsame : ∀ a, SameAlert (f a) a ∧ (f a).status = a.status := by
      intro a
      rcases hf a with heq | ⟨count, heq⟩
      · rw [heq]
        exact ⟨.refl a, rfl⟩
      · rw [heq]
        exact ⟨⟨rfl, rfl, rfl, rfl, rfl, rfl, rfl, rfl⟩, rfl⟩
    refine h.map (fun a => (hsame a).1.dedupeKey) (fun a => (hsame a).1.alertType)
      (fun a => (hsame a).1.projectId) (fun a _ hlive => ?_) fun a ha => ?_
    · unfold Alert.isLive at hlive ⊢
      rwa [(hsame a).2] at hlive
    · rcases hf a with heq | ⟨count, heq⟩
      · rw [heq]
        exact h.stamped a ha
      · rw [heq]
        exact (h.stamped a ha).repeated iso event count
  · refine h.insert fun a ha hlive hkey => ?_
    obtain ⟨hopen, hlen⟩ := hG a ha hlive hkey
    rw [Text.take_of_length_le hlen] at hkey
    exact hnone a ha hkey hopen

end

/-! ## Requests of the administration screen -/

section

variable {alertId user : Uuid} {payload : Admin.AlertUpdateRequest} {now : Timestamp}
variable {projects : List Uuid} {alerts : List Alert}

theorem updateAlert_same (a : Alert) :
    (Admin.updateAlert payload user now a).id = a.id ∧
    (Admin.updateAlert payload user now a).dedupeKey = a.dedupeKey ∧
    (Admin.updateAlert payload user now a).alertType = a.alertType ∧
    (Admin.updateAlert payload user now a).projectId = a.projectId ∧
    (Admin.updateAlert payload user now a).status = payload.status := by
  unfold Admin.updateAlert
  dsimp only
  split <;> exact ⟨rfl, rfl, rfl, rfl, rfl⟩

theorem Stamped.updateAlert {a : Alert} (h : Stamped a)
    (hlive : payload.status = .open ∨ payload.status = .acknowledged → a.isLive = true) :
    Stamped (Admin.updateAlert payload user now a) := by
  have hunresolved : a.isLive = true → a.resolvedAt = none := by
    intro hl
    by_contra hset
    rcases live_iff.1 hl with hs | hs <;> rcases h.resolved.1 hset with hr | hr <;>
      simp [hs] at hr
  unfold Admin.updateAlert
  dsimp only
  split
  next hs =>
    refine ⟨?_, fun _ => ⟨by simp, by simp⟩⟩
    simp [hs, hunresolved (hlive (.inr hs))]
  next hs => exact ⟨by simp [hs], fun hack => by simp [hs] at hack⟩
  next hs => exact ⟨by simp [hs], fun hack => by simp [hs] at hack⟩
  next hs => exact stamped_open hs (hunresolved (hlive (.inl hs)))

theorem Consistent.patch (h : Consistent home alerts)
    (hG : payload.status = .open ∨ payload.status = .acknowledged →
      ∀ a ∈ alerts, a.id = alertId → projects.contains a.projectId = true → a.isLive = true) :
    Consistent home (patchRows alertId payload user now projects alerts) := by
  refine h.map (fun a => ?_) (fun a => ?_) (fun a => ?_) (fun a ha hlive => ?_) fun a ha => ?_
  · split
    · exact (updateAlert_same a).2.1
    · rfl
  · split
    · exact (updateAlert_same a).2.2.1
    · rfl
  · split
    · exact (updateAlert_same a).2.2.2.1
    · rfl
  · split at hlive
    next hmine =>
      rw [live_iff, (updateAlert_same a).2.2.2.2] at hlive
      exact hG hlive a ha hmine.1 hmine.2
    · exact hlive
  · split
    next hmine => exact (h.stamped a ha).updateAlert fun hs => hG hs a ha hmine.1 hmine.2
    · exact h.stamped a ha

theorem not_stamped_updateAlert {a : Alert} (h : Stamped a) (hdead : a.isLive = false)
    (hs : payload.status = .open ∨ payload.status = .acknowledged) :
    ¬ Stamped (Admin.updateAlert payload user now a) := by
  have hset : a.resolvedAt ≠ none := by
    refine h.resolved.2 ?_
    unfold Alert.isLive at hdead
    revert hdead
    cases a.status <;> simp
  have hkept : (Admin.updateAlert payload user now a).resolvedAt = a.resolvedAt := by
    unfold Admin.updateAlert
    rcases hs with hs | hs <;> rw [hs]
  intro hstamped
  have hstatus := hstamped.resolved.1 (by rwa [hkept])
  rw [(updateAlert_same a).2.2.2.2] at hstatus
  rcases hs with hs | hs <;> simp [hs] at hstatus

end

/-! ## Steps -/

section

variable {std : Stdlib} {t u : State} {a : Action home}

theorem Inv.attempt (h : Inv home t) {result : Except Raised (List Alert)}
    (hrows : ∀ rows, result = .ok rows → Consistent home rows) : Inv home (t.attempt result) := by
  cases result with
  | error e => exact h
  | ok rows => exact h.flush (hrows rows rfl)

theorem inv_step (hiso : ∀ day, (std.isoformat day).length = 10) (h : Inv home t)
    (hG : Orderly t a) (hstep : step std t a = some u) : Inv home u := by
  cases a with
  | sweep estate clock ids only =>
    obtain rfl := Option.some.inj hstep
    exact h.attempt fun rows hrows => h.rows.sweep estate hiso h.ids hrows
  | raiseEvent iso alertId now alertType stored event =>
    unfold step at hstep
    dsimp only at hstep
    split at hstep
    · cases hstep
    split at hstep
    · cases hstep
      exact h
    next hstored =>
      cases hproject : event.projectId with
      | none =>
        rw [hproject] at hstep
        cases hstep
        exact h
      | some project =>
        rw [hproject] at hstep
        cases hstep
        refine h.attempt fun rows hrows => h.rows.raised ?_ hrows
        exact hG (by simpa using hstored) (by simp [hproject])
  | patch alertId payload user now projects =>
    obtain rfl := Option.some.inj hstep
    exact h.flush (h.rows.patch hG)

theorem broken_step (h : Inv home t) (hG : ¬ Orderly t a) (hstep : step std t a = some u) :
    ¬ Kept u := by
  cases a with
  | sweep estate clock ids only => exact absurd trivial hG
  | raiseEvent iso alertId now alertType stored event =>
    unfold Orderly at hG
    push Not at hG
    obtain ⟨hstored, hsome, b, hb, hlive, hkey, hnot⟩ := hG
    obtain ⟨project, hproject⟩ := Option.ne_none_iff_exists'.1 hsome
    unfold step at hstep
    dsimp only at hstep
    split at hstep
    · cases hstep
    next hfresh =>
      rw [if_neg (by simp [hstored]), hproject] at hstep
      cases hstep
      -- no alert with the whole key is open, so a row is inserted
      have hnone : ∀ c ∈ t.alerts, c.dedupeKey = event.dedupeKey → c.status ≠ .open := by
        intro c hc hckey hopen
        have hlen : event.dedupeKey.length ≤ 255 := by
          rw [← hckey]
          exact h.rows.fits c hc
        rw [Text.take_of_length_le hlen, ← hckey] at hkey
        have hsame : b = c := List.inj_on_of_nodup_map h.rows.single
          (List.mem_filter.2 ⟨hb, hlive⟩) (List.mem_filter.2 ⟨hc, live_of_open hopen⟩) hkey
        rw [hsame] at hnot
        exact absurd hlen (by simpa using hnot hopen)
      have hrows : persistRows iso alertId project now alertType event t.alerts =
          .ok (t.alerts ++ [eventRow iso alertId project now alertType event]) := by
        unfold persistRows
        have hfind : (t.alerts.find? fun c => c.dedupeKey = event.dedupeKey ∧ c.status = .open) =
            none := by
          rw [List.find?_eq_none]
          intro c hc hboth
          simp only [decide_eq_true_eq] at hboth
          exact hnone c hc hboth.1 hboth.2
        rw [hfind]
      rw [hrows]
      intro hkept
      -- the row is live, next to the one that holds its key
      have htwice : ¬ (((t.alerts ++ [eventRow iso alertId project now alertType event]).filter
          (·.isLive)).map (·.dedupeKey)).Nodup := by
        rw [List.filter_append, List.map_append]
        intro hnodup
        exact (List.nodup_append.1 hnodup).2.2 b.dedupeKey
          (List.mem_map.2 ⟨b, List.mem_filter.2 ⟨hb, hlive⟩, rfl⟩) _
          (List.mem_map.2 ⟨_, List.mem_filter.2 ⟨List.mem_singleton.2 rfl, rfl⟩, rfl⟩) hkey
      have hcases : (t.attempt (.ok (t.alerts ++
          [eventRow iso alertId project now alertType event]))).alerts =
            t.alerts ++ [eventRow iso alertId project now alertType event] := by
        by_contra hrefused
        have hopen : ¬ UniqueKeys (t.alerts ++
            [eventRow iso alertId project now alertType event]) := by
          intro hunique
          refine hrefused ?_
          show (t.flush _).alerts = _
          unfold State.flush
          rw [if_pos hunique]
        have hids : ((t.alerts ++ [eventRow iso alertId project now alertType event]).map
            (·.id)).Nodup := Keyed.concat h.ids hfresh
        exact flush_refused (fun hkeys => hopen ⟨hids, hkeys⟩) hkept
      have := hkept.single
      rw [hcases] at this
      exact htwice this
  | patch alertId payload user now projects =>
    unfold Orderly at hG
    push Not at hG
    obtain ⟨hstatus, b, hb, hid, hproject, hdead⟩ := hG
    obtain rfl := Option.some.inj hstep
    have hdead' : b.isLive = false := by simpa using hdead
    intro hkept
    by_cases hopen : OpenKeysUnique (patchRows alertId payload user now projects t.alerts)
    · have hids : ((patchRows alertId payload user now projects t.alerts).map (·.id)).Nodup := by
        unfold patchRows
        refine Keyed.update h.ids fun c => ?_
        split
        · exact (updateAlert_same c).1
        · rfl
      have hflush : (t.flush (patchRows alertId payload user now projects t.alerts)).alerts =
          patchRows alertId payload user now projects t.alerts := by
        unfold State.flush
        rw [if_pos ⟨hids, hopen⟩]
      refine not_stamped_updateAlert (h.rows.stamped b hb) hdead' hstatus (hkept.stamped
        (Admin.updateAlert payload user now b) ?_)
      rw [hflush]
      refine List.mem_map.2 ⟨b, hb, ?_⟩
      rw [if_pos ⟨hid, hproject⟩]
    · exact flush_refused hopen hkept

end

/-- **Alerts keep their life cycle exactly along the runs whose steps are all orderly.** -/
theorem life_cycle_iff (std : Stdlib) (hiso : ∀ day, (std.isoformat day).length = 10)
    (home : AlertType → Uuid → Uuid) (actions : List (Action home)) :
    (machine std).Along Kept { alerts := [] } actions ↔
      (machine std).Meets Orderly { alerts := [] } actions := by
  refine Machine.along_iff_meets (I := Inv home) (fun _ h => h.kept)
    (fun _ _ _ h hG hstep => inv_step hiso h hG hstep)
    (fun _ _ _ h hG hstep => broken_step h hG hstep) ⟨rfl, List.nodup_nil, ?_⟩
  exact ⟨List.nodup_nil, fun _ ha => absurd ha List.not_mem_nil,
    fun _ ha => absurd ha List.not_mem_nil, fun _ ha => absurd ha List.not_mem_nil⟩

/-! ## A condition that is acknowledged and comes back -/

namespace Sample

def dated : Stdlib := { Stdlib.ascii with isoformat := fun _ => "2025-12-01" }

def crash : AlertEvent where
  level := .critical
  category := .workerCrash
  title := "worker crashed"
  message := "out of memory"
  timestamp := 5
  projectId := some 3#128

def comesBack : List (Action fun _ _ => 3#128) :=
  [.raiseEvent (fun _ => "") 7#128 5 .processingFailed true crash,
    .patch 7#128 { status := .acknowledged } 1#128 6 [3#128],
    .raiseEvent (fun _ => "") 8#128 9 .processingFailed true crash]

end Sample

theorem life_cycle_iff_sample :
    (∀ day, (Sample.dated.isoformat day).length = 10) ∧
    ((machine Sample.dated).Along Kept { alerts := [] } Sample.comesBack ↔
      (machine Sample.dated).Meets Orderly { alerts := [] } Sample.comesBack) :=
  have hiso : ∀ day, (Sample.dated.isoformat day).length = 10 := fun _ =>
    show ("2025-12-01" : String).length = 10 by decide
  ⟨hiso, life_cycle_iff Sample.dated hiso _ Sample.comesBack⟩

/-- Two alerts of the same key are live. -/
theorem acknowledged_and_open :
    ¬ (machine Sample.dated).Along Kept { alerts := [] } Sample.comesBack := by
  intro h
  have hlast := (((h.2 _ rfl).2 _ rfl).2 _ rfl).here
  exact absurd hlast.single (by decide)

end LifeCycle

end Alerts

end Clear
