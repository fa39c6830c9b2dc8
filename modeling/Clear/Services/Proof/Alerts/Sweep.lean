import Clear.Services.Proof.Alerts.Conditions
import Clear.Services.Proof.Alerts.Reconcile

/-!
# A sweep leaves the alerts whose conditions hold

In a sound database (`Sound`) the live alerts of a type that has a rule are, after a sweep, those of
the conditions that hold, one for each key, and the database is sound again. What is live then is
steady (`Steady`): the same sweep run again changes nothing that matters.
-/

namespace Clear

namespace Alerts

/-- The invariant of the alert table: primary keys, one live alert for each key, and the key of a
live alert names its own type and a subject of its own project. -/
structure Sound (db : Database) : Prop where
  contracts : (db.contracts.map (·.id)).Nodup
  obligations : (db.obligations.map (·.id)).Nodup
  alerts : (db.alerts.map (·.id)).Nodup
  keys : ((db.alerts.filter (·.isLive)).map (·.dedupeKey)).Nodup
  filed : ∀ a ∈ db.alerts, a.isLive = true → ∀ t subject project, Subject db t subject project →
    KeyOf t subject a.dedupeKey → a.alertType = t ∧ a.projectId = project

def liveKeys (db : Database) (project : Uuid) (t : AlertType) : List String :=
  (db.alerts.filter fun a => a.isLive && a.projectId = project && a.alertType = t).map
    (·.dedupeKey)

variable {std : Stdlib} {db : Database} {clock : Clock} {rules : Rules} {ids : Nat → Uuid}
variable {only : Option Uuid} {drafts : List AlertDraft}

theorem Subject.project_inj (hdb : Sound db) {t : AlertType} {subject project project' : Uuid}
    (h : Subject db t subject project) (h' : Subject db t subject project') :
    project = project' := by
  unfold Subject at h h'
  split at h
  next ht =>
    rw [if_pos ht] at h'
    obtain ⟨o, ho, hid, rfl⟩ := h
    obtain ⟨o', ho', hid', rfl⟩ := h'
    rw [Keyed.inj hdb.obligations ho ho' (hid.trans hid'.symm)]
  next ht =>
    rw [if_neg ht] at h'
    obtain ⟨c, hc, hid, rfl⟩ := h
    obtain ⟨c', hc', hid', rfl⟩ := h'
    rw [Keyed.inj hdb.contracts hc hc' (hid.trans hid'.symm)]

theorem inSweep_iff {a : Alert} :
    inSweep only a = true ↔
      a.isLive = true ∧ a.alertType ∈ evaluatedTypes ∧
        (only = none ∨ only = some a.projectId) := by
  unfold inSweep
  simp [and_assoc]

/-! ## The rows after a sweep -/

section

variable (hiso : ∀ day, (std.isoformat day).length = 10) (hdb : Sound db)
variable (hcollect : collect std db rules clock.today only = .ok drafts)

def after (clock : Clock) (rules : Rules) (ids : Nat → Uuid) (only : Option Uuid)
    (alerts : List Alert) (drafts : List AlertDraft) : List Alert :=
  (alerts.map fun a => if inSweep only a then settle clock rules drafts a else a) ++
    newRows clock rules ids (alerts.filter (inSweep only)) drafts

theorem mem_newRows {a : Alert} {existing : List Alert}
    (h : a ∈ newRows clock rules ids existing drafts) :
    ∃ d ∈ drafts, ∃ id, d.dedupeKey ∉ existing.map (·.dedupeKey) ∧
      a = toRow clock rules id d := by
  unfold newRows at h
  obtain ⟨i, hi, rfl⟩ := List.mem_mapIdx.1 h
  have hmem := List.mem_filter.1 (List.getElem_mem hi)
  refine ⟨_, hmem.1, ids i, ?_, rfl⟩
  exact rowOf_eq_none.1 (Option.isNone_iff_eq_none.1 hmem.2)

theorem exists_newRow {d : AlertDraft} {existing : List Alert} (hd : d ∈ drafts)
    (hkey : d.dedupeKey ∉ existing.map (·.dedupeKey)) :
    ∃ id, toRow clock rules id d ∈ newRows clock rules ids existing drafts := by
  have hmem : d ∈ drafts.filter fun d => (rowOf existing d.dedupeKey).isNone := by
    rw [List.mem_filter, rowOf_eq_none.2 hkey]
    exact ⟨hd, rfl⟩
  obtain ⟨i, hi, hget⟩ := List.getElem_of_mem hmem
  refine ⟨ids i, List.mem_mapIdx.2 ⟨i, hi, ?_⟩⟩
  rw [hget]

theorem mem_after {a : Alert} (h : a ∈ after clock rules ids only db.alerts drafts) :
    (∃ b ∈ db.alerts, inSweep only b = true ∧ a = settle clock rules drafts b) ∨
      (a ∈ db.alerts ∧ inSweep only a = false) ∨
      ∃ d ∈ drafts, ∃ id, d.dedupeKey ∉ (db.alerts.filter (inSweep only)).map (·.dedupeKey) ∧
        a = toRow clock rules id d := by
  unfold after at h
  rw [List.mem_append] at h
  rcases h with h | h
  · obtain ⟨b, hb, rfl⟩ := List.mem_map.1 h
    cases hsweep : inSweep only b with
    | true => exact .inl ⟨b, hb, hsweep, by simp⟩
    | false => exact .inr (.inl ⟨by simpa using hb, by simpa using hsweep⟩)
  · exact .inr (.inr (mem_newRows h))

theorem settle_mem_after {a : Alert} (ha : a ∈ db.alerts) (hsweep : inSweep only a = true) :
    settle clock rules drafts a ∈ after clock rules ids only db.alerts drafts :=
  List.mem_append_left _ (List.mem_map.2 ⟨a, ha, by rw [if_pos hsweep]⟩)

theorem mem_after_of_not {a : Alert} (ha : a ∈ db.alerts) (hsweep : inSweep only a = false) :
    a ∈ after clock rules ids only db.alerts drafts :=
  List.mem_append_left _ (List.mem_map.2 ⟨a, ha, by rw [hsweep]; rfl⟩)

include hdb in
theorem swept_keys : ((db.alerts.filter (inSweep only)).map (·.dedupeKey)).Nodup := by
  refine hdb.keys.sublist (List.Sublist.map _ ?_)
  exact List.monotone_filter_right _ fun a ha => (inSweep_iff.1 ha).1

include hdb hcollect

theorem drafts_nodup : (drafts.map (·.dedupeKey)).Nodup :=
  collect_nodup hdb.contracts hdb.obligations hcollect

theorem owned {a : Alert} {d : AlertDraft} (ha : a ∈ db.alerts) (hlive : a.isLive = true)
    (hd : d ∈ drafts) (hkey : d.dedupeKey = a.dedupeKey) :
    a.alertType = d.alertType ∧ a.projectId = d.projectId ∧ inSweep only a = true := by
  obtain ⟨subject, habout, hsubject, ht, -, honly⟩ := ((mem_collect hcollect).1 hd).about
  obtain ⟨htype, hproject⟩ := hdb.filed a ha hlive _ _ _ hsubject (hkey ▸ habout.key)
  refine ⟨htype, hproject, inSweep_iff.2 ⟨hlive, ?_, ?_⟩⟩
  · rw [htype]
    exact ht
  · rw [hproject]
    exact honly

theorem no_live_of_new {a : Alert} {d : AlertDraft} (ha : a ∈ db.alerts) (hd : d ∈ drafts)
    (hnew : d.dedupeKey ∉ (db.alerts.filter (inSweep only)).map (·.dedupeKey))
    (hkey : d.dedupeKey = a.dedupeKey) : a.isLive = false := by
  by_contra hlive
  have hsweep := (owned hdb hcollect ha (by simpa using hlive) hd hkey).2.2
  rw [hkey] at hnew
  exact hnew (List.mem_map_of_mem (List.mem_filter.2 ⟨ha, hsweep⟩))

omit hdb in
include hiso in
theorem toRow_key {d : AlertDraft} (hd : d ∈ drafts) (id : Uuid) :
    (toRow clock rules id d).dedupeKey = d.dedupeKey := by
  obtain ⟨subject, habout, -⟩ := ((mem_collect hcollect).1 hd).about
  exact Text.take_of_length_le (habout.short hiso)

omit hdb in
include hiso in
theorem newRows_keys (existing : List Alert) :
    (newRows clock rules ids existing drafts).map (·.dedupeKey) =
      (drafts.filter fun d => (rowOf existing d.dedupeKey).isNone).map (·.dedupeKey) := by
  unfold newRows
  refine List.ext_getElem (by simp) fun i hi hi' => ?_
  rw [List.getElem_map, List.getElem_mapIdx, List.getElem_map]
  exact toRow_key hiso hcollect (List.mem_filter.1 (List.getElem_mem _)).1 _

include hiso

theorem live_after_iff {project : Uuid} {t : AlertType} {key : String}
    (honly : only = none ∨ only = some project) (ht : t ∈ evaluatedTypes)
    (hrule : (ruleFor rules project t).isSome = true) :
    (∃ a ∈ after clock rules ids only db.alerts drafts, a.isLive = true ∧ a.projectId = project ∧
        a.alertType = t ∧ a.dedupeKey = key) ↔
      ∃ d ∈ drafts, d.projectId = project ∧ d.alertType = t ∧ d.dedupeKey = key := by
  have hdrafts := drafts_nodup hdb hcollect
  constructor
  · rintro ⟨a, ha, hlive, rfl, rfl, rfl⟩
    rcases mem_after ha with ⟨b, hb, hsweep, rfl⟩ | ⟨ha, hsweep⟩ | ⟨d, hd, id, -, rfl⟩
    · have hsame : SameAlert (settle clock rules drafts b) b := settle_same b
      rw [hsame.projectId, hsame.alertType, hsame.dedupeKey] at *
      by_cases hmem : b.dedupeKey ∈ drafts.map (·.dedupeKey)
      · obtain ⟨d, hd, hkey⟩ := List.mem_map.1 hmem
        obtain ⟨htype, hproject, -⟩ :=
          owned hdb hcollect hb (live_of_settle hdrafts hlive) hd hkey
        exact ⟨d, hd, hproject.symm, htype.symm, hkey⟩
      · rw [settle_of_not_mem hmem, if_pos hrule] at hlive
        simp [Alert.isLive, retire] at hlive
    · rw [inSweep_iff.2 ⟨hlive, ht, honly⟩] at hsweep
      cases hsweep
    · exact ⟨d, hd, rfl, rfl, (toRow_key hiso hcollect hd id).symm⟩
  · rintro ⟨d, hd, rfl, rfl, rfl⟩
    by_cases hmem : d.dedupeKey ∈ (db.alerts.filter (inSweep only)).map (·.dedupeKey)
    · obtain ⟨a, ha, hkey⟩ := List.mem_map.1 hmem
      obtain ⟨ha, hsweep⟩ := List.mem_filter.1 ha
      have hlive := (inSweep_iff.1 hsweep).1
      obtain ⟨htype, hproject, -⟩ := owned hdb hcollect ha hlive hd hkey.symm
      have hsame : SameAlert (settle clock rules drafts a) a := settle_same a
      refine ⟨_, settle_mem_after ha hsweep, ?_, hsame.projectId.trans hproject,
        hsame.alertType.trans htype, hsame.dedupeKey.trans hkey⟩
      unfold Alert.isLive at hlive ⊢
      rwa [settle_status hdrafts hd hkey.symm]
    · have hnew : ∃ id, toRow clock rules id d ∈
          newRows clock rules ids (db.alerts.filter (inSweep only)) drafts := exists_newRow hd hmem
      obtain ⟨id, hrow⟩ := hnew
      exact ⟨_, List.mem_append_right _ hrow, rfl, rfl, rfl,
        toRow_key hiso hcollect hd id⟩

theorem after_keys :
    (((after clock rules ids only db.alerts drafts).filter (·.isLive)).map
      (·.dedupeKey)).Nodup := by
  have hdrafts := drafts_nodup hdb hcollect
  unfold after
  rw [List.filter_append, List.map_append]
  refine List.Nodup.append ?_ ?_ ?_
  · refine hdb.keys.sublist (Keyed.filter_update_sublist ?_ ?_ db.alerts)
    · intro a
      split
      · exact (settle_same a).dedupeKey
      · rfl
    · intro a hlive
      split at hlive
      · exact live_of_settle hdrafts hlive
      · exact hlive
  · refine List.Nodup.sublist (List.filter_sublist.map _) ?_
    rw [newRows_keys hiso hcollect]
    exact hdrafts.sublist (List.filter_sublist.map _)
  · intro key hmem hmem'
    obtain ⟨a', ha', rfl⟩ := List.mem_map.1 hmem
    obtain ⟨n, hn, hkey⟩ := List.mem_map.1 hmem'
    obtain ⟨ha', hlive⟩ := List.mem_filter.1 ha'
    obtain ⟨d, hd, id, hnew, rfl⟩ := mem_newRows (List.mem_filter.1 hn).1
    obtain ⟨a, ha, rfl⟩ := List.mem_map.1 ha'
    rw [toRow_key hiso hcollect hd id] at hkey
    by_cases hsweep : inSweep only a = true
    · rw [if_pos hsweep] at hkey hlive
      have hsame : SameAlert (settle clock rules drafts a) a := settle_same a
      have hdead := no_live_of_new hdb hcollect ha hd hnew (hkey.trans hsame.dedupeKey)
      rw [live_of_settle hdrafts hlive] at hdead
      cases hdead
    · rw [if_neg hsweep] at hkey hlive
      have hdead := no_live_of_new hdb hcollect ha hd hnew hkey
      rw [hlive] at hdead
      cases hdead

theorem sound_after (hids : ((after clock rules ids only db.alerts drafts).map (·.id)).Nodup) :
    Sound { db with alerts := after clock rules ids only db.alerts drafts } where
  contracts := hdb.contracts
  obligations := hdb.obligations
  alerts := hids
  keys := after_keys hiso hdb hcollect
  filed := by
    have hdrafts := drafts_nodup hdb hcollect
    intro a ha hlive t subject project hsubject hkey
    rcases mem_after ha with ⟨b, hb, hsweep, rfl⟩ | ⟨ha, hsweep⟩ | ⟨d, hd, id, -, rfl⟩
    · have hsame : SameAlert (settle clock rules drafts b) b := settle_same b
      rw [hsame.dedupeKey] at hkey
      rw [hsame.alertType, hsame.projectId]
      exact hdb.filed b hb (live_of_settle hdrafts hlive) t subject project hsubject hkey
    · exact hdb.filed a ha hlive t subject project hsubject hkey
    · obtain ⟨subject', habout, hsubject', -⟩ := ((mem_collect hcollect).1 hd).about
      rw [toRow_key hiso hcollect hd id] at hkey
      obtain ⟨rfl, rfl⟩ := habout.key.inj hkey
      exact ⟨rfl, Subject.project_inj hdb hsubject' hsubject⟩

omit hiso in
theorem status_after {a : Alert} {d : AlertDraft} (ha : a ∈ db.alerts) (hlive : a.isLive = true)
    (hd : d ∈ drafts) (hkey : d.dedupeKey = a.dedupeKey) :
    ∃ a' ∈ after clock rules ids only db.alerts drafts,
      a'.id = a.id ∧ a'.status = a.status ∧ a'.note = a.note :=
  ⟨_, settle_mem_after ha (owned hdb hcollect ha hlive hd hkey).2.2, (settle_same a).id,
    settle_status (drafts_nodup hdb hcollect) hd hkey, (settle_same a).note⟩

omit hiso in
theorem settle_of_ungoverned {a : Alert} (ha : a ∈ db.alerts) (hlive : a.isLive = true)
    (hrule : ruleFor rules a.projectId a.alertType = none) : settle clock rules drafts a = a := by
  have hmem : a.dedupeKey ∉ drafts.map (·.dedupeKey) := by
    intro hmem
    obtain ⟨d, hd, hkey⟩ := List.mem_map.1 hmem
    obtain ⟨htype, hproject, -⟩ := owned hdb hcollect ha hlive hd hkey
    obtain ⟨subject, -, -, -, hsome, -⟩ := ((mem_collect hcollect).1 hd).about
    rw [← htype, ← hproject, hrule] at hsome
    cases hsome
  rw [settle_of_not_mem hmem, hrule]
  rfl

omit hiso in
theorem unchanged_after {a : Alert} (ha : a ∈ db.alerts)
    (h : a.alertType ∉ evaluatedTypes ∨ ruleFor rules a.projectId a.alertType = none) :
    a ∈ after clock rules ids only db.alerts drafts := by
  cases hsweep : inSweep only a with
  | false => exact mem_after_of_not ha hsweep
  | true =>
    obtain ⟨hlive, ht, -⟩ := inSweep_iff.1 hsweep
    have hafter : settle clock rules drafts a ∈ after clock rules ids only db.alerts drafts :=
      settle_mem_after ha hsweep
    rwa [settle_of_ungoverned hdb hcollect ha hlive (h.resolve_left (· ht))] at hafter

end

/-! ## The same sweep again -/

/-- The sweep has nothing more to do to a row: its condition holds, its severity is what a refresh
makes it and it is not due for escalation, or no rule governs it. -/
def Steady (clock : Clock) (rules : Rules) (drafts : List AlertDraft) (a : Alert) : Prop :=
  (∃ d ∈ drafts, d.dedupeKey = a.dedupeKey ∧ a.severity = refreshedSeverity a d ∧
    escalates clock rules (drafts.map (·.dedupeKey)) (refresh clock d a) = false) ∨
  (a.dedupeKey ∉ drafts.map (·.dedupeKey) ∧ ruleFor rules a.projectId a.alertType = none)

section

variable {a : Alert} {d : AlertDraft}

/-- Whether a row is due for escalation depends on its columns that no refresh writes. -/
theorem escalates_congr {a b : Alert} (hsame : SameAlert a b) (hstatus : a.status = b.status)
    (hmark : escalatedBefore a = escalatedBefore b) (seen : List String) :
    escalates clock rules seen a = escalates clock rules seen b := by
  unfold escalates ageDays
  rw [hsame.dedupeKey, hstatus, hmark, hsame.projectId, hsame.alertType, hsame.createdAt]

theorem escalates_of_marked (h : escalatedBefore a = true) (seen : List String) :
    escalates clock rules seen a = false := by
  unfold escalates
  simp [h]

theorem escalates_of_new (h : a.createdAt = clock.now) (seen : List String) :
    escalates clock rules seen a = false := by
  unfold escalates ageDays
  rw [h]
  cases (ruleFor rules a.projectId a.alertType).bind (·.escalateAfterDays) with
  | none => simp
  | some days => cases days <;> simp

theorem steady_settle (hdrafts : (drafts.map (·.dedupeKey)).Nodup)
    (hunmarked : ∀ d ∈ drafts, "escalated_at" ∉ d.details.map (·.1))
    (hlive : (settle clock rules drafts a).isLive = true) :
    Steady clock rules drafts (settle clock rules drafts a) := by
  by_cases hmem : a.dedupeKey ∈ drafts.map (·.dedupeKey)
  · obtain ⟨d, hd, hkey⟩ := List.mem_map.1 hmem
    have hmark : ∀ a, escalatedBefore (refresh clock d a) = escalatedBefore a :=
      escalatedBefore_refresh (hunmarked d hd)
    refine .inl ⟨d, hd, hkey.trans (settle_same a).dedupeKey.symm, ?_⟩
    unfold settle
    rw [kept_of_draft hdrafts hd hkey]
    cases hescalates : escalates clock rules (drafts.map (·.dedupeKey)) (refresh clock d a) with
    | true =>
      -- escalated now: the marker is set, and a refresh promotes the rule's severity
      have hbefore : escalatedBefore a = false := by
        rw [← hmark]
        unfold escalates at hescalates
        simp only [Bool.and_eq_true, Bool.not_eq_true'] at hescalates
        exact hescalates.1.2
      rw [if_pos rfl]
      refine ⟨?_, ?_⟩
      · unfold refreshedSeverity
        rw [escalatedBefore_escalate, if_pos rfl]
        show (refreshedSeverity a d).promote = _
        unfold refreshedSeverity
        rw [hbefore]
        rfl
      · exact escalates_of_marked (by rw [hmark, escalatedBefore_escalate]) _
    | false =>
      rw [if_neg (by simp)]
      refine ⟨?_, ?_⟩
      · unfold refreshedSeverity
        rw [hmark]
        rfl
      · rw [← hescalates]
        exact escalates_congr (refresh_same _ _) rfl (hmark _) _
  · rw [settle_of_not_mem hmem] at hlive ⊢
    split at hlive
    · simp [Alert.isLive, retire] at hlive
    next hrule =>
      rw [if_neg hrule]
      exact .inr ⟨hmem, by simpa using hrule⟩

theorem steady_toRow (hd : d ∈ drafts) (hunmarked : "escalated_at" ∉ d.details.map (·.1)) {id : Uuid}
    (hkey : (toRow clock rules id d).dedupeKey = d.dedupeKey) :
    Steady clock rules drafts (toRow clock rules id d) := by
  refine .inl ⟨d, hd, hkey.symm, ?_, escalates_of_new rfl _⟩
  unfold refreshedSeverity
  rw [escalatedBefore_toRow hunmarked]
  rfl

theorem Steady.not_retires (h : Steady clock rules drafts a) :
    retires rules (drafts.map (·.dedupeKey)) a = false := by
  unfold retires
  rcases h with ⟨d, hd, hkey, -⟩ | ⟨-, hrule⟩
  · simp [← hkey, List.mem_map_of_mem hd]
  · simp [hrule]

/-- Settling a steady row again refreshes it at most: status and severity stay. -/
theorem Steady.settle (hdrafts : (drafts.map (·.dedupeKey)).Nodup)
    (h : Steady clock rules drafts a) :
    escalates clock rules (drafts.map (·.dedupeKey)) (kept clock rules drafts a) = false ∧
      (settle clock rules drafts a).status = a.status ∧
      (settle clock rules drafts a).severity = a.severity := by
  rcases h with ⟨d, hd, hkey, hseverity, hescalates⟩ | ⟨hmem, hrule⟩
  · have hkept : kept clock rules drafts a = refresh clock d a := kept_of_draft hdrafts hd hkey
    unfold Alerts.settle
    rw [hkept, hescalates]
    exact ⟨rfl, rfl, hseverity.symm⟩
  · have hnot : escalates clock rules (drafts.map (·.dedupeKey)) (kept clock rules drafts a) =
        false := by
      unfold escalates
      rw [(kept_same a).dedupeKey]
      simp [hmem]
    rw [settle_of_not_mem hmem, hrule]
    exact ⟨hnot, rfl, rfl⟩

end

section

variable (hiso : ∀ day, (std.isoformat day).length = 10) (hdb : Sound db)
variable (hcollect : collect std db rules clock.today only = .ok drafts)

include hiso hdb hcollect

theorem steady_after {a : Alert} (ha : a ∈ after clock rules ids only db.alerts drafts)
    (hsweep : inSweep only a = true) : Steady clock rules drafts a := by
  have hdrafts := drafts_nodup hdb hcollect
  have hunmarked : ∀ d ∈ drafts, "escalated_at" ∉ d.details.map (·.1) := by
    intro d hd
    obtain ⟨subject, habout, -⟩ := ((mem_collect hcollect).1 hd).about
    exact habout.unmarked
  rcases mem_after ha with ⟨b, hb, -, rfl⟩ | ⟨-, hnot⟩ | ⟨d, hd, id, -, rfl⟩
  · exact steady_settle hdrafts hunmarked (inSweep_iff.1 hsweep).1
  · rw [hsweep] at hnot
    cases hnot
  · exact steady_toRow hd (hunmarked d hd) (toRow_key hiso hcollect hd id)

theorem newRows_after (ids' : Nat → Uuid) :
    newRows clock rules ids' ((after clock rules ids only db.alerts drafts).filter (inSweep only))
      drafts = [] := by
  refine List.eq_nil_iff_forall_not_mem.2 fun row hrow => ?_
  obtain ⟨d, hd, id, hnew, -⟩ := mem_newRows hrow
  obtain ⟨subject, -, -, ht, hrule, honly⟩ := ((mem_collect hcollect).1 hd).about
  obtain ⟨a, ha, hlive, hproject, htype, hkey⟩ :=
    (live_after_iff hiso hdb hcollect honly ht hrule).2 ⟨d, hd, rfl, rfl, rfl⟩
  refine hnew (List.mem_map.2 ⟨a, List.mem_filter.2 ⟨ha, inSweep_iff.2 ⟨hlive, ?_, ?_⟩⟩, hkey⟩)
  · rw [htype]
    exact ht
  · rw [hproject]
    exact honly

/-- The same sweep again adds, retires and escalates nothing. -/
theorem reconcile_after {ids' : Nat → Uuid}
    (hunique : UniqueKeys (after clock rules ids only db.alerts drafts)) :
    UniqueKeys (reconcile clock rules ids' only (after clock rules ids only db.alerts drafts)
        drafts).alerts ∧
      (reconcile clock rules ids' only (after clock rules ids only db.alerts drafts)
        drafts).alerts.map (fun a => (a.id, a.severity)) =
          (after clock rules ids only db.alerts drafts).map (fun a => (a.id, a.severity)) ∧
      (reconcile clock rules ids' only (after clock rules ids only db.alerts drafts)
        drafts).outcome.raised = 0 ∧
      (reconcile clock rules ids' only (after clock rules ids only db.alerts drafts)
        drafts).outcome.retired = 0 ∧
      (reconcile clock rules ids' only (after clock rules ids only db.alerts drafts)
        drafts).outcome.escalated = 0 := by
  have hdrafts := drafts_nodup hdb hcollect
  have hsound := sound_after hiso hdb hcollect hunique.1
  have hsteady : ∀ a ∈ (after clock rules ids only db.alerts drafts).filter (inSweep only),
      Steady clock rules drafts a := by
    intro a ha
    obtain ⟨ha, hsweep⟩ := List.mem_filter.1 ha
    exact steady_after hiso hdb hcollect ha hsweep
  have hkeys := @swept_keys _ only hsound
  have hempty : newRows clock rules ids'
      ((after clock rules ids only db.alerts drafts).filter (inSweep only)) drafts = [] :=
    newRows_after hiso hdb hcollect ids'
  rw [reconcile_alerts hunique.1 hkeys hdrafts, reconcile_retired hunique.1 hkeys hdrafts,
    reconcile_escalated hunique.1 hkeys hdrafts, reconcile_raised, hempty, List.append_nil]
  refine ⟨⟨?_, ?_⟩, ?_, rfl, ?_, ?_⟩
  · refine Keyed.update hunique.1 fun a => ?_
    split
    · exact (settle_same a).id
    · rfl
  · refine hunique.2.sublist (Keyed.filter_update_sublist ?_ ?_ _)
    · intro a
      split
      · exact (settle_same a).dedupeKey
      · rfl
    · intro a hopen
      split at hopen
      · have hcases : (settle clock rules drafts a).status = a.status ∨
            (settle clock rules drafts a).status = .resolved := settle_status_cases hdrafts a
        rcases hcases with h | h
        · rwa [h] at hopen
        · rw [h] at hopen
          simp at hopen
      · exact hopen
  · rw [List.map_map]
    refine List.map_congr_left fun a ha => ?_
    rw [Function.comp_apply]
    split
    next hsweep =>
      rw [(settle_same a).id, ((steady_after hiso hdb hcollect ha hsweep).settle hdrafts).2.2]
    · rfl
  · rw [List.length_eq_zero_iff, List.filter_eq_nil_iff]
    intro a ha
    rw [(hsteady a ha).not_retires]
    simp
  · rw [List.length_eq_zero_iff, List.filter_eq_nil_iff]
    intro k hk
    obtain ⟨a, ha, rfl⟩ := List.mem_map.1 hk
    rw [((hsteady a ha).settle hdrafts).1]
    simp

end

/-! ## The sweep -/

/-- A sweep that returns: there is no rule, or it reconciles what it collects. -/
theorem run_eq_ok {db' : Database} {outcome : EvaluationOutcome}
    (h : run std clock ids only db = .ok (db', outcome)) :
    (loadRules db.rules = [] ∧ db' = db) ∨
      ∃ drafts due, loadRules db.rules ≠ [] ∧
        collect std db (loadRules db.rules) clock.today only = .ok drafts ∧
        dueObligations db (loadRules db.rules) clock.today only = .ok due ∧
        UniqueKeys (reconcile clock (loadRules db.rules) ids only db.alerts drafts).alerts ∧
        db' = { db with
          alerts := (reconcile clock (loadRules db.rules) ids only db.alerts drafts).alerts } := by
  unfold run at h
  dsimp only at h
  split at h
  next hempty =>
    cases h
    exact .inl ⟨List.isEmpty_iff.1 hempty, rfl⟩
  next hne =>
    obtain ⟨drafts, hdrafts, h⟩ := Except.bind_eq_ok.1 h
    obtain ⟨due, hdue, h⟩ := Except.bind_eq_ok.1 h
    split at h
    next hunique =>
      obtain ⟨rfl, -⟩ := Prod.mk.inj (Except.pure_eq_ok.1 h)
      exact .inr ⟨drafts, due, fun hnil => hne (List.isEmpty_iff.2 hnil), hdrafts, hdue, hunique,
        rfl⟩
    · cases h

theorem run_of_collect {alerts : List Alert} {due : List (Obligation × ContractRow)}
    (hne : loadRules db.rules ≠ [])
    (hcollect : collect std db (loadRules db.rules) clock.today only = .ok drafts)
    (hdue : dueObligations db (loadRules db.rules) clock.today only = .ok due)
    (hunique : UniqueKeys (reconcile clock (loadRules db.rules) ids only alerts drafts).alerts) :
    run std clock ids only { db with alerts } =
      .ok ({ db with alerts := (reconcile clock (loadRules db.rules) ids only alerts drafts).alerts },
        { (reconcile clock (loadRules db.rules) ids only alerts drafts).outcome with
          rulesApplied := (loadRules db.rules).length
          contractsExamined := (examined db only).length
          obligationsExamined := due.length }) := by
  have hcollect' : collect std { db with alerts } (loadRules db.rules) clock.today only =
      .ok drafts := hcollect
  have hdue' : dueObligations { db with alerts } (loadRules db.rules) clock.today only = .ok due :=
    hdue
  unfold run
  dsimp only
  rw [if_neg (by rwa [List.isEmpty_iff]), hcollect', hdue']
  dsimp only [bind, Except.bind]
  rw [if_pos hunique]
  rfl

/-- **A sweep leaves exactly the alerts whose conditions hold**, one live alert for each; it does
not touch what the operator wrote, nor what no rule governs. The same sweep again raises, retires
and escalates nothing and leaves every severity. -/
theorem sweep_exact (std : Stdlib) (hiso : ∀ day, (std.isoformat day).length = 10) (clock : Clock)
    (ids : Nat → Uuid) (only : Option Uuid) (db db' : Database) (outcome : EvaluationOutcome)
    (hdb : Sound db) (hrun : run std clock ids only db = .ok (db', outcome)) :
    Sound db' ∧
      (∀ project t, (only = none ∨ only = some project) → t ∈ evaluatedTypes →
        (ruleFor (loadRules db.rules) project t).isSome = true →
          (liveKeys db' project t).Nodup ∧
          ∀ key, key ∈ liveKeys db' project t ↔
            ∃ d, Holds std db (loadRules db.rules) clock.today only d ∧ d.projectId = project ∧
              d.alertType = t ∧ d.dedupeKey = key) ∧
      (∀ a ∈ db.alerts, a.isLive = true →
        (∃ d, Holds std db (loadRules db.rules) clock.today only d ∧ d.dedupeKey = a.dedupeKey) →
          ∃ a' ∈ db'.alerts, a'.id = a.id ∧ a'.status = a.status ∧ a'.note = a.note) ∧
      (∀ a ∈ db.alerts, (a.alertType ∉ evaluatedTypes ∨
        ruleFor (loadRules db.rules) a.projectId a.alertType = none) → a ∈ db'.alerts) ∧
      ∀ ids', ∃ db'' outcome', run std clock ids' only db' = .ok (db'', outcome') ∧
        outcome'.raised = 0 ∧ outcome'.retired = 0 ∧ outcome'.escalated = 0 ∧
        db''.alerts.map (fun a => (a.id, a.severity)) =
          db'.alerts.map (fun a => (a.id, a.severity)) := by
  rcases run_eq_ok hrun with ⟨hnil, rfl⟩ | ⟨drafts, due, hne, hcollect, hdue, hunique, rfl⟩
  · have hrule : ∀ project t, ruleFor (loadRules db'.rules) project t = none := by
      intro project t
      rw [hnil]
      rfl
    refine ⟨hdb, ?_, fun a ha _ _ => ⟨a, ha, rfl, rfl, rfl⟩, fun a ha _ => ha, fun ids' => ?_⟩
    · intro project t _ _ hsome
      rw [hrule] at hsome
      cases hsome
    · refine ⟨db', {}, ?_, rfl, rfl, rfl, rfl⟩
      unfold run
      rw [hnil]
      rfl
  · have hdrafts := drafts_nodup hdb hcollect
    have hrows : (reconcile clock (loadRules db.rules) ids only db.alerts drafts).alerts =
        after clock (loadRules db.rules) ids only db.alerts drafts :=
      reconcile_alerts hdb.alerts (swept_keys hdb) hdrafts
    rw [hrows] at hunique ⊢
    have hmem : ∀ d, d ∈ drafts ↔ Holds std db (loadRules db.rules) clock.today only d :=
      fun d => mem_collect hcollect
    have hsound := sound_after hiso hdb hcollect hunique.1
    refine ⟨hsound, ?_, ?_, fun a ha => unchanged_after hdb hcollect ha, fun ids' => ?_⟩
    · intro project t honly ht hrule
      refine ⟨hsound.keys.sublist (List.Sublist.map _ ?_), fun key => ?_⟩
      · refine List.monotone_filter_right _ fun a ha => ?_
        simp only [Bool.and_eq_true] at ha
        exact ha.1.1
      · simp only [← hmem]
        have hiff := @live_after_iff std db clock (loadRules db.rules) ids only drafts hiso hdb
          hcollect project t key honly ht hrule
        rw [← hiff]
        simp [liveKeys, and_assoc]
    · rintro a ha hlive ⟨d, hd, hkey⟩
      exact status_after hdb hcollect ha hlive ((hmem d).2 hd) hkey
    · obtain ⟨hunique', hseverity, hraised, hretired, hescalated⟩ :=
        @reconcile_after std db clock (loadRules db.rules) ids only drafts hiso hdb hcollect ids'
          hunique
      exact ⟨_, _, run_of_collect hne hcollect hdue hunique', hraised, hretired, hescalated,
        hseverity⟩

/-! ### A sweep of one contract -/

namespace Sample

def december : Clock where
  today := 739586
  now := 0
  isoformat _ := "2025-12-01T00:00:00+00:00"
  isoformat_ne _ := by decide

def texts : Stdlib :=
  { Stdlib.ascii with isoformat := fun d => if d = 739617 then "2026-01-01" else "0001-01-01" }

/-- It expires on 1 January 2026. -/
def contract : ContractRow where
  id := 2
  projectId := 1
  uploadedBy := none
  originalFileName := "lease.pdf"
  originalFilePath := none
  convertedFilePath := none
  originalFileType := none
  sha256Hash := "5f"
  storagePath := "lease.pdf"
  processingFilePath := none
  processingSha256 := none
  fileType := .pdf
  fileSize := 1
  mimeType := none

def metadata : MetadataTable where
  rows := [.new contract.id contract.projectId [(.expirationDate, .date 739617)]]
  keys := by decide

/-- An alert about an expiry date that was corrected since. -/
def stale : Alert where
  id := 3
  projectId := contract.projectId
  contractId := some contract.id
  alertType := .contractExpiring
  severity := .medium
  status := .acknowledged
  title := "lease.pdf expires in 10 days"
  message := ""
  dedupeKey := "expiring:" ++ contract.id.str ++ ":" ++ "2025-12-11"
  createdAt := 0

def database (rules : AlertRules) : Database where
  rules
  contracts := [contract]
  metadata
  clauses := []
  obligations := []
  alerts := [stale]

def platformRule : AlertRules where
  rows := [{ id := 4, projectId := none, alertType := .contractExpiring }]
  keys := by decide

theorem sound (rules : AlertRules) : Sound (database rules) where
  contracts := List.nodup_singleton _
  obligations := List.nodup_nil
  alerts := List.nodup_singleton _
  keys := List.nodup_singleton _
  filed := by
    intro a ha _ t subject project hsubject hkey
    obtain rfl := List.mem_singleton.1 ha
    have hstale : KeyOf .contractExpiring contract.id stale.dedupeKey := keyOf_dated (by decide) _ _
    obtain ⟨rfl, rfl⟩ := hstale.inj hkey
    obtain ⟨c, hc, -, rfl⟩ := hsubject
    obtain rfl := List.mem_singleton.1 hc
    exact ⟨rfl, rfl⟩

end Sample

theorem sweep_exact_sample : ∃ db' outcome,
    run Sample.texts Sample.december (BitVec.ofNat 128) none (Sample.database Sample.platformRule) =
      .ok (db', outcome) ∧ Sound db' := by
  have hok : (run Sample.texts Sample.december (BitVec.ofNat 128) none
      (Sample.database Sample.platformRule)).toOption.isSome = true := by decide +kernel
  obtain ⟨⟨db', outcome⟩, hrun⟩ := Option.isSome_iff_exists.1 hok
  have hrun := Except.toOption_eq_some.1 hrun
  have hiso : ∀ day, (Sample.texts.isoformat day).length = 10 := by
    intro day
    show String.length (if day = 739617 then "2026-01-01" else "0001-01-01") = 10
    split <;> decide
  exact ⟨db', outcome, hrun, (sweep_exact Sample.texts hiso Sample.december (BitVec.ofNat 128) none _
    db' outcome (Sample.sound _) hrun).1⟩

end Alerts

end Clear
