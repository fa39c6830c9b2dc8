import Clear.Services.AlertEvaluator

/-!
# Reconciliation, row by row

`reconcile` works on all rows in four passes. Row by row: a row that the sweep owns is refreshed by
the draft of its key, or retired where there is none, then escalated (`settle`); the other rows are
left alone, and a draft without a row adds one (`reconcile_alerts`).
-/

namespace Clear

namespace Alerts

variable {clock : Clock} {rules : Rules} {ids : Nat → Uuid} {only : Option Uuid}
variable {alerts existing : List Alert} {drafts : List AlertDraft}

/-! ## Columns that no sweep writes -/

structure SameAlert (a b : Alert) : Prop where
  id : a.id = b.id
  projectId : a.projectId = b.projectId
  contractId : a.contractId = b.contractId
  alertType : a.alertType = b.alertType
  dedupeKey : a.dedupeKey = b.dedupeKey
  ruleId : a.ruleId = b.ruleId
  note : a.note = b.note
  createdAt : a.createdAt = b.createdAt

theorem SameAlert.refl (a : Alert) : SameAlert a a := ⟨rfl, rfl, rfl, rfl, rfl, rfl, rfl, rfl⟩

theorem SameAlert.trans {a b c : Alert} (h : SameAlert a b) (h' : SameAlert b c) :
    SameAlert a c :=
  ⟨h.id.trans h'.id, h.projectId.trans h'.projectId, h.contractId.trans h'.contractId,
    h.alertType.trans h'.alertType, h.dedupeKey.trans h'.dedupeKey, h.ruleId.trans h'.ruleId,
    h.note.trans h'.note, h.createdAt.trans h'.createdAt⟩

theorem refresh_same (d : AlertDraft) (a : Alert) : SameAlert (refresh clock d a) a :=
  ⟨rfl, rfl, rfl, rfl, rfl, rfl, rfl, rfl⟩

theorem retire_same (a : Alert) : SameAlert (retire clock a) a :=
  ⟨rfl, rfl, rfl, rfl, rfl, rfl, rfl, rfl⟩

theorem escalate_same (a : Alert) : SameAlert (escalate clock a) a :=
  ⟨rfl, rfl, rfl, rfl, rfl, rfl, rfl, rfl⟩

theorem refresh_status (d : AlertDraft) (a : Alert) : (refresh clock d a).status = a.status := rfl

theorem escalate_status (a : Alert) : (escalate clock a).status = a.status := rfl

theorem SameAlert.retires {a b : Alert} (h : SameAlert a b) (seen : List String) :
    retires rules seen a = retires rules seen b := by
  unfold Alerts.retires
  rw [h.dedupeKey, h.projectId, h.alertType]

/-! ## The escalation marker -/

theorem get_merge {details updates : ValueDict} {key : String} (h : key ∉ updates.map (·.1)) :
    Value.get (merge details updates) key = Value.get details key := by
  unfold merge
  induction updates generalizing details with
  | nil => rfl
  | cons e updates ih =>
    rw [List.map_cons, List.mem_cons, not_or] at h
    rw [List.foldl_cons, ih h.2]
    unfold Value.get
    rw [Dict.lookup_assign_ne h.1]

theorem escalatedBefore_refresh {d : AlertDraft} (h : "escalated_at" ∉ d.details.map (·.1))
    (a : Alert) : escalatedBefore (refresh clock d a) = escalatedBefore a := by
  unfold escalatedBefore refresh
  rw [get_merge (by simp), get_merge h]

theorem escalatedBefore_escalate (a : Alert) : escalatedBefore (escalate clock a) = true := by
  unfold escalatedBefore escalate merge Value.get
  rw [List.foldl_cons, List.foldl_nil, Dict.lookup_assign_self]
  simpa [Value.truthy] using clock.isoformat_ne clock.now

theorem escalatedBefore_toRow {d : AlertDraft} (h : "escalated_at" ∉ d.details.map (·.1))
    (id : Uuid) : escalatedBefore (toRow clock rules id d) = false := by
  unfold escalatedBefore toRow
  rw [get_merge (by simp)]
  unfold Value.get
  have hnone : d.details.lookup "escalated_at" = none := by
    rw [List.lookup_eq_none_iff]
    intro e he
    simpa using fun heq : "escalated_at" = e.1 => h (heq ▸ List.mem_map_of_mem he)
  rw [hnone]
  rfl

/-! ## One row -/

def refreshed (clock : Clock) (drafts : List AlertDraft) (a : Alert) : Alert :=
  Upsert.row (·.dedupeKey) (·.dedupeKey) (refresh clock) drafts a

def kept (clock : Clock) (rules : Rules) (drafts : List AlertDraft) (a : Alert) : Alert :=
  if retires rules (drafts.map (·.dedupeKey)) (refreshed clock drafts a) then
    retire clock (refreshed clock drafts a)
  else refreshed clock drafts a

/-- What the sweep makes of a row that it owns. -/
def settle (clock : Clock) (rules : Rules) (drafts : List AlertDraft) (a : Alert) : Alert :=
  if escalates clock rules (drafts.map (·.dedupeKey)) (kept clock rules drafts a) then
    escalate clock (kept clock rules drafts a)
  else kept clock rules drafts a

theorem refreshed_same (a : Alert) : SameAlert (refreshed clock drafts a) a := by
  unfold refreshed Upsert.row
  split
  · exact refresh_same _ a
  · exact .refl a

theorem kept_same (a : Alert) : SameAlert (kept clock rules drafts a) a := by
  unfold kept
  split
  · exact (retire_same _).trans (refreshed_same a)
  · exact refreshed_same a

theorem settle_same (a : Alert) : SameAlert (settle clock rules drafts a) a := by
  unfold settle
  split
  · exact (escalate_same _).trans (kept_same a)
  · exact kept_same a

theorem kept_of_draft {a : Alert} {d : AlertDraft} (hdrafts : (drafts.map (·.dedupeKey)).Nodup)
    (hd : d ∈ drafts) (hkey : d.dedupeKey = a.dedupeKey) :
    kept clock rules drafts a = refresh clock d a := by
  have hrefreshed : refreshed clock drafts a = refresh clock d a :=
    Upsert.row_of_mem hdrafts hd hkey
  have hseen : (refresh clock d a).dedupeKey ∈ drafts.map (·.dedupeKey) := by
    rw [(refresh_same d a).dedupeKey, ← hkey]
    exact List.mem_map_of_mem hd
  unfold kept
  rw [hrefreshed, if_neg]
  unfold retires
  simp [hseen]

theorem settle_of_not_mem {a : Alert} (h : a.dedupeKey ∉ drafts.map (·.dedupeKey)) :
    settle clock rules drafts a =
      if (ruleFor rules a.projectId a.alertType).isSome then retire clock a else a := by
  have hrefreshed : refreshed clock drafts a = a := Upsert.row_of_not_mem h
  have hkept : kept clock rules drafts a =
      if (ruleFor rules a.projectId a.alertType).isSome then retire clock a else a := by
    unfold kept retires
    rw [hrefreshed]
    simp [h]
  have hnot : escalates clock rules (drafts.map (·.dedupeKey)) (kept clock rules drafts a) =
      false := by
    unfold escalates
    rw [(kept_same a).dedupeKey]
    simp [h]
  unfold settle
  rw [hnot, hkept]
  simp

/-- The status of a row whose condition holds is the operator's. -/
theorem settle_status {a : Alert} {d : AlertDraft} (hdrafts : (drafts.map (·.dedupeKey)).Nodup)
    (hd : d ∈ drafts) (hkey : d.dedupeKey = a.dedupeKey) :
    (settle clock rules drafts a).status = a.status := by
  unfold settle
  rw [kept_of_draft hdrafts hd hkey]
  split
  · rw [escalate_status, refresh_status]
  · rw [refresh_status]

theorem settle_status_cases (hdrafts : (drafts.map (·.dedupeKey)).Nodup) (a : Alert) :
    (settle clock rules drafts a).status = a.status ∨
      (settle clock rules drafts a).status = .resolved := by
  by_cases hmem : a.dedupeKey ∈ drafts.map (·.dedupeKey)
  · obtain ⟨d, hd, hkey⟩ := List.mem_map.1 hmem
    exact .inl (settle_status hdrafts hd hkey)
  · rw [settle_of_not_mem hmem]
    split
    · exact .inr rfl
    · exact .inl rfl

theorem live_of_settle {a : Alert} (hdrafts : (drafts.map (·.dedupeKey)).Nodup)
    (h : (settle clock rules drafts a).isLive = true) : a.isLive = true := by
  unfold Alert.isLive at h ⊢
  rcases settle_status_cases hdrafts a with hstatus | hstatus
  · rwa [hstatus] at h
  · rw [hstatus] at h
    simp at h

/-! ## All rows -/

def rowOf (existing : List Alert) (key : String) : Option Uuid :=
  (existing.reverse.find? (·.dedupeKey = key)).map (·.id)

theorem rowOf_eq_none {key : String} :
    rowOf existing key = none ↔ key ∉ existing.map (·.dedupeKey) := by
  unfold rowOf
  rw [Option.map_eq_none_iff, List.find?_eq_none]
  simp

theorem rowOf_eq_some {key : String} {id : Uuid}
    (hkeys : (existing.map (·.dedupeKey)).Nodup) :
    rowOf existing key = some id ↔ ∃ a ∈ existing, a.dedupeKey = key ∧ a.id = id := by
  unfold rowOf
  rw [Option.map_eq_some_iff]
  constructor
  · rintro ⟨a, hfind, hid⟩
    exact ⟨a, List.mem_reverse.1 (List.mem_of_find?_eq_some hfind),
      by simpa using List.find?_some hfind, hid⟩
  · rintro ⟨a, ha, rfl, hid⟩
    refine ⟨a, Keyed.find_of_mem ?_ (List.mem_reverse.2 ha), hid⟩
    rw [List.map_reverse]
    exact List.nodup_reverse.2 hkeys

def newRows (clock : Clock) (rules : Rules) (ids : Nat → Uuid) (existing : List Alert)
    (drafts : List AlertDraft) : List Alert :=
  (drafts.filter fun d => (rowOf existing d.dedupeKey).isNone).mapIdx fun i d =>
    toRow clock rules (ids i) d

theorem foldl_existing (byKey : String → Option Uuid) (p : Progress) :
    (drafts.foldl (reconcileDraft clock rules ids byKey) p).existing =
      (drafts.filter fun d => (byKey d.dedupeKey).isSome).foldl
        (fun rows d => rows.map fun a =>
          if some a.id = byKey d.dedupeKey then refresh clock d a else a) p.existing := by
  induction drafts generalizing p with
  | nil => rfl
  | cons d drafts ih =>
    rw [List.foldl_cons, ih]
    unfold reconcileDraft
    cases hkey : byKey d.dedupeKey with
    | none => rw [List.filter_cons_of_neg (by simp [hkey])]
    | some id =>
      rw [List.filter_cons_of_pos (by simp [hkey]), List.foldl_cons]
      simp [hkey]

theorem foldl_added (byKey : String → Option Uuid) (p : Progress) :
    (drafts.foldl (reconcileDraft clock rules ids byKey) p).added =
      p.added ++ (drafts.filter fun d => (byKey d.dedupeKey).isNone).mapIdx fun i d =>
        toRow clock rules (ids (i + p.added.length)) d := by
  induction drafts generalizing p with
  | nil => simp
  | cons d drafts ih =>
    rw [List.foldl_cons, ih]
    unfold reconcileDraft
    cases hkey : byKey d.dedupeKey with
    | none =>
      rw [List.filter_cons_of_pos (by simp [hkey]), List.mapIdx_cons]
      simp [Nat.add_assoc, Nat.add_comm 1]
    | some id => rw [List.filter_cons_of_neg (by simp [hkey])]

theorem foldl_refreshed (hids : (existing.map (·.id)).Nodup)
    (hkeys : (existing.map (·.dedupeKey)).Nodup) (hdrafts : (drafts.map (·.dedupeKey)).Nodup) :
    (drafts.foldl (reconcileDraft clock rules ids (rowOf existing)) { existing }).existing =
      existing.map (refreshed clock drafts) := by
  have hrow : ∀ {d : AlertDraft} {a : Alert}, a ∈ existing →
      (rowOf existing d.dedupeKey = some a.id ↔ d.dedupeKey = a.dedupeKey) := by
    intro d a ha
    rw [rowOf_eq_some hkeys]
    constructor
    · rintro ⟨b, hb, hkey, hid⟩
      rw [← hkey, Keyed.inj hids hb ha hid]
    · exact fun hkey => ⟨a, ha, hkey.symm, rfl⟩
  have hitems : ((drafts.filter fun d => (rowOf existing d.dedupeKey).isSome).map
      fun d => rowOf existing d.dedupeKey).Nodup := by
    refine List.Nodup.map_on (fun d hd d' hd' heq => ?_) (hdrafts.of_map.filter _)
    obtain ⟨id, hid⟩ := Option.isSome_iff_exists.1 (List.mem_filter.1 hd).2
    obtain ⟨a, ha, hkey, -⟩ := (rowOf_eq_some hkeys).1 hid
    rw [← hkey] at hid heq
    rw [(rowOf_eq_some hkeys).2 ⟨a, ha, rfl, rfl⟩] at heq
    refine Keyed.inj hdrafts (List.mem_filter.1 hd).1 (List.mem_filter.1 hd').1 ?_
    rw [← hkey, (hrow ha).1 heq.symm]
  rw [foldl_existing]
  have hsame : ∀ (d : AlertDraft) (a : Alert),
      (fun a : Alert => some a.id) (refresh clock d a) = (fun a : Alert => some a.id) a :=
    fun d a => rfl
  have hfold : (drafts.filter fun d => (rowOf existing d.dedupeKey).isSome).foldl
      (fun rows d => rows.map fun a =>
        if some a.id = rowOf existing d.dedupeKey then refresh clock d a else a) existing =
      existing.map (Upsert.row (fun a => some a.id) (fun d => rowOf existing d.dedupeKey)
        (refresh clock) (drafts.filter fun d => (rowOf existing d.dedupeKey).isSome)) :=
    Upsert.foldl_update_eq hsame hitems existing
  refine hfold.trans (List.map_congr_left fun a ha => ?_)
  unfold refreshed
  by_cases hmem : a.dedupeKey ∈ drafts.map (·.dedupeKey)
  · obtain ⟨d, hd, hkey⟩ := List.mem_map.1 hmem
    have hid := (hrow ha).2 hkey
    rw [Upsert.row_of_mem hdrafts hd hkey]
    exact Upsert.row_of_mem hitems (List.mem_filter.2 ⟨hd, by rw [hid]; rfl⟩) hid
  · rw [Upsert.row_of_not_mem hmem]
    refine Upsert.row_of_not_mem fun hid => hmem ?_
    obtain ⟨d, hd, hid⟩ := List.mem_map.1 hid
    rw [← (hrow ha).1 hid]
    exact List.mem_map_of_mem (List.mem_filter.1 hd).1

theorem find_map {g : Alert → Alert} (hg : ∀ a, (g a).id = a.id) (rows : List Alert) (id : Uuid) :
    (rows.map g).find? (·.id = id) = (rows.find? (·.id = id)).map g := by
  rw [List.find?_map]
  congr 2
  funext a
  simp [hg]

/-- Writing the rows of the sweep back over the table. -/
theorem map_write {g : Alert → Alert} (hg : ∀ a, (g a).id = a.id)
    (hids : (alerts.map (·.id)).Nodup) (p : Alert → Bool) :
    (alerts.map fun a => (((alerts.filter p).map g).find? (·.id = a.id)).getD a) =
      alerts.map fun a => if p a then g a else a := by
  refine List.map_congr_left fun a ha => ?_
  rw [find_map hg]
  by_cases hp : p a = true
  · rw [if_pos hp, Keyed.find_of_mem (hids.sublist (List.filter_sublist.map _))
      (List.mem_filter.2 ⟨ha, hp⟩)]
    rfl
  · have hnone : (alerts.filter p).find? (·.id = a.id) = none := by
      rw [List.find?_eq_none]
      intro b hb hid
      rw [List.mem_filter] at hb
      rw [Keyed.inj hids hb.1 ha (of_decide_eq_true hid)] at hb
      exact hp hb.2
    rw [if_neg hp, hnone]
    rfl

section

variable (hids : (alerts.map (·.id)).Nodup)
variable (hkeys : ((alerts.filter (inSweep only)).map (·.dedupeKey)).Nodup)
variable (hdrafts : (drafts.map (·.dedupeKey)).Nodup)

include hids hkeys hdrafts

theorem foldl_swept :
    (drafts.foldl (reconcileDraft clock rules ids (rowOf (alerts.filter (inSweep only))))
      { existing := alerts.filter (inSweep only) }).existing =
        (alerts.filter (inSweep only)).map (refreshed clock drafts) :=
  foldl_refreshed (hids.sublist (List.filter_sublist.map _)) hkeys hdrafts

theorem reconcile_alerts :
    (reconcile clock rules ids only alerts drafts).alerts =
      (alerts.map fun a => if inSweep only a then settle clock rules drafts a else a) ++
        newRows clock rules ids (alerts.filter (inSweep only)) drafts := by
  rw [← map_write (fun a => (settle_same a).id) hids]
  unfold reconcile
  dsimp only
  rw [show (fun key => ((alerts.filter (inSweep only)).reverse.find? (·.dedupeKey = key)).map
    (·.id)) = rowOf (alerts.filter (inSweep only)) from rfl, foldl_swept hids hkeys hdrafts,
    foldl_added, List.map_map, List.map_map]
  rfl

theorem reconcile_retired :
    (reconcile clock rules ids only alerts drafts).outcome.retired =
      ((alerts.filter (inSweep only)).filter
        (retires rules (drafts.map (·.dedupeKey)))).length := by
  have hretires : (retires rules (drafts.map (·.dedupeKey))) ∘ refreshed clock drafts =
      retires rules (drafts.map (·.dedupeKey)) :=
    funext fun a => (refreshed_same a).retires _
  unfold reconcile
  dsimp only
  rw [show (fun key => ((alerts.filter (inSweep only)).reverse.find? (·.dedupeKey = key)).map
    (·.id)) = rowOf (alerts.filter (inSweep only)) from rfl, foldl_swept hids hkeys hdrafts,
    List.filter_map, List.length_map, hretires]

theorem reconcile_escalated :
    (reconcile clock rules ids only alerts drafts).outcome.escalated =
      (((alerts.filter (inSweep only)).map (kept clock rules drafts)).filter
        (escalates clock rules (drafts.map (·.dedupeKey)))).length := by
  unfold reconcile
  dsimp only
  rw [show (fun key => ((alerts.filter (inSweep only)).reverse.find? (·.dedupeKey = key)).map
    (·.id)) = rowOf (alerts.filter (inSweep only)) from rfl, foldl_swept hids hkeys hdrafts,
    List.map_map]
  rfl

end

theorem reconcile_raised :
    (reconcile clock rules ids only alerts drafts).outcome.raised =
      (newRows clock rules ids (alerts.filter (inSweep only)) drafts).length := by
  unfold reconcile
  dsimp only
  rw [show (fun key => ((alerts.filter (inSweep only)).reverse.find? (·.dedupeKey = key)).map
    (·.id)) = rowOf (alerts.filter (inSweep only)) from rfl, foldl_added]
  rfl

end Alerts

end Clear
