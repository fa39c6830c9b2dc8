import Clear.Services.Proof.Alerts.Sweep

/-!
# The rules that govern a project

A project's own rule overrides the platform default of its type, but a disabled row is dropped when
the rules are loaded, so that the default governs instead. A disabled own rule silences its scope
exactly where there is no enabled default (`own_rule_decides_iff`).
-/

namespace Clear

namespace Alerts

variable {rules : AlertRules} {project : Uuid} {t : AlertType}

theorem lookup_loadRules {k : Option Uuid × AlertType} {rule : ResolvedRule} :
    (loadRules rules).lookup k = some rule ↔
      ∃ r ∈ rules.rows, r.isEnabled = true ∧ r.alertType ∈ evaluatedTypes ∧ r.key = k ∧
        rule = .ofRow r := by
  have hkeys : (((rules.rows.filter fun row =>
      row.isEnabled && row.alertType ∈ evaluatedTypes).map fun row =>
        (row.key, ResolvedRule.ofRow row)).map (·.1)).Nodup := by
    rw [List.map_map]
    exact rules.keys.sublist (List.filter_sublist.map _)
  unfold loadRules
  rw [Dict.ofItems_of_nodup hkeys, Dict.lookup_eq_some_iff hkeys, List.mem_map]
  constructor
  · rintro ⟨r, hr, heq⟩
    obtain ⟨rfl, rfl⟩ := Prod.mk.inj heq
    obtain ⟨hr, henabled⟩ := List.mem_filter.1 hr
    simp only [Bool.and_eq_true, decide_eq_true_eq] at henabled
    exact ⟨r, hr, henabled.1, henabled.2, rfl, rfl⟩
  · rintro ⟨r, hr, henabled, ht, rfl, rfl⟩
    exact ⟨r, List.mem_filter.2 ⟨hr, by simp [henabled, ht]⟩, rfl⟩

theorem lookup_of_disabled {r : AlertRule} (hr : r ∈ rules.rows) (h : r.isEnabled = false) :
    (loadRules rules).lookup r.key = none := by
  rw [Option.eq_none_iff_forall_ne_some]
  intro rule hrule
  obtain ⟨r', hr', henabled, -, hkey, -⟩ := lookup_loadRules.1 hrule
  rw [Keyed.inj rules.keys hr' hr hkey, h] at henabled
  cases henabled

theorem ruleFor_own {r : AlertRule} (hr : r ∈ rules.rows) (hkey : r.key = (some project, t))
    (henabled : r.isEnabled = true) (ht : t ∈ evaluatedTypes) :
    ruleFor (loadRules rules) project t = some (.ofRow r) := by
  have htype : r.alertType = t := (Prod.mk.inj hkey).2
  unfold ruleFor
  rw [lookup_loadRules.2 ⟨r, hr, henabled, htype ▸ ht, hkey, rfl⟩]
  rfl

theorem ruleFor_of_disabled {r : AlertRule} (hr : r ∈ rules.rows)
    (hkey : r.key = (some project, t)) (h : r.isEnabled = false) :
    ruleFor (loadRules rules) project t = (loadRules rules).lookup (none, t) := by
  have hnone := lookup_of_disabled hr h
  rw [hkey] at hnone
  unfold ruleFor
  rw [hnone, Option.none_or]

/-- Whether a condition holds depends on the rule that governs its type in its project, and on no
other. -/
theorem holds_congr {std : Stdlib} {db : Database} {loaded loaded' : Rules} {today : Date}
    {only : Option Uuid} {d : AlertDraft}
    (h : ruleFor loaded d.projectId d.alertType = ruleFor loaded' d.projectId d.alertType)
    (hd : Holds std db loaded today only d) : Holds std db loaded' today only d := by
  cases hd with
  | contract hcontract hmetadata he hrule heval =>
    have habout := evaluators_about he heval
    rw [habout.projectId, habout.alertType, hrule] at h
    exact .contract hcontract hmetadata he h.symm heval
  | @review contract rule _ hcontract hrule heval =>
    have habout : About std .reviewRequired contract.id contract.projectId d :=
      evaluateReviewRequired_about heval
    rw [habout.projectId, habout.alertType, hrule] at h
    exact .review hcontract h.symm heval
  | obligation hobligation hcontract hid hlive honly hrule heval =>
    have habout := evaluateObligation_about heval
    rw [habout.projectId, habout.alertType, hrule] at h
    exact .obligation hobligation hcontract hid hlive honly h.symm heval

def WindowsFit (loaded : Rules) (today : Date) : Prop :=
  ∀ window overdue, (thresholds loaded "window_days" 14).max? = some window →
    (thresholds loaded "overdue_days" 30).max? = some overdue →
      (today.addDays? window).isSome = true ∧ (today.addDays? (-overdue)).isSome = true

theorem dueObligations_ok_iff {db : Database} {loaded : Rules} {today : Date}
    {only : Option Uuid} :
    (∃ rows, dueObligations db loaded today only = .ok rows) ↔ WindowsFit loaded today := by
  unfold dueObligations WindowsFit
  constructor
  · rintro ⟨rows, h⟩ window overdue hwindow hoverdue
    rw [hwindow, hoverdue] at h
    dsimp only at h
    split at h
    next last first hlast hfirst =>
      rw [hlast, hfirst]
      exact ⟨rfl, rfl⟩
    · cases h
  · intro h
    split
    next window overdue hwindow hoverdue =>
      obtain ⟨hlast, hfirst⟩ := h window overdue hwindow hoverdue
      obtain ⟨last, hlast⟩ := Option.isSome_iff_exists.1 hlast
      obtain ⟨first, hfirst⟩ := Option.isSome_iff_exists.1 hfirst
      rw [hlast, hfirst]
      exact ⟨_, rfl⟩
    · exact ⟨_, rfl⟩

/-! ## A sweep over one scope -/

def inScope (project : Uuid) (t : AlertType) (a : Alert) : Bool :=
  a.projectId = project && a.alertType = t

theorem SameAlert.inScope {a b : Alert} (h : SameAlert a b) :
    inScope project t a = inScope project t b := by
  unfold Alerts.inScope
  rw [h.projectId, h.alertType]

/-- No sweep under these rules raises, refreshes, retires or escalates an alert of the scope. -/
def LeavesAlone (rules : AlertRules) (project : Uuid) (t : AlertType) : Prop :=
  ∀ (std : Stdlib) (clock : Clock) (ids : Nat → Uuid) (only : Option Uuid) (db db' : Database)
    (outcome : EvaluationOutcome), db.rules = rules → Sound db → clock.today.InCalendar →
    run std clock ids only db = .ok (db', outcome) →
      db'.alerts.filter (inScope project t) = db.alerts.filter (inScope project t)

def alone (r : AlertRule) : AlertRules := ⟨[r], List.nodup_singleton _⟩

/-- The rule governs the scope, and a condition of the scope holds exactly where it holds under this
rule alone. -/
def Decides (rules : AlertRules) (r : AlertRule) (project : Uuid) (t : AlertType) : Prop :=
  ruleFor (loadRules rules) project t = some (.ofRow r) ∧
    ∀ (std : Stdlib) (db : Database) (today : Date) (only : Option Uuid) (d : AlertDraft),
      d.projectId = project → d.alertType = t →
        (Holds std db (loadRules rules) today only d ↔
          Holds std db (loadRules (alone r)) today only d)

theorem own_decides {r : AlertRule} (hr : r ∈ rules.rows) (hkey : r.key = (some project, t))
    (henabled : r.isEnabled = true) (ht : t ∈ evaluatedTypes) : Decides rules r project t := by
  have hown := ruleFor_own hr hkey henabled ht
  have halone : ruleFor (loadRules (alone r)) project t = some (.ofRow r) :=
    ruleFor_own (List.mem_singleton_self r) hkey henabled ht
  refine ⟨hown, fun std db today only d hproject htype => ?_⟩
  subst hproject htype
  exact ⟨holds_congr (hown.trans halone.symm), holds_congr (halone.trans hown.symm)⟩

theorem leavesAlone_of_ungoverned (h : ruleFor (loadRules rules) project t = none) :
    LeavesAlone rules project t := by
  intro std clock ids only db db' outcome hrules hdb _ hrun
  subst hrules
  rcases run_eq_ok hrun with ⟨-, rfl⟩ | ⟨drafts, due, -, hcollect, -, -, rfl⟩
  · rfl
  have hrows : (reconcile clock (loadRules db.rules) ids only db.alerts drafts).alerts =
      after clock (loadRules db.rules) ids only db.alerts drafts :=
    reconcile_alerts hdb.alerts (swept_keys hdb) (drafts_nodup hdb hcollect)
  have hnew : (newRows clock (loadRules db.rules) ids (db.alerts.filter (inSweep only))
      drafts).filter (inScope project t) = [] := by
    rw [List.filter_eq_nil_iff]
    intro row hrow hscope
    obtain ⟨d, hd, id, -, rfl⟩ := mem_newRows hrow
    obtain ⟨subject, -, -, -, hrule, -⟩ := ((mem_collect hcollect).1 hd).about
    simp only [inScope, toRow, Bool.and_eq_true] at hscope
    rw [of_decide_eq_true hscope.1, of_decide_eq_true hscope.2, h] at hrule
    cases hrule
  have hold : ∀ rows ⊆ db.alerts,
      (rows.map fun a => if inSweep only a then settle clock (loadRules db.rules) drafts a
        else a).filter (inScope project t) = rows.filter (inScope project t) := by
    intro rows
    induction rows with
    | nil => exact fun _ => rfl
    | cons a rows ih =>
      intro hsub
      have hrest := ih fun b hb => hsub (List.mem_cons_of_mem a hb)
      rw [List.map_cons, List.filter_cons, List.filter_cons, hrest]
      by_cases hsweep : inSweep only a = true
      · rw [if_pos hsweep, (settle_same a).inScope]
        by_cases hscope : inScope project t a = true
        · simp only [inScope, Bool.and_eq_true, decide_eq_true_eq] at hscope
          rw [settle_of_ungoverned hdb hcollect (hsub List.mem_cons_self)
            (inSweep_iff.1 hsweep).1 (by rw [hscope.1, hscope.2, h])]
        · rw [if_neg hscope, if_neg hscope]
      · rw [if_neg hsweep]
  show (reconcile clock (loadRules db.rules) ids only db.alerts drafts).alerts.filter _ = _
  rw [hrows]
  unfold after
  rw [List.filter_append, hnew, List.append_nil, hold db.alerts fun _ ha => ha]

def lone (rules : AlertRules) (project : Uuid) (t : AlertType) : Database where
  rules
  contracts := []
  metadata := .empty
  clauses := []
  obligations := []
  alerts :=
    [{ id := 0, projectId := project, contractId := none, alertType := t, severity := .medium,
       status := .open, title := "", message := "", dedupeKey := "", createdAt := 0 }]

theorem lone_sound (rules : AlertRules) (project : Uuid) (t : AlertType) :
    Sound (lone rules project t) where
  contracts := List.nodup_nil
  obligations := List.nodup_nil
  alerts := List.nodup_singleton _
  keys := List.nodup_singleton _
  filed := by
    intro a _ _ t' subject project' hsubject
    unfold Subject at hsubject
    split at hsubject
    · obtain ⟨o, ho, -⟩ := hsubject
      cases ho
    · obtain ⟨c, hc, -⟩ := hsubject
      cases hc

/-- A sweep with nothing to examine retires what a rule governs. -/
theorem run_idle {std : Stdlib} {clock : Clock} {ids : Nat → Uuid} {db : Database} (hdb : Sound db)
    (hcontracts : db.contracts = []) (hobligations : db.obligations = [])
    (hne : loadRules db.rules ≠ []) (hfit : WindowsFit (loadRules db.rules) clock.today)
    (hunique : UniqueKeys (after clock (loadRules db.rules) ids none db.alerts [])) :
    ∃ outcome, run std clock ids none db =
      .ok ({ db with alerts := after clock (loadRules db.rules) ids none db.alerts [] },
        outcome) := by
  obtain ⟨due, hdue⟩ : ∃ due, dueObligations db (loadRules db.rules) clock.today none = .ok due :=
    dueObligations_ok_iff.2 hfit
  have hnil : due = [] := by
    refine List.eq_nil_iff_forall_not_mem.2 fun row hrow => ?_
    have hmem := (mem_dueObligations hdue hrow).1
    rw [hobligations] at hmem
    cases hmem
  subst hnil
  have hcollect : collect std db (loadRules db.rules) clock.today none = .ok [] := by
    unfold collect examined
    rw [hdue, hcontracts]
    rfl
  have hrows : (reconcile clock (loadRules db.rules) ids none db.alerts []).alerts =
      after clock (loadRules db.rules) ids none db.alerts [] :=
    reconcile_alerts hdb.alerts (swept_keys hdb) List.nodup_nil
  rw [← hrows] at hunique ⊢
  exact ⟨_, run_of_collect hne hcollect hdue hunique⟩

/-- A governed scope is not left alone: the alert is retired. -/
theorem not_leavesAlone {rule : ResolvedRule} {today : Date}
    (hrule : ruleFor (loadRules rules) project t = some rule) (ht : t ∈ evaluatedTypes)
    (htoday : today.InCalendar) (hfit : WindowsFit (loadRules rules) today) :
    ¬ LeavesAlone rules project t := by
  intro halone
  obtain ⟨clock, rfl⟩ : ∃ clock : Clock, clock.today = today :=
    ⟨⟨today, 0, fun _ => "2026-01-01T00:00:00+00:00", fun _ => by decide⟩, rfl⟩
  have hdb := lone_sound rules project t
  have hne : loadRules rules ≠ [] := by
    intro hempty
    rw [hempty] at hrule
    cases hrule
  have hretired : after clock (loadRules rules) (fun _ => 0) none (lone rules project t).alerts [] =
      (lone rules project t).alerts.map (retire clock) := by
    unfold after
    simp only [lone, List.map_cons, List.map_nil]
    rw [if_pos (inSweep_iff.2 ⟨rfl, ht, .inl rfl⟩), settle_of_not_mem (by simp), hrule]
    rfl
  have hunique : UniqueKeys (after clock (loadRules rules) (fun _ => 0) none
      (lone rules project t).alerts []) := by
    rw [hretired]
    exact ⟨List.nodup_singleton _, List.nodup_nil⟩
  have hrun : ∃ outcome, run Stdlib.ascii clock (fun _ => 0) none (lone rules project t) =
      .ok ({ lone rules project t with
        alerts := after clock (loadRules rules) (fun _ => 0) none (lone rules project t).alerts [] },
        outcome) := run_idle hdb rfl rfl hne hfit hunique
  obtain ⟨outcome, hrun⟩ := hrun
  have hsame := halone Stdlib.ascii clock (fun _ => 0) none _ _ outcome rfl hdb htoday hrun
  rw [hretired] at hsame
  simp [lone, retire, inScope] at hsame

/-- **A project's own rule decides its scope**, whether it is enabled or silences the scope, exactly
where no enabled platform default stands behind a disabled one (or no sweep under these rules ever
returns). -/
theorem own_rule_decides_iff (rules : AlertRules) (project : Uuid) (t : AlertType)
    (ht : t ∈ evaluatedTypes) :
    (∀ r ∈ rules.rows, r.key = (some project, t) →
      (r.isEnabled = true → Decides rules r project t) ∧
      (r.isEnabled = false → LeavesAlone rules project t)) ↔
    ¬ ((∃ r ∈ rules.rows, r.key = (some project, t) ∧ r.isEnabled = false) ∧
      (∃ r ∈ rules.rows, r.key = (none, t) ∧ r.isEnabled = true) ∧
      ∃ today : Date, today.InCalendar ∧ WindowsFit (loadRules rules) today) := by
  constructor
  · rintro hown ⟨⟨r, hr, hkey, hdisabled⟩, ⟨r', hr', hkey', henabled⟩, today, htoday, hfit⟩
    have htype : r'.alertType = t := (Prod.mk.inj hkey').2
    have hrule : ruleFor (loadRules rules) project t = some (.ofRow r') := by
      rw [ruleFor_of_disabled hr hkey hdisabled]
      exact lookup_loadRules.2 ⟨r', hr', henabled, htype ▸ ht, hkey', rfl⟩
    exact not_leavesAlone hrule ht htoday hfit ((hown r hr hkey).2 hdisabled)
  · intro hnot r hr hkey
    refine ⟨fun henabled => own_decides hr hkey henabled ht, fun hdisabled => ?_⟩
    cases hdefault : (loadRules rules).lookup (none, t) with
    | none =>
      apply leavesAlone_of_ungoverned
      rw [ruleFor_of_disabled hr hkey hdisabled, hdefault]
    | some rule =>
      -- the default governs: then no sweep returns
      obtain ⟨r', hr', henabled, -, hkey', -⟩ := lookup_loadRules.1 hdefault
      intro std clock ids only db db' outcome hrules hdb htoday hrun
      subst hrules
      rcases run_eq_ok hrun with ⟨-, rfl⟩ | ⟨drafts, due, -, -, hdue, -, -⟩
      · rfl
      · exact absurd ⟨⟨r, hr, hkey, hdisabled⟩, ⟨r', hr', hkey', henabled⟩, clock.today, htoday,
          dueObligations_ok_iff.1 ⟨due, hdue⟩⟩ hnot

/-! ### A project that switched the type off -/

def Sample.overridden : AlertRules where
  rows :=
    [{ id := 4, projectId := none, alertType := .contractExpiring },
      { id := 5, projectId := some 1, alertType := .contractExpiring, isEnabled := false }]
  keys := by decide

theorem Sample.overridden_fit :
    WindowsFit (loadRules Sample.overridden) Sample.december.today := by
  intro window overdue hwindow
  cases hwindow

theorem own_rule_decides_iff_sample :
    ¬ ∀ r ∈ Sample.overridden.rows, r.key = (some 1, .contractExpiring) →
      (r.isEnabled = true → Decides Sample.overridden r 1 .contractExpiring) ∧
      (r.isEnabled = false → LeavesAlone Sample.overridden 1 .contractExpiring) := by
  rw [own_rule_decides_iff Sample.overridden 1 .contractExpiring (by decide)]
  refine fun hnot => hnot ⟨⟨_, List.mem_cons_of_mem _ List.mem_cons_self, rfl, rfl⟩,
    ⟨_, List.mem_cons_self, rfl, rfl⟩, Sample.december.today, ?_, Sample.overridden_fit⟩
  unfold Date.InCalendar
  decide

/-- The sweep raises an expiry alert and retires another in the project that switched them off. -/
theorem disabled_override_sweeps :
    (∃ r ∈ Sample.overridden.rows, r.key = (some 1, .contractExpiring) ∧ r.isEnabled = false) ∧
      ∃ db' outcome,
        run Sample.texts Sample.december (BitVec.ofNat 128) none
          (Sample.database Sample.overridden) = .ok (db', outcome) ∧
        outcome.raised = 1 ∧ outcome.retired = 1 ∧
        db'.alerts.filter (inScope 1 .contractExpiring) ≠
          (Sample.database Sample.overridden).alerts.filter (inScope 1 .contractExpiring) := by
  refine ⟨⟨_, List.mem_cons_of_mem _ List.mem_cons_self, rfl, rfl⟩, ?_⟩
  have hok : (run Sample.texts Sample.december (BitVec.ofNat 128) none
      (Sample.database Sample.overridden)).toOption.any (fun swept =>
        swept.2.raised = 1 && swept.2.retired = 1 &&
          (swept.1.alerts.filter (inScope 1 .contractExpiring)).length = 2) = true := by
    decide +kernel
  obtain ⟨⟨db', outcome⟩, hrun, hswept⟩ := (Option.any_eq_true _ _).1 hok
  simp only [Bool.and_eq_true, decide_eq_true_eq] at hswept
  refine ⟨db', outcome, Except.toOption_eq_some.1 hrun, hswept.1.1, hswept.1.2, fun heq => ?_⟩
  have hlength := hswept.2
  rw [heq] at hlength
  revert hlength
  decide

end Alerts

end Clear

/-!
## Values that stop a sweep

A threshold that is no number counts as its default, but three values raise: a `clause_types` that
cannot be iterated, a notice period that leaves the calendar when it is counted back from the expiry,
and an obligation window that leaves it from today. `collect` returns where none of them occurs
(`collect_returns_iff`).
-/

namespace Clear

namespace Alerts

variable {std : Stdlib} {db : Database} {rules : Rules} {today : Date} {only : Option Uuid}
variable {contract : ContractRow} {metadata : ContractMetadata} {rule : ResolvedRule}

def Watchable (rule : ResolvedRule) : Prop :=
  (Value.get rule.config "clause_types").truthy = true →
    (Value.get rule.config "clause_types").iter.isSome = true

def NoticeFits (metadata : ContractMetadata) (rule : ResolvedRule) : Prop :=
  (metadata.value .autoRenewal).truthy = true → metadata.date? .noticeDeadline = none →
    ∀ expiry, metadata.date? .expirationDate = some expiry →
      (expiry.addDays? (-int (metadata.value .autoRenewalNoticeDays)
        (rule.days "lead_days" 45))).isSome = true

theorem evaluateMissingClause_ok_iff :
    (∃ o, evaluateMissingClause std contract metadata rule today = .ok o) ↔ Watchable rule := by
  unfold evaluateMissingClause Watchable
  rw [Except.exists_map_ok]
  unfold texts
  cases (Value.get rule.config "clause_types").truthy with
  | false => simp
  | true =>
    cases (Value.get rule.config "clause_types").iter <;> simp

theorem evaluateAutoRenewal_ok_iff :
    (∃ o, evaluateAutoRenewal std contract metadata rule today = .ok o) ↔
      NoticeFits metadata rule := by
  unfold evaluateAutoRenewal NoticeFits
  cases (metadata.value .autoRenewal).truthy with
  | false => simp
  | true =>
    rw [if_neg (by simp)]
    dsimp only
    rw [Except.exists_map_ok]
    unfold noticeDeadline
    cases metadata.date? .noticeDeadline with
    | some deadline => simp
    | none =>
      cases metadata.date? .expirationDate with
      | none => simp
      | some expiry =>
        dsimp only
        cases hdeadline : expiry.addDays? (-int (metadata.value .autoRenewalNoticeDays)
          (rule.days "lead_days" 45)) <;> simp [hdeadline]

structure Evaluable (db : Database) (rules : Rules) (contract : ContractRow) : Prop where
  watchable : ∀ metadata rule, db.metadata.getForContract contract.id = some metadata →
    ruleFor rules contract.projectId .missingMandatoryClause = some rule → Watchable rule
  noticeFits : ∀ metadata rule, db.metadata.getForContract contract.id = some metadata →
    ruleFor rules contract.projectId .autoRenewalNotice = some rule → NoticeFits metadata rule

theorem evaluate_ok_iff {o : Option ContractMetadata} {e : AlertType × Evaluator} :
    (∃ d, evaluate rules today contract o e = .ok d) ↔
      ∀ metadata rule, o = some metadata → ruleFor rules contract.projectId e.1 = some rule →
        ∃ d, e.2 contract metadata rule today = .ok d := by
  unfold evaluate
  cases ruleFor rules contract.projectId e.1 with
  | none => simp
  | some rule => cases o <;> simp

theorem contractDrafts_ok_iff :
    (∃ drafts, contractDrafts std db rules today only contract = .ok drafts) ↔
      Evaluable db rules contract := by
  unfold contractDrafts
  rw [Except.exists_map_ok, Except.exists_mapM_iff]
  simp only [evaluate_ok_iff, evaluators, List.forall_mem_cons]
  constructor
  · rintro ⟨-, hrenewal, -, hmissing, -⟩
    refine ⟨fun metadata rule hmetadata hrule => ?_, fun metadata rule hmetadata hrule => ?_⟩
    · exact evaluateMissingClause_ok_iff.1 (hmissing metadata rule hmetadata hrule)
    · exact evaluateAutoRenewal_ok_iff.1 (hrenewal metadata rule hmetadata hrule)
  · intro h
    refine ⟨fun _ _ _ _ => ⟨_, rfl⟩, fun metadata rule hmetadata hrule => ?_,
      fun _ _ _ _ => ⟨_, rfl⟩, fun metadata rule hmetadata hrule => ?_, by simp⟩
    · exact evaluateAutoRenewal_ok_iff.2 (h.noticeFits metadata rule hmetadata hrule)
    · exact evaluateMissingClause_ok_iff.2 (h.watchable metadata rule hmetadata hrule)

/-- **One bad value does not stop the sweep**: a threshold that is no number counts as its default,
and the collection returns, exactly where no examined contract has a value that cannot be evaluated
and the obligation windows stay in the calendar. -/
theorem collect_returns_iff (std : Stdlib) (db : Database) (rules : Rules) (today : Date)
    (only : Option Uuid) :
    ((∀ (rule : ResolvedRule) (key : String) (default : Int),
        (Value.get rule.config key).toInt? = none → rule.days key default = default) ∧
      ∃ drafts, collect std db rules today only = .ok drafts) ↔
    (∀ contract ∈ examined db only, Evaluable db rules contract) ∧ WindowsFit rules today := by
  have hcollect : (∃ drafts, collect std db rules today only = .ok drafts) ↔
      (∃ found, (examined db only).mapM (contractDrafts std db rules today only) = .ok found) ∧
        ∃ due, dueObligations db rules today only = .ok due := by
    unfold collect
    constructor
    · rintro ⟨drafts, h⟩
      obtain ⟨found, hfound, h⟩ := Except.bind_eq_ok.1 h
      obtain ⟨due, hdue, -⟩ := Except.bind_eq_ok.1 h
      exact ⟨⟨found, hfound⟩, due, hdue⟩
    · rintro ⟨⟨found, hfound⟩, due, hdue⟩
      rw [hfound, hdue]
      exact ⟨_, rfl⟩
  rw [hcollect, Except.exists_mapM_iff, dueObligations_ok_iff]
  simp only [contractDrafts_ok_iff]
  constructor
  · exact fun h => h.2
  · refine fun h => ⟨fun rule key default hnone => ?_, h⟩
    unfold ResolvedRule.days int
    rw [hnone]
    rfl

def Sample.wide : AlertRules where
  rows :=
    [{ id := 6, projectId := none, alertType := .obligationDue,
       config := [("window_days", .int 10000000000)] }]
  keys := by decide

/-- The whole sweep fails: no contract is evaluated. -/
theorem wide_window_raises :
    ¬ ∃ drafts, collect Sample.texts (Sample.database Sample.wide) (loadRules Sample.wide)
      Sample.december.today none = .ok drafts := by
  rintro ⟨drafts, h⟩
  unfold collect at h
  obtain ⟨found, -, h⟩ := Except.bind_eq_ok.1 h
  obtain ⟨due, hdue, -⟩ := Except.bind_eq_ok.1 h
  have hfit := dueObligations_ok_iff.1 ⟨due, hdue⟩
  have hlast := (hfit 10000000000 30 (by decide) (by decide)).1
  rw [Date.addDays?_isSome] at hlast
  omega

end Alerts

end Clear
